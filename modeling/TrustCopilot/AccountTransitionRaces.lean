import TrustCopilot.AccountStates
import TrustCopilot.Library.UnlockedUpdate

/-! Concurrent transition requests on one account. Every request runs in its own session:
it loads the row, checks the guard against the loaded copy, and its commit writes the state,
the time and the version computed from that copy, keyed by the row id only. -/
namespace TrustCopilot.AccountTransitionRaces

open TrustCopilot.Trace
open TrustCopilot.AccountStates
open TrustCopilot.UnlockedUpdate (Update Store Action Session Serial Stamped FreshCommit)

/-- The update statement of a commit: the columns the transition set, on the committed row. -/
def writeTransition (row copy : Account) : Account :=
  { row with
    state := copy.state
    stateChangedAt := copy.stateChangedAt
    version := copy.version }

def transitionUpdate : Update Account TransitionRequest AuditEvent where
  apply copy req := (transitionById (some copy) copy.id req).toOption
  write := writeTransition
  admits := keyUnique

abbrev RequestAction (κ : Type*) := Action κ TransitionRequest

variable {κ : Type*} [DecidableEq κ]

def run (row : Account) (es : List (RequestAction κ)) : Store κ Account AuditEvent :=
  UnlockedUpdate.run transitionUpdate row es

def committedStates (row : Account) (s : Store κ Account AuditEvent) : List AccountState :=
  (UnlockedUpdate.committed row s).map Account.state

structure TransitionsSafe (row : Account) (es : List (RequestAction κ)) : Prop where
  path : (committedStates row (run row es)).IsChain fun a b => canTransition a b = true
  version : (run row es).cell.version = row.version + (run row es).log.length
  terminal : ∀ xs, xs <+: es → Terminal (run row xs).cell.state →
    (run row es).cell.state = (run row xs).cell.state

/-- The optimistic test that no commit makes: the version it loaded is still committed. -/
def CommitsLoadedVersion (s : Store κ Account AuditEvent) (e : RequestAction κ) : Prop :=
  FreshCommit transitionUpdate Account.version s e

instance (s : Store κ Account AuditEvent) (e : RequestAction κ) :
    Decidable (CommitsLoadedVersion s e) :=
  inferInstanceAs (Decidable (FreshCommit _ _ _ _))

theorem apply_some {acc acc' : Account} {req : TransitionRequest} {audit : AuditEvent}
    (h : transitionUpdate.apply acc req = some (acc', audit)) :
    transition acc req = .ok (acc', audit) := by
  simp only [transitionUpdate] at h
  cases ht : transitionById (some acc) acc.id req with
  | ok r => rw [ht] at h; cases h; exact transitionById_ok_iff.1 ht
  | error e => rw [ht] at h; cases h

theorem transition_stamped :
    Stamped transitionUpdate (fun _ => True) Account.version (fun _ => 1) where
  good := fun _ _ => trivial
  advance := fun _ h => (transition_ok (apply_some h)).2.2.2.1
  positive := fun _ _ => one_pos
  write_good := fun _ _ => trivial
  write_stamp := rfl
  write_self := by
    intro acc req acc' audit _ h
    have hid := (transition_ok (apply_some h)).2.1
    cases acc'
    simp_all [transitionUpdate, writeTransition]

omit [DecidableEq κ] in
/-- Transitions served one at a time walk the transition table. -/
theorem serial_path {row acc : Account} {s : Store κ Account AuditEvent}
    (h : Serial transitionUpdate row s.log acc) :
    (committedStates row s).IsChain fun a b => canTransition a b = true := by
  have hstep : ∀ {acc req acc' audit}, transitionUpdate.apply acc req = some (acc', audit) →
      canTransition acc.state acc'.state = true := by
    intro acc req acc' audit ha
    obtain ⟨hc, -, hs, -⟩ := transition_ok (apply_some ha)
    rw [hs]
    exact hc
  rw [committedStates, List.isChain_map]
  exact (UnlockedUpdate.serial_chain hstep h).1

theorem committed_states_last (row : Account) (es : List (RequestAction κ)) :
    (committedStates row (run row es)).getLast? = some (run row es).cell.state := by
  rw [committedStates, List.getLast?_map]
  exact congrArg _ (UnlockedUpdate.committed_last transitionUpdate row es)

/-- A path of the table that has come to a terminal state is not extended. -/
theorem terminal_absorbs {row : Account} {xs es : List (RequestAction κ)} (hp : xs <+: es)
    (hpath : (committedStates row (run row es)).IsChain fun a b => canTransition a b = true)
    (ht : Terminal (run row xs).cell.state) :
    (run row es).cell.state = (run row xs).cell.state := by
  obtain ⟨later, hlog⟩ := UnlockedUpdate.log_prefix transitionUpdate row hp
  have hstates : committedStates row (run row es) =
      committedStates row (run row xs) ++ later.map fun r => r.2.state := by
    simp only [committedStates, UnlockedUpdate.committed, run]
    rw [← hlog]
    simp
  have hlast := committed_states_last row es
  cases later with
  | nil =>
    rw [hstates, List.map_nil, List.append_nil, committed_states_last] at hlast
    exact (Option.some.inj hlast).symm
  | cons r later =>
    rw [hstates, List.isChain_append] at hpath
    have hc := hpath.2.2 _ (committed_states_last row xs) r.2.state rfl
    rw [terminal_no_transition ht] at hc
    cases hc

theorem transitions_safe_iff_loaded_version_current (row : Account)
    (es : List (RequestAction κ)) :
    (∀ xs, xs <+: es → TransitionsSafe row xs) ↔
      ValidTrace CommitsLoadedVersion (UnlockedUpdate.next transitionUpdate)
        (UnlockedUpdate.initial row) es := by
  have haccount : (∀ xs, xs <+: es → UnlockedUpdate.Accounted Account.version (fun _ => 1) row
      (UnlockedUpdate.run transitionUpdate row xs)) ↔ _ :=
    UnlockedUpdate.accounted_iff_fresh transition_stamped trivial es
  constructor
  · intro h
    refine haccount.1 fun xs hp => ?_
    have := (h xs hp).version
    simpa [UnlockedUpdate.Accounted, run] using this
  · intro hf xs hp
    have hserial := UnlockedUpdate.fresh_run_serial transition_stamped trivial
      (validTrace_earlier hp hf)
    have hpath := serial_path (s := run row xs) hserial
    exact {
      path := hpath
      version := by
        have := haccount.2 hf xs hp
        simpa [UnlockedUpdate.Accounted, run] using this
      terminal := fun ys hy ht => terminal_absorbs hy hpath ht }

def newAccount : Account := ⟨"acc-1", .rawSignal, 0, 1⟩

def staleCommit : List (RequestAction ℕ) :=
  [.load 0, .load 1, .check 0 { targetState := .blocked, now := 1 },
    .check 1 { targetState := .candidateAccount, now := 1 }, .commit 0, .commit 1]

theorem stale_commit_unsafe :
    committedStates newAccount (run newAccount staleCommit) =
      [.rawSignal, .blocked, .candidateAccount] ∧
    (run newAccount staleCommit).cell.version = 2 ∧
    ¬ TransitionsSafe newAccount staleCommit := by
  refine ⟨by decide, by decide, fun h => ?_⟩
  have hv := h.version
  revert hv
  decide

end TrustCopilot.AccountTransitionRaces
