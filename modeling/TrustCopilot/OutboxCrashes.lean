import TrustCopilot.OutboxClaims

/-! Pollers that die. A crash rolls an open claim back and loses the poller's list, but the
rows of its committed claims stay as they are, and nothing ever reads `claimed_at` again. -/
namespace TrustCopilot.Outbox

open TrustCopilot.OrderedDict
open TrustCopilot.Trace

variable {κ : Type*} [DecidableEq κ] {workerId : κ → String} {s : Store κ}

def Recoverable (s : Store κ) : Prop :=
  ∀ id row, s.rows.get? id = some row → row.status ≠ .completed → row.status ≠ .dead →
    row.status = .pending ∨ ∃ k, (k, row) ∈ s.held

def SparesHolders (s : Store κ) : PollerStep κ → Prop
  | .crash k => ∀ h ∈ s.held, h.1 ≠ k
  | _ => True

instance (s : Store κ) : (e : PollerStep κ) → Decidable (SparesHolders s e)
  | .crash k => inferInstanceAs (Decidable (∀ h ∈ s.held, h.1 ≠ k))
  | .publish .. => isTrue trivial
  | .select .. => isTrue trivial
  | .commitClaim .. => isTrue trivial
  | .rollback _ => isTrue trivial
  | .complete .. => isTrue trivial
  | .fail .. => isTrue trivial

def AlwaysRecoverable (workerId : κ → String) (steps : List (PollerStep κ)) : Prop :=
  ∀ xs, xs <+: steps → Recoverable (run workerId xs)

theorem mem_letGo {events : List (κ × OutboxEvent)} {k : κ} {event : OutboxEvent}
    {h : κ × OutboxEvent} : h ∈ letGo events k event ↔ h ∈ events ∧ h ≠ (k, event) := by
  simp [letGo]

/-- A row that a finishing poller does not write is as recoverable as before. -/
theorem recoverable_finish {f : OutboxEvent → OutboxEvent} {s' : Store κ} {k : κ}
    {event : OutboxEvent} (hx : Exclusive workerId s) (h : Recoverable s)
    (he : (k, event) ∈ s.held)
    (hrows : ∀ id, s'.rows.get? id =
      if id ∈ [event.id] then (s.rows.get? id).map f else s.rows.get? id)
    (hheld : s'.held = letGo s.held k event)
    (hdone : (f event).status = .completed ∨ (f event).status = .dead ∨
      (f event).status = .pending) : Recoverable s' := by
  intro id row hrow hcomplete hdead
  rw [hrows] at hrow
  split at hrow
  · next hid =>
    rw [List.mem_singleton.1 hid, (hx.held _ he).1] at hrow
    cases hrow
    exact Or.inl ((hdone.resolve_left hcomplete).resolve_left hdead)
  · next hid =>
    refine (h id row hrow hcomplete hdead).imp_right ?_
    rintro ⟨j, hj⟩
    refine ⟨j, hheld ▸ mem_letGo.2 ⟨hj, fun heq => hid ?_⟩⟩
    cases heq
    exact List.mem_singleton.2 (hx.keyed id event hrow).symm

theorem recoverable_next (hx : Exclusive workerId s) (h : Recoverable s) {e : PollerStep κ}
    (he : Enabled s e) (hc : SparesHolders s e) : Recoverable (next workerId s e) := by
  cases e with
  | publish event =>
    rw [next]
    split
    · intro id row hrow hcomplete hdead
      rcases Dict.get?_set_cases hrow with ⟨-, rfl⟩ | ⟨-, hold⟩
      · exact Or.inl he.1
      · exact h id row hold hcomplete hdead
    · exact h
  | select k n ordered => exact h
  | rollback k => exact h
  | commitClaim k now =>
    intro id row hrow hcomplete hdead
    rw [claim_rows hx] at hrow
    split at hrow
    · next hid =>
      obtain ⟨old, hin, rfl⟩ := List.mem_map.1 hid
      rw [selection_rows hx k old hin] at hrow
      cases hrow
      right
      exact ⟨k, List.mem_append_right _ (List.mem_map_of_mem (List.mem_map_of_mem hin))⟩
    · refine (h id row hrow hcomplete hdead).imp_right ?_
      rintro ⟨j, hj⟩
      exact ⟨j, List.mem_append_left _ hj⟩
  | complete k event now =>
    exact recoverable_finish hx h he
      (finish_rows (complete_id now) (flushComplete_complete now) hx he) rfl (Or.inl rfl)
  | fail k event error =>
    refine recoverable_finish hx h he
      (finish_rows (fail_id error) (flushFail_fail error) hx he) rfl (Or.inr ?_)
    rw [fail]
    split
    · exact Or.inl rfl
    · exact Or.inr rfl
  | crash k =>
    intro id row hrow hcomplete hdead
    refine (h id row hrow hcomplete hdead).imp_right ?_
    rintro ⟨j, hj⟩
    exact ⟨j, List.mem_filter.2 ⟨hj, by simpa using hc _ hj⟩⟩

theorem run_recoverable {steps : List (PollerStep κ)}
    (h : ValidTrace Enabled (next workerId) Store.empty steps)
    (hc : ValidTrace SparesHolders (next workerId) Store.empty steps) :
    Recoverable (run workerId steps) := by
  induction steps using List.reverseRecOn with
  | nil => intro id row hrow; cases hrow
  | append_singleton steps e ih =>
    obtain ⟨hes, he⟩ := validTrace_concat.1 h
    obtain ⟨hcs, hce⟩ := validTrace_concat.1 hc
    rw [run, runTrace_concat]
    exact recoverable_next (run_books hes).1 (ih hes hcs) he hce

structure Stranded (s : Store κ) (row : OutboxEvent) : Prop where
  stored : s.rows.get? row.id = some row
  claimed : row.status = .claimed
  unheld : ∀ h ∈ s.held, h.2.id ≠ row.id

theorem crash_strands (hx : Exclusive workerId s) {k : κ} {event : OutboxEvent}
    (he : (k, event) ∈ s.held) : Stranded (next workerId s (.crash k)) event where
  stored := (hx.held _ he).1
  claimed := (hx.held _ he).2.1
  unheld := by
    intro h hh hid
    obtain ⟨hh, hk⟩ := List.mem_filter.1 hh
    have : h = (k, event) := held_unique hx hh he hid
    simp [this] at hk

omit [DecidableEq κ] in
theorem stranded_not_recoverable {row : OutboxEvent} (h : Stranded s row) :
    ¬ Recoverable s := by
  intro hr
  have hs := h.claimed
  rcases hr row.id row h.stored (by simp [hs]) (by simp [hs]) with hp | ⟨k, hk⟩
  · simp [hs] at hp
  · exact h.unheld _ hk rfl

/-- No step of any poller touches a stranded row. -/
theorem stranded_next (hx : Exclusive workerId s) {row : OutboxEvent} (h : Stranded s row)
    {e : PollerStep κ} (he : Enabled s e) : Stranded (next workerId s e) row := by
  cases e with
  | publish event =>
    rw [next]
    split
    · next ha => exact ⟨row_kept_insert ha h.stored, h.claimed, h.unheld⟩
    · exact h
  | select k n ordered => exact ⟨h.stored, h.claimed, h.unheld⟩
  | rollback k => exact ⟨h.stored, h.claimed, h.unheld⟩
  | crash k => exact ⟨h.stored, h.claimed, fun m hm => h.unheld m (List.mem_filter.1 hm).1⟩
  | commitClaim k now =>
    -- the rows of a claim are pending, this one is not
    have hout : row.id ∉ (selection s k).map OutboxEvent.id := by
      intro hin
      obtain ⟨old, hold, hid⟩ := List.mem_map.1 hin
      obtain ⟨hrow, hp⟩ := hx.locked _ (mem_selection.1 hold)
      have hrow : s.rows.get? old.id = some old := hrow
      rw [hid, h.stored] at hrow
      cases hrow
      rw [h.claimed] at hp
      cases hp
    refine ⟨row_kept (claim_rows hx k now) h.stored hout, h.claimed, fun m hm hid => ?_⟩
    rcases List.mem_append.1 hm with hm | hm
    · exact h.unheld m hm hid
    · obtain ⟨c, hc, rfl⟩ := List.mem_map.1 hm
      obtain ⟨old, hold, rfl⟩ := List.mem_map.1 hc
      exact hout (List.mem_map.2 ⟨old, hold, hid⟩)
  | complete k event now =>
    refine ⟨row_kept (finish_rows (complete_id now) (flushComplete_complete now) hx he)
      h.stored fun hid => ?_, h.claimed, fun m hm => h.unheld m (mem_letGo.1 hm).1⟩
    exact h.unheld _ he (List.mem_singleton.1 hid).symm
  | fail k event error =>
    refine ⟨row_kept (finish_rows (fail_id error) (flushFail_fail error) hx he)
      h.stored fun hid => ?_, h.claimed, fun m hm => h.unheld m (mem_letGo.1 hm).1⟩
    exact h.unheld _ he (List.mem_singleton.1 hid).symm

theorem stranded_run {xs ys : List (PollerStep κ)} {row : OutboxEvent}
    (hv : ValidTrace Enabled (next workerId) Store.empty (xs ++ ys))
    (h : Stranded (run workerId xs) row) : Stranded (run workerId (xs ++ ys)) row := by
  induction ys using List.reverseRecOn with
  | nil => rwa [List.append_nil]
  | append_singleton ys e ih =>
    rw [← List.append_assoc] at hv ⊢
    obtain ⟨hes, he⟩ := validTrace_concat.1 hv
    rw [run, runTrace_concat]
    exact stranded_next (run_books hes).1 (ih hes) he

/-- Every unfinished event stays within reach of the pollers exactly as long as no poller
dies with events in its hands. -/
theorem recoverable_iff_holders_survive {steps : List (PollerStep κ)}
    (h : ValidTrace Enabled (next workerId) Store.empty steps) :
    AlwaysRecoverable workerId steps ↔
      ValidTrace SparesHolders (next workerId) Store.empty steps := by
  constructor
  · intro hr
    refine validTrace_of_after fun xs e hp _ => ?_
    cases e with
    | crash k =>
      rintro ⟨j, event⟩ hheld rfl
      obtain ⟨hx, -⟩ := run_books (validTrace_earlier ((List.prefix_append xs [_]).trans hp) h)
      have hafter := hr _ hp
      rw [run, runTrace_concat] at hafter
      exact stranded_not_recoverable (crash_strands hx hheld) hafter
    | _ => trivial
  · intro hc xs hp
    exact run_recoverable (validTrace_earlier hp h) (validTrace_earlier hp hc)

def deadHolder : List (PollerStep Bool) := (twoPollers.take 6) ++ [.crash false]

theorem survivors_recoverable : AlwaysRecoverable sampleWorkerId twoPollers :=
  (recoverable_iff_holders_survive (by decide)).2 (by decide)

theorem dead_holder_strands :
    ValidTrace Enabled (next sampleWorkerId) Store.empty deadHolder ∧
    ¬ Recoverable (run sampleWorkerId deadHolder) ∧
    ∀ later, ValidTrace Enabled (next sampleWorkerId) Store.empty (deadHolder ++ later) →
      (run sampleWorkerId (deadHolder ++ later)).rows.get? "e1" = some sampleClaimed := by
  have hstranded : Stranded (run sampleWorkerId deadHolder) sampleClaimed :=
    ⟨by decide, by decide, by decide⟩
  refine ⟨by decide, stranded_not_recoverable hstranded, fun later hv => ?_⟩
  exact (stranded_run hv hstranded).stored

end TrustCopilot.Outbox
