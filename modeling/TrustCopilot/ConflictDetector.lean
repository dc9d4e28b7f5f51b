import TrustCopilot.Library.OrderedDict
import TrustCopilot.Library.Trace

/-! The detector that keeps two outreach strategies off one account. -/
namespace TrustCopilot.ConflictDetector

open TrustCopilot.OrderedDict
open TrustCopilot.Trace

structure ActiveStrategy where
  accountId : String
  strategyId : String
  targetRole : String
  narrativeHash : String
  deriving DecidableEq, Repr

structure ConflictResult where
  hasConflict : Bool
  reasonCodes : List String := []
  blocked : Bool := false
  explanation : String := ""
  deriving DecidableEq, Repr

structure LogEntry where
  accountId : String
  existingStrategy : String
  newStrategy : String
  reasons : List String
  deriving DecidableEq, Repr

structure Detector where
  active : Dict String ActiveStrategy
  log : List LogEntry

def Detector.new : Detector := ⟨Dict.empty, []⟩

def conflicts (existing new : ActiveStrategy) : List String :=
  (if existing.strategyId ≠ new.strategyId then ["duplicate_active_strategy"] else []) ++
    (if existing.targetRole ≠ new.targetRole then ["conflicting_target_role"] else []) ++
    (if existing.narrativeHash ≠ new.narrativeHash then ["contradictory_narrative"] else [])

def registerStrategy (s : Detector) (new : ActiveStrategy) : ConflictResult × Detector :=
  match s.active.get? new.accountId with
  | none => ({ hasConflict := false }, { s with active := s.active.set new.accountId new })
  | some existing =>
    let reasons := conflicts existing new
    if reasons ≠ [] then
      ({ hasConflict := true
         reasonCodes := reasons
         blocked := true
         explanation :=
          "Conflict: " ++ ", ".intercalate reasons ++ " for account " ++ new.accountId },
        { s with log := s.log ++ [⟨new.accountId, existing.strategyId, new.strategyId, reasons⟩] })
    else ({ hasConflict := false }, s)

def clearStrategy (s : Detector) (accountId : String) : Bool × Detector :=
  if accountId ∈ s.active.keys then (true, { s with active := s.active.erase accountId })
  else (false, s)

inductive Call where
  | register (new : ActiveStrategy)
  | clear (accountId : String)
  deriving DecidableEq, Repr

def next (s : Detector) : Call → Detector
  | .register new => (registerStrategy s new).2
  | .clear a => (clearStrategy s a).2

def run (calls : List Call) : Detector := runTrace next .new calls

/-- The strategy that an account was given first after it was last cleared. -/
def given (a : String) : List Call → Option ActiveStrategy → Option ActiveStrategy
  | [], found => found
  | .register new :: calls, found =>
    given a calls (if new.accountId = a then found.or (some new) else found)
  | .clear j :: calls, found => given a calls (if j = a then none else found)

/-- An account and its strategy stay apart from what happens to the others; the log gets an entry
exactly for a registration that is refused. -/
theorem registerStrategy_cases (s : Detector) (new : ActiveStrategy) :
    (s.active.get? new.accountId = none ∧ (registerStrategy s new).1.blocked = false ∧
      (registerStrategy s new).2 = { s with active := s.active.set new.accountId new }) ∨
    (∃ existing, s.active.get? new.accountId = some existing ∧
      ((conflicts existing new = [] ∧ (registerStrategy s new).1.blocked = false ∧
          (registerStrategy s new).2 = s) ∨
        (conflicts existing new ≠ [] ∧ (registerStrategy s new).1.blocked = true ∧
          (registerStrategy s new).2 = { s with log := s.log ++ [⟨new.accountId,
            existing.strategyId, new.strategyId, conflicts existing new⟩] }))) := by
  cases hget : s.active.get? new.accountId with
  | none => exact Or.inl (by simp [registerStrategy, hget])
  | some existing =>
    refine Or.inr ⟨existing, rfl, ?_⟩
    by_cases hsame : conflicts existing new = []
    · exact Or.inl (by simp [registerStrategy, hget, hsame])
    · exact Or.inr (by simp [registerStrategy, hget, hsame])

theorem conflicts_nil_iff {existing new : ActiveStrategy}
    (h : existing.accountId = new.accountId) : conflicts existing new = [] ↔ existing = new := by
  constructor
  · intro hnil
    cases existing
    cases new
    simp only [conflicts, List.append_eq_nil_iff] at hnil
    simp_all
  · rintro rfl
    simp [conflicts]

def Named (s : Detector) : Prop := ∀ a st, s.active.get? a = some st → st.accountId = a

theorem named_next {s : Detector} (h : Named s) (c : Call) : Named (next s c) := by
  intro a st hget
  cases c with
  | register new =>
    rw [next] at hget
    rcases registerStrategy_cases s new with
      ⟨-, -, hafter⟩ | ⟨existing, -, ⟨-, -, hafter⟩ | ⟨-, -, hafter⟩⟩
    · rw [hafter] at hget
      rcases Dict.get?_set_cases hget with ⟨rfl, rfl⟩ | ⟨-, hold⟩
      · rfl
      · exact h a st hold
    · rw [hafter] at hget
      exact h a st hget
    · rw [hafter] at hget
      exact h a st hget
  | clear j =>
    rw [next, clearStrategy] at hget
    split at hget
    · rw [Dict.get?_erase] at hget
      split at hget
      · cases hget
      · exact h a st hget
    · exact h a st hget

theorem get?_clear (s : Detector) (j a : String) :
    (clearStrategy s j).2.active.get? a = if a = j then none else s.active.get? a := by
  rw [clearStrategy]
  by_cases hj : j ∈ s.active.keys
  · rw [if_pos hj]
    exact Dict.get?_erase _ _ _
  · rw [if_neg hj]
    split
    · next h =>
      subst a
      have hnone := mt Dict.get?_isSome_iff.1 hj
      simpa using hnone
    · rfl

theorem get?_register (s : Detector) (new : ActiveStrategy) (a : String) :
    (registerStrategy s new).2.active.get? a =
      if new.accountId = a then (s.active.get? a).or (some new) else s.active.get? a := by
  rcases registerStrategy_cases s new with
    ⟨hnone, -, hafter⟩ | ⟨existing, hsome, ⟨-, -, hafter⟩ | ⟨-, -, hafter⟩⟩
  · rw [hafter, Dict.get?_set]
    by_cases ha : new.accountId = a
    · subst a
      simp [hnone]
    · simp [ha, Ne.symm ha]
  · rw [hafter]
    by_cases ha : new.accountId = a
    · subst a
      simp [hsome]
    · simp [ha]
  · rw [hafter]
    by_cases ha : new.accountId = a
    · subst a
      simp [hsome]
    · simp [ha]

theorem get?_runTrace (s : Detector) (calls : List Call) (a : String) :
    (runTrace next s calls).active.get? a = given a calls (s.active.get? a) := by
  induction calls generalizing s with
  | nil => rfl
  | cons c calls ih =>
    rw [runTrace, ih]
    cases c with
    | register new => rw [next, get?_register, given]
    | clear j =>
      rw [next, get?_clear, given]
      by_cases hj : j = a
      · rw [if_pos hj, if_pos hj.symm]
      · rw [if_neg hj, if_neg (Ne.symm hj)]

theorem given_kept {a : String} {calls : List Call} (h : Call.clear a ∉ calls)
    (st : ActiveStrategy) : given a calls (some st) = some st := by
  induction calls with
  | nil => rfl
  | cons c calls ih =>
    rw [List.mem_cons, not_or] at h
    cases c with
    | register new =>
      rw [given]
      simpa using ih h.2
    | clear j =>
      have hj : j ≠ a := fun hja => h.1 (by rw [hja])
      rw [given, if_neg hj]
      exact ih h.2

theorem named_runTrace {s : Detector} (h : Named s) (calls : List Call) :
    Named (runTrace next s calls) :=
  history_invariant (I := fun _ => Named) h (fun _ e _ h _ => named_next h e)
    (validTrace_of_forall (fun _ _ => trivial) s calls)

/-- Two registrations of one account, with anything in between but a clearing of it: once the first
is let through, the second is let through exactly when it is the same strategy for the same role
with the same narrative. -/
theorem second_registration (before between : List Call) (first second : ActiveStrategy)
    (hacc : second.accountId = first.accountId)
    (hfirst : (registerStrategy (run before) first).1.blocked = false)
    (hbetween : Call.clear first.accountId ∉ between) :
    (registerStrategy (run (before ++ .register first :: between)) second).1.blocked = false ↔
      second = first := by
  have hnamed : Named (run before) := named_runTrace (fun _ _ h => by cases h) before
  have hhas : (next (run before) (.register first)).active.get? first.accountId = some first := by
    rw [next, get?_register, if_pos rfl]
    rcases registerStrategy_cases (run before) first with
      ⟨hnone, -, -⟩ | ⟨existing, hsome, ⟨hsame, -, -⟩ | ⟨-, hblocked, -⟩⟩
    · rw [hnone, Option.none_or]
    · rw [hsome, Option.some_or, (conflicts_nil_iff (hnamed _ _ hsome)).1 hsame]
    · rw [hblocked] at hfirst
      cases hfirst
  have hlater : (run (before ++ .register first :: between)).active.get? second.accountId =
      some first := by
    rw [hacc, run, runTrace_append, runTrace, get?_runTrace]
    exact (congrArg (given first.accountId between) hhas).trans (given_kept hbetween first)
  rcases registerStrategy_cases (run (before ++ .register first :: between)) second with
    ⟨hnone, -, -⟩ | ⟨existing, hsome, ⟨hsame, hfree, -⟩ | ⟨hdiff, hblocked, -⟩⟩
  · rw [hlater] at hnone
    cases hnone
  · cases hlater.symm.trans hsome
    exact iff_of_true hfree ((conflicts_nil_iff hacc.symm).1 hsame).symm
  · cases hlater.symm.trans hsome
    refine iff_of_false (by simp [hblocked]) fun heq => ?_
    exact hdiff ((conflicts_nil_iff hacc.symm).2 heq.symm)

theorem second_registration_ciso :
    (registerStrategy (run ([] ++ .register ⟨"a-1", "s-1", "CISO", "h1"⟩ ::
        [.clear "a-2", .register ⟨"a-1", "s-2", "CTO", "h1"⟩]))
      ⟨"a-1", "s-1", "CTO", "h1"⟩).1.blocked = false ↔
      (⟨"a-1", "s-1", "CTO", "h1"⟩ : ActiveStrategy) = ⟨"a-1", "s-1", "CISO", "h1"⟩ :=
  second_registration [] [.clear "a-2", .register ⟨"a-1", "s-2", "CTO", "h1"⟩]
    ⟨"a-1", "s-1", "CISO", "h1"⟩ ⟨"a-1", "s-1", "CTO", "h1"⟩ rfl (by decide) (by decide)

end TrustCopilot.ConflictDetector
