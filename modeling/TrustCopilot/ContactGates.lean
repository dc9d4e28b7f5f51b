import TrustCopilot.ContactDecision

/-! The two gates on contacting an account again: the memory's own, and the contact decision
when it is given that memory. Both read the same fields, in different branches. -/
namespace TrustCopilot.ContactGates

open TrustCopilot.Recontact
open TrustCopilot.ContactDecision

def AttemptsExhausted (m : AccountMemory) : Prop :=
  3 ≤ m.contactCount ∧ m.lastOutcome = some "no_reply" ∧ hasNewTrigger m = false

instance (m : AccountMemory) : Decidable (AttemptsExhausted m) :=
  inferInstanceAs (Decidable (_ ∧ _ ∧ _))

def Unblocked (icp : ICPScore) (plan : ContactPlan) (hits : List CompetitorHit)
    (hasHardNegatives : Bool) : Prop :=
  hasHardNegatives = false ∧ hasBlockingCompetitor hits blockThreshold = false ∧
    icp.bucket ≠ .outOfBounds ∧ plan.slots ≠ []

def Cleared (m : AccountMemory) (now : ℤ) : Prop :=
  isSnoozed m now = false ∧ (hardObjection m = true → hasNewTrigger m = true)

variable {fmt : TextFormat} {icp : ICPScore} {urgency : UrgencyScore}
  {dealValue : DealValueEstimate} {plan : ContactPlan} {hits : List CompetitorHit}
  {hasHardNegatives : Bool} {m : AccountMemory} {now : ℤ}

theorem unblocked_iff :
    Unblocked icp plan hits hasHardNegatives ↔
      ∃ target, hardBlocks icp plan hits hasHardNegatives = .ok target := by
  simp only [hardBlocks_ok_iff, Unblocked, exists_and_left]
  cases plan.slots with
  | nil => simp
  | cons slot rest => simp

theorem memoryChecks_ok_iff :
    (∃ reasons, memoryChecks fmt (some m) now = .ok reasons) ↔ Cleared m now := by
  rw [memoryChecks, Cleared]
  cases isSnoozed m now with
  | true => simp
  | false =>
    cases hardObjection m with
    | false => simp
    | true => cases hasNewTrigger m <;> simp

/-- The engine contacts an account exactly when nothing blocks it and its memory, if it has
one, clears it. -/
theorem contact_iff {memory : Option AccountMemory} :
    (makeContactDecision fmt icp urgency dealValue plan hits hasHardNegatives memory
      now).decision = .contact ↔
      Unblocked icp plan hits hasHardNegatives ∧ ∀ m ∈ memory, Cleared m now := by
  rw [contacted_iff, unblocked_iff]
  cases memory with
  | none => simp [memoryChecks]
  | some m => simp [← @memoryChecks_ok_iff fmt]

/-- The memory's gate stays shut on a memory that is not cleared or has no attempt left. -/
theorem shouldRecontact_false_iff :
    (shouldRecontact m now).1 = false ↔ ¬ Cleared m now ∨ AttemptsExhausted m := by
  rw [← Bool.not_eq_true, shouldRecontact_iff, Cleared, AttemptsExhausted]
  cases isSnoozed m now with
  | true => simp
  | false => cases hasNewTrigger m <;> cases hardObjection m <;> simp [imp_iff_not_or]

/-- The gates agree but for an account that nothing stops except its spent attempts: the
decision engine never reads the number of contacts. -/
theorem gates_agree_iff :
    ((shouldRecontact m now).1 = false →
      (makeContactDecision fmt icp urgency dealValue plan hits hasHardNegatives (some m)
        now).decision ≠ .contact) ↔
      ¬ (Unblocked icp plan hits hasHardNegatives ∧ Cleared m now ∧ AttemptsExhausted m) := by
  simp only [ne_eq, contact_iff, Option.mem_def, Option.some.injEq, forall_eq',
    shouldRecontact_false_iff]
  tauto

def unanswered : AccountMemory where
  accountId := "acc-1"
  contactCount := 3
  lastOutcome := some "no_reply"

/-- Three contacts without a reply: one gate is shut, the other lets the fourth contact out. -/
theorem fourth_contact_approved :
    shouldRecontact unanswered 0 = (false, .maxAttemptsNoReply) ∧
    (makeContactDecision ⟨fun _ => "", fun _ => ""⟩ ⟨8 / 10, .strongFit, [], [], ""⟩
      ⟨7 / 10, 7 / 10, "", ""⟩ ⟨50000, "high", 35000, "pro", ""⟩
      ⟨"acc-1", [⟨1, "Alice", "CTO", "cto", 1, 8 / 10, "", false⟩], 1, ""⟩
      [] false (some unanswered) 0).decision = .contact :=
  ⟨by decide, by decide⟩

end TrustCopilot.ContactGates
