import Mathlib.Algebra.BigOperators.Group.List.Basic
import Mathlib.Algebra.Order.Ring.Int
import Mathlib.Data.List.Induction

/-! Amounts entered in a ledger between the entries that reset a counter. -/
namespace TrustCopilot.WindowedSum

variable {β : Type*} {isReset : β → Bool} {amount : β → ℤ}

def total (amount : β → ℤ) (xs : List β) : ℤ := (xs.map amount).sum

/-- What a counter cleared by every reset shows at the end of the ledger. -/
def since (isReset : β → Bool) (amount : β → ℤ) (xs : List β) : ℤ :=
  xs.foldl (fun acc e => if isReset e then 0 else acc + amount e) 0

/-- No stretch of the ledger without a reset amounts to more than the bound. -/
def StretchBound (isReset : β → Bool) (amount : β → ℤ) (bound : ℤ) (xs : List β) : Prop :=
  ∀ before stretch after, xs = before ++ stretch ++ after →
    (∀ e ∈ stretch, isReset e = false) → total amount stretch ≤ bound

@[simp] theorem total_nil : total amount [] = 0 := rfl

@[simp] theorem total_concat (xs : List β) (e : β) :
    total amount (xs ++ [e]) = total amount xs + amount e := by simp [total]

@[simp] theorem since_nil : since isReset amount [] = 0 := rfl

theorem since_concat (xs : List β) (e : β) :
    since isReset amount (xs ++ [e]) =
      if isReset e then 0 else since isReset amount xs + amount e := by
  simp [since, List.foldl_append]

theorem since_nonneg {xs : List β} (h : ∀ e ∈ xs, 0 ≤ amount e) :
    0 ≤ since isReset amount xs := by
  induction xs using List.reverseRecOn with
  | nil => simp
  | append_singleton xs e ih =>
    rw [since_concat]
    split
    · exact le_rfl
    · exact add_nonneg (ih fun x hx => h x (List.mem_append_left _ hx)) (h e (by simp))

theorem stretch_le_since {before stretch : List β}
    (hn : ∀ e ∈ before ++ stretch, 0 ≤ amount e) (hr : ∀ e ∈ stretch, isReset e = false) :
    total amount stretch ≤ since isReset amount (before ++ stretch) := by
  induction stretch using List.reverseRecOn with
  | nil => simpa using since_nonneg (by simpa using hn)
  | append_singleton stretch e ih =>
    rw [← List.append_assoc] at hn ⊢
    rw [total_concat, since_concat, hr e (by simp), if_neg Bool.false_ne_true]
    have := ih (fun x hx => hn x (List.mem_append_left _ hx))
      (fun x hx => hr x (List.mem_append_left _ hx))
    omega

theorem stretchBound_nil {bound : ℤ} (hb : 0 ≤ bound) :
    StretchBound isReset amount bound [] := by
  intro before stretch after h _
  obtain ⟨-, rfl, -⟩ : before = [] ∧ stretch = [] ∧ after = [] := by simpa using h
  exact hb

/-- One more entry keeps the bound as soon as the counter after it is within the bound. -/
theorem stretchBound_concat {bound : ℤ} {xs : List β} {e : β}
    (hn : ∀ x ∈ xs ++ [e], 0 ≤ amount x) (h : StretchBound isReset amount bound xs)
    (he : since isReset amount (xs ++ [e]) ≤ bound) :
    StretchBound isReset amount bound (xs ++ [e]) := by
  intro before stretch after hx hr
  induction after using List.reverseRecOn with
  | nil =>
    rw [List.append_nil] at hx
    rw [hx] at hn he
    exact (stretch_le_since hn hr).trans he
  | append_singleton after a _ =>
    rw [← List.append_assoc] at hx
    exact h before stretch after (List.append_inj_left' hx rfl) hr

end TrustCopilot.WindowedSum
