import Mathlib.Algebra.BigOperators.Group.List.Basic
import Mathlib.Algebra.Order.Ring.Nat

/-! The longest beginning of a list whose weights stay within a budget: the walk stops at the
first element that does not fit. -/
namespace TrustCopilot.BudgetPrefix

variable {α : Type*} {w : α → ℕ} {budget used : ℕ} {xs : List α}

/-- `used` is what has been spent before the list. -/
def within (w : α → ℕ) (budget : ℕ) : ℕ → List α → List α
  | _, [] => []
  | used, x :: xs => if budget < used + w x then [] else x :: within w budget (used + w x) xs

theorem within_prefix : within w budget used xs <+: xs := by
  induction xs generalizing used with
  | nil => exact List.prefix_rfl
  | cons x xs ih =>
    rw [within]
    split
    · exact List.nil_prefix
    · exact List.cons_prefix_cons.2 ⟨rfl, ih⟩

theorem within_sum_le (h : used ≤ budget) :
    used + ((within w budget used xs).map w).sum ≤ budget := by
  induction xs generalizing used with
  | nil => simpa [within] using h
  | cons x xs ih =>
    rw [within]
    split
    · simpa using h
    · next hfits =>
      have hrest := @ih (used + w x) (Nat.le_of_not_lt hfits)
      rw [List.map_cons, List.sum_cons]
      omega

/-- Nothing is taken exactly if there is nothing, or its first element does not fit. -/
theorem within_eq_nil_iff :
    within w budget used xs = [] ↔ ∀ x, xs.head? = some x → budget < used + w x := by
  cases xs with
  | nil => exact iff_of_true rfl fun x h => by cases h
  | cons x xs =>
    rw [within]
    constructor
    · intro h y hy
      cases hy
      by_contra hfits
      rw [if_neg hfits] at h
      cases h
    · intro h
      rw [if_pos (h x rfl)]

end TrustCopilot.BudgetPrefix
