import TrustCopilot.Library.OrderedDict

/-! A loop that keeps one running value for every key: each item is folded into the value of its
own key, and a key is entered when its first item comes. -/
namespace TrustCopilot.GroupedFold

open TrustCopilot.OrderedDict

variable {ι κ ν μ : Type*} [DecidableEq κ] (key : ι → κ) (init : κ → ν) (combine : ν → ι → ν)

def foldInto (d : Dict κ ν) (x : ι) : Dict κ ν :=
  d.set (key x) (combine ((d.get? (key x)).getD (init (key x))) x)

def grouped (xs : List ι) : Dict κ ν := xs.foldl (foldInto key init combine) Dict.empty

def group (xs : List ι) (k : κ) : List ι := xs.filter fun x => key x = k

variable {key init combine} {xs : List ι} {k : κ}

theorem group_eq_nil_iff : group key xs k = [] ↔ k ∉ xs.map key := by
  simp [group, List.filter_eq_nil_iff]

theorem group_concat (x : ι) :
    group key (xs ++ [x]) k = if key x = k then group key xs k ++ [x] else group key xs k := by
  rw [group, List.filter_append]
  split
  · next h => rw [List.filter_singleton, decide_eq_true h]; rfl
  · next h => rw [List.filter_singleton, decide_eq_false h]; exact List.append_nil _

theorem grouped_concat (x : ι) : grouped key init combine (xs ++ [x]) =
    foldInto key init combine (grouped key init combine xs) x := by
  rw [grouped, List.foldl_append]
  rfl

/-- Every key has what its own items come to, and no other keys are entered. -/
theorem get?_grouped (xs : List ι) (k : κ) : (grouped key init combine xs).get? k =
    if group key xs k = [] then none else some ((group key xs k).foldl combine (init k)) := by
  induction xs using List.reverseRecOn with
  | nil => rfl
  | append_singleton xs x ih =>
    rw [grouped_concat, foldInto, Dict.get?_set, group_concat]
    by_cases hx : key x = k
    · subst hx
      rw [if_pos rfl, if_pos rfl, if_neg (List.append_ne_nil_of_right_ne_nil _ (by simp)),
        List.foldl_append, ih]
      split
      · next hnil => rw [hnil]; rfl
      · rfl
    · rw [if_neg (Ne.symm hx), if_neg hx, ih]

/-- What the value of a key is counted from, whether the key is entered or not. -/
theorem getD_grouped (xs : List ι) (k : κ) : ((grouped key init combine xs).get? k).getD (init k) =
    (group key xs k).foldl combine (init k) := by
  rw [get?_grouped]
  split
  · next hnil => rw [hnil]; rfl
  · rfl

/-- What every item adds its own amount to comes to the sum over the items. -/
theorem foldl_measure {σ : Type*} [AddMonoid μ] {step : σ → ι → σ} {f : σ → μ} {g : ι → μ}
    (h : ∀ s x, f (step s x) = f s + g x) (s : σ) (xs : List ι) :
    f (xs.foldl step s) = f s + (xs.map g).sum := by
  induction xs generalizing s with
  | nil => exact (add_zero _).symm
  | cons x xs ih => rw [List.foldl_cons, ih, h, List.map_cons, List.sum_cons, add_assoc]

/-- A measure to which every item adds its own amount, whatever it is folded into, comes to the sum
over the items: no item is lost among the keys or counted under two of them. -/
theorem total_grouped [AddCommMonoid μ] [IsCancelAdd μ] {f : κ → ν → μ} {g : ι → μ}
    (hinit : ∀ k, f k (init k) = 0)
    (hadd : ∀ v x, f (key x) (combine v x) = f (key x) v + g x) (xs : List ι) :
    (grouped key init combine xs).total f = (xs.map g).sum := by
  induction xs using List.reverseRecOn with
  | nil => rfl
  | append_singleton xs x ih =>
    rw [grouped_concat, List.map_append, List.sum_append, ← ih, List.map_singleton,
      List.sum_singleton]
    have hset := Dict.total_set f (grouped key init combine xs) (key x)
      (combine (((grouped key init combine xs).get? (key x)).getD (init (key x))) x)
    rw [hadd, ← add_assoc] at hset
    have hold : ((grouped key init combine xs).get? (key x)).elim 0 (f (key x)) =
        f (key x) (((grouped key init combine xs).get? (key x)).getD (init (key x))) := by
      cases (grouped key init combine xs).get? (key x) with
      | none => exact (hinit _).symm
      | some v => rfl
    rw [hold, add_right_comm] at hset
    exact add_right_cancel hset

end TrustCopilot.GroupedFold
