import Mathlib.Algebra.Order.Field.Rat

/-! JSON values as Python reads them: looking something up in a value of the wrong kind raises an
error, which is `none` here. -/
namespace TrustCopilot.PyJson

inductive Json where
  | null
  | bool (b : Bool)
  | num (q : ℚ)
  | str (s : String)
  | arr (xs : List Json)
  | obj (fields : List (String × Json))

namespace Json

/-- `bool(x)` -/
def truthy : Json → Bool
  | null => false
  | bool b => b
  | num q => q ≠ 0
  | str s => s ≠ ""
  | arr xs => !xs.isEmpty
  | obj fields => !fields.isEmpty

/-- `x.get(key, default)` -/
def get (x : Json) (key : String) (default : Json := null) : Option Json :=
  match x with
  | obj fields => some ((fields.lookup key).getD default)
  | _ => none

/-- `x[0]`. The keys of an object are strings. -/
def first : Json → Option Json
  | arr (x :: _) => some x
  | str s => s.toList.head?.map fun c => str (String.singleton c)
  | _ => none

/-- `for j in x` -/
def elements : Json → Option (List Json)
  | arr xs => some xs
  | obj fields => some (fields.map fun f => str f.1)
  | str s => some (s.toList.map fun c => str (String.singleton c))
  | _ => none

def IsObj : Json → Prop
  | obj _ => True
  | _ => False

def IsStr : Json → Prop
  | str _ => True
  | _ => False

end Json

section All

variable {α β : Type*} {f : α → Option β} {xs : List α}

/-- All results, or none if one of them is missing. -/
theorem mapM_eq_some_iff {ys : List β} : xs.mapM f = some ys ↔ xs.map f = ys.map some := by
  induction xs generalizing ys with
  | nil => cases ys <;> simp
  | cons x xs ih =>
    rw [List.mapM_cons, List.map_cons]
    cases hx : f x with
    | none => cases ys <;> simp
    | some y =>
      cases ys with
      | nil => cases hxs : xs.mapM f <;> simp
      | cons z zs =>
        rw [List.map_cons, List.cons.injEq, ← ih, Option.some.injEq]
        cases hxs : xs.mapM f with
        | none => simp
        | some ws => simp

theorem mapM_isSome_iff : (xs.mapM f).isSome ↔ ∀ x ∈ xs, (f x).isSome := by
  induction xs with
  | nil => simp
  | cons x xs ih =>
    rw [List.mapM_cons, List.forall_mem_cons, ← ih]
    cases hx : f x with
    | none => simp
    | some y => cases hxs : xs.mapM f <;> simp

end All

end TrustCopilot.PyJson
