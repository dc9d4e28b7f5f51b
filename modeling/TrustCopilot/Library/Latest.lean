import TrustCopilot.Library.OrderedDict
import Mathlib.Data.List.Induction

/-! The latest element of a history that says something, and the dictionary that a history of
optional assignments leaves behind. -/
namespace TrustCopilot.Latest

open TrustCopilot.OrderedDict

variable {α κ ν : Type*}

/-- What the last element on which `f` is defined says. -/
def latest (f : α → Option ν) (history : List α) : Option ν := history.reverse.findSome? f

@[simp] theorem latest_nil (f : α → Option ν) : latest f [] = none := rfl

theorem latest_concat (f : α → Option ν) (history : List α) (x : α) :
    latest f (history ++ [x]) = (f x).or (latest f history) := by
  rw [latest, List.reverse_append, List.reverse_singleton, List.singleton_append,
    List.findSome?_cons]
  cases f x <;> rfl

theorem latest_eq_none_iff {f : α → Option ν} {history : List α} :
    latest f history = none ↔ ∀ x ∈ history, f x = none := by
  simp [latest, List.findSome?_eq_none_iff]

theorem latest_mem {f : α → Option ν} {history : List α} {v : ν}
    (h : latest f history = some v) : ∃ x ∈ history, f x = some v := by
  obtain ⟨x, hx, hv⟩ := List.exists_of_findSome?_eq_some h
  exact ⟨x, List.mem_reverse.1 hx, hv⟩

/-- Where all that is said agrees, the latest says what everyone says. -/
theorem latest_agreed {f : α → Option ν} {history : List α} {x : α} {v : ν} (hx : x ∈ history)
    (hv : f x = some v) (hall : ∀ y ∈ history, ∀ w, f y = some w → w = v) :
    latest f history = some v := by
  cases h : latest f history with
  | none =>
    rw [latest_eq_none_iff.1 h x hx] at hv
    cases hv
  | some w =>
    obtain ⟨y, hy, hw⟩ := latest_mem h
    rw [hall y hy w hw]

variable [DecidableEq κ]

/-- What an element assigns to the key `k`. -/
def assignedTo (assign : α → Option (κ × ν)) (k : κ) (x : α) : Option ν :=
  (assign x).bind fun e => if e.1 = k then some e.2 else none

def setIfSome (d : Dict κ ν) : Option (κ × ν) → Dict κ ν
  | some e => d.set e.1 e.2
  | none => d

/-- The dictionary holds under every key the value last assigned to it. -/
def HoldsLatest (assign : α → Option (κ × ν)) (history : List α) (d : Dict κ ν) : Prop :=
  ∀ k, d.get? k = latest (assignedTo assign k) history

theorem holdsLatest_empty (assign : α → Option (κ × ν)) :
    HoldsLatest assign [] (Dict.empty : Dict κ ν) := by
  intro k
  simp

theorem holdsLatest_set {assign : α → Option (κ × ν)} {history : List α} {d : Dict κ ν}
    (h : HoldsLatest assign history d) (x : α) :
    HoldsLatest assign (history ++ [x]) (setIfSome d (assign x)) := by
  intro k
  rw [latest_concat, ← h k, assignedTo]
  cases assign x with
  | none => rfl
  | some e =>
    simp only [setIfSome, Dict.get?_set, Option.bind_some]
    by_cases hk : e.1 = k
    · simp [hk]
    · simp [hk, Ne.symm hk]

/-- Every element assigns its value to its key, except for a blank value. -/
def unlessBlank [DecidableEq ν] (blank : ν) (key : α → κ) (val : α → ν) (x : α) :
    Option (κ × ν) :=
  if val x = blank then none else some (key x, val x)

/-- Where the elements of one key agree on their value, the dictionary says that value. -/
theorem holdsLatest_agreed [DecidableEq ν] {blank : ν} {key : α → κ} {val : α → ν}
    {history : List α} {d : Dict κ ν} (h : HoldsLatest (unlessBlank blank key val) history d)
    {x : α} (hx : x ∈ history) (hall : ∀ y ∈ history, key y = key x → val y = val x) :
    (d.get? (key x)).getD blank = val x := by
  have hsaid : ∀ y ∈ history, ∀ w,
      assignedTo (unlessBlank blank key val) (key x) y = some w → w = val x ∧ w ≠ blank := by
    intro y hy w hw
    simp only [assignedTo, unlessBlank] at hw
    split at hw
    · cases hw
    · next hb =>
      simp only [Option.bind_some] at hw
      split at hw
      · next hk =>
        cases hw
        exact ⟨hall y hy hk, hb⟩
      · cases hw
  rw [h (key x)]
  by_cases hb : val x = blank
  · have hnone : latest (assignedTo (unlessBlank blank key val) (key x)) history = none := by
      cases hl : latest (assignedTo (unlessBlank blank key val) (key x)) history with
      | none => rfl
      | some w =>
        obtain ⟨y, hy, hw⟩ := latest_mem hl
        obtain ⟨hwx, hwb⟩ := hsaid y hy w hw
        exact absurd (hwx.trans hb) hwb
    rw [hnone, Option.getD_none, hb]
  · have hself : assignedTo (unlessBlank blank key val) (key x) x = some (val x) := by
      simp [assignedTo, unlessBlank, hb]
    rw [latest_agreed hx hself fun y hy w hw => (hsaid y hy w hw).1, Option.getD_some]

end TrustCopilot.Latest
