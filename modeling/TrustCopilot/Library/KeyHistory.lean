import TrustCopilot.Library.OrderedDict
import Mathlib.Data.List.Induction

/-! Keys that are put in force and withdrawn over a history of changes, and the dictionary
that holds the keys in force. -/
namespace TrustCopilot.KeyHistory

open TrustCopilot.OrderedDict

variable {κ ξ ν : Type*}

inductive Change (κ : Type*) where
  | put (k : κ)
  | drop (k : κ)
  deriving DecidableEq, Repr

/-- The key was put after the last time it was dropped. -/
def InForce (history : List (Change κ)) (k : κ) : Prop :=
  ∃ before after, history = before ++ .put k :: after ∧ .drop k ∉ after

@[simp] theorem inForce_nil (k : κ) : ¬ InForce [] k := by
  rintro ⟨before, after, h, -⟩
  simp at h

theorem inForce_concat {history : List (Change κ)} {c : Change κ} {k : κ} :
    InForce (history ++ [c]) k ↔ c = .put k ∨ (c ≠ .drop k ∧ InForce history k) := by
  constructor
  · rintro ⟨before, after, h, hd⟩
    induction after using List.reverseRecOn with
    | nil => exact Or.inl (by simpa using (List.append_inj' h rfl).2)
    | append_singleton after a _ =>
      rw [← List.cons_append, ← List.append_assoc] at h
      obtain ⟨hh, ha⟩ := List.append_inj' h rfl
      obtain rfl : c = a := by simpa using ha
      rw [List.mem_append, not_or, List.mem_singleton] at hd
      exact Or.inr ⟨fun he => hd.2 he.symm, before, after, hh, hd.1⟩
  · rintro (rfl | ⟨hc, before, after, rfl, hd⟩)
    · exact ⟨history, [], by simp, by simp⟩
    · refine ⟨before, after ++ [c], by simp, ?_⟩
      rw [List.mem_append, not_or, List.mem_singleton]
      exact ⟨hd, fun he => hc he.symm⟩

theorem inForce_put {history : List (Change κ)} {j k : κ} :
    InForce (history ++ [.put k]) j ↔ j = k ∨ InForce history j := by
  simp [inForce_concat, eq_comm]

theorem inForce_drop {history : List (Change κ)} {j k : κ} :
    InForce (history ++ [.drop k]) j ↔ j ≠ k ∧ InForce history j := by
  simp [inForce_concat, eq_comm]

theorem inForce_puts {α : Type*} {history : List (Change κ)} {j k : κ} (xs : List α) :
    InForce (history ++ xs.map fun _ => .put k) j ↔ (j = k ∧ xs ≠ []) ∨ InForce history j := by
  induction xs using List.reverseRecOn with
  | nil => simp
  | append_singleton xs x ih =>
    rw [List.map_append, ← List.append_assoc, List.map_singleton, inForce_put, ih]
    simp only [ne_eq, List.append_eq_nil_iff, List.cons_ne_nil, and_false, not_false_eq_true,
      and_true]
    tauto

/-- The dictionary holds exactly the keys in force, under their encoding. -/
def Tracks [DecidableEq ξ] (enc : κ → ξ) (history : List (Change κ)) (d : Dict ξ ν) : Prop :=
  ∀ k, (d.get? (enc k)).isSome ↔ InForce history k

variable [DecidableEq ξ] {enc : κ → ξ} {history : List (Change κ)} {d : Dict ξ ν}

theorem tracks_empty : Tracks enc [] (Dict.empty : Dict ξ ν) := by
  intro k
  simp

theorem tracks_set (he : Function.Injective enc) (h : Tracks enc history d) (k : κ) (v : ν) :
    Tracks enc (history ++ [.put k]) (d.set (enc k) v) := by
  intro j
  rw [Dict.get?_set, inForce_concat]
  by_cases hj : j = k
  · simp [hj]
  · simpa [hj, he.eq_iff, Ne.symm hj] using h j

theorem tracks_erase (he : Function.Injective enc) (h : Tracks enc history d) (k : κ) :
    Tracks enc (history ++ [.drop k]) (d.erase (enc k)) := by
  intro j
  rw [Dict.get?_erase, inForce_concat]
  by_cases hj : j = k
  · simp [hj]
  · simpa [hj, he.eq_iff, Ne.symm hj] using h j

end TrustCopilot.KeyHistory
