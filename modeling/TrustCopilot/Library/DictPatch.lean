import TrustCopilot.Library.OrderedDict

/-! The difference of two dictionaries by their keys, and the patch it describes: erase what was
removed, then assign what was added. The patch gives the new dictionary back exactly where the
keys that both have carry the same values. -/
namespace TrustCopilot.DictPatch

open TrustCopilot.OrderedDict

variable {κ ν : Type*} [DecidableEq κ]

def SameEntries (d e : Dict κ ν) : Prop := ∀ k, d.get? k = e.get? k

/-- The keys that both have carry the same values. -/
def AgreeOnCommon (d e : Dict κ ν) : Prop :=
  ∀ k v w, d.get? k = some v → e.get? k = some w → v = w

def isEmpty (d : Dict κ ν) : Bool := d.entries.isEmpty

theorem get?_of_isEmpty {d : Dict κ ν} (h : isEmpty d = true) (k : κ) : d.get? k = none := by
  have hnil : d.entries = [] := List.isEmpty_iff.1 h
  simp [Dict.get?, hnil]

/-- The entries of `d` whose keys are not in `e`. -/
def without (d e : Dict κ ν) : Dict κ ν :=
  ⟨d.entries.filter fun p => p.1 ∉ e.keys, d.nodup.sublist (List.filter_sublist.map _)⟩

theorem mem_without {d e : Dict κ ν} {k : κ} {v : ν} :
    (k, v) ∈ (without d e).entries ↔ (k, v) ∈ d.entries ∧ k ∉ e.keys := by
  simp [without]

theorem get?_without (d e : Dict κ ν) (k : κ) :
    (without d e).get? k = if k ∈ e.keys then none else d.get? k := by
  ext v
  rw [Dict.get?_eq_some_iff, mem_without]
  split
  · next h => simp [h]
  · next h => simp [h, Dict.get?_eq_some_iff]

theorem mem_keys_without {d e : Dict κ ν} {k : κ} :
    k ∈ (without d e).keys ↔ k ∈ d.keys ∧ k ∉ e.keys := by
  rw [← Dict.get?_isSome_iff, get?_without]
  by_cases h : k ∈ e.keys
  · simp [h]
  · simp [h, Dict.get?_isSome_iff]

def eraseAll (d : Dict κ ν) (ks : List κ) : Dict κ ν := ks.foldl Dict.erase d

theorem get?_eraseAll (d : Dict κ ν) (ks : List κ) (k : κ) :
    (eraseAll d ks).get? k = if k ∈ ks then none else d.get? k := by
  induction ks generalizing d with
  | nil => simp [eraseAll]
  | cons j ks ih =>
    change (eraseAll (d.erase j) ks).get? k = _
    rw [ih, Dict.get?_erase]
    by_cases hk : k ∈ ks
    · simp [hk]
    · simp [hk]

def assignAll (d : Dict κ ν) (es : List (κ × ν)) : Dict κ ν :=
  es.foldl (fun d p => d.set p.1 p.2) d

theorem get?_assignAll_of_notMem {d : Dict κ ν} {es : List (κ × ν)} {k : κ}
    (h : k ∉ es.map Prod.fst) : (assignAll d es).get? k = d.get? k := by
  induction es generalizing d with
  | nil => rfl
  | cons p es ih =>
    rw [List.map_cons, List.mem_cons, not_or] at h
    change (assignAll (d.set p.1 p.2) es).get? k = _
    rw [ih h.2, Dict.get?_set_other d h.1]

theorem get?_assignAll_of_mem {d : Dict κ ν} {es : List (κ × ν)} {k : κ} {v : ν}
    (hnodup : (es.map Prod.fst).Nodup) (h : (k, v) ∈ es) :
    (assignAll d es).get? k = some v := by
  induction es generalizing d with
  | nil => cases h
  | cons p es ih =>
    rw [List.map_cons, List.nodup_cons] at hnodup
    change (assignAll (d.set p.1 p.2) es).get? k = _
    rcases List.mem_cons.1 h with rfl | h
    · rw [get?_assignAll_of_notMem hnodup.1, Dict.get?_set_self]
    · exact ih hnodup.2 h

theorem get?_assign_entries (d e : Dict κ ν) (k : κ) :
    (assignAll d e.entries).get? k = (e.get? k).or (d.get? k) := by
  cases he : e.get? k with
  | some v => exact get?_assignAll_of_mem e.nodup (Dict.get?_eq_some_iff.1 he)
  | none =>
    have hk : k ∉ e.keys := by rw [← Dict.get?_isSome_iff, he]; exact nofun
    rw [get?_assignAll_of_notMem hk, Option.none_or]

/-- What was added and what was removed, told by the keys alone. -/
structure KeyDiff (κ ν : Type*) where
  added : Dict κ ν
  removed : Dict κ ν
  deriving DecidableEq, Repr

def keyDiff (old new : Dict κ ν) : KeyDiff κ ν := ⟨without new old, without old new⟩

def KeyDiff.patch (δ : KeyDiff κ ν) (old : Dict κ ν) : Dict κ ν :=
  assignAll (eraseAll old δ.removed.keys) δ.added.entries

/-- The patched dictionary keeps the old value of every key that both have. -/
theorem get?_patch_keyDiff (old new : Dict κ ν) (k : κ) :
    ((keyDiff old new).patch old).get? k =
      if k ∈ old.keys ∧ k ∈ new.keys then old.get? k else new.get? k := by
  rw [KeyDiff.patch, get?_assign_entries, get?_eraseAll]
  simp only [keyDiff, get?_without, mem_keys_without]
  by_cases hold : k ∈ old.keys
  · by_cases hnew : k ∈ new.keys
    · simp [hold, hnew]
    · have hnone : new.get? k = none := by
        rwa [← Option.not_isSome_iff_eq_none, Dict.get?_isSome_iff]
      simp [hold, hnew, hnone]
  · have hnone : old.get? k = none := by
      rwa [← Option.not_isSome_iff_eq_none, Dict.get?_isSome_iff]
    simp [hold, hnone]

theorem patch_keyDiff_iff {old new : Dict κ ν} :
    SameEntries ((keyDiff old new).patch old) new ↔ AgreeOnCommon old new := by
  constructor
  · intro h k v w hv hw
    have hk := h k
    rw [get?_patch_keyDiff, if_pos ⟨Dict.mem_keys_of_get? hv, Dict.mem_keys_of_get? hw⟩, hv,
      hw] at hk
    exact Option.some.inj hk
  · intro h k
    rw [get?_patch_keyDiff]
    split
    · next hk =>
      obtain ⟨v, hv⟩ := Option.isSome_iff_exists.1 (Dict.get?_isSome_iff.2 hk.1)
      obtain ⟨w, hw⟩ := Option.isSome_iff_exists.1 (Dict.get?_isSome_iff.2 hk.2)
      rw [hv, hw, h k v w hv hw]
    · rfl

def KeyDiff.Unchanged (δ : KeyDiff κ ν) : Prop := isEmpty δ.added ∧ isEmpty δ.removed

instance (δ : KeyDiff κ ν) : Decidable δ.Unchanged :=
  inferInstanceAs (Decidable (_ ∧ _))

/-- A patch that changes nothing gives the old dictionary back. -/
theorem patch_of_unchanged {δ : KeyDiff κ ν} (h : δ.Unchanged) (old : Dict κ ν) :
    SameEntries (δ.patch old) old := by
  intro k
  have hkeys : k ∉ δ.removed.keys := by
    rw [← Dict.get?_isSome_iff, get?_of_isEmpty h.2]
    exact nofun
  rw [KeyDiff.patch, get?_assign_entries, get?_of_isEmpty h.1, Option.none_or, get?_eraseAll,
    if_neg hkeys]

end TrustCopilot.DictPatch
