import Mathlib.Algebra.BigOperators.Group.List.Basic
import Mathlib.Data.List.Induction
import Mathlib.Data.List.Nodup

/-! Dictionaries that keep the order of insertion: assigning to a present key keeps its
place, a new key goes to the end, and removing a key forgets its place. -/
namespace TrustCopilot.OrderedDict

variable {κ ν : Type*}

structure Dict (κ ν : Type*) where
  entries : List (κ × ν)
  nodup : (entries.map Prod.fst).Nodup
  deriving DecidableEq, Repr

namespace Dict

def empty : Dict κ ν := ⟨[], List.nodup_nil⟩

instance : Inhabited (Dict κ ν) := ⟨empty⟩

def keys (d : Dict κ ν) : List κ := d.entries.map Prod.fst

def values (d : Dict κ ν) : List ν := d.entries.map Prod.snd

variable [DecidableEq κ]

def get? (d : Dict κ ν) (k : κ) : Option ν :=
  (d.entries.find? fun e => e.1 = k).map Prod.snd

def assign (k : κ) (v : ν) (e : κ × ν) : κ × ν := if e.1 = k then (k, v) else e

theorem assign_fst (k : κ) (v : ν) (e : κ × ν) : (assign k v e).1 = e.1 := by
  rw [assign]
  split
  · next h => exact h.symm
  · rfl

theorem map_assign_fst (k : κ) (v : ν) (es : List (κ × ν)) :
    (es.map (assign k v)).map Prod.fst = es.map Prod.fst := by
  rw [List.map_map]
  exact List.map_congr_left fun e _ => assign_fst k v e

def set (d : Dict κ ν) (k : κ) (v : ν) : Dict κ ν :=
  if h : k ∈ d.keys then ⟨d.entries.map (assign k v), by rw [map_assign_fst]; exact d.nodup⟩
  else ⟨d.entries ++ [(k, v)], by
    rw [List.map_append]
    exact List.nodup_append.2 ⟨d.nodup, List.nodup_singleton _, by
      intro a ha b hb hab
      rw [List.map_cons, List.map_nil, List.mem_singleton] at hb
      subst a b
      exact h ha⟩⟩

def erase (d : Dict κ ν) (k : κ) : Dict κ ν :=
  ⟨d.entries.filter fun e => e.1 ≠ k, d.nodup.sublist (List.filter_sublist.map _)⟩

omit [DecidableEq κ] in
theorem entry_unique (d : Dict κ ν) {k : κ} {v w : ν} (hv : (k, v) ∈ d.entries)
    (hw : (k, w) ∈ d.entries) : v = w :=
  (Prod.mk.inj (List.inj_on_of_nodup_map d.nodup hv hw rfl)).2

theorem get?_eq_some_iff {d : Dict κ ν} {k : κ} {v : ν} :
    d.get? k = some v ↔ (k, v) ∈ d.entries := by
  rw [get?]
  constructor
  · intro h
    obtain ⟨e, he, rfl⟩ := Option.map_eq_some_iff.1 h
    have hk : e.1 = k := by simpa using List.find?_some he
    rw [← hk]
    exact List.mem_of_find?_eq_some he
  · intro h
    cases hf : d.entries.find? fun e => e.1 = k with
    | none => exact absurd (by simp) (List.find?_eq_none.1 hf _ h)
    | some e =>
      have hk : e.1 = k := by simpa using List.find?_some hf
      have he : (k, e.2) ∈ d.entries := by rw [← hk]; exact List.mem_of_find?_eq_some hf
      rw [Option.map_some, d.entry_unique he h]

theorem get?_isSome_iff {d : Dict κ ν} {k : κ} : (d.get? k).isSome ↔ k ∈ d.keys := by
  rw [Option.isSome_iff_exists]
  simp [get?_eq_some_iff, keys]

@[simp] theorem get?_empty (k : κ) : (empty : Dict κ ν).get? k = none := rfl

theorem mem_set {d : Dict κ ν} {k j : κ} {v w : ν} :
    (j, w) ∈ (d.set k v).entries ↔ (j = k ∧ w = v) ∨ (j ≠ k ∧ (j, w) ∈ d.entries) := by
  rw [set]
  split
  · next h =>
    obtain ⟨e, he, rfl⟩ := List.mem_map.1 h
    rw [List.mem_map]
    constructor
    · rintro ⟨f, hf, hfw⟩
      rw [assign] at hfw
      split at hfw
      · cases hfw; exact Or.inl ⟨rfl, rfl⟩
      · subst hfw; exact Or.inr ⟨by assumption, hf⟩
    · rintro (⟨rfl, rfl⟩ | ⟨hj, hw⟩)
      · exact ⟨e, he, by simp [assign]⟩
      · exact ⟨(j, w), hw, by simp [assign, hj]⟩
  · next h =>
    simp only [List.mem_append, List.mem_singleton, Prod.mk.injEq]
    constructor
    · rintro (hw | hw)
      · exact Or.inr ⟨fun hj => h (hj ▸ List.mem_map.2 ⟨_, hw, rfl⟩), hw⟩
      · exact Or.inl hw
    · rintro (hw | ⟨_, hw⟩)
      · exact Or.inr hw
      · exact Or.inl hw

theorem mem_erase {d : Dict κ ν} {k j : κ} {w : ν} :
    (j, w) ∈ (d.erase k).entries ↔ j ≠ k ∧ (j, w) ∈ d.entries := by
  simp [erase, and_comm]

theorem get?_set (d : Dict κ ν) (k j : κ) (v : ν) :
    (d.set k v).get? j = if j = k then some v else d.get? j := by
  ext w
  simp only [get?_eq_some_iff, mem_set]
  split
  · next h => simp [h, eq_comm]
  · next h => simp [h, get?_eq_some_iff]

@[simp] theorem get?_set_self (d : Dict κ ν) (k : κ) (v : ν) :
    (d.set k v).get? k = some v := by
  rw [get?_set, if_pos rfl]

/-- What is found after an assignment is the new value, or was there under another key. -/
theorem get?_set_cases {d : Dict κ ν} {k j : κ} {v w : ν} (h : (d.set k v).get? j = some w) :
    j = k ∧ v = w ∨ j ≠ k ∧ d.get? j = some w := by
  rw [get?_set] at h
  split at h
  · next hk => exact Or.inl ⟨hk, Option.some.inj h⟩
  · next hk => exact Or.inr ⟨hk, h⟩

theorem get?_set_other (d : Dict κ ν) {k j : κ} (h : j ≠ k) (v : ν) :
    (d.set k v).get? j = d.get? j := by
  rw [get?_set, if_neg h]

theorem mem_keys_of_get? {d : Dict κ ν} {k : κ} {v : ν} (h : d.get? k = some v) : k ∈ d.keys := by
  rw [← get?_isSome_iff, h]
  rfl

/-- A new key leaves what is there alone. -/
theorem get?_set_fresh {d : Dict κ ν} {k j : κ} {w : ν} (hk : k ∉ d.keys)
    (h : d.get? j = some w) (v : ν) : (d.set k v).get? j = some w := by
  rw [get?_set_other, h]
  rintro rfl
  exact hk (mem_keys_of_get? h)

theorem get?_erase (d : Dict κ ν) (k j : κ) :
    (d.erase k).get? j = if j = k then none else d.get? j := by
  ext w
  simp only [get?_eq_some_iff, mem_erase]
  split
  · next h => simp [h]
  · next h => simp [h, get?_eq_some_iff]

/-- Every value replaced by what `f` makes of it, under its key. -/
def mapValues (d : Dict κ ν) (f : κ → ν → ν) : Dict κ ν :=
  ⟨d.entries.map fun e => (e.1, f e.1 e.2), by rw [List.map_map]; exact d.nodup⟩

theorem get?_mapValues (d : Dict κ ν) (f : κ → ν → ν) (k : κ) :
    (d.mapValues f).get? k = (d.get? k).map (f k) := by
  ext w
  rw [get?_eq_some_iff, Option.map_eq_some_iff, mapValues, List.mem_map]
  constructor
  · rintro ⟨⟨j, v⟩, hv, he⟩
    cases he
    exact ⟨v, get?_eq_some_iff.2 hv, rfl⟩
  · rintro ⟨v, hv, rfl⟩
    exact ⟨(k, v), get?_eq_some_iff.1 hv, rfl⟩

theorem entries_set_new {d : Dict κ ν} {k : κ} (h : k ∉ d.keys) (v : ν) :
    (d.set k v).entries = d.entries ++ [(k, v)] := by
  simp [set, h]

theorem values_set_new {d : Dict κ ν} {k : κ} (h : k ∉ d.keys) (v : ν) :
    (d.set k v).values = d.values ++ [v] := by
  simp [values, entries_set_new h]

theorem mem_values_iff {d : Dict κ ν} {v : ν} : v ∈ d.values ↔ ∃ k, d.get? k = some v := by
  simp [values, get?_eq_some_iff]

theorem mem_keys_set {d : Dict κ ν} {k j : κ} {v : ν} :
    j ∈ (d.set k v).keys ↔ j = k ∨ j ∈ d.keys := by
  rw [← get?_isSome_iff, get?_set, ← get?_isSome_iff]
  by_cases h : j = k
  · simp [h]
  · simp [h]

/-! ### Totals over the entries -/

/-- What `f` measures on the entries, added up. -/
def total {μ : Type*} [AddCommMonoid μ] (f : κ → ν → μ) (d : Dict κ ν) : μ :=
  (d.entries.map fun e => f e.1 e.2).sum

theorem assign_other {k : κ} {v : ν} {es : List (κ × ν)} (h : k ∉ es.map Prod.fst) :
    es.map (assign k v) = es := by
  have hself : ∀ e ∈ es, assign k v e = e := fun e he =>
    if_neg fun hk => h (List.mem_map.2 ⟨e, he, hk⟩)
  rw [List.map_congr_left hself, List.map_id']

/-- Assigning to a key trades what its old value measured for what the new one does. -/
theorem total_set {μ : Type*} [AddCommMonoid μ] (f : κ → ν → μ) (d : Dict κ ν) (k : κ) (v : ν) :
    (d.set k v).total f + (d.get? k).elim 0 (f k) = d.total f + f k v := by
  cases hk : d.get? k with
  | none =>
    have hnew : k ∉ d.keys := by rw [← get?_isSome_iff, hk]; exact nofun
    simp [total, entries_set_new hnew]
  | some w =>
    have hin : k ∈ d.keys := mem_keys_of_get? hk
    obtain ⟨xs, ys, hsplit⟩ := List.append_of_mem (get?_eq_some_iff.1 hk)
    have hnodup := d.nodup
    rw [hsplit, List.map_append, List.map_cons, List.nodup_middle, List.nodup_cons,
      List.mem_append, not_or] at hnodup
    have hentries : (d.set k v).entries = xs ++ (k, v) :: ys := by
      simp [set, hin, hsplit, assign_other hnodup.1.1, assign_other hnodup.1.2, assign]
    simp only [total, hentries, hsplit, List.map_append, List.map_cons, List.sum_append,
      List.sum_cons, Option.elim_some]
    ac_rfl

def DistinctBy {α : Type*} (f : ν → α) (d : Dict κ ν) : Prop :=
  ∀ j k v w, d.get? j = some v → d.get? k = some w → f v = f w → j = k

theorem distinctBy_empty {α : Type*} (f : ν → α) : DistinctBy f (empty : Dict κ ν) := by
  intro j k v w h
  cases h

theorem distinctBy_set {α : Type*} {f : ν → α} {d : Dict κ ν} {k : κ} {v : ν}
    (h : DistinctBy f d) (hv : ∀ j w, d.get? j = some w → j ≠ k → f w ≠ f v) :
    DistinctBy f (d.set k v) := by
  intro i j u w hu hw he
  rcases get?_set_cases hu with ⟨hi, rfl⟩ | ⟨hi, hu'⟩
  · rcases get?_set_cases hw with ⟨hj, -⟩ | ⟨hj, hw'⟩
    · exact hi.trans hj.symm
    · exact absurd he.symm (hv j w hw' hj)
  · rcases get?_set_cases hw with ⟨-, rfl⟩ | ⟨-, hw'⟩
    · exact absurd he (hv i u hu' hi)
    · exact h i j u w hu' hw' he

/-- The first value, in order of insertion, that passes the test. -/
def first? (d : Dict κ ν) (p : ν → Bool) : Option ν := d.values.find? p

theorem first?_some {d : Dict κ ν} {p : ν → Bool} {v : ν} (h : d.first? p = some v) :
    p v = true ∧ ∃ k, d.get? k = some v :=
  ⟨List.find?_some h, mem_values_iff.1 (List.mem_of_find?_eq_some h)⟩

theorem first?_none {d : Dict κ ν} {p : ν → Bool} (h : d.first? p = none) {k : κ} {v : ν}
    (hv : d.get? k = some v) : p v = false := by
  have := List.find?_eq_none.1 h v (mem_values_iff.2 ⟨k, hv⟩)
  simpa using this

/-- Where at most one value passes the test, the order of insertion does not matter. -/
theorem first?_eq_some_iff {d : Dict κ ν} {p : ν → Bool}
    (hp : ∀ {j k v w}, d.get? j = some v → d.get? k = some w → p v → p w → v = w) {v : ν} :
    d.first? p = some v ↔ p v = true ∧ ∃ k, d.get? k = some v := by
  constructor
  · exact first?_some
  · rintro ⟨hv, k, hk⟩
    cases h : d.first? p with
    | none => exact absurd hv (by rw [first?_none h hk]; exact Bool.false_ne_true)
    | some w =>
      obtain ⟨hw, j, hj⟩ := first?_some h
      rw [hp hj hk hw hv]

end Dict

structure Table (key : ν → κ) [DecidableEq κ] where
  rows : Dict κ ν
  keyed : ∀ k v, rows.get? k = some v → key v = k

namespace Table

variable [DecidableEq κ] {key : ν → κ}

def empty : Table key := ⟨Dict.empty, nofun⟩

def get? (t : Table key) (k : κ) : Option ν := t.rows.get? k

def values (t : Table key) : List ν := t.rows.values

def save (t : Table key) (v : ν) : Table key where
  rows := t.rows.set (key v) v
  keyed k w h := by
    rcases Dict.get?_set_cases h with ⟨rfl, rfl⟩ | ⟨-, hold⟩
    · rfl
    · exact t.keyed k w hold

theorem get?_save (t : Table key) (v : ν) (k : κ) :
    (t.save v).get? k = if k = key v then some v else t.get? k :=
  Dict.get?_set t.rows (key v) k v

theorem get?_save_self (t : Table key) (v : ν) : (t.save v).get? (key v) = some v := by
  rw [get?_save, if_pos rfl]

theorem get?_save_other (t : Table key) {v : ν} {k : κ} (h : k ≠ key v) :
    (t.save v).get? k = t.get? k := by
  rw [get?_save, if_neg h]

@[simp] theorem get?_empty (k : κ) : (empty : Table key).get? k = none := rfl

/-- Records with distinct keys are all there after they are saved one by one. -/
theorem get?_saveAll {vs : List ν} (h : (vs.map key).Nodup) {v : ν} (hv : v ∈ vs) :
    (vs.foldl save (empty : Table key)).get? (key v) = some v := by
  induction vs using List.reverseRecOn with
  | nil => cases hv
  | append_singleton vs w ih =>
    rw [List.map_append, List.nodup_append] at h
    rw [List.foldl_append, List.foldl_cons, List.foldl_nil, get?_save]
    rcases List.mem_append.1 hv with hv | hv
    · have hne : key v ≠ key w := h.2.2 _ (List.mem_map_of_mem hv) _ (by simp)
      rw [if_neg hne]
      exact ih h.1 hv
    · cases List.mem_singleton.1 hv
      rw [if_pos rfl]

theorem key_of_get? {t : Table key} {k : κ} {v : ν} (h : t.get? k = some v) : key v = k :=
  t.keyed k v h

/-- When the record under one key is rewritten, a record is kept unless it is that one. -/
theorem get?_rewrite {t : Table key} {k j : κ} {v w w' : ν} (hv : t.get? k = some v)
    (hw : t.get? j = some w) (hkey : key w' = key w) :
    (t.save w').get? k = some v ∨ v = w ∧ (t.save w').get? k = some w' := by
  have hj : key w' = j := hkey.trans (key_of_get? hw)
  rw [get?_save, hj]
  by_cases hk : k = j
  · right
    rw [← hk, hv] at hw
    exact ⟨Option.some.inj hw, if_pos hk⟩
  · left
    exact (if_neg hk).trans hv

theorem get?_rewrite_absent {t : Table key} {k j : κ} {w w' : ν} (hk : t.get? k = none)
    (hw : t.get? j = some w) (hkey : key w' = key w) : (t.save w').get? k = none := by
  have hj : key w' = j := hkey.trans (key_of_get? hw)
  rw [get?_save, hj, if_neg]
  · exact hk
  · rintro rfl
    rw [hk] at hw
    cases hw

/-- Every record rewritten by an `f` that leaves its key alone. -/
def mapValues (t : Table key) (f : ν → ν) (hf : ∀ v, key (f v) = key v) : Table key where
  rows := t.rows.mapValues fun _ => f
  keyed k v h := by
    rw [Dict.get?_mapValues] at h
    obtain ⟨w, hw, rfl⟩ := Option.map_eq_some_iff.1 h
    exact (hf w).trans (t.keyed k w hw)

theorem get?_mapValues (t : Table key) (f : ν → ν) (hf : ∀ v, key (f v) = key v) (k : κ) :
    (t.mapValues f hf).get? k = (t.get? k).map f :=
  Dict.get?_mapValues t.rows (fun _ => f) k

theorem values_mapValues (t : Table key) (f : ν → ν) (hf : ∀ v, key (f v) = key v) :
    (t.mapValues f hf).values = t.values.map f := by
  simp only [values, mapValues, Dict.values, Dict.mapValues, List.map_map, Function.comp_def]

theorem mapValues_self {t : Table key} {f : ν → ν} (hf : ∀ v, key (f v) = key v)
    (h : ∀ v ∈ t.values, f v = v) : t.mapValues f hf = t := by
  have hentries : t.rows.entries.map (fun e => (e.1, f e.2)) = t.rows.entries := by
    have hself : ∀ e ∈ t.rows.entries, (e.1, f e.2) = e := fun e he =>
      Prod.ext rfl (h e.2 (List.mem_map_of_mem he))
    rw [List.map_congr_left hself, List.map_id']
  obtain ⟨⟨entries, hnodup⟩, hkeyed⟩ := t
  simp only [mapValues, Dict.mapValues] at hentries ⊢
  simp only [hentries]

theorem mem_values_iff {t : Table key} {v : ν} : v ∈ t.values ↔ t.get? (key v) = some v := by
  rw [values, Dict.mem_values_iff]
  constructor
  · rintro ⟨k, h⟩
    rw [key_of_get? h]
    exact h
  · exact fun h => ⟨key v, h⟩

theorem values_keys (t : Table key) : t.values.map key = t.rows.keys := by
  rw [values, Dict.values, Dict.keys, List.map_map]
  apply List.map_congr_left
  intro e he
  exact t.keyed e.1 e.2 (Dict.get?_eq_some_iff.2 he)

theorem values_keys_nodup (t : Table key) : (t.values.map key).Nodup := by
  rw [values_keys]
  exact t.rows.nodup

end Table

end TrustCopilot.OrderedDict
