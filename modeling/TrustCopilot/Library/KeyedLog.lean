import TrustCopilot.Library.Latest

/-! A log of assignments and removals, and a dictionary that mirrors it under an encoding of
the keys. An assignment that has gone stale may be missing from the dictionary. -/
namespace TrustCopilot.KeyedLog

open TrustCopilot.OrderedDict
open TrustCopilot.Latest

variable {κ ξ ν : Type*}

/-- A key with the value assigned to it, or with `none` where it is removed. -/
abbrev Log (κ ν : Type*) := List (κ × Option ν)

/-- The value was assigned to the key, and nothing was written to the key after that. -/
def LastAssigned (log : Log κ ν) (k : κ) (v : ν) : Prop :=
  ∃ before after, log = before ++ (k, some v) :: after ∧ ∀ w ∈ after, w.1 ≠ k

def writtenTo [DecidableEq κ] (k : κ) (w : κ × Option ν) : Option (Option ν) :=
  if w.1 = k then some w.2 else none

/-- What the last write to the key leaves there. -/
def standing [DecidableEq κ] (log : Log κ ν) (k : κ) : Option ν :=
  (latest (writtenTo k) log).join

section Standing

variable [DecidableEq κ] {log : Log κ ν} {k : κ} {v : ν}

@[simp] theorem standing_nil : standing ([] : Log κ ν) k = none := rfl

theorem standing_concat (w : κ × Option ν) :
    standing (log ++ [w]) k = if w.1 = k then w.2 else standing log k := by
  rw [standing, latest_concat, writtenTo]
  by_cases h : w.1 = k
  · rw [if_pos h, if_pos h]
    rfl
  · rw [if_neg h, if_neg h]
    rfl

theorem standing_append_other {ws : Log κ ν} (h : ∀ w ∈ ws, w.1 ≠ k) :
    standing (log ++ ws) k = standing log k := by
  induction ws using List.reverseRecOn with
  | nil => rw [List.append_nil]
  | append_singleton ws w ih =>
    have hw : w.1 ≠ k := h w (List.mem_append_right ws (List.mem_singleton_self w))
    rw [← List.append_assoc, standing_concat, if_neg hw]
    exact ih fun x hx => h x (List.mem_append_left [w] hx)

theorem findSome?_append_other {ws : Log κ ν} {ks : List κ}
    (h : ∀ k ∈ ks, ∀ w ∈ ws, w.1 ≠ k) :
    ks.findSome? (standing (log ++ ws)) = ks.findSome? (standing log) := by
  induction ks with
  | nil => rfl
  | cons k ks ih =>
    have hks := ih fun j hj => h j (List.mem_cons_of_mem k hj)
    rw [List.findSome?_cons, List.findSome?_cons,
      standing_append_other (h k List.mem_cons_self), hks]

theorem standing_eq_some_iff : standing log k = some v ↔ LastAssigned log k v := by
  constructor
  · intro h
    induction log using List.reverseRecOn with
    | nil => cases h
    | append_singleton log w ih =>
      rw [standing_concat] at h
      split at h
      · next hk =>
        refine ⟨log, [], ?_, nofun⟩
        rw [← hk, ← h]
      · next hk =>
        obtain ⟨before, after, rfl, hafter⟩ := ih h
        refine ⟨before, after ++ [w], by simp, fun x hx => ?_⟩
        rcases List.mem_append.1 hx with hx | hx
        · exact hafter x hx
        · rw [List.mem_singleton.1 hx]
          exact hk
  · rintro ⟨before, after, rfl, hafter⟩
    rw [← List.singleton_append, ← List.append_assoc, standing_append_other hafter,
      standing_concat, if_pos rfl]

theorem standing_mem (h : standing log k = some v) : (k, some v) ∈ log := by
  obtain ⟨before, after, rfl, -⟩ := standing_eq_some_iff.1 h
  exact List.mem_append_right before List.mem_cons_self

end Standing

def Labelled (label : ν → κ) (log : Log κ ν) : Prop :=
  ∀ w ∈ log, ∀ v, w.2 = some v → label v = w.1

section Labels

variable {label : ν → κ} {k : κ}

theorem labelled_nil : Labelled label ([] : Log κ ν) := fun _ hw => absurd hw List.not_mem_nil

theorem labelled_assign {v : ν} (h : label v = k) : Labelled label [(k, some v)] := by
  intro w hw u hu
  rw [List.mem_singleton.1 hw] at hu ⊢
  cases hu
  exact h

theorem labelled_remove : Labelled label [(k, (none : Option ν))] := by
  intro w hw u hu
  rw [List.mem_singleton.1 hw] at hu
  cases hu

theorem labelled_append {xs ys : Log κ ν} (hx : Labelled label xs) (hy : Labelled label ys) :
    Labelled label (xs ++ ys) := fun w hw =>
  (List.mem_append.1 hw).elim (hx w) (hy w)

theorem labelled_flatMap {ι : Type*} {f : ι → Log κ ν} (h : ∀ i, Labelled label (f i))
    (is : List ι) : Labelled label (is.flatMap f) := by
  intro w hw
  obtain ⟨i, -, hin⟩ := List.mem_flatMap.1 hw
  exact h i w hin

end Labels

/-- The dictionary holds under its encoding what stands for a key, unless that is stale. -/
structure Mirrors [DecidableEq κ] [DecidableEq ξ] (enc : κ → ξ) (stale : ν → Prop)
    (log : Log κ ν) (d : Dict ξ ν) : Prop where
  slot : ∀ k, d.get? (enc k) = standing log k ∨
    d.get? (enc k) = none ∧ ∃ v, standing log k = some v ∧ stale v
  encoded : ∀ c v, d.get? c = some v → ∃ k, c = enc k

variable [DecidableEq κ] [DecidableEq ξ] {enc : κ → ξ} {stale stale' : ν → Prop}
  {log : Log κ ν} {d : Dict ξ ν} {label : ν → κ} {k : κ} {v : ν}

theorem mirrors_empty : Mirrors enc stale ([] : Log κ ν) Dict.empty :=
  ⟨fun _ => Or.inl rfl, fun _ _ h => by cases h⟩

theorem slot_concat (he : Function.Injective enc) (h : Mirrors enc stale log d) {d' : Dict ξ ν}
    {x : Option ν} (hd : ∀ c, d'.get? c = if c = enc k then x else d.get? c) (j : κ) :
    d'.get? (enc j) = standing (log ++ [(k, x)]) j ∨
      d'.get? (enc j) = none ∧ ∃ v, standing (log ++ [(k, x)]) j = some v ∧ stale v := by
  rw [hd, standing_concat]
  by_cases hj : k = j
  · left
    rw [if_pos (congrArg enc hj.symm), if_pos hj]
  · rw [if_neg fun heq => hj (he heq).symm, if_neg hj]
    exact h.slot j

theorem mirrors_set (he : Function.Injective enc) (h : Mirrors enc stale log d) (k : κ) (v : ν) :
    Mirrors enc stale (log ++ [(k, some v)]) (d.set (enc k) v) := by
  refine ⟨slot_concat he h fun c => Dict.get?_set d (enc k) c v, fun c w hc => ?_⟩
  rcases Dict.get?_set_cases hc with ⟨hk, -⟩ | ⟨-, hold⟩
  · exact ⟨k, hk⟩
  · exact h.encoded c w hold

theorem encoded_erase (h : Mirrors enc stale log d) (k : κ) {c : ξ} {w : ν}
    (hc : (d.erase (enc k)).get? c = some w) : ∃ j, c = enc j := by
  rw [Dict.get?_erase] at hc
  split at hc
  · cases hc
  · exact h.encoded c w hc

theorem mirrors_erase (he : Function.Injective enc) (h : Mirrors enc stale log d) (k : κ) :
    Mirrors enc stale (log ++ [(k, none)]) (d.erase (enc k)) :=
  ⟨slot_concat he h fun c => Dict.get?_erase d (enc k) c, fun _ _ hc => encoded_erase h k hc⟩

theorem mirrors_absent (h : Mirrors enc stale log d) (hk : d.get? (enc k) = none) :
    Mirrors enc stale (log ++ [(k, none)]) d := by
  refine ⟨fun j => ?_, h.encoded⟩
  rw [standing_concat]
  by_cases hj : k = j
  · left
    rw [← hj, if_pos rfl, hk]
  · rw [if_neg hj]
    exact h.slot j

/-- What is stale may be forgotten. -/
theorem mirrors_evict (he : Function.Injective enc) (h : Mirrors enc stale log d)
    (hk : d.get? (enc k) = some v) (hv : stale v) : Mirrors enc stale log (d.erase (enc k)) := by
  refine ⟨fun j => ?_, fun c w hc => encoded_erase h k hc⟩
  rw [Dict.get?_erase]
  by_cases hj : j = k
  · right
    rw [if_pos (congrArg enc hj), hj]
    refine ⟨rfl, v, ?_, hv⟩
    rcases h.slot k with hs | ⟨hnone, -⟩
    · rw [← hs, hk]
    · rw [hnone] at hk
      cases hk
  · rw [if_neg fun heq => hj (he heq)]
    exact h.slot j

theorem standing_of_get? (h : Mirrors enc stale log d) (hk : d.get? (enc k) = some v) :
    standing log k = some v := by
  rcases h.slot k with hs | ⟨hnone, -⟩
  · rw [← hs, hk]
  · rw [hnone] at hk
    cases hk

theorem get?_of_standing (h : Mirrors enc stale log d) (hv : ¬ stale v)
    (hk : standing log k = some v) : d.get? (enc k) = some v := by
  rcases h.slot k with hs | ⟨-, w, hw, hstale⟩
  · rw [hs, hk]
  · rw [hk] at hw
    cases hw
    exact absurd hstale hv

theorem get?_eq_standing (h : Mirrors enc (fun _ => False) log d) (k : κ) :
    d.get? (enc k) = standing log k := by
  rcases h.slot k with hs | ⟨-, -, -, hfalse⟩
  · exact hs
  · exact hfalse.elim

theorem label_of_get? (h : Mirrors enc stale log d) (hl : Labelled label log)
    (hk : d.get? (enc k) = some v) : label v = k :=
  hl _ (standing_mem (standing_of_get? h hk)) v rfl

theorem mem_values_standing (h : Mirrors enc stale log d) (hl : Labelled label log)
    (hv : v ∈ d.values) : standing log (label v) = some v := by
  obtain ⟨c, hc⟩ := Dict.mem_values_iff.1 hv
  obtain ⟨k, rfl⟩ := h.encoded c v hc
  rw [label_of_get? h hl hc]
  exact standing_of_get? h hc

theorem mem_values_of_standing (h : Mirrors enc stale log d) (hv : ¬ stale v)
    (hk : standing log k = some v) : v ∈ d.values :=
  Dict.mem_values_iff.2 ⟨enc k, get?_of_standing h hv hk⟩

theorem values_labels_nodup (h : Mirrors enc stale log d) (hl : Labelled label log) :
    (d.values.map label).Nodup := by
  have hkeys : (d.values.map label).map enc = d.keys := by
    rw [Dict.values, Dict.keys, List.map_map, List.map_map]
    apply List.map_congr_left
    intro e he
    have hget : d.get? e.1 = some e.2 := Dict.get?_eq_some_iff.2 he
    obtain ⟨k, hk⟩ := h.encoded e.1 e.2 hget
    rw [hk] at hget ⊢
    exact congrArg enc (label_of_get? h hl hget)
  apply List.Nodup.of_map enc
  rw [hkeys]
  exact d.nodup

end TrustCopilot.KeyedLog
