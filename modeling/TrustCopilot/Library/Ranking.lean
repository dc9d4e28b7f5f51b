import Mathlib.Data.List.Sort

/-! Elements ranked by a key, the greatest first and those with one key in the order they come
in. -/
namespace TrustCopilot.Ranking

variable {α κ : Type*} [LinearOrder κ] {key : α → κ} {xs ys : List α}

def NotBelow (key : α → κ) (a b : α) : Prop := key b ≤ key a

instance : DecidableRel (NotBelow key) := fun a b => inferInstanceAs (Decidable (key b ≤ key a))

instance : IsTrans α (NotBelow key) := ⟨fun _ _ _ hab hbc => le_trans hbc hab⟩

instance : Std.Total (NotBelow key) := ⟨fun a b => le_total (key b) (key a)⟩

def ranked (key : α → κ) (xs : List α) : List α := xs.insertionSort (NotBelow key)

theorem ranked_cons (a : α) (xs : List α) :
    ranked key (a :: xs) = (ranked key xs).orderedInsert (NotBelow key) a := rfl

theorem ranked_perm (key : α → κ) (xs : List α) : (ranked key xs).Perm xs :=
  List.perm_insertionSort _ xs

@[simp] theorem mem_ranked {a : α} : a ∈ ranked key xs ↔ a ∈ xs := List.mem_insertionSort _

theorem ranked_pairwise (key : α → κ) (xs : List α) : (ranked key xs).Pairwise (NotBelow key) :=
  List.pairwise_insertionSort _ xs

theorem ranked_map {β : Type*} (g : β → α) (ys : List β) :
    ranked key (ys.map g) = (ranked (fun b => key (g b)) ys).map g :=
  (List.map_insertionSort (NotBelow fun b => key (g b)) (NotBelow key) g ys
    fun _ _ _ _ => Iff.rfl).symm

theorem ranked_of_pairwise (h : xs.Pairwise (NotBelow key)) : ranked key xs = xs :=
  h.insertionSort_eq

/-- Without equal keys the order of the elements does not matter. -/
theorem ranked_congr (h : xs.Perm ys) (hkeys : (xs.map key).Nodup) :
    ranked key xs = ranked key ys := by
  have hperm : (ranked key xs).Perm (ranked key ys) :=
    (ranked_perm key xs).trans (h.trans (ranked_perm key ys).symm)
  apply List.Perm.eq_of_pairwise _ (ranked_pairwise key xs) (ranked_pairwise key ys) hperm
  intro a b ha hb hba hab
  have hax : a ∈ xs := mem_ranked.1 ha
  have hbx : b ∈ xs := h.mem_iff.2 (mem_ranked.1 hb)
  exact List.inj_on_of_nodup_map hkeys hax hbx (le_antisymm hab hba)

/-- The element that comes first among the greatest ones. -/
def Leading (key : α → κ) (a : α) (xs : List α) : Prop :=
  ∃ before after, xs = before ++ a :: after ∧ (∀ b ∈ before, key b < key a) ∧
    ∀ b ∈ after, key b ≤ key a

theorem Leading.unique {a b : α} (ha : Leading key a xs) (hb : Leading key b xs) : a = b := by
  obtain ⟨before, after, rfl, hbefore, hafter⟩ := ha
  obtain ⟨before', after', hsplit, hbefore', hafter'⟩ := hb
  rcases List.append_eq_append_iff.1 hsplit with ⟨w, rfl, hw⟩ | ⟨w, rfl, hw⟩
  · cases w with
    | nil => exact (List.cons.inj hw).1
    | cons c w =>
      obtain ⟨rfl, rfl⟩ := List.cons.inj hw
      have hlt : key a < key b := hbefore' a (by simp)
      exact absurd (hafter b (by simp)) (not_le.2 hlt)
  · cases w with
    | nil => exact (List.cons.inj hw).1.symm
    | cons c w =>
      obtain ⟨rfl, rfl⟩ := List.cons.inj hw
      have hlt : key b < key a := hbefore b (by simp)
      exact absurd (hafter' a (by simp)) (not_le.2 hlt)

theorem leading_of_head? {a : α} (h : (ranked key xs).head? = some a) : Leading key a xs := by
  induction xs generalizing a with
  | nil => cases h
  | cons x xs ih =>
    rw [ranked_cons] at h
    have hperm := ranked_perm key xs
    have hfall := ranked_pairwise key xs
    cases hr : ranked key xs with
    | nil =>
      rw [hr] at h hperm
      cases h
      rw [← hperm.nil_eq]
      exact ⟨[], [], rfl, fun b hb => (by cases hb), fun b hb => by cases hb⟩
    | cons c cs =>
      rw [hr] at h hperm hfall
      have hle : ∀ b ∈ xs, key b ≤ key c := by
        intro b hb
        rcases List.mem_cons.1 (hperm.mem_iff.2 hb) with rfl | hb
        · exact le_refl _
        · exact (List.pairwise_cons.1 hfall).1 b hb
      by_cases hc : NotBelow key x c
      · rw [List.orderedInsert_cons_of_le _ _ hc] at h
        cases h
        exact ⟨[], xs, rfl, fun b hb => (by cases hb), fun b hb => (hle b hb).trans hc⟩
      · rw [List.orderedInsert_of_not_le _ _ hc] at h
        cases h
        obtain ⟨before, after, rfl, hbefore, hafter⟩ := ih (by rw [hr]; rfl)
        exact ⟨x :: before, after, rfl, List.forall_mem_cons.2 ⟨not_le.1 hc, hbefore⟩, hafter⟩

theorem head?_ranked_iff {a : α} : (ranked key xs).head? = some a ↔ Leading key a xs := by
  constructor
  · exact leading_of_head?
  · intro h
    cases hr : (ranked key xs).head? with
    | none =>
      have hnil : xs = [] := by
        have hperm := ranked_perm key xs
        rw [List.head?_eq_none_iff.1 hr] at hperm
        exact hperm.nil_eq.symm
      obtain ⟨before, after, hsplit, -⟩ := h
      rw [hnil] at hsplit
      cases before <;> cases hsplit
    | some c => rw [(leading_of_head? hr).unique h]

theorem filter_orderedInsert {a : α} (h : xs.Pairwise (NotBelow key)) (p : α → Bool) :
    (xs.orderedInsert (NotBelow key) a).filter p =
      if p a then (xs.filter p).orderedInsert (NotBelow key) a else xs.filter p := by
  induction xs with
  | nil => cases hp : p a <;> simp [hp]
  | cons b xs ih =>
    obtain ⟨hb, hxs⟩ := List.pairwise_cons.1 h
    by_cases hab : NotBelow key a b
    · rw [List.orderedInsert_cons_of_le _ _ hab, List.filter_cons]
      split
      · -- the element comes before all that is kept
        have hall : ∀ c ∈ (b :: xs).filter p, NotBelow key a c := by
          intro c hc
          rcases List.mem_cons.1 (List.mem_of_mem_filter hc) with rfl | hc
          · exact hab
          · exact le_trans (hb c hc) hab
        cases hk : (b :: xs).filter p with
        | nil => rfl
        | cons c cs =>
          rw [List.orderedInsert_cons_of_le]
          exact hall c (by rw [hk]; exact List.mem_cons_self)
      · rfl
    · rw [List.orderedInsert_of_not_le _ _ hab, List.filter_cons, ih hxs]
      cases hpb : p b <;> cases hpa : p a <;> simp [hpb, hab]

/-- A part of the elements is ranked among itself as it is among all of them. -/
theorem filter_ranked (p : α → Bool) (xs : List α) :
    (ranked key xs).filter p = ranked key (xs.filter p) := by
  induction xs with
  | nil => rfl
  | cons a xs ih =>
    rw [ranked_cons, filter_orderedInsert (ranked_pairwise key xs), ih, List.filter_cons]
    split
    · rfl
    · rfl

/-- What is cut off a falling list is no greater than what is kept. -/
theorem take_heaviest (h : xs.Pairwise (NotBelow key)) (n : ℕ) :
    ∀ a ∈ xs.take n, ∀ b ∈ xs.drop n, key b ≤ key a := by
  rw [← List.take_append_drop n xs] at h
  exact (List.pairwise_append.1 h).2.2

/-- An element with more than the least key is not cut off but for others that have more. -/
theorem kept_of_key {least : κ} {p : α → Prop} (hp : ∀ a ∈ xs, ¬ p a → key a = least) {n : ℕ}
    (hn : 0 < n) {a : α} (ha : a ∈ xs) (hkey : least < key a) :
    ∃ u ∈ (ranked key xs).take n, p u := by
  have hmem : a ∈ ranked key xs := mem_ranked.2 ha
  rw [← List.take_append_drop n (ranked key xs)] at hmem
  rcases List.mem_append.1 hmem with htake | hdrop
  · exact ⟨a, htake, not_not.1 fun hno => hkey.ne' (hp a ha hno)⟩
  · have hlong : n < (ranked key xs).length := by
      have hpos := List.length_pos_of_mem hdrop
      rw [List.length_drop] at hpos
      omega
    obtain ⟨u, hu⟩ := List.exists_mem_of_length_pos
      (show 0 < ((ranked key xs).take n).length by rw [List.length_take]; omega)
    have hle : key a ≤ key u := take_heaviest (ranked_pairwise key xs) n u hu a hdrop
    have hux : u ∈ xs := mem_ranked.1 (List.mem_of_mem_take hu)
    exact ⟨u, hu, not_not.1 fun hno => (hkey.trans_le hle).ne' (hp u hux hno)⟩

/-- Where the elements without a property have the least key, one that has it is kept exactly if
one has more than that key, or stands among the first in the order they come in. -/
theorem exists_kept_iff {least : κ} {p : α → Prop} (hleast : ∀ a ∈ xs, least ≤ key a)
    (hp : ∀ a ∈ xs, ¬ p a → key a = least) {n : ℕ} (hn : 0 < n) :
    (∃ a ∈ (ranked key xs).take n, p a) ↔
      (∃ a ∈ xs, p a ∧ key a ≠ least) ∨ ∃ a ∈ xs.take n, p a := by
  by_cases hmore : ∃ a ∈ xs, p a ∧ key a ≠ least
  · refine iff_of_true ?_ (Or.inl hmore)
    obtain ⟨a, ha, -, hne⟩ := hmore
    exact kept_of_key hp hn ha ((hleast a ha).lt_of_ne' hne)
  · have hkeys : ∀ a ∈ xs, key a = least := by
      intro a ha
      by_contra hne
      by_cases hpa : p a
      · exact hmore ⟨a, ha, hpa, hne⟩
      · exact hne (hp a ha hpa)
    have hsame : ranked key xs = xs := by
      apply ranked_of_pairwise
      refine (List.pairwise_of_forall fun _ _ => trivial).imp_of_mem fun {a b} ha hb _ => ?_
      exact ((hkeys b hb).trans (hkeys a ha).symm).le
    rw [hsame, or_iff_right hmore]

end TrustCopilot.Ranking
