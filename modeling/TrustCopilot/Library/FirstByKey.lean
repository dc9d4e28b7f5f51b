import Mathlib.Data.List.Nodup
import Mathlib.Data.List.Induction

/-! Of the elements with one key the first is kept. What is kept depends on the order of the
groups that the elements come in only as far as the groups disagree. -/
namespace TrustCopilot.FirstByKey

variable {α β κ ι : Type*} [DecidableEq κ] {key : α → κ}

def firstByKey (key : α → κ) : List α → List α
  | [] => []
  | x :: xs => x :: (firstByKey key xs).filter fun y => key y ≠ key x

theorem mem_firstByKey_cons {x c : α} {xs : List α} :
    c ∈ firstByKey key (x :: xs) ↔ c = x ∨ (c ∈ firstByKey key xs ∧ key c ≠ key x) := by
  simp [firstByKey]

theorem mem_of_firstByKey {c : α} {xs : List α} (h : c ∈ firstByKey key xs) : c ∈ xs := by
  induction xs with
  | nil => exact h
  | cons x xs ih =>
    rcases mem_firstByKey_cons.1 h with rfl | ⟨hc, -⟩
    · exact List.mem_cons_self
    · exact List.mem_cons_of_mem x (ih hc)

theorem firstByKey_covers {x : α} {xs : List α} (h : x ∈ xs) :
    ∃ c ∈ firstByKey key xs, key c = key x := by
  induction xs with
  | nil => cases h
  | cons y ys ih =>
    by_cases hy : key y = key x
    · exact ⟨y, mem_firstByKey_cons.2 (Or.inl rfl), hy⟩
    · rcases List.mem_cons.1 h with rfl | hx
      · exact absurd rfl hy
      · obtain ⟨c, hc, hkey⟩ := ih hx
        refine ⟨c, mem_firstByKey_cons.2 (Or.inr ⟨hc, ?_⟩), hkey⟩
        rw [hkey]
        exact fun he => hy he.symm

theorem mem_firstByKey_append {c : α} {xs ys : List α} :
    c ∈ firstByKey key (xs ++ ys) ↔
      c ∈ firstByKey key xs ∨ (c ∈ firstByKey key ys ∧ ∀ d ∈ xs, key d ≠ key c) := by
  induction xs with
  | nil => simp [firstByKey]
  | cons x xs ih =>
    rw [List.cons_append, mem_firstByKey_cons, mem_firstByKey_cons, ih, List.forall_mem_cons]
    constructor
    · rintro (rfl | ⟨hxs | ⟨hys, hnew⟩, hx⟩)
      · exact Or.inl (Or.inl rfl)
      · exact Or.inl (Or.inr ⟨hxs, hx⟩)
      · exact Or.inr ⟨hys, hx.symm, hnew⟩
    · rintro ((rfl | ⟨hxs, hx⟩) | ⟨hys, hx, hnew⟩)
      · exact Or.inl rfl
      · exact Or.inr ⟨Or.inl hxs, hx⟩
      · exact Or.inr ⟨Or.inr ⟨hys, hnew⟩, hx.symm⟩

theorem firstByKey_of_nodup {xs : List α} (h : (xs.map key).Nodup) : firstByKey key xs = xs := by
  induction xs with
  | nil => rfl
  | cons x xs ih =>
    rw [List.map_cons, List.nodup_cons] at h
    rw [firstByKey, ih h.2]
    congr
    refine List.filter_eq_self.2 fun y hy => decide_eq_true fun he => h.1 ?_
    rw [← he]
    exact List.mem_map_of_mem hy

theorem firstByKey_concat (xs : List α) (c : α) :
    firstByKey key (xs ++ [c]) =
      if key c ∈ xs.map key then firstByKey key xs else firstByKey key xs ++ [c] := by
  induction xs with
  | nil => rfl
  | cons x xs ih =>
    have hmem : key c ∈ (x :: xs).map key ↔ key c = key x ∨ key c ∈ xs.map key := List.mem_cons
    rw [List.cons_append, firstByKey, ih, firstByKey]
    by_cases hx : key c = key x
    · by_cases hc : key c ∈ xs.map key
      · rw [if_pos hc, if_pos (hmem.2 (Or.inl hx))]
      · rw [if_neg hc, if_pos (hmem.2 (Or.inl hx)), List.filter_append]
        simp [hx]
    · by_cases hc : key c ∈ xs.map key
      · rw [if_pos hc, if_pos (hmem.2 (Or.inr hc))]
      · rw [if_neg hc, if_neg (mt hmem.1 (not_or.2 ⟨hx, hc⟩)), List.filter_append]
        simp [hx]

theorem firstByKey_unique {x : α} {xs : List α} (h : x ∈ xs) :
    ∃ c, (firstByKey key xs).filter (fun d => key d = key x) = [c] := by
  induction xs with
  | nil => cases h
  | cons y ys ih =>
    rw [firstByKey, List.filter_cons]
    by_cases hy : key y = key x
    · rw [if_pos (decide_eq_true hy), List.filter_filter]
      refine ⟨y, congrArg (y :: ·) (List.filter_eq_nil_iff.2 fun d _ => ?_)⟩
      simp [hy]
    · rw [if_neg (by simpa using hy), List.filter_filter]
      obtain ⟨c, hc⟩ := ih ((List.mem_cons.1 h).resolve_left fun he => hy (by rw [he]))
      refine ⟨c, hc ▸ List.filter_congr fun d _ => ?_⟩
      by_cases hd : key d = key x
      · simp [hd, Ne.symm hy]
      · simp [hd]

/-- If elements of one key come in order, the one that is kept goes before them all. -/
theorem firstByKey_before {r : α → α → Prop} {c d : α} {xs : List α}
    (h : xs.Pairwise fun a b => key a = key b → r a b) (hc : c ∈ firstByKey key xs) (hd : d ∈ xs)
    (hkey : key c = key d) : c = d ∨ r c d := by
  induction xs with
  | nil => cases hd
  | cons x xs ih =>
    obtain ⟨hx, hxs⟩ := List.pairwise_cons.1 h
    rcases mem_firstByKey_cons.1 hc with rfl | ⟨hc, hne⟩
    · rcases List.mem_cons.1 hd with rfl | hd
      · exact Or.inl rfl
      · exact Or.inr (hx d hd hkey)
    · rcases List.mem_cons.1 hd with rfl | hd
      · exact absurd hkey hne
      · exact ih hxs hc hd

/-- Where elements of one key come in falling order, a test that more elements pass keeps for each
key an element that is no lower. -/
theorem firstByKey_filter_rises {r : α → α → Prop} {p q : α → Bool} {xs : List α}
    (hpq : ∀ x, p x = true → q x = true)
    (h : xs.Pairwise fun a b => key a = key b → q a = true → q b = true → r a b) {c : α}
    (hc : c ∈ firstByKey key (xs.filter p)) :
    ∃ d ∈ firstByKey key (xs.filter q), key d = key c ∧ (d = c ∨ r d c) := by
  obtain ⟨hcx, hcp⟩ := List.mem_filter.1 (mem_of_firstByKey hc)
  have hcq : c ∈ xs.filter q := List.mem_filter.2 ⟨hcx, hpq c hcp⟩
  obtain ⟨d, hd, hkey⟩ : ∃ d ∈ firstByKey key (xs.filter q), key d = key c :=
    firstByKey_covers hcq
  refine ⟨d, hd, hkey, firstByKey_before ?_ hd hcq hkey⟩
  rw [List.pairwise_filter]
  exact h.imp fun hab ha hb he => hab he ha hb

/-- A loop that keeps what has a key not seen before keeps the first of each key. -/
theorem foldl_firstByKey {σ : Type*} {step : σ → α → σ} {kept : σ → List α}
    {seen : σ → κ → Prop} {s : σ} (hkept : kept s = []) (hseen : ∀ k, ¬ seen s k)
    (hskip : ∀ s x, seen s (key x) → step s x = s)
    (hkeep : ∀ s x, ¬ seen s (key x) → kept (step s x) = kept s ++ [x])
    (hnote : ∀ s x k, ¬ seen s (key x) → (seen (step s x) k ↔ seen s k ∨ k = key x))
    (xs : List α) : kept (xs.foldl step s) = firstByKey key xs ∧
      ∀ k, seen (xs.foldl step s) k ↔ k ∈ xs.map key := by
  induction xs using List.reverseRecOn with
  | nil => exact ⟨hkept, fun k => iff_of_false (hseen k) List.not_mem_nil⟩
  | append_singleton xs x ih =>
    obtain ⟨ihkept, ihseen⟩ := ih
    rw [List.foldl_append, List.foldl_cons, List.foldl_nil, firstByKey_concat, List.map_append,
      List.map_singleton]
    by_cases hx : key x ∈ xs.map key
    · rw [if_pos hx, hskip _ x ((ihseen _).2 hx)]
      refine ⟨ihkept, fun k => ?_⟩
      rw [ihseen, List.mem_append, List.mem_singleton]
      constructor
      · exact Or.inl
      · rintro (hk | rfl)
        · exact hk
        · exact hx
    · have hnew := mt (ihseen _).1 hx
      rw [if_neg hx, hkeep _ x hnew, ihkept]
      refine ⟨rfl, fun k => ?_⟩
      rw [hnote _ x k hnew, ihseen, List.mem_append, List.mem_singleton]

/-- The same for a loop over rules, some of which give nothing. -/
theorem foldl_firstByKey_filterMap {σ : Type*} {step : σ → ι → σ} {out : ι → Option α}
    {kept : σ → List α} (seen : σ → κ → Prop) {s : σ} (hkept : kept s = [])
    (hseen : ∀ k, ¬ seen s k) (hnone : ∀ s i, out i = none → step s i = s)
    (hskip : ∀ s i x, out i = some x → seen s (key x) → step s i = s)
    (hkeep : ∀ s i x, out i = some x → ¬ seen s (key x) → kept (step s i) = kept s ++ [x])
    (hnote : ∀ s i x k, out i = some x → ¬ seen s (key x) →
      (seen (step s i) k ↔ seen s k ∨ k = key x))
    (is : List ι) : kept (is.foldl step s) = firstByKey key (is.filterMap out) ∧
      ∀ k, seen (is.foldl step s) k ↔ k ∈ (is.filterMap out).map key := by
  induction is using List.reverseRecOn with
  | nil => exact ⟨hkept, fun k => iff_of_false (hseen k) List.not_mem_nil⟩
  | append_singleton is i ih =>
    obtain ⟨ihkept, ihseen⟩ := ih
    rw [List.foldl_append, List.foldl_cons, List.foldl_nil, List.filterMap_append]
    cases hi : out i with
    | none =>
      rw [hnone _ i hi, List.filterMap_cons_none hi, List.filterMap_nil, List.append_nil]
      exact ⟨ihkept, ihseen⟩
    | some x =>
      rw [List.filterMap_cons_some hi, List.filterMap_nil, firstByKey_concat]
      by_cases hx : key x ∈ (is.filterMap out).map key
      · rw [if_pos hx, hskip _ i x hi ((ihseen _).2 hx)]
        refine ⟨ihkept, fun k => ?_⟩
        rw [ihseen, List.map_append, List.mem_append, List.map_singleton, List.mem_singleton]
        constructor
        · exact Or.inl
        · rintro (hk | rfl)
          · exact hk
          · exact hx
      · have hnew := mt (ihseen _).1 hx
        rw [if_neg hx, hkeep _ i x hi hnew, ihkept]
        refine ⟨rfl, fun k => ?_⟩
        rw [hnote _ i x k hi hnew, ihseen, List.map_append, List.mem_append, List.map_singleton,
          List.mem_singleton]

theorem firstByKey_map (key' : β → κ) (f : α → β) (h : ∀ x, key' (f x) = key x) (xs : List α) :
    firstByKey key' (xs.map f) = (firstByKey key xs).map f := by
  induction xs with
  | nil => rfl
  | cons x xs ih =>
    rw [List.map_cons, firstByKey, ih, firstByKey, List.map_cons, List.filter_map]
    simp only [Function.comp_def, h]

theorem nodup_firstByKey (key : α → κ) (xs : List α) : ((firstByKey key xs).map key).Nodup := by
  induction xs with
  | nil => exact List.nodup_nil
  | cons x xs ih =>
    rw [firstByKey, List.map_cons, List.nodup_cons]
    refine ⟨fun hx => ?_, ih.sublist (List.filter_sublist.map _)⟩
    obtain ⟨y, hy, heq⟩ := List.mem_map.1 hx
    exact of_decide_eq_true (List.mem_filter.1 hy).2 heq

def NewKey (key : α → κ) (xs : List α) (x : α) : Prop := ∀ y ∈ xs, key y ≠ key x

omit [DecidableEq κ] in
theorem newKey_iff {x : α} {xs : List α} : NewKey key xs x ↔ key x ∉ xs.map key := by
  simp [NewKey]

theorem mem_firstByKey_iff {c : α} {xs : List α} :
    c ∈ firstByKey key xs ↔ ∃ p r, xs = p ++ c :: r ∧ NewKey key p c := by
  constructor
  · intro h
    induction xs with
    | nil => cases h
    | cons x xs ih =>
      rcases mem_firstByKey_cons.1 h with rfl | ⟨hc, hne⟩
      · exact ⟨[], xs, rfl, fun _ hy => absurd hy List.not_mem_nil⟩
      · obtain ⟨p, r, rfl, hp⟩ := ih hc
        exact ⟨x :: p, r, rfl, List.forall_mem_cons.2 ⟨hne.symm, hp⟩⟩
  · rintro ⟨p, r, rfl, hp⟩
    exact mem_firstByKey_append.2 (Or.inr ⟨mem_firstByKey_cons.2 (Or.inl rfl), hp⟩)

/-- What holds between the elements that are kept, told of the list they are kept from. -/
theorem firstByKey_pairwise_iff {R : α → α → Prop} {xs : List α} :
    (firstByKey key xs).Pairwise R ↔
      ∀ p x q y r, xs = p ++ x :: (q ++ y :: r) → NewKey key p x →
        NewKey key (p ++ x :: q) y → R x y := by
  induction xs using List.reverseRecOn with
  | nil =>
    refine iff_of_true List.Pairwise.nil ?_
    intro p x q y r h
    exact absurd h (by simp)
  | append_singleton xs c ih =>
    have hlast : ∀ {p : List α} {x : α} {q : List α} {y : α} {r : List α},
        xs ++ [c] = p ++ x :: (q ++ y :: r) →
        (r = [] ∧ y = c ∧ xs = p ++ x :: q) ∨ ∃ r', xs = p ++ x :: (q ++ y :: r') := by
      intro p x q y r h
      cases r using List.reverseRecOn with
      | nil =>
        have h' : xs ++ [c] = (p ++ x :: q) ++ [y] := by rw [h]; simp
        obtain ⟨hxs, hy⟩ := List.append_inj' h' rfl
        cases hy
        exact Or.inl ⟨rfl, rfl, hxs⟩
      | append_singleton r z =>
        have h' : xs ++ [c] = (p ++ x :: (q ++ y :: r)) ++ [z] := by rw [h]; simp
        exact Or.inr ⟨r, (List.append_inj' h' rfl).1⟩
    rw [firstByKey_concat]
    by_cases hc : key c ∈ xs.map key
    · rw [if_pos hc, ih]
      constructor
      · intro h p x q y r hsplit hx hy
        rcases hlast hsplit with ⟨-, rfl, rfl⟩ | ⟨r', hr'⟩
        · exact absurd hc (newKey_iff.1 hy)
        · exact h p x q y r' hr' hx hy
      · rintro h p x q y r rfl hx hy
        exact h p x q y (r ++ [c]) (by simp) hx hy
    · rw [if_neg hc, List.pairwise_append, ih]
      constructor
      · rintro ⟨h, -, hnew⟩ p x q y r hsplit hx hy
        rcases hlast hsplit with ⟨-, rfl, rfl⟩ | ⟨r', hr'⟩
        · exact hnew x (mem_firstByKey_iff.2 ⟨p, q, rfl, hx⟩) y List.mem_cons_self
        · exact h p x q y r' hr' hx hy
      · intro h
        refine ⟨?_, List.pairwise_singleton R c, ?_⟩
        · rintro p x q y r rfl hx hy
          exact h p x q y (r ++ [c]) (by simp) hx hy
        · intro x hx y hy
          cases List.mem_singleton.1 hy
          obtain ⟨p, q, rfl, hp⟩ := mem_firstByKey_iff.1 hx
          exact h p x q c [] (by simp) hp (newKey_iff.2 hc)

/-! ### Groups -/

variable {f : ι → List α} {is : List ι}

/-- What is kept stands in the first group that has its key. -/
theorem mem_firstByKey_flatMap (hf : ∀ i, ((f i).map key).Nodup) {c : α} :
    c ∈ firstByKey key (is.flatMap f) ↔
      ∃ before i after, is = before ++ i :: after ∧ c ∈ f i ∧
        ∀ j ∈ before, ∀ d ∈ f j, key d ≠ key c := by
  induction is with
  | nil => simp [firstByKey]
  | cons i is ih =>
    rw [List.flatMap_cons, mem_firstByKey_append, firstByKey_of_nodup (hf i), ih]
    constructor
    · rintro (hc | ⟨⟨before, j, after, rfl, hc, hbefore⟩, hi⟩)
      · exact ⟨[], i, is, rfl, hc, fun _ h => absurd h List.not_mem_nil⟩
      · exact ⟨i :: before, j, after, rfl, hc, List.forall_mem_cons.2 ⟨hi, hbefore⟩⟩
    · rintro ⟨before, j, after, hsplit, hc, hbefore⟩
      cases before with
      | nil =>
        cases hsplit
        exact Or.inl hc
      | cons k before =>
        cases hsplit
        obtain ⟨hk, hrest⟩ := List.forall_mem_cons.1 hbefore
        exact Or.inr ⟨⟨before, j, after, rfl, hc, hrest⟩, hk⟩

/-- The values kept for the keys are the same for every order of the groups exactly if any two
groups have the same value for a key that they share. -/
theorem order_free_iff (hf : ∀ i, ((f i).map key).Nodup) {value : α → β} :
    (∀ is' : List ι, is'.Perm is → ∀ c ∈ firstByKey key (is.flatMap f),
      ∀ d ∈ firstByKey key (is'.flatMap f), key c = key d → value c = value d) ↔
    ∀ i ∈ is, ∀ j ∈ is, ∀ c ∈ f i, ∀ d ∈ f j, key c = key d → value c = value d := by
  constructor
  · intro hfree i hi j hj c hc d hd hkey
    obtain ⟨e, he, hec⟩ :=
      @firstByKey_covers _ _ _ key c _ (List.mem_flatMap.2 ⟨i, hi, hc⟩)
    -- a group that comes first keeps all that it has
    have hfirst : ∀ k ∈ is, ∀ a ∈ f k, key e = key a → value e = value a := by
      intro k hk a ha hea
      obtain ⟨before, after, rfl⟩ := List.append_of_mem hk
      exact hfree (k :: (before ++ after)) List.perm_middle.symm e he a
        ((mem_firstByKey_flatMap hf).2 ⟨[], k, _, rfl, ha, fun _ h => absurd h List.not_mem_nil⟩)
        hea
    rw [← hfirst i hi c hc hec, hfirst j hj d hd (hec.trans hkey)]
  · intro hagree is' hperm c hc d hd hkey
    obtain ⟨i, hi, hci⟩ := List.mem_flatMap.1 (mem_of_firstByKey hc)
    obtain ⟨j, hj, hdj⟩ := List.mem_flatMap.1 (mem_of_firstByKey hd)
    exact hagree i hi j (hperm.mem_iff.1 hj) c hci d hdj hkey

end TrustCopilot.FirstByKey
