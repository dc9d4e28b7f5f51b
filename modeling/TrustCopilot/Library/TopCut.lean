import TrustCopilot.Library.Ranking

/-! The first `k` elements of a ranking, and what is counted among them. Elements with the key at
the cut fill the places that the greater ones leave, in the order they come in; so the count
depends on that order exactly where such elements are on both sides of the cut and not alike. -/
namespace TrustCopilot.TopCut

open TrustCopilot.Ranking

variable {α κ : Type*} [LinearOrder κ] {key : α → κ} {p : α → Bool} {xs ys : List α} {k : ℕ}

def above (key : α → κ) (s : κ) (xs : List α) : List α := xs.filter fun a => s < key a

def tied (key : α → κ) (s : κ) (xs : List α) : List α := xs.filter fun a => key a = s

def below (key : α → κ) (s : κ) (xs : List α) : List α := xs.filter fun a => key a < s

/-- A falling list is what is above a key, what has it and what is below it. -/
theorem falling_split (s : κ) (h : xs.Pairwise (NotBelow key)) :
    xs = above key s xs ++ (tied key s xs ++ below key s xs) := by
  induction xs with
  | nil => rfl
  | cons a xs ih =>
    obtain ⟨ha, hxs⟩ := List.pairwise_cons.1 h
    have hrest := ih hxs
    rcases lt_trichotomy s (key a) with hlt | heq | hgt
    · simp only [above, tied, below, List.filter_cons, hlt, hlt.ne', hlt.not_gt, decide_true,
        decide_false, if_true, List.cons_append, List.cons.injEq, true_and, Bool.false_eq_true,
        if_false]
      exact hrest
    · subst heq
      have hnone : above key (key a) xs = [] :=
        List.filter_eq_nil_iff.2 fun b hb => by simpa using show key b ≤ key a from ha b hb
      rw [hnone, List.nil_append] at hrest
      have hnone' : above key (key a) (a :: xs) = [] :=
        List.filter_eq_nil_iff.2 fun b hb => by
          rcases List.mem_cons.1 hb with rfl | hb
          · simp
          · simpa using show key b ≤ key a from ha b hb
      rw [hnone', List.nil_append]
      simp only [tied, below, List.filter_cons, decide_true, if_true, lt_irrefl, decide_false,
        Bool.false_eq_true, if_false, List.cons_append, List.cons.injEq, true_and]
      exact hrest
    · have hall : ∀ b ∈ a :: xs, key b < s := by
        intro b hb
        rcases List.mem_cons.1 hb with rfl | hb
        · exact hgt
        · exact lt_of_le_of_lt (ha b hb) hgt
      have habove : above key s (a :: xs) = [] :=
        List.filter_eq_nil_iff.2 fun b hb => by simpa using (hall b hb).le
      have htied : tied key s (a :: xs) = [] :=
        List.filter_eq_nil_iff.2 fun b hb => by simpa using (hall b hb).ne
      have hbelow : below key s (a :: xs) = a :: xs :=
        List.filter_eq_self.2 fun b hb => by simpa using hall b hb
      rw [habove, htied, hbelow]
      rfl

/-- The elements that have one key stay in the order they come in. -/
theorem tied_ranked (s : κ) (xs : List α) : tied key s (ranked key xs) = tied key s xs := by
  rw [tied, filter_ranked]
  refine ranked_of_pairwise (List.pairwise_of_forall_mem_list ?_)
  intro a ha b hb
  have hsa : key a = s := by simpa using List.of_mem_filter ha
  have hsb : key b = s := by simpa using List.of_mem_filter hb
  exact (hsb.trans hsa.symm).le

def top (key : α → κ) (k : ℕ) (xs : List α) : List α := (ranked key xs).take k

theorem top_length (key : α → κ) (k : ℕ) (xs : List α) :
    (top key k xs).length = min k xs.length := by
  rw [top, List.length_take, (ranked_perm key xs).length_eq]

theorem top_map {β : Type*} (key : α → κ) (f : β → α) (k : ℕ) (zs : List β) :
    top key k (zs.map f) = (top (fun z => key (f z)) k zs).map f := by
  rw [top, top, List.map_take, ranked, ranked]
  congr 1
  exact (List.map_insertionSort _ _ f zs fun _ _ _ _ => Iff.rfl).symm

/-- The cut lies in the elements of key `s`. -/
def CutAt (key : α → κ) (k : ℕ) (s : κ) (xs : List α) : Prop :=
  (above key s xs).length ≤ k ∧ k ≤ (above key s xs).length + (tied key s xs).length

theorem above_ranked_perm (s : κ) (xs : List α) :
    (above key s (ranked key xs)).Perm (above key s xs) := (ranked_perm key xs).filter _

theorem top_of_cutAt {s : κ} (h : CutAt key k s xs) :
    top key k xs = above key s (ranked key xs) ++
      (tied key s xs).take (k - (above key s xs).length) := by
  have hsplit := falling_split s (ranked_pairwise key xs)
  rw [tied_ranked] at hsplit
  have hlen : (above key s (ranked key xs)).length = (above key s xs).length :=
    (above_ranked_perm s xs).length_eq
  have hfit : k - (above key s xs).length ≤ (tied key s xs).length := by
    have := h.2
    omega
  calc top key k xs = (above key s (ranked key xs) ++
        (tied key s xs ++ below key s (ranked key xs))).take k := by rw [← hsplit]; rfl
    _ = above key s (ranked key xs) ++
        (tied key s xs).take (k - (above key s xs).length) := by
      rw [List.take_append, List.take_of_length_le (by rw [hlen]; exact h.1), hlen,
        List.take_append_of_le_length hfit]

def topCount (key : α → κ) (p : α → Bool) (k : ℕ) (xs : List α) : ℕ := (top key k xs).countP p

theorem topCount_of_cutAt {s : κ} (h : CutAt key k s xs) :
    topCount key p k xs = (above key s xs).countP p +
      ((tied key s xs).take (k - (above key s xs).length)).countP p := by
  rw [topCount, top_of_cutAt h, List.countP_append, (above_ranked_perm s xs).countP_eq p]

theorem topCount_all (h : xs.length ≤ k) : topCount key p k xs = xs.countP p := by
  rw [topCount, top, List.take_of_length_le (by rw [(ranked_perm key xs).length_eq]; exact h),
    (ranked_perm key xs).countP_eq]

/-! ### The key at the cut -/

theorem above_add_tied (s : κ) (xs : List α) :
    (above key s xs).length + (tied key s xs).length = xs.countP fun a => s ≤ key a := by
  induction xs with
  | nil => rfl
  | cons a xs ih =>
    rcases lt_trichotomy s (key a) with hlt | heq | hgt
    · simp only [above, tied, List.filter_cons, List.countP_cons, hlt, hlt.ne', hlt.le] at ih ⊢
      simp
      omega
    · subst heq
      simp only [above, tied, List.filter_cons, List.countP_cons] at ih ⊢
      simp
      omega
    · simp only [above, tied, List.filter_cons, List.countP_cons, hgt.not_gt, hgt.ne,
        hgt.not_ge] at ih ⊢
      simp
      omega

/-- A cut inside the list goes past the key of the first element that is left out. -/
theorem exists_cutAt (h : k < xs.length) :
    ∃ s, CutAt key k s xs ∧ k < (above key s xs).length + (tied key s xs).length := by
  have hperm := ranked_perm key xs
  have hfall := ranked_pairwise key xs
  have hlen : k < (ranked key xs).length := by rwa [hperm.length_eq]
  generalize hL : ranked key xs = L at hperm hfall hlen
  have hsplit : L = L.take k ++ L.drop k := (List.take_append_drop k L).symm
  obtain ⟨a, rest, hdrop⟩ : ∃ a rest, L.drop k = a :: rest := by
    cases hd : L.drop k with
    | nil =>
      have := List.drop_eq_nil_iff.1 hd
      omega
    | cons a rest => exact ⟨a, rest, rfl⟩
  have hheavy := take_heaviest hfall k
  rw [hdrop] at hsplit hheavy
  have htake : (L.take k).length = k := by rw [List.length_take, min_eq_left hlen.le]
  have hrest : ∀ b ∈ a :: rest, key b ≤ key a := by
    rw [hsplit] at hfall
    have hfall' := (List.pairwise_append.1 hfall).2.1
    intro b hb
    rcases List.mem_cons.1 hb with rfl | hb
    · exact le_refl _
    · exact (List.pairwise_cons.1 hfall').1 b hb
  have hmany : k < L.countP fun b => key a ≤ key b := by
    have hall : (L.take k).countP (fun b => key a ≤ key b) = k := by
      rw [List.countP_eq_length.2, htake]
      intro b hb
      exact decide_eq_true (hheavy b hb a List.mem_cons_self)
    rw [hsplit, List.countP_append, hall, List.countP_cons]
    simp
  have hfew : (above key (key a) L).length ≤ k := by
    have hnone : above key (key a) (a :: rest) = [] :=
      List.filter_eq_nil_iff.2 fun b hb => by simpa using hrest b hb
    have happ : above key (key a) L = above key (key a) (L.take k) := by
      conv_lhs => rw [hsplit]
      rw [above, List.filter_append, ← above, ← above, hnone, List.append_nil]
    rw [happ]
    exact le_trans (List.length_filter_le _ _) htake.le
  have habove : (above key (key a) L).length = (above key (key a) xs).length :=
    (hperm.filter _).length_eq
  have htied : (tied key (key a) L).length = (tied key (key a) xs).length :=
    (hperm.filter _).length_eq
  rw [← above_add_tied, habove, htied] at hmany
  rw [habove] at hfew
  exact ⟨key a, ⟨hfew, hmany.le⟩, hmany⟩

/-! ### The count and the order of the elements -/

/-- Elements with one key on both sides of the cut are alike under `p`. -/
def Alike (key : α → κ) (p : α → Bool) (k : ℕ) (xs : List α) : Prop :=
  ∀ x ∈ xs, ∀ y ∈ xs, key x = key y → (above key (key x) xs).length < k →
    k < (above key (key x) xs).length + (tied key (key x) xs).length → p x = p y

instance : Decidable (Alike key p k xs) :=
  inferInstanceAs (Decidable (∀ x ∈ xs, ∀ y ∈ xs, _ → _ → _ → _))

theorem countP_take_alike {zs ws : List α} (hperm : ws.Perm zs)
    (h : ∀ x ∈ zs, ∀ y ∈ zs, p x = p y) (m : ℕ) :
    (ws.take m).countP p = (zs.take m).countP p := by
  cases zs with
  | nil => rw [hperm.eq_nil]
  | cons z zs =>
    have hall : ∀ {vs : List α}, vs.Perm (z :: zs) →
        (vs.take m).countP p = if p z then min m (z :: zs).length else 0 := by
      intro vs hvs
      have hsame : ∀ x ∈ vs.take m, p x = p z := fun x hx =>
        h x (hvs.mem_iff.1 (List.mem_of_mem_take hx)) z List.mem_cons_self
      split
      · next hz =>
        rw [List.countP_eq_length.2 fun x hx => (hsame x hx).trans hz, List.length_take,
          hvs.length_eq]
      · next hz =>
        refine List.countP_eq_zero.2 fun x hx => ?_
        rw [hsame x hx]
        exact hz
    rw [hall hperm, hall (List.Perm.refl _)]

theorem topCount_perm (halike : Alike key p k xs) (hperm : ys.Perm xs) :
    topCount key p k ys = topCount key p k xs := by
  rcases Nat.lt_or_ge k xs.length with hlt | hge
  · obtain ⟨s, hcut, hinside⟩ := @exists_cutAt _ _ _ key xs k hlt
    have habove : (above key s ys).Perm (above key s xs) := hperm.filter _
    have htied : (tied key s ys).Perm (tied key s xs) := hperm.filter _
    have hcut' : CutAt key k s ys := by
      rw [CutAt, habove.length_eq, htied.length_eq]
      exact hcut
    rw [topCount_of_cutAt hcut, topCount_of_cutAt hcut', habove.countP_eq, habove.length_eq]
    congr 1
    rcases hcut.1.lt_or_eq with hfew | hfull
    · refine countP_take_alike htied ?_ _
      intro x hx y hy
      obtain ⟨hxs, hxk⟩ := List.mem_filter.1 hx
      obtain ⟨hys, hyk⟩ := List.mem_filter.1 hy
      rw [decide_eq_true_iff] at hxk hyk
      subst hxk
      exact halike x hxs y hys hyk.symm hfew hinside
    · rw [hfull, Nat.sub_self, List.take_zero, List.take_zero]
  · rw [topCount_all hge, topCount_all (by rwa [hperm.length_eq]), hperm.countP_eq]

theorem countP_take_append {gs bs : List α} (hgs : ∀ a ∈ gs, p a = true)
    (hbs : ∀ a ∈ bs, ¬ p a = true) (m : ℕ) :
    ((gs ++ bs).take m).countP p = min m gs.length ∧
      ((bs ++ gs).take m).countP p = min (m - bs.length) gs.length := by
  have hnone : ∀ n, (bs.take n).countP p = 0 := fun n =>
    List.countP_eq_zero.2 fun a ha => hbs a (List.mem_of_mem_take ha)
  have hall : ∀ n, (gs.take n).countP p = min n gs.length := fun n => by
    rw [List.countP_eq_length.2 fun a ha => hgs a (List.mem_of_mem_take ha), List.length_take]
  constructor
  · rw [List.take_append, List.countP_append, hnone, hall, Nat.add_zero]
  · rw [List.take_append, List.countP_append, hnone, hall, Nat.zero_add]

/-- The elements that pass the test, and then the others. -/
def passingFirst (p : α → Bool) (xs : List α) : List α := xs.filter p ++ xs.filter fun a => !p a

def passingLast (p : α → Bool) (xs : List α) : List α := (xs.filter fun a => !p a) ++ xs.filter p

theorem passingFirst_perm (p : α → Bool) (xs : List α) : (passingFirst p xs).Perm xs :=
  List.filter_append_perm p xs

theorem passingLast_perm (p : α → Bool) (xs : List α) : (passingLast p xs).Perm xs :=
  List.perm_append_comm.trans (List.filter_append_perm p xs)

theorem tied_append (s : κ) (xs ys : List α) :
    tied key s (xs ++ ys) = tied key s xs ++ tied key s ys := List.filter_append ..

theorem tied_filter (s : κ) (q : α → Bool) (xs : List α) :
    tied key s (xs.filter q) = (tied key s xs).filter q := List.filter_comm ..

/-- A count that no order changes has alike elements on both sides of the cut: otherwise it makes a
difference whether the passing ones come first or last. -/
theorem alike_of_topCount
    (h : ∀ ys : List α, ys.Perm xs → topCount key p k ys = topCount key p k xs) :
    Alike key p k xs := by
  intro x hx y hy hkey hfew hinside
  by_contra hne
  have hcut : CutAt key k (key x) xs := ⟨hfew.le, hinside.le⟩
  have hcount : ∀ ys : List α, ys.Perm xs → topCount key p k ys =
      (above key (key x) xs).countP p +
        ((tied key (key x) ys).take (k - (above key (key x) xs).length)).countP p := by
    intro ys hperm
    have habove : (above key (key x) ys).Perm (above key (key x) xs) := hperm.filter _
    have htied : (tied key (key x) ys).Perm (tied key (key x) xs) := hperm.filter _
    have hcut' : CutAt key k (key x) ys := by
      rw [CutAt, habove.length_eq, htied.length_eq]
      exact hcut
    rw [topCount_of_cutAt hcut', habove.countP_eq, habove.length_eq]
  have hfirst := hcount _ (passingFirst_perm p xs)
  have hlast := hcount _ (passingLast_perm p xs)
  rw [h _ (passingFirst_perm p xs)] at hfirst
  rw [h _ (passingLast_perm p xs)] at hlast
  rw [passingFirst, tied_append, tied_filter, tied_filter] at hfirst
  rw [passingLast, tied_append, tied_filter, tied_filter] at hlast
  set zs := tied key (key x) xs with hzs
  have hgs : ∀ a ∈ zs.filter p, p a = true := fun a ha => List.of_mem_filter ha
  have hbs : ∀ a ∈ zs.filter fun a => !p a, ¬ p a = true := fun a ha => by
    simpa using List.of_mem_filter ha
  rw [(countP_take_append hgs hbs _).1] at hfirst
  rw [(countP_take_append hgs hbs _).2] at hlast
  have hparts : (zs.filter p).length + (zs.filter fun a => !p a).length = zs.length := by
    rw [← List.length_append]
    exact (List.filter_append_perm p zs).length_eq
  have hxz : x ∈ zs := List.mem_filter.2 ⟨hx, decide_eq_true rfl⟩
  have hyz : y ∈ zs := List.mem_filter.2 ⟨hy, decide_eq_true hkey.symm⟩
  have hpos : 0 < (zs.filter p).length ∧ 0 < (zs.filter fun a => !p a).length := by
    cases hpx : p x
    · have hpy : p y = true := by
        rw [hpx] at hne
        simpa using Ne.symm hne
      exact ⟨List.length_pos_of_mem (List.mem_filter.2 ⟨hyz, hpy⟩),
        List.length_pos_of_mem (List.mem_filter.2 ⟨hxz, by simp [hpx]⟩)⟩
    · have hpy : p y = false := by
        rw [hpx] at hne
        simpa using Ne.symm hne
      exact ⟨List.length_pos_of_mem (List.mem_filter.2 ⟨hxz, hpx⟩),
        List.length_pos_of_mem (List.mem_filter.2 ⟨hyz, by simp [hpy]⟩)⟩
  omega

end TrustCopilot.TopCut
