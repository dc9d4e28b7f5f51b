import Mathlib.Data.List.Infix

/-! Phrases in a text that is put together from pieces. A phrase without the separator stands in
one of the pieces, and of a phrase that runs over a separator the last word stands behind it. -/
namespace TrustCopilot.Phrases

variable {α : Type*} {x y : α} {e a b u w : List α}

theorem prefix_of_separated (hx : x ∉ e) (h : e <+: a ++ x :: b) : e <+: a := by
  induction a generalizing e with
  | nil =>
    cases e with
    | nil => exact List.nil_prefix
    | cons c e =>
      rw [List.nil_append, List.cons_prefix_cons] at h
      exact absurd (h.1 ▸ List.mem_cons_self) hx
  | cons d a ih =>
    cases e with
    | nil => exact List.nil_prefix
    | cons c e =>
      rw [List.cons_append, List.cons_prefix_cons] at h
      rw [List.cons_prefix_cons]
      exact ⟨h.1, ih (fun he => hx (List.mem_cons_of_mem c he)) h.2⟩

/-- The first separator of a text splits it in one way only. -/
theorem first_separator {c d : List α} (ha : x ∉ a) (hc : x ∉ c)
    (h : a ++ x :: b = c ++ x :: d) : a = c ∧ b = d := by
  rcases List.append_eq_append_iff.1 h with ⟨w, rfl, hw⟩ | ⟨w, rfl, hw⟩
  · cases w with
    | nil => exact ⟨(List.append_nil a).symm, (List.cons.inj hw).2⟩
    | cons y w =>
      rw [← (List.cons.inj hw).1] at hc
      exact absurd (by simp) hc
  · cases w with
    | nil => exact ⟨List.append_nil c, (List.cons.inj hw).2.symm⟩
    | cons y w =>
      rw [← (List.cons.inj hw).1] at ha
      exact absurd (by simp) ha

theorem infix_of_separated (hx : x ∉ e) (h : e <:+: a ++ x :: b) : e <:+: a ∨ e <:+: b := by
  induction a with
  | nil =>
    rcases List.infix_cons_iff.1 h with hpre | hin
    · exact Or.inl (prefix_of_separated (a := []) hx hpre).isInfix
    · exact Or.inr hin
  | cons c a ih =>
    rcases List.infix_cons_iff.1 h with hpre | hin
    · exact Or.inl (prefix_of_separated (a := c :: a) hx hpre).isInfix
    · rcases ih hin with ha | hb
      · exact Or.inl (List.infix_cons_iff.2 (Or.inr ha))
      · exact Or.inr hb

/-- A phrase that is not all before the separator has its last word behind it. -/
theorem lastWord_of_separated (hx : x ∉ w) (h : u ++ w <:+: a ++ x :: b) :
    u ++ w <:+: a ∨ w <:+: b := by
  obtain ⟨s, t, hst⟩ := h
  have hcut : (s ++ u) ++ (w ++ t) = a ++ x :: b := by
    rw [← hst]
    simp only [List.append_assoc]
  rcases List.append_eq_append_iff.1 hcut with ⟨c, rfl, hc⟩ | ⟨c, hc, hb⟩
  · have hw : w <+: c := prefix_of_separated hx ⟨t, hc⟩
    obtain ⟨d, rfl⟩ := hw
    exact Or.inl ⟨s, d, by simp only [List.append_assoc]⟩
  · cases c with
    | nil =>
      cases w with
      | nil => exact Or.inr List.nil_infix
      | cons c w =>
        rw [List.nil_append, List.cons_append, List.cons.injEq] at hb
        exact absurd (hb.1 ▸ List.mem_cons_self) hx
    | cons d c =>
      rw [List.cons_append, List.cons.injEq] at hb
      exact Or.inr ⟨c, t, by rw [hb.2, List.append_assoc]⟩

/-- A phrase that does not begin with the blank stands behind it. -/
theorem infix_of_blank (hne : e ≠ []) (hy : e.head? ≠ some y) (h : e <:+: y :: b) :
    e <:+: b := by
  rcases List.infix_cons_iff.1 h with hpre | hin
  · cases e with
    | nil => exact absurd rfl hne
    | cons c e =>
      rw [List.cons_prefix_cons] at hpre
      exact absurd (congrArg some hpre.1) hy
  · exact hin

/-- In pieces that are joined by a separator a phrase without the separator's first mark, which
does not begin inside the separator, stands in one of them. -/
theorem infix_joined {s : List α} {ps : List (List α)} (hx : x ∉ e) (hne : e ≠ [])
    (hs : ∀ b, e <:+: s ++ b → e <:+: b) (h : e <:+: (x :: s).intercalate ps) :
    ∃ p ∈ ps, e <:+: p := by
  induction ps with
  | nil =>
    rw [List.intercalate_nil, List.infix_nil] at h
    exact absurd h hne
  | cons p ps ih =>
    cases ps with
    | nil =>
      rw [List.intercalate_singleton] at h
      exact ⟨p, List.mem_cons_self, h⟩
    | cons q ps =>
      rw [List.intercalate_cons_cons, List.append_assoc, List.cons_append] at h
      rcases infix_of_separated hx h with hp | hrest
      · exact ⟨p, List.mem_cons_self, hp⟩
      · obtain ⟨r, hr, hin⟩ := ih (hs _ hrest)
        exact ⟨r, List.mem_cons_of_mem p hr, hin⟩

theorem infix_of_mem_joined {s : List α} {ps : List (List α)} {p : List α} (hp : p ∈ ps) :
    p <:+: s.intercalate ps := by
  induction ps with
  | nil => cases hp
  | cons q ps ih =>
    cases ps with
    | nil => rw [List.mem_singleton.1 hp, List.intercalate_singleton]
    | cons r ps =>
      rw [List.intercalate_cons_cons, List.append_assoc]
      rcases List.mem_cons.1 hp with rfl | hp
      · exact (List.prefix_append p _).isInfix
      · exact (ih hp).trans ⟨q ++ s, [], by simp⟩

/-- Sentences that end in a stop and are joined by a blank. -/
theorem joined_stops {ps : List (List α)} (hne : ps ≠ []) :
    [y].intercalate (ps.map (· ++ [x])) = [x, y].intercalate ps ++ [x] := by
  induction ps with
  | nil => exact absurd rfl hne
  | cons p ps ih =>
    cases ps with
    | nil => simp
    | cons q ps =>
      have htail : [y].intercalate ((q ++ [x]) :: ps.map (· ++ [x])) =
          [x, y].intercalate (q :: ps) ++ [x] := ih (List.cons_ne_nil q ps)
      rw [List.map_cons, List.map_cons, List.intercalate_cons_cons, htail,
        List.intercalate_cons_cons]
      simp only [List.append_assoc, List.cons_append, List.nil_append]

theorem joined_append_head (a b s : List α) (ps : List (List α)) :
    s.intercalate ((a ++ b) :: ps) = a ++ s.intercalate (b :: ps) := by
  cases ps with
  | nil => rw [List.intercalate_singleton, List.intercalate_singleton]
  | cons p ps =>
    rw [List.intercalate_cons_cons, List.intercalate_cons_cons]
    simp only [List.append_assoc]

theorem mem_joined {s : List α} {ps : List (List α)} {c : α} (h : c ∈ s.intercalate ps) :
    c ∈ s ∨ ∃ p ∈ ps, c ∈ p := by
  induction ps with
  | nil => cases h
  | cons p ps ih =>
    cases ps with
    | nil =>
      rw [List.intercalate_singleton] at h
      exact Or.inr ⟨p, List.mem_cons_self, h⟩
    | cons q ps =>
      rw [List.intercalate_cons_cons, List.append_assoc, List.mem_append, List.mem_append] at h
      rcases h with hp | hs | hrest
      · exact Or.inr ⟨p, List.mem_cons_self, hp⟩
      · exact Or.inl hs
      · rcases ih hrest with hs | ⟨r, hr, hc⟩
        · exact Or.inl hs
        · exact Or.inr ⟨r, List.mem_cons_of_mem p hr, hc⟩

theorem map_joined {β : Type*} (f : α → β) (s : List α) (ps : List (List α)) :
    (s.intercalate ps).map f = (s.map f).intercalate (ps.map (List.map f)) := by
  induction ps with
  | nil => rfl
  | cons p ps ih =>
    cases ps with
    | nil => simp
    | cons q ps =>
      rw [List.intercalate_cons_cons, List.map_append, List.map_append, ih, List.map_cons,
        List.map_cons, List.map_cons, List.intercalate_cons_cons]

end TrustCopilot.Phrases
