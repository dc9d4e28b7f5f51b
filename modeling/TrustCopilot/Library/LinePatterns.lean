import TrustCopilot.Library.PyRegex

/-! Patterns that are tried on a single line: what they need at its start, and which of them
overlook one more character at its end. -/
namespace TrustCopilot.LinePatterns

open TrustCopilot.RegexSearch
open TrustCopilot.RegexLines
open TrustCopilot.PyRegex
open TrustCopilot.PyText

/-! ### Sequences and literals -/

theorem matches_seqs_append {xs ys : List (Regex Char)} {c e : Cursor Char} :
    Matches (seqs (xs ++ ys)) c e ↔ ∃ d, Matches (seqs xs) c d ∧ Matches (seqs ys) d e := by
  induction xs generalizing c with
  | nil =>
    constructor
    · exact fun h => ⟨c, .empty c, h⟩
    · rintro ⟨d, h, hd⟩
      cases h
      exact hd
  | cons r xs ih =>
    have hcons : Matches (seqs (r :: xs ++ ys)) c e ↔
        ∃ d, Matches r c d ∧ Matches (seqs (xs ++ ys)) d e := matches_seq_iff
    have hcons' : ∀ d, Matches (seqs (r :: xs)) c d ↔
        ∃ d', Matches r c d' ∧ Matches (seqs xs) d' d := fun d => matches_seq_iff
    rw [hcons]
    simp only [ih, hcons']
    constructor
    · rintro ⟨d, hr, d', hx, hy⟩
      exact ⟨d', ⟨d, hr, hx⟩, hy⟩
    · rintro ⟨d', ⟨d, hr, hx⟩, hy⟩
      exact ⟨d, hr, d', hx, hy⟩

theorem accepts_seqs_cons {r : Regex Char} {rs : List (Regex Char)} {s : List Char} :
    Accepts (seqs (r :: rs)) s ↔ ∃ u v, s = u ++ v ∧ Accepts r u ∧ Accepts (seqs rs) v :=
  accepts_seq_iff

theorem accepts_seqs_append {xs ys : List (Regex Char)} {s : List Char}
    (h : Accepts (seqs (xs ++ ys)) s) :
    ∃ u v, s = u ++ v ∧ Accepts (seqs xs) u ∧ Accepts (seqs ys) v := by
  induction xs generalizing s with
  | nil => exact ⟨[], s, rfl, .empty, h⟩
  | cons r xs ih =>
    obtain ⟨u, v, rfl, hu, hv⟩ := accepts_seqs_cons.1 h
    obtain ⟨u', v', rfl, hu', hv'⟩ := ih hv
    exact ⟨u ++ u', v', (List.append_assoc u u' v').symm, .seq hu hu', hv'⟩

theorem accepts_lit (s : String) : Accepts (lit s) s.toList := by
  rw [lit]
  generalize s.toList = cs
  induction cs with
  | nil => exact .empty
  | cons c cs ih => exact accepts_seqs_cons.2 ⟨[c], cs, rfl, .one (decide_eq_true rfl), ih⟩

theorem accepts_lit_eq {s : String} {m : List Char} (h : Accepts (lit s) m) : m = s.toList := by
  rw [lit] at h
  generalize s.toList = cs at h ⊢
  induction cs generalizing m with
  | nil =>
    cases h
    rfl
  | cons c cs ih =>
    obtain ⟨u, v, rfl, hu, hv⟩ := accepts_seqs_cons.1 h
    cases hu with
    | one hc => rw [ih hv, of_decide_eq_true hc, List.singleton_append]

theorem plain_lit (s : String) : Plain (lit s) := by
  refine plain_seqs fun r hr => ?_
  obtain ⟨c, -, rfl⟩ := List.mem_map.1 hr
  trivial

/-- What ends with a non-empty stretch without `x` does not end with `x`. -/
theorem getLast?_seqs_ne {x : Char} {xs ys : List (Regex Char)}
    (hne : ∀ v, Accepts (seqs ys) v → v ≠ []) (hav : avoids x (seqs ys) = true) {s : List Char}
    (h : Accepts (seqs (xs ++ ys)) s) : s.getLast? ≠ some x := by
  obtain ⟨u, v, rfl, -, hv⟩ := accepts_seqs_append h
  rw [List.getLast?_append, List.getLast?_eq_some_getLast (hne v hv), Option.some_or]
  intro he
  exact hv.not_mem hav (Option.some.inj he ▸ List.getLast_mem (hne v hv))

theorem lit_cons_ne_nil {s : String} (hs : s ≠ "") {rs : List (Regex Char)} {v : List Char}
    (h : Accepts (seqs (lit s :: rs)) v) : v ≠ [] := by
  obtain ⟨u, w, rfl, hu, -⟩ := accepts_seqs_cons.1 h
  rw [accepts_lit_eq hu]
  intro hnil
  exact hs (String.toList_inj.1 (List.append_eq_nil_iff.1 hnil).1)

/-! ### Patterns anchored at the start of a line -/

theorem matchesAt_lineStart_iff {ws rest : List (Regex Char)} (hw : Plain (seqs ws))
    {l : List Char} :
    matchesAt (seqs (lineStart '\n' :: (ws ++ rest))) ⟨none, l⟩ = true ↔
      ∃ s t, l = s ++ t ∧ Accepts (seqs ws) s ∧
        matchesAt (seqs rest) ⟨after none s, t⟩ = true := by
  have hcons : ∀ d, Matches (seqs (lineStart '\n' :: (ws ++ rest))) ⟨none, l⟩ d ↔
      ∃ c, Matches (lineStart '\n') ⟨none, l⟩ c ∧ Matches (seqs (ws ++ rest)) c d :=
    fun d => matches_seq_iff
  simp only [matchesAt_iff, hcons, matches_seqs_append]
  constructor
  · rintro ⟨d, c, hstart, c', hc', hd⟩
    rw [(matches_look_iff.1 hstart).1] at hc'
    obtain ⟨s, hs, hafter, hacc⟩ := hc'.accepts hw
    have hcursor : c' = ⟨after none s, c'.rest⟩ := Cursor.ext hafter rfl
    exact ⟨s, c'.rest, hs, hacc, d, hcursor ▸ hd⟩
  · rintro ⟨s, t, rfl, hacc, d, hd⟩
    exact ⟨d, _, .look rfl, _, hacc.matches none t, hd⟩

theorem matchesAt_lineEnd_iff {b : Option Char} {t : List Char} (ht : '\n' ∉ t) :
    matchesAt (seqs [lineEnd '\n']) ⟨b, t⟩ = true ↔ t = [] := by
  rw [matchesAt_iff]
  constructor
  · rintro ⟨d, hd⟩
    obtain ⟨c, hc, -⟩ := matches_seq_iff.1 hd
    have hend := (matches_look_iff.1 hc).2
    cases t with
    | nil => rfl
    | cons x t =>
      have hx : x = '\n' := by simpa using hend
      exact absurd (hx ▸ List.mem_cons_self) ht
  · rintro rfl
    exact ⟨_, .seq (.look rfl) (.empty _)⟩

/-- The rest of a line passes `.*$`. -/
theorem matchesAt_restOfLine {b : Option Char} {t : List Char} (ht : '\n' ∉ t) :
    matchesAt (seqs [.star dot, lineEnd '\n']) ⟨b, t⟩ = true := by
  have hdots : Accepts (.star dot) t := by
    refine accepts_star_one_iff.2 fun x hx => decide_eq_true ?_
    rintro rfl
    exact ht hx
  have hmatch := hdots.matches b []
  rw [List.append_nil] at hmatch
  exact matchesAt_iff.2 ⟨_, .seq hmatch (.seq (.look rfl) (.empty _))⟩

theorem matchesAt_dotAll (c : Cursor Char) : matchesAt (seqs [.star dotAll]) c = true :=
  matchesAt_iff.2 ⟨c, .seq (.starNil c) (.empty c)⟩

/-- Only white space passes `\s*$` on a line. -/
theorem matchesAt_blankEnd_iff {b : Option Char} {t : List Char} (ht : '\n' ∉ t) :
    matchesAt (seqs [spaces, lineEnd '\n']) ⟨b, t⟩ = true ↔ ∀ x ∈ t, isSpace x = true := by
  rw [matchesAt_iff]
  constructor
  · rintro ⟨d, hd⟩
    obtain ⟨c, hc, hend⟩ := matches_seq_iff.1 hd
    have hplain : Plain spaces := trivial
    obtain ⟨s, hs, -, hacc⟩ := hc.accepts hplain
    have ht' : t = s ++ c.rest := hs
    have hrest : '\n' ∉ c.rest := fun h => ht (ht' ▸ List.mem_append_right s h)
    have hnil := (@matchesAt_lineEnd_iff c.before c.rest hrest).1 (matchesAt_iff.2 ⟨d, hend⟩)
    rw [ht', hnil, List.append_nil]
    exact accepts_star_one_iff.1 hacc
  · intro hblank
    have hmatch := (accepts_star_one_iff.2 hblank).matches b []
    rw [List.append_nil] at hmatch
    exact ⟨_, .seq hmatch (.seq (.look rfl) (.empty _))⟩

/-! ### One more character at the end of the line -/

/-- The pattern judges a line the same with `x` put behind it. -/
def TrailBlind (x : Char) (r : Regex Char) : Prop :=
  ∀ l, '\n' ∉ l → (matchesAt r ⟨none, l ++ [x]⟩ = true ↔ matchesAt r ⟨none, l⟩ = true)

theorem trailBlind_lineStart {x : Char} {ws rest : List (Regex Char)} (hw : Plain (seqs ws))
    (hend : ∀ s, Accepts (seqs ws) s → s.getLast? ≠ some x)
    (hrest : ∀ b t, '\n' ∉ t → (matchesAt (seqs rest) ⟨b, t ++ [x]⟩ = true ↔
      matchesAt (seqs rest) ⟨b, t⟩ = true)) :
    TrailBlind x (seqs (lineStart '\n' :: (ws ++ rest))) := by
  intro l hl
  rw [matchesAt_lineStart_iff hw, matchesAt_lineStart_iff hw]
  constructor
  · rintro ⟨s, t, hst, hacc, hm⟩
    rcases List.eq_nil_or_concat t with rfl | ⟨t, y, rfl⟩
    · rw [List.append_nil] at hst
      exact absurd (by rw [← hst, List.getLast?_concat]) (hend s hacc)
    · rw [List.concat_eq_append, ← List.append_assoc] at hst
      obtain ⟨rfl, hy⟩ := List.append_inj' hst rfl
      cases hy
      rw [List.concat_eq_append] at hm
      have ht : '\n' ∉ t := fun h => hl (List.mem_append_right s h)
      exact ⟨s, t, rfl, hacc, (hrest _ t ht).1 hm⟩
  · rintro ⟨s, t, rfl, hacc, hm⟩
    have ht : '\n' ∉ t := fun h => hl (List.mem_append_right s h)
    exact ⟨s, t ++ [x], List.append_assoc s t [x], hacc, (hrest _ t ht).2 hm⟩

theorem trailBlind_wholeLine {x : Char} (hx : isSpace x = true) {w : Regex Char} (hw : Plain w)
    (hnl : avoids '\n' w = true) (hav : avoids x w = true) (hxn : x ≠ '\n') :
    TrailBlind x (wholeLine '\n' w isSpace) := by
  intro l hl
  have hend : LineTail '\n' ([] : List Char) := fun y hy => nomatch hy
  have hlx : '\n' ∉ l ++ [x] := by simpa using ⟨hl, Ne.symm hxn⟩
  have hlong := @matches_wholeLine_iff _ '\n' _ _ isSpace hw hnl none _ _ hlx hend
  have hshort := @matches_wholeLine_iff _ '\n' _ _ isSpace hw hnl none _ _ hl hend
  rw [List.append_nil] at hlong hshort
  rw [hlong, hshort]
  refine and_congr_right fun _ => ⟨?_, ?_⟩
  · rintro ⟨s, t, hst, hacc, hblank⟩
    rcases List.eq_nil_or_concat t with rfl | ⟨t, y, rfl⟩
    · rw [List.append_nil] at hst
      exact absurd (hst ▸ List.mem_append_right l List.mem_cons_self) (hacc.not_mem hav)
    · rw [List.concat_eq_append, ← List.append_assoc] at hst
      obtain ⟨rfl, -⟩ := List.append_inj' hst rfl
      refine ⟨s, t, rfl, hacc, fun z hz => hblank z ?_⟩
      rw [List.concat_eq_append]
      exact List.mem_append_left _ hz
  · rintro ⟨s, t, rfl, hacc, hblank⟩
    refine ⟨s, t ++ [x], List.append_assoc s t [x], hacc, fun z hz => ?_⟩
    rcases List.mem_append.1 hz with hz | hz
    · exact hblank z hz
    · rw [List.mem_singleton.1 hz]
      exact hx

/-! ### The first character of the line -/

theorem lineStart_lit_false {s : String} (hs : s ≠ "") {x : Char} (hx : x ∉ s.toList)
    (rest : List (Regex Char)) (l : List Char) :
    matchesAt (seqs (lineStart '\n' :: lit s :: rest)) ⟨none, x :: l⟩ = false := by
  have hplain : Plain (seqs [lit s]) := by
    refine plain_seqs fun r hr => ?_
    rw [List.mem_singleton.1 hr]
    exact plain_lit s
  rw [Bool.eq_false_iff]
  intro hm
  obtain ⟨u, t, hut, hacc, -⟩ := (@matchesAt_lineStart_iff [lit s] rest hplain _).1 hm
  obtain ⟨v, w, rfl, hv, -⟩ := accepts_seqs_cons.1 hacc
  rw [accepts_lit_eq hv] at hut
  cases hlit : s.toList with
  | nil => exact hs (String.toList_inj.1 hlit)
  | cons y ys =>
    rw [hlit] at hut hx
    exact hx ((List.cons.inj hut).1 ▸ List.mem_cons_self)

theorem wholeLine_false {w : Regex Char} (hw : Plain w) (hnl : avoids '\n' w = true) {x : Char}
    (hx : avoids x w = true) (hxs : isSpace x = false) {l : List Char} (hl : '\n' ∉ x :: l) :
    matchesAt (wholeLine '\n' w isSpace) ⟨none, x :: l⟩ = false := by
  have hend : LineTail '\n' ([] : List Char) := fun y hy => nomatch hy
  have hiff := @matches_wholeLine_iff _ '\n' _ _ isSpace hw hnl none _ _ hl hend
  rw [List.append_nil] at hiff
  rw [Bool.eq_false_iff, Ne, hiff]
  rintro ⟨-, s, t, hst, hacc, hblank⟩
  cases s with
  | nil =>
    rw [List.nil_append] at hst
    have hspace := hblank x (hst ▸ List.mem_cons_self)
    rw [hxs] at hspace
    cases hspace
  | cons y s => exact hacc.not_mem hx ((List.cons.inj hst).1 ▸ List.mem_cons_self)

end TrustCopilot.LinePatterns
