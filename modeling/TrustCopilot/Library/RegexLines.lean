import TrustCopilot.Library.RegexSearch
import Mathlib.Data.List.TakeWhile

/-! Patterns that decide about whole lines of a text. Cutting a text at the first match of such
a pattern keeps the lines before the first line that the pattern matches. -/
namespace TrustCopilot.RegexLines

open TrustCopilot.RegexSearch

variable {α : Type*} {nl : α}

def AtLineStart (nl : α) (before : Option α) : Prop := before = none ∨ before = some nl

def LineTail (nl : α) (tail : List α) : Prop := ∀ x ∈ tail.head?, x = nl

/-- The pattern matches at the start of a line or not at all, and only what stands on the line
matters. -/
def LineTest (nl : α) (r : Regex α) : Prop :=
  ∀ b line tail, nl ∉ line → LineTail nl tail →
    (matchesAt r ⟨b, line ++ tail⟩ = true ↔
      AtLineStart nl b ∧ matchesAt r ⟨none, line⟩ = true)

/-- A blank stretch that reaches the end of a line has the rest of the line in it. -/
theorem blank_to_lineEnd {blank : α → Bool} {line tail s t : List α} (hl : nl ∉ line)
    (h : line ++ tail = s ++ t) (hs : ∀ x ∈ s, blank x = true) (ht : LineTail nl t) :
    ∀ x ∈ line, blank x = true := by
  rcases List.append_eq_append_iff.1 h with ⟨u, rfl, -⟩ | ⟨u, rfl, rfl⟩
  · exact fun x hx => hs x (List.mem_append_left u hx)
  · cases u with
    | nil => simpa using hs
    | cons y u =>
      have hy := ht y rfl
      exact absurd (by simp [hy]) hl

section WholeLine

variable [DecidableEq α]

/-- `^` and `$` in multi-line mode. -/
def lineStart (nl : α) : Regex α := .look fun b _ => b = none ∨ b = some nl

def lineEnd (nl : α) : Regex α := .look fun _ x => x = none ∨ x = some nl

/-- A line that holds `w` and then blanks. -/
def wholeLine (nl : α) (w : Regex α) (blank : α → Bool) : Regex α :=
  .seq (lineStart nl) (.seq w (.seq (.star (.one blank)) (lineEnd nl)))

theorem matches_wholeLine_iff {w : Regex α} {blank : α → Bool} (hw : Plain w)
    (hav : avoids nl w = true) {b : Option α} {line tail : List α} (hl : nl ∉ line)
    (ht : LineTail nl tail) :
    matchesAt (wholeLine nl w blank) ⟨b, line ++ tail⟩ = true ↔
      AtLineStart nl b ∧ ∃ s t, line = s ++ t ∧ Accepts w s ∧ ∀ x ∈ t, blank x = true := by
  rw [matchesAt_iff]
  constructor
  · rintro ⟨d, hd⟩
    obtain ⟨c₁, h₁, hd₁⟩ := matches_seq_iff.1 hd
    obtain ⟨c₂, h₂, hd₂⟩ := matches_seq_iff.1 hd₁
    obtain ⟨c₃, h₃, h₄⟩ := matches_seq_iff.1 hd₂
    obtain ⟨rfl, hstart⟩ := matches_look_iff.1 h₁
    obtain ⟨-, hend⟩ := matches_look_iff.1 h₄
    obtain ⟨s, hs, -, hacc⟩ := h₂.accepts hw
    have hstar : Plain (.star (.one blank)) := trivial
    obtain ⟨t, hst, -, hblank⟩ := h₃.accepts hstar
    refine ⟨by simpa [AtLineStart] using hstart, ?_⟩
    -- the word has no line break in it, so it lies on the line
    rcases List.append_eq_append_iff.1 hs with ⟨u, rfl, hu⟩ | ⟨u, rfl, hu⟩
    · cases u with
      | nil => exact ⟨line, [], by simp, by simpa using hacc, fun x hx => nomatch hx⟩
      | cons y u =>
        have hy : y = nl := ht y (by rw [hu]; rfl)
        exact absurd (by simp [hy]) (hacc.not_mem hav)
    · rw [hst] at hu
      refine ⟨s, u, rfl, hacc, blank_to_lineEnd (fun h => hl (List.mem_append_right s h))
        hu.symm (accepts_star_one_iff.1 hblank) ?_⟩
      intro x hx
      rw [Option.mem_def] at hx
      simpa [hx] using hend
  · rintro ⟨hb, s, t, rfl, hacc, hblank⟩
    have hblanks := (accepts_star_one_iff.2 hblank).matches (after b s) tail
    have hword := hacc.matches b (t ++ tail)
    rw [← List.append_assoc] at hword
    refine ⟨_, .seq (.look ?_) (.seq hword (.seq hblanks (.look ?_)))⟩
    · simpa [AtLineStart] using hb
    · cases tail with
      | nil => simp
      | cons x tail => simpa [LineTail] using ht

theorem wholeLine_lineTest {w : Regex α} {blank : α → Bool} (hw : Plain w)
    (hav : avoids nl w = true) : LineTest nl (wholeLine nl w blank) := by
  intro b line tail hl ht
  have hend : LineTail nl ([] : List α) := fun x hx => nomatch hx
  have halone : matchesAt (wholeLine nl w blank) ⟨none, line ++ []⟩ = true ↔ _ :=
    matches_wholeLine_iff hw hav hl hend
  rw [List.append_nil] at halone
  rw [matches_wholeLine_iff hw hav hl ht, halone]
  have hnone : AtLineStart nl none := Or.inl rfl
  simp [hnone]

end WholeLine

/-! ### Cutting a text -/

/-- `cutAt`, for a text that follows `before`. -/
def cutFrom (r : Regex α) (before : Option α) (text : List α) : List α :=
  match searchFrom r before text with
  | some n => text.take n
  | none => text

theorem cutFrom_match {r : Regex α} {b : Option α} {text : List α}
    (h : matchesAt r ⟨b, text⟩ = true) : cutFrom r b text = [] := by
  cases text <;> simp [cutFrom, searchFrom, h]

theorem cutFrom_nil (r : Regex α) (b : Option α) : cutFrom r b [] = [] := by
  rw [cutFrom]
  split
  · exact List.take_nil
  · rfl

theorem cutFrom_cons {r : Regex α} {b : Option α} {x : α} {xs : List α}
    (h : matchesAt r ⟨b, x :: xs⟩ = false) :
    cutFrom r b (x :: xs) = x :: cutFrom r (some x) xs := by
  simp only [cutFrom, searchFrom, h, Bool.false_eq_true, if_false]
  cases searchFrom r (some x) xs with
  | none => rfl
  | some n => rfl

theorem intercalate_line (nl : α) (line : List α) (lines : List (List α)) :
    ∃ tail, LineTail nl tail ∧ [nl].intercalate (line :: lines) = line ++ tail := by
  cases lines with
  | nil =>
    refine ⟨[], (fun x hx => nomatch hx), ?_⟩
    rw [List.intercalate_singleton, List.append_nil]
  | cons line' lines =>
    refine ⟨nl :: [nl].intercalate (line' :: lines), fun x hx => (Option.some.inj hx).symm, ?_⟩
    rw [List.intercalate_cons_cons, List.append_assoc, List.singleton_append]

theorem mem_intercalate {line : List α} {lines : List (List α)} (h : line ∈ lines) :
    ∃ s t, [nl].intercalate lines = s ++ (line ++ t) ∧ (∀ x ∈ s.getLast?, x = nl) ∧
      LineTail nl t := by
  induction lines with
  | nil => cases h
  | cons first lines ih =>
    rcases List.mem_cons.1 h with rfl | h
    · obtain ⟨t, ht, he⟩ := intercalate_line nl line lines
      exact ⟨[], t, he, (fun x hx => nomatch hx), ht⟩
    · obtain ⟨s, t, he, hs, ht⟩ := ih h
      refine ⟨first ++ [nl] ++ s, t, ?_, fun x hx => ?_, ht⟩
      · rw [List.intercalate_cons_of_ne_nil (List.ne_nil_of_mem h), he]
        simp only [List.append_assoc]
      · rw [List.getLast?_append] at hx
        cases hl : s.getLast? with
        | some y =>
          rw [hl] at hx
          exact hs x (by rw [hl]; exact hx)
        | none =>
          rw [hl, Option.none_or, List.getLast?_concat] at hx
          exact (Option.some.inj hx).symm

section Cut

variable {r : Regex α} (hr : LineTest nl r)

include hr

theorem no_match_inside {y : α} (hy : y ≠ nl) {line tail : List α} (hl : nl ∉ line)
    (ht : LineTail nl tail) : matchesAt r ⟨some y, line ++ tail⟩ = false := by
  rw [Bool.eq_false_iff, Ne, hr _ _ _ hl ht]
  rintro ⟨hb | hb, -⟩
  · cases hb
  · exact hy (Option.some.inj hb)

theorem cutFrom_inside {y : α} (hy : y ≠ nl) {line : List α} (hl : nl ∉ line) (more : List α) :
    cutFrom r (some y) line = line ∧
    cutFrom r (some y) (line ++ nl :: more) = line ++ nl :: cutFrom r (some nl) more := by
  have hbreak : LineTail nl (nl :: more) := fun x hx => (Option.some.inj hx).symm
  have hend : LineTail nl ([] : List α) := fun x hx => nomatch hx
  induction line generalizing y with
  | nil =>
    have hno := no_match_inside hr hy hl hbreak
    exact ⟨cutFrom_nil r _, cutFrom_cons hno⟩
  | cons x line ih =>
    have hx : x ≠ nl := fun h => hl (h ▸ List.mem_cons_self)
    obtain ⟨halone, hmore⟩ := ih hx fun h => hl (List.mem_cons_of_mem x h)
    have hno := no_match_inside hr hy hl hend
    have hno' := no_match_inside hr hy hl hbreak
    rw [List.append_nil] at hno
    rw [List.cons_append] at hno'
    exact ⟨by rw [cutFrom_cons hno, halone], by
      rw [List.cons_append, cutFrom_cons hno', hmore, List.cons_append]⟩

theorem cutFrom_line (b : Option α) {line : List α} (hl : nl ∉ line)
    (hno : matchesAt r ⟨none, line⟩ = false) (more : List α) :
    cutFrom r b line = line ∧
    cutFrom r b (line ++ nl :: more) = line ++ nl :: cutFrom r (some nl) more := by
  have hkeep : ∀ tail, LineTail nl tail → matchesAt r ⟨b, line ++ tail⟩ = false := by
    intro tail ht
    rw [Bool.eq_false_iff, Ne, hr _ _ _ hl ht, hno]
    exact fun h => nomatch h.2
  have hbreak := hkeep (nl :: more) fun x hx => (Option.some.inj hx).symm
  have hend := hkeep [] fun x hx => nomatch hx
  cases line with
  | nil => exact ⟨cutFrom_nil r b, cutFrom_cons hbreak⟩
  | cons x line =>
    have hx : x ≠ nl := fun h => hl (h ▸ List.mem_cons_self)
    obtain ⟨halone, hmore⟩ :=
      cutFrom_inside hr hx (fun h => hl (List.mem_cons_of_mem x h)) more
    rw [List.append_nil] at hend
    rw [List.cons_append] at hbreak
    exact ⟨by rw [cutFrom_cons hend, halone], by
      rw [List.cons_append, cutFrom_cons hbreak, hmore, List.cons_append]⟩

/-- The lines that are kept, up to empty lines at the end. -/
theorem cutFrom_lines {b : Option α} (hb : AtLineStart nl b) {lines : List (List α)}
    (hl : ∀ l ∈ lines, nl ∉ l) :
    ∃ n, cutFrom r b ([nl].intercalate lines) = [nl].intercalate
      (lines.takeWhile (fun l => !matchesAt r ⟨none, l⟩) ++ List.replicate n []) := by
  induction lines generalizing b with
  | nil => exact ⟨0, cutFrom_nil r b⟩
  | cons line lines ih =>
    have hline := hl line List.mem_cons_self
    by_cases hm : matchesAt r ⟨none, line⟩ = true
    · obtain ⟨tail, htail, he⟩ := intercalate_line nl line lines
      have hcut : matchesAt r ⟨b, line ++ tail⟩ = true := (hr b line tail hline htail).2 ⟨hb, hm⟩
      refine ⟨0, ?_⟩
      rw [List.takeWhile_cons_of_neg (by simp [hm]), he, cutFrom_match hcut]
      rfl
    · have hno := Bool.eq_false_iff.2 hm
      rw [List.takeWhile_cons_of_pos (by simp [hno])]
      cases lines with
      | nil =>
        refine ⟨0, ?_⟩
        rw [List.intercalate_singleton, (cutFrom_line hr b hline hno []).1]
        simp
      | cons line' lines =>
        obtain ⟨n, hn⟩ := ih (Or.inr rfl) fun l h => hl l (List.mem_cons_of_mem _ h)
        rw [List.intercalate_cons_cons, List.append_assoc, List.singleton_append,
          (cutFrom_line hr b hline hno _).2, hn]
        generalize (line' :: lines).takeWhile _ = kept
        by_cases hkept : kept ++ List.replicate n [] = []
        · refine ⟨1, ?_⟩
          rw [hkept, (List.append_eq_nil_iff.1 hkept).1]
          simp [List.intercalate_cons_cons]
        · refine ⟨n, ?_⟩
          rw [List.cons_append, List.intercalate_cons_of_ne_nil hkept, List.append_assoc,
            List.singleton_append]

end Cut

theorem takeWhile_blanks (p : List α → Bool) (lines : List (List α)) (n : ℕ) :
    ∃ m, (lines ++ List.replicate n []).takeWhile p =
      lines.takeWhile p ++ List.replicate m [] := by
  induction lines with
  | nil =>
    rw [List.nil_append, List.takeWhile_replicate]
    split
    · exact ⟨n, rfl⟩
    · exact ⟨0, rfl⟩
  | cons line lines ih =>
    obtain ⟨m, hm⟩ := ih
    rw [List.cons_append]
    by_cases hp : p line = true
    · exact ⟨m, by rw [List.takeWhile_cons_of_pos hp, List.takeWhile_cons_of_pos hp, hm,
        List.cons_append]⟩
    · exact ⟨0, by rw [List.takeWhile_cons_of_neg hp, List.takeWhile_cons_of_neg hp]; rfl⟩

/-- Cutting at each of several patterns in turn keeps the lines before the first line that one
of them matches. -/
theorem foldl_cutAt_lines {rs : List (Regex α)} (hrs : ∀ r ∈ rs, LineTest nl r)
    {lines : List (List α)} (hl : ∀ l ∈ lines, nl ∉ l) (n : ℕ) :
    ∃ m, rs.foldl (fun text r => cutAt r text)
        ([nl].intercalate (lines ++ List.replicate n [])) =
      [nl].intercalate (lines.takeWhile (fun l => !rs.any fun r => matchesAt r ⟨none, l⟩) ++
        List.replicate m []) := by
  induction rs generalizing lines n with
  | nil => exact ⟨n, by simp [List.takeWhile_eq_self_iff.2]⟩
  | cons r rs ih =>
    have hblanks : ∀ l ∈ lines ++ List.replicate n [], nl ∉ l := by
      intro l h
      rcases List.mem_append.1 h with h | h
      · exact hl l h
      · rw [List.eq_of_mem_replicate h]
        exact List.not_mem_nil
    obtain ⟨k, hk⟩ := cutFrom_lines (hrs r List.mem_cons_self) (Or.inl rfl) hblanks
    obtain ⟨j, hj⟩ := takeWhile_blanks (fun l => !matchesAt r ⟨none, l⟩) lines n
    obtain ⟨m, hm⟩ := ih (fun q h => hrs q (List.mem_cons_of_mem r h))
      (fun l h => hl l (List.takeWhile_subset _ h)) (j + k)
    have hboth : (fun l : List α => (!rs.any fun q => matchesAt q ⟨none, l⟩) &&
        !matchesAt r ⟨none, l⟩) = fun l => !(r :: rs).any fun q => matchesAt q ⟨none, l⟩ := by
      funext l
      rw [List.any_cons, Bool.not_or, Bool.and_comm]
    refine ⟨m, ?_⟩
    have hcut : cutAt r ([nl].intercalate (lines ++ List.replicate n [])) = _ := hk
    rw [List.foldl_cons, hcut, hj, List.append_assoc, List.replicate_append_replicate, hm,
      List.takeWhile_takeWhile]
    simp only [Bool.decide_and, Bool.decide_eq_true, hboth]

end TrustCopilot.RegexLines
