import TrustCopilot.Library.PyRegex

/-! The text of a reply without its quoted history and its signature. -/
namespace TrustCopilot.MailText

open TrustCopilot.RegexSearch
open TrustCopilot.RegexLines
open TrustCopilot.PyRegex
open TrustCopilot.PyText

def quotedPatterns : List (Regex Char) :=
  [seqs [lineStart '\n', lit ">", .star dot, lineEnd '\n'],
    seqs [lineStart '\n', lit "On ", dot, .star dot, lit " wrote:", lineEnd '\n'],
    seqs [lineStart '\n', lit "---", .star (lit "-"), spaces, lit "Original Message", spaces,
      lit "---", .star (lit "-"), .star dotAll],
    seqs [lineStart '\n', lit "___", .star (lit "_"), spaces, lineEnd '\n'],
    seqs [lineStart '\n', lit "From:", .star dot, lineEnd '\n']]

def signaturePatterns : List (Regex Char) :=
  [wholeLine '\n' (lit "--") isSpace,
    wholeLine '\n'
      (.seq (alts [lit "Best", lit "Regards", lit "Thanks", lit "Cheers", lit "Sent from"])
        (opt (lit ","))) isSpace]

/-- `any(p.match(line) for p in patterns)` -/
def matchesAny (patterns : List (Regex Char)) (line : List Char) : Bool :=
  patterns.any fun p => matchesAt p ⟨none, line⟩

/-- One round of the loop over the lines, on the lines kept so far and the flag `in_quote`. -/
def filterLine (st : List (List Char) × Bool) (line : List Char) : List (List Char) × Bool :=
  if matchesAny quotedPatterns line then (st.1, true)
  else if st.2 then st
  else (st.1 ++ [line], st.2)

def bodyLines (body : String) : List (List Char) := body.toList.splitOn '\n'

def stripQuotedContent (body : String) : String :=
  let clean := ((bodyLines body).foldl filterLine ([], false)).1
  let text := signaturePatterns.foldl (fun t p => cutAt p t) (['\n'].intercalate clean)
  String.ofList (stripChars text)

/-- The lines above the first line that looks quoted and the first sign-off line. -/
def keptLines (body : String) : List (List Char) :=
  (bodyLines body).takeWhile fun l =>
    !matchesAny quotedPatterns l && !matchesAny signaturePatterns l

/-- The flag is never taken back: no line is kept below the first quoted line. -/
theorem filterLine_inQuote (lines clean : List (List Char)) :
    (lines.foldl filterLine (clean, true)).1 = clean := by
  induction lines with
  | nil => rfl
  | cons l lines ih =>
    have hstep : filterLine (clean, true) l = (clean, true) := by
      rw [filterLine]
      split <;> rfl
    rw [List.foldl_cons, hstep, ih]

theorem filterLine_run (lines clean : List (List Char)) :
    (lines.foldl filterLine (clean, false)).1 =
      clean ++ lines.takeWhile fun l => !matchesAny quotedPatterns l := by
  induction lines generalizing clean with
  | nil => simp
  | cons l lines ih =>
    by_cases hq : matchesAny quotedPatterns l = true
    · have hstep : filterLine (clean, false) l = (clean, true) := by simp [filterLine, hq]
      rw [List.foldl_cons, hstep, filterLine_inQuote, List.takeWhile_cons_of_neg (by simp [hq]),
        List.append_nil]
    · have hstep : filterLine (clean, false) l = (clean ++ [l], false) := by
        simp [filterLine, hq]
      rw [List.foldl_cons, hstep, ih, List.takeWhile_cons_of_pos (by simpa using hq),
        List.append_assoc, List.singleton_append]

theorem signaturePatterns_lineTest : ∀ p ∈ signaturePatterns, LineTest '\n' p := by
  intro p hp
  simp only [signaturePatterns, List.mem_cons, List.not_mem_nil, or_false] at hp
  rcases hp with rfl | rfl
  · refine wholeLine_lineTest ?_ ?_
    · simp [lit, seqs, Plain]
    · decide
  · refine wholeLine_lineTest ?_ ?_
    · simp [lit, seqs, alts, opt, Plain]
    · decide

theorem not_mem_bodyLines {body : String} {l : List Char} (h : l ∈ bodyLines body) : '\n' ∉ l :=
  sep_not_mem_splitOn h

theorem intercalate_concat {sep l : List Char} {lines : List (List Char)} (h : lines ≠ []) :
    sep.intercalate (lines ++ [l]) = sep.intercalate lines ++ (sep ++ l) := by
  induction lines with
  | nil => exact absurd rfl h
  | cons line lines ih =>
    by_cases hl : lines = []
    · subst hl
      simp
    · have happ : lines ++ [l] ≠ [] := by simp
      rw [List.cons_append, List.intercalate_cons_of_ne_nil happ,
        List.intercalate_cons_of_ne_nil hl, ih hl]
      simp only [List.append_assoc]

/-- Lines without content at the end do not survive the strip. -/
theorem stripChars_blanks (lines : List (List Char)) (n : ℕ) :
    stripChars (['\n'].intercalate (lines ++ List.replicate n [])) =
      stripChars (['\n'].intercalate lines) := by
  induction n with
  | zero => rw [List.replicate_zero, List.append_nil]
  | succ n ih =>
    rw [List.replicate_succ', ← List.append_assoc, ← ih]
    by_cases hl : lines ++ List.replicate n [] = []
    · rw [hl]
      rfl
    · have hbreak : ∀ c ∈ ['\n'] ++ [], isSpace c = true := by
        intro c hc
        rw [List.append_nil, List.mem_singleton] at hc
        rw [hc]
        rfl
      rw [intercalate_concat hl, stripChars_append_spaces hbreak]

theorem stripQuotedContent_eq (body : String) :
    stripQuotedContent body =
      String.ofList (stripChars (['\n'].intercalate (keptLines body))) := by
  have hl : ∀ l ∈ (bodyLines body).takeWhile fun l => !matchesAny quotedPatterns l, '\n' ∉ l :=
    fun l h => not_mem_bodyLines (List.takeWhile_subset _ h)
  obtain ⟨n, hn⟩ := foldl_cutAt_lines signaturePatterns_lineTest hl 0
  rw [List.replicate_zero, List.append_nil, List.takeWhile_takeWhile] at hn
  simp only [stripQuotedContent, filterLine_run, List.nil_append]
  rw [hn, stripChars_blanks]
  have hkeep : (fun l => decide ((!signaturePatterns.any fun p => matchesAt p ⟨none, l⟩) = true ∧
      (!matchesAny quotedPatterns l) = true)) = fun l =>
        !matchesAny quotedPatterns l && !matchesAny signaturePatterns l := by
    funext l
    rw [Bool.decide_and, Bool.decide_eq_true, Bool.decide_eq_true, Bool.and_comm]
    rfl
  rw [hkeep]
  rfl

end TrustCopilot.MailText
