import TrustCopilot.MailText
import TrustCopilot.Library.LinePatterns
import TrustCopilot.Library.TextLines

/-! What a reply looks like after its quoted history is cut off: the history that a mail client
puts under a reply goes as a whole, but the text that is left can still have a line in it that
looks quoted. -/
namespace TrustCopilot.QuoteStripping

open TrustCopilot.RegexSearch
open TrustCopilot.RegexLines
open TrustCopilot.PyRegex
open TrustCopilot.PyText
open TrustCopilot.LinePatterns
open TrustCopilot.TextLines
open TrustCopilot.MailText

def plainLine (l : List Char) : Bool :=
  !matchesAny quotedPatterns l && !matchesAny signaturePatterns l

def attribution (x : String) : String := "On " ++ x ++ " wrote:"

def quote (lines : List String) : String := "\n".intercalate (lines.map fun l => "> " ++ l)

theorem keptLines_eq (body : String) : keptLines body = (bodyLines body).takeWhile plainLine := rfl

theorem quoted_not_plain {l : List Char} {p : Regex Char} (hp : p ∈ quotedPatterns)
    (h : matchesAt p ⟨none, l⟩ = true) : plainLine l = false := by
  have hany : matchesAny quotedPatterns l = true := List.any_eq_true.2 ⟨p, hp, h⟩
  rw [plainLine, hany]
  rfl

/-! ### Quoting is undone -/

theorem bodyLines_below (r rest : String) :
    bodyLines (r ++ "\n" ++ rest) = bodyLines r ++ bodyLines rest := by
  have hbreak : "\n".toList = ['\n'] := rfl
  rw [bodyLines, String.toList_append, String.toList_append, hbreak, List.append_assoc,
    List.singleton_append]
  exact List.splitOn_append_cons_self _ _

theorem bodyLines_line {line : String} (h : '\n' ∉ line.toList) :
    bodyLines line = [line.toList] :=
  List.splitOn_eq_singleton h

/-- What stands below a line that looks quoted makes no difference. -/
theorem strip_above {r rest : String} (hr : ∀ l ∈ bodyLines r, plainLine l = true)
    (hrest : ∀ l ∈ (bodyLines rest).head?, plainLine l = false) :
    stripQuotedContent (r ++ "\n" ++ rest) = strip r := by
  have hstop : (bodyLines rest).takeWhile plainLine = [] := by
    cases hl : bodyLines rest with
    | nil => rfl
    | cons l lines =>
      rw [hl] at hrest
      exact List.takeWhile_cons_of_neg (by simp [hrest l rfl])
  have hkept : keptLines (r ++ "\n" ++ rest) = bodyLines r := by
    rw [keptLines_eq, bodyLines_below, List.takeWhile_append_of_pos hr, hstop, List.append_nil]
  rw [stripQuotedContent_eq, hkept, strip, bodyLines, List.intercalate_splitOn]

theorem attribution_not_plain {x : String} (hx : x ≠ "") (hline : '\n' ∉ x.toList) :
    plainLine (attribution x).toList = false := by
  refine quoted_not_plain (List.mem_cons_of_mem _ List.mem_cons_self) ?_
  obtain ⟨c, t, hct⟩ := List.exists_cons_of_ne_nil fun h => hx (String.toList_inj.1 h)
  have hdot : ∀ y ∈ c :: t, decide (y ≠ '\n') = true := by
    intro y hy
    rw [← hct] at hy
    exact decide_eq_true fun h => hline (h ▸ hy)
  have hdots : Accepts (.star dot) t :=
    accepts_star_one_iff.2 fun y hy => hdot y (List.mem_cons_of_mem c hy)
  have hwords : Accepts (seqs [lit "On ", dot, .star dot, lit " wrote:"])
      ("On ".toList ++ ([c] ++ (t ++ (" wrote:".toList ++ [])))) :=
    .seq (accepts_lit _) (.seq (.one (hdot c List.mem_cons_self))
      (.seq hdots (.seq (accepts_lit _) .empty)))
  have hplain : Plain (seqs [lit "On ", dot, .star dot, lit " wrote:"]) := by
    refine plain_seqs fun r hr => ?_
    simp only [List.mem_cons, List.not_mem_nil, or_false] at hr
    rcases hr with rfl | rfl | rfl | rfl
    · exact plain_lit _
    · trivial
    · trivial
    · exact plain_lit _
  refine (@matchesAt_lineStart_iff _ [lineEnd '\n'] hplain _).2 ⟨_, [], ?_, hwords, ?_⟩
  · rw [attribution, String.toList_append, String.toList_append, hct]
    simp
  · exact (matchesAt_lineEnd_iff List.not_mem_nil).2 rfl

theorem head?_bodyLines_quote {l : String} {lines : List String} :
    ∀ first ∈ (bodyLines (quote (l :: lines))).head?, plainLine first = false := by
  obtain ⟨t, ht⟩ : ∃ t, (quote (l :: lines)).toList = '>' :: t := by
    cases lines with
    | nil => exact ⟨' ' :: l.toList, by simp [quote]⟩
    | cons l' lines => exact ⟨_, by simp [quote, String.intercalate_cons_cons]; rfl⟩
  intro first hfirst
  rw [bodyLines, ht, List.splitOn_cons_eq_if_modifyHead] at hfirst
  have hne : ('>' == '\n') = false := rfl
  rw [hne] at hfirst
  cases hs : t.splitOn '\n' with
  | nil => exact absurd hs (List.splitOn_ne_nil '\n' t)
  | cons m rest =>
    rw [hs] at hfirst
    have hm : '\n' ∉ m := sep_not_mem_splitOn (hs ▸ List.mem_cons_self)
    rw [← Option.some.inj hfirst]
    refine quoted_not_plain List.mem_cons_self ?_
    have hplain : Plain (seqs [lit ">"]) := plain_seqs fun r hr => by
      rw [List.mem_singleton.1 hr]
      exact plain_lit _
    exact (@matchesAt_lineStart_iff _ [.star dot, lineEnd '\n'] hplain _).2
      ⟨['>'], m, rfl, .seq (accepts_lit ">") .empty, matchesAt_restOfLine hm⟩

/-- The history that a mail client quotes under a reply is cut off again. -/
theorem quoting_undone {r : String} (hr : ∀ l ∈ bodyLines r, plainLine l = true)
    (q : List String) :
    (∀ x : String, x ≠ "" → '\n' ∉ x.toList →
      stripQuotedContent (r ++ "\n" ++ attribution x ++ "\n" ++ quote q) = strip r) ∧
    (q ≠ [] → stripQuotedContent (r ++ "\n" ++ quote q) = strip r) := by
  constructor
  · intro x hx hline
    have hl : '\n' ∉ (attribution x).toList := by
      simpa [attribution] using hline
    have happ : r ++ "\n" ++ attribution x ++ "\n" ++ quote q =
        r ++ "\n" ++ (attribution x ++ "\n" ++ quote q) := by
      simp only [String.append_assoc]
    rw [happ]
    apply strip_above hr
    intro first hfirst
    rw [bodyLines_below, bodyLines_line hl, List.singleton_append] at hfirst
    rw [← Option.some.inj hfirst]
    exact attribution_not_plain hx hline
  · intro hq
    cases q with
    | nil => exact absurd rfl hq
    | cons l lines => exact strip_above hr head?_bodyLines_quote

theorem greeting_unquoted :
    stripQuotedContent ("Sure, Friday works.\n" ++ "\n" ++ attribution "Mon, Bob" ++ "\n" ++
      quote ["Can we talk?", "", "Bob"]) = strip "Sure, Friday works.\n" :=
  (quoting_undone (by decide +kernel) ["Can we talk?", "", "Bob"]).1 "Mon, Bob" (by decide)
    (by decide)

/-! ### The text that is left -/

/-- The kept lines at both ends match no pattern either without the white space around the text. -/
def EdgesPlain (body : String) : Prop := ∀ l ∈ uncovered (keptLines body), plainLine l = true

theorem plainLine_nil : plainLine [] = true := by decide +kernel

theorem keptLines_plain {body : String} {l : List Char} (h : l ∈ keptLines body) :
    plainLine l = true :=
  List.mem_takeWhile_imp h

theorem bodyLines_strip (body : String) :
    bodyLines (stripQuotedContent body) = trimLines (keptLines body) := by
  rw [stripQuotedContent_eq, bodyLines, String.toList_ofList]
  exact splitOn_stripChars fun l hl => not_mem_bodyLines (List.takeWhile_subset _ hl)

/-- Inside the kept lines the strip of the text changes nothing. -/
theorem strip_lines_plain_iff (body : String) :
    (∀ l ∈ bodyLines (stripQuotedContent body), plainLine l = true) ↔ EdgesPlain body := by
  rw [bodyLines_strip]
  exact forall_trimLines_iff plainLine_nil fun l hl => keptLines_plain hl

theorem stripQuotedContent_of_plain {t : String}
    (h : ∀ l ∈ bodyLines t, plainLine l = true) : stripQuotedContent t = strip t := by
  rw [stripQuotedContent_eq, keptLines_eq, List.takeWhile_eq_self_iff.2 h, bodyLines,
    List.intercalate_splitOn, strip]

theorem length_strip_lt {t : String} {l : List Char} (hl : l ∈ bodyLines t)
    (hno : plainLine l = false) :
    (stripQuotedContent t).toList.length < t.toList.length := by
  obtain ⟨first, rest, hdrop⟩ : ∃ first rest, (bodyLines t).dropWhile plainLine =
      first :: rest := by
    apply List.exists_cons_of_ne_nil
    intro hnil
    have hpl := List.dropWhile_eq_nil_iff.1 hnil l hl
    rw [hno] at hpl
    cases hpl
  have hfirst : first ≠ [] := by
    intro hnil
    have hhead := List.head?_dropWhile_not plainLine (bodyLines t)
    rw [hdrop, hnil] at hhead
    simp [plainLine_nil] at hhead
  have hlines : bodyLines t = keptLines t ++ first :: rest := by
    rw [← hdrop, keptLines_eq, List.takeWhile_append_dropWhile]
  have ht : ['\n'].intercalate (keptLines t ++ first :: rest) = t.toList := by
    rw [← hlines]
    exact List.intercalate_splitOn '\n'
  calc (stripQuotedContent t).toList.length
      ≤ (['\n'].intercalate (keptLines t)).length := by
        rw [stripQuotedContent_eq, String.toList_ofList]
        exact length_stripChars_le _
    _ < (['\n'].intercalate (keptLines t ++ first :: rest)).length :=
        length_intercalate_lt hfirst _ _
    _ = t.toList.length := by rw [ht]

theorem strip_stripQuotedContent (body : String) :
    strip (stripQuotedContent body) = stripQuotedContent body := by
  rw [stripQuotedContent_eq, strip, String.toList_ofList, stripChars_idem]

/-- Stripping twice strips no more exactly if the text that is left looks plain. -/
theorem strip_idempotent_iff (body : String) :
    stripQuotedContent (stripQuotedContent body) = stripQuotedContent body ↔
      ∀ l ∈ bodyLines (stripQuotedContent body), plainLine l = true := by
  constructor
  · intro h l hl
    rw [← Bool.not_eq_false]
    intro hno
    have hlt := length_strip_lt hl hno
    rw [h] at hlt
    exact Nat.lt_irrefl _ hlt
  · intro h
    rw [stripQuotedContent_of_plain h, strip_stripQuotedContent]

/-- What is left has no quoted line and no sign-off, and is stripped already, exactly if the
strip of the white space around it uncovers none. -/
theorem strip_normal_iff (body : String) :
    ((∀ l ∈ bodyLines (stripQuotedContent body),
        matchesAny quotedPatterns l = false ∧ matchesAny signaturePatterns l = false) ↔
      EdgesPlain body) ∧
    (stripQuotedContent (stripQuotedContent body) = stripQuotedContent body ↔
      EdgesPlain body) := by
  have hplain : ∀ l, plainLine l = true ↔
      matchesAny quotedPatterns l = false ∧ matchesAny signaturePatterns l = false := by
    intro l
    rw [plainLine, Bool.and_eq_true, Bool.not_eq_true', Bool.not_eq_true']
  constructor
  · rw [← strip_lines_plain_iff]
    simp only [hplain]
  · rw [strip_idempotent_iff, strip_lines_plain_iff]

/-- A quoted line behind white space is kept, and the strip brings it to the front. -/
theorem indented_quote_left :
    stripQuotedContent "  > Can we talk?" = "> Can we talk?" ∧
    matchesAny quotedPatterns "> Can we talk?".toList = true ∧
    stripQuotedContent (stripQuotedContent "  > Can we talk?") ≠
      stripQuotedContent "  > Can we talk?" := by
  refine ⟨by decide +kernel, by decide +kernel, by decide +kernel⟩

end TrustCopilot.QuoteStripping
