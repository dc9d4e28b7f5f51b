import TrustCopilot.QuoteStripping

/-! Mail with CR LF line breaks. All patterns but one overlook a carriage return at the end of a
line; the attribution over a quoted history does not match there, and the history stays. -/
namespace TrustCopilot.CrlfMail

open TrustCopilot.RegexSearch
open TrustCopilot.RegexLines
open TrustCopilot.PyRegex
open TrustCopilot.PyText
open TrustCopilot.LinePatterns
open TrustCopilot.TextLines
open TrustCopilot.MailText
open TrustCopilot.QuoteStripping

def crlf (s : String) : String := String.ofList (toCrlf s.toList)

def attributionPattern : Regex Char :=
  seqs [lineStart '\n', lit "On ", dot, .star dot, lit " wrote:", lineEnd '\n']

def isAttribution (l : List Char) : Bool := matchesAt attributionPattern ⟨none, l⟩

def otherPatterns : List (Regex Char) := quotedPatterns.eraseIdx 1 ++ signaturePatterns

def AttributionCut (body : String) : Prop :=
  ∃ before l after, bodyLines body = before ++ l :: after ∧ after ≠ [] ∧
    (∀ x ∈ before, plainLine x = true) ∧ isAttribution l = true

/-! ### A carriage return at the end of a line -/

theorem plainLine_eq (l : List Char) :
    plainLine l = (!isAttribution l && !matchesAny otherPatterns l) := by
  simp only [plainLine, matchesAny, otherPatterns, isAttribution, quotedPatterns,
    attributionPattern, List.eraseIdx, List.any_append, List.any_cons, List.any_nil]
  grind

theorem trailBlind_other : ∀ p ∈ otherPatterns, TrailBlind '\r' p := by
  have hdots : ∀ (b : Option Char) (t : List Char), '\n' ∉ t →
      (matchesAt (seqs [.star dot, lineEnd '\n']) ⟨b, t ++ ['\r']⟩ = true ↔
        matchesAt (seqs [.star dot, lineEnd '\n']) ⟨b, t⟩ = true) := by
    intro b t ht
    exact iff_of_true (matchesAt_restOfLine (lf_not_mem_cr ht)) (matchesAt_restOfLine ht)
  have hblanks : ∀ (b : Option Char) (t : List Char), '\n' ∉ t →
      (matchesAt (seqs [spaces, lineEnd '\n']) ⟨b, t ++ ['\r']⟩ = true ↔
        matchesAt (seqs [spaces, lineEnd '\n']) ⟨b, t⟩ = true) := by
    intro b t ht
    have hcr : isSpace '\r' = true := rfl
    rw [matchesAt_blankEnd_iff (lf_not_mem_cr ht), matchesAt_blankEnd_iff ht]
    simp [or_imp, forall_and, hcr]
  intro p hp
  simp only [otherPatterns, quotedPatterns, signaturePatterns, List.eraseIdx, List.cons_append,
    List.nil_append, List.mem_cons, List.not_mem_nil, or_false] at hp
  rcases hp with rfl | rfl | rfl | rfl | rfl | rfl
  · exact @trailBlind_lineStart _ [lit ">"] _ (by simp [seqs, Plain, plain_lit])
      (fun s hs => @getLast?_seqs_ne _ [] [lit ">"]
        (fun v hv => lit_cons_ne_nil (by decide) hv) (by decide) s hs) hdots
  · exact @trailBlind_lineStart _ [lit "---", .star (lit "-"), spaces, lit "Original Message",
      spaces, lit "---", .star (lit "-")] [.star dotAll] (by simp [seqs, Plain, plain_lit, spaces])
      (fun s hs => @getLast?_seqs_ne _ [lit "---", .star (lit "-"), spaces,
        lit "Original Message", spaces] [lit "---", .star (lit "-")]
        (fun v hv => lit_cons_ne_nil (by decide) hv) (by decide) s hs)
      fun b t _ => iff_of_true (matchesAt_dotAll _) (matchesAt_dotAll _)
  · exact @trailBlind_lineStart _ [lit "___", .star (lit "_")] _
      (by simp [seqs, Plain, plain_lit])
      (fun s hs => @getLast?_seqs_ne _ [] [lit "___", .star (lit "_")]
        (fun v hv => lit_cons_ne_nil (by decide) hv) (by decide) s hs) hblanks
  · exact @trailBlind_lineStart _ [lit "From:"] _ (by simp [seqs, Plain, plain_lit])
      (fun s hs => @getLast?_seqs_ne _ [] [lit "From:"]
        (fun v hv => lit_cons_ne_nil (by decide) hv) (by decide) s hs) hdots
  · exact trailBlind_wholeLine rfl (plain_lit _) (by decide) (by decide) (by decide)
  · exact trailBlind_wholeLine rfl (by simp [alts, opt, Plain, plain_lit]) (by decide)
      (by decide) (by decide)

theorem other_cr {l : List Char} (hl : '\n' ∉ l) :
    matchesAny otherPatterns (l ++ ['\r']) = matchesAny otherPatterns l := by
  rw [Bool.eq_iff_iff, matchesAny, matchesAny, List.any_eq_true, List.any_eq_true]
  exact exists_congr fun p => and_congr_right fun hp => trailBlind_other p hp l hl

theorem plain_attribution : Plain (seqs [lit "On ", dot, .star dot, lit " wrote:"]) := by
  simp [seqs, Plain, plain_lit, dot]

theorem attribution_cr {l : List Char} (hl : '\n' ∉ l) : isAttribution (l ++ ['\r']) = false := by
  rw [Bool.eq_false_iff]
  intro hm
  obtain ⟨s, t, hst, hacc, hend⟩ :=
    (@matchesAt_lineStart_iff _ [lineEnd '\n'] plain_attribution _).1 hm
  rw [matchesAt_lineEnd_iff fun h => lf_not_mem_cr hl (hst ▸ List.mem_append_right s h)] at hend
  rw [hend, List.append_nil] at hst
  have hlast := @getLast?_seqs_ne '\r' [lit "On ", dot, .star dot] [lit " wrote:"]
    (fun v hv => lit_cons_ne_nil (by decide) hv) (by decide) s hacc
  rw [← hst, List.getLast?_concat] at hlast
  exact hlast rfl

theorem attribution_front {l : List Char} (h : isAttribution l = true) : ∃ t, l = 'O' :: t := by
  obtain ⟨s, t, rfl, hacc, -⟩ :=
    (@matchesAt_lineStart_iff _ [lineEnd '\n'] plain_attribution _).1 h
  obtain ⟨u, v, rfl, hu, -⟩ := accepts_seqs_cons.1 hacc
  rw [accepts_lit_eq hu]
  exact ⟨_, rfl⟩

theorem other_attribution {l : List Char} (hl : '\n' ∉ l) (h : isAttribution l = true) :
    matchesAny otherPatterns l = false := by
  obtain ⟨t, rfl⟩ := attribution_front h
  rw [matchesAny, List.any_eq_false]
  intro p hp
  rw [Bool.not_eq_true]
  simp only [otherPatterns, quotedPatterns, signaturePatterns, List.eraseIdx, List.cons_append,
    List.nil_append, List.mem_cons, List.not_mem_nil, or_false] at hp
  rcases hp with rfl | rfl | rfl | rfl | rfl | rfl
  · exact lineStart_lit_false (by decide) (by decide) _ t
  · exact lineStart_lit_false (by decide) (by decide) _ t
  · exact lineStart_lit_false (by decide) (by decide) _ t
  · exact lineStart_lit_false (by decide) (by decide) _ t
  · exact wholeLine_false (plain_lit _) (by decide) (by decide) rfl hl
  · exact wholeLine_false (by simp [alts, opt, Plain, plain_lit]) (by decide) (by decide) rfl hl

theorem plainLine_cr {l : List Char} (hl : '\n' ∉ l) :
    plainLine (l ++ ['\r']) = (plainLine l || isAttribution l) := by
  rw [plainLine_eq, plainLine_eq, attribution_cr hl, other_cr hl]
  cases ha : isAttribution l with
  | false => simp
  | true =>
    rw [other_attribution hl ha]
    rfl

/-! ### The lines that are kept -/

theorem bodyLines_crlf (body : String) : bodyLines (crlf body) = crlfLines (bodyLines body) := by
  rw [bodyLines, crlf, String.toList_ofList]
  exact splitOn_toCrlf _

theorem takeWhile_crlfLines {lines : List (List Char)} (hl : ∀ l ∈ lines, '\n' ∉ l)
    (hno : ∀ before l after, lines = before ++ l :: after → after ≠ [] →
      (∀ x ∈ before, plainLine x = true) → isAttribution l = false) :
    (crlfLines lines).takeWhile plainLine = crlfLines (lines.takeWhile plainLine) ∨
      (crlfLines lines).takeWhile plainLine =
        (lines.takeWhile plainLine).map (· ++ ['\r']) := by
  induction lines with
  | nil => exact Or.inl rfl
  | cons l lines ih =>
    cases lines with
    | nil =>
      left
      rw [crlfLines, List.takeWhile_cons]
      split <;> rfl
    | cons l' lines =>
      have hcr := plainLine_cr (hl l List.mem_cons_self)
      rw [hno [] l (l' :: lines) rfl (List.cons_ne_nil _ _)
        fun x hx => absurd hx List.not_mem_nil] at hcr
      rw [Bool.or_false] at hcr
      rw [crlfLines, List.takeWhile_cons, hcr, List.takeWhile_cons (a := l)]
      by_cases hp : plainLine l = true
      · rw [if_pos hp, if_pos hp]
        have hrest := ih (fun x hx => hl x (List.mem_cons_of_mem l hx))
          fun before x after he hne hpl => hno (l :: before) x after (congrArg (l :: ·) he) hne
            fun y hy => (List.mem_cons.1 hy).elim (fun h => h ▸ hp) (hpl y)
        rcases hrest with hrest | hrest
        · rw [hrest]
          cases (l' :: lines).takeWhile plainLine with
          | nil => exact Or.inr rfl
          | cons k kept => exact Or.inl rfl
        · rw [hrest]
          exact Or.inr rfl
      · rw [if_neg hp, if_neg hp]
        exact Or.inl rfl

theorem strip_crlf_of_uncut {body : String} (h : ¬ AttributionCut body) :
    stripQuotedContent (crlf body) = crlf (stripQuotedContent body) := by
  have hkept : ∀ l ∈ keptLines body, '\n' ∉ l :=
    fun l hl => not_mem_bodyLines (List.takeWhile_subset _ hl)
  have htext : stripChars (['\n'].intercalate (keptLines (crlf body))) =
      toCrlf (stripChars (['\n'].intercalate (keptLines body))) := by
    have hno : ∀ before l after, bodyLines body = before ++ l :: after → after ≠ [] →
        (∀ x ∈ before, plainLine x = true) → isAttribution l = false := by
      intro before l after he hne hpl
      rw [Bool.eq_false_iff]
      exact fun ha => h ⟨before, l, after, he, hne, hpl, ha⟩
    rw [keptLines_eq, bodyLines_crlf]
    rcases takeWhile_crlfLines (fun l => not_mem_bodyLines) hno with hlines | hlines
    · rw [hlines, ← keptLines_eq, intercalate_crlfLines hkept, stripChars_toCrlf]
    · rw [hlines, ← keptLines_eq]
      by_cases hnil : keptLines body = []
      · rw [hnil]
        rfl
      · have hcr : ∀ c ∈ ['\r'], isSpace c = true := by
          intro c hc
          rw [List.mem_singleton.1 hc]
          rfl
        rw [map_crlf_eq hnil, stripChars_append_spaces hcr, intercalate_crlfLines hkept,
          stripChars_toCrlf]
  rw [stripQuotedContent_eq, htext, stripQuotedContent_eq, crlf, String.toList_ofList]

theorem ink_lt_of_cut {body : String} (h : AttributionCut body) :
    ink (stripQuotedContent body).toList < ink (stripQuotedContent (crlf body)).toList := by
  obtain ⟨before, l, after, hlines, hafter, hbefore, hl⟩ := h
  have hlf : ∀ x ∈ before ++ l :: after, '\n' ∉ x := hlines ▸ fun x => not_mem_bodyLines
  have hkept : keptLines body = before := by
    have hno : plainLine l = false := by rw [plainLine_eq, hl]; rfl
    rw [keptLines_eq, hlines, List.takeWhile_append_of_pos hbefore,
      List.takeWhile_cons_of_neg (by simp [hno]), List.append_nil]
  have hcrlf : bodyLines (crlf body) =
      (before ++ [l]).map (· ++ ['\r']) ++ crlfLines after := by
    rw [bodyLines_crlf, hlines, ← crlfLines_append _ hafter, List.append_assoc]
    rfl
  have hplain : ∀ x ∈ (before ++ [l]).map (· ++ ['\r']), plainLine x = true := by
    intro x hx
    obtain ⟨y, hy, rfl⟩ := List.mem_map.1 hx
    have hylf : '\n' ∉ y := by
      have hall : before ++ l :: after = (before ++ [l]) ++ after := by simp
      exact hlf y (hall ▸ List.mem_append_left after hy)
    rw [plainLine_cr hylf, Bool.or_eq_true]
    rcases List.mem_append.1 hy with hy | hy
    · exact Or.inl (hbefore y hy)
    · rw [List.mem_singleton.1 hy]
      exact Or.inr hl
  have hcr : ∀ x : List Char, ink (x ++ ['\r']) = ink x := fun x => ink_append x ['\r']
  have hsum : ((before.map (· ++ ['\r'])).map ink).sum = (before.map ink).sum := by
    rw [List.map_map]
    exact congrArg List.sum (List.map_congr_left fun x _ => hcr x)
  have hpos : 0 < ink l := by
    obtain ⟨t, rfl⟩ := attribution_front hl
    have hO : ink ['O'] = 1 := rfl
    rw [← List.singleton_append, ink_append, hO]
    omega
  rw [stripQuotedContent_eq, stripQuotedContent_eq, String.toList_ofList, String.toList_ofList,
    ink_stripChars, ink_stripChars, ink_intercalate, ink_intercalate, hkept, keptLines_eq, hcrlf,
    List.takeWhile_append_of_pos hplain, List.map_append, List.sum_append, List.map_append,
    List.map_append, List.sum_append, hsum]
  simp only [List.map_cons, List.map_nil, List.sum_cons, List.sum_nil, hcr]
  omega

/-- Mail with CR LF loses the same history as mail with LF exactly if no attribution decides
what is cut. -/
theorem crlf_iff (body : String) :
    stripQuotedContent (crlf body) = crlf (stripQuotedContent body) ↔ ¬ AttributionCut body := by
  constructor
  · intro he hcut
    have hlt := ink_lt_of_cut hcut
    rw [he, crlf, String.toList_ofList, ink_toCrlf] at hlt
    exact Nat.lt_irrefl _ hlt
  · exact strip_crlf_of_uncut

/-- A refusal over our own message: the footer that asks for `unsubscribe` stays in the mail. -/
theorem footer_leaked :
    stripQuotedContent "Not now.\n\nOn Mon, Bob wrote:\nReply unsubscribe to opt out." =
      "Not now." ∧
    stripQuotedContent (crlf "Not now.\n\nOn Mon, Bob wrote:\nReply unsubscribe to opt out.") =
      crlf "Not now.\n\nOn Mon, Bob wrote:\nReply unsubscribe to opt out." ∧
    stripQuotedContent (crlf "Not now.\n\nOn Mon, Bob wrote:\nReply unsubscribe to opt out.") ≠
      crlf (stripQuotedContent
        "Not now.\n\nOn Mon, Bob wrote:\nReply unsubscribe to opt out.") := by
  refine ⟨by decide +kernel, by decide +kernel, by decide +kernel⟩

end TrustCopilot.CrlfMail
