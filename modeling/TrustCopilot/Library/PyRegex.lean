import TrustCopilot.Library.RegexLines
import TrustCopilot.Library.PyText

/-! The constructs of Python's `re` on code points. `alnum` stands for `str.isalnum` outside
ASCII. -/
namespace TrustCopilot.PyRegex

open TrustCopilot.RegexSearch
open TrustCopilot.PyText

def seqs (rs : List (Regex Char)) : Regex Char := rs.foldr .seq .empty

def alts (rs : List (Regex Char)) : Regex Char := rs.foldr .alt (.one fun _ => false)

def opt (r : Regex Char) : Regex Char := .alt r .empty

def lit (s : String) : Regex Char := seqs (s.toList.map fun c => .one fun x => x = c)

/-- `.`, and `.` under `re.S`. -/
def dot : Regex Char := .one fun x => x ≠ '\n'

def dotAll : Regex Char := .one fun _ => true

/-- `\s*` -/
def spaces : Regex Char := .star (.one isSpace)

/-- `\d+`, where `digit` says what is a decimal digit outside ASCII. -/
def digits (digit : Char → Bool) : Regex Char :=
  let isDigit : Regex Char := .one fun x => x.isDigit || (128 ≤ x.toNat && digit x)
  .seq isDigit (.star isDigit)

/-- The characters that a lower-case letter of a pattern matches under `re.I`. -/
def foldClass (c : Char) : List Char :=
  [c, c.toUpper] ++
    (if c = 'i' then ['İ', 'ı'] else if c = 's' then ['ſ'] else if c = 'k' then ['\u212A'] else [])

/-- A literal under `re.I`. -/
def ilit (s : String) : Regex Char := seqs (s.toList.map fun c => .one fun x => x ∈ foldClass c)

/-- The parts, with any white space between them. -/
def spaced (rs : List (Regex Char)) : Regex Char := seqs (rs.intersperse spaces)

/-- The words of a phrase under `re.I`, with any white space between them. -/
def phrase (words : List String) : Regex Char := spaced (words.map ilit)

/-- The word characters that a pattern can match under `re.I`. -/
def isFoldedWord (c : Char) : Bool := c = '_' || c.isAlphanum || c ∈ ['İ', 'ı', 'ſ', '\u212A']

section Word

variable (alnum : Char → Bool)

/-- `\w` -/
def isWord (c : Char) : Bool := isFoldedWord c || (128 ≤ c.toNat && alnum c)

def wordBefore (c : Option Char) : Bool := c.any (isWord alnum)

/-- `\b` -/
def wordBoundary : Regex Char := .look fun b x => wordBefore alnum b != wordBefore alnum x

/-- `\b(r)\b` -/
def bounded (r : Regex Char) : Regex Char :=
  .seq (wordBoundary alnum) (.seq r (wordBoundary alnum))

end Word

def found (r : Regex Char) (text : List Char) : Bool := (search r text).isSome

theorem found_iff {r : Regex Char} {text : List Char} :
    found r text = true ↔ ∃ s t d, text = s ++ t ∧ Matches r ⟨s.getLast?, t⟩ d := by
  rw [found, search, searchFrom_isSome_iff]
  simp only [after_eq_getLast?, Option.or_none]

theorem found_alt {a b : Regex Char} {text : List Char} :
    found (.alt a b) text = (found a text || found b text) := by
  rw [Bool.eq_iff_iff, Bool.or_eq_true, found_iff, found_iff, found_iff]
  constructor
  · rintro ⟨s, t, d, rfl, h⟩
    cases h with
    | altLeft h => exact Or.inl ⟨s, t, d, rfl, h⟩
    | altRight h => exact Or.inr ⟨s, t, d, rfl, h⟩
  · rintro (⟨s, t, d, rfl, h⟩ | ⟨s, t, d, rfl, h⟩)
    · exact ⟨s, t, d, rfl, .altLeft h⟩
    · exact ⟨s, t, d, rfl, .altRight h⟩

theorem found_alts {rs : List (Regex Char)} {text : List Char} :
    found (alts rs) text = rs.any fun r => found r text := by
  induction rs with
  | nil =>
    rw [Bool.eq_iff_iff, alts, List.foldr_nil, found_iff]
    constructor
    · rintro ⟨s, t, d, -, h⟩
      cases h
      contradiction
    · intro h
      cases h
  | cons r rs ih => rw [List.any_cons, ← ih, ← found_alt]; rfl

theorem plain_seqs {rs : List (Regex Char)} (h : ∀ r ∈ rs, Plain r) : Plain (seqs rs) := by
  induction rs with
  | nil => trivial
  | cons r rs ih =>
    exact ⟨h r List.mem_cons_self, ih fun q hq => h q (List.mem_cons_of_mem r hq)⟩

theorem plain_alts {rs : List (Regex Char)} (h : ∀ r ∈ rs, Plain r) : Plain (alts rs) := by
  induction rs with
  | nil => trivial
  | cons r rs ih =>
    exact ⟨h r List.mem_cons_self, ih fun q hq => h q (List.mem_cons_of_mem r hq)⟩

/-- A pattern that does not look around is found wherever a text that it accepts stands. -/
theorem found_plain_iff {r : Regex Char} (hr : Plain r) {text : List Char} :
    found r text = true ↔ ∃ m, m <:+: text ∧ Accepts r m := by
  rw [found_iff]
  constructor
  · rintro ⟨s, t, d, rfl, h⟩
    obtain ⟨m, hm, -, hacc⟩ := h.accepts hr
    exact ⟨m, ⟨s, d.rest, by rw [List.append_assoc, ← hm]⟩, hacc⟩
  · rintro ⟨m, ⟨s, t, rfl⟩, hacc⟩
    exact ⟨s, m ++ t, _, List.append_assoc s m t, hacc.matches _ t⟩

theorem plain_ilit (s : String) : Plain (ilit s) := by
  refine plain_seqs fun r hr => ?_
  obtain ⟨c, -, rfl⟩ := List.mem_map.1 hr
  trivial

theorem accepts_ilit_self (s : String) : Accepts (ilit s) s.toList := by
  rw [ilit]
  generalize s.toList = cs
  induction cs with
  | nil => exact .empty
  | cons c cs ih =>
    have hself : Accepts (.one fun x => decide (x ∈ foldClass c)) [c] :=
      .one (decide_eq_true (List.mem_append_left _ List.mem_cons_self))
    exact .seq hself ih

theorem accepts_ilit {s : String} {m : List Char} (h : Accepts (ilit s) m) :
    m.length = s.toList.length ∧ ∀ x ∈ m, ∃ c ∈ s.toList, x ∈ foldClass c := by
  rw [ilit] at h
  generalize s.toList = cs at h ⊢
  induction cs generalizing m with
  | nil =>
    cases h
    exact ⟨rfl, fun x hx => nomatch hx⟩
  | cons c cs ih =>
    cases h with
    | @seq _ _ u v hu hv =>
      cases hu with
      | one hx =>
        obtain ⟨hlen, hall⟩ := ih hv
        refine ⟨by simp [hlen], fun y hy => ?_⟩
        rcases List.mem_cons.1 hy with rfl | hy
        · exact ⟨c, List.mem_cons_self, by simpa using hx⟩
        · obtain ⟨c', hc', hy'⟩ := hall y hy
          exact ⟨c', List.mem_cons_of_mem c hc', hy'⟩

/-! ### Words -/

/-- The pattern matches words only, whatever `alnum` says. -/
structure Wordlike (r : Regex Char) : Prop where
  plain : Plain r
  nonempty : ∀ m, Accepts r m → m ≠ []
  word : ∀ m, Accepts r m → ∀ x ∈ m, isFoldedWord x = true
  solid : ∀ m, Accepts r m → ∀ x ∈ m, isSpace x = false

def isWordLiteral (s : String) : Bool :=
  !s.toList.isEmpty &&
    s.toList.all fun c => (foldClass c).all fun x => isFoldedWord x && !isSpace x

theorem wordlike_ilit {s : String} (h : isWordLiteral s = true) : Wordlike (ilit s) := by
  obtain ⟨hne, hall⟩ := Bool.and_eq_true_iff.1 h
  rw [Bool.not_eq_true'] at hne
  have hs : ∀ c ∈ s.toList, ∀ x ∈ foldClass c, isFoldedWord x = true ∧ isSpace x = false := by
    simpa using hall
  constructor
  · exact plain_ilit s
  · intro m hm hnil
    have hlen := (accepts_ilit hm).1
    rw [hnil, List.length_nil, eq_comm, List.length_eq_zero_iff] at hlen
    rw [hlen] at hne
    cases hne
  · intro m hm x hx
    obtain ⟨c, hc, hxc⟩ := (accepts_ilit hm).2 x hx
    exact (hs c hc x hxc).1
  · intro m hm x hx
    obtain ⟨c, hc, hxc⟩ := (accepts_ilit hm).2 x hx
    exact (hs c hc x hxc).2

variable {alnum : Char → Bool} {r : Regex Char}

theorem wordBefore_word {x : Char} (h : isFoldedWord x = true) :
    wordBefore alnum (some x) = true := by
  simp [wordBefore, isWord, h]

theorem word_ends (alnum : Char → Bool) (hr : Wordlike r) {m : List Char} (hm : Accepts r m)
    (t : List Char) (b : Option Char) : wordBefore alnum (m ++ t).head? = true ∧
      wordBefore alnum (after b m) = true := by
  have hne := hr.nonempty m hm
  constructor
  · rw [List.head?_append_of_ne_nil m hne, List.head?_eq_some_head hne]
    exact wordBefore_word (hr.word m hm _ (List.head_mem hne))
  · rw [after_eq_getLast?, List.getLast?_eq_some_getLast hne]
    exact wordBefore_word (hr.word m hm _ (List.getLast_mem hne))

/-- A word is found where the characters around it are no word characters. -/
theorem found_bounded_iff (hr : Wordlike r) {text : List Char} :
    found (bounded alnum r) text = true ↔
      ∃ s m t, text = s ++ (m ++ t) ∧ Accepts r m ∧ wordBefore alnum s.getLast? = false ∧
        wordBefore alnum t.head? = false := by
  rw [found_iff]
  constructor
  · rintro ⟨s, u, d, rfl, hd⟩
    obtain ⟨c₁, h₁, hd₁⟩ := matches_seq_iff.1 hd
    obtain ⟨c₂, h₂, h₃⟩ := matches_seq_iff.1 hd₁
    obtain ⟨rfl, hfront⟩ := matches_look_iff.1 h₁
    obtain ⟨-, hback⟩ := matches_look_iff.1 h₃
    obtain ⟨m, hu, hb, hm⟩ := h₂.accepts hr.plain
    obtain ⟨hx, hy⟩ := word_ends alnum hr hm c₂.rest s.getLast?
    simp only at hu hb
    rw [hu, hx] at hfront
    rw [hb, hy] at hback
    exact ⟨s, m, c₂.rest, by rw [hu], hm, by simpa using hfront, by simpa using hback⟩
  · rintro ⟨s, m, t, rfl, hm, hs, ht⟩
    obtain ⟨hx, hy⟩ := word_ends alnum hr hm t s.getLast?
    refine ⟨s, m ++ t, _, rfl, .seq (.look ?_) (.seq (hm.matches _ t) (.look ?_))⟩
    · simp only [hs, hx, Bool.false_bne]
    · simp only [ht, hy, Bool.bne_false]

theorem found_bounded_mono {q : Regex Char} (h : ∀ c d, Matches r c d → Matches q c d)
    {text : List Char} (hf : found (bounded alnum r) text = true) :
    found (bounded alnum q) text = true := by
  obtain ⟨s, t, d, rfl, hd⟩ := found_iff.1 hf
  obtain ⟨c₁, h₁, hd₁⟩ := matches_seq_iff.1 hd
  obtain ⟨c₂, h₂, h₃⟩ := matches_seq_iff.1 hd₁
  exact found_iff.2 ⟨s, t, d, rfl, .seq h₁ (.seq (h c₁ c₂ h₂) h₃)⟩

/-! ### Words in a text of lines -/

theorem wordBefore_suffix {s u : List Char} (h : s <:+ u)
    (hu : wordBefore alnum u.getLast? = false) : wordBefore alnum s.getLast? = false := by
  obtain ⟨p, rfl⟩ := h
  rw [List.getLast?_append] at hu
  cases hs : s.getLast? with
  | none => rfl
  | some x => rwa [hs, Option.some_or] at hu

theorem wordBefore_initial {s u : List Char} (h : s <+: u)
    (hu : wordBefore alnum u.head? = false) : wordBefore alnum s.head? = false := by
  obtain ⟨p, rfl⟩ := h
  rw [List.head?_append] at hu
  cases hs : s.head? with
  | none => rfl
  | some x => rwa [hs, Option.some_or] at hu

theorem wordBefore_or {b c : Option Char} (hb : wordBefore alnum b = false)
    (hc : ∀ x ∈ c, x = '\n') : wordBefore alnum (b.or c) = false := by
  cases b with
  | some x => exact hb
  | none =>
    cases c with
    | none => rfl
    | some x =>
      rw [hc x rfl]
      rfl

/-- A word that is found on one of the lines is found in the stripped text of all of them. -/
theorem found_line_in_text (hr : Wordlike r) {line : List Char} {lines : List (List Char)}
    (hmem : line ∈ lines) (h : found (bounded alnum r) line = true) :
    found (bounded alnum r) (stripChars (['\n'].intercalate lines)) = true := by
  obtain ⟨s, m, t, rfl, hm, hs, ht⟩ := (found_bounded_iff hr).1 h
  obtain ⟨before, rest, hjoin, hbefore, hrest⟩ := RegexLines.mem_intercalate hmem
  have hne := hr.nonempty m hm
  have htext : ['\n'].intercalate lines = (before ++ s) ++ (m ++ (t ++ rest)) := by
    rw [hjoin]
    simp only [List.append_assoc]
  rw [htext, stripChars_around _ _ (List.head?_eq_some_head hne)
    (hr.solid m hm _ (List.head_mem hne)) (List.getLast?_eq_some_getLast hne)
    (hr.solid m hm _ (List.getLast_mem hne))]
  refine (found_bounded_iff hr).2 ⟨_, m, _, rfl, hm, ?_, ?_⟩
  · refine wordBefore_suffix (List.dropWhile_suffix _) ?_
    rw [List.getLast?_append]
    exact wordBefore_or hs hbefore
  · have hpre : ((t ++ rest).reverse.dropWhile isSpace).reverse <+: t ++ rest := by
      rw [← List.reverse_suffix, List.reverse_reverse]
      exact List.dropWhile_suffix _
    refine wordBefore_initial hpre ?_
    rw [List.head?_append]
    exact wordBefore_or ht hrest

end TrustCopilot.PyRegex
