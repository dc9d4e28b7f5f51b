import TrustCopilot.Firmographics
import TrustCopilot.Library.LinePatterns
import Mathlib.Data.Nat.Digits.Lemmas

/-! The size band of a text that is a number followed by `employees`. Each of the five patterns
matches the numerals of an interval, except that the last one misses the numerals of five digits
and more that begin with a one. -/
namespace TrustCopilot.SizeBands

open TrustCopilot.RegexSearch
open TrustCopilot.PyText
open TrustCopilot.PyRegex
open TrustCopilot.LinePatterns
open TrustCopilot.Firmographics
open TrustCopilot.IcpScoring (NumberFormat roundedFormat)

/-! ### Numerals -/

structure Numeral (n : ℕ) (ds : List ℕ) : Prop where
  digit : ∀ d ∈ ds, d < 10
  value : Nat.ofDigits 10 ds.reverse = n
  text : Nat.toDigits 10 n = ds.map Nat.digitChar

theorem numeral_digits {n : ℕ} (hn : 1 ≤ n) : ∃ a ds, 1 ≤ a ∧ Numeral n (a :: ds) := by
  induction n using Nat.strong_induction_on with
  | _ n ih =>
    by_cases hlt : n < 10
    · refine ⟨n, [], hn, ?_, ?_, ?_⟩
      · simpa using hlt
      · simp
      · rw [Nat.toDigits_of_lt_base hlt]
        rfl
    · obtain ⟨a, ds, ha, h⟩ := ih (n / 10) (by omega) (by omega)
      refine ⟨a, ds ++ [n % 10], ha, ?_, ?_, ?_⟩
      · intro d hd
        rcases List.mem_append.1 (show d ∈ (a :: ds) ++ [n % 10] from hd) with hd | hd
        · exact h.digit d hd
        · rw [List.mem_singleton.1 hd]
          exact Nat.mod_lt n (by decide)
      · rw [← List.cons_append, List.reverse_append, List.reverse_singleton,
          List.singleton_append, Nat.ofDigits_cons, h.value]
        exact Nat.mod_add_div n 10
      · rw [Nat.toDigits_of_base_le (by decide) (Nat.le_of_not_lt hlt), h.text,
          ← List.cons_append, List.map_append]
        rfl

/-- The leading digit and the number of digits say between which numbers `n` lies. -/
theorem Numeral.bounds {n a : ℕ} {ds : List ℕ} (h : Numeral n (a :: ds)) :
    10 ^ ds.length * a ≤ n ∧ n < 10 ^ ds.length * (a + 1) := by
  have hlow : Nat.ofDigits 10 ds.reverse < 10 ^ ds.reverse.length :=
    Nat.ofDigits_lt_base_pow_length (by decide) fun d hd =>
      h.digit d (List.mem_cons_of_mem a (List.mem_reverse.1 hd))
  have hvalue := h.value
  rw [List.reverse_cons, Nat.ofDigits_append, Nat.ofDigits_singleton] at hvalue
  rw [List.length_reverse] at hlow hvalue
  constructor
  · omega
  · rw [Nat.mul_add, Nat.mul_one]
    omega

theorem Numeral.pow_le {n a : ℕ} {ds : List ℕ} (h : Numeral n (a :: ds)) (ha : 1 ≤ a) {k : ℕ}
    (hk : k ≤ ds.length) : 10 ^ k ≤ n :=
  calc 10 ^ k ≤ 10 ^ ds.length := Nat.pow_le_pow_right (by decide) hk
    _ ≤ 10 ^ ds.length * a := Nat.le_mul_of_pos_right _ ha
    _ ≤ n := h.bounds.1

/-- Five digits or more, the first a one. -/
def LongLeadingOne (n : ℕ) : Prop := ∃ k, 4 ≤ k ∧ 10 ^ k ≤ n ∧ n < 2 * 10 ^ k

theorem Numeral.longLeadingOne_iff {n a : ℕ} {ds : List ℕ} (h : Numeral n (a :: ds))
    (ha : 1 ≤ a) : LongLeadingOne n ↔ 4 ≤ ds.length ∧ a = 1 := by
  obtain ⟨hlow, hhigh⟩ := h.bounds
  have ha' : a < 10 := h.digit a List.mem_cons_self
  constructor
  · rintro ⟨k, hk, hkn, hnk⟩
    have hpow : 10 ^ ds.length ≤ n := h.pow_le ha le_rfl
    have hkeq : k = ds.length := by
      rcases Nat.lt_trichotomy k ds.length with hlt | heq | hgt
      · have hstep : 10 ^ (k + 1) ≤ 10 ^ ds.length := Nat.pow_le_pow_right (by decide) hlt
        rw [Nat.pow_succ] at hstep
        omega
      · exact heq
      · have hstep : 10 ^ (ds.length + 1) ≤ 10 ^ k := Nat.pow_le_pow_right (by decide) hgt
        have hten : 10 ^ ds.length * (a + 1) ≤ 10 ^ ds.length * 10 :=
          Nat.mul_le_mul_left _ ha'
        rw [Nat.pow_succ] at hstep
        omega
    subst hkeq
    refine ⟨hk, ?_⟩
    have htwo : 10 ^ ds.length * a < 10 ^ ds.length * 2 := by omega
    have := Nat.lt_of_mul_lt_mul_left htwo
    omega
  · rintro ⟨hlen, rfl⟩
    exact ⟨ds.length, hlen, by omega, by omega⟩

/-! ### A number before `employees` -/

def tailText : List Char := " employees".toList

theorem isWord_digitChar (alnum : Char → Bool) {d : ℕ} (h : d < 10) :
    isWord alnum d.digitChar = true := by
  have hfold : ∀ d < 10, isFoldedWord (Nat.digitChar d) = true := by decide
  rw [isWord, hfold d h, Bool.true_or]

def employeeWord : Regex Char := seqs [spaces, ilit "employee"]

theorem plain_employeeWord : Plain employeeWord :=
  ⟨trivial, plain_ilit _, trivial⟩

theorem accepts_employeeWord : Accepts employeeWord " employee".toList := by
  have hspace : Accepts spaces [' '] := accepts_star_one_iff.2 (List.forall_mem_singleton.2 rfl)
  have hword : Accepts (ilit "employee") "employee".toList := accepts_ilit_self "employee"
  have hrest : Accepts (seqs [ilit "employee"]) "employee".toList :=
    accepts_seq_iff.2 ⟨"employee".toList, [], by decide, hword, .empty⟩
  exact accepts_seq_iff.2 ⟨[' '], "employee".toList, by decide, hspace, hrest⟩

theorem employeeWord_ne_nil {u : List Char} (h : Accepts employeeWord u) : u ≠ [] := by
  obtain ⟨s, v, rfl, -, hv⟩ := accepts_seq_iff.1 h
  obtain ⟨e, z, rfl, he, -⟩ := accepts_seq_iff.1 hv
  have hlen := (accepts_ilit he).1
  intro hnil
  have he' : e = [] := by simp_all
  rw [he'] at hlen
  exact absurd hlen (by decide)

theorem employeeWord_ne_digit {d : ℕ} (hd : d < 10) {u : List Char}
    (h : Accepts employeeWord u) (v w : List Char) : u ++ v ≠ d.digitChar :: w := by
  have havoid : ∀ d < 10, avoids (Nat.digitChar d) employeeWord = true := by decide
  intro heq
  cases u with
  | nil => exact employeeWord_ne_nil h rfl
  | cons x u =>
    obtain ⟨rfl, -⟩ := List.cons.inj heq
    exact h.not_mem (havoid d hd) List.mem_cons_self

/-- A pattern of numbers: not empty, and no character of the word after it. -/
structure NumberPattern (r : Regex Char) : Prop where
  plain : Plain r
  nonempty : ¬ Accepts r []
  solid : tailText.all (fun c => avoids c r) = true

theorem NumberPattern.not_tail {r : Regex Char} (hr : NumberPattern r) {m : List Char}
    (h : Accepts r m) {c : Char} (hc : c ∈ tailText) : c ∉ m :=
  h.not_mem (List.all_eq_true.1 hr.solid c hc)

/-- Before the word, a number takes all the digits that are left. -/
theorem number_takes_digits {r : Regex Char} (hr : NumberPattern r) {ds : List ℕ}
    (hds : ∀ d ∈ ds, d < 10) {m u v : List Char} (hm : Accepts r m)
    (hu : Accepts employeeWord u)
    (h : ds.map Nat.digitChar ++ tailText = m ++ (u ++ v)) : m = ds.map Nat.digitChar := by
  rcases List.append_eq_append_iff.1 h with ⟨w, hw, htail⟩ | ⟨w, hw, hrest⟩
  · cases w with
    | nil => rwa [List.append_nil] at hw
    | cons y w =>
      have hy : y ∈ tailText := by rw [htail]; exact List.mem_cons_self
      exact absurd (by rw [hw]; simp) (hr.not_tail hm hy)
  · cases w with
    | nil => rw [hw, List.append_nil]
    | cons y w =>
      have hy : y ∈ ds.map Nat.digitChar := by rw [hw]; simp
      obtain ⟨d, hd, rfl⟩ := List.mem_map.1 hy
      exact absurd hrest (employeeWord_ne_digit (hds d hd) hu v _)

/-- The number and the word are found exactly where the whole numeral matches: a match inside the
numeral would begin between two digits. -/
theorem found_headcount_iff {alnum : Char → Bool} {r : Regex Char} (hr : NumberPattern r)
    {ds : List ℕ} (hds : ∀ d ∈ ds, d < 10) :
    found (headcount alnum r) (ds.map Nat.digitChar ++ tailText) = true ↔
      Accepts r (ds.map Nat.digitChar) := by
  have hword : ∀ x ∈ ds.map Nat.digitChar, wordBefore alnum (some x) = true := by
    intro x hx
    obtain ⟨d, hd, rfl⟩ := List.mem_map.1 hx
    exact isWord_digitChar alnum (hds d hd)
  rw [found_iff]
  constructor
  · rintro ⟨s, t, e, htext, hmatch⟩
    obtain ⟨c₁, hb, h₁⟩ := matches_seq_iff.1 hmatch
    obtain ⟨rfl, hlook⟩ := matches_look_iff.1 hb
    obtain ⟨c₂, h₂, h₃⟩ := matches_seq_iff.1 h₁
    obtain ⟨m, rfl, -, hacc⟩ := h₂.accepts hr.plain
    obtain ⟨u, hu, -, hemp⟩ := Matches.accepts (r := employeeWord) h₃ plain_employeeWord
    simp only at hlook
    obtain ⟨x, m, rfl⟩ : ∃ x m', m = x :: m' := by
      cases m with
      | nil => exact absurd hacc hr.nonempty
      | cons x m => exact ⟨x, m, rfl⟩
    rcases List.append_eq_append_iff.1 htext with ⟨w, -, htail⟩ | ⟨w, hw, hrest⟩
    · have hx : x ∈ tailText := by rw [htail]; simp
      exact absurd List.mem_cons_self (hr.not_tail hacc hx)
    · obtain ⟨fs, es, rfl, rfl, rfl⟩ := List.map_eq_append_iff.1 hw
      rw [hu] at hrest
      have hes : ∀ d ∈ es, d < 10 := fun d hd => hds d (List.mem_append_right _ hd)
      have htake := number_takes_digits hr hes hacc hemp hrest.symm
      have hx : wordBefore alnum ((x :: m) ++ c₂.rest).head? = true := by
        refine hword x ?_
        rw [List.map_append, ← htake]
        simp
      cases fs using List.reverseRecOn with
      | nil => rwa [List.nil_append, ← htake]
      | append_singleton fs d =>
        have hd : wordBefore alnum (List.map Nat.digitChar (fs ++ [d])).getLast? = true := by
          rw [List.map_append, List.map_singleton, List.getLast?_concat]
          exact hword _ (by simp)
        rw [hd, hx] at hlook
        cases hlook
  · intro hacc
    have hhead : wordBefore alnum (ds.map Nat.digitChar ++ tailText).head? = true := by
      cases ds with
      | nil => exact absurd hacc hr.nonempty
      | cons d ds => exact hword _ List.mem_cons_self
    have hemp := accepts_employeeWord.matches (after none (ds.map Nat.digitChar)) ['s']
    have htail : tailText = " employee".toList ++ ['s'] := by decide
    refine ⟨[], _, _, rfl, .seq (.look ?_) (.seq (hacc.matches _ tailText) (htail ▸ hemp))⟩
    change (false != wordBefore alnum (ds.map Nat.digitChar ++ tailText).head?) = true
    rw [hhead]
    rfl

/-! ### The five patterns -/

theorem le_digitChar_iff {c : Char} {d : ℕ} (h : d < 10) :
    c ≤ d.digitChar ↔ c.toNat ≤ d + 48 := by
  rw [Char.le_def, UInt32.le_iff_toNat_le, Nat.add_comm, ← Nat.toNat_digitChar_of_lt_ten h]
  rfl

theorem digitChar_le_iff {c : Char} {d : ℕ} (h : d < 10) :
    d.digitChar ≤ c ↔ d + 48 ≤ c.toNat := by
  rw [Char.le_def, UInt32.le_iff_toNat_le, Nat.add_comm, ← Nat.toNat_digitChar_of_lt_ten h]
  rfl

theorem isDecimal_digitChar (digit : Char → Bool) {d : ℕ} (h : d < 10) :
    isDecimal digit d.digitChar = true := by
  rw [isDecimal, Nat.isDigit_digitChar, decide_eq_true h, Bool.true_or]

variable {digit : Char → Bool}

theorem numberPattern_micro : NumberPattern microNumber where
  plain := by simp [microNumber, alts, range, Plain, plain_lit]
  nonempty := by simp [microNumber, alts, range, lit, seqs]
  solid := rfl

theorem numberPattern_small (digit : Char → Bool) :
    NumberPattern (smallNumber digit) where
  plain := by simp [smallNumber, alts, seqs, range, decimal, Plain, plain_lit]
  nonempty := by simp [smallNumber, alts, range, decimal, lit, seqs]
  solid := rfl

theorem numberPattern_mid (digit : Char → Bool) :
    NumberPattern (midNumber digit) where
  plain := by simp [midNumber, alts, seqs, range, decimal, Plain, plain_lit]
  nonempty := by simp [midNumber, alts, range, decimal, lit, seqs]
  solid := rfl

theorem numberPattern_growth (digit : Char → Bool) :
    NumberPattern (growthNumber digit) where
  plain := by simp [growthNumber, alts, seqs, range, decimal, Plain, plain_lit]
  nonempty := by simp [growthNumber, alts, range, decimal, lit, seqs]
  solid := rfl

theorem numberPattern_enterprise (digit : Char → Bool) :
    NumberPattern (enterpriseNumber digit) where
  plain := by simp [enterpriseNumber, seqs, range, decimal, Plain]
  nonempty := by simp [enterpriseNumber, range, decimal, seqs]
  solid := rfl

section Intervals

variable {n a : ℕ} {ds : List ℕ} (h : Numeral n (a :: ds)) (ha : 1 ≤ a)

include h ha

theorem accepts_micro :
    Accepts microNumber ((a :: ds).map Nat.digitChar) ↔ n ≤ 10 := by
  have hvalue := h.value
  have hdigit := h.digit
  rcases ds with - | ⟨b, - | ⟨c, ds⟩⟩
  · simp at hvalue hdigit
    simp [microNumber, alts, range, lit, seqs, le_digitChar_iff, digitChar_le_iff, hdigit]
    omega
  · simp [Nat.ofDigits_cons] at hvalue hdigit
    simp [microNumber, alts, range, lit, seqs]
    omega
  · have hlong : 10 ^ 2 ≤ n := h.pow_le ha (by simp)
    simp [microNumber, alts, range, lit, seqs]
    omega

theorem accepts_small :
    Accepts (smallNumber digit) ((a :: ds).map Nat.digitChar) ↔ 11 ≤ n ∧ n ≤ 49 := by
  have hvalue := h.value
  have hdigit := h.digit
  rcases ds with - | ⟨b, - | ⟨c, ds⟩⟩
  · simp at hvalue hdigit
    simp [smallNumber, alts, range, decimal, lit, seqs]
    omega
  · simp [Nat.ofDigits_cons] at hvalue hdigit
    simp [smallNumber, alts, range, decimal, lit, seqs, isDecimal_digitChar, le_digitChar_iff,
      digitChar_le_iff, hdigit]
    omega
  · have hlong : 10 ^ 2 ≤ n := h.pow_le ha (by simp)
    simp [smallNumber, alts, range, decimal, lit, seqs]
    omega

theorem accepts_mid :
    Accepts (midNumber digit) ((a :: ds).map Nat.digitChar) ↔ 50 ≤ n ∧ n ≤ 299 := by
  have hvalue := h.value
  have hdigit := h.digit
  rcases ds with - | ⟨b, - | ⟨c, - | ⟨d, ds⟩⟩⟩
  · simp at hvalue hdigit
    simp [midNumber, alts, range, decimal, lit, seqs]
    omega
  · simp [Nat.ofDigits_cons] at hvalue hdigit
    simp [midNumber, alts, range, decimal, lit, seqs, isDecimal_digitChar, le_digitChar_iff,
      digitChar_le_iff, hdigit]
    omega
  · simp [Nat.ofDigits_cons] at hvalue hdigit
    simp [midNumber, alts, range, decimal, lit, seqs, isDecimal_digitChar, le_digitChar_iff,
      digitChar_le_iff, hdigit]
    omega
  · have hlong : 10 ^ 3 ≤ n := h.pow_le ha (by simp)
    simp [midNumber, alts, range, decimal, lit, seqs]
    omega

theorem accepts_growth :
    Accepts (growthNumber digit) ((a :: ds).map Nat.digitChar) ↔ 300 ≤ n ∧ n ≤ 1999 := by
  have hvalue := h.value
  have hdigit := h.digit
  rcases ds with - | ⟨b, - | ⟨c, - | ⟨d, - | ⟨e, ds⟩⟩⟩⟩
  · simp at hvalue hdigit
    simp [growthNumber, alts, range, decimal, lit, seqs]
    omega
  · simp [Nat.ofDigits_cons] at hvalue hdigit
    simp [growthNumber, alts, range, decimal, lit, seqs]
    omega
  · simp [Nat.ofDigits_cons] at hvalue hdigit
    simp [growthNumber, alts, range, decimal, lit, seqs, isDecimal_digitChar, le_digitChar_iff,
      digitChar_le_iff, hdigit]
    omega
  · simp [Nat.ofDigits_cons] at hvalue hdigit
    simp [growthNumber, alts, range, decimal, lit, seqs, isDecimal_digitChar, hdigit]
    omega
  · have hlong : 10 ^ 4 ≤ n := h.pow_le ha (by simp)
    simp [growthNumber, alts, range, decimal, lit, seqs]
    omega

theorem accepts_enterprise :
    Accepts (enterpriseNumber digit) ((a :: ds).map Nat.digitChar) ↔
      2000 ≤ n ∧ ¬ LongLeadingOne n := by
  rw [h.longLeadingOne_iff ha]
  have hvalue := h.value
  have hdigit := h.digit
  rcases ds with - | ⟨b, - | ⟨c, - | ⟨d, - | ⟨e, ds⟩⟩⟩⟩
  · simp at hvalue hdigit
    simp [enterpriseNumber, range, decimal, seqs]
    omega
  · simp [Nat.ofDigits_cons] at hvalue hdigit
    simp [enterpriseNumber, range, decimal, seqs]
    omega
  · simp [Nat.ofDigits_cons] at hvalue hdigit
    simp [enterpriseNumber, range, decimal, seqs]
    omega
  · simp [Nat.ofDigits_cons] at hvalue hdigit
    simp [enterpriseNumber, range, decimal, seqs, accepts_star_one_iff, isDecimal_digitChar,
      le_digitChar_iff, digitChar_le_iff, hdigit]
    omega
  · have hlong : 10 ^ 4 ≤ n := h.pow_le ha (by simp)
    have hrest : ∀ d ∈ ds, isDecimal digit d.digitChar = true := fun d hd =>
      isDecimal_digitChar digit (hdigit d (by simp [hd]))
    simp at hdigit
    simp [enterpriseNumber, range, decimal, seqs, accepts_star_one_iff, isDecimal_digitChar,
      le_digitChar_iff, digitChar_le_iff, hdigit]
    constructor
    · rintro ⟨hlead, -⟩
      omega
    · intro hn
      exact ⟨by omega, hrest⟩

end Intervals

/-- A number with a comma in it is not a numeral. -/
theorem not_accepts_grouped {ds : List ℕ} (hds : ∀ d ∈ ds, d < 10) :
    ¬ Accepts (groupedNumber digit) (ds.map Nat.digitChar) := by
  intro h
  obtain ⟨u, v, huv, -, hv⟩ := @accepts_seqs_append
    [decimal digit, decimal digit, opt (decimal digit)]
    [lit ",", decimal digit, decimal digit, decimal digit] _ h
  obtain ⟨c, w, rfl, hc, -⟩ := accepts_seqs_cons.1 hv
  rw [accepts_lit_eq hc] at huv
  have hcomma : ',' ∈ ds.map Nat.digitChar := by rw [huv]; simp
  obtain ⟨d, hd, heq⟩ := List.mem_map.1 hcomma
  have hno : ∀ d < 10, Nat.digitChar d ≠ ',' := by decide
  exact hno d (hds d hd) heq

theorem numberPattern_grouped (digit : Char → Bool) :
    NumberPattern (groupedNumber digit) where
  plain := by simp [groupedNumber, seqs, opt, decimal, Plain, plain_lit]
  nonempty := by simp [groupedNumber, decimal, seqs]
  solid := rfl

/-! ### The bands -/

inductive SizeBand where
  | micro
  | small
  | mid
  | growth
  | enterprise
  deriving DecidableEq, Repr

def SizeBand.value : SizeBand → String
  | .micro => "micro"
  | .small => "small"
  | .mid => "mid"
  | .growth => "growth"
  | .enterprise => "enterprise"

def SizeBand.rank : SizeBand → ℕ
  | .micro => 0
  | .small => 1
  | .mid => 2
  | .growth => 3
  | .enterprise => 4

theorem SizeBand.value_ne_unknown (b : SizeBand) : b.value ≠ "unknown" := by
  cases b <;> decide

/-- The band that a number of employees is meant to fall into. -/
def bandOf (n : ℕ) : SizeBand :=
  if n ≤ 10 then .micro
  else if n ≤ 49 then .small
  else if n ≤ 299 then .mid
  else if n ≤ 1999 then .growth
  else .enterprise

theorem bandOf_mono {m n : ℕ} (h : m ≤ n) : (bandOf m).rank ≤ (bandOf n).rank := by
  unfold bandOf
  repeat' split
  all_goals first | omega | decide

theorem numeral_text (n : ℕ) :
    (toString n ++ " employees").toList = Nat.toDigits 10 n ++ tailText := by
  rw [String.toList_append, Nat.toString_eq_ofList_toDigits, String.toList_ofList]
  rfl

variable (fmt : NumberFormat) (alnum : Char → Bool)

/-- What the size loop finds in a numeral before `employees`: a band, unless the numeral is long
and begins with a one. -/
theorem sizeBand_numeral (digit : Char → Bool) {n : ℕ} (hn : 1 ≤ n) (domain : String) :
    (LongLeadingOne n ∧ (estimateFirmographics fmt alnum digit (toString n ++ " employees")
        domain).sizeBand = "unknown") ∨
      (¬ LongLeadingOne n ∧ (estimateFirmographics fmt alnum digit (toString n ++ " employees")
        domain).sizeBand = (bandOf n).value) := by
  obtain ⟨a, ds, ha, h⟩ := numeral_digits hn
  have hfound : ∀ {r : Regex Char} {p : Prop} [Decidable p], NumberPattern r →
      (Accepts r ((a :: ds).map Nat.digitChar) ↔ p) →
      found (headcount alnum r) (combinedText (toString n ++ " employees") none) = decide p := by
    intro r p _ hr hp
    rw [Bool.eq_iff_iff, decide_eq_true_iff, combinedText, numeral_text, h.text,
      found_headcount_iff hr h.digit, hp]
  have hmicro := hfound numberPattern_micro (accepts_micro h ha)
  have hsmall := hfound (numberPattern_small digit) (accepts_small h ha)
  have hmid := hfound (numberPattern_mid digit) (accepts_mid h ha)
  have hgrowth := hfound (numberPattern_growth digit) (accepts_growth h ha)
  have hgrouped := hfound (numberPattern_grouped digit) (p := False)
    (iff_false_intro (not_accepts_grouped h.digit))
  have hband : ∀ d, (estimateFirmographics fmt alnum digit (toString n ++ " employees")
      d).sizeBand = ruleValue (firstRule (sizePatterns alnum digit)
        (combinedText (toString n ++ " employees") none)) := fun _ => rfl
  rw [hband]
  by_cases hl : LongLeadingOne n
  · have hent := hfound (numberPattern_enterprise digit) (p := False)
      (iff_false_intro fun hacc => ((accepts_enterprise h ha).1 hacc).2 hl)
    have hbig : 10 ^ 4 ≤ n := by
      obtain ⟨k, hk, hkn, -⟩ := hl
      exact le_trans (Nat.pow_le_pow_right (by decide) hk) hkn
    have hpast : ¬ n ≤ 10 ∧ ¬ n ≤ 49 ∧ ¬ n ≤ 299 ∧ ¬ n ≤ 1999 := by omega
    left
    refine ⟨hl, ?_⟩
    simp only [firstRule, sizePatterns, List.find?_cons, hmicro, hsmall, hmid, hgrowth, hgrouped,
      hent, found_alts, List.any_cons, List.any_nil, Bool.or_false, decide_false]
    simp [hpast, ruleValue]
  · have hent := hfound (numberPattern_enterprise digit) (p := 2000 ≤ n)
      ((accepts_enterprise h ha).trans (and_iff_left hl))
    right
    refine ⟨hl, ?_⟩
    simp only [firstRule, sizePatterns, List.find?_cons, hmicro, hsmall, hmid, hgrowth, hgrouped,
      hent, found_alts, List.any_cons, List.any_nil, Bool.or_false, decide_false, bandOf]
    -- One case for each band, from below.
    by_cases h10 : n ≤ 10
    · simp [h10, ruleValue, SizeBand.value]
    by_cases h49 : n ≤ 49
    · have hlow : 11 ≤ n := by omega
      simp [h10, h49, hlow, ruleValue, SizeBand.value]
    by_cases h299 : n ≤ 299
    · have hlow : 50 ≤ n := by omega
      simp [h10, h49, h299, hlow, ruleValue, SizeBand.value]
    by_cases h1999 : n ≤ 1999
    · have hlow : 300 ≤ n := by omega
      simp [h10, h49, h299, h1999, hlow, ruleValue, SizeBand.value]
    · have hlow : 2000 ≤ n := by omega
      simp [h10, h49, h299, h1999, hlow, ruleValue, SizeBand.value]

/-- Two numerals get bands, in the right order, exactly where neither is long with a leading
one. -/
theorem size_bands_increase_iff (digit : Char → Bool) (domain : String) {m n : ℕ} (hm : 1 ≤ m)
    (hmn : m ≤ n) :
    (∃ a b : SizeBand,
      (estimateFirmographics fmt alnum digit (toString m ++ " employees") domain).sizeBand =
        a.value ∧
      (estimateFirmographics fmt alnum digit (toString n ++ " employees") domain).sizeBand =
        b.value ∧
      a.rank ≤ b.rank) ↔ ¬ LongLeadingOne m ∧ ¬ LongLeadingOne n := by
  have hfirst := sizeBand_numeral fmt alnum digit hm domain
  have hsecond := sizeBand_numeral fmt alnum digit (le_trans hm hmn) domain
  constructor
  · rintro ⟨a, b, ha, hb, -⟩
    constructor
    · rcases hfirst with ⟨-, hunknown⟩ | ⟨hl, -⟩
      · exact absurd (ha.symm.trans hunknown) a.value_ne_unknown
      · exact hl
    · rcases hsecond with ⟨-, hunknown⟩ | ⟨hl, -⟩
      · exact absurd (hb.symm.trans hunknown) b.value_ne_unknown
      · exact hl
  · rintro ⟨hlm, hln⟩
    have hbm := (hfirst.resolve_left fun h => hlm h.1).2
    have hbn := (hsecond.resolve_left fun h => hln h.1).2
    exact ⟨bandOf m, bandOf n, hbm, hbn, bandOf_mono hmn⟩

theorem size_bands_increase_200_800 : (1 ≤ 200 ∧ 200 ≤ 800) ∧
    ((∃ a b : SizeBand,
      (estimateFirmographics roundedFormat (fun _ => false) (fun _ => false)
        (toString 200 ++ " employees") "").sizeBand = a.value ∧
      (estimateFirmographics roundedFormat (fun _ => false) (fun _ => false)
        (toString 800 ++ " employees") "").sizeBand = b.value ∧
      a.rank ≤ b.rank) ↔ ¬ LongLeadingOne 200 ∧ ¬ LongLeadingOne 800) :=
  ⟨by decide, size_bands_increase_iff roundedFormat (fun _ => false) (fun _ => false) "" (by decide)
    (by decide)⟩

/-- Ten thousand employees have no band, and nine thousand are an enterprise. -/
theorem ten_thousand_unknown :
    (estimateFirmographics roundedFormat (fun _ => false) (fun _ => false)
        (toString 10000 ++ " employees") "").sizeBand = "unknown" ∧
      (estimateFirmographics roundedFormat (fun _ => false) (fun _ => false)
        (toString 9000 ++ " employees") "").sizeBand = "enterprise" := by
  have hlong : LongLeadingOne 10000 := ⟨4, by decide, by decide, by decide⟩
  have hshort : ¬ LongLeadingOne 9000 := by
    rintro ⟨k, hk, hkn, -⟩
    have := le_trans (Nat.pow_le_pow_right (by decide : 0 < 10) hk) hkn
    omega
  have hten := sizeBand_numeral roundedFormat (fun _ => false) (fun _ => false)
    (by decide : 1 ≤ 10000) ""
  have hnine := sizeBand_numeral roundedFormat (fun _ => false) (fun _ => false)
    (by decide : 1 ≤ 9000) ""
  exact ⟨(hten.resolve_right fun h => h.1 hlong).2, (hnine.resolve_left fun h => hshort h.1).2⟩

end TrustCopilot.SizeBands
