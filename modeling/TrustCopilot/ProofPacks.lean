import TrustCopilot.Library.Phrases
import TrustCopilot.Library.PyText
import TrustCopilot.Library.Rounding
import Mathlib.Data.Rat.Floor

/-! The proof pack: the answers to a questionnaire, how much of it is answered and cited, and the
mail that delivers it. Percentages are exact rationals. -/
namespace TrustCopilot.ProofPacks

open TrustCopilot.Phrases
open TrustCopilot.PyText
open TrustCopilot.Rounding

structure ProofItem where
  question : String
  answer : String
  evidenceCitation : String := ""
  status : String := "answered"
  deriving DecidableEq, Repr

/-- `partlyAnswered` is `partial`. -/
structure ProofPack where
  jobId : String := ""
  accountId : String := ""
  totalQuestions : ℕ := 0
  answered : ℕ := 0
  partlyAnswered : ℕ := 0
  unanswered : ℕ := 0
  items : List ProofItem := []
  gaps : List String := []
  nextSteps : List String := []
  accessToken : String := ""
  url : String := ""
  deriving DecidableEq, Repr

def answeredPct (pack : ProofPack) : ℚ :=
  if pack.totalQuestions = 0 then 0
  else roundTo 1 (pack.answered / pack.totalQuestions * 100)

def cited (items : List ProofItem) : ℕ :=
  items.countP fun i => i.evidenceCitation ≠ "" ∧ i.status = "answered"

def citationCoverage (pack : ProofPack) : ℚ :=
  roundTo 1 (cited pack.items / (max pack.answered 1 : ℕ) * 100)

def withStatus (status : String) (items : List ProofItem) : List ProofItem :=
  items.filter fun i => i.status = status

/-- `token` is drawn for the pack. -/
def renderProofPack (token jobId accountId : String) (items : List ProofItem) : ProofPack :=
  let answered := (withStatus "answered" items).length
  let partlyAnswered := (withStatus "partial" items).length
  let unanswered := (withStatus "unanswered" items).length
  { jobId := jobId
    accountId := accountId
    totalQuestions := items.length
    answered := answered
    partlyAnswered := partlyAnswered
    unanswered := unanswered
    items := items
    gaps := (withStatus "unanswered" items).map ProofItem.question
    nextSteps :=
      (if 0 < unanswered then
        ["Upload additional evidence for " ++ toString unanswered ++ " unanswered items"]
      else []) ++
      (if 0 < partlyAnswered then
        ["Review " ++ toString partlyAnswered ++ " partially answered items for completeness"]
      else []) ++
      ["Proceed to checkout to activate your workspace"]
    accessToken := token
    url := "/proof/" ++ jobId ++ "?token=" ++ token }

structure ProofDeliveryEmail where
  recipient : String
  subject : String
  body : String
  proofUrl : String
  checkoutUrl : String
  deriving DecidableEq, Repr

/-- `shown` is how a percentage is printed. -/
def bodyParts (shown : ℚ → String) (pack : ProofPack) (recipientName checkoutUrl : String) :
    List String :=
  ["Hi " ++ recipientName ++ ",",
    "\nYour security questionnaire proof pack is ready with " ++ toString pack.answered ++ " of " ++
      toString pack.totalQuestions ++ " questions answered (" ++ shown (answeredPct pack) ++
      "%)."] ++
  (if pack.gaps = [] then []
  else ["\n" ++ toString pack.gaps.length ++
    " items still need evidence — you can upload more at any time."]) ++
  ["\nView your proof pack: " ++ pack.url] ++
  (if checkoutUrl = "" then [] else ["\nReady to activate? " ++ checkoutUrl]) ++
  ["\nBest,\n[Trust Copilot Team]"]

def composeDeliveryEmail (shown : ℚ → String) (pack : ProofPack)
    (recipientEmail recipientName : String) (checkoutUrl : String := "") : ProofDeliveryEmail where
  recipient := recipientEmail
  subject := "Your proof pack is ready — " ++ shown (answeredPct pack) ++ "% answered"
  body := "\n".intercalate (bodyParts shown pack recipientName checkoutUrl)
  proofUrl := pack.url
  checkoutUrl := checkoutUrl

/-! ### What a pack says -/

variable {token jobId accountId : String} {items : List ProofItem}

theorem withStatus_length (status : String) (items : List ProofItem) :
    (withStatus status items).length = items.countP fun i => i.status = status :=
  List.countP_eq_length_filter.symm

def Counted (i : ProofItem) : Prop := i.status ∈ ["answered", "partial", "unanswered"]

instance (i : ProofItem) : Decidable (Counted i) :=
  inferInstanceAs (Decidable (i.status ∈ ["answered", "partial", "unanswered"]))

theorem counted_length (items : List ProofItem) :
    (withStatus "answered" items).length + (withStatus "partial" items).length +
      (withStatus "unanswered" items).length = items.countP fun i => Counted i := by
  simp only [withStatus_length]
  induction items with
  | nil => rfl
  | cons i items ih =>
    simp only [List.countP_cons, ← ih]
    by_cases ha : i.status = "answered"
    · simp [Counted, ha]
      omega
    · by_cases hp : i.status = "partial"
      · simp [Counted, hp]
        omega
      · by_cases hu : i.status = "unanswered"
        · simp [Counted, hu]
          omega
        · simp [Counted, ha, hp, hu]

/-- The percentage is rounded to one decimal, with ties for the even one: it says 100 as soon as no
more than one question in two thousand is left. -/
theorem answeredPct_full_iff {pack : ProofPack} (h : pack.answered ≤ pack.totalQuestions) :
    answeredPct pack = 100 ↔ pack.totalQuestions ≠ 0 ∧
      2000 * (pack.totalQuestions - pack.answered) ≤ pack.totalQuestions := by
  rw [answeredPct]
  split
  · next hnone => exact iff_of_false (by norm_num) fun hsome => hsome.1 hnone
  · next hsome =>
    have hpos : (0 : ℚ) < pack.totalQuestions := Nat.cast_pos.2 (Nat.pos_of_ne_zero hsome)
    have hhundred : ((1000 : ℤ) : ℚ) / 10 ^ 1 = 100 := by norm_num
    have hreach : ((1000 : ℤ) : ℚ) / 10 ^ 1 ≤
        roundTo 1 ((pack.answered : ℚ) / pack.totalQuestions * 100) ↔
        (((1000 : ℤ) : ℚ) - 1 / 2) / 10 ^ 1 ≤ (pack.answered : ℚ) / pack.totalQuestions * 100 :=
      le_roundTo_iff rfl
    rw [hhundred] at hreach
    have hshare : (((1000 : ℤ) : ℚ) - 1 / 2) / 10 ^ 1 ≤
        (pack.answered : ℚ) / pack.totalQuestions * 100 ↔
        1999 * pack.totalQuestions ≤ 2000 * pack.answered := by
      rw [div_mul_eq_mul_div, le_div_iff₀ hpos, ← Nat.cast_le (α := ℚ)]
      push_cast
      constructor
      · intro hle
        linarith
      · intro hle
        linarith
    have hle : roundTo 1 ((pack.answered : ℚ) / pack.totalQuestions * 100) ≤ 100 :=
      (roundTo_percent h).2
    constructor
    · intro hfull
      have hmany := hshare.1 (hreach.1 hfull.ge)
      exact ⟨hsome, by omega⟩
    · rintro ⟨-, hfew⟩
      exact le_antisymm hle (hreach.2 (hshare.2 (by omega)))

theorem cited_le (items : List ProofItem) :
    cited items ≤ max (withStatus "answered" items).length 1 := by
  rw [withStatus_length]
  refine le_trans (List.countP_mono_left fun i _ h => ?_) (Nat.le_max_left _ _)
  rw [decide_eq_true_iff] at h ⊢
  exact h.2

theorem answeredPct_bounds {pack : ProofPack} (h : pack.answered ≤ pack.totalQuestions) :
    0 ≤ answeredPct pack ∧ answeredPct pack ≤ 100 := by
  rw [answeredPct]
  split
  · exact ⟨le_refl 0, by norm_num⟩
  · exact roundTo_percent h

theorem body_carries {shown : ℚ → String} {pack : ProofPack} {recipientName checkoutUrl : String}
    (recipientEmail lead : String) {text : String}
    (h : lead ++ text ∈ bodyParts shown pack recipientName checkoutUrl) :
    isIn text (composeDeliveryEmail shown pack recipientEmail recipientName checkoutUrl).body := by
  have hpart : (lead ++ text).toList <:+:
      (composeDeliveryEmail shown pack recipientEmail recipientName checkoutUrl).body.toList := by
    rw [composeDeliveryEmail, String.toList_intercalate]
    exact infix_of_mem_joined (List.mem_map_of_mem h)
  refine List.IsInfix.trans ?_ hpart
  rw [String.toList_append]
  exact (List.suffix_append _ _).isInfix

/-- Every item is counted at most once, and once if its status is a known one; the gaps are the
unanswered questions; no percentage leaves its range, and the one for the answers says 100 only if
at most one question in two thousand is not answered; and the mail carries both links. -/
theorem pack_sound (token jobId accountId : String) (items : List ProofItem) (shown : ℚ → String)
    (recipientEmail recipientName checkoutUrl : String) :
    let pack := renderProofPack token jobId accountId items
    let mail := composeDeliveryEmail shown pack recipientEmail recipientName checkoutUrl
    pack.answered + pack.partlyAnswered + pack.unanswered ≤ pack.totalQuestions ∧
    (pack.answered + pack.partlyAnswered + pack.unanswered = pack.totalQuestions ↔
      ∀ i ∈ items, Counted i) ∧
    pack.gaps = (items.filter fun i => i.status = "unanswered").map ProofItem.question ∧
    pack.unanswered = pack.gaps.length ∧
    (0 ≤ answeredPct pack ∧ answeredPct pack ≤ 100) ∧
    (0 ≤ citationCoverage pack ∧ citationCoverage pack ≤ 100) ∧
    (answeredPct pack = 100 ↔ pack.totalQuestions ≠ 0 ∧
      2000 * (pack.totalQuestions - pack.answered) ≤ pack.totalQuestions) ∧
    isIn pack.url mail.body ∧ isIn checkoutUrl mail.body := by
  intro pack mail
  have hcounted : pack.answered + pack.partlyAnswered + pack.unanswered =
      items.countP fun i => Counted i := counted_length items
  have hanswered : pack.answered ≤ pack.totalQuestions := List.length_filter_le _ _
  rw [hcounted]
  refine ⟨List.countP_le_length, ?_, rfl, (List.length_map _).symm, answeredPct_bounds hanswered,
    roundTo_percent (cited_le items), answeredPct_full_iff hanswered, ?_, ?_⟩
  · change items.countP (fun i => decide (Counted i)) = items.length ↔ _
    rw [List.countP_eq_length]
    simp only [decide_eq_true_iff]
  · exact body_carries recipientEmail "\nView your proof pack: " (by simp [bodyParts])
  · by_cases hempty : checkoutUrl = ""
    · rw [hempty]
      exact List.nil_infix
    · exact body_carries recipientEmail "\nReady to activate? " (by simp [bodyParts, hempty])

end TrustCopilot.ProofPacks
