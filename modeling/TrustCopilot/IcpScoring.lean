import TrustCopilot.ContactDecision
import TrustCopilot.Library.Rounding
import Mathlib.Data.Rat.Floor

/-! The ICP score: points for the firmographics and the leading pain, less a penalty for
negative signals, clamped, put into a bucket and rounded. Scores are exact rationals. -/
namespace TrustCopilot.IcpScoring

open TrustCopilot.ContactDecision
open TrustCopilot.Rounding

inductive PainType where
  | questionnaireOverload
  | firstEnterpriseReview
  | evidenceChaos
  | trustCenterPressure
  | complianceScaling
  | certificationPrep
  | vendorRiskFriction
  | unknown
  deriving DecidableEq, Repr

def PainType.value : PainType → String
  | .questionnaireOverload => "questionnaire_overload"
  | .firstEnterpriseReview => "first_enterprise_review"
  | .evidenceChaos => "evidence_chaos"
  | .trustCenterPressure => "trust_center_pressure"
  | .complianceScaling => "compliance_scaling"
  | .certificationPrep => "certification_prep"
  | .vendorRiskFriction => "vendor_risk_friction"
  | .unknown => "unknown"

structure PainInference where
  painType : PainType
  confidence : ℚ
  deriving DecidableEq, Repr

structure FirmographicEstimate where
  sizeBand : String
  industry : String
  isB2b : ℚ
  enterpriseMotion : ℚ
  deriving DecidableEq, Repr

/-- How the texts print a number: `:.2f` and `:.0%`. -/
structure NumberFormat where
  twoDecimals : ℚ → String
  percent : ℚ → String

/-- Digits as Python prints them; a percentage without decimals. -/
def roundedFormat : NumberFormat where
  twoDecimals x :=
    let hundredths := roundHalfEven (x * 100)
    let whole := toString (hundredths.natAbs / 100)
    let rest := toString (hundredths.natAbs % 100)
    (if hundredths < 0 then "-" else "") ++ whole ++ "." ++ (if rest.length < 2 then "0" else "") ++
      rest
  percent x := toString (roundHalfEven (x * 100)) ++ "%"

def bucketName : IcpBucket → String
  | .strongFit => "strong_fit"
  | .goodFit => "good_fit"
  | .marginal => "marginal"
  | .outOfBounds => "out_of_bounds"

def strongThreshold : ℚ := 75 / 100

def goodThreshold : ℚ := 50 / 100

def marginalThreshold : ℚ := 30 / 100

/-- `pains and pains[0].pain_type != PainType.UNKNOWN` -/
def topPain (pains : List PainInference) : Option PainInference :=
  match pains with
  | [] => none
  | pain :: _ => if pain.painType = .unknown then none else some pain

def b2bPoints (f : FirmographicEstimate) : ℚ :=
  if 6 / 10 ≤ f.isB2b then 20 / 100 else if f.isB2b < 3 / 10 then -(15 / 100) else 0

def sizePoints (f : FirmographicEstimate) : ℚ :=
  if f.sizeBand = "micro" then 5 / 100
  else if f.sizeBand = "small" then 15 / 100
  else if f.sizeBand = "mid" then 20 / 100
  else if f.sizeBand = "growth" then 18 / 100
  else if f.sizeBand = "enterprise" then 8 / 100
  else 5 / 100

def strongIndustries : List String := ["saas", "fintech", "healthtech", "devtools", "cybersecurity"]

def industryPoints (f : FirmographicEstimate) : ℚ :=
  if f.industry ∈ strongIndustries then 15 / 100
  else if f.industry = "unknown" then 5 / 100
  else 0

def motionPoints (f : FirmographicEstimate) : ℚ :=
  if 3 / 10 ≤ f.enterpriseMotion then 15 / 100 else 0

def painPoints (pains : List PainInference) : ℚ :=
  match topPain pains with
  | some pain => min (20 / 100) (pain.confidence * (25 / 100))
  | none => 0

def negativePenalty (negativeWeight : ℚ) : ℚ := min (25 / 100) (negativeWeight * (3 / 10))

def matchedRules (f : FirmographicEstimate) (pains : List PainInference) : List String :=
  (if 6 / 10 ≤ f.isB2b then ["b2b_fit"] else []) ++
  (if 15 / 100 ≤ sizePoints f then ["size_" ++ f.sizeBand] else []) ++
  (if 3 / 10 ≤ f.enterpriseMotion then ["enterprise_motion"] else []) ++
  (if f.industry ∈ strongIndustries then ["industry_" ++ f.industry] else []) ++
  (topPain pains).toList.map fun pain => "pain_" ++ pain.painType.value

def penaltyNotes (fmt : NumberFormat) (f : FirmographicEstimate) (hasNegatives : Bool)
    (negativeWeight : ℚ) : List String :=
  (if ¬ 6 / 10 ≤ f.isB2b ∧ f.isB2b < 3 / 10 then ["likely_b2c"] else []) ++
  (if f.sizeBand = "enterprise" then ["enterprise_may_not_need_product"] else []) ++
  (if hasNegatives then
    ["negative_signals_penalty:" ++ fmt.twoDecimals (negativePenalty negativeWeight)]
  else [])

def clampedScore (f : FirmographicEstimate) (pains : List PainInference) (hasNegatives : Bool)
    (negativeWeight : ℚ) : ℚ :=
  max 0 (min 1 (b2bPoints f + sizePoints f + motionPoints f + industryPoints f +
    painPoints pains - if hasNegatives then negativePenalty negativeWeight else 0))

def bucketOf (score : ℚ) : IcpBucket :=
  if strongThreshold ≤ score then .strongFit
  else if goodThreshold ≤ score then .goodFit
  else if marginalThreshold ≤ score then .marginal
  else .outOfBounds

def scoreIcp (fmt : NumberFormat) (f : FirmographicEstimate) (pains : List PainInference)
    (hasNegatives : Bool := false) (negativeWeight : ℚ := 0) : ICPScore :=
  let score := clampedScore f pains hasNegatives negativeWeight
  let rules := matchedRules f pains
  let penalties := penaltyNotes fmt f hasNegatives negativeWeight
  { score := roundTo 3 score
    bucket := bucketOf score
    matchedRules := rules
    penalties := penalties
    explanation := "ICP=" ++ fmt.percent score ++ " (" ++ bucketName (bucketOf score) ++
      ") | +rules: " ++ ", ".intercalate rules ++ " | -penalties: " ++
      (if penalties = [] then "none" else ", ".intercalate penalties) }

variable {f : FirmographicEstimate} {pains : List PainInference}

theorem negativePenalty_mono {nw nw' : ℚ} (h : nw' ≤ nw) :
    negativePenalty nw' ≤ negativePenalty nw := by
  apply min_le_min_left
  linarith

theorem clampedScore_antitone {nw nw' : ℚ} (h : nw' ≤ nw) :
    clampedScore f pains true nw ≤ clampedScore f pains true nw' := by
  have hpenalty := negativePenalty_mono h
  apply max_le_max_left
  apply min_le_min_left
  simp only [if_true]
  linarith

theorem thresholds_ordered :
    marginalThreshold ≤ goodThreshold ∧ goodThreshold ≤ strongThreshold := by
  norm_num [marginalThreshold, goodThreshold, strongThreshold]

theorem bucketOf_outOfBounds_iff {score : ℚ} :
    bucketOf score = .outOfBounds ↔ score < marginalThreshold := by
  obtain ⟨hgood, hstrong⟩ := thresholds_ordered
  rw [bucketOf]
  split
  · next h => simp only [reduceCtorEq, false_iff, not_lt, hgood.trans (hstrong.trans h)]
  · split
    · next h => simp only [reduceCtorEq, false_iff, not_lt, hgood.trans h]
    · split
      · next h => simp only [reduceCtorEq, false_iff, not_lt, h]
      · next h => simp only [not_le.1 h]

theorem bucketOf_marginal_iff {score : ℚ} :
    bucketOf score = .marginal ↔ marginalThreshold ≤ score ∧ score < goodThreshold := by
  obtain ⟨-, hstrong⟩ := thresholds_ordered
  rw [bucketOf]
  split
  · next h => simp only [reduceCtorEq, false_iff, not_and, not_lt, hstrong.trans h, implies_true]
  · split
    · next h => simp only [reduceCtorEq, false_iff, not_and, not_lt, h, implies_true]
    · next hgood =>
      split
      · next h => simp only [h, not_le.1 hgood, and_self]
      · next h => simp only [reduceCtorEq, h, false_and]

end TrustCopilot.IcpScoring
