import TrustCopilot.ContactGates
import TrustCopilot.IcpScoring

/-! The qualification pipeline: the ICP score, the urgency score made from it, and the contact
decision made from both. What moves all three is the weight of the negative signals and the
timing score. -/
namespace TrustCopilot.QualificationPipeline

open TrustCopilot.Recontact
open TrustCopilot.ContactDecision
open TrustCopilot.ContactGates
open TrustCopilot.IcpScoring
open TrustCopilot.Rounding

/-! ### Urgency -/

def highUrgencyPains : List PainType :=
  [.firstEnterpriseReview, .trustCenterPressure, .questionnaireOverload]

def mediumUrgencyPains : List PainType := [.certificationPrep, .vendorRiskFriction]

def painUrgency (pain : PainInference) : ℚ :=
  if pain.painType ∈ highUrgencyPains then 30 / 100 * pain.confidence
  else if pain.painType ∈ mediumUrgencyPains then 20 / 100 * pain.confidence
  else 10 / 100 * pain.confidence

def painUrgencyReason (pain : PainInference) : String :=
  if pain.painType ∈ highUrgencyPains then "high_urgency_pain:" ++ pain.painType.value
  else if pain.painType ∈ mediumUrgencyPains then "medium_urgency_pain:" ++ pain.painType.value
  else "low_urgency_pain:" ++ pain.painType.value

def dampening (cap rate negativeWeight : ℚ) : ℚ :=
  if negativeWeight > 0 then min cap (negativeWeight * rate) else 0

def urgencyOf (pains : List PainInference) (whyNow negativeWeight : ℚ) : ℚ :=
  max 0 (min 1 (whyNow * (45 / 100) + ((topPain pains).map painUrgency).getD 0 -
    dampening (20 / 100) (15 / 100) negativeWeight))

def monetizationOf (pains : List PainInference) (icp : ICPScore) (whyNow negativeWeight : ℚ) :
    ℚ :=
  max 0 (min 1 (icp.score * (50 / 100) +
    ((topPain pains).map fun pain => pain.confidence * (25 / 100)).getD 0 +
    whyNow * (15 / 100) - dampening (25 / 100) (2 / 10) negativeWeight))

def dampeningNote (fmt : NumberFormat) (label : String) (cap rate negativeWeight : ℚ) :
    List String :=
  if negativeWeight > 0 then
    [label ++ fmt.twoDecimals (dampening cap rate negativeWeight)]
  else []

def urgencyReasons (fmt : NumberFormat) (pains : List PainInference)
    (whyNow negativeWeight : ℚ) : List String :=
  (if 6 / 10 ≤ whyNow then ["strong_timing(" ++ fmt.twoDecimals whyNow ++ ")"]
  else if 3 / 10 ≤ whyNow then ["moderate_timing(" ++ fmt.twoDecimals whyNow ++ ")"]
  else []) ++
  (topPain pains).toList.map painUrgencyReason ++
  dampeningNote fmt "negative_dampening:" (20 / 100) (15 / 100) negativeWeight

def monetizationReasons (fmt : NumberFormat) (pains : List PainInference) (icp : ICPScore)
    (whyNow negativeWeight : ℚ) : List String :=
  ["icp_fit:" ++ fmt.twoDecimals icp.score] ++
  ((topPain pains).toList.map fun pain => "pain_clarity:" ++ fmt.twoDecimals pain.confidence) ++
  (if whyNow > 0 then ["timing_boost:" ++ fmt.twoDecimals whyNow] else []) ++
  dampeningNote fmt "negative_penalty:" (25 / 100) (2 / 10) negativeWeight

def scoreUrgency (fmt : NumberFormat) (pains : List PainInference) (icp : ICPScore)
    (whyNow : ℚ) (negativeWeight : ℚ := 0) : UrgencyScore where
  urgency := roundTo 3 (urgencyOf pains whyNow negativeWeight)
  monetizationProb := roundTo 3 (monetizationOf pains icp whyNow negativeWeight)
  urgencyExplanation := " | ".intercalate (urgencyReasons fmt pains whyNow negativeWeight)
  monetizationExplanation :=
    " | ".intercalate (monetizationReasons fmt pains icp whyNow negativeWeight)

/-! ### The pipeline -/

/-- What one account brings to the pipeline, but for the timing and the negative signals. -/
structure Account where
  firmographics : FirmographicEstimate
  pains : List PainInference
  plan : ContactPlan
  hits : List CompetitorHit
  hasHardNegatives : Bool
  memory : Option AccountMemory

def decision (nf : NumberFormat) (fmt : TextFormat) (a : Account) (dealValue : DealValueEstimate)
    (now : ℤ) (whyNow negativeWeight : ℚ) : ContactDecisionResult :=
  let icp := scoreIcp nf a.firmographics a.pains true negativeWeight
  let urgency := scoreUrgency nf a.pains icp whyNow negativeWeight
  makeContactDecision fmt icp urgency dealValue a.plan a.hits a.hasHardNegatives a.memory now

variable {nf : NumberFormat} {fmt : TextFormat} {pains : List PainInference}
  {icp icp' : ICPScore} {urgency urgency' : UrgencyScore} {whyNow whyNow' nw nw' : ℚ}

theorem dampening_mono {cap rate : ℚ} (hcap : 0 ≤ cap) (hrate : 0 ≤ rate) (h : nw' ≤ nw) :
    dampening cap rate nw' ≤ dampening cap rate nw := by
  rw [dampening, dampening]
  by_cases hpos : 0 < nw'
  · rw [if_pos hpos, if_pos (hpos.trans_le h)]
    exact min_le_min_left cap (mul_le_mul_of_nonneg_right h hrate)
  · rw [if_neg hpos]
    split
    · next hw => exact le_min hcap (mul_nonneg (le_of_lt hw) hrate)
    · exact le_refl 0

theorem urgencyOf_mono (hwhy : whyNow ≤ whyNow') (hnw : nw' ≤ nw) :
    urgencyOf pains whyNow nw ≤ urgencyOf pains whyNow' nw' := by
  have hdamp : dampening (20 / 100) (15 / 100) nw' ≤ dampening (20 / 100) (15 / 100) nw :=
    dampening_mono (by norm_num) (by norm_num) hnw
  apply max_le_max_left
  apply min_le_min_left
  linarith

theorem monetizationOf_mono (hicp : icp.score ≤ icp'.score) (hwhy : whyNow ≤ whyNow')
    (hnw : nw' ≤ nw) :
    monetizationOf pains icp whyNow nw ≤ monetizationOf pains icp' whyNow' nw' := by
  have hdamp : dampening (25 / 100) (2 / 10) nw' ≤ dampening (25 / 100) (2 / 10) nw :=
    dampening_mono (by norm_num) (by norm_num) hnw
  apply max_le_max_left
  apply min_le_min_left
  linarith

/-! ### From the scores to the tier -/

theorem scoreIcp_mono {f : FirmographicEstimate} (hnw : nw' ≤ nw) :
    (scoreIcp nf f pains true nw).score ≤ (scoreIcp nf f pains true nw').score :=
  roundTo_mono 3 (clampedScore_antitone hnw)

theorem scoreIcp_inBounds {f : FirmographicEstimate} (hnw : nw' ≤ nw)
    (h : (scoreIcp nf f pains true nw).bucket ≠ .outOfBounds) :
    (scoreIcp nf f pains true nw').bucket ≠ .outOfBounds := by
  intro hout
  apply h
  rw [scoreIcp, bucketOf_outOfBounds_iff] at hout ⊢
  exact (clampedScore_antitone hnw).trans_lt hout

/-- The bucket is read off the exact score, so between the two scores it can only improve. -/
theorem scoreIcp_marginal {f : FirmographicEstimate} (hnw : nw' ≤ nw)
    (hin : (scoreIcp nf f pains true nw).bucket ≠ .outOfBounds)
    (h : (scoreIcp nf f pains true nw').bucket = .marginal) :
    (scoreIcp nf f pains true nw).bucket = .marginal := by
  rw [scoreIcp, Ne, bucketOf_outOfBounds_iff, not_lt] at hin
  rw [scoreIcp, bucketOf_marginal_iff] at h ⊢
  exact ⟨hin, (clampedScore_antitone hnw).trans_lt h.2⟩

def weightedScore (icp : ICPScore) (urgency : UrgencyScore) (target : ContactSlot) : ℚ :=
  icp.score * (25 / 100) + urgency.urgency * (30 / 100) +
    urgency.monetizationProb * (25 / 100) + target.confidence * (20 / 100)

def softening (hits : List CompetitorHit) : ℚ := if isSoftening hits then 85 / 100 else 1

def margin (icp : ICPScore) : ℚ := if icp.bucket = .marginal then 80 / 100 else 1

variable {target : ContactSlot} {hits : List CompetitorHit}

theorem composite_eq : composite icp urgency target hits =
    weightedScore icp urgency target * softening hits * margin icp := rfl

theorem softening_pos : 0 < softening hits := by
  rw [softening]
  split <;> norm_num

theorem margin_pos : 0 < margin icp := by
  rw [margin]
  split <;> norm_num

theorem margin_mono (h : icp'.bucket = .marginal → icp.bucket = .marginal) :
    margin icp ≤ margin icp' := by
  by_cases hm : icp'.bucket = .marginal
  · rw [margin, margin, if_pos hm, if_pos (h hm)]
  · rw [margin, margin, if_neg hm]
    split <;> norm_num

theorem priorityTier_le_five (x : ℚ) : (priorityTier x).tier ≤ 5 := by
  rw [priorityTier]
  split_ifs <;> decide

theorem priorityTier_low {x : ℚ} (h : x < 25 / 100) : (priorityTier x).tier = 5 := by
  rw [priorityTier, if_neg (by linarith), if_neg (by linarith), if_neg (by linarith),
    if_neg (not_le.2 h)]

theorem priorityTier_antitone {x y : ℚ} (h : x ≤ y) :
    (priorityTier y).tier ≤ (priorityTier x).tier := by
  rw [priorityTier, priorityTier]
  split_ifs <;> first | decide | linarith

/-- A negative sum stays under the last threshold, so the margin's discount does not matter
there; a sum that is not negative carries the order through both factors. -/
theorem compositeTier_antitone
    (hweighted : weightedScore icp urgency target ≤ weightedScore icp' urgency' target)
    (hmarginal : icp'.bucket = .marginal → icp.bucket = .marginal) :
    (priorityTier (composite icp' urgency' target hits)).tier ≤
      (priorityTier (composite icp urgency target hits)).tier := by
  have hsoft : 0 < softening hits := softening_pos
  rcases lt_or_ge (weightedScore icp urgency target) 0 with hneg | hpos
  · have hlow : composite icp urgency target hits < 0 := by
      rw [composite_eq]
      exact mul_neg_of_neg_of_pos (mul_neg_of_neg_of_pos hneg hsoft) margin_pos
    rw [priorityTier_low (x := composite icp urgency target hits) (by linarith)]
    exact priorityTier_le_five _
  · apply priorityTier_antitone
    have hsum : weightedScore icp urgency target * softening hits ≤
        weightedScore icp' urgency' target * softening hits :=
      mul_le_mul_of_nonneg_right hweighted hsoft.le
    have hsum0 : 0 ≤ weightedScore icp urgency target * softening hits :=
      mul_nonneg hpos hsoft.le
    rw [composite_eq, composite_eq]
    exact mul_le_mul hsum (margin_mono hmarginal) margin_pos.le (hsum0.trans hsum)

/-! ### The decision -/

variable {plan : ContactPlan} {hasHardNegatives : Bool} {memory : Option AccountMemory}
  {dealValue dealValue' : DealValueEstimate} {now : ℤ} {a : Account} {reasons : List String}

theorem hardBlocks_inBounds (h : hardBlocks icp plan hits hasHardNegatives = .ok target) :
    icp.bucket ≠ .outOfBounds :=
  (hardBlocks_ok_iff.1 h).2.2.1

theorem hardBlocks_congr (hin : icp.bucket ≠ .outOfBounds) (hin' : icp'.bucket ≠ .outOfBounds) :
    hardBlocks icp' plan hits hasHardNegatives = hardBlocks icp plan hits hasHardNegatives := by
  rw [hardBlocks, hardBlocks, if_neg hin, if_neg hin']

theorem weightedScore_mono {f : FirmographicEstimate} (hwhy : whyNow ≤ whyNow')
    (hnw : nw' ≤ nw) :
    weightedScore (scoreIcp nf f pains true nw)
      (scoreUrgency nf pains (scoreIcp nf f pains true nw) whyNow nw) target ≤
    weightedScore (scoreIcp nf f pains true nw')
      (scoreUrgency nf pains (scoreIcp nf f pains true nw') whyNow' nw') target := by
  have hscore : (scoreIcp nf f pains true nw).score ≤ (scoreIcp nf f pains true nw').score :=
    scoreIcp_mono hnw
  have hurgency : roundTo 3 (urgencyOf pains whyNow nw) ≤
      roundTo 3 (urgencyOf pains whyNow' nw') := roundTo_mono 3 (urgencyOf_mono hwhy hnw)
  have hmonetization : roundTo 3 (monetizationOf pains (scoreIcp nf f pains true nw) whyNow nw) ≤
      roundTo 3 (monetizationOf pains (scoreIcp nf f pains true nw') whyNow' nw') :=
    roundTo_mono 3 (monetizationOf_mono hscore hwhy hnw)
  rw [weightedScore, weightedScore, scoreUrgency, scoreUrgency]
  linarith

/-- Better timing and less negative weight never lose a contact, nor its tier. -/
theorem contact_kept (hwhy : whyNow ≤ whyNow') (hnw : nw' ≤ nw)
    (h : (decision nf fmt a dealValue now whyNow nw).decision = .contact) :
    (decision nf fmt a dealValue' now whyNow' nw').decision = .contact ∧
    (decision nf fmt a dealValue' now whyNow' nw').priorityTier ≤
      (decision nf fmt a dealValue now whyNow nw).priorityTier := by
  obtain ⟨target, reasons, hb, hm⟩ := contacted_iff.1 h
  have hin := hardBlocks_inBounds hb
  have hb' := (hardBlocks_congr hin (scoreIcp_inBounds hnw hin)).trans hb
  rw [decision, decision, makeContactDecision_ok hb hm, makeContactDecision_ok hb' hm]
  refine ⟨rfl, ?_⟩
  apply compositeTier_antitone
  · exact weightedScore_mono hwhy hnw
  · exact scoreIcp_marginal hnw hin

def reviewedFintech : Account where
  firmographics := ⟨"mid", "fintech", 8 / 10, 1 / 10⟩
  pains := [⟨.firstEnterpriseReview, 6 / 10⟩]
  plan := ⟨"acc-1", [⟨1, "Alice", "CTO", "cto", 1, 8 / 10, "", false⟩], 1, ""⟩
  hits := []
  hasHardNegatives := false
  memory := none

def plainNumbers : NumberFormat := ⟨fun _ => "", fun _ => ""⟩

def plainTexts : TextFormat := ⟨fun _ => "", fun _ => ""⟩

def noDeal : DealValueEstimate := ⟨0, "low", 0, "free", ""⟩

theorem reviewedFintech_contact_kept :
    (decision plainNumbers plainTexts reviewedFintech noDeal 0 (3 / 10) 1).decision = .contact ∧
    (decision plainNumbers plainTexts reviewedFintech noDeal 0 (6 / 10) 0).decision = .contact ∧
    (decision plainNumbers plainTexts reviewedFintech noDeal 0 (6 / 10) 0).priorityTier ≤
      (decision plainNumbers plainTexts reviewedFintech noDeal 0 (3 / 10) 1).priorityTier :=
  have h : (decision plainNumbers plainTexts reviewedFintech noDeal 0 (3 / 10) 1).decision =
      .contact := by decide +kernel
  ⟨h, contact_kept (by norm_num) (by norm_num) h⟩

end TrustCopilot.QualificationPipeline
