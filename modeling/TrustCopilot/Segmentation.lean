import TrustCopilot.ContactGates
import TrustCopilot.IcpScoring
import Mathlib.Data.List.Sort

/-! Micro-segmentation: the rule table with its fallback for accounts that fit, against the
accounts that the decision engine contacts. Confidences are exact rationals. -/
namespace TrustCopilot.Segmentation

open TrustCopilot.Recontact
open TrustCopilot.ContactDecision
open TrustCopilot.ContactGates
open TrustCopilot.IcpScoring
open TrustCopilot.Rounding

inductive Segment where
  | earlySoc2Startup
  | postFundingPush
  | trustCenterLaunch
  | hiringLedScale
  | enterpriseExpansion
  | complianceMaturity
  | questionnairePain
  | genericFit
  | notSegmented
  deriving DecidableEq, Repr

structure SegmentResult where
  primary : Segment
  alternates : List Segment := []
  confidence : ℚ := 0
  reasons : List String := []
  deriving DecidableEq

structure SegmentRule where
  segment : Segment
  requiredSignals : List String
  sizeBands : List String
  painTypes : List PainType
  minConfidence : ℚ
  reason : String
  deriving DecidableEq

def segmentRules : List SegmentRule :=
  [⟨.earlySoc2Startup, ["soc2_announced"], ["micro", "small"],
      [.certificationPrep, .firstEnterpriseReview], 80 / 100,
      "Small company pursuing first SOC 2"⟩,
    ⟨.postFundingPush, ["funding_round", "upmarket_expansion"], [], [], 75 / 100,
      "Recently funded and pushing upmarket"⟩,
    ⟨.postFundingPush, ["funding_round"], ["small", "mid"], [.firstEnterpriseReview], 70 / 100,
      "Post-funding with enterprise review pain"⟩,
    ⟨.trustCenterLaunch, ["trust_center_launched"], [], [.trustCenterPressure], 80 / 100,
      "Actively building trust center infrastructure"⟩,
    ⟨.trustCenterLaunch, ["trust_page_added"], [], [], 55 / 100,
      "Has a trust page — may need automation"⟩,
    ⟨.hiringLedScale, ["compliance_hiring"], ["mid", "growth"], [.complianceScaling], 80 / 100,
      "Scaling compliance through hiring"⟩,
    ⟨.hiringLedScale, ["security_hiring", "compliance_hiring"], [], [], 70 / 100,
      "Hiring both security and compliance roles"⟩,
    ⟨.enterpriseExpansion, ["upmarket_expansion", "enterprise_customer_mention"], [], [],
      75 / 100, "Expanding into enterprise segment"⟩,
    ⟨.complianceMaturity, ["iso27001_mentioned", "certification_milestone"],
      ["mid", "growth", "enterprise"], [], 70 / 100,
      "Multiple compliance certifications — mature program"⟩,
    ⟨.questionnairePain, ["vendor_security_mention"], [], [.questionnaireOverload], 75 / 100,
      "Questionnaire overload from vendor reviews"⟩]

/-- An empty list of size bands or of pains asks for nothing, and an unknown size is in every
band. -/
def ruleMatches (signalTypes : List String) (f : FirmographicEstimate)
    (pains : List PainInference) (rule : SegmentRule) : Bool :=
  (rule.requiredSignals.all fun s => s ∈ signalTypes) &&
  (rule.sizeBands = [] ∨ f.sizeBand ∈ rule.sizeBands ∨ f.sizeBand = "unknown") &&
  (rule.painTypes = [] ∨ rule.painTypes.any fun pt => pt ∈ pains.map PainInference.painType)

structure SegmentMatch where
  segment : Segment
  confidence : ℚ
  reason : String
  deriving DecidableEq

def segmentMatch (f : FirmographicEstimate) (icp : ICPScore) (rule : SegmentRule) :
    SegmentMatch where
  segment := rule.segment
  confidence := min (95 / 100) (rule.minConfidence +
    (if f.sizeBand ≠ "unknown" then 5 / 100 else 0) +
    (if 5 / 10 ≤ icp.score then 5 / 100 else 0))
  reason := rule.reason

def matched (signalTypes : List String) (f : FirmographicEstimate) (pains : List PainInference)
    (icp : ICPScore) : List SegmentMatch :=
  (segmentRules.filter (ruleMatches signalTypes f pains)).map (segmentMatch f icp)

/-- The sort key of a match. Matches with the same confidence stay in the order of the rules. -/
def Surer (a b : SegmentMatch) : Prop := -a.confidence ≤ -b.confidence

instance : DecidableRel Surer := fun _ _ => inferInstanceAs (Decidable (_ ≤ _))

def segmentAccount (signalTypes : List String) (f : FirmographicEstimate)
    (pains : List PainInference) (icp : ICPScore) : SegmentResult :=
  match (matched signalTypes f pains icp).insertionSort Surer with
  | [] =>
    if icp.bucket = .strongFit ∨ icp.bucket = .goodFit then
      { primary := .genericFit
        confidence := icp.score * (7 / 10)
        reasons := ["ICP fit but no specific segment match"] }
    else { primary := .notSegmented }
  | primary :: rest =>
    { primary := primary.segment
      alternates := ((rest.take 3).map SegmentMatch.segment).filter fun s => s ≠ primary.segment
      confidence := roundTo 2 primary.confidence
      reasons := ((primary :: rest).take 3).map SegmentMatch.reason }

def RuleFree (signalTypes : List String) (f : FirmographicEstimate)
    (pains : List PainInference) : Prop :=
  ∀ rule ∈ segmentRules, ruleMatches signalTypes f pains rule = false

instance (signalTypes : List String) (f : FirmographicEstimate) (pains : List PainInference) :
    Decidable (RuleFree signalTypes f pains) := inferInstanceAs (Decidable (∀ _ ∈ _, _ = _))

/-- A marginal account is contacted with a lower score, but is no fit for the fallback. -/
def MarginalGap (signalTypes : List String) (f : FirmographicEstimate)
    (pains : List PainInference) (icp : ICPScore) : Prop :=
  icp.bucket = .marginal ∧ RuleFree signalTypes f pains

variable {signalTypes : List String} {f : FirmographicEstimate} {pains : List PainInference}
  {icp : ICPScore}

theorem rules_segmented : ∀ rule ∈ segmentRules, rule.segment ≠ .notSegmented := by
  decide +kernel

theorem matched_eq_nil_iff :
    matched signalTypes f pains icp = [] ↔ RuleFree signalTypes f pains := by
  rw [matched, List.map_eq_nil_iff, List.filter_eq_nil_iff, RuleFree]
  simp only [Bool.not_eq_true]

/-- An account is left without a segment if no rule matches and the fallback is not for it. -/
theorem not_segmented_iff :
    (segmentAccount signalTypes f pains icp).primary = .notSegmented ↔
      RuleFree signalTypes f pains ∧ icp.bucket ≠ .strongFit ∧ icp.bucket ≠ .goodFit := by
  have hperm := List.perm_insertionSort Surer (matched signalTypes f pains icp)
  rw [segmentAccount]
  cases hs : (matched signalTypes f pains icp).insertionSort Surer with
  | nil =>
    rw [hs] at hperm
    have hfree : RuleFree signalTypes f pains := matched_eq_nil_iff.1 hperm.symm.eq_nil
    by_cases hfit : icp.bucket = .strongFit ∨ icp.bucket = .goodFit
    · simp only [if_pos hfit]
      exact iff_of_false nofun fun h => hfit.elim h.2.1 h.2.2
    · simp only [if_neg hfit]
      exact iff_of_true trivial ⟨hfree, not_or.1 hfit⟩
  | cons primary rest =>
    have hin : primary ∈ matched signalTypes f pains icp := by
      apply hperm.mem_iff.1
      rw [hs]
      exact List.mem_cons_self
    obtain ⟨rule, hrule, rfl⟩ := List.mem_map.1 hin
    obtain ⟨htable, hmatch⟩ := List.mem_filter.1 hrule
    refine iff_of_false (rules_segmented rule htable) fun h => ?_
    rw [h.1 rule htable] at hmatch
    cases hmatch

/-- A contacted account has a segment, but for the marginal accounts that no rule matches. -/
theorem contacted_segmented_iff (fmt : TextFormat) (signalTypes : List String)
    (f : FirmographicEstimate) (pains : List PainInference) (icp : ICPScore)
    (urgency : UrgencyScore) (dealValue : DealValueEstimate) (plan : ContactPlan)
    (hits : List CompetitorHit) (hasHardNegatives : Bool) (memory : Option AccountMemory)
    (now : ℤ) :
    ((makeContactDecision fmt icp urgency dealValue plan hits hasHardNegatives memory
        now).decision = .contact →
      (segmentAccount signalTypes f pains icp).primary ≠ .notSegmented) ↔
      ¬ (Unblocked icp plan hits hasHardNegatives ∧ (∀ m ∈ memory, Cleared m now) ∧
        MarginalGap signalTypes f pains icp) := by
  rw [contact_iff, ne_eq, not_segmented_iff, MarginalGap]
  constructor
  · rintro h ⟨hfree, hclear, hmarginal, hrules⟩
    apply h ⟨hfree, hclear⟩
    rw [hmarginal]
    exact ⟨hrules, nofun, nofun⟩
  · rintro h ⟨hfree, hclear⟩ ⟨hrules, hstrong, hgood⟩
    apply h
    refine ⟨hfree, hclear, ?_, hrules⟩
    -- the buckets out of bounds, strong and good are ruled out
    have hin := hfree.2.2.1
    cases hb : icp.bucket with
    | strongFit => exact absurd hb hstrong
    | goodFit => exact absurd hb hgood
    | marginal => rfl
    | outOfBounds => exact absurd hb hin

/-- A marginal account with a slot and no signals: contacted, and without a segment. -/
theorem marginal_contacted_unsegmented :
    (makeContactDecision ⟨fun _ => "", fun _ => ""⟩ ⟨4 / 10, .marginal, [], [], ""⟩
      ⟨7 / 10, 7 / 10, "", ""⟩ ⟨50000, "high", 35000, "pro", ""⟩
      ⟨"acc-1", [⟨1, "Alice", "CTO", "cto", 1, 8 / 10, "", false⟩], 1, ""⟩
      [] false none 0).decision = .contact ∧
    (segmentAccount [] ⟨"mid", "saas", 8 / 10, 2 / 10⟩ [] ⟨4 / 10, .marginal, [], [], ""⟩).primary =
      .notSegmented := by
  refine ⟨by decide +kernel, not_segmented_iff.2 ⟨by decide +kernel, nofun, nofun⟩⟩

end TrustCopilot.Segmentation
