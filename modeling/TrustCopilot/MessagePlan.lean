import TrustCopilot.MessageComposer
import TrustCopilot.Segmentation
import TrustCopilot.Library.Ranking

/-! From what is known of an account to the message: the objection to expect, the next step to ask
for, the strategy, and what the composer makes of it and the validator finds in it. -/
namespace TrustCopilot.MessagePlan

open TrustCopilot.IcpScoring (PainType)
open TrustCopilot.MessageComposer
open TrustCopilot.Phrases
open TrustCopilot.PyRegex
open TrustCopilot.PyText
open TrustCopilot.Ranking
open TrustCopilot.RegexSearch
open TrustCopilot.Rounding
open TrustCopilot.Segmentation (Segment)

/-! ### The objection -/

inductive ObjectionType where
  | alreadyHaveProcess
  | wrongPerson
  | badTiming
  | tooEarly
  | tooExpensive
  | aiSkepticism
  | competitorLocked
  | notAPriority
  | needMoreInfo
  deriving DecidableEq, Repr

structure ObjectionPrediction where
  topObjection : ObjectionType
  alternates : List ObjectionType := []
  confidence : ℚ := 0
  rationale : String := ""
  prehandleHint : String := ""
  deriving DecidableEq, Repr

structure ObjectionRule where
  objection : ObjectionType
  required : List String
  confidence : ℚ
  rationale : String
  prehandle : String
  deriving DecidableEq, Repr

def objectionRules : List ObjectionRule := [
  ⟨.competitorLocked, ["competitor_block"], 90 / 100, "Account already uses a direct competitor",
    "Acknowledge current tool; focus on specific gap or switching cost reduction"⟩,
  ⟨.competitorLocked, ["competitor_soften"], 65 / 100,
    "Account uses a smaller/adjacent competitor",
    "Position as complement or upgrade rather than replacement"⟩,
  ⟨.alreadyHaveProcess, ["compliance_maturity_segment"], 70 / 100,
    "Mature compliance program — likely has existing tooling",
    "Focus on consolidation, efficiency, and audit-readiness speed"⟩,
  ⟨.tooEarly, ["micro_size", "cert_prep_pain"], 65 / 100,
    "Very early stage — may not be ready for tooling investment",
    "Emphasize getting ahead of the problem before the first audit"⟩,
  ⟨.badTiming, ["low_urgency"], 60 / 100,
    "Low timing signals — account may not be actively looking",
    "Lead with educational value; save hard CTA for follow-up"⟩,
  ⟨.wrongPerson, ["low_buyer_confidence"], 55 / 100,
    "Low confidence in buyer resolution — may reach wrong person",
    "Open with a soft ask: 'Are you the right person for this?'"⟩,
  ⟨.tooExpensive, ["micro_size"], 50 / 100,
    "Very small company may see compliance tooling as expensive",
    "Lead with ROI: hours saved vs. tool cost"⟩,
  ⟨.notAPriority, ["no_active_pain"], 50 / 100, "No strong pain signals detected",
    "Create urgency through risk framing or peer comparison"⟩,
  ⟨.aiSkepticism, ["ai_tool_segment"], 45 / 100,
    "Technical audience may be skeptical of AI-powered claims",
    "Lead with deterministic features; mention AI only as augmentation"⟩]

structure Intel where
  painType : PainType
  segment : Segment
  sizeBand : String
  competitorState : String := "no_competitor"
  urgencyScore : ℚ
  buyerConfidence : ℚ
  icpScore : ℚ
  dealTier : String := "pro"
  topTriggers : List String
  evidenceIds : List String

def noted (p : Prop) [Decidable p] (name : String) : List String := if p then [name] else []

def objectionConditions (a : Intel) : List String :=
  (if a.competitorState = "block" then ["competitor_block"]
  else if a.competitorState ∈ ["soften", "reposition"] then ["competitor_soften"]
  else []) ++
  noted (a.segment = .complianceMaturity) "compliance_maturity_segment" ++
  noted (a.segment = .earlySoc2Startup) "ai_tool_segment" ++
  noted (a.sizeBand = "micro") "micro_size" ++
  noted (a.painType = .certificationPrep) "cert_prep_pain" ++
  noted (a.painType = .unknown) "no_active_pain" ++
  noted (a.urgencyScore < 3 / 10) "low_urgency" ++
  noted (a.buyerConfidence < 4 / 10) "low_buyer_confidence"

def matched (conditions : List String) : List ObjectionRule :=
  objectionRules.filter fun rule => rule.required.all conditions.contains

def needMoreInfo : ObjectionPrediction where
  topObjection := .needMoreInfo
  confidence := 3 / 10
  rationale := "No strong objection pattern detected"
  prehandleHint := "Provide clear, concise value proposition"

def predictObjection (a : Intel) : ObjectionPrediction :=
  match ranked ObjectionRule.confidence (matched (objectionConditions a)) with
  | [] => needMoreInfo
  | top :: rest =>
    { topObjection := top.objection
      alternates := ((rest.take 2).map ObjectionRule.objection).filter (· ≠ top.objection)
      confidence := roundTo 2 top.confidence
      rationale := top.rationale
      prehandleHint := top.prehandle }

/-! ### The next step -/

structure CTAChoice where
  cta : CTAType
  rationale : String
  confidence : ℚ
  deriving DecidableEq, Repr

structure CTARule where
  cta : CTAType
  conditions : List String
  confidence : ℚ
  rationale : String
  deriving DecidableEq, Repr

def ctaRules : List CTARule := [
  ⟨.uploadQuestionnaire, ["questionnaire_pain", "high_confidence"], 85 / 100,
    "Strong questionnaire pain + high confidence = direct upload CTA"⟩,
  ⟨.uploadQuestionnaire, ["vendor_risk_pain", "high_confidence"], 75 / 100,
    "Vendor risk friction with high confidence supports upload CTA"⟩,
  ⟨.sendProofPage, ["trust_center_pain"], 80 / 100,
    "Trust center pressure is best answered with proof page demo"⟩,
  ⟨.sendProofPage, ["evidence_pain"], 70 / 100,
    "Evidence chaos makes proof page tangible value"⟩,
  ⟨.bookCall, ["enterprise_size", "high_value"], 75 / 100,
    "Enterprise accounts with high value warrant direct call booking"⟩,
  ⟨.sendDetails, ["low_confidence"], 60 / 100,
    "Low confidence — lead with information, not commitment"⟩,
  ⟨.sendDetails, ["bad_timing_objection"], 55 / 100,
    "Bad timing objection — provide details for future reference"⟩,
  ⟨.noCta, ["competitor_locked"], 50 / 100, "Competitor locked — no direct CTA appropriate"⟩]

def ctaConditions (a : Intel) (topObjection : ObjectionType) : List String :=
  (match a.painType with
  | .questionnaireOverload => ["questionnaire_pain"]
  | .vendorRiskFriction => ["vendor_risk_pain"]
  | .trustCenterPressure => ["trust_center_pain"]
  | .evidenceChaos => ["evidence_pain"]
  | _ => []) ++
  (if 7 / 10 ≤ a.icpScore ∧ 5 / 10 ≤ a.urgencyScore then ["high_confidence"]
  else if a.icpScore < 4 / 10 ∨ a.urgencyScore < 3 / 10 then ["low_confidence"]
  else []) ++
  noted (a.sizeBand ∈ ["growth", "enterprise"]) "enterprise_size" ++
  noted (a.dealTier ∈ ["business", "enterprise"]) "high_value" ++
  (match topObjection with
  | .badTiming => ["bad_timing_objection"]
  | .competitorLocked => ["competitor_locked"]
  | _ => [])

def chooseCta (a : Intel) (topObjection : ObjectionType) : CTAChoice :=
  match ctaRules.find? fun rule => rule.conditions.all (ctaConditions a topObjection).contains with
  | some rule => ⟨rule.cta, rule.rationale, rule.confidence⟩
  | none => ⟨.sendDetails, "Default: send details when no strong CTA signal", 40 / 100⟩

/-! ### The strategy -/

inductive Angle where
  | painDirect
  | socialProof
  | eventTrigger
  | competitorDisplacement
  | education
  deriving DecidableEq, Repr

inductive Tone where
  | direct
  | consultative
  | peer
  | formal
  deriving DecidableEq, Repr

structure MessageStrategy extends MessageComposer.MessageStrategy where
  angle : Angle
  tone : Tone
  topObjection : String
  evidenceIds : List String
  segment : String
  deriving DecidableEq, Repr

def segmentValue : Segment → String
  | .earlySoc2Startup => "early_soc2_startup"
  | .postFundingPush => "post_funding_push"
  | .trustCenterLaunch => "trust_center_launch"
  | .hiringLedScale => "hiring_led_scale"
  | .enterpriseExpansion => "enterprise_expansion"
  | .complianceMaturity => "compliance_maturity"
  | .questionnairePain => "questionnaire_pain"
  | .genericFit => "generic_fit"
  | .notSegmented => "not_segmented"

def segmentAngle : Segment → Angle
  | .earlySoc2Startup => .painDirect
  | .postFundingPush => .eventTrigger
  | .trustCenterLaunch => .socialProof
  | .hiringLedScale => .painDirect
  | .enterpriseExpansion => .socialProof
  | .complianceMaturity => .education
  | .questionnairePain => .painDirect
  | .genericFit => .education
  | .notSegmented => .education

def painFraming : PainType → String
  | .firstEnterpriseReview => "navigating your first enterprise security review"
  | .questionnaireOverload => "drowning in vendor security questionnaires"
  | .evidenceChaos => "scrambling to collect audit evidence across tools"
  | .trustCenterPressure => "building buyer-facing trust and transparency"
  | .complianceScaling => "scaling compliance operations across your growing team"
  | .certificationPrep => "preparing for your SOC 2 or ISO 27001 certification"
  | .vendorRiskFriction => "managing vendor security requests from customers"
  | .unknown => "strengthening your security and compliance posture"

def sizeTone (sizeBand : String) : Tone :=
  if sizeBand ∈ ["micro", "small"] then .peer
  else if sizeBand ∈ ["mid", "growth"] then .consultative
  else if sizeBand = "enterprise" then .formal
  else .consultative

/-- `text.replace('_', ' ')` -/
def spaced (text : String) : String :=
  String.ofList (text.toList.map fun c => if c = '_' then ' ' else c)

def buildMessageStrategy (a : Intel) (topObjection : String := "")
    (objectionPrehandle : String := "") : MessageStrategy where
  painFraming := painFraming a.painType
  proofHook :=
    (a.topTriggers.head?.map fun trigger => "Based on your recent " ++ spaced trigger).getD ""
  ctaType := .sendDetails
  objectionPrehandle := objectionPrehandle
  groundingFacts := (a.topTriggers.head?.map fun trigger => "Trigger: " ++ trigger).toList ++
    ["Pain: " ++ a.painType.value, "Segment: " ++ segmentValue a.segment]
  angle := if a.competitorState ∈ ["soften", "reposition"] then .competitorDisplacement
    else segmentAngle a.segment
  tone := sizeTone a.sizeBand
  topObjection := topObjection
  evidenceIds := a.evidenceIds
  segment := segmentValue a.segment

variable {a : Intel}

/-! ### What is predicted -/

theorem mem_noted {p : Prop} [Decidable p] {name c : String} :
    c ∈ noted p name ↔ p ∧ c = name := by
  rw [noted]
  split
  · next h => simp [h]
  · next h => simp [h]

theorem block_noted : "competitor_block" ∈ objectionConditions a ↔ a.competitorState = "block" := by
  simp only [objectionConditions, List.mem_append, mem_noted]
  split_ifs <;> simp_all

theorem soften_noted : "competitor_soften" ∈ objectionConditions a ↔
    a.competitorState ∈ ["soften", "reposition"] := by
  simp only [objectionConditions, List.mem_append, mem_noted]
  split_ifs with hblock hsoften
  · simp [hblock]
  · simp only [hsoften, List.mem_singleton, true_or]
  · simp [hsoften]

theorem mem_matched {conditions : List String} {rule : ObjectionRule} :
    rule ∈ matched conditions ↔
      rule ∈ objectionRules ∧ ∀ c ∈ rule.required, c ∈ conditions := by
  rw [matched, List.mem_filter, List.all_eq_true]
  simp only [List.contains_iff_mem]

/-- Of one objection there are only the two rules on competitors. -/
theorem objectionRules_twice : objectionRules.Pairwise fun r s => r.objection = s.objection →
    r.required = ["competitor_block"] ∧ s.required = ["competitor_soften"] := by decide

theorem matched_distinct (a : Intel) :
    ((matched (objectionConditions a)).map ObjectionRule.objection).Nodup := by
  rw [List.Nodup, List.pairwise_map, matched, List.pairwise_filter]
  refine objectionRules_twice.imp fun {r s} htwice hr hs heq => ?_
  obtain ⟨hrequired, hsrequired⟩ := htwice heq
  simp only [hrequired, hsrequired, List.all_cons, List.all_nil, Bool.and_true,
    List.contains_iff_mem] at hr hs
  rw [block_noted] at hr
  rw [soften_noted, hr] at hs
  simp at hs

theorem objectionRules_hundredths : ∀ rule ∈ objectionRules,
    roundTo 2 rule.confidence = rule.confidence := by decide +kernel

theorem predictObjection_cases (a : Intel) :
    matched (objectionConditions a) = [] ∧ predictObjection a = needMoreInfo ∨
    ∃ top rest, (top :: rest).Perm (matched (objectionConditions a)) ∧
      (∀ rule ∈ matched (objectionConditions a), rule.confidence ≤ top.confidence) ∧
      predictObjection a =
        { topObjection := top.objection
          alternates := ((rest.take 2).map ObjectionRule.objection).filter (· ≠ top.objection)
          confidence := top.confidence
          rationale := top.rationale
          prehandleHint := top.prehandle } := by
  have hfalls := ranked_pairwise ObjectionRule.confidence (matched (objectionConditions a))
  have hperm := ranked_perm ObjectionRule.confidence (matched (objectionConditions a))
  rw [predictObjection]
  cases hr : ranked ObjectionRule.confidence (matched (objectionConditions a)) with
  | nil =>
    rw [hr] at hperm
    exact Or.inl ⟨hperm.nil_eq.symm, rfl⟩
  | cons top rest =>
    rw [hr] at hperm hfalls
    have htop : top ∈ matched (objectionConditions a) := hperm.mem_iff.1 List.mem_cons_self
    have hround := objectionRules_hundredths top (mem_matched.1 htop).1
    refine Or.inr ⟨top, rest, hperm, fun rule hrule => ?_, ?_⟩
    · rcases List.mem_cons.1 (hperm.mem_iff.2 hrule) with rfl | hrest
      · exact le_refl _
      · exact (List.pairwise_cons.1 hfalls).1 rule hrest
    · dsimp only
      rw [hround]

/-- The rule for a direct competitor is the only one as sure as it is. -/
theorem predictObjection_locked (h : a.competitorState = "block") :
    (predictObjection a).topObjection = .competitorLocked := by
  obtain ⟨rule, hrule, hconf⟩ : ∃ rule ∈ matched (objectionConditions a),
      rule.confidence = 90 / 100 := by
    refine ⟨_, mem_matched.2 ⟨List.mem_cons_self, ?_⟩, rfl⟩
    exact List.forall_mem_singleton.2 (block_noted.2 h)
  have honly : ∀ r ∈ objectionRules, 90 / 100 ≤ r.confidence →
      r.objection = .competitorLocked := by decide +kernel
  rcases predictObjection_cases a with ⟨hnone, -⟩ | ⟨top, rest, hperm, hbest, hp⟩
  · rw [hnone] at hrule
    cases hrule
  · have htop : top ∈ matched (objectionConditions a) := hperm.mem_iff.1 List.mem_cons_self
    rw [hp]
    exact honly top (mem_matched.1 htop).1 (hconf ▸ hbest rule hrule)

/-- Nothing that the rules find is held more likely than the objection that is predicted; the
others are further ones whose rules match, two at most; and an account with a direct competitor is
expected to be locked in. -/
theorem predictObjection_spec (a : Intel) :
    let p := predictObjection a
    (∀ rule ∈ matched (objectionConditions a), rule.confidence ≤ p.confidence) ∧
    ((p = needMoreInfo ∧ matched (objectionConditions a) = []) ∨
      ∃ rule ∈ matched (objectionConditions a), p.topObjection = rule.objection ∧
        p.confidence = rule.confidence ∧ p.prehandleHint = rule.prehandle) ∧
    (p.topObjection :: p.alternates).Nodup ∧ p.alternates.length ≤ 2 ∧
    (∀ other ∈ p.alternates, ∃ rule ∈ matched (objectionConditions a), rule.objection = other) ∧
    (a.competitorState = "block" → p.topObjection = .competitorLocked) := by
  have hlocked : a.competitorState = "block" →
      (predictObjection a).topObjection = .competitorLocked := predictObjection_locked
  rcases predictObjection_cases a with ⟨hnone, hp⟩ | ⟨top, rest, hperm, hbest, hp⟩
  · rw [hp] at hlocked ⊢
    rw [hnone]
    exact ⟨fun _ h => absurd h List.not_mem_nil, Or.inl ⟨rfl, rfl⟩, by decide, by decide,
      fun _ h => absurd h List.not_mem_nil, hlocked⟩
  · have hdistinct := matched_distinct a
    rw [← (hperm.map ObjectionRule.objection).nodup_iff, List.map_cons, List.nodup_cons]
      at hdistinct
    have htop : top ∈ matched (objectionConditions a) := hperm.mem_iff.1 List.mem_cons_self
    rw [hp] at hlocked ⊢
    refine ⟨hbest, Or.inr ⟨top, htop, rfl, rfl, rfl⟩, ?_, ?_, fun other hother => ?_, hlocked⟩
    · rw [List.nodup_cons]
      refine ⟨fun h => (of_decide_eq_true (List.mem_filter.1 h).2) rfl, ?_⟩
      exact hdistinct.2.sublist (List.filter_sublist.trans ((List.take_sublist 2 rest).map _))
    · refine (List.length_filter_le _ _).trans ?_
      rw [List.length_map, List.length_take]
      exact Nat.min_le_left 2 _
    · obtain ⟨rule, hrule, hobjection⟩ := List.mem_map.1 (List.mem_of_mem_filter hother)
      have hrest : rule ∈ top :: rest := List.mem_cons_of_mem top (List.mem_of_mem_take hrule)
      exact ⟨rule, hperm.mem_iff.1 hrest, hobjection⟩

/-! ### What is asked for -/

def Eager (a : Intel) : Prop :=
  (a.painType = .questionnaireOverload ∨ a.painType = .vendorRiskFriction) ∧
    7 / 10 ≤ a.icpScore ∧ 5 / 10 ≤ a.urgencyScore

def WantsProof (a : Intel) : Prop :=
  a.painType = .trustCenterPressure ∨ a.painType = .evidenceChaos

def Large (a : Intel) : Prop :=
  a.sizeBand ∈ ["growth", "enterprise"] ∧ a.dealTier ∈ ["business", "enterprise"]

def Unsure (a : Intel) : Prop := a.icpScore < 4 / 10 ∨ a.urgencyScore < 3 / 10

instance (a : Intel) : Decidable (Eager a) := inferInstanceAs (Decidable (_ ∧ _))

instance (a : Intel) : Decidable (WantsProof a) := inferInstanceAs (Decidable (_ ∨ _))

instance (a : Intel) : Decidable (Large a) := inferInstanceAs (Decidable (_ ∧ _))

instance (a : Intel) : Decidable (Unsure a) := inferInstanceAs (Decidable (_ ∨ _))

theorem mem_ctaConditions {o : ObjectionType} {c : String} : c ∈ ctaConditions a o ↔
    ((a.painType = .questionnaireOverload ∧ c = "questionnaire_pain" ∨
      a.painType = .vendorRiskFriction ∧ c = "vendor_risk_pain" ∨
      a.painType = .trustCenterPressure ∧ c = "trust_center_pain" ∨
      a.painType = .evidenceChaos ∧ c = "evidence_pain") ∨
    ((7 / 10 ≤ a.icpScore ∧ 5 / 10 ≤ a.urgencyScore) ∧ c = "high_confidence" ∨
      (¬ (7 / 10 ≤ a.icpScore ∧ 5 / 10 ≤ a.urgencyScore) ∧ Unsure a) ∧ c = "low_confidence")) ∨
    a.sizeBand ∈ ["growth", "enterprise"] ∧ c = "enterprise_size" ∨
    a.dealTier ∈ ["business", "enterprise"] ∧ c = "high_value" ∨
    (o = .badTiming ∧ c = "bad_timing_objection" ∨
      o = .competitorLocked ∧ c = "competitor_locked") := by
  unfold ctaConditions
  rw [List.mem_append, List.mem_append, List.mem_append, List.mem_append, mem_noted, mem_noted,
    or_assoc, or_assoc]
  refine or_congr (or_congr ?_ ?_) (or_congr Iff.rfl (or_congr Iff.rfl ?_))
  · cases a.painType <;> simp
  · rw [Unsure]
    split_ifs with hhigh hlow
    · simp [hhigh]
    · simp [hhigh, hlow]
    · simp [hhigh, hlow]
  · cases o <;> simp

theorem Unsure.not_high (h : Unsure a) : ¬ (7 / 10 ≤ a.icpScore ∧ 5 / 10 ≤ a.urgencyScore) := by
  rintro ⟨hicp, hurgency⟩
  rcases h with hlow | hlow
  · exact absurd (hicp.trans_lt hlow) (by norm_num)
  · exact absurd (hurgency.trans_lt hlow) (by norm_num)

theorem WantsProof.not_eager (h : WantsProof a) : ¬ Eager a := by
  rintro ⟨hpain | hpain, -⟩
  · rw [WantsProof, hpain] at h
    simp at h
  · rw [WantsProof, hpain] at h
    simp at h

theorem contains_noted {o : ObjectionType} {c : String} {p : Prop} [Decidable p]
    (h : c ∈ ctaConditions a o ↔ p) : (ctaConditions a o).contains c = decide p := by
  rw [List.contains_eq_mem, decide_eq_decide]
  exact h

/-- The rules in their order: no request is given up for a competitor before all that stand first
have failed. -/
theorem chooseCta_eq (a : Intel) (o : ObjectionType) : (chooseCta a o).cta =
    if Eager a then .uploadQuestionnaire
    else if WantsProof a then .sendProofPage
    else if Large a then .bookCall
    else if Unsure a then .sendDetails
    else if o = .competitorLocked then .noCta
    else .sendDetails := by
  have hquestionnaire := contains_noted (a := a) (o := o) (c := "questionnaire_pain")
    (p := a.painType = .questionnaireOverload) (by simp [mem_ctaConditions])
  have hvendor := contains_noted (a := a) (o := o) (c := "vendor_risk_pain")
    (p := a.painType = .vendorRiskFriction) (by simp [mem_ctaConditions])
  have htrust := contains_noted (a := a) (o := o) (c := "trust_center_pain")
    (p := a.painType = .trustCenterPressure) (by simp [mem_ctaConditions])
  have hevidence := contains_noted (a := a) (o := o) (c := "evidence_pain")
    (p := a.painType = .evidenceChaos) (by simp [mem_ctaConditions])
  have hhigh := contains_noted (a := a) (o := o) (c := "high_confidence")
    (p := 7 / 10 ≤ a.icpScore ∧ 5 / 10 ≤ a.urgencyScore) (by simp [mem_ctaConditions])
  have hlow := contains_noted (a := a) (o := o) (c := "low_confidence") (p := Unsure a) (by
    simpa [mem_ctaConditions] using Unsure.not_high)
  have hsize := contains_noted (a := a) (o := o) (c := "enterprise_size")
    (p := a.sizeBand ∈ ["growth", "enterprise"]) (by simp [mem_ctaConditions])
  have hvalue := contains_noted (a := a) (o := o) (c := "high_value")
    (p := a.dealTier ∈ ["business", "enterprise"]) (by simp [mem_ctaConditions])
  have htiming := contains_noted (a := a) (o := o) (c := "bad_timing_objection")
    (p := o = .badTiming) (by simp [mem_ctaConditions])
  have hlocked := contains_noted (a := a) (o := o) (c := "competitor_locked")
    (p := o = .competitorLocked) (by simp [mem_ctaConditions])
  simp only [chooseCta, ctaRules, List.find?_cons, List.find?_nil, List.all_cons, List.all_nil,
    Bool.and_true, hquestionnaire, hvendor, htrust, hevidence, hhigh, hlow, hsize, hvalue, htiming,
    hlocked, ← Bool.decide_and]
  by_cases heager : Eager a
  · rw [if_pos heager]
    obtain ⟨hpain | hpain, hconfident⟩ := heager
    · simp [hpain, hconfident]
    · simp [hpain, hconfident]
  rw [if_neg heager]
  have hfirst : ¬ (a.painType = .questionnaireOverload ∧
      7 / 10 ≤ a.icpScore ∧ 5 / 10 ≤ a.urgencyScore) := fun h => heager ⟨Or.inl h.1, h.2⟩
  have hsecond : ¬ (a.painType = .vendorRiskFriction ∧
      7 / 10 ≤ a.icpScore ∧ 5 / 10 ≤ a.urgencyScore) := fun h => heager ⟨Or.inr h.1, h.2⟩
  simp only [decide_eq_false hfirst, decide_eq_false hsecond]
  by_cases hproof : WantsProof a
  · rw [if_pos hproof]
    rcases hproof with hpain | hpain
    · simp [hpain]
    · simp [hpain]
  rw [if_neg hproof]
  rw [WantsProof, not_or] at hproof
  simp only [decide_eq_false hproof.1, decide_eq_false hproof.2]
  by_cases hlarge : Large a
  · rw [if_pos hlarge]
    rw [Large] at hlarge
    rw [decide_eq_true hlarge]
  rw [if_neg hlarge]
  rw [Large] at hlarge
  rw [decide_eq_false hlarge]
  by_cases hunsure : Unsure a
  · rw [if_pos hunsure, decide_eq_true hunsure]
  rw [if_neg hunsure, decide_eq_false hunsure]
  cases o <;> rfl

/-- What is asked of an account after its objection was predicted. A direct competitor keeps it
from being asked for anything only where no earlier rule asks. -/
theorem nextStep_spec (a : Intel) :
    let cta := (chooseCta a (predictObjection a).topObjection).cta
    (cta = .uploadQuestionnaire ↔ Eager a) ∧
    (cta = .sendProofPage ↔ WantsProof a) ∧
    (cta = .bookCall ↔ Large a ∧ ¬ Eager a ∧ ¬ WantsProof a) ∧
    (a.competitorState = "block" →
      (cta = .noCta ↔ ¬ Eager a ∧ ¬ WantsProof a ∧ ¬ Large a ∧ ¬ Unsure a)) := by
  have hproof : WantsProof a → ¬ Eager a := WantsProof.not_eager
  have hlocked : a.competitorState = "block" →
      (predictObjection a).topObjection = .competitorLocked := predictObjection_locked
  dsimp only
  rw [chooseCta_eq]
  refine ⟨?_, ?_, ?_, fun hstate => ?_⟩
  · split_ifs <;> simp_all
  · split_ifs <;> simp_all
  · split_ifs <;> simp_all
  · rw [hlocked hstate]
    split_ifs <;> simp_all

/-! ### What is composed -/

theorem found_of_bounded {alnum : Char → Bool} {r : Regex Char} {text : List Char}
    (h : found (bounded alnum r) text = true) : found r text = true := by
  rw [found_iff] at h ⊢
  obtain ⟨s, t, d, rfl, hmatch⟩ := h
  obtain ⟨c, hlook, hrest⟩ := matches_seq_iff.1 hmatch
  obtain ⟨rfl, -⟩ := matches_look_iff.1 hlook
  obtain ⟨e, hinner, -⟩ := matches_seq_iff.1 hrest
  exact ⟨s, t, e, rfl, hinner⟩

def subjectOf (t : PainType) : String := "Quick question about " ++ painFraming t

theorem subjectOf_fits (t : PainType) :
    ¬ maxSubjectLength < (subjectOf t).length ∧ subjectOf t ≠ "" := by
  cases t <;> decide +kernel

/-- The subjects claim nothing that is prohibited. -/
theorem subjectOf_modest (alnum : Char → Bool) (t : PainType) :
    ∀ claim ∈ prohibitedClaims alnum, found claim.regex (subjectOf t).toList = false := by
  have hinner : ∀ claim ∈ prohibitedClaims alnum, ∃ r, claim.regex = bounded alnum r ∧
      found r (subjectOf t).toList = false := by
    refine List.forall_mem_cons.2 ⟨⟨_, rfl, ?_⟩, List.forall_mem_singleton.2 ⟨_, rfl, ?_⟩⟩
    · cases t <;> decide +kernel
    · cases t <;> decide +kernel
  intro claim hclaim
  obtain ⟨r, hr, hnone⟩ := hinner claim hclaim
  rw [hr, ← Bool.not_eq_true]
  intro h
  rw [found_of_bounded h] at hnone
  cases hnone

variable {py : StrLower} {company recipient variantType objection prehandle : String}

def planned (py : StrLower) (a : Intel) (objection prehandle company recipient : String)
    (variantType : String) : ComposedMessage :=
  composeMessage py (buildMessageStrategy a objection prehandle).toMessageStrategy company recipient
    variantType

theorem planned_subject :
    (planned py a objection prehandle company recipient variantType).subject =
      subjectOf a.painType :=
  if_neg (subjectOf_fits a.painType).1

theorem part_in_body {part : String} (h : part ∈ opening
    (buildMessageStrategy a objection prehandle).toMessageStrategy company recipient ++ [optOut]) :
    isIn part (planned py a objection prehandle company recipient variantType).bodyText := by
  rw [isIn, planned, composeMessage, String.toList_intercalate]
  exact infix_of_mem_joined (List.mem_map_of_mem h)

theorem optOut_length : minBodyLength ≤ optOut.length := by decide +kernel

theorem planned_long_enough : minBodyLength ≤
    (planned py a objection prehandle company recipient variantType).bodyText.length :=
  optOut_length.trans (part_in_body (List.mem_append_right _ List.mem_cons_self)).length_le

/-- The objection that was to be handled is in the message. -/
theorem planned_prehandles : isIn prehandle
    (planned py a objection prehandle company recipient variantType).bodyText := by
  by_cases hempty : prehandle = ""
  · rw [hempty]
    exact List.nil_infix
  · have hpart : isIn ("\n" ++ prehandle)
        (planned py a objection prehandle company recipient variantType).bodyText :=
      part_in_body (by simp [opening, buildMessageStrategy, hempty])
    refine List.IsInfix.trans ?_ hpart
    rw [String.toList_append]
    exact (List.suffix_append _ _).isInfix

/-- A message composed for an account from a strategy that was built for it names the objection's
answer, asks for no more than to send details, and is found valid exactly when its body is short
enough and nothing in it is a prohibited claim: no other check of the validator ever fails on it. -/
theorem planned_valid_iff (alnum : Char → Bool) (py : StrLower) (a : Intel)
    (objection prehandle company recipient variantType : String) :
    let msg := planned py a objection prehandle company recipient variantType
    ((validateMessage alnum msg).valid = true ↔ msg.bodyText.length ≤ maxBodyLength ∧
      ∀ claim ∈ prohibitedClaims alnum, found claim.regex msg.bodyText.toList = false) ∧
    isIn prehandle msg.bodyText ∧ msg.ctaType = .sendDetails := by
  intro msg
  refine ⟨?_, planned_prehandles, rfl⟩
  have hsubject : msg.subject = subjectOf a.painType := planned_subject
  have hfits := subjectOf_fits a.painType
  have hlong : minBodyLength ≤ msg.bodyText.length := planned_long_enough
  have hfacts : msg.triggerFactsUsed ≠ [] :=
    List.append_ne_nil_of_right_ne_nil _ (List.cons_ne_nil _ _)
  have hflags : msg.hasFooter = true ∧ msg.hasUnsubscribe = true := compose_complete _ _ _ _ _
  have hcta : msg.ctaType = .sendDetails := rfl
  have hclaims : (∃ claim ∈ prohibitedClaims alnum, claimed msg claim = true) ↔
      ¬ ∀ claim ∈ prohibitedClaims alnum, found claim.regex msg.bodyText.toList = false := by
    simp only [claimed, hsubject, Bool.or_eq_true, not_forall, Bool.not_eq_false, exists_prop]
    refine exists_congr fun claim => and_congr_right fun hclaim => ?_
    rw [subjectOf_modest alnum a.painType claim hclaim]
    simp
  rw [valid_iff, Rejected, hclaims, hsubject, hflags.1, hflags.2, hcta]
  simp [hfits.1, hfits.2, hlong, hfacts]

end TrustCopilot.MessagePlan
