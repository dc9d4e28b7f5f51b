import TrustCopilot.BuyerResolver
import TrustCopilot.IcpScoring

/-! The contact plan of an account: the buyers resolved from its pages, ranked by how well their
roles fit its pain and size, the first four of them as slots. The fit weighs more than the
confidence, and the confidences lie so close together that the fit decides. -/
namespace TrustCopilot.ContactPlans

open TrustCopilot.ContactDecision
open TrustCopilot.IcpScoring
open TrustCopilot.BuyerResolver
open TrustCopilot.Rounding

/-! ### Which roles to ask -/

structure BuyerPriority where
  primaryRole : String
  secondaryRoles : List String
  reasoning : String
  deriving DecidableEq, Repr

abbrev StageMap := List (String × BuyerPriority)

def firstEnterpriseReviewRoles : StageMap :=
  [("micro", ⟨"founder_ceo", ["cto"],
      "At micro stage, founders own first enterprise deals and security reviews"⟩),
    ("small", ⟨"cto", ["founder_ceo", "head_engineering"],
      "CTO typically drives first SOC 2 / enterprise review at small companies"⟩),
    ("mid", ⟨"ciso", ["head_security", "head_compliance", "cto"],
      "Mid-size companies usually have a security or compliance lead for reviews"⟩),
    ("growth", ⟨"ciso", ["head_compliance", "vp_eng"],
      "Growth stage has dedicated security leadership"⟩),
    ("enterprise", ⟨"head_compliance", ["ciso", "head_it"],
      "Enterprise has specialized compliance teams"⟩)]

def questionnaireOverloadRoles : StageMap :=
  [("micro", ⟨"founder_ceo", ["cto"],
      "Founders handle vendor questionnaires at early stage"⟩),
    ("small", ⟨"cto", ["head_security", "head_engineering"],
      "CTO or first security hire handles questionnaire burden"⟩),
    ("mid", ⟨"head_security", ["head_compliance", "ciso"],
      "Security lead owns questionnaire workflow"⟩),
    ("growth", ⟨"head_compliance", ["ciso", "head_security"],
      "Compliance team absorbs questionnaire volume at scale"⟩),
    ("enterprise", ⟨"head_compliance", ["ciso"],
      "Dedicated compliance ops team handles questionnaires"⟩)]

def evidenceChaosRoles : StageMap :=
  [("micro", ⟨"founder_ceo", ["cto"],
      "Founders scramble to gather evidence for audits"⟩),
    ("small", ⟨"cto", ["head_engineering"],
      "CTO needs evidence automation to stop manual collection"⟩),
    ("mid", ⟨"head_compliance", ["ciso", "head_security"],
      "Compliance lead needs evidence management tooling"⟩),
    ("growth", ⟨"head_compliance", ["ciso"],
      "Compliance team needs automated evidence workflows"⟩),
    ("enterprise", ⟨"head_compliance", ["ciso"],
      "Enterprise compliance teams need evidence automation at scale"⟩)]

def trustCenterPressureRoles : StageMap :=
  [("micro", ⟨"founder_ceo", ["cto"],
      "Founder builds trust page to close enterprise deals"⟩),
    ("small", ⟨"cto", ["head_security", "head_product"],
      "CTO drives trust center as product/security concern"⟩),
    ("mid", ⟨"head_security", ["ciso", "head_product"],
      "Security lead owns public trust posture"⟩),
    ("growth", ⟨"ciso", ["head_security", "head_product"],
      "CISO manages public-facing security trust center"⟩),
    ("enterprise", ⟨"ciso", ["head_compliance"],
      "CISO oversees trust and transparency programs"⟩)]

def complianceScalingRoles : StageMap :=
  [("micro", ⟨"founder_ceo", [],
      "Too early for compliance scaling pain at micro"⟩),
    ("small", ⟨"cto", ["head_compliance"],
      "CTO feels compliance scaling pain first"⟩),
    ("mid", ⟨"head_compliance", ["ciso", "vp_eng"],
      "Compliance lead drives tooling decisions for scaling"⟩),
    ("growth", ⟨"head_compliance", ["ciso"],
      "Compliance team needs process automation at scale"⟩),
    ("enterprise", ⟨"head_compliance", ["ciso"],
      "Enterprise compliance operations need unified platform"⟩)]

def certificationPrepRoles : StageMap :=
  [("micro", ⟨"founder_ceo", ["cto"],
      "Founders drive certification decisions at micro stage"⟩),
    ("small", ⟨"cto", ["founder_ceo", "head_engineering"],
      "CTO owns certification prep and audit readiness"⟩),
    ("mid", ⟨"head_compliance", ["ciso", "cto"],
      "Compliance lead manages certification projects"⟩),
    ("growth", ⟨"head_compliance", ["ciso"],
      "Compliance team runs certification programs"⟩),
    ("enterprise", ⟨"head_compliance", ["ciso"],
      "Enterprise has dedicated certification program managers"⟩)]

def vendorRiskFrictionRoles : StageMap :=
  [("micro", ⟨"founder_ceo", ["cto"],
      "Founders field vendor risk requests from customers"⟩),
    ("small", ⟨"cto", ["head_security"],
      "CTO manages vendor risk responses"⟩),
    ("mid", ⟨"head_security", ["head_compliance"],
      "Security lead handles vendor risk program"⟩),
    ("growth", ⟨"head_compliance", ["ciso", "head_security"],
      "Compliance team owns third-party risk management"⟩),
    ("enterprise", ⟨"head_compliance", ["ciso"],
      "Enterprise vendor risk managed by dedicated team"⟩)]

/-- A pain without an entry has the empty map. -/
def painRoleMap : PainType → StageMap
  | .firstEnterpriseReview => firstEnterpriseReviewRoles
  | .questionnaireOverload => questionnaireOverloadRoles
  | .evidenceChaos => evidenceChaosRoles
  | .trustCenterPressure => trustCenterPressureRoles
  | .complianceScaling => complianceScalingRoles
  | .certificationPrep => certificationPrepRoles
  | .vendorRiskFriction => vendorRiskFrictionRoles
  | .unknown => []

def getBuyerPriority (painType : PainType) (sizeBand : String) : BuyerPriority :=
  let stageMap := painRoleMap painType
  if stageMap = [] then
    ⟨"founder_ceo", ["cto"],
      "No specific role map for " ++ painType.value ++ "; defaulting to founder/CTO"⟩
  else
    match ((stageMap.lookup sizeBand).or (stageMap.lookup "small")).or
        (stageMap.lookup "mid") with
    | some priority => priority
    | none => ⟨"founder_ceo", ["cto"],
        "No stage match for " ++ sizeBand ++ "; defaulting to founder/CTO"⟩

/-! ### The plan -/

def primaryFit : ℚ := 1

/-- The score of `secondary_1` at index 0, and so on; after the third the default stands. -/
def secondaryFit (idx : ℕ) : ℚ :=
  if idx = 0 then 7 / 10 else if idx = 1 then 5 / 10 else 3 / 10

def unmatchedFit : ℚ := 1 / 10

def minConfidenceThreshold : ℚ := 25 / 100

def maxFallbackDepth : ℕ := 4

def roleFit (bp : BuyerPriority) (c : BuyerCandidate) : ℚ :=
  if c.normalizedRole = bp.primaryRole then primaryFit
  else if c.normalizedRole ∈ bp.secondaryRoles then
    secondaryFit (bp.secondaryRoles.idxOf c.normalizedRole)
  else unmatchedFit

def rankScore (bp : BuyerPriority) (c : BuyerCandidate) : ℚ :=
  roleFit bp c * (6 / 10) + c.confidence * (4 / 10)

def ScoresHigher (bp : BuyerPriority) (a b : BuyerCandidate) : Prop :=
  rankScore bp b ≤ rankScore bp a

instance (bp : BuyerPriority) : DecidableRel (ScoresHigher bp) := fun a b =>
  inferInstanceAs (Decidable (rankScore bp b ≤ rankScore bp a))

def ranked (bp : BuyerPriority) (candidates : List BuyerCandidate) : List BuyerCandidate :=
  candidates.insertionSort (ScoresHigher bp)

def combinedConfidence (bp : BuyerPriority) (c : BuyerCandidate) : ℚ :=
  roundTo 3 (roleFit bp c * (5 / 10) + c.confidence * (5 / 10))

def slotOf (bp : BuyerPriority) (i : ℕ) (c : BuyerCandidate) : ContactSlot where
  rank := i + 1
  name := c.name
  role := c.role
  normalizedRole := c.normalizedRole
  roleFitScore := roundTo 2 (roleFit bp c)
  confidence := combinedConfidence bp c
  evidenceUrl := c.evidenceUrl
  stopIfNoResponse := decide (2 ≤ i)

def fillSlots (bp : BuyerPriority) (i : ℕ) : List BuyerCandidate → List ContactSlot
  | [] => []
  | c :: rest =>
    if combinedConfidence bp c < minConfidenceThreshold ∧ 0 < i then []
    else slotOf bp i c :: fillSlots bp (i + 1) rest

def buildContactPlan (accountId : String) (candidates : List BuyerCandidate) (bp : BuyerPriority)
    (maxAttempts : ℤ := 3) : ContactPlan :=
  if candidates = [] then
    { accountId := accountId, maxAttempts := 0, stopReason := "no_candidates_found" }
  else
    let slots := fillSlots bp 0 ((ranked bp candidates).take maxFallbackDepth)
    { accountId := accountId
      slots := slots
      maxAttempts := min maxAttempts slots.length
      stopReason :=
        if slots = [] then "all_candidates_below_threshold"
        else if slots.length < (ranked bp candidates).length then "remaining_below_threshold"
        else "" }

/-! ### Role classes -/

def roleClass (bp : BuyerPriority) (c : BuyerCandidate) : ℕ :=
  if c.normalizedRole = bp.primaryRole then 0
  else bp.secondaryRoles.idxOf c.normalizedRole + 1

def RankedBefore (bp : BuyerPriority) (a b : BuyerCandidate) : Prop :=
  roleClass bp a < roleClass bp b ∨
    roleClass bp a = roleClass bp b ∧ b.confidence ≤ a.confidence

def classFit (n k : ℕ) : ℚ :=
  if k = 0 then primaryFit else if k ≤ n then secondaryFit (k - 1) else unmatchedFit

variable {bp : BuyerPriority} {c : BuyerCandidate} {candidates : List BuyerCandidate}

theorem roleClass_le : roleClass bp c ≤ bp.secondaryRoles.length + 1 := by
  rw [roleClass]
  split
  · omega
  · have hidx : bp.secondaryRoles.idxOf c.normalizedRole ≤ bp.secondaryRoles.length :=
      List.idxOf_le_length
    omega

theorem roleFit_eq : roleFit bp c = classFit bp.secondaryRoles.length (roleClass bp c) := by
  rw [roleFit, roleClass, classFit]
  by_cases hp : c.normalizedRole = bp.primaryRole
  · rw [if_pos hp, if_pos hp, if_pos rfl]
  · rw [if_neg hp, if_neg hp, if_neg (Nat.succ_ne_zero _)]
    by_cases hs : c.normalizedRole ∈ bp.secondaryRoles
    · rw [if_pos hs, if_pos (Nat.succ_le_of_lt (List.idxOf_lt_length_iff.2 hs)),
        Nat.add_sub_cancel]
    · rw [if_neg hs, List.idxOf_eq_length_iff.2 hs, if_neg (by omega)]

def FewSecondaries (bp : BuyerPriority) : Prop := bp.secondaryRoles.length ≤ 3

theorem painRoleMap_few (painType : PainType) : ∀ p ∈ painRoleMap painType, FewSecondaries p.2 := by
  cases painType <;> simp [painRoleMap, FewSecondaries, firstEnterpriseReviewRoles,
    questionnaireOverloadRoles, evidenceChaosRoles, trustCenterPressureRoles,
    complianceScalingRoles, certificationPrepRoles, vendorRiskFrictionRoles]

theorem lookup_few {painType : PainType} {band : String}
    (h : (painRoleMap painType).lookup band = some bp) : FewSecondaries bp := by
  obtain ⟨before, after, hmap, -⟩ := List.lookup_eq_some_iff.1 h
  apply painRoleMap_few painType (band, bp)
  simp [hmap]

theorem getBuyerPriority_few (painType : PainType) (sizeBand : String) :
    FewSecondaries (getBuyerPriority painType sizeBand) := by
  rw [getBuyerPriority]
  split
  · simp [FewSecondaries]
  · split
    · next priority h =>
      rcases Option.or_eq_some_iff.1 h with hfirst | ⟨-, hmid⟩
      · rcases Option.or_eq_some_iff.1 hfirst with hband | ⟨-, hsmall⟩
        · exact lookup_few hband
        · exact lookup_few hsmall
      · exact lookup_few hmid
    · simp [FewSecondaries]

theorem classFit_gap {n k k' : ℕ} (hn : n ≤ 3) (hk : k < k') (hk' : k' ≤ n + 1) :
    classFit n k' + 2 / 10 ≤ classFit n k := by
  have hall : ∀ n ≤ 3, ∀ k' ≤ n + 1, ∀ k < k', classFit n k' + 2 / 10 ≤ classFit n k := by
    decide +kernel
  exact hall n hn k' hk' k hk

theorem unmatchedFit_le_roleFit : unmatchedFit ≤ roleFit bp c := by
  rw [roleFit, secondaryFit, primaryFit, unmatchedFit]
  split_ifs <;> norm_num

/-! ### The ranking -/

variable {a b : BuyerCandidate}

/-- The whole band of the confidences weighs less than one class. -/
theorem scoresHigher_rankedBefore (hbp : FewSecondaries bp) (ha : Confident a) (hb : Confident b)
    (h : ScoresHigher bp a b) : RankedBefore bp a b := by
  rw [ScoresHigher, rankScore, rankScore, roleFit_eq, roleFit_eq] at h
  rw [Confident, titleConfidence, maxConfidence] at ha hb
  rcases lt_trichotomy (roleClass bp a) (roleClass bp b) with hlt | heq | hgt
  · exact Or.inl hlt
  · refine Or.inr ⟨heq, ?_⟩
    rw [heq] at h
    linarith
  · have hgap := classFit_gap hbp hgt roleClass_le
    linarith [ha.2, hb.1]

theorem scoresHigher_total : Std.Total (ScoresHigher bp) :=
  ⟨fun a b => le_total (rankScore bp b) (rankScore bp a)⟩

theorem scoresHigher_trans : IsTrans BuyerCandidate (ScoresHigher bp) :=
  ⟨fun _ _ _ hab hbc => le_trans hbc hab⟩

theorem ranked_perm : (ranked bp candidates).Perm candidates :=
  List.perm_insertionSort (ScoresHigher bp) candidates

theorem ranked_pairwise (hbp : FewSecondaries bp) (hconf : ∀ c ∈ candidates, Confident c) :
    (ranked bp candidates).Pairwise (RankedBefore bp) := by
  have htotal : Std.Total (ScoresHigher bp) := scoresHigher_total
  have htrans : IsTrans BuyerCandidate (ScoresHigher bp) := scoresHigher_trans
  apply (List.pairwise_insertionSort (ScoresHigher bp) candidates).imp_of_mem
  intro a b ha hb h
  exact scoresHigher_rankedBefore hbp (hconf a (ranked_perm.mem_iff.1 ha))
    (hconf b (ranked_perm.mem_iff.1 hb)) h

/-! ### The slots -/

/-- No resolved candidate is weak enough to end the loop. -/
theorem combinedConfidence_ge (h : Confident c) :
    minConfidenceThreshold ≤ combinedConfidence bp c := by
  have hfit : unmatchedFit ≤ roleFit bp c := unmatchedFit_le_roleFit
  have hsum : ((400 : ℤ) : ℚ) / 10 ^ 3 ≤
      roleFit bp c * (5 / 10) + c.confidence * (5 / 10) := by
    rw [unmatchedFit] at hfit
    rw [Confident, titleConfidence] at h
    norm_num
    linarith [h.1]
  calc minConfidenceThreshold ≤ ((400 : ℤ) : ℚ) / 10 ^ 3 := by norm_num [minConfidenceThreshold]
    _ ≤ combinedConfidence bp c := le_roundTo hsum

theorem fillSlots_eq (i : ℕ) (h : ∀ c ∈ candidates, Confident c) :
    fillSlots bp i candidates = (candidates.zipIdx i).map fun p => slotOf bp p.2 p.1 := by
  induction candidates generalizing i with
  | nil => rfl
  | cons c rest ih =>
    have hc : ¬ (combinedConfidence bp c < minConfidenceThreshold ∧ 0 < i) := fun hweak =>
      absurd (combinedConfidence_ge (h c List.mem_cons_self)) (not_le.2 hweak.1)
    rw [fillSlots, if_neg hc, ih (i + 1) fun d hd => h d (List.mem_cons_of_mem c hd),
      List.zipIdx_cons, List.map_cons]

theorem buildContactPlan_slots {accountId : String} {maxAttempts : ℤ}
    (h : ∀ c ∈ candidates, Confident c) :
    (buildContactPlan accountId candidates bp maxAttempts).slots =
      ((ranked bp candidates).take maxFallbackDepth).zipIdx.map fun p => slotOf bp p.2 p.1 := by
  rw [buildContactPlan]
  split
  · next hnil =>
    rw [hnil]
    rfl
  · apply fillSlots_eq
    intro c hc
    exact h c (ranked_perm.mem_iff.1 (List.mem_of_mem_take hc))

example :
    (buildContactPlan "acc-1"
      [{ name := "Alice", role := "VP Eng", normalizedRole := "vp_eng", confidence := 75 / 100,
         source := "team_page" },
       { name := "Bob", role := "CTO", normalizedRole := "cto", confidence := 75 / 100,
         source := "team_page" }]
      ⟨"cto", ["head_security", "vp_eng"], "test"⟩).slots.map ContactSlot.normalizedRole =
      ["cto", "vp_eng"] := by decide +kernel

theorem roleClass_eq_zero_iff : roleClass bp c = 0 ↔ c.normalizedRole = bp.primaryRole := by
  rw [roleClass]
  split
  · next h => exact iff_of_true rfl h
  · next h => exact iff_of_false (Nat.succ_ne_zero _) h

theorem head_primary {cs : List BuyerCandidate} (hcs : cs.Pairwise (RankedBefore bp))
    (h : ∃ c ∈ cs, c.normalizedRole = bp.primaryRole) :
    ∃ first ∈ cs.head?, first.normalizedRole = bp.primaryRole := by
  obtain ⟨c, hc, hrole⟩ := h
  cases cs with
  | nil => cases hc
  | cons first rest =>
    refine ⟨first, rfl, ?_⟩
    rcases List.mem_cons.1 hc with rfl | hrest
    · exact hrole
    · rw [← roleClass_eq_zero_iff] at hrole ⊢
      rcases List.rel_of_pairwise_cons hcs hrest with hlt | ⟨heq, -⟩
      · omega
      · omega

/-- The slots are those of the first four buyers, ordered by role class and within a class by
confidence; with a buyer in the primary role the first slot has that role. -/
theorem slots_ranked (tools : TextTools) (pages : List Page) (painType : PainType)
    (sizeBand accountId : String) (maxAttempts : ℤ) :
    let bp := getBuyerPriority painType sizeBand
    let buyers := resolveBuyers tools pages
    let slots := (buildContactPlan accountId buyers bp maxAttempts).slots
    (∃ order : List BuyerCandidate, order.Perm buyers ∧ order.Pairwise (RankedBefore bp) ∧
      slots = (order.take maxFallbackDepth).zipIdx.map fun p => slotOf bp p.2 p.1) ∧
    ((∃ c ∈ buyers, c.normalizedRole = bp.primaryRole) →
      ∃ first ∈ slots.head?, first.normalizedRole = bp.primaryRole) := by
  intro bp buyers slots
  have hconf : ∀ c ∈ buyers, Confident c := fun c hc => resolveBuyers_confident hc
  have hpairwise : (ranked bp buyers).Pairwise (RankedBefore bp) :=
    ranked_pairwise (getBuyerPriority_few painType sizeBand) hconf
  have hslots : slots = _ := buildContactPlan_slots hconf
  refine ⟨⟨ranked bp buyers, ranked_perm, hpairwise, hslots⟩, ?_⟩
  rintro ⟨c, hc, hrole⟩
  obtain ⟨first, hfirst, hprimary⟩ :=
    head_primary hpairwise ⟨c, ranked_perm.mem_iff.2 hc, hrole⟩
  refine ⟨slotOf bp 0 first, ?_, hprimary⟩
  obtain ⟨rest, hrest⟩ := List.head?_eq_some_iff.1 hfirst
  rw [hslots, hrest]
  rfl

end TrustCopilot.ContactPlans
