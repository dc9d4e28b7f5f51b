import TrustCopilot.Firmographics
import TrustCopilot.Library.Binary64
import TrustCopilot.PainRules
import TrustCopilot.QualificationPipeline

/-! What a deal is worth: a monthly value read off the size, the motion and the market of an account
and the part of it that is expected. At the end the whole way from the signals of an account to the
expected value. Amounts are cents, cut from the product of doubles, and the likelihoods and the
scores before that product are exact rationals. -/
namespace TrustCopilot.DealValue

open TrustCopilot.Binary64
open TrustCopilot.ContactDecision
open TrustCopilot.IcpScoring
open TrustCopilot.PainRules (pains topConfidence topConfidence_rises)
open TrustCopilot.QualificationPipeline
open TrustCopilot.Rounding

def sizeBandMrr (sizeBand : String) : ℤ :=
  if sizeBand = "micro" then 5000
  else if sizeBand = "small" then 20000
  else if sizeBand = "mid" then 50000
  else if sizeBand = "growth" then 100000
  else if sizeBand = "enterprise" then 250000
  else 15000

def ltvMultiplier : ℤ := 24

def ltvThresholds : List (ℤ × String) :=
  [(500000, "enterprise"), (200000, "high"), (50000, "medium"), (0, "low")]

def tierThresholds : List (ℤ × String) :=
  [(200000, "enterprise"), (80000, "business"), (30000, "pro"), (0, "starter")]

def reached (thresholds : List (ℤ × String)) (fallback : String) (amount : ℤ) : String :=
  ((thresholds.find? fun t => t.1 ≤ amount).map Prod.snd).getD fallback

/-- A share of an amount that is not negative, the product of doubles as `int` cuts it. -/
def share (amount : ℤ) (factor : ℚ) : ℤ := ⌊toDouble (amount * toDouble factor)⌋

def motionMrr (f : FirmographicEstimate) : ℤ :=
  if 5 / 10 ≤ f.enterpriseMotion then share (sizeBandMrr f.sizeBand) (13 / 10)
  else sizeBandMrr f.sizeBand

def monthlyValue (f : FirmographicEstimate) : ℤ :=
  if 7 / 10 ≤ f.isB2b then share (motionMrr f) (11 / 10)
  else if f.isB2b < 4 / 10 then share (motionMrr f) (6 / 10)
  else motionMrr f

def ltvBucket (f : FirmographicEstimate) : String :=
  reached ltvThresholds "low" (monthlyValue f * ltvMultiplier)

def dollars (cents : ℤ) : String := "$" ++ toString (roundHalfEven ((cents : ℚ) / 100))

def estimateDealValue (fmt : NumberFormat) (f : FirmographicEstimate) (urgency : UrgencyScore) :
    DealValueEstimate :=
  let monthly := monthlyValue f
  let ltv := monthly * ltvMultiplier
  let expected := share monthly urgency.monetizationProb
  let tier := reached tierThresholds "starter" monthly
  { monthlyValueEstimate := monthly
    ltvBucket := ltvBucket f
    expectedValue := expected
    tier := tier
    explanation := "MRR=" ++ dollars monthly ++ " (" ++ f.sizeBand ++ "), LTV=" ++ dollars ltv ++
      " (" ++ ltvBucket f ++ "), EV=" ++ dollars expected ++ " (win_prob=" ++
      fmt.percent urgency.monetizationProb ++ "), tier=" ++ tier }

variable {f : FirmographicEstimate} {urgency urgency' : UrgencyScore}

theorem share_mono {a b : ℤ} {x y : ℚ} (ha : 0 ≤ a) (hab : a ≤ b) (hx : 0 ≤ x) (hxy : x ≤ y) :
    share a x ≤ share b y := by
  have ha' : (0 : ℚ) ≤ a := by exact_mod_cast ha
  have hab' : (a : ℚ) ≤ b := by exact_mod_cast hab
  apply Int.floor_le_floor
  apply toDouble_mono
  exact mul_le_mul hab' (toDouble_mono hxy) (toDouble_nonneg hx) (ha'.trans hab')

theorem share_nonneg {a : ℤ} {x : ℚ} (ha : 0 ≤ a) (hx : 0 ≤ x) : 0 ≤ share a x :=
  Int.floor_nonneg.2 (toDouble_nonneg (mul_nonneg (Int.cast_nonneg ha) (toDouble_nonneg hx)))

theorem share_one {a : ℤ} (h : |a| < 2 ^ 53) : share a 1 = a := by
  rw [share, toDouble_one, mul_one, toDouble_intCast h, Int.floor_intCast]

theorem sizeBandMrr_bounds (band : String) :
    5000 ≤ sizeBandMrr band ∧ sizeBandMrr band ≤ 250000 := by
  rw [sizeBandMrr]
  split_ifs <;> decide

theorem share_bounds {a low high : ℤ} {x : ℚ} (hlow : 0 ≤ low) (hx : 0 ≤ x)
    (h : low ≤ a ∧ a ≤ high) : share low x ≤ share a x ∧ share a x ≤ share high x :=
  ⟨share_mono hlow h.1 hx le_rfl, share_mono (hlow.trans h.1) h.2 hx le_rfl⟩

theorem motionMrr_bounds (f : FirmographicEstimate) :
    5000 ≤ motionMrr f ∧ motionMrr f ≤ 325000 := by
  obtain ⟨hlow, hhigh⟩ := sizeBandMrr_bounds f.sizeBand
  have hfloor : 5000 ≤ share 5000 (13 / 10) := by decide +kernel
  have hceil : share 250000 (13 / 10) ≤ 325000 := by decide +kernel
  have hshare := share_bounds (x := 13 / 10) (by decide) (by norm_num) ⟨hlow, hhigh⟩
  rw [motionMrr]
  split <;> omega

theorem monthlyValue_bounds (f : FirmographicEstimate) :
    3000 ≤ monthlyValue f ∧ monthlyValue f ≤ 400000 := by
  obtain ⟨hlow, hhigh⟩ := motionMrr_bounds f
  have hfloor : 3000 ≤ share 5000 (6 / 10) := by decide +kernel
  have hfloor' : 3000 ≤ share 5000 (11 / 10) := by decide +kernel
  have hceil : share 325000 (6 / 10) ≤ 400000 := by decide +kernel
  have hceil' : share 325000 (11 / 10) ≤ 400000 := by decide +kernel
  have hshare := share_bounds (x := 6 / 10) (by decide) (by norm_num) ⟨hlow, hhigh⟩
  have hshare' := share_bounds (x := 11 / 10) (by decide) (by norm_num) ⟨hlow, hhigh⟩
  rw [monthlyValue]
  split_ifs <;> omega

/-! ### From the signals to the expected value -/

theorem painPoints_eq (ps : List IcpScoring.PainInference) :
    painPoints ps = min (20 / 100) (topConfidence ps * (25 / 100)) := by
  rw [painPoints, topConfidence]
  cases topPain ps with
  | none => norm_num
  | some pain => rfl

theorem clarity_eq (ps : List IcpScoring.PainInference) :
    ((topPain ps).map fun pain => pain.confidence * (25 / 100)).getD 0 =
      topConfidence ps * (25 / 100) := by
  rw [topConfidence]
  cases topPain ps with
  | none => exact (zero_mul _).symm
  | some pain => rfl

variable {ps ps' : List IcpScoring.PainInference} {nf : NumberFormat} {hasNegatives : Bool}
  {whyNow nw : ℚ}

theorem clampedScore_rises (h : topConfidence ps ≤ topConfidence ps') :
    clampedScore f ps hasNegatives nw ≤ clampedScore f ps' hasNegatives nw := by
  have hpoints : painPoints ps ≤ painPoints ps' := by
    rw [painPoints_eq, painPoints_eq]
    exact min_le_min_left _ (mul_le_mul_of_nonneg_right h (by norm_num))
  apply max_le_max_left
  apply min_le_min_left
  linarith

theorem monetizationOf_rises {icp icp' : ICPScore} (h : topConfidence ps ≤ topConfidence ps')
    (hicp : icp.score ≤ icp'.score) :
    monetizationOf ps icp whyNow nw ≤ monetizationOf ps' icp' whyNow nw := by
  rw [monetizationOf, monetizationOf, clarity_eq, clarity_eq]
  apply max_le_max_left
  apply min_le_min_left
  linarith

theorem monetizationOf_unit (icp : ICPScore) :
    0 ≤ monetizationOf ps icp whyNow nw ∧ monetizationOf ps icp whyNow nw ≤ 1 :=
  ⟨le_max_left _ _, max_le zero_le_one (min_le_left _ _)⟩

theorem monetizationProb_unit (icp : ICPScore) :
    0 ≤ (scoreUrgency nf ps icp whyNow nw).monetizationProb ∧
      (scoreUrgency nf ps icp whyNow nw).monetizationProb ≤ 1 :=
  Firmographics.roundTo_unit (monetizationOf_unit icp) 3

theorem expectedValue_bounds (fmt : NumberFormat) (h : 0 ≤ urgency.monetizationProb ∧
    urgency.monetizationProb ≤ 1) :
    0 ≤ (estimateDealValue fmt f urgency).expectedValue ∧
      (estimateDealValue fmt f urgency).expectedValue ≤
        (estimateDealValue fmt f urgency).monthlyValueEstimate := by
  obtain ⟨hlow, hhigh⟩ := monthlyValue_bounds f
  have hmonthly : 0 ≤ monthlyValue f := by omega
  have hsmall : |monthlyValue f| < 2 ^ 53 := by
    rw [abs_of_nonneg hmonthly]
    omega
  constructor
  · exact share_nonneg hmonthly h.1
  · have hle := share_mono hmonthly (le_refl _) h.1 h.2
    rw [share_one hsmall] at hle
    exact hle

structure Valuation where
  icp : ICPScore
  urgency : UrgencyScore
  deal : DealValueEstimate

def valuation (nf : NumberFormat) (f : FirmographicEstimate) (signals : List String)
    (hasNegatives : Bool) (whyNow nw : ℚ) : Valuation :=
  let ps := pains signals f.sizeBand
  let icp := scoreIcp nf f ps hasNegatives nw
  let urgency := scoreUrgency nf ps icp whyNow nw
  ⟨icp, urgency, estimateDealValue nf f urgency⟩

theorem valuation_monthly (nf : NumberFormat) (f : FirmographicEstimate) (signals : List String)
    (hasNegatives : Bool) (whyNow nw : ℚ) :
    (valuation nf f signals hasNegatives whyNow nw).deal.monthlyValueEstimate = monthlyValue f :=
  rfl

/-- With more signals, and the rest as it was, neither the fit nor the chance of a sale nor what
the deal is expected to bring goes down, an account inside the bounds stays inside them, and what is
expected of a deal lies between nothing and its monthly value, which is what it was. -/
theorem evidence_helps (nf : NumberFormat) (f : FirmographicEstimate) (hasNegatives : Bool)
    (whyNow nw : ℚ) {signals signals' : List String} (h : signals ⊆ signals') :
    let v := valuation nf f signals hasNegatives whyNow nw
    let v' := valuation nf f signals' hasNegatives whyNow nw
    v.icp.score ≤ v'.icp.score ∧
    (v.icp.bucket ≠ .outOfBounds → v'.icp.bucket ≠ .outOfBounds) ∧
    v.urgency.monetizationProb ≤ v'.urgency.monetizationProb ∧
    0 ≤ v.deal.expectedValue ∧ v.deal.expectedValue ≤ v'.deal.expectedValue ∧
    v'.deal.expectedValue ≤ v'.deal.monthlyValueEstimate ∧
    v'.deal.monthlyValueEstimate = v.deal.monthlyValueEstimate := by
  have htop : topConfidence (pains signals f.sizeBand) ≤
      topConfidence (pains signals' f.sizeBand) := topConfidence_rises h
  have hclamped : clampedScore f (pains signals f.sizeBand) hasNegatives nw ≤
      clampedScore f (pains signals' f.sizeBand) hasNegatives nw := clampedScore_rises htop
  have hicp : (scoreIcp nf f (pains signals f.sizeBand) hasNegatives nw).score ≤
      (scoreIcp nf f (pains signals' f.sizeBand) hasNegatives nw).score := roundTo_mono 3 hclamped
  have hmon : (valuation nf f signals hasNegatives whyNow nw).urgency.monetizationProb ≤
      (valuation nf f signals' hasNegatives whyNow nw).urgency.monetizationProb :=
    roundTo_mono 3 (monetizationOf_rises htop hicp)
  have hmonthly : 0 ≤ monthlyValue f :=
    (by decide : (0 : ℤ) ≤ 3000).trans (monthlyValue_bounds f).1
  intro v v'
  have hprob : 0 ≤ v.urgency.monetizationProb ∧ v.urgency.monetizationProb ≤ 1 :=
    monetizationProb_unit v.icp
  have hprob' : 0 ≤ v'.urgency.monetizationProb ∧ v'.urgency.monetizationProb ≤ 1 :=
    monetizationProb_unit v'.icp
  have hbounds := expectedValue_bounds (f := f) nf hprob
  have hbounds' := expectedValue_bounds (f := f) nf hprob'
  have hshare := share_mono hmonthly (le_refl _) hprob.1 hmon
  have hmonthly' : v'.deal.monthlyValueEstimate = v.deal.monthlyValueEstimate :=
    (valuation_monthly nf f signals' hasNegatives whyNow nw).trans
      (valuation_monthly nf f signals hasNegatives whyNow nw).symm
  refine ⟨hicp, fun hin hout => hin ?_, hmon, hbounds.1, hshare, hbounds'.2, hmonthly'⟩
  exact bucketOf_outOfBounds_iff.2 (hclamped.trans_lt (bucketOf_outOfBounds_iff.1 hout))

theorem evidence_helps_mid_market :
    let f : FirmographicEstimate := ⟨"mid", "saas", 8 / 10, 6 / 10⟩
    let v := valuation plainNumbers f ["trust_page_added"] false (1 / 2) 0
    let v' := valuation plainNumbers f ["trust_page_added", "procurement_review"] false (1 / 2) 0
    v.icp.score ≤ v'.icp.score ∧
    (v.icp.bucket ≠ .outOfBounds → v'.icp.bucket ≠ .outOfBounds) ∧
    v.urgency.monetizationProb ≤ v'.urgency.monetizationProb ∧
    0 ≤ v.deal.expectedValue ∧ v.deal.expectedValue ≤ v'.deal.expectedValue ∧
    v'.deal.expectedValue ≤ v'.deal.monthlyValueEstimate ∧
    v'.deal.monthlyValueEstimate = v.deal.monthlyValueEstimate :=
  evidence_helps _ _ _ _ _
    (List.subset_append_left ["trust_page_added"] ["procurement_review"])

end TrustCopilot.DealValue
