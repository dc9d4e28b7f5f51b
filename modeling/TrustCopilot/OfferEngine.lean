import TrustCopilot.Library.OrderedDict
import Mathlib.Algebra.Order.Ring.Rat
import Mathlib.Tactic.Linarith

/-! The fixed-price offers: a table of plans with their minima, and the selection of one of them
for an account. Scores and percentages are exact rationals; times are microseconds. -/
namespace TrustCopilot.OfferEngine

open TrustCopilot.OrderedDict

inductive BillingType where
  | oneTime
  | monthly
  | annual
  deriving DecidableEq, Repr

structure OfferPlan where
  planId : String
  name : String
  priceCents : ℕ
  currency : String := "usd"
  billingType : BillingType := .oneTime
  creditToSubscription : Bool := false
  creditAmountCents : ℕ := 0
  expiryDays : ℕ := 14
  minIcpScore : ℚ := 0
  minAnsweredPct : ℚ := 0
  maxDealTier : String := "enterprise"
  deriving DecidableEq, Repr

def pilotOneTime : OfferPlan where
  planId := "pilot_one_time"
  name := "Pilot — One Questionnaire"
  priceCents := 29900
  billingType := .oneTime
  creditToSubscription := true
  creditAmountCents := 29900
  expiryDays := 14
  minAnsweredPct := 50

def proMonthly : OfferPlan where
  planId := "pro_monthly"
  name := "Pro — Monthly"
  priceCents := 49900
  billingType := .monthly
  expiryDays := 7
  minIcpScore := 4 / 10

def businessMonthly : OfferPlan where
  planId := "business_monthly"
  name := "Business — Monthly"
  priceCents := 99900
  billingType := .monthly
  expiryDays := 7
  minIcpScore := 5 / 10

def enterpriseAnnual : OfferPlan where
  planId := "enterprise_annual"
  name := "Enterprise — Annual"
  priceCents := 250000
  billingType := .annual
  expiryDays := 30
  minIcpScore := 6 / 10
  maxDealTier := "enterprise"

/-- `PLANS` -/
def plans : Dict String OfferPlan :=
  ⟨[("pilot_one_time", pilotOneTime), ("pro_monthly", proMonthly),
    ("business_monthly", businessMonthly), ("enterprise_annual", enterpriseAnnual)], by decide⟩

structure OfferSelection where
  plan : OfferPlan
  expiresAt : ℤ
  reasoning : String
  eligible : Bool := true
  deriving DecidableEq, Repr

def Eligible (plan : OfferPlan) (icpScore answeredPct : ℚ) : Prop :=
  plan.minIcpScore ≤ icpScore ∧ plan.minAnsweredPct ≤ answeredPct

instance (plan : OfferPlan) (icpScore answeredPct : ℚ) :
    Decidable (Eligible plan icpScore answeredPct) :=
  inferInstanceAs (Decidable (_ ∧ _))

section Selection

variable (wholeNumber : ℚ → String) (dealTier : String) (icpScore answeredPct : ℚ)
  (hasProof : Bool)

def choosePlan : OfferPlan × String :=
  if hasProof ∧ 50 ≤ answeredPct then
    (pilotOneTime, "Proof delivered (" ++ wholeNumber answeredPct ++
      "% answered) — pilot offer with subscription credit")
  else if (dealTier = "business" ∨ dealTier = "enterprise") ∧ 6 / 10 ≤ icpScore then
    if dealTier = "enterprise" then
      (enterpriseAnnual, "Enterprise-tier account with strong ICP fit")
    else (businessMonthly, "Business-tier account with good ICP fit")
  else if 4 / 10 ≤ icpScore then (proMonthly, "Good ICP fit — Pro plan")
  else (pilotOneTime, "Default pilot offer for initial engagement")

def days (n : ℕ) : ℤ := n * 86400000000

def selectOffer (now : ℤ) (dealTier : String) (icpScore : ℚ) (answeredPct : ℚ := 0)
    (hasProof : Bool := false) : OfferSelection :=
  let choice := choosePlan wholeNumber dealTier icpScore answeredPct hasProof
  { plan := choice.1
    expiresAt := now + days choice.1.expiryDays
    reasoning := choice.2
    eligible := Eligible choice.1 icpScore answeredPct }

/-- What each branch has tested when it takes its plan. -/
theorem choosePlan_cases :
    let plan := (choosePlan wholeNumber dealTier icpScore answeredPct hasProof).1
    plan = pilotOneTime ∧ 50 ≤ answeredPct ∨ plan = enterpriseAnnual ∧ 6 / 10 ≤ icpScore ∨
      plan = businessMonthly ∧ 6 / 10 ≤ icpScore ∨ plan = proMonthly ∧ 4 / 10 ≤ icpScore ∨
      plan = pilotOneTime ∧ icpScore < 4 / 10 := by
  simp only [choosePlan]
  split
  · next h => exact Or.inl ⟨rfl, h.2⟩
  · split
    · next h =>
      split
      · exact Or.inr (Or.inl ⟨rfl, h.2⟩)
      · exact Or.inr (Or.inr (Or.inl ⟨rfl, h.2⟩))
    · split
      · next h => exact Or.inr (Or.inr (Or.inr (Or.inl ⟨rfl, h⟩)))
      · next h => exact Or.inr (Or.inr (Or.inr (Or.inr ⟨rfl, not_le.1 h⟩)))

theorem mem_plans {plan : OfferPlan} : plan ∈ plans.values ↔
    plan = pilotOneTime ∨ plan = proMonthly ∨ plan = businessMonthly ∨ plan = enterpriseAnnual := by
  simp [plans, Dict.values]

theorem choosePlan_mem :
    (choosePlan wholeNumber dealTier icpScore answeredPct hasProof).1 ∈ plans.values := by
  rw [mem_plans]
  rcases choosePlan_cases wholeNumber dealTier icpScore answeredPct hasProof with
    ⟨h, -⟩ | ⟨h, -⟩ | ⟨h, -⟩ | ⟨h, -⟩ | ⟨h, -⟩
  · exact Or.inl h
  · exact Or.inr (Or.inr (Or.inr h))
  · exact Or.inr (Or.inr (Or.inl h))
  · exact Or.inr (Or.inl h)
  · exact Or.inl h

/-- The accounts that any plan is for. -/
theorem exists_eligible_iff : (∃ plan ∈ plans.values, Eligible plan icpScore answeredPct) ↔
    0 ≤ icpScore ∧ 0 ≤ answeredPct ∧ (50 ≤ answeredPct ∨ 4 / 10 ≤ icpScore) := by
  constructor
  · rintro ⟨plan, hplan, hicp, hanswered⟩
    rcases mem_plans.1 hplan with rfl | rfl | rfl | rfl
    · change (0 : ℚ) ≤ icpScore at hicp
      change (50 : ℚ) ≤ answeredPct at hanswered
      exact ⟨hicp, by linarith, Or.inl hanswered⟩
    · change (4 / 10 : ℚ) ≤ icpScore at hicp
      exact ⟨by linarith, hanswered, Or.inr hicp⟩
    · change (5 / 10 : ℚ) ≤ icpScore at hicp
      exact ⟨by linarith, hanswered, Or.inr (by linarith)⟩
    · change (6 / 10 : ℚ) ≤ icpScore at hicp
      exact ⟨by linarith, hanswered, Or.inr (by linarith)⟩
  · rintro ⟨hicp, hanswered, hhigh | hfit⟩
    · exact ⟨pilotOneTime, mem_plans.2 (Or.inl rfl), hicp, hhigh⟩
    · exact ⟨proMonthly, mem_plans.2 (Or.inr (Or.inl rfl)), hfit, hanswered⟩

theorem choosePlan_eligible (h : ∃ plan ∈ plans.values, Eligible plan icpScore answeredPct) :
    Eligible (choosePlan wholeNumber dealTier icpScore answeredPct hasProof).1 icpScore
      answeredPct := by
  obtain ⟨hicp, hanswered, hreason⟩ := (exists_eligible_iff icpScore answeredPct).1 h
  rcases choosePlan_cases wholeNumber dealTier icpScore answeredPct hasProof with
    ⟨hplan, hhigh⟩ | ⟨hplan, hfit⟩ | ⟨hplan, hfit⟩ | ⟨hplan, hfit⟩ | ⟨hplan, hlow⟩
  · rw [hplan]
    exact ⟨hicp, hhigh⟩
  · rw [hplan]
    exact ⟨hfit, hanswered⟩
  · rw [hplan]
    have hfive : (5 / 10 : ℚ) ≤ icpScore := by linarith
    exact ⟨hfive, hanswered⟩
  · rw [hplan]
    exact ⟨hfit, hanswered⟩
  · rw [hplan]
    -- the default offer: no other plan takes so low a score
    exact ⟨hicp, hreason.resolve_right (not_le.2 hlow)⟩

/-- The selection is ineligible only where every plan is, and its flag tells. -/
theorem selectOffer_eligible_iff (now : ℤ) :
    let r := selectOffer wholeNumber now dealTier icpScore answeredPct hasProof
    ((∃ plan ∈ plans.values, Eligible plan icpScore answeredPct) →
      Eligible r.plan icpScore answeredPct) ∧
    (r.eligible = true ↔ ∃ plan ∈ plans.values, Eligible plan icpScore answeredPct) := by
  intro r
  have hchosen : r.eligible = true ↔ Eligible r.plan icpScore answeredPct := decide_eq_true_iff
  have hbest := choosePlan_eligible wholeNumber dealTier icpScore answeredPct hasProof
  refine ⟨hbest, fun h => ?_, fun h => hchosen.2 (hbest h)⟩
  exact ⟨r.plan, choosePlan_mem wholeNumber dealTier icpScore answeredPct hasProof, hchosen.1 h⟩

end Selection

example : (selectOffer toString 0 "enterprise" (55 / 100) 80).plan = proMonthly := by
  decide +kernel

end TrustCopilot.OfferEngine
