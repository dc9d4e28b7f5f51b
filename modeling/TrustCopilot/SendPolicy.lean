import TrustCopilot.Library.DictPatch
import Mathlib.Algebra.Order.Field.Rat

/-! The policy engine: the rules that a send is held against, and the decision with its reasons.
Scores are exact rationals. -/
namespace TrustCopilot.SendPolicy

open TrustCopilot.DictPatch
open TrustCopilot.OrderedDict

inductive PolicyVerdict where
  | allow
  | deny
  | snooze
  deriving DecidableEq, Repr

inductive RuleID where
  | systemPause
  | suppressionCheck
  | approvedCountry
  | approvedRecipientType
  | minContactScore
  | triggerStaleness
  | mailboxHealth
  | footerRequired
  | unsubscribeRequired
  | buyerConfidenceMin
  | icpMinimum
  deriving DecidableEq, Repr

structure RuleResult where
  ruleId : RuleID
  passed : Bool
  reason : String
  deriving DecidableEq, Repr

structure PolicyDecisionResult where
  verdict : PolicyVerdict
  ruleResults : List RuleResult := []
  denyReasons : List String := []
  explanation : String := ""
  deriving DecidableEq, Repr

def PolicyDecisionResult.allowed (d : PolicyDecisionResult) : Prop := d.verdict = .allow

def approvedCountries : List String :=
  ["US", "CA", "GB", "DE", "FR", "AU", "NL", "SE", "IE", "NZ", "SG"]

def approvedRecipientTypes : List String := ["business", "professional"]

def defaultThresholds : Dict String ℚ :=
  ⟨[("min_contact_score", 25 / 100), ("max_trigger_age_days", 90),
    ("min_buyer_confidence", 30 / 100), ("min_icp_score", 25 / 100),
    ("min_mailbox_health", 5 / 10)], by decide⟩

/-- `PolicyEngine(thresholds)`: what is given goes over the defaults. -/
structure PolicyEngine where
  thresholds : Dict String ℚ

def policyEngine (thresholds : Option (Dict String ℚ) := none) : PolicyEngine :=
  ⟨assignAll defaultThresholds (thresholds.getD Dict.empty).entries⟩

/-- `self.thresholds[name]`. The defaults have every name, so none is ever missing. -/
def PolicyEngine.threshold (engine : PolicyEngine) (name : String) : ℚ :=
  (engine.thresholds.get? name).getD 0

structure SendFacts where
  country : String := "US"
  recipientType : String := "business"
  contactScore : ℚ := 5 / 10
  triggerAgeDays : ℚ := 0
  isSuppressed : Bool := false
  mailboxHealth : ℚ := 1
  hasFooter : Bool := true
  hasUnsubscribe : Bool := true
  buyerConfidence : ℚ := 5 / 10
  icpScore : ℚ := 5 / 10
  systemPaused : Bool := false
  deriving DecidableEq, Repr

/-- `str.upper`, and how the reasons print numbers: `:.2f`, `:.0f` and a threshold as it was
given. -/
structure Texts where
  upper : String → String
  twoDecimals : ℚ → String
  noDecimals : ℚ → String
  plain : ℚ → String

def check (ruleId : RuleID) (passed : Prop) [Decidable passed] (reason : String) : RuleResult :=
  ⟨ruleId, passed, reason⟩

def ruleResults (texts : Texts) (engine : PolicyEngine) (f : SendFacts) : List RuleResult := [
  check .systemPause (f.systemPaused = false) "System is paused — all sends blocked",
  check .suppressionCheck (f.isSuppressed = false) "Recipient is on suppression list",
  check .approvedCountry (texts.upper f.country ∈ approvedCountries)
    ("Country " ++ f.country ++ " not in approved list"),
  check .approvedRecipientType (f.recipientType ∈ approvedRecipientTypes)
    ("Recipient type " ++ f.recipientType ++ " not approved"),
  check .minContactScore (engine.threshold "min_contact_score" ≤ f.contactScore)
    ("Contact score " ++ texts.twoDecimals f.contactScore ++ " below minimum " ++
      texts.plain (engine.threshold "min_contact_score")),
  check .triggerStaleness (f.triggerAgeDays ≤ engine.threshold "max_trigger_age_days")
    ("Trigger age " ++ texts.noDecimals f.triggerAgeDays ++ "d exceeds " ++
      texts.plain (engine.threshold "max_trigger_age_days") ++ "d"),
  check .mailboxHealth (engine.threshold "min_mailbox_health" ≤ f.mailboxHealth)
    ("Mailbox health " ++ texts.twoDecimals f.mailboxHealth ++ " below minimum"),
  check .footerRequired (f.hasFooter = true) "Message missing required footer content",
  check .unsubscribeRequired (f.hasUnsubscribe = true) "Message missing unsubscribe mechanism",
  check .buyerConfidenceMin (engine.threshold "min_buyer_confidence" ≤ f.buyerConfidence)
    ("Buyer confidence " ++ texts.twoDecimals f.buyerConfidence ++ " below minimum"),
  check .icpMinimum (engine.threshold "min_icp_score" ≤ f.icpScore)
    ("ICP score " ++ texts.twoDecimals f.icpScore ++ " below minimum")]

def evaluate (texts : Texts) (engine : PolicyEngine) (f : SendFacts) : PolicyDecisionResult :=
  let results := ruleResults texts engine f
  let denies := (results.filter fun r => !r.passed).map RuleResult.reason
  if denies = [] then
    { verdict := .allow
      ruleResults := results
      denyReasons := denies
      explanation := "All policy checks passed" }
  else
    { verdict := .deny
      ruleResults := results
      denyReasons := denies
      explanation := "DENIED: " ++ "; ".intercalate denies }

variable {texts : Texts} {engine engine' : PolicyEngine} {f f' : SendFacts}

theorem results_eq (texts : Texts) (engine : PolicyEngine) (f : SendFacts) :
    (evaluate texts engine f).ruleResults = ruleResults texts engine f := by
  rw [evaluate]
  split <;> rfl

theorem denyReasons_eq (texts : Texts) (engine : PolicyEngine) (f : SendFacts) :
    (evaluate texts engine f).denyReasons =
      ((ruleResults texts engine f).filter fun r => !r.passed).map RuleResult.reason := by
  rw [evaluate]
  split <;> rfl

theorem allowed_iff : (evaluate texts engine f).allowed ↔
    (evaluate texts engine f).denyReasons = [] := by
  rw [denyReasons_eq, PolicyDecisionResult.allowed, evaluate]
  split
  · next h => exact iff_of_true rfl h
  · next h => exact iff_of_false (fun hallow => by cases hallow) h

def Kept (x y : RuleResult) : Prop := y.ruleId = x.ruleId ∧ (x.passed = true → y.passed = true)

theorem check_kept {ruleId : RuleID} {p q : Prop} [Decidable p] [Decidable q]
    {reason reason' : String} (h : p → q) : Kept (check ruleId p reason) (check ruleId q reason') :=
  ⟨rfl, fun hp => decide_eq_true (h (of_decide_eq_true hp))⟩

theorem failed_length {xs ys : List RuleResult} (h : List.Forall₂ Kept xs ys) :
    (ys.filter fun r => !r.passed).length ≤ (xs.filter fun r => !r.passed).length := by
  induction h with
  | nil => exact le_refl _
  | @cons x y xs ys hxy _ ih =>
    rw [← List.countP_eq_length_filter, ← List.countP_eq_length_filter] at ih ⊢
    rw [List.countP_cons, List.countP_cons]
    obtain ⟨-, hkept⟩ := hxy
    cases hx : x.passed with
    | false => simp only [Bool.not_false, if_true]; split <;> omega
    | true => simp only [hkept hx, Bool.not_true]; omega

/-- The second send is no worse in anything that is looked at, and is held to no stricter
thresholds. -/
structure NoWorse (texts : Texts) (engine : PolicyEngine) (f : SendFacts) (engine' : PolicyEngine)
    (f' : SendFacts) : Prop where
  country : texts.upper f.country ∈ approvedCountries → texts.upper f'.country ∈ approvedCountries
  recipientType : f.recipientType ∈ approvedRecipientTypes →
    f'.recipientType ∈ approvedRecipientTypes
  contactScore : f.contactScore ≤ f'.contactScore
  triggerAgeDays : f'.triggerAgeDays ≤ f.triggerAgeDays
  isSuppressed : f'.isSuppressed = true → f.isSuppressed = true
  mailboxHealth : f.mailboxHealth ≤ f'.mailboxHealth
  hasFooter : f.hasFooter = true → f'.hasFooter = true
  hasUnsubscribe : f.hasUnsubscribe = true → f'.hasUnsubscribe = true
  buyerConfidence : f.buyerConfidence ≤ f'.buyerConfidence
  icpScore : f.icpScore ≤ f'.icpScore
  systemPaused : f'.systemPaused = true → f.systemPaused = true
  minimum : ∀ name ∈ ["min_contact_score", "min_buyer_confidence", "min_icp_score",
    "min_mailbox_health"], engine'.threshold name ≤ engine.threshold name
  maximum : engine.threshold "max_trigger_age_days" ≤ engine'.threshold "max_trigger_age_days"

theorem not_true_of {a b : Bool} (h : b = true → a = true) : a = false → b = false := by
  cases a <;> cases b <;> simp_all

theorem ruleResults_kept (h : NoWorse texts engine f engine' f') :
    List.Forall₂ Kept (ruleResults texts engine f) (ruleResults texts engine' f') := by
  have hmin : ∀ {name : String} {x y : ℚ}, name ∈ ["min_contact_score", "min_buyer_confidence",
      "min_icp_score", "min_mailbox_health"] → x ≤ y → engine.threshold name ≤ x →
      engine'.threshold name ≤ y :=
    fun hname hxy hx => (h.minimum _ hname).trans (hx.trans hxy)
  rw [ruleResults, ruleResults]
  refine .cons (check_kept (not_true_of h.systemPaused)) ?_
  refine .cons (check_kept (not_true_of h.isSuppressed)) ?_
  refine .cons (check_kept h.country) (.cons (check_kept h.recipientType) ?_)
  refine .cons (check_kept (hmin (by decide) h.contactScore)) ?_
  refine .cons (check_kept fun hage => (h.triggerAgeDays.trans hage).trans h.maximum) ?_
  refine .cons (check_kept (hmin (by decide) h.mailboxHealth)) ?_
  refine .cons (check_kept h.hasFooter) (.cons (check_kept h.hasUnsubscribe) ?_)
  refine .cons (check_kept (hmin (by decide) h.buyerConfidence)) ?_
  exact .cons (check_kept (hmin (by decide) h.icpScore)) .nil

/-- A send that is no worse than another, and held to no stricter thresholds, passes every rule that
the other passes: it is denied for no more reasons, and allowed if the other is. -/
theorem evaluate_monotone (h : NoWorse texts engine f engine' f') :
    let d := evaluate texts engine f
    let d' := evaluate texts engine' f'
    List.Forall₂ Kept d.ruleResults d'.ruleResults ∧
      d'.denyReasons.length ≤ d.denyReasons.length ∧ (d.allowed → d'.allowed) := by
  intro d d'
  have hkept := ruleResults_kept h
  have hfewer : d'.denyReasons.length ≤ d.denyReasons.length := by
    rw [denyReasons_eq, denyReasons_eq, List.length_map, List.length_map]
    exact failed_length hkept
  refine ⟨?_, hfewer, fun hallowed => ?_⟩
  · rw [results_eq, results_eq]
    exact hkept
  · rw [allowed_iff] at hallowed ⊢
    rw [hallowed] at hfewer
    exact List.eq_nil_of_length_eq_zero (Nat.le_zero.1 hfewer)

def plainTexts : Texts := ⟨String.toUpper, toString, toString, toString⟩

def strict : PolicyEngine := policyEngine (some ⟨[("min_contact_score", 9 / 10)], by decide⟩)

def weak : SendFacts := { contactScore := 8 / 10 }

def better : SendFacts := { country := "DE", contactScore := 95 / 100 }

theorem better_noWorse : NoWorse plainTexts strict weak (policyEngine none) better where
  country := by decide +kernel
  recipientType := id
  contactScore := by decide +kernel
  triggerAgeDays := le_refl _
  isSuppressed := id
  mailboxHealth := le_refl _
  hasFooter := id
  hasUnsubscribe := id
  buyerConfidence := le_refl _
  icpScore := le_refl _
  systemPaused := id
  minimum := by decide +kernel
  maximum := by decide +kernel

/-- A score that misses a raised minimum, and a better one from Germany under the defaults. -/
theorem evaluate_monotone_better :
    (evaluate plainTexts (policyEngine none) better).denyReasons.length ≤
      (evaluate plainTexts strict weak).denyReasons.length :=
  (evaluate_monotone better_noWorse).2.1

end TrustCopilot.SendPolicy
