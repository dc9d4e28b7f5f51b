import TrustCopilot.Recontact
import Mathlib.Data.Rat.Defs
import Mathlib.Algebra.Order.Ring.Rat

/-! The contact decision: hard blocks, the memory of the account, then a composite score.
Scores are exact rationals. -/
namespace TrustCopilot.ContactDecision

open TrustCopilot.Recontact

inductive IcpBucket where
  | strongFit
  | goodFit
  | marginal
  | outOfBounds
  deriving DecidableEq, Repr

structure ICPScore where
  score : ℚ
  bucket : IcpBucket
  matchedRules : List String := []
  penalties : List String := []
  explanation : String := ""

structure UrgencyScore where
  urgency : ℚ
  monetizationProb : ℚ
  urgencyExplanation : String
  monetizationExplanation : String

structure DealValueEstimate where
  monthlyValueEstimate : ℤ
  ltvBucket : String
  expectedValue : ℤ
  tier : String
  explanation : String

structure ContactSlot where
  rank : ℕ
  name : String
  role : String
  normalizedRole : String
  roleFitScore : ℚ
  confidence : ℚ
  evidenceUrl : String := ""
  stopIfNoResponse : Bool := false

structure ContactPlan where
  accountId : String
  slots : List ContactSlot := []
  maxAttempts : ℤ := 3
  stopReason : String := ""

inductive CompetitorEffect where
  | block
  | soften
  | reposition
  deriving DecidableEq, Repr

structure CompetitorHit where
  competitor : String
  evidenceSnippet : String
  evidenceUrl : String
  confidence : ℚ
  effect : CompetitorEffect
  reason : String

def blockThreshold : ℚ := 70 / 100

def hasBlockingCompetitor (hits : List CompetitorHit) (threshold : ℚ) : Bool :=
  hits.any fun h => h.effect = .block ∧ threshold ≤ h.confidence

inductive Decision where
  | contact
  | noContact
  | defer
  deriving DecidableEq, Repr

def Decision.value : Decision → String
  | .contact => "contact"
  | .noContact => "no_contact"
  | .defer => "defer"

inductive SendWindow where
  | immediate
  | nextWeek
  | nextMonth
  | none
  deriving DecidableEq, Repr

def SendWindow.value : SendWindow → String
  | .immediate => "immediate"
  | .nextWeek => "next_week"
  | .nextMonth => "next_month"
  | .none => "none"

structure ContactDecisionResult where
  decision : Decision
  priorityTier : ℕ
  targetRole : String
  sendWindowHint : SendWindow
  reasonCodes : List String := []
  explanation : String := ""
  expectedValue : ℤ := 0
  deriving DecidableEq, Repr

/-- How the explanations print a time and a composite score. -/
structure TextFormat where
  showTime : Option ℤ → String
  showScore : ℚ → String

def stop (decision : Decision) (reasons : List String) (explanation : String) :
    ContactDecisionResult where
  decision := decision
  priorityTier := 0
  targetRole := ""
  sendWindowHint := .none
  reasonCodes := reasons
  explanation := explanation

def hardBlocks (icp : ICPScore) (plan : ContactPlan) (hits : List CompetitorHit)
    (hasHardNegatives : Bool) : Except ContactDecisionResult ContactSlot :=
  if hasHardNegatives then
    .error (stop .noContact ["hard_negative_signal"] "Blocked: hard negative signal detected")
  else if hasBlockingCompetitor hits blockThreshold then
    .error (stop .noContact ["blocking_competitor"] ("Blocked: direct competitor (" ++
      (hits.head?.map CompetitorHit.competitor).getD "" ++ ") in use"))
  else if icp.bucket = .outOfBounds then
    .error (stop .noContact ["out_of_icp_bounds"] "Blocked: account outside ICP bounds")
  else
    match plan.slots with
    | [] => .error (stop .noContact ["no_contact_candidates"]
        "Blocked: no viable buyer candidates found")
    | target :: _ => .ok target

def memoryChecks (fmt : TextFormat) (memory : Option AccountMemory) (now : ℤ) :
    Except ContactDecisionResult (List String) :=
  match memory with
  | none => .ok []
  | some m =>
    if isSnoozed m now then
      .error (stop .defer ["snoozed"] ("Deferred: snoozed until " ++ fmt.showTime m.snoozeUntil))
    else if hardObjection m then
      if hasNewTrigger m then .ok ["prior_hard_objection", "reactivated_by_new_trigger"]
      else .error (stop .noContact ["prior_hard_objection"]
        "Blocked: prior hard objection with no new trigger")
    else .ok []

def isSoftening (hits : List CompetitorHit) : Bool :=
  hits.any fun h => h.effect = .soften ∨ h.effect = .reposition

def composite (icp : ICPScore) (urgency : UrgencyScore) (target : ContactSlot)
    (hits : List CompetitorHit) : ℚ :=
  (icp.score * (25 / 100) + urgency.urgency * (30 / 100) +
    urgency.monetizationProb * (25 / 100) + target.confidence * (20 / 100)) *
  (if isSoftening hits then 85 / 100 else 1) *
  (if icp.bucket = .marginal then 80 / 100 else 1)

structure PriorityTier where
  tier : ℕ
  window : SendWindow
  reason : String

def priorityTier (composite : ℚ) : PriorityTier :=
  if 70 / 100 ≤ composite then ⟨1, .immediate, "tier1_high_composite"⟩
  else if 55 / 100 ≤ composite then ⟨2, .immediate, "tier2_good_composite"⟩
  else if 40 / 100 ≤ composite then ⟨3, .nextWeek, "tier3_moderate"⟩
  else if 25 / 100 ≤ composite then ⟨4, .nextMonth, "tier4_low"⟩
  else ⟨5, .nextMonth, "tier5_minimal"⟩

def approve (fmt : TextFormat) (icp : ICPScore) (urgency : UrgencyScore)
    (dealValue : DealValueEstimate) (target : ContactSlot) (hits : List CompetitorHit)
    (reasons : List String) : ContactDecisionResult :=
  let score := composite icp urgency target hits
  let p := priorityTier score
  { decision := .contact
    priorityTier := p.tier
    targetRole := target.normalizedRole
    sendWindowHint := p.window
    reasonCodes := reasons ++ (if isSoftening hits then ["competitor_softening"] else []) ++
      (if icp.bucket = .marginal then ["marginal_icp"] else []) ++ [p.reason]
    explanation := "Contact approved: tier " ++ toString p.tier ++ ", target=" ++ target.name ++
      " (" ++ target.normalizedRole ++ "), composite=" ++ fmt.showScore score ++
      ", window=" ++ p.window.value
    expectedValue := dealValue.expectedValue }

def makeContactDecision (fmt : TextFormat) (icp : ICPScore) (urgency : UrgencyScore)
    (dealValue : DealValueEstimate) (plan : ContactPlan) (hits : List CompetitorHit)
    (hasHardNegatives : Bool) (memory : Option AccountMemory) (now : ℤ) :
    ContactDecisionResult :=
  match hardBlocks icp plan hits hasHardNegatives with
  | .error result => result
  | .ok target =>
    match memoryChecks fmt memory now with
    | .error result => result
    | .ok reasons => approve fmt icp urgency dealValue target hits reasons

variable {fmt : TextFormat} {icp : ICPScore} {urgency : UrgencyScore}
  {dealValue : DealValueEstimate} {plan : ContactPlan} {hits : List CompetitorHit}
  {hasHardNegatives : Bool} {now : ℤ}

/-- What passes the blocks is stopped by none of them, and its target is the first slot. -/
theorem hardBlocks_ok_iff {target : ContactSlot} :
    hardBlocks icp plan hits hasHardNegatives = .ok target ↔
      hasHardNegatives = false ∧ hasBlockingCompetitor hits blockThreshold = false ∧
      icp.bucket ≠ .outOfBounds ∧ plan.slots.head? = some target := by
  rw [hardBlocks]
  cases hasHardNegatives with
  | true => simp
  | false =>
    cases hasBlockingCompetitor hits blockThreshold with
    | true => simp
    | false =>
      by_cases hbucket : icp.bucket = .outOfBounds
      · simp [hbucket]
      · cases hslots : plan.slots with
        | nil => simp [hbucket]
        | cons slot rest => simp [hbucket]

theorem hardBlocks_error {result : ContactDecisionResult}
    (h : hardBlocks icp plan hits hasHardNegatives = .error result) :
    result.decision = .noContact := by
  rw [hardBlocks] at h
  split at h
  · cases h; rfl
  · split at h
    · cases h; rfl
    · split at h
      · cases h; rfl
      · split at h
        · cases h; rfl
        · cases h

theorem memoryChecks_error {memory : Option AccountMemory} {result : ContactDecisionResult}
    (h : memoryChecks fmt memory now = .error result) : result.decision ≠ .contact := by
  cases memory with
  | none => cases h
  | some m =>
    simp only [memoryChecks] at h
    split at h
    · cases h; exact nofun
    · split at h
      · split at h
        · cases h
        · cases h; exact nofun
      · cases h

theorem makeContactDecision_ok {memory : Option AccountMemory} {target : ContactSlot}
    {reasons : List String} (hb : hardBlocks icp plan hits hasHardNegatives = .ok target)
    (hm : memoryChecks fmt memory now = .ok reasons) :
    makeContactDecision fmt icp urgency dealValue plan hits hasHardNegatives memory now =
      approve fmt icp urgency dealValue target hits reasons := by
  rw [makeContactDecision, hb]
  simp only [hm]

/-- An account is contacted exactly if it passes the blocks and the checks of its memory. -/
theorem contacted_iff {memory : Option AccountMemory} :
    (makeContactDecision fmt icp urgency dealValue plan hits hasHardNegatives memory
      now).decision = .contact ↔
    ∃ target reasons, hardBlocks icp plan hits hasHardNegatives = .ok target ∧
      memoryChecks fmt memory now = .ok reasons := by
  constructor
  · intro h
    rw [makeContactDecision] at h
    cases hb : hardBlocks icp plan hits hasHardNegatives with
    | error result =>
      rw [hb] at h
      have hblocked : Decision.contact = .noContact := h.symm.trans (hardBlocks_error hb)
      cases hblocked
    | ok target =>
      rw [hb] at h
      cases hm : memoryChecks fmt memory now with
      | error result =>
        simp only [hm] at h
        exact absurd h (memoryChecks_error hm)
      | ok reasons => exact ⟨target, reasons, rfl, rfl⟩
  · rintro ⟨target, reasons, hb, hm⟩
    rw [makeContactDecision_ok hb hm]
    rfl

theorem memoryChecks_objection {m : AccountMemory} {reasons : List String}
    (h : memoryChecks fmt (some m) now = .ok reasons) (hard : hardObjection m = true) :
    hasNewTrigger m = true := by
  simp only [memoryChecks, hard, if_true] at h
  split at h
  · cases h
  · split at h
    · next ht => exact ht
    · cases h

/-- Once an account has opted out it is contacted again only if, since the latest outcome, a
reactivation signal has come when the cooldown was over. -/
theorem opted_out_contacted_only_reopened {accountId tag : String} {events : List MemoryEvent}
    (hclock : ClockForward events) (hrec : TagRecorded tag events)
    (htag : tag = "unsubscribed" ∨ tag = "do_not_contact") :
    (∀ now, (shouldRecontact (run accountId events) now).1 = true → Reopened events) ∧
    ∀ fmt icp urgency dealValue plan hits hasHardNegatives now,
      (makeContactDecision fmt icp urgency dealValue plan hits hasHardNegatives
        (some (run accountId events)) now).decision = .contact → Reopened events := by
  have hard : tag ∈ hardTags := by
    rcases htag with rfl | rfl
    · decide
    · decide
  have hobj : hardObjection (run accountId events) = true :=
    recorded_hardObjection hclock hrec hard
  obtain ⟨o, ho, -⟩ := hrec
  constructor
  · intro now h
    exact new_trigger_reopened hclock ho (shouldRecontact_objection h hobj)
  · intro fmt icp urgency dealValue plan hits hasHardNegatives now h
    obtain ⟨-, reasons, -, hm⟩ := contacted_iff.1 h
    exact new_trigger_reopened hclock ho (memoryChecks_objection hm hobj)

def optOutThenFunding : List MemoryEvent :=
  [.outcome ⟨"negative_reply", ["unsubscribed"], none, 0, 0⟩,
    .signals ⟨["funding_round"], days 90, days 90⟩]

theorem funding_reopens : Reopened optOutThenFunding :=
  have hcontact : (shouldRecontact (run "acc-1" optOutThenFunding) (days 90)).1 = true := by
    decide
  (opted_out_contacted_only_reopened (by decide) ⟨_, List.mem_cons_self, List.mem_cons_self⟩
    (Or.inl rfl)).1 (days 90) hcontact

theorem opted_out_contacted_again :
    ClockForward optOutThenFunding ∧ TagRecorded "unsubscribed" optOutThenFunding ∧
    shouldRecontact (run "acc-1" optOutThenFunding) (days 90) =
      (true, .reactivatedBy ["funding_round"]) ∧
    (makeContactDecision ⟨fun _ => "", fun _ => ""⟩ ⟨8 / 10, .strongFit, [], [], ""⟩
      ⟨7 / 10, 7 / 10, "", ""⟩ ⟨50000, "high", 35000, "pro", ""⟩
      ⟨"acc-1", [⟨1, "Alice", "CTO", "cto", 1, 8 / 10, "", false⟩], 1, ""⟩
      [] false (some (run "acc-1" optOutThenFunding)) (days 90)).decision = .contact :=
  ⟨by decide, ⟨_, List.mem_cons_self, List.mem_cons_self⟩, by decide, by decide⟩

end TrustCopilot.ContactDecision
