import TrustCopilot.ContactDecision
import Mathlib.Algebra.Order.Field.Rat
import Mathlib.Tactic.Linarith

/-! How the decision and the strategy respond to stronger evidence of competitors. A hit blocks
from a threshold on, and a blocking effect below the threshold is none of those that lower the
score. -/
namespace TrustCopilot.CompetitorEvidence

open TrustCopilot.Recontact
open TrustCopilot.ContactDecision

inductive StrategyEffect where
  | noCompetitor
  | reposition
  | soften
  | block
  deriving DecidableEq, Repr

def softens (hits : List CompetitorHit) : Bool := hits.any fun h => h.effect = .soften

def competitorStrategyEffect (hits : List CompetitorHit) : StrategyEffect :=
  if hits = [] then .noCompetitor
  else if hasBlockingCompetitor hits blockThreshold then .block
  else if softens hits then .soften
  else .reposition

def StrategyEffect.rank : StrategyEffect → ℕ
  | .noCompetitor => 0
  | .reposition => 1
  | .soften => 2
  | .block => 3

def effectRank : CompetitorEffect → ℕ
  | .reposition => 0
  | .soften => 1
  | .block => 2

inductive Strengthening where
  | add (before : List CompetitorHit) (h : CompetitorHit) (after : List CompetitorHit)
  | raise (before : List CompetitorHit) (h : CompetitorHit) (effect : CompetitorEffect)
      (after : List CompetitorHit) (higher : effectRank h.effect < effectRank effect)

def Strengthening.weaker : Strengthening → List CompetitorHit
  | .add before _ after => before ++ after
  | .raise before h _ after _ => before ++ h :: after

def Strengthening.stronger : Strengthening → List CompetitorHit
  | .add before h after => before ++ h :: after
  | .raise before h effect after _ => before ++ { h with effect := effect } :: after

/-- With the other hits, whatever else the decision looks at, an account is not contacted that
was not, none gets a better tier, and the effect on the strategy is no lower. -/
def NeverHelps (hits hits' : List CompetitorHit) : Prop :=
  (∀ fmt icp urgency dealValue plan hasHardNegatives memory now,
    let r := makeContactDecision fmt icp urgency dealValue plan hits hasHardNegatives memory now
    let r' := makeContactDecision fmt icp urgency dealValue plan hits' hasHardNegatives memory now
    (r'.decision = .contact → r.decision = .contact) ∧
    (r.decision = .contact → r'.decision = .contact → r.priorityTier ≤ r'.priorityTier)) ∧
  (competitorStrategyEffect hits).rank ≤ (competitorStrategyEffect hits').rank

/-- A hit whose effect is raised to a block that it is too uncertain for does not leave the
other hits without the effect that it had. -/
def Strengthening.KeepsEffect : Strengthening → Prop
  | .add .. => True
  | .raise before h effect after _ =>
    effect = .block → h.confidence < blockThreshold →
    hasBlockingCompetitor (before ++ after) blockThreshold = false →
      isSoftening (before ++ after) = true ∧
      (h.effect = .soften → softens (before ++ after) = true)

instance (c : Strengthening) : Decidable c.KeepsEffect :=
  match c with
  | .add .. => isTrue trivial
  | .raise .. => inferInstanceAs (Decidable (_ → _ → _ → _))

/-! ### Tiers -/

theorem priorityTier_antitone {a b : ℚ} (h : a ≤ b) :
    (priorityTier b).tier ≤ (priorityTier a).tier := by
  simp only [priorityTier]
  split_ifs <;> first | decide | linarith

theorem priorityTier_le (a : ℚ) : (priorityTier a).tier ≤ 5 := by
  simp only [priorityTier]
  split_ifs <;> decide

theorem priorityTier_negative {a : ℚ} (h : a < 0) : (priorityTier a).tier = 5 := by
  simp only [priorityTier]
  split_ifs <;> first | rfl | linarith

variable {fmt : TextFormat} {icp : ICPScore} {urgency : UrgencyScore}
  {dealValue : DealValueEstimate} {plan : ContactPlan} {hits hits' : List CompetitorHit}
  {hasHardNegatives : Bool} {memory : Option AccountMemory} {now : ℤ}

theorem penalty_tier (icp : ICPScore) (urgency : UrgencyScore) (target : ContactSlot)
    (h : isSoftening hits = true → isSoftening hits' = true) :
    (priorityTier (composite icp urgency target hits)).tier ≤
      (priorityTier (composite icp urgency target hits')).tier := by
  cases hs' : isSoftening hits' with
  | false =>
    have hs : isSoftening hits = false := by
      by_contra hs
      rw [Bool.not_eq_false] at hs
      rw [h hs] at hs'
      cases hs'
    rw [composite, composite, hs, hs']
  | true =>
    cases hs : isSoftening hits with
    | true => rw [composite, composite, hs, hs']
    | false =>
      simp only [composite, hs, hs', if_true, Bool.false_eq_true, if_false, mul_one]
      generalize icp.score * (25 / 100) + urgency.urgency * (30 / 100) +
        urgency.monetizationProb * (25 / 100) + target.confidence * (20 / 100) = score
      by_cases hscore : 0 ≤ score
      · refine priorityTier_antitone ?_
        split_ifs <;> linarith
      · rw [priorityTier_negative (a := score * (85 / 100) * _)]
        · exact priorityTier_le _
        · split_ifs <;> linarith

/-! ### The decision -/

theorem contact_tier {target : ContactSlot} {reasons : List String}
    (hb : hardBlocks icp plan hits hasHardNegatives = .ok target)
    (hm : memoryChecks fmt memory now = .ok reasons) :
    (makeContactDecision fmt icp urgency dealValue plan hits hasHardNegatives memory
      now).priorityTier = (priorityTier (composite icp urgency target hits)).tier := by
  rw [makeContactDecision_ok hb hm]
  rfl

def evenIcp : ICPScore := { score := 70 / 100, bucket := .strongFit }

def evenUrgency : UrgencyScore := ⟨70 / 100, 70 / 100, "", ""⟩

def evenSlot : ContactSlot where
  rank := 1
  name := "Ada"
  role := "CTO"
  normalizedRole := "cto"
  roleFitScore := 1
  confidence := 70 / 100

def evenPlan : ContactPlan := { accountId := "acc-1", slots := [evenSlot] }

def evenValue : DealValueEstimate := ⟨0, "", 0, "", ""⟩

def plainFormat : TextFormat := ⟨fun _ => "", fun _ => ""⟩

theorem evenSlot_tier (hits : List CompetitorHit) :
    (priorityTier (composite evenIcp evenUrgency evenSlot hits)).tier =
      if isSoftening hits then 2 else 1 := by
  rw [composite]
  cases isSoftening hits with
  | true => decide +kernel
  | false => decide +kernel

theorem decision_never_helps_iff :
    (∀ fmt icp urgency dealValue plan hasHardNegatives memory now,
      let r := makeContactDecision fmt icp urgency dealValue plan hits hasHardNegatives memory now
      let r' :=
        makeContactDecision fmt icp urgency dealValue plan hits' hasHardNegatives memory now
      (r'.decision = .contact → r.decision = .contact) ∧
      (r.decision = .contact → r'.decision = .contact → r.priorityTier ≤ r'.priorityTier)) ↔
    (hasBlockingCompetitor hits' blockThreshold = false →
      hasBlockingCompetitor hits blockThreshold = false ∧
      (isSoftening hits = true → isSoftening hits' = true)) := by
  constructor
  · intro h hb'
    obtain ⟨hcontact, htier⟩ :=
      h plainFormat evenIcp evenUrgency evenValue evenPlan false none 0
    have hok' : hardBlocks evenIcp evenPlan hits' false = .ok evenSlot :=
      hardBlocks_ok_iff.2 ⟨rfl, hb', (fun he => by cases he), rfl⟩
    have hmemory : memoryChecks plainFormat none 0 = .ok [] := rfl
    have hc' : (makeContactDecision plainFormat evenIcp evenUrgency evenValue evenPlan hits' false
        none 0).decision = .contact := contacted_iff.2 ⟨evenSlot, [], hok', hmemory⟩
    have hc := hcontact hc'
    obtain ⟨target, reasons, hok, hm⟩ := contacted_iff.1 hc
    have hparts := hardBlocks_ok_iff.1 hok
    refine ⟨hparts.2.1, fun hs => ?_⟩
    have hle := htier hc hc'
    obtain rfl : target = evenSlot := (Option.some.inj hparts.2.2.2).symm
    rw [contact_tier hok hm, contact_tier hok' hmemory, evenSlot_tier, evenSlot_tier, hs] at hle
    by_contra hs'
    rw [if_pos rfl, if_neg hs'] at hle
    exact absurd hle (by decide)
  · intro h fmt icp urgency dealValue plan hasHardNegatives memory now
    have hback : ∀ target, hardBlocks icp plan hits' hasHardNegatives = .ok target →
        hardBlocks icp plan hits hasHardNegatives = .ok target := by
      intro target hok'
      obtain ⟨hnegatives, hfree, hrest⟩ := hardBlocks_ok_iff.1 hok'
      exact hardBlocks_ok_iff.2 ⟨hnegatives, (h hfree).1, hrest⟩
    constructor
    · intro hc'
      obtain ⟨target, reasons, hok', hm⟩ := contacted_iff.1 hc'
      exact contacted_iff.2 ⟨target, reasons, hback target hok', hm⟩
    · intro _ hc'
      obtain ⟨target, reasons, hok', hm⟩ := contacted_iff.1 hc'
      rw [contact_tier (hback target hok') hm, contact_tier hok' hm]
      exact penalty_tier icp urgency target (h (hardBlocks_ok_iff.1 hok').2.1).2

/-! ### The strategy -/

theorem strategy_rank_le_iff (hne : hits' ≠ []) :
    (competitorStrategyEffect hits).rank ≤ (competitorStrategyEffect hits').rank ↔
      (hasBlockingCompetitor hits' blockThreshold = false →
        hasBlockingCompetitor hits blockThreshold = false ∧
        (softens hits = true → softens hits' = true)) := by
  by_cases he : hits = []
  · subst he
    exact iff_of_true (Nat.zero_le _) fun _ => ⟨rfl, fun h => by cases h⟩
  · rw [competitorStrategyEffect, competitorStrategyEffect, if_neg he, if_neg hne]
    cases hasBlockingCompetitor hits blockThreshold <;>
      cases hasBlockingCompetitor hits' blockThreshold <;>
      cases softens hits <;> cases softens hits' <;> decide

theorem neverHelps_iff (hne : hits' ≠ []) :
    NeverHelps hits hits' ↔
      (hasBlockingCompetitor hits' blockThreshold = false →
        hasBlockingCompetitor hits blockThreshold = false ∧
        (isSoftening hits = true → isSoftening hits' = true) ∧
        (softens hits = true → softens hits' = true)) := by
  rw [NeverHelps, decision_never_helps_iff, strategy_rank_le_iff hne]
  constructor
  · rintro ⟨hdecision, hstrategy⟩ hb'
    exact ⟨(hdecision hb').1, (hdecision hb').2, (hstrategy hb').2⟩
  · intro h
    exact ⟨fun hb' => ⟨(h hb').1, (h hb').2.1⟩, fun hb' => ⟨(h hb').1, (h hb').2.2⟩⟩

/-! ### One step of stronger evidence -/

theorem any_insert {α : Type*} (p : α → Bool) (before : List α) (a : α) (after : List α) :
    (before ++ a :: after).any p = (p a || (before ++ after).any p) := by
  rw [List.any_append, List.any_cons, List.any_append, Bool.or_left_comm]

theorem blocking_insert (before : List CompetitorHit) (h : CompetitorHit)
    (after : List CompetitorHit) :
    hasBlockingCompetitor (before ++ h :: after) blockThreshold =
      (decide (h.effect = .block ∧ blockThreshold ≤ h.confidence) ||
        hasBlockingCompetitor (before ++ after) blockThreshold) := any_insert _ before h after

theorem isSoftening_insert (before : List CompetitorHit) (h : CompetitorHit)
    (after : List CompetitorHit) :
    isSoftening (before ++ h :: after) =
      (decide (h.effect = .soften ∨ h.effect = .reposition) || isSoftening (before ++ after)) :=
  any_insert _ before h after

theorem softens_insert (before : List CompetitorHit) (h : CompetitorHit)
    (after : List CompetitorHit) :
    softens (before ++ h :: after) =
      (decide (h.effect = .soften) || softens (before ++ after)) := any_insert _ before h after

theorem add_never_helps (before : List CompetitorHit) (h : CompetitorHit)
    (after : List CompetitorHit) : NeverHelps (before ++ after) (before ++ h :: after) := by
  refine (neverHelps_iff (by simp)).2 fun hb => ?_
  rw [blocking_insert, Bool.or_eq_false_iff] at hb
  refine ⟨hb.2, fun hs => ?_, fun hs => ?_⟩
  · rw [isSoftening_insert, hs, Bool.or_true]
  · rw [softens_insert, hs, Bool.or_true]

theorem effectRank_lt_iff {e e' : CompetitorEffect} :
    effectRank e < effectRank e' ↔
      (e = .reposition ∧ e' = .soften) ∨ (e ≠ .block ∧ e' = .block) := by
  cases e <;> cases e' <;> decide

theorem soften_never_helps (before : List CompetitorHit) {h : CompetitorHit}
    (after : List CompetitorHit) (hr : h.effect = .reposition) :
    NeverHelps (before ++ h :: after) (before ++ { h with effect := .soften } :: after) := by
  refine (neverHelps_iff (by simp)).2 fun hb => ?_
  rw [blocking_insert, Bool.or_eq_false_iff] at hb
  refine ⟨?_, fun _ => ?_, fun _ => ?_⟩
  · rw [blocking_insert, hb.2, hr]
    rfl
  · rw [isSoftening_insert]
    rfl
  · rw [softens_insert]
    rfl

/-- A block that is certain enough ends the matter; one that is not has to leave another hit to
soften the approach. -/
theorem block_never_helps_iff (before : List CompetitorHit) {h : CompetitorHit}
    (after : List CompetitorHit) (hr : h.effect ≠ .block) :
    NeverHelps (before ++ h :: after) (before ++ { h with effect := .block } :: after) ↔
      (h.confidence < blockThreshold →
        hasBlockingCompetitor (before ++ after) blockThreshold = false →
        isSoftening (before ++ after) = true ∧
        (h.effect = .soften → softens (before ++ after) = true)) := by
  have hsoft : h.effect = .soften ∨ h.effect = .reposition := by
    cases he : h.effect with
    | block => exact absurd he hr
    | soften => exact Or.inl rfl
    | reposition => exact Or.inr rfl
  have hnew : hasBlockingCompetitor (before ++ { h with effect := .block } :: after)
      blockThreshold = false ↔ h.confidence < blockThreshold ∧
        hasBlockingCompetitor (before ++ after) blockThreshold = false := by
    rw [blocking_insert, Bool.or_eq_false_iff]
    simp
  have hold : hasBlockingCompetitor (before ++ h :: after) blockThreshold =
      hasBlockingCompetitor (before ++ after) blockThreshold := by
    rw [blocking_insert]
    simp [hr]
  have hs : isSoftening (before ++ h :: after) = true := by
    rw [isSoftening_insert, decide_eq_true hsoft, Bool.true_or]
  have hs' : isSoftening (before ++ { h with effect := .block } :: after) =
      isSoftening (before ++ after) := isSoftening_insert before _ after
  have ht : softens (before ++ h :: after) = true ↔
      h.effect = .soften ∨ softens (before ++ after) = true := by
    rw [softens_insert, Bool.or_eq_true, decide_eq_true_iff]
  have ht' : softens (before ++ { h with effect := .block } :: after) =
      softens (before ++ after) := softens_insert before _ after
  rw [neverHelps_iff (by simp), hnew, hold, hs', ht', ht]
  constructor
  · intro hall hlow hb
    obtain ⟨-, hkeep, hkeep'⟩ := hall ⟨hlow, hb⟩
    exact ⟨hkeep hs, fun he => hkeep' (Or.inl he)⟩
  · rintro hall ⟨hlow, hb⟩
    obtain ⟨hkeep, hkeep'⟩ := hall hlow hb
    refine ⟨hb, fun _ => hkeep, ?_⟩
    rintro (he | ht)
    · exact hkeep' he
    · exact ht

/-- Stronger evidence never helps, except where a hit is raised to a block that does not block
and none of the other hits has the effect that is lost. -/
theorem stronger_never_helps_iff (c : Strengthening) :
    NeverHelps c.weaker c.stronger ↔ c.KeepsEffect := by
  cases c with
  | add before h after => exact iff_of_true (add_never_helps before h after) trivial
  | raise before h effect after higher =>
    rcases effectRank_lt_iff.1 higher with ⟨hr, rfl⟩ | ⟨hr, rfl⟩
    · exact iff_of_true (soften_never_helps before after hr) nofun
    · refine (block_never_helps_iff before after hr).trans ⟨fun hall _ => hall, ?_⟩
      exact fun hall => hall rfl

def softHit : CompetitorHit where
  competitor := "sprinto"
  evidenceSnippet := ""
  evidenceUrl := ""
  confidence := 65 / 100
  effect := .soften
  reason := ""

/-- The one soft hit becomes a block at the confidence that a mention starts from: the penalty
is gone and the tier is better. -/
theorem uncertain_block_helps :
    ¬ NeverHelps (Strengthening.raise [] softHit .block [] (by decide)).weaker
      (Strengthening.raise [] softHit .block [] (by decide)).stronger ∧
    (makeContactDecision plainFormat evenIcp evenUrgency evenValue evenPlan [softHit] false none
      0).priorityTier = 2 ∧
    (makeContactDecision plainFormat evenIcp evenUrgency evenValue evenPlan
      [{ softHit with effect := .block }] false none 0).priorityTier = 1 ∧
    competitorStrategyEffect [softHit] = .soften ∧
    competitorStrategyEffect [{ softHit with effect := .block }] = .reposition := by
  refine ⟨fun hnever => ?_, by decide +kernel, by decide +kernel, by decide +kernel,
    by decide +kernel⟩
  exact absurd hnever.2 (by decide +kernel)

end TrustCopilot.CompetitorEvidence
