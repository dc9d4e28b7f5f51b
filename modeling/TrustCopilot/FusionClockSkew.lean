import TrustCopilot.FloatFusion

/-! Signals observed after `now`. Their age is clamped for the weight and not for the freshness,
which comes out above one as soon as the skew is more than rounding hides. -/
namespace TrustCopilot.FusionClockSkew

open TrustCopilot.Binary64
open TrustCopilot.FloatFusion
open TrustCopilot.Rounding
open TrustCopilot.SignalDecay (MathExp PyError Timestamp standInExp)
open TrustCopilot.SignalFusion (Comparable FusedAccountState FusedSignalInput)

def clampedAge (now : Timestamp) (sig : FusedSignalInput) : ℚ :=
  max 0 (ageDays toDouble (now.instant - sig.observedAt.instant))

structure WithinRange (signals : List FusedSignalInput) (now : Timestamp)
    (st : FusedAccountState) : Prop where
  whyNow : 0 ≤ st.whyNowScore ∧ st.whyNowScore ≤ 1
  freshness : 0 ≤ st.triggerFreshness ∧ st.triggerFreshness ≤ 1
  clamped : signals = [] ∧ st.triggerFreshness = 0 ∨
    ∃ sig ∈ signals, (∀ u ∈ signals, clampedAge now sig ≤ clampedAge now u) ∧
      st.triggerFreshness = roundTo 4 (freshnessOf toDouble (clampedAge now sig))

/-- 388.8 seconds: every shorter skew is hidden by the rounding of the freshness. -/
def seenSkew : ℤ := 388800000

def FusedInRange (m : MathExp) (isoformat : Timestamp → String) (accountId : String)
    (signals : List FusedSignalInput) (now : Timestamp) : Prop :=
  ∃ st, fuseAccountSignals toDouble m isoformat accountId signals now = .ok st ∧
    WithinRange signals now st

variable {m : MathExp} {isoformat : Timestamp → String} {accountId : String}
  {signals : List FusedSignalInput} {sig : FusedSignalInput} {now : Timestamp} {span : ℤ}

/-! ### The freshness over the age -/

theorem ageDays_mono {span span' : ℤ} (h : span ≤ span') :
    ageDays toDouble span ≤ ageDays toDouble span' := by
  have hseconds : toDouble (span / 1000000) ≤ toDouble (span' / 1000000) :=
    toDouble_mono (div_le_div_of_nonneg_right (Int.cast_le.2 h) (by norm_num))
  exact toDouble_mono (div_le_div_of_nonneg_right hseconds (by norm_num))

theorem ageDays_zero : ageDays toDouble 0 = 0 := by
  rw [ageDays, Int.cast_zero, zero_div, toDouble_zero, zero_div, toDouble_zero]

theorem freshnessOf_antitone {a b : ℚ} (h : a ≤ b) :
    freshnessOf toDouble b ≤ freshnessOf toDouble a := by
  have hshare : toDouble (a / 90) ≤ toDouble (b / 90) :=
    toDouble_mono (div_le_div_of_nonneg_right h (by norm_num))
  exact max_le_max_left 0 (toDouble_mono (sub_le_sub_left hshare 1))

theorem freshnessOf_zero : freshnessOf toDouble 0 = 1 := by
  rw [freshnessOf, zero_div, toDouble_zero, sub_zero, toDouble_one, max_eq_right zero_le_one]

theorem freshnessOf_nonneg (age : ℚ) : 0 ≤ roundTo 4 (freshnessOf toDouble age) := by
  calc 0 = roundTo 4 (0 : ℚ) := (roundTo_zero 4).symm
    _ ≤ roundTo 4 (freshnessOf toDouble age) := roundTo_mono 4 (le_max_left _ _)

/-- At 388.8 seconds the double of the freshness lies just above 1.00005. -/
theorem freshnessOf_at_seenSkew :
    1 < roundTo 4 (freshnessOf toDouble (ageDays toDouble (-seenSkew))) ∧
      roundTo 4 (freshnessOf toDouble (ageDays toDouble (-seenSkew + 1))) = 1 :=
  ⟨by decide +kernel, by decide +kernel⟩

theorem freshnessOf_le_one_iff :
    roundTo 4 (freshnessOf toDouble (ageDays toDouble span)) ≤ 1 ↔ -seenSkew < span := by
  obtain ⟨hseen, hhidden⟩ := freshnessOf_at_seenSkew
  constructor
  · intro h
    by_contra hlong
    have hage := ageDays_mono (not_lt.1 hlong)
    exact absurd (hseen.trans_le (roundTo_mono 4 (freshnessOf_antitone hage))) (not_lt.2 h)
  · intro h
    have hage : ageDays toDouble (-seenSkew + 1) ≤ ageDays toDouble span := ageDays_mono (by omega)
    exact (roundTo_mono 4 (freshnessOf_antitone hage)).trans hhidden.le

/-- Within the hidden skew a future signal is as fresh as one of this moment. -/
theorem freshnessOf_clamped (h : -seenSkew < span) :
    roundTo 4 (freshnessOf toDouble (ageDays toDouble span)) =
      roundTo 4 (freshnessOf toDouble (max 0 (ageDays toDouble span))) := by
  rcases le_total 0 span with hpast | hfuture
  · have hage := ageDays_mono hpast
    rw [ageDays_zero] at hage
    rw [max_eq_right hage]
  · have hage := ageDays_mono hfuture
    rw [ageDays_zero] at hage
    have hone := roundTo_mono 4 (freshnessOf_antitone hage)
    rw [freshnessOf_zero, roundTo_one] at hone
    rw [max_eq_left hage, freshnessOf_zero, roundTo_one]
    exact le_antisymm (freshnessOf_le_one_iff.2 h) hone

theorem clampedAge_le {u : FusedSignalInput}
    (h : u.observedAt.instant ≤ sig.observedAt.instant) :
    clampedAge now sig ≤ clampedAge now u :=
  max_le_max_left 0 (ageDays_mono (Int.sub_le_sub_left h _))

/-! ### The fusion -/

theorem triggerFreshness_ok (haware : now.aware = true) (h : Comparable signals)
    (hne : signals ≠ []) :
    ∃ sig ∈ signals, (∀ u ∈ signals, u.observedAt.instant ≤ sig.observedAt.instant) ∧
      triggerFreshness toDouble signals now =
        .ok (freshnessOf toDouble (ageDays toDouble (now.instant - sig.observedAt.instant))) := by
  obtain ⟨sig, hsig, hlast, hfresh⟩ := triggerFreshness_latest toDouble h hne now
  refine ⟨sig, hsig, hlast, ?_⟩
  rw [hfresh, since_asUtc haware]
  rfl

def fromTomorrow : FusedSignalInput where
  signalId := "sig-1"
  signalType := "soc2_announced"
  observedAt := ⟨86400000000, some 0⟩
  confidence := 1 / 2

end TrustCopilot.FusionClockSkew
