import TrustCopilot.SignalFusion

/-! Naive timestamps, which the weight, the score and the freshness each read as UTC, beside aware
ones, with which `max` does not compare them. -/
namespace TrustCopilot.FusionTimestamps

open TrustCopilot.Ranking
open TrustCopilot.Rounding
open TrustCopilot.SignalDecay
open TrustCopilot.SignalFusion
open TrustCopilot.TriggerTaxonomy

def marked (sig : FusedSignalInput) : FusedSignalInput :=
  { sig with observedAt := sig.observedAt.asUtc }

structure SameNumbers (st st' : FusedAccountState) : Prop where
  positiveWeight : st'.positiveWeight = st.positiveWeight
  negativeWeight : st'.negativeWeight = st.negativeWeight
  whyNowScore : st'.whyNowScore = st.whyNowScore
  triggerFreshness : st'.triggerFreshness = st.triggerFreshness

section Statements

variable (m : MathExp) (isoformat : Timestamp → String) (accountId : String)
  (signals : List FusedSignalInput) (now : ℤ)

def ReadAsUtc : Prop :=
  ∃ st st', fuseAccountSignals m isoformat accountId signals now = .ok st ∧
    fuseAccountSignals m isoformat accountId (signals.map marked) now = .ok st' ∧
    SameNumbers st st'

end Statements

variable {m : MathExp} {isoformat : Timestamp → String} {accountId : String}
  {signals : List FusedSignalInput} {sig : FusedSignalInput} {now instant : ℤ}

theorem marked_weight (sig : FusedSignalInput) (now : ℤ) :
    (marked sig).weight m now = sig.weight m now :=
  congrArg (· * sig.confidence) (decayedWeight_asUtc m sig.signalType sig.observedAt now)

theorem add_marked (t : Tally) (sig : FusedSignalInput) (now : ℤ) :
    t.add m now (marked sig).toInput = t.add m now sig.toInput := by
  have hweight : (marked sig).toInput.weight m now = sig.toInput.weight m now :=
    marked_weight sig now
  rw [Tally.add, Tally.add, hweight]
  rfl

theorem whyNow_marked (signals : List FusedSignalInput) (now : ℤ) :
    computeWhyNowScore m ((signals.map marked).map FusedSignalInput.toInput) now =
      computeWhyNowScore m (signals.map FusedSignalInput.toInput) now := by
  have htally : tally m ((signals.map marked).map FusedSignalInput.toInput) now =
      tally m (signals.map FusedSignalInput.toInput) now := by
    rw [tally, tally, List.map_map, List.foldl_map, List.foldl_map]
    congr
    funext t sig
    exact add_marked t sig now
  rw [computeWhyNowScore_eq, computeWhyNowScore_eq, htally]

theorem marked_comparable (signals : List FusedSignalInput) : Comparable (signals.map marked) := by
  left
  intro sig hsig
  obtain ⟨u, -, rfl⟩ := List.mem_map.1 hsig
  exact Timestamp.asUtc_aware _

theorem triggerFreshness_marked (h : Comparable signals) (now : ℤ) :
    triggerFreshness (signals.map marked) now = triggerFreshness signals now := by
  by_cases hne : signals = []
  · rw [hne]
    rfl
  · obtain ⟨s, hs, hlast, heq⟩ := triggerFreshness_ok h hne now
    obtain ⟨t, ht, hlast', heq'⟩ := triggerFreshness_ok (marked_comparable signals)
      (fun hnil => hne (List.map_eq_nil_iff.1 hnil)) now
    obtain ⟨u, hu, rfl⟩ := List.mem_map.1 ht
    have hsame (v : FusedSignalInput) :
        (marked v).observedAt.instant = v.observedAt.instant := Timestamp.asUtc_instant _
    have hinstant : (marked u).observedAt.instant = s.observedAt.instant := by
      apply le_antisymm
      · rw [hsame]
        exact hlast u hu
      · rw [← hsame s]
        exact hlast' _ (List.mem_map_of_mem hs)
    rw [heq, heq', hinstant]

/-- On either side of the fusion the marks change no weight. -/
theorem marked_side (p : FusedSignalInput → Bool) (hp : ∀ sig, p (marked sig) = p sig)
    (f : ℚ → ℚ) (signals : List FusedSignalInput) (now : ℤ) :
    (((scored m (signals.map marked) now).filter p).map fun sig => f (sig.weight m now)).sum =
      (((scored m signals now).filter p).map fun sig => f (sig.weight m now)).sum := by
  have hscored : (scored m (signals.map marked) now).Perm
      ((scored m signals now).map marked) :=
    (scored_perm m _ now).trans ((scored_perm m signals now).map marked).symm
  have hkind : p ∘ marked = p := funext hp
  have hweight : (fun sig => f (sig.weight m now)) ∘ marked = fun sig => f (sig.weight m now) :=
    funext fun sig => congrArg f (marked_weight sig now)
  have hperm := (hscored.filter p).map fun sig => f (sig.weight m now)
  rw [List.filter_map, hkind, List.map_map, hweight] at hperm
  exact hperm.sum_eq

/-- Naive timestamps are read as UTC exactly if the fusion returns: they are all naive, or there
are none. -/
theorem readAsUtc_iff (m : MathExp) (isoformat : Timestamp → String) (accountId : String)
    (signals : List FusedSignalInput) (now : ℤ) :
    ReadAsUtc m isoformat accountId signals now ↔
      Comparable signals ∧ ScoreInRange m signals now := by
  constructor
  · rintro ⟨st, -, hst, -, -⟩
    exact fuse_returns_iff.1 ⟨st, hst⟩
  · intro hreturns
    obtain ⟨st, hst⟩ := (@fuse_returns_iff m isoformat accountId signals now).2 hreturns
    obtain ⟨whyNow, freshness, hw, hf, rfl⟩ := fuse_ok_iff.1 hst
    refine ⟨_, _, hst, fuse_ok_iff.2 ⟨whyNow, freshness, (whyNow_marked signals now).trans hw,
      (triggerFreshness_marked hreturns.1 now).trans hf, rfl⟩, ?_⟩
    constructor
    · exact congrArg (roundTo 4) (marked_side _ (fun _ => rfl) id signals now)
    · exact congrArg (roundTo 4) (marked_side _ (fun _ => rfl) abs signals now)
    · rfl
    · rfl

def naiveSignal : FusedSignalInput where
  signalId := "sig-1"
  signalType := "soc2_announced"
  observedAt := ⟨0, none⟩
  confidence := 1 / 2

def awareSignal : FusedSignalInput := { naiveSignal with
  signalId := "sig-2"
  signalType := "negative_stale"
  observedAt := ⟨0, some 0⟩ }

theorem naive_beside_aware_raises :
    (fuseAccountSignals standInExp (fun _ => "") "acc-1" [naiveSignal, awareSignal] 0).map
      FusedAccountState.whyNowScore = .error .typeError ∧
    ¬ ReadAsUtc standInExp (fun _ => "") "acc-1" [naiveSignal, awareSignal] 0 := by
  have hraises : (fuseAccountSignals standInExp (fun _ => "") "acc-1"
      [naiveSignal, awareSignal] 0).map FusedAccountState.whyNowScore = .error .typeError := by
    decide +kernel
  refine ⟨hraises, fun ⟨st, _, hst, _⟩ => ?_⟩
  rw [hst] at hraises
  cases hraises

end TrustCopilot.FusionTimestamps
