import TrustCopilot.SignalFusion

/-! The fusion takes its signals as a multiset: none is lost or counted twice, and the order they
come in shows only between signals of equal weight. -/
namespace TrustCopilot.FusionOrder

open TrustCopilot.Ranking
open TrustCopilot.Rounding
open TrustCopilot.SignalDecay
open TrustCopilot.SignalFusion
open TrustCopilot.TriggerTaxonomy

section Statements

variable (m : MathExp) (isoformat : Timestamp → String)

structure Falling (sigs : List FusedSignalInput) (now : ℤ) (kept : ℕ) : Prop where
  ordered : sigs.Pairwise fun a b => |b.weight m now| ≤ |a.weight m now|
  heaviest : ∀ a ∈ sigs.take kept, ∀ b ∈ sigs.drop kept, |b.weight m now| ≤ |a.weight m now|

structure LosesNothing (signals : List FusedSignalInput) (now : ℤ) (st : FusedAccountState) :
    Prop where
  split : (triggersOf m signals now ++ negativesOf m signals now).Perm signals
  triggers : ∀ sig ∈ triggersOf m signals now, getCategory sig.signalType ≠ .negative
  negatives : ∀ sig ∈ negativesOf m signals now, getCategory sig.signalType = .negative
  triggerEntries : (fusing m isoformat signals now).topTriggers =
    (triggersOf m signals now).map (entry m isoformat now)
  negativeEntries : (fusing m isoformat signals now).negatives =
    (negativesOf m signals now).map (entry m isoformat now)
  triggersFall : Falling m (triggersOf m signals now) now 10
  negativesFall : Falling m (negativesOf m signals now) now 5
  topTriggers : st.topTriggers =
    ((triggersOf m signals now).take 10).map (entry m isoformat now)
  topNegatives : st.negatives =
    ((negativesOf m signals now).take 5).map (entry m isoformat now)
  positiveWeight : st.positiveWeight =
    roundTo 4 ((triggersOf m signals now).map (·.weight m now)).sum
  negativeWeight : st.negativeWeight =
    roundTo 4 ((negativesOf m signals now).map fun sig => |sig.weight m now|).sum
  evidenceIds : st.evidenceIds.Perm (signals.map FusedSignalInput.signalId)
  signalCount : st.signalCount = signals.length

end Statements

/-- Two fusions that differ at most in how signals of equal weight are ordered. -/
structure SameFusion (st st' : FusedAccountState) : Prop where
  positiveWeight : st'.positiveWeight = st.positiveWeight
  negativeWeight : st'.negativeWeight = st.negativeWeight
  whyNowScore : st'.whyNowScore = st.whyNowScore
  triggerFreshness : st'.triggerFreshness = st.triggerFreshness
  signalCount : st'.signalCount = st.signalCount
  evidenceIds : st'.evidenceIds.Perm st.evidenceIds

variable {m : MathExp} {isoformat : Timestamp → String} {accountId : String}
  {signals signals' : List FusedSignalInput} {now : ℤ} {st : FusedAccountState}

theorem falling_filter (p : FusedSignalInput → Bool) (signals : List FusedSignalInput) (now : ℤ)
    (kept : ℕ) : Falling m ((scored m signals now).filter p) now kept := by
  have hfall : ((scored m signals now).filter p).Pairwise
      (NotBelow fun sig => |sig.weight m now|) := (ranked_pairwise _ signals).filter p
  exact ⟨hfall, take_heaviest hfall kept⟩

theorem losesNothing (h : fuseAccountSignals m isoformat accountId signals now = .ok st) :
    LosesNothing m isoformat signals now st := by
  obtain ⟨whyNow, freshness, -, -, rfl⟩ := fuse_ok_iff.1 h
  constructor
  · exact split_perm m signals now
  · intro sig hsig
    have hkind := (List.mem_filter.1 hsig).2
    rw [Bool.not_eq_true', FusedSignalInput.negative, decide_eq_false_iff_not] at hkind
    exact hkind
  · intro sig hsig
    exact of_decide_eq_true (List.mem_filter.1 hsig).2
  · rw [fusing_eq]
  · rw [fusing_eq]
  · exact falling_filter _ signals now 10
  · exact falling_filter _ signals now 5
  · exact List.map_take.symm
  · exact List.map_take.symm
  · rfl
  · rfl
  · exact (scored_perm m signals now).map FusedSignalInput.signalId
  · rfl

theorem scored_congr (h : signals'.Perm signals) :
    (scored m signals' now).Perm (scored m signals now) :=
  (scored_perm m signals' now).trans (h.trans (scored_perm m signals now).symm)

theorem sameFusion (h : signals'.Perm signals)
    (hst : fuseAccountSignals m isoformat accountId signals now = .ok st) :
    ∃ st', fuseAccountSignals m isoformat accountId signals' now = .ok st' ∧ SameFusion st st' := by
  obtain ⟨whyNow, freshness, hw, hf, rfl⟩ := fuse_ok_iff.1 hst
  have hscored := @scored_congr m _ _ now h
  refine ⟨_, fuse_ok_iff.2 ⟨whyNow, freshness, (whyNow_perm h now).trans hw,
    (triggerFreshness_perm h now).trans hf, rfl⟩, ?_⟩
  constructor
  · exact congrArg (roundTo 4) ((hscored.filter _).map _).sum_eq
  · exact congrArg (roundTo 4) ((hscored.filter _).map _).sum_eq
  · rfl
  · rfl
  · exact h.length_eq
  · exact hscored.map FusedSignalInput.signalId

/-- Without equal weights the lists are the same as well. -/
theorem sameLists (h : signals'.Perm signals)
    (hdistinct : (signals.map fun sig => |sig.weight m now|).Nodup) {st' : FusedAccountState}
    (hst : fuseAccountSignals m isoformat accountId signals now = .ok st)
    (hst' : fuseAccountSignals m isoformat accountId signals' now = .ok st') :
    st'.topTriggers = st.topTriggers ∧ st'.negatives = st.negatives := by
  have hscored : scored m signals now = scored m signals' now := ranked_congr h.symm hdistinct
  obtain ⟨_, _, -, -, rfl⟩ := fuse_ok_iff.1 hst
  obtain ⟨_, _, -, -, rfl⟩ := fuse_ok_iff.1 hst'
  rw [fused, fused, triggersOf, triggersOf, negativesOf, negativesOf, hscored]
  exact ⟨rfl, rfl⟩

end TrustCopilot.FusionOrder
