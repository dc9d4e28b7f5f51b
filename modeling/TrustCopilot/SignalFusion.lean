import TrustCopilot.SignalDecay
import TrustCopilot.Library.Ranking
import Mathlib.Algebra.BigOperators.Group.List.Basic

/-! The fusion of an account's signals. They are ranked by what they still weigh, split into
triggers and negatives, and cut to the heaviest; the score and the freshness are taken from the
list as it comes in. -/
namespace TrustCopilot.SignalFusion

open TrustCopilot.Ranking
open TrustCopilot.Rounding
open TrustCopilot.SignalDecay
open TrustCopilot.TriggerTaxonomy

structure FusedSignalInput where
  signalId : String
  signalType : String
  observedAt : Timestamp
  confidence : ℚ
  deriving DecidableEq, Repr

structure FusedEntry where
  signalType : String
  weight : ℚ
  confidence : ℚ
  observedAt : String
  signalId : String
  deriving DecidableEq, Repr

structure FusedAccountState where
  accountId : String
  topTriggers : List FusedEntry
  negatives : List FusedEntry
  evidenceIds : List String
  whyNowScore : ℚ
  triggerFreshness : ℚ
  signalCount : ℕ
  positiveWeight : ℚ
  negativeWeight : ℚ
  deriving DecidableEq, Repr

def FusedSignalInput.toInput (sig : FusedSignalInput) : SignalInput :=
  ⟨sig.signalType, sig.observedAt, sig.confidence⟩

def FusedSignalInput.negative (sig : FusedSignalInput) : Bool :=
  getCategory sig.signalType = .negative

structure Fusing where
  topTriggers : List FusedEntry := []
  negatives : List FusedEntry := []
  evidenceIds : List String := []
  positiveWeight : ℚ := 0
  negativeWeight : ℚ := 0

/-- The later of two timestamps, the first of equal ones. -/
def laterOf (best t : Timestamp) : Except PyError Timestamp :=
  if best.aware = t.aware then .ok (if best.instant < t.instant then t else best)
  else .error .typeError

def triggerFreshness (signals : List FusedSignalInput) (now : ℤ) : Except PyError ℚ :=
  match signals with
  | [] => .ok 0
  | sig :: rest =>
    ((rest.map FusedSignalInput.observedAt).foldlM laterOf sig.observedAt).map fun freshest =>
      max 0 (1 - days (now - freshest.asUtc.instant) / 90)

section Fusion

variable (m : MathExp) (isoformat : Timestamp → String)

def FusedSignalInput.weight (sig : FusedSignalInput) (now : ℤ) : ℚ :=
  decayedWeight m sig.signalType sig.observedAt now * sig.confidence

def entry (now : ℤ) (sig : FusedSignalInput) : FusedEntry where
  signalType := sig.signalType
  weight := roundTo 4 (sig.weight m now)
  confidence := sig.confidence
  observedAt := isoformat sig.observedAt
  signalId := sig.signalId

def Fusing.add (now : ℤ) (f : Fusing) (sig : FusedSignalInput) : Fusing :=
  let f :=
    if sig.negative then { f with
      negatives := f.negatives ++ [entry m isoformat now sig]
      negativeWeight := f.negativeWeight + |sig.weight m now| }
    else { f with
      topTriggers := f.topTriggers ++ [entry m isoformat now sig]
      positiveWeight := f.positiveWeight + sig.weight m now }
  { f with evidenceIds := f.evidenceIds ++ [sig.signalId] }

def scored (signals : List FusedSignalInput) (now : ℤ) : List FusedSignalInput :=
  ranked (fun sig => |sig.weight m now|) signals

/-- The lists and sums before they are truncated and rounded. -/
def fusing (signals : List FusedSignalInput) (now : ℤ) : Fusing :=
  (scored m signals now).foldl (Fusing.add m isoformat now) {}

def fuseAccountSignals (accountId : String) (signals : List FusedSignalInput) (now : ℤ) :
    Except PyError FusedAccountState := do
  let f := fusing m isoformat signals now
  let whyNow ← computeWhyNowScore m (signals.map FusedSignalInput.toInput) now
  let freshness ← triggerFreshness signals now
  return {
    accountId := accountId
    topTriggers := f.topTriggers.take 10
    negatives := f.negatives.take 5
    evidenceIds := f.evidenceIds
    whyNowScore := whyNow
    triggerFreshness := roundTo 4 freshness
    signalCount := signals.length
    positiveWeight := roundTo 4 f.positiveWeight
    negativeWeight := roundTo 4 f.negativeWeight }

def triggersOf (signals : List FusedSignalInput) (now : ℤ) : List FusedSignalInput :=
  (scored m signals now).filter fun sig => !sig.negative

def negativesOf (signals : List FusedSignalInput) (now : ℤ) : List FusedSignalInput :=
  (scored m signals now).filter FusedSignalInput.negative

/-- The score is nothing, or `exp` does not raise for it. -/
def ScoreInRange (signals : List FusedSignalInput) (now : ℤ) : Prop :=
  (tally m (signals.map FusedSignalInput.toInput) now).InRange m

instance (signals : List FusedSignalInput) (now : ℤ) : Decidable (ScoreInRange m signals now) :=
  inferInstanceAs (Decidable ((tally m _ now).InRange m))

end Fusion

/-- The timestamps are all aware or all naive. -/
def Comparable (signals : List FusedSignalInput) : Prop :=
  (∀ sig ∈ signals, sig.observedAt.aware = true) ∨ ∀ sig ∈ signals, sig.observedAt.aware = false

instance (signals : List FusedSignalInput) : Decidable (Comparable signals) :=
  inferInstanceAs (Decidable (_ ∨ _))

def freshnessAt (now instant : ℤ) : ℚ := max 0 (1 - days (now - instant) / 90)

variable {m : MathExp} {isoformat : Timestamp → String} {accountId : String}
  {signals signals' : List FusedSignalInput} {now : ℤ}

/-! ### The loop -/

theorem foldl_add (xs : List FusedSignalInput) :
    xs.foldl (Fusing.add m isoformat now) {} =
      { topTriggers := (xs.filter fun sig => !sig.negative).map (entry m isoformat now)
        negatives := (xs.filter FusedSignalInput.negative).map (entry m isoformat now)
        evidenceIds := xs.map FusedSignalInput.signalId
        positiveWeight := ((xs.filter fun sig => !sig.negative).map (·.weight m now)).sum
        negativeWeight := ((xs.filter FusedSignalInput.negative).map fun sig =>
          |sig.weight m now|).sum } := by
  induction xs using List.reverseRecOn with
  | nil => rfl
  | append_singleton xs sig ih =>
    rw [List.foldl_append, ih, List.foldl_cons, List.foldl_nil, Fusing.add]
    cases hsig : sig.negative with
    | true => simp [hsig]
    | false => simp [hsig]

theorem fusing_eq (m : MathExp) (isoformat : Timestamp → String)
    (signals : List FusedSignalInput) (now : ℤ) : fusing m isoformat signals now =
      { topTriggers := (triggersOf m signals now).map (entry m isoformat now)
        negatives := (negativesOf m signals now).map (entry m isoformat now)
        evidenceIds := (scored m signals now).map FusedSignalInput.signalId
        positiveWeight := ((triggersOf m signals now).map (·.weight m now)).sum
        negativeWeight := ((negativesOf m signals now).map fun sig => |sig.weight m now|).sum } :=
  foldl_add (scored m signals now)

theorem scored_perm (m : MathExp) (signals : List FusedSignalInput) (now : ℤ) :
    (scored m signals now).Perm signals := ranked_perm _ signals

theorem split_perm (m : MathExp) (signals : List FusedSignalInput) (now : ℤ) :
    (triggersOf m signals now ++ negativesOf m signals now).Perm signals := by
  have hsplit := List.filter_append_perm FusedSignalInput.negative (scored m signals now)
  exact (List.perm_append_comm.trans hsplit).trans (scored_perm m signals now)

/-! ### The freshest signal -/

theorem laterOf_latest {best : Timestamp} {ts : List Timestamp}
    (h : ∀ t ∈ ts, t.aware = best.aware) :
    ∃ t ∈ best :: ts, ts.foldlM laterOf best = .ok t ∧
      ∀ u ∈ best :: ts, u.instant ≤ t.instant := by
  induction ts generalizing best with
  | nil => exact ⟨best, List.mem_cons_self, rfl, fun u hu => by rw [List.mem_singleton.1 hu]⟩
  | cons t ts ih =>
    have haware := h t List.mem_cons_self
    have hstep : laterOf best t = .ok (if best.instant < t.instant then t else best) :=
      if_pos haware.symm
    rw [List.foldlM_cons, hstep]
    by_cases hlt : best.instant < t.instant
    · rw [if_pos hlt]
      obtain ⟨u, hu, hfold, hlast⟩ := @ih t fun v hv =>
        (h v (List.mem_cons_of_mem t hv)).trans haware.symm
      refine ⟨u, List.mem_cons_of_mem best hu, hfold, List.forall_mem_cons.2 ⟨?_, hlast⟩⟩
      exact hlt.le.trans (hlast t List.mem_cons_self)
    · rw [if_neg hlt]
      obtain ⟨u, hu, hfold, hlast⟩ := @ih best fun v hv => h v (List.mem_cons_of_mem t hv)
      obtain ⟨hbest, hrest⟩ := List.forall_mem_cons.1 hlast
      refine ⟨u, ?_, hfold, ?_⟩
      · rcases List.mem_cons.1 hu with rfl | hu
        · exact List.mem_cons_self
        · exact List.mem_cons_of_mem _ (List.mem_cons_of_mem t hu)
      · exact List.forall_mem_cons.2 ⟨hbest, List.forall_mem_cons.2
          ⟨(not_lt.1 hlt).trans hbest, hrest⟩⟩

theorem laterOf_mixed {best : Timestamp} {ts : List Timestamp}
    (h : ∃ t ∈ ts, t.aware ≠ best.aware) : ts.foldlM laterOf best = .error .typeError := by
  induction ts generalizing best with
  | nil => simp at h
  | cons t ts ih =>
    rw [List.foldlM_cons]
    by_cases haware : best.aware = t.aware
    · rw [laterOf, if_pos haware]
      obtain ⟨u, hu, hne⟩ := h
      rcases List.mem_cons.1 hu with rfl | hu
      · exact absurd haware.symm hne
      · split
        · exact ih ⟨u, hu, haware ▸ hne⟩
        · exact ih ⟨u, hu, hne⟩
    · rw [laterOf, if_neg haware]
      rfl

theorem laterOf_comparable {first : FusedSignalInput} {rest : List FusedSignalInput}
    (h : Comparable (first :: rest)) :
    ∃ sig ∈ first :: rest,
      (∀ u ∈ first :: rest, u.observedAt.instant ≤ sig.observedAt.instant) ∧
      (rest.map FusedSignalInput.observedAt).foldlM laterOf first.observedAt =
        .ok sig.observedAt := by
  have hsame : ∀ t ∈ rest.map FusedSignalInput.observedAt,
      t.aware = first.observedAt.aware := by
    intro t ht
    obtain ⟨sig, hsig, rfl⟩ := List.mem_map.1 ht
    rcases h with h | h
    · rw [h sig (List.mem_cons_of_mem first hsig), h first List.mem_cons_self]
    · rw [h sig (List.mem_cons_of_mem first hsig), h first List.mem_cons_self]
  obtain ⟨t, ht, hfold, hlast⟩ := laterOf_latest hsame
  have hmap : first.observedAt :: rest.map FusedSignalInput.observedAt =
      (first :: rest).map FusedSignalInput.observedAt := rfl
  rw [hmap] at ht hlast
  obtain ⟨sig, hsig, rfl⟩ := List.mem_map.1 ht
  exact ⟨sig, hsig, fun u hu => hlast _ (List.mem_map_of_mem hu), hfold⟩

theorem laterOf_incomparable {first : FusedSignalInput} {rest : List FusedSignalInput}
    (h : ¬ Comparable (first :: rest)) :
    (rest.map FusedSignalInput.observedAt).foldlM laterOf first.observedAt =
      .error .typeError := by
  apply laterOf_mixed
  by_contra hall
  simp only [List.mem_map, ne_eq, not_exists, not_and, forall_exists_index, and_imp,
    forall_apply_eq_imp_iff₂, not_not] at hall
  apply h
  cases hfirst : first.observedAt.aware with
  | true =>
    exact Or.inl (List.forall_mem_cons.2 ⟨hfirst, fun sig hsig => (hall sig hsig).trans hfirst⟩)
  | false =>
    exact Or.inr (List.forall_mem_cons.2 ⟨hfirst, fun sig hsig => (hall sig hsig).trans hfirst⟩)

/-- Among comparable timestamps the latest decides. -/
theorem triggerFreshness_ok (h : Comparable signals) (hne : signals ≠ []) (now : ℤ) :
    ∃ sig ∈ signals, (∀ u ∈ signals, u.observedAt.instant ≤ sig.observedAt.instant) ∧
      triggerFreshness signals now = .ok (freshnessAt now sig.observedAt.instant) := by
  obtain ⟨first, rest, rfl⟩ := List.exists_cons_of_ne_nil hne
  obtain ⟨sig, hsig, hlast, hfold⟩ := laterOf_comparable h
  refine ⟨sig, hsig, hlast, ?_⟩
  rw [triggerFreshness, hfold, freshnessAt, ← Timestamp.asUtc_instant sig.observedAt]
  rfl

theorem triggerFreshness_mixed (h : ¬ Comparable signals) (now : ℤ) :
    triggerFreshness signals now = .error .typeError := by
  cases signals with
  | nil => exact absurd (Or.inl fun sig hsig => absurd hsig List.not_mem_nil) h
  | cons first rest =>
    rw [triggerFreshness, laterOf_incomparable h]
    rfl

theorem comparable_perm (h : signals.Perm signals') : Comparable signals ↔ Comparable signals' := by
  rw [Comparable, Comparable]
  simp only [h.mem_iff]

theorem triggerFreshness_perm (h : signals.Perm signals') (now : ℤ) :
    triggerFreshness signals now = triggerFreshness signals' now := by
  by_cases hcomp : Comparable signals
  · by_cases hne : signals = []
    · subst hne
      rw [List.nil_perm.1 h]
    · have hne' : signals' ≠ [] := fun he => hne (List.perm_nil.1 (he ▸ h))
      obtain ⟨s, hs, hlast, heq⟩ := triggerFreshness_ok hcomp hne now
      obtain ⟨t, ht, hlast', heq'⟩ :=
        triggerFreshness_ok ((comparable_perm h).1 hcomp) hne' now
      have hinstant : s.observedAt.instant = t.observedAt.instant :=
        le_antisymm (hlast' s (h.mem_iff.1 hs)) (hlast t (h.mem_iff.2 ht))
      rw [heq, heq', hinstant]
  · rw [triggerFreshness_mixed hcomp, triggerFreshness_mixed (mt (comparable_perm h).2 hcomp)]

theorem whyNow_perm (h : signals.Perm signals') (now : ℤ) :
    computeWhyNowScore m (signals.map FusedSignalInput.toInput) now =
      computeWhyNowScore m (signals'.map FusedSignalInput.toInput) now := by
  rw [computeWhyNowScore_eq, computeWhyNowScore_eq, tally_perm (h.map FusedSignalInput.toInput)]

/-! ### The result -/

def fused (m : MathExp) (isoformat : Timestamp → String) (accountId : String)
    (signals : List FusedSignalInput) (now : ℤ) (whyNow freshness : ℚ) : FusedAccountState where
  accountId := accountId
  topTriggers := ((triggersOf m signals now).map (entry m isoformat now)).take 10
  negatives := ((negativesOf m signals now).map (entry m isoformat now)).take 5
  evidenceIds := (scored m signals now).map FusedSignalInput.signalId
  whyNowScore := whyNow
  triggerFreshness := roundTo 4 freshness
  signalCount := signals.length
  positiveWeight := roundTo 4 ((triggersOf m signals now).map (·.weight m now)).sum
  negativeWeight := roundTo 4 ((negativesOf m signals now).map fun sig => |sig.weight m now|).sum

theorem fuse_ok_iff {st : FusedAccountState} :
    fuseAccountSignals m isoformat accountId signals now = .ok st ↔ ∃ whyNow freshness,
      computeWhyNowScore m (signals.map FusedSignalInput.toInput) now = .ok whyNow ∧
      triggerFreshness signals now = .ok freshness ∧
      fused m isoformat accountId signals now whyNow freshness = st := by
  rw [fuseAccountSignals, fusing_eq]
  cases hw : computeWhyNowScore m (signals.map FusedSignalInput.toInput) now with
  | error e => exact iff_of_false (fun h => by cases h) fun ⟨_, _, h, _⟩ => by cases h
  | ok whyNow =>
    cases hf : triggerFreshness signals now with
    | error e => exact iff_of_false (fun h => by cases h) fun ⟨_, _, _, h, _⟩ => by cases h
    | ok freshness =>
      constructor
      · intro h
        exact ⟨whyNow, freshness, rfl, rfl, Except.ok.inj h⟩
      · rintro ⟨w, f, hw, hf, rfl⟩
        cases hw
        cases hf
        rfl

theorem whyNow_returns_iff :
    (∃ whyNow, computeWhyNowScore m (signals.map FusedSignalInput.toInput) now = .ok whyNow) ↔
      ScoreInRange m signals now := by
  rw [computeWhyNowScore_eq, ScoreInRange]
  exact score_returns_iff

theorem triggerFreshness_returns_iff :
    (∃ freshness, triggerFreshness signals now = .ok freshness) ↔ Comparable signals := by
  by_cases h : Comparable signals
  · refine iff_of_true ?_ h
    by_cases hne : signals = []
    · subst hne
      exact ⟨0, rfl⟩
    · obtain ⟨sig, -, -, heq⟩ := triggerFreshness_ok h hne now
      exact ⟨_, heq⟩
  · rw [triggerFreshness_mixed h]
    exact iff_of_false (fun ⟨_, he⟩ => by cases he) h

/-- The fusion raises on mixed timestamps, and when `exp` does on the score. -/
theorem fuse_returns_iff :
    (∃ st, fuseAccountSignals m isoformat accountId signals now = .ok st) ↔
      Comparable signals ∧ ScoreInRange m signals now := by
  rw [← @triggerFreshness_returns_iff signals now, ← whyNow_returns_iff]
  simp only [fuse_ok_iff]
  constructor
  · rintro ⟨st, whyNow, freshness, hw, hf, -⟩
    exact ⟨⟨freshness, hf⟩, whyNow, hw⟩
  · rintro ⟨⟨freshness, hf⟩, whyNow, hw⟩
    exact ⟨_, whyNow, freshness, hw, hf, rfl⟩

end TrustCopilot.SignalFusion
