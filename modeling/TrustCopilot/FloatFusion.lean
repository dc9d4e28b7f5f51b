import TrustCopilot.SignalFusion
import TrustCopilot.Library.Binary64

/-! The fusion operation by operation: `rnd` rounds every result, and a subtraction of timestamps
raises where one of them is naive. With exact numbers and an aware `now` it is the fusion of
`SignalFusion`; with `toDouble` it is the one that runs. What `round(x, 4)` gives is written as
the decimal of which the code has the double. -/
namespace TrustCopilot.FloatFusion

open TrustCopilot.Ranking
open TrustCopilot.Rounding
open TrustCopilot.SignalDecay (MathExp PyError SignalInput Tally Timestamp)
open TrustCopilot.SignalFusion (Comparable FusedAccountState FusedEntry FusedSignalInput Fusing
  laterOf laterOf_comparable laterOf_incomparable)
open TrustCopilot.TriggerTaxonomy

/-- `now - t` -/
def since (now t : Timestamp) : Except PyError ℤ :=
  if now.aware = t.aware then .ok (now.instant - t.instant) else .error .typeError

section Code

variable (rnd : ℚ → ℚ) (m : MathExp) (isoformat : Timestamp → String)

/-- `span.total_seconds() / 86400` -/
def ageDays (span : ℤ) : ℚ := rnd (rnd (span / 1000000) / 86400)

def exponentialDecay (ageDays : ℚ) (halfLifeDays : ℤ) : ℚ :=
  if halfLifeDays ≤ 0 then 0
  else m.exp (rnd (rnd (-rnd (693 / 1000) * ageDays) / halfLifeDays))

def decayedWeight (signalType : String) (observedAt now : Timestamp) : Except PyError ℚ :=
  match getSpec signalType with
  | none => .ok 0
  | some spec => (since now observedAt.asUtc).map fun span =>
    rnd (rnd spec.baseWeight *
      exponentialDecay rnd m (max 0 (ageDays rnd span)) spec.decayHalfLifeDays)

def weight (sig : SignalInput) (now : Timestamp) : Except PyError ℚ :=
  (decayedWeight rnd m sig.signalType sig.observedAt now).map fun w => rnd (w * sig.confidence)

def add (t : Tally) (sig : SignalInput) (w : ℚ) : Tally :=
  match getSpec sig.signalType with
  | some spec =>
    if rnd spec.baseWeight < 0 then { t with negativeSum := rnd (t.negativeSum + |w|) }
    else { t with
      positiveSum := rnd (t.positiveSum + w)
      maxPositive := max t.maxPositive |rnd spec.baseWeight| }
  | none => { t with positiveSum := rnd (t.positiveSum + w), maxPositive := max t.maxPositive 0 }

def tally (signals : List SignalInput) (now : Timestamp) : Except PyError Tally :=
  signals.foldlM (fun t sig => (weight rnd m sig now).map (add rnd t sig)) {}

def exponent (t : Tally) : ℚ :=
  rnd (-2 * rnd (rnd (t.positiveSum - rnd (t.negativeSum * (5 / 10))) - 5 / 10))

def score (t : Tally) : Except PyError ℚ :=
  if t.maxPositive = 0 then .ok 0
  else (m.apply (exponent rnd t)).map fun e => roundTo 4 (max 0 (min 1 (rnd (1 / rnd (1 + e)))))

def computeWhyNowScore (signals : List SignalInput) (now : Timestamp) : Except PyError ℚ :=
  if signals = [] then .ok 0 else (tally rnd m signals now).bind (score rnd m)

/-- `max(0.0, 1.0 - age_days / 90)` -/
def freshnessOf (ageDays : ℚ) : ℚ := max 0 (rnd (1 - rnd (ageDays / 90)))

def triggerFreshness (signals : List FusedSignalInput) (now : Timestamp) : Except PyError ℚ :=
  match signals with
  | [] => .ok 0
  | sig :: rest => do
    let freshest ← (rest.map FusedSignalInput.observedAt).foldlM laterOf sig.observedAt
    let span ← since now freshest.asUtc
    return freshnessOf rnd (ageDays rnd span)

def entry (x : ℚ × FusedSignalInput) : FusedEntry where
  signalType := x.2.signalType
  weight := roundTo 4 x.1
  confidence := x.2.confidence
  observedAt := isoformat x.2.observedAt
  signalId := x.2.signalId

def addScored (f : Fusing) (x : ℚ × FusedSignalInput) : Fusing :=
  let f :=
    if x.2.negative then { f with
      negatives := f.negatives ++ [entry isoformat x]
      negativeWeight := rnd (f.negativeWeight + |x.1|) }
    else { f with
      topTriggers := f.topTriggers ++ [entry isoformat x]
      positiveWeight := rnd (f.positiveWeight + x.1) }
  { f with evidenceIds := f.evidenceIds ++ [x.2.signalId] }

def scored (signals : List FusedSignalInput) (now : Timestamp) :
    Except PyError (List (ℚ × FusedSignalInput)) :=
  signals.mapM fun sig => (weight rnd m sig.toInput now).map fun w => (w, sig)

def fusedOf (accountId : String) (scored : List (ℚ × FusedSignalInput)) (whyNow fresh : ℚ) :
    FusedAccountState :=
  let f := (ranked (fun x => |x.1|) scored).foldl (addScored rnd isoformat) {}
  { accountId := accountId
    topTriggers := f.topTriggers.take 10
    negatives := f.negatives.take 5
    evidenceIds := f.evidenceIds
    whyNowScore := whyNow
    triggerFreshness := roundTo 4 fresh
    signalCount := scored.length
    positiveWeight := roundTo 4 f.positiveWeight
    negativeWeight := roundTo 4 f.negativeWeight }

def fuseAccountSignals (accountId : String) (signals : List FusedSignalInput) (now : Timestamp) :
    Except PyError FusedAccountState := do
  let weighed ← scored rnd m signals now
  let whyNow ← computeWhyNowScore rnd m (signals.map FusedSignalInput.toInput) now
  let fresh ← triggerFreshness rnd signals now
  return fusedOf rnd isoformat accountId weighed whyNow fresh

/-- The score is nothing, or `exp` does not raise for it. -/
def ScoreInRange (signals : List FusedSignalInput) (now : Timestamp) : Prop :=
  ∀ t, tally rnd m (signals.map FusedSignalInput.toInput) now = .ok t →
    t.maxPositive = 0 ∨ m.overflows (exponent rnd t) = false

end Code

variable {rnd : ℚ → ℚ} {m : MathExp} {isoformat : Timestamp → String} {accountId : String}
  {signals : List FusedSignalInput} {now : Timestamp}

/-! ### An aware `now` -/

def agedWeight (rnd : ℚ → ℚ) (m : MathExp) (sig : SignalInput) (now : ℤ) : ℚ :=
  rnd ((match getSpec sig.signalType with
    | none => 0
    | some spec => rnd (rnd spec.baseWeight * exponentialDecay rnd m
        (max 0 (ageDays rnd (now - sig.observedAt.instant))) spec.decayHalfLifeDays)) *
    sig.confidence)

theorem since_asUtc (h : now.aware = true) (t : Timestamp) :
    since now t.asUtc = .ok (now.instant - t.instant) := by
  rw [since, if_pos (h.trans t.asUtc_aware.symm), Timestamp.asUtc_instant]

theorem since_asUtc_naive (h : now.aware = false) (t : Timestamp) :
    since now t.asUtc = .error .typeError := by
  rw [since, if_neg]
  rw [h, t.asUtc_aware]
  exact Bool.false_ne_true

theorem weight_aware (h : now.aware = true) (sig : SignalInput) :
    weight rnd m sig now = .ok (agedWeight rnd m sig now.instant) := by
  rw [weight, decayedWeight, agedWeight]
  cases getSpec sig.signalType with
  | none => rfl
  | some spec =>
    simp only [since_asUtc h]
    rfl

theorem scored_aware (h : now.aware = true) (signals : List FusedSignalInput) :
    scored rnd m signals now =
      .ok (signals.map fun sig => (agedWeight rnd m sig.toInput now.instant, sig)) := by
  simp only [scored, weight_aware h]
  exact List.mapM_pure

theorem tally_aware (h : now.aware = true) (inputs : List SignalInput) :
    tally rnd m inputs now =
      .ok (inputs.foldl (fun t sig => add rnd t sig (agedWeight rnd m sig now.instant)) {}) := by
  simp only [tally, weight_aware h]
  exact List.foldlM_pure

theorem computeWhyNowScore_eq (rnd : ℚ → ℚ) (m : MathExp) (inputs : List SignalInput)
    (now : Timestamp) :
    computeWhyNowScore rnd m inputs now = (tally rnd m inputs now).bind (score rnd m) := by
  rw [computeWhyNowScore]
  split
  · next h =>
    rw [h]
    rfl
  · rfl

theorem score_returns_iff {t : Tally} : (∃ s, score rnd m t = .ok s) ↔
    t.maxPositive = 0 ∨ m.overflows (exponent rnd t) = false := by
  rw [score, MathExp.apply]
  by_cases hmax : t.maxPositive = 0
  · exact iff_of_true ⟨0, if_pos hmax⟩ (Or.inl hmax)
  · rw [if_neg hmax]
    cases m.overflows (exponent rnd t) with
    | true =>
      refine iff_of_false ?_ (by simp [hmax])
      rintro ⟨s, hs⟩
      cases hs
    | false => exact iff_of_true ⟨_, rfl⟩ (Or.inr rfl)

theorem whyNow_returns_iff (h : now.aware = true) :
    (∃ s, computeWhyNowScore rnd m (signals.map FusedSignalInput.toInput) now = .ok s) ↔
      ScoreInRange rnd m signals now := by
  rw [computeWhyNowScore_eq, ScoreInRange, tally_aware h]
  exact score_returns_iff.trans
    ⟨fun hrange t ht => by cases ht; exact hrange, fun hrange => hrange _ rfl⟩

theorem whyNow_bounds {inputs : List SignalInput} {s : ℚ}
    (h : computeWhyNowScore rnd m inputs now = .ok s) : 0 ≤ s ∧ s ≤ 1 := by
  rw [computeWhyNowScore_eq] at h
  cases ht : tally rnd m inputs now with
  | error e =>
    rw [ht] at h
    cases h
  | ok t =>
    rw [ht, Except.bind, score] at h
    split at h
    · cases h
      exact ⟨le_refl 0, zero_le_one⟩
    · cases he : m.apply (exponent rnd t) with
      | error e =>
        rw [he] at h
        cases h
      | ok e =>
        rw [he] at h
        cases h
        exact roundTo_clamped 4 _

/-! ### The freshest signal -/

/-- Among comparable timestamps the latest decides. -/
theorem triggerFreshness_latest (rnd : ℚ → ℚ) (h : Comparable signals) (hne : signals ≠ [])
    (now : Timestamp) :
    ∃ sig ∈ signals, (∀ u ∈ signals, u.observedAt.instant ≤ sig.observedAt.instant) ∧
      triggerFreshness rnd signals now =
        (since now sig.observedAt.asUtc).map fun span => freshnessOf rnd (ageDays rnd span) := by
  obtain ⟨first, rest, rfl⟩ := List.exists_cons_of_ne_nil hne
  obtain ⟨sig, hsig, hlast, hfold⟩ := laterOf_comparable h
  refine ⟨sig, hsig, hlast, ?_⟩
  rw [triggerFreshness, hfold]
  rfl

theorem triggerFreshness_mixed (h : ¬ Comparable signals) (now : Timestamp) :
    triggerFreshness rnd signals now = .error .typeError := by
  cases signals with
  | nil => exact absurd (Or.inl fun sig hsig => absurd hsig List.not_mem_nil) h
  | cons first rest =>
    rw [triggerFreshness, laterOf_incomparable h]
    rfl

theorem triggerFreshness_returns_iff (rnd : ℚ → ℚ) :
    (∃ fresh, triggerFreshness rnd signals now = .ok fresh) ↔
      signals = [] ∨ now.aware = true ∧ Comparable signals := by
  by_cases hne : signals = []
  · subst hne
    exact iff_of_true ⟨0, rfl⟩ (Or.inl rfl)
  · rw [or_iff_right hne]
    by_cases hcomp : Comparable signals
    · obtain ⟨sig, -, -, hfresh⟩ := triggerFreshness_latest rnd hcomp hne now
      rw [hfresh, and_iff_left hcomp]
      cases haware : now.aware with
      | true =>
        rw [since_asUtc haware]
        exact iff_of_true ⟨_, rfl⟩ rfl
      | false =>
        rw [since_asUtc_naive haware]
        exact iff_of_false (fun ⟨_, h⟩ => by cases h) Bool.false_ne_true
    · rw [triggerFreshness_mixed hcomp]
      exact iff_of_false (fun ⟨_, h⟩ => by cases h) fun h => hcomp h.2

/-! ### The result -/

theorem fuse_ok_iff {st : FusedAccountState} :
    fuseAccountSignals rnd m isoformat accountId signals now = .ok st ↔
      ∃ weighed whyNow fresh, scored rnd m signals now = .ok weighed ∧
        computeWhyNowScore rnd m (signals.map FusedSignalInput.toInput) now = .ok whyNow ∧
        triggerFreshness rnd signals now = .ok fresh ∧
        fusedOf rnd isoformat accountId weighed whyNow fresh = st := by
  rw [fuseAccountSignals]
  cases hs : scored rnd m signals now with
  | error e => exact iff_of_false (fun h => by cases h) fun ⟨_, _, _, h, _⟩ => by cases h
  | ok weighed =>
    cases hw : computeWhyNowScore rnd m (signals.map FusedSignalInput.toInput) now with
    | error e => exact iff_of_false (fun h => by cases h) fun ⟨_, _, _, _, h, _⟩ => by cases h
    | ok whyNow =>
      cases hf : triggerFreshness rnd signals now with
      | error e =>
        exact iff_of_false (fun h => by cases h) fun ⟨_, _, _, _, _, h, _⟩ => by cases h
      | ok fresh =>
        constructor
        · intro h
          exact ⟨weighed, whyNow, fresh, rfl, rfl, rfl, Except.ok.inj h⟩
        · rintro ⟨_, _, _, h₁, h₂, h₃, rfl⟩
          cases h₁
          cases h₂
          cases h₃
          rfl

/-- The fusion of something raises on a naive `now`, on mixed timestamps, and when `exp` does on
the score. -/
theorem fuse_returns_iff (isoformat : Timestamp → String) (accountId : String) :
    (∃ st, fuseAccountSignals rnd m isoformat accountId signals now = .ok st) ↔
      signals = [] ∨
        now.aware = true ∧ Comparable signals ∧ ScoreInRange rnd m signals now := by
  simp only [fuse_ok_iff]
  constructor
  · rintro ⟨st, weighed, whyNow, fresh, -, hw, hf, -⟩
    rcases (triggerFreshness_returns_iff rnd).1 ⟨fresh, hf⟩ with hnil | ⟨haware, hcomp⟩
    · exact Or.inl hnil
    · exact Or.inr ⟨haware, hcomp, (whyNow_returns_iff haware).1 ⟨whyNow, hw⟩⟩
  · rintro (rfl | ⟨haware, hcomp, hrange⟩)
    · exact ⟨_, [], 0, 0, rfl, rfl, rfl, rfl⟩
    · obtain ⟨fresh, hf⟩ := (triggerFreshness_returns_iff rnd).2 (Or.inr ⟨haware, hcomp⟩)
      obtain ⟨whyNow, hw⟩ := (whyNow_returns_iff haware).2 hrange
      exact ⟨_, _, whyNow, fresh, scored_aware haware signals, hw, hf, rfl⟩

/-! ### Exact numbers -/

theorem exact_days (span : ℤ) : ageDays id span = SignalDecay.days span := by
  rw [ageDays, SignalDecay.days, id, id, div_div]
  norm_num

theorem exact_weight (m : MathExp) (sig : SignalInput) (now : ℤ) :
    agedWeight id m sig now = sig.weight m now := by
  rw [agedWeight, SignalInput.weight, SignalDecay.decayedWeight]
  cases getSpec sig.signalType with
  | none => rfl
  | some spec =>
    simp only [exact_days, exponentialDecay, SignalDecay.exponentialDecay, id,
      Timestamp.asUtc_instant]

theorem exact_add (t : Tally) (sig : SignalInput) (now : ℤ) :
    add id t sig (sig.weight m now) = t.add m now sig := by
  rw [add, Tally.add]
  cases getSpec sig.signalType <;> rfl

theorem exact_whyNow (h : now.aware = true) (inputs : List SignalInput) :
    computeWhyNowScore id m inputs now = SignalDecay.computeWhyNowScore m inputs now.instant := by
  rw [computeWhyNowScore_eq, SignalDecay.computeWhyNowScore_eq, tally_aware h, SignalDecay.tally]
  simp only [exact_weight, exact_add]
  rfl

theorem exact_freshness (h : now.aware = true) (signals : List FusedSignalInput) :
    triggerFreshness id signals now = SignalFusion.triggerFreshness signals now.instant := by
  cases signals with
  | nil => rfl
  | cons sig rest =>
    rw [triggerFreshness, SignalFusion.triggerFreshness]
    cases (rest.map FusedSignalInput.observedAt).foldlM laterOf sig.observedAt with
    | error e => rfl
    | ok t =>
      simp only [bind, Except.bind, since_asUtc h, exact_days, Timestamp.asUtc_instant]
      rfl

theorem exact_fusing (signals : List FusedSignalInput) (now : ℤ) :
    (ranked (fun x => |x.1|) (signals.map fun sig => (sig.weight m now, sig))).foldl
      (addScored id isoformat) {} = SignalFusion.fusing m isoformat signals now := by
  rw [ranked_map, List.foldl_map]
  rfl

/-- With exact numbers it is the fusion over the instants of the timestamps. -/
theorem fuse_exact (h : now.aware = true) (m : MathExp) (isoformat : Timestamp → String)
    (accountId : String) (signals : List FusedSignalInput) :
    fuseAccountSignals id m isoformat accountId signals now =
      SignalFusion.fuseAccountSignals m isoformat accountId signals now.instant := by
  have hweights : (signals.map fun sig => (agedWeight id m sig.toInput now.instant, sig)) =
      signals.map fun sig => (sig.weight m now.instant, sig) :=
    List.map_congr_left fun sig _ => by rw [exact_weight]; rfl
  rw [fuseAccountSignals, SignalFusion.fuseAccountSignals, scored_aware h, hweights,
    exact_whyNow h, exact_freshness h]
  simp only [bind, Except.bind, fusedOf, exact_fusing, List.length_map]

end TrustCopilot.FloatFusion
