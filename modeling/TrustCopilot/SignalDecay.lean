import TrustCopilot.TriggerTaxonomy
import TrustCopilot.Library.Rounding
import Mathlib.Data.List.Perm.Basic
import Mathlib.Data.Rat.Floor

/-! What a signal still weighs after a time, and the why-now score of a list of signals. Weights
and scores are exact rationals; times are microseconds. -/
namespace TrustCopilot.SignalDecay

open TrustCopilot.Rounding
open TrustCopilot.TriggerTaxonomy

/-- `math.exp`, and the arguments for which it raises because the result is out of range. -/
structure MathExp where
  exp : ℚ → ℚ
  overflows : ℚ → Bool
  nonneg : ∀ x, 0 ≤ exp x
  mono : Monotone exp

inductive PyError where
  | typeError
  | overflowError
  deriving DecidableEq, Repr

def MathExp.apply (m : MathExp) (x : ℚ) : Except PyError ℚ :=
  if m.overflows x then .error .overflowError else .ok (m.exp x)

/-- A `datetime`: what its clock shows, and its offset from UTC unless it is naive. -/
structure Timestamp where
  wall : ℤ
  utcoffset : Option ℤ
  deriving DecidableEq, Repr

def Timestamp.aware (t : Timestamp) : Bool := t.utcoffset.isSome

/-- `replace(tzinfo=timezone.utc)` where there is no `tzinfo`. -/
def Timestamp.asUtc (t : Timestamp) : Timestamp :=
  if t.utcoffset = none then { t with utcoffset := some 0 } else t

/-- The time in UTC; a naive one is read as UTC. -/
def Timestamp.instant (t : Timestamp) : ℤ := t.wall - t.utcoffset.getD 0

@[simp] theorem Timestamp.asUtc_instant (t : Timestamp) : t.asUtc.instant = t.instant := by
  rw [asUtc]
  split
  · next h => simp [instant, h]
  · rfl

@[simp] theorem Timestamp.asUtc_aware (t : Timestamp) : t.asUtc.aware = true := by
  rw [asUtc]
  split
  · rfl
  · next h => exact Option.isSome_iff_ne_none.2 h

@[simp] theorem Timestamp.asUtc_asUtc (t : Timestamp) : t.asUtc.asUtc = t.asUtc := by
  have haware := t.asUtc_aware
  rw [Timestamp.aware, Option.isSome_iff_ne_none] at haware
  rw [asUtc, if_neg haware]

def days (span : ℤ) : ℚ := span / 86400000000

theorem days_mono {a b : ℤ} (h : a ≤ b) : days a ≤ days b :=
  div_le_div_of_nonneg_right (Int.cast_le.2 h) (by norm_num)

section Weights

variable (m : MathExp)

-- the callers pass an age that is not negative, so that `exp` does not raise
def exponentialDecay (ageDays : ℚ) (halfLifeDays : ℤ) : ℚ :=
  if halfLifeDays ≤ 0 then 0 else m.exp (-(693 / 1000) * ageDays / halfLifeDays)

def decayedWeight (signalType : String) (observedAt : Timestamp) (now : ℤ) : ℚ :=
  match getSpec signalType with
  | none => 0
  | some spec =>
    let ageDays := max 0 (days (now - observedAt.asUtc.instant))
    spec.baseWeight * exponentialDecay m ageDays spec.decayHalfLifeDays

structure SignalInput where
  signalType : String
  observedAt : Timestamp
  confidence : ℚ := 1
  deriving DecidableEq, Repr

def SignalInput.weight (sig : SignalInput) (now : ℤ) : ℚ :=
  decayedWeight m sig.signalType sig.observedAt now * sig.confidence

structure Tally where
  positiveSum : ℚ := 0
  negativeSum : ℚ := 0
  maxPositive : ℚ := 0
  deriving DecidableEq, Repr

def Tally.raw (t : Tally) : ℚ := t.positiveSum - t.negativeSum * (5 / 10)

def Tally.exponent (t : Tally) : ℚ := -2 * (t.raw - 5 / 10)

def Tally.add (now : ℤ) (t : Tally) (sig : SignalInput) : Tally :=
  let w := sig.weight m now
  match getSpec sig.signalType with
  | some spec =>
    if spec.baseWeight < 0 then { t with negativeSum := t.negativeSum + |w| }
    else { t with
      positiveSum := t.positiveSum + w
      maxPositive := max t.maxPositive |spec.baseWeight| }
  | none => { t with positiveSum := t.positiveSum + w, maxPositive := max t.maxPositive 0 }

def tally (signals : List SignalInput) (now : ℤ) : Tally := signals.foldl (Tally.add m now) {}

def normalized (e : ℚ) : ℚ := roundTo 4 (max 0 (min 1 (1 / (1 + e))))

def Tally.score (t : Tally) : Except PyError ℚ :=
  if t.maxPositive = 0 then .ok 0 else (m.apply t.exponent).map normalized

/-- The score is nothing, or `exp` does not raise for it. -/
def Tally.InRange (t : Tally) : Prop := t.maxPositive = 0 ∨ m.overflows t.exponent = false

instance (t : Tally) : Decidable (t.InRange m) := inferInstanceAs (Decidable (_ ∨ _))

def computeWhyNowScore (signals : List SignalInput) (now : ℤ) : Except PyError ℚ :=
  if signals = [] then .ok 0 else (tally m signals now).score m

end Weights

variable {m : MathExp} {sig : SignalInput} {signals : List SignalInput} {t t' : Tally} {now : ℤ}

/-! ### Weights -/

theorem exponentialDecay_nonneg (m : MathExp) (ageDays : ℚ) (halfLifeDays : ℤ) :
    0 ≤ exponentialDecay m ageDays halfLifeDays := by
  rw [exponentialDecay]
  split
  · exact le_refl 0
  · exact m.nonneg _

theorem exponentialDecay_antitone (m : MathExp) {a b : ℚ} (h : a ≤ b) (halfLifeDays : ℤ) :
    exponentialDecay m b halfLifeDays ≤ exponentialDecay m a halfLifeDays := by
  rw [exponentialDecay, exponentialDecay]
  by_cases hhalf : halfLifeDays ≤ 0
  · rw [if_pos hhalf, if_pos hhalf]
  · rw [if_neg hhalf, if_neg hhalf]
    apply m.mono
    apply div_le_div_of_nonneg_right
    · linarith
    · exact Int.cast_nonneg (not_le.1 hhalf).le

theorem decayedWeight_nonneg (m : MathExp) {signalType : String}
    (h : getCategory signalType ≠ .negative) (observedAt : Timestamp) (now : ℤ) :
    0 ≤ decayedWeight m signalType observedAt now := by
  rw [ne_eq, getCategory_negative_iff] at h
  rw [decayedWeight]
  cases hs : getSpec signalType with
  | none => exact le_refl 0
  | some spec =>
    have hbase : 0 ≤ spec.baseWeight := not_lt.1 fun hlt => h ⟨spec, hs, hlt⟩
    exact mul_nonneg hbase (exponentialDecay_nonneg m _ _)

/-- A signal that speaks for an account speaks less loudly as time passes. -/
theorem decayedWeight_antitone (m : MathExp) {signalType : String}
    (h : getCategory signalType ≠ .negative) (observedAt : Timestamp) {now now' : ℤ}
    (hle : now ≤ now') :
    decayedWeight m signalType observedAt now' ≤ decayedWeight m signalType observedAt now := by
  rw [ne_eq, getCategory_negative_iff] at h
  rw [decayedWeight, decayedWeight]
  cases hs : getSpec signalType with
  | none => exact le_refl 0
  | some spec =>
    have hbase : 0 ≤ spec.baseWeight := not_lt.1 fun hlt => h ⟨spec, hs, hlt⟩
    have hage : days (now - observedAt.asUtc.instant) ≤ days (now' - observedAt.asUtc.instant) :=
      days_mono (Int.sub_le_sub_right hle _)
    apply mul_le_mul_of_nonneg_left _ hbase
    exact exponentialDecay_antitone m (max_le_max_left 0 hage) _

/-- Only the instant of an observation counts, whether it is marked as UTC or not. -/
@[simp] theorem decayedWeight_asUtc (m : MathExp) (signalType : String) (observedAt : Timestamp)
    (now : ℤ) : decayedWeight m signalType observedAt.asUtc now =
      decayedWeight m signalType observedAt now := by
  rw [decayedWeight, decayedWeight, Timestamp.asUtc_asUtc]

/-! ### Sums -/

theorem add_negative (h : getCategory sig.signalType = .negative) (t : Tally) :
    t.add m now sig = { t with negativeSum := t.negativeSum + |sig.weight m now| } := by
  obtain ⟨spec, hs, hlt⟩ := getCategory_negative_iff.1 h
  simp only [Tally.add, hs, if_pos hlt]

theorem add_other (h : getCategory sig.signalType ≠ .negative) :
    ∃ x, 0 ≤ x ∧ ∀ (now : ℤ) (t : Tally), t.add m now sig = { t with
      positiveSum := t.positiveSum + sig.weight m now
      maxPositive := max t.maxPositive x } := by
  rw [ne_eq, getCategory_negative_iff] at h
  cases hs : getSpec sig.signalType with
  | none => exact ⟨0, le_refl 0, fun now t => by simp only [Tally.add, hs]⟩
  | some spec =>
    have hbase : ¬ spec.baseWeight < 0 := fun hlt => h ⟨spec, hs, hlt⟩
    refine ⟨|spec.baseWeight|, abs_nonneg _, fun now t => ?_⟩
    simp only [Tally.add, hs, if_neg hbase]

/-- Two signals are counted alike in either order. -/
instance add_rightCommutative (m : MathExp) (now : ℤ) : RightCommutative (Tally.add m now) := by
  constructor
  intro t a b
  by_cases ha : getCategory a.signalType = .negative
  · by_cases hb : getCategory b.signalType = .negative
    · simp only [add_negative ha, add_negative hb, add_right_comm]
    · obtain ⟨y, -, hadd⟩ := add_other (m := m) hb
      simp only [add_negative ha, hadd]
  · obtain ⟨x, -, hadd⟩ := add_other (m := m) ha
    by_cases hb : getCategory b.signalType = .negative
    · simp only [add_negative hb, hadd]
    · obtain ⟨y, -, hadd'⟩ := add_other (m := m) hb
      simp only [hadd, hadd', add_right_comm, max_right_comm]

theorem tally_perm {signals' : List SignalInput} (h : signals.Perm signals') (now : ℤ) :
    tally m signals now = tally m signals' now := by
  rw [tally, tally]
  exact h.foldl_eq _

theorem tally_insert (before after : List SignalInput) (sig : SignalInput) (now : ℤ) :
    tally m (before ++ sig :: after) now = (tally m (before ++ after) now).add m now sig := by
  have hperm : (before ++ sig :: after).Perm (before ++ after ++ [sig]) := by
    rw [List.append_assoc]
    exact (List.perm_append_singleton sig after).symm.append_left before
  rw [tally_perm hperm, tally, List.foldl_append]
  rfl

theorem maxPositive_nonneg (signals : List SignalInput) (now : ℤ) :
    0 ≤ (tally m signals now).maxPositive := by
  have hzero : 0 ≤ ({} : Tally).maxPositive := le_refl 0
  refine List.foldlRecOn signals (Tally.add m now) (motive := fun t => 0 ≤ t.maxPositive)
    hzero fun t ht sig _ => ?_
  by_cases h : getCategory sig.signalType = .negative
  · rw [add_negative h]
    exact ht
  · obtain ⟨x, -, hadd⟩ := add_other (m := m) h
    rw [hadd]
    exact ht.trans (le_max_left _ _)

/-! ### Scores -/

theorem normalized_bounds (e : ℚ) : 0 ≤ normalized e ∧ normalized e ≤ 1 := roundTo_clamped 4 _

theorem normalized_antitone {a b : ℚ} (ha : 0 ≤ a) (h : a ≤ b) :
    normalized b ≤ normalized a := by
  apply roundTo_mono
  apply max_le_max_left
  apply min_le_min_left
  exact one_div_le_one_div_of_le (by linarith) (by linarith)

/-- There is nothing to score, or `exp` raises, or the score is that of the sigmoid. -/
theorem score_cases (m : MathExp) (t : Tally) :
    (t.maxPositive = 0 ∧ t.score m = .ok 0) ∨
    t.maxPositive ≠ 0 ∧
      (m.overflows t.exponent = true ∧ t.score m = .error .overflowError ∨
        m.overflows t.exponent = false ∧ t.score m = .ok (normalized (m.exp t.exponent))) := by
  rw [Tally.score, MathExp.apply]
  by_cases hmax : t.maxPositive = 0
  · exact Or.inl ⟨hmax, if_pos hmax⟩
  · refine Or.inr ⟨hmax, ?_⟩
    rw [if_neg hmax]
    cases m.overflows t.exponent with
    | true => exact Or.inl ⟨rfl, rfl⟩
    | false => exact Or.inr ⟨rfl, rfl⟩

theorem score_returns_iff : (∃ score, t.score m = .ok score) ↔ t.InRange m := by
  rw [Tally.InRange]
  rcases score_cases m t with ⟨hmax, hs⟩ | ⟨hmax, ⟨hover, hs⟩ | ⟨hover, hs⟩⟩
  · exact iff_of_true ⟨_, hs⟩ (Or.inl hmax)
  · rw [hs, hover]
    exact iff_of_false (fun ⟨_, h⟩ => by cases h) (by simp [hmax])
  · exact iff_of_true ⟨_, hs⟩ (Or.inr hover)

theorem score_ok {score : ℚ} (h : t.score m = .ok score) :
    (t.maxPositive = 0 ∧ score = 0) ∨
      t.maxPositive ≠ 0 ∧ score = normalized (m.exp t.exponent) := by
  rcases score_cases m t with ⟨hmax, hs⟩ | ⟨hmax, ⟨-, hs⟩ | ⟨-, hs⟩⟩
  · rw [hs] at h
    exact Or.inl ⟨hmax, (Except.ok.inj h).symm⟩
  · rw [hs] at h
    cases h
  · rw [hs] at h
    exact Or.inr ⟨hmax, (Except.ok.inj h).symm⟩

theorem score_bounds {score : ℚ} (h : t.score m = .ok score) : 0 ≤ score ∧ score ≤ 1 := by
  rcases score_ok h with ⟨-, rfl⟩ | ⟨-, rfl⟩
  · exact ⟨le_refl 0, by norm_num⟩
  · exact normalized_bounds _

/-- The score follows the raw sum, as long as no positive trigger is lost. -/
theorem score_le {score score' : ℚ} (hraw : t.raw ≤ t'.raw)
    (hmax : t.maxPositive ≠ 0 → t'.maxPositive ≠ 0) (h : t.score m = .ok score)
    (h' : t'.score m = .ok score') : score ≤ score' := by
  rcases score_ok h with ⟨-, rfl⟩ | ⟨hne, rfl⟩
  · exact (score_bounds h').1
  · rcases score_ok h' with ⟨hzero, -⟩ | ⟨-, rfl⟩
    · exact absurd hzero (hmax hne)
    · apply normalized_antitone (m.nonneg _)
      apply m.mono
      rw [Tally.exponent, Tally.exponent]
      linarith

theorem computeWhyNowScore_eq (m : MathExp) (signals : List SignalInput) (now : ℤ) :
    computeWhyNowScore m signals now = (tally m signals now).score m := by
  rw [computeWhyNowScore]
  split
  · next h =>
    rw [h]
    rfl
  · rfl

/-! ### A rational stand-in for `exp` -/

/-- It is right at 0, and raises where `math.exp` does. -/
def standInExp : MathExp where
  exp x := if x ≤ 0 then 1 / (1 - x) else 1 + x
  overflows x := decide (70978 / 100 < x)
  nonneg x := by
    split
    · apply one_div_nonneg.2
      linarith
    · linarith
  mono x y h := by
    dsimp only
    by_cases hx : x ≤ 0
    · by_cases hy : y ≤ 0
      · rw [if_pos hx, if_pos hy]
        exact one_div_le_one_div_of_le (by linarith) (by linarith)
      · rw [if_pos hx, if_neg hy]
        have hone : 1 / (1 - x) ≤ 1 := (div_le_one (by linarith)).2 (by linarith)
        linarith
    · rw [if_neg hx, if_neg fun hy => hx (h.trans hy)]
      linarith

end TrustCopilot.SignalDecay
