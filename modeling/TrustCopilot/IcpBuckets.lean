import TrustCopilot.IcpScoring

/-! The bucket of an ICP score against the score itself. The bucket is taken before the score is
rounded, so the two disagree where rounding carries the score onto a threshold. -/
namespace TrustCopilot.IcpBuckets

open TrustCopilot.ContactDecision
open TrustCopilot.Rounding
open TrustCopilot.IcpScoring

def thresholds : List ℚ := [strongThreshold, goodThreshold, marginalThreshold]

/-! ### The thresholds that a score reaches -/

theorem bucketOf_strongFit_iff {score : ℚ} :
    bucketOf score = .strongFit ↔ strongThreshold ≤ score := by
  rw [bucketOf]
  split
  · next h => exact iff_of_true rfl h
  · next h =>
    refine iff_of_false (fun hb => ?_) h
    split at hb
    · cases hb
    · split at hb <;> cases hb

theorem bucketOf_good_iff {score : ℚ} :
    bucketOf score = .strongFit ∨ bucketOf score = .goodFit ↔ goodThreshold ≤ score := by
  obtain ⟨-, hstrong⟩ := thresholds_ordered
  rw [bucketOf]
  split
  · next h => exact iff_of_true (Or.inl rfl) (hstrong.trans h)
  · split
    · next h => exact iff_of_true (Or.inr rfl) h
    · next h =>
      refine iff_of_false ?_ h
      split <;> rintro (hb | hb) <;> cases hb

theorem bucketOf_eq_iff {x y : ℚ} :
    bucketOf x = bucketOf y ↔ ∀ t ∈ thresholds, t ≤ x ↔ t ≤ y := by
  constructor
  · intro h t ht
    simp only [thresholds, List.mem_cons, List.not_mem_nil, or_false] at ht
    rcases ht with rfl | rfl | rfl
    · rw [← bucketOf_strongFit_iff, ← bucketOf_strongFit_iff, h]
    · rw [← bucketOf_good_iff, ← bucketOf_good_iff, h]
    · rw [← not_lt, ← not_lt, ← bucketOf_outOfBounds_iff, ← bucketOf_outOfBounds_iff, h]
  · intro h
    have hstrong := h strongThreshold (by simp [thresholds])
    have hgood := h goodThreshold (by simp [thresholds])
    have hmarginal := h marginalThreshold (by simp [thresholds])
    simp only [bucketOf, hstrong, hgood, hmarginal]

/-! ### Rounding and the thresholds -/

def JustBelow (threshold score : ℚ) : Prop :=
  threshold - 1 / 2000 ≤ score ∧ score < threshold

instance (threshold score : ℚ) : Decidable (JustBelow threshold score) :=
  inferInstanceAs (Decidable (_ ∧ _))

/-- Every threshold is an even number of thousandths, so ties are rounded onto it. -/
theorem threshold_even {t : ℚ} (ht : t ∈ thresholds) :
    ∃ k : ℤ, k % 2 = 0 ∧ t = (k : ℚ) / 10 ^ 3 ∧ 300 ≤ k ∧ k ≤ 750 := by
  simp only [thresholds, List.mem_cons, List.not_mem_nil, or_false] at ht
  rcases ht with rfl | rfl | rfl
  · exact ⟨750, by decide, by norm_num [strongThreshold], by decide, by decide⟩
  · exact ⟨500, by decide, by norm_num [goodThreshold], by decide, by decide⟩
  · exact ⟨300, by decide, by norm_num [marginalThreshold], by decide, by decide⟩

theorem threshold_le_roundTo_iff {t x : ℚ} (ht : t ∈ thresholds) :
    t ≤ roundTo 3 x ↔ t - 1 / 2000 ≤ x := by
  obtain ⟨k, heven, rfl, -, -⟩ := threshold_even ht
  have hhalf : ((k : ℚ) - 1 / 2) / 10 ^ 3 = (k : ℚ) / 10 ^ 3 - 1 / 2000 := by ring
  rw [le_roundTo_iff heven, hhalf]

theorem bucketOf_roundTo_iff {x : ℚ} :
    bucketOf x = bucketOf (roundTo 3 x) ↔ ∀ t ∈ thresholds, ¬ JustBelow t x := by
  rw [bucketOf_eq_iff]
  refine forall₂_congr fun t ht => ?_
  rw [threshold_le_roundTo_iff ht]
  constructor
  · rintro h ⟨hnear, hbelow⟩
    exact not_le.2 hbelow (h.2 hnear)
  · intro h
    constructor
    · intro hle
      linarith
    · intro hnear
      exact not_lt.1 fun hbelow => h ⟨hnear, hbelow⟩

/-! ### The score that is returned -/

def fitPoints (f : FirmographicEstimate) (pains : List PainInference) (hasNegatives : Bool)
    (negativeWeight : ℚ) : ℚ :=
  b2bPoints f + sizePoints f + motionPoints f + industryPoints f + painPoints pains -
    if hasNegatives then negativePenalty negativeWeight else 0

theorem justBelow_clamped_iff {f : FirmographicEstimate} {pains : List PainInference}
    {hasNegatives : Bool} {negativeWeight t : ℚ} (ht : t ∈ thresholds) :
    JustBelow t (clampedScore f pains hasNegatives negativeWeight) ↔
      JustBelow t (fitPoints f pains hasNegatives negativeWeight) := by
  obtain ⟨k, -, rfl, hlow, hhigh⟩ := threshold_even ht
  have hlow' : (300 : ℚ) ≤ k := by exact_mod_cast hlow
  have hhigh' : (k : ℚ) ≤ 750 := by exact_mod_cast hhigh
  have hpos : ¬ (k : ℚ) / 10 ^ 3 - 1 / 2000 ≤ 0 := by
    rw [not_le]
    linarith
  have hone : ¬ (1 : ℚ) < (k : ℚ) / 10 ^ 3 := by
    rw [not_lt]
    linarith
  have hle : (k : ℚ) / 10 ^ 3 - 1 / 2000 ≤ 1 := by linarith
  have hzero : (0 : ℚ) < (k : ℚ) / 10 ^ 3 := by linarith
  have hclamp : clampedScore f pains hasNegatives negativeWeight =
      max 0 (min 1 (fitPoints f pains hasNegatives negativeWeight)) := rfl
  rw [hclamp, JustBelow, JustBelow, le_max_iff, le_min_iff, max_lt_iff, min_lt_iff]
  simp only [hpos, hone, hle, hzero, false_or, true_and]

def SelfConsistent (icp : ICPScore) : Prop := icp.bucket = bucketOf icp.score

instance (icp : ICPScore) : Decidable (SelfConsistent icp) :=
  inferInstanceAs (Decidable (_ = _))

/-- What the readers of a self-consistent score see: testing the bucket and testing the score come
to the same. -/
theorem SelfConsistent.readers {icp : ICPScore} (h : SelfConsistent icp) :
    (icp.bucket = .strongFit ↔ strongThreshold ≤ icp.score) ∧
      (icp.bucket = .strongFit ∨ icp.bucket = .goodFit ↔ goodThreshold ≤ icp.score) ∧
      (icp.bucket = .marginal ↔ marginalThreshold ≤ icp.score ∧ icp.score < goodThreshold) ∧
      (icp.bucket = .outOfBounds ↔ icp.score < marginalThreshold) := by
  rw [SelfConsistent] at h
  rw [h]
  exact ⟨bucketOf_strongFit_iff, bucketOf_good_iff, bucketOf_marginal_iff,
    bucketOf_outOfBounds_iff⟩

/-- A score is self-consistent exactly where the points do not lie just below a threshold. -/
theorem score_icp_consistent_iff (fmt : NumberFormat) (f : FirmographicEstimate)
    (pains : List PainInference) (hasNegatives : Bool) (negativeWeight : ℚ) :
    SelfConsistent (scoreIcp fmt f pains hasNegatives negativeWeight) ↔
      ∀ t ∈ thresholds, ¬ JustBelow t (fitPoints f pains hasNegatives negativeWeight) := by
  have hbucket : SelfConsistent (scoreIcp fmt f pains hasNegatives negativeWeight) ↔
      bucketOf (clampedScore f pains hasNegatives negativeWeight) =
        bucketOf (roundTo 3 (clampedScore f pains hasNegatives negativeWeight)) := Iff.rfl
  rw [hbucket, bucketOf_roundTo_iff]
  exact forall₂_congr fun t ht => not_congr (justBelow_clamped_iff ht)

def smallEdtech : FirmographicEstimate where
  sizeBand := "small"
  industry := "edtech"
  isB2b := 6 / 10
  enterpriseMotion := 3 / 10

/-- Fifty hundredths of points less a small penalty: the score is rounded up to the threshold, the
bucket stays below it. -/
theorem small_edtech_split :
    (scoreIcp roundedFormat smallEdtech [] true (1 / 1000)).score = goodThreshold ∧
      (scoreIcp roundedFormat smallEdtech [] true (1 / 1000)).bucket = .marginal ∧
      ¬ SelfConsistent (scoreIcp roundedFormat smallEdtech [] true (1 / 1000)) := by
  decide +kernel

end TrustCopilot.IcpBuckets
