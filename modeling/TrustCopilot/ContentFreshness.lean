import TrustCopilot.SignalDecay

/-! How fresh a page is, and whether it was crawled too recently to be crawled again. Times are
microseconds, scores exact rationals. -/
namespace TrustCopilot.ContentFreshness

open TrustCopilot.SignalDecay (Timestamp)

def day : ℤ := 86400000000

def hour : ℤ := 3600000000

/-- `age.days`: whole days, rounded down. -/
def wholeDays (age : ℤ) : ℤ := age / day

def computeFreshnessScore (observedAt : Option Timestamp) (now : ℤ) (maxAgeDays : ℤ := 90) : ℚ :=
  match observedAt with
  | none => 5 / 10
  | some observedAt =>
    let age := now - observedAt.asUtc.instant
    if wholeDays age ≤ 0 then 1
    else if maxAgeDays ≤ wholeDays age then 0
    else max 0 (1 - wholeDays age / maxAgeDays)

def isStale (lastCrawledAt : Option Timestamp) (now : ℤ) (minRecrawlHours : ℤ := 24) : Bool :=
  match lastCrawledAt with
  | none => false
  | some lastCrawledAt => now - lastCrawledAt.asUtc.instant < minRecrawlHours * hour

variable {t : Timestamp} {now later maxAgeDays : ℤ}

def scoreAt (days maxAgeDays : ℤ) : ℚ :=
  if days ≤ 0 then 1 else if maxAgeDays ≤ days then 0 else 1 - days / maxAgeDays

theorem ratio_bounds {days : ℤ} (h : 0 < days) (hmax : days < maxAgeDays) :
    (0 : ℚ) < days / maxAgeDays ∧ (days : ℚ) / maxAgeDays < 1 := by
  have hpos : (0 : ℚ) < days := Int.cast_pos.2 h
  have hmax' : (days : ℚ) < maxAgeDays := Int.cast_lt.2 hmax
  exact ⟨div_pos hpos (hpos.trans hmax'), (div_lt_one (hpos.trans hmax')).2 hmax'⟩

theorem score_eq (t : Timestamp) (now maxAgeDays : ℤ) :
    computeFreshnessScore (some t) now maxAgeDays =
      scoreAt (wholeDays (now - t.instant)) maxAgeDays := by
  rw [computeFreshnessScore, scoreAt, Timestamp.asUtc_instant]
  split_ifs with hnew hold
  · rfl
  · rfl
  · have hratio := ratio_bounds (not_le.1 hnew) (not_le.1 hold)
    exact max_eq_right (sub_nonneg.2 hratio.2.le)

theorem scoreAt_bounds (days maxAgeDays : ℤ) :
    0 ≤ scoreAt days maxAgeDays ∧ scoreAt days maxAgeDays ≤ 1 := by
  rw [scoreAt]
  split_ifs with hnew hold
  · exact ⟨zero_le_one, le_refl 1⟩
  · exact ⟨le_refl 0, zero_le_one⟩
  · have hratio := ratio_bounds (not_le.1 hnew) (not_le.1 hold)
    constructor <;> linarith

theorem scoreAt_eq_one_iff {days : ℤ} : scoreAt days maxAgeDays = 1 ↔ days ≤ 0 := by
  rw [scoreAt]
  split_ifs with hnew hold
  · exact iff_of_true rfl hnew
  · exact iff_of_false zero_ne_one hnew
  · have hratio := ratio_bounds (not_le.1 hnew) (not_le.1 hold)
    exact iff_of_false (by linarith) hnew

theorem scoreAt_eq_zero_iff {days : ℤ} :
    scoreAt days maxAgeDays = 0 ↔ 0 < days ∧ maxAgeDays ≤ days := by
  rw [scoreAt]
  split_ifs with hnew hold
  · exact iff_of_false one_ne_zero fun h => absurd hnew (not_le.2 h.1)
  · exact iff_of_true rfl ⟨not_le.1 hnew, hold⟩
  · have hratio := ratio_bounds (not_le.1 hnew) (not_le.1 hold)
    exact iff_of_false (by linarith) fun h => hold h.2

theorem scoreAt_antitone {a b : ℤ} (h : a ≤ b) : scoreAt b maxAgeDays ≤ scoreAt a maxAgeDays := by
  by_cases hnew : a ≤ 0
  · rw [scoreAt_eq_one_iff.2 hnew]
    exact (scoreAt_bounds b maxAgeDays).2
  · by_cases hold : maxAgeDays ≤ b
    · rw [scoreAt_eq_zero_iff.2 ⟨by omega, hold⟩]
      exact (scoreAt_bounds a maxAgeDays).1
    · have hmax : (0 : ℚ) ≤ maxAgeDays := Int.cast_nonneg (by omega)
      have hyoung : ¬ maxAgeDays ≤ a := by omega
      have hlater : ¬ b ≤ 0 := by omega
      rw [scoreAt, scoreAt, if_neg hnew, if_neg hlater, if_neg hyoung, if_neg hold]
      exact sub_le_sub_left (div_le_div_of_nonneg_right (Int.cast_le.2 h) hmax) 1

theorem wholeDays_mono {a b : ℤ} (h : a ≤ b) : wholeDays a ≤ wholeDays b :=
  Int.ediv_le_ediv (by decide) h

theorem wholeDays_nonpos_iff {age : ℤ} : wholeDays age ≤ 0 ↔ age < day := by
  rw [wholeDays, ← Int.lt_add_one_iff, zero_add, Int.ediv_lt_iff_lt_mul (by decide), one_mul]

/-- The score lies between nothing and one and only falls as time goes by. It is one for the first
day and nothing from the greatest age on; and a page that is skipped because it was crawled within
the last day, or within any shorter time, is as fresh as can be. -/
theorem freshness_laws (t : Timestamp) (now later maxAgeDays minRecrawlHours : ℤ) :
    let score := fun n => computeFreshnessScore (some t) n maxAgeDays
    (0 ≤ score now ∧ score now ≤ 1) ∧
    (now ≤ later → score later ≤ score now) ∧
    (score now = 1 ↔ now - t.instant < day) ∧
    (score now = 0 ↔ day ≤ now - t.instant ∧ maxAgeDays * day ≤ now - t.instant) ∧
    (minRecrawlHours ≤ 24 → isStale (some t) now minRecrawlHours = true →
      score now = 1) := by
  intro score
  have hscore : ∀ n, score n = scoreAt (wholeDays (n - t.instant)) maxAgeDays :=
    fun n => score_eq t n maxAgeDays
  have hone : score now = 1 ↔ now - t.instant < day := by
    rw [hscore, scoreAt_eq_one_iff, wholeDays_nonpos_iff]
  refine ⟨?_, fun h => ?_, hone, ?_, fun hhours hstale => ?_⟩
  · rw [hscore]
    exact scoreAt_bounds _ _
  · rw [hscore, hscore]
    exact scoreAt_antitone (wholeDays_mono (by omega))
  · rw [hscore, scoreAt_eq_zero_iff, ← not_le, wholeDays_nonpos_iff, not_lt, wholeDays,
      Int.le_ediv_iff_mul_le (by decide)]
  · rw [hone]
    have hrecent : now - t.instant < minRecrawlHours * hour := by
      rw [isStale, Timestamp.asUtc_instant] at hstale
      exact of_decide_eq_true hstale
    have hday : day = 24 * hour := rfl
    have hpos : (0 : ℤ) ≤ hour := by decide
    rw [hday]
    exact hrecent.trans_le (mul_le_mul_of_nonneg_right hhours hpos)

end TrustCopilot.ContentFreshness
