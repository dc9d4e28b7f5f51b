import TrustCopilot.Library.Rounding
import Mathlib.Algebra.Order.Field.Power
import Mathlib.Data.Int.Log
import Mathlib.Data.Rat.Floor

/-! Rounding to the nearest double, ties to even, subnormal numbers included. There are no
infinities: beyond the largest double the format goes on with larger exponents. -/
namespace TrustCopilot.Binary64

open TrustCopilot.Rounding

/-- The exponent of the last place of a double of this size. -/
def lastPlace (x : ℚ) : ℤ := max (Int.log 2 |x| - 52) (-1074)

def toDouble (x : ℚ) : ℚ := roundHalfEven (x / 2 ^ lastPlace x) * 2 ^ lastPlace x

variable {x y : ℚ}

theorem lt_lastPlace (x : ℚ) : |x| < 2 ^ (lastPlace x + 53) := by
  have hlog : |x| < 2 ^ (Int.log 2 |x| + 1) := by
    exact_mod_cast Int.lt_zpow_succ_log_self (b := 2) (by decide) |x|
  refine hlog.trans_le (zpow_le_zpow_right₀ (by norm_num) ?_)
  have hle : Int.log 2 |x| - 52 ≤ lastPlace x := le_max_left _ _
  omega

theorem lastPlace_le (hx : x ≠ 0) (h : -1074 < lastPlace x) : 2 ^ (lastPlace x + 52) ≤ |x| := by
  have hplace : lastPlace x = Int.log 2 |x| - 52 := by
    rw [lastPlace] at h ⊢
    omega
  rw [hplace, sub_add_cancel]
  exact_mod_cast Int.zpow_log_le_self (b := 2) (by decide) (abs_pos.2 hx)

theorem lastPlace_mono (hx : x ≠ 0) (h : |x| ≤ |y|) : lastPlace x ≤ lastPlace y :=
  max_le_max_right _ (Int.sub_le_sub_right (Int.log_mono_right (abs_pos.2 hx) h) 52)

/-- So many places above the last one stand the powers of two. -/
theorem power_eq (e : ℤ) (n : ℕ) : (2 : ℚ) ^ (e + n) = 2 ^ n * 2 ^ e := by
  rw [zpow_add₀ two_ne_zero, zpow_natCast, mul_comm]

theorem toDouble_le {n : ℕ} (h : x ≤ 2 ^ (lastPlace x + n)) :
    toDouble x ≤ 2 ^ (lastPlace x + n) := by
  have hplace : (0 : ℚ) < 2 ^ lastPlace x := zpow_pos two_pos _
  have hscaled : x / 2 ^ lastPlace x ≤ ((2 ^ n : ℤ) : ℚ) := by
    rw [div_le_iff₀ hplace]
    push_cast
    rwa [← power_eq]
  have hround := roundHalfEven_mono hscaled
  rw [roundHalfEven_intCast] at hround
  rw [toDouble, power_eq]
  exact mul_le_mul_of_nonneg_right (by exact_mod_cast hround) hplace.le

theorem le_toDouble {n : ℕ} (h : 2 ^ (lastPlace x + n) ≤ x) :
    2 ^ (lastPlace x + n) ≤ toDouble x := by
  have hplace : (0 : ℚ) < 2 ^ lastPlace x := zpow_pos two_pos _
  have hscaled : ((2 ^ n : ℤ) : ℚ) ≤ x / 2 ^ lastPlace x := by
    rw [le_div_iff₀ hplace]
    push_cast
    rwa [← power_eq]
  have hround := roundHalfEven_mono hscaled
  rw [roundHalfEven_intCast] at hround
  rw [toDouble, power_eq]
  exact mul_le_mul_of_nonneg_right (by exact_mod_cast hround) hplace.le

theorem lastPlace_neg (x : ℚ) : lastPlace (-x) = lastPlace x := by
  rw [lastPlace, abs_neg, lastPlace]

theorem toDouble_neg (x : ℚ) : toDouble (-x) = -toDouble x := by
  rw [toDouble, lastPlace_neg, neg_div, roundHalfEven_neg, Int.cast_neg, neg_mul, toDouble]

@[simp] theorem toDouble_zero : toDouble 0 = 0 := by
  have hround := roundHalfEven_intCast (R := ℚ) 0
  rw [Int.cast_zero] at hround
  rw [toDouble, zero_div, hround, Int.cast_zero, zero_mul]

theorem toDouble_mono_pos (hx : 0 < x) (h : x ≤ y) : toDouble x ≤ toDouble y := by
  have hy := hx.trans_le h
  have habs : |x| ≤ |y| := by rwa [abs_of_pos hx, abs_of_pos hy]
  have hplace : (0 : ℚ) < 2 ^ lastPlace x := zpow_pos two_pos _
  rcases (lastPlace_mono hx.ne' habs).lt_or_eq with hlt | heq
  · have hlow : -1074 < lastPlace y := (le_max_right _ _).trans_lt hlt
    have hx' := lt_lastPlace x
    have hy' := lastPlace_le hy.ne' hlow
    rw [abs_of_pos hx] at hx'
    rw [abs_of_pos hy] at hy'
    calc toDouble x ≤ 2 ^ (lastPlace x + 53) := toDouble_le (n := 53) hx'.le
      _ ≤ 2 ^ (lastPlace y + 52) := zpow_le_zpow_right₀ (by norm_num) (by omega)
      _ ≤ toDouble y := le_toDouble (n := 52) hy'
  · rw [toDouble, toDouble, ← heq]
    apply mul_le_mul_of_nonneg_right _ hplace.le
    exact_mod_cast roundHalfEven_mono (div_le_div_of_nonneg_right h hplace.le)

theorem toDouble_nonneg (h : 0 ≤ x) : 0 ≤ toDouble x := by
  have hplace : (0 : ℚ) < 2 ^ lastPlace x := zpow_pos two_pos _
  have hround := roundHalfEven_mono (div_nonneg h hplace.le)
  have hzero := roundHalfEven_intCast (R := ℚ) 0
  rw [Int.cast_zero] at hzero
  rw [hzero] at hround
  exact mul_nonneg (by exact_mod_cast hround) hplace.le

/-- The larger number is not rounded to the smaller double. -/
theorem toDouble_mono (h : x ≤ y) : toDouble x ≤ toDouble y := by
  rcases lt_trichotomy x 0 with hx | rfl | hx
  · rcases lt_or_ge y 0 with hy | hy
    · have hneg := toDouble_mono_pos (neg_pos.2 hy) (neg_le_neg h)
      rw [toDouble_neg, toDouble_neg] at hneg
      exact neg_le_neg_iff.1 hneg
    · have hneg := toDouble_nonneg (neg_pos.2 hx).le
      rw [toDouble_neg, Left.nonneg_neg_iff] at hneg
      exact hneg.trans (toDouble_nonneg hy)
  · rw [toDouble_zero]
    exact toDouble_nonneg h
  · exact toDouble_mono_pos hx h

@[simp] theorem toDouble_one : toDouble 1 = 1 := by decide +kernel

/-- An integer that the significand holds is a double. -/
theorem toDouble_intCast {n : ℤ} (h : |n| < 2 ^ 53) : toDouble (n : ℚ) = n := by
  have hplace : lastPlace (n : ℚ) ≤ 0 := by
    by_contra hpos
    have hne : (n : ℚ) ≠ 0 := by
      intro hzero
      rw [hzero] at hpos
      exact hpos (by simp [lastPlace])
    have hlow := lastPlace_le hne (by omega)
    have hhigh : |(n : ℚ)| < 2 ^ (53 : ℤ) := by exact_mod_cast h
    have hpower : (2 : ℚ) ^ (53 : ℤ) ≤ 2 ^ (lastPlace (n : ℚ) + 52) :=
      zpow_le_zpow_right₀ (by norm_num) (by omega)
    exact absurd (hpower.trans hlow) (not_le.2 hhigh)
  obtain ⟨k, hk⟩ := Int.eq_ofNat_of_zero_le (Int.neg_nonneg.2 hplace)
  have hpow : (2 : ℚ) ^ lastPlace (n : ℚ) = (2 ^ k)⁻¹ := by
    rw [← neg_neg (lastPlace (n : ℚ)), hk, zpow_neg, zpow_natCast]
  have hscaled : (n : ℚ) / 2 ^ lastPlace (n : ℚ) = ((n * 2 ^ k : ℤ) : ℚ) := by
    rw [hpow, div_inv_eq_mul]
    push_cast
    rfl
  rw [toDouble, hscaled, roundHalfEven_intCast, hpow]
  push_cast
  exact mul_inv_cancel_right₀ (pow_ne_zero k two_ne_zero) _

end TrustCopilot.Binary64
