import Mathlib.Algebra.Order.Floor.Ring
import Mathlib.Algebra.Order.Field.Basic
import Mathlib.Tactic.Linarith
import Mathlib.Tactic.Positivity

/-! Rounding to the nearest integer, or to a number of decimals, with ties to even. -/
namespace TrustCopilot.Rounding

variable {R : Type*} [Field R] [LinearOrder R] [IsStrictOrderedRing R] [FloorRing R]

/-- The remainder lies beyond the half, or on it when the integer part is odd. -/
def RoundsUp (x : R) : Prop :=
  1 < 2 * Int.fract x ∨ 2 * Int.fract x = 1 ∧ ⌊x⌋ % 2 = 1

instance (x : R) : Decidable (RoundsUp x) := inferInstanceAs (Decidable (_ ∨ _))

def roundHalfEven (x : R) : ℤ := if RoundsUp x then ⌊x⌋ + 1 else ⌊x⌋

def roundTo (decimals : ℕ) (x : R) : R := roundHalfEven (x * 10 ^ decimals) / 10 ^ decimals

omit [IsStrictOrderedRing R] in
theorem floor_le_roundHalfEven (x : R) : ⌊x⌋ ≤ roundHalfEven x := by
  rw [roundHalfEven]
  split <;> omega

omit [IsStrictOrderedRing R] in
theorem roundHalfEven_le_floor (x : R) : roundHalfEven x ≤ ⌊x⌋ + 1 := by
  rw [roundHalfEven]
  split <;> omega

theorem roundHalfEven_intCast (k : ℤ) : roundHalfEven (k : R) = k := by
  have hup : ¬ RoundsUp (k : R) := by
    rw [RoundsUp, Int.fract_intCast]
    simp
  rw [roundHalfEven, if_neg hup, Int.floor_intCast]

theorem floor_neg_of_fract {x : R} (hx : Int.fract x ≠ 0) : ⌊-x⌋ = -⌊x⌋ - 1 := by
  have hpos := (Int.fract_nonneg x).lt_of_ne' hx
  have hsum := Int.floor_add_fract x
  have hone := Int.fract_lt_one x
  rw [Int.floor_eq_iff]
  push_cast
  constructor <;> linarith

theorem roundsUp_neg {x : R} (hx : Int.fract x ≠ 0) : RoundsUp (-x) ↔ ¬ RoundsUp x := by
  rw [RoundsUp, RoundsUp, Int.fract_neg hx, floor_neg_of_fract hx]
  rcases lt_trichotomy (2 * Int.fract x) 1 with hlt | heq | hgt
  · refine iff_of_true (Or.inl (by linarith)) ?_
    rintro (hbeyond | ⟨hhalf, -⟩) <;> linarith
  · have hhalf : 2 * (1 - Int.fract x) = 1 := by linarith
    simp only [heq, hhalf, lt_irrefl, false_or, true_and]
    omega
  · refine iff_of_false ?_ (not_not_intro (Or.inl hgt))
    rintro (hbeyond | ⟨hhalf, -⟩) <;> linarith

/-- Half to even is the same on both sides of zero. -/
theorem roundHalfEven_neg (x : R) : roundHalfEven (-x) = -roundHalfEven x := by
  by_cases hx : Int.fract x = 0
  · have hint := Int.floor_add_fract x
    rw [hx, add_zero] at hint
    rw [← hint, ← Int.cast_neg, roundHalfEven_intCast, roundHalfEven_intCast]
  · rw [roundHalfEven, roundHalfEven, floor_neg_of_fract hx]
    by_cases hup : RoundsUp x
    · rw [if_pos hup, if_neg (mt (roundsUp_neg hx).1 (not_not_intro hup))]
      omega
    · rw [if_neg hup, if_pos ((roundsUp_neg hx).2 hup)]
      omega

/-- Inside one unit rounding up is kept as the number grows. -/
theorem roundsUp_mono {x y : R} (h : x ≤ y) (hfloor : ⌊x⌋ = ⌊y⌋) (hx : RoundsUp x) :
    RoundsUp y := by
  have hfract : Int.fract x ≤ Int.fract y := by
    rw [Int.fract, Int.fract, hfloor]
    linarith
  rcases hx with hbeyond | ⟨hhalf, hodd⟩
  · left
    linarith
  · rcases hfract.lt_or_eq with hlt | heq
    · left
      linarith
    · right
      rw [← heq, ← hfloor]
      exact ⟨hhalf, hodd⟩

theorem roundHalfEven_mono {x y : R} (h : x ≤ y) : roundHalfEven x ≤ roundHalfEven y := by
  rcases (Int.floor_mono h).lt_or_eq with hlt | heq
  · have hx := roundHalfEven_le_floor x
    have hy := floor_le_roundHalfEven y
    omega
  · by_cases hx : RoundsUp x
    · rw [roundHalfEven, roundHalfEven, if_pos hx, if_pos (roundsUp_mono h heq hx), heq]
    · have hy := floor_le_roundHalfEven y
      rw [roundHalfEven, if_neg hx]
      omega

theorem roundTo_mono (decimals : ℕ) {x y : R} (h : x ≤ y) :
    roundTo decimals x ≤ roundTo decimals y := by
  have hpow : (0 : R) < 10 ^ decimals := by positivity
  have hscaled : x * 10 ^ decimals ≤ y * 10 ^ decimals := mul_le_mul_of_nonneg_right h hpow.le
  have hround : roundHalfEven (x * 10 ^ decimals) ≤ roundHalfEven (y * 10 ^ decimals) :=
    roundHalfEven_mono hscaled
  rw [roundTo, roundTo]
  exact div_le_div_of_nonneg_right (Int.cast_le.2 hround) hpow.le

/-- A number with so many decimals stays as it is. -/
theorem roundTo_exact (decimals : ℕ) (k : ℤ) :
    roundTo decimals ((k : R) / 10 ^ decimals) = (k : R) / 10 ^ decimals := by
  have hpow : (10 : R) ^ decimals ≠ 0 := by positivity
  rw [roundTo, div_mul_cancel₀ _ hpow, roundHalfEven_intCast]

@[simp] theorem roundTo_intCast (decimals : ℕ) (k : ℤ) : roundTo decimals (k : R) = k := by
  have hpow : (10 : R) ^ decimals ≠ 0 := by positivity
  have hscaled : (k : R) * 10 ^ decimals = ((k * 10 ^ decimals : ℤ) : R) := by push_cast; rfl
  rw [roundTo, hscaled, roundHalfEven_intCast, ← hscaled, mul_div_cancel_right₀ _ hpow]

@[simp] theorem roundTo_zero (decimals : ℕ) : roundTo decimals (0 : R) = 0 := by
  have hint := roundTo_intCast (R := R) decimals 0
  rwa [Int.cast_zero] at hint

@[simp] theorem roundTo_one (decimals : ℕ) : roundTo decimals (1 : R) = 1 := by
  have hint := roundTo_intCast (R := R) decimals 1
  rwa [Int.cast_one] at hint

theorem roundTo_clamped (decimals : ℕ) (x : R) :
    0 ≤ roundTo decimals (max 0 (min 1 x)) ∧ roundTo decimals (max 0 (min 1 x)) ≤ 1 := by
  constructor
  · calc 0 = roundTo decimals (0 : R) := (roundTo_zero decimals).symm
      _ ≤ roundTo decimals (max 0 (min 1 x)) := roundTo_mono decimals (le_max_left _ _)
  · calc roundTo decimals (max 0 (min 1 x)) ≤ roundTo decimals (1 : R) :=
          roundTo_mono decimals (max_le zero_le_one (min_le_left _ _))
      _ = 1 := roundTo_one decimals

theorem le_roundTo {decimals : ℕ} {k : ℤ} {x : R} (h : (k : R) / 10 ^ decimals ≤ x) :
    (k : R) / 10 ^ decimals ≤ roundTo decimals x := by
  rw [← roundTo_exact decimals k]
  exact roundTo_mono decimals h

/-- A tie at an even number is settled in favour of it. -/
theorem roundHalfEven_le_iff {k : ℤ} (hk : k % 2 = 0) {x : R} :
    roundHalfEven x ≤ k ↔ x ≤ k + 1 / 2 := by
  have hx := Int.floor_add_fract x
  constructor
  · intro h
    have hfloor := (floor_le_roundHalfEven x).trans h
    rcases hfloor.lt_or_eq with hlt | heq
    · have hle : (⌊x⌋ : R) + 1 ≤ k := by exact_mod_cast hlt
      have hfract := Int.fract_lt_one x
      linarith
    · have hdown : ¬ RoundsUp x := by
        intro hup
        rw [roundHalfEven, if_pos hup] at h
        omega
      rw [RoundsUp, not_or] at hdown
      rw [heq] at hx
      linarith [not_lt.1 hdown.1]
  · intro h
    have hfloor : ⌊x⌋ ≤ k := by
      apply Int.lt_add_one_iff.1
      apply Int.floor_lt.2
      push_cast
      linarith
    rcases hfloor.lt_or_eq with hlt | heq
    · have hle := roundHalfEven_le_floor x
      omega
    · have hdown : ¬ RoundsUp x := by
        rw [heq] at hx
        rintro (hbeyond | ⟨-, hodd⟩)
        · linarith
        · omega
      rw [roundHalfEven, if_neg hdown]
      exact hfloor

/-- An even number is reached from one half below it. -/
theorem le_roundHalfEven_iff {k : ℤ} (hk : k % 2 = 0) {x : R} :
    k ≤ roundHalfEven x ↔ (k : R) - 1 / 2 ≤ x := by
  have hx := Int.floor_add_fract x
  constructor
  · intro h
    rcases (h.trans (roundHalfEven_le_floor x)).lt_or_eq with hlt | heq
    · have hle : (k : R) ≤ ⌊x⌋ := by exact_mod_cast Int.lt_add_one_iff.1 hlt
      have hfract := Int.fract_nonneg x
      linarith
    · have hup : RoundsUp x := by
        by_contra hdown
        rw [roundHalfEven, if_neg hdown] at h
        omega
      have hhalf : 1 ≤ 2 * Int.fract x := hup.elim le_of_lt fun h => h.1.ge
      have hcast : (k : R) = ⌊x⌋ + 1 := by exact_mod_cast heq
      linarith
  · intro h
    by_cases hfloor : k ≤ ⌊x⌋
    · exact hfloor.trans (floor_le_roundHalfEven x)
    · have hle : (⌊x⌋ : R) + 1 ≤ k := by exact_mod_cast not_le.1 hfloor
      have hfract := Int.fract_lt_one x
      have heq : k = ⌊x⌋ + 1 := by
        have hlt : (k : R) < ⌊x⌋ + 2 := by linarith
        have hlt' : k < ⌊x⌋ + 2 := by exact_mod_cast hlt
        omega
      have hcast : (k : R) = ⌊x⌋ + 1 := by exact_mod_cast heq
      have hup : RoundsUp x := by
        rcases (show 1 ≤ 2 * Int.fract x by linarith).lt_or_eq with hlt | hhalf
        · exact Or.inl hlt
        · exact Or.inr ⟨hhalf.symm, by omega⟩
      rw [roundHalfEven, if_pos hup, heq]

theorem le_roundTo_iff {decimals : ℕ} {k : ℤ} (hk : k % 2 = 0) {x : R} :
    (k : R) / 10 ^ decimals ≤ roundTo decimals x ↔ ((k : R) - 1 / 2) / 10 ^ decimals ≤ x := by
  have hpos : (0 : R) < 10 ^ decimals := by positivity
  rw [roundTo, div_le_div_iff_of_pos_right hpos, Int.cast_le, le_roundHalfEven_iff hk,
    div_le_iff₀ hpos]

theorem roundTo_le_iff {decimals : ℕ} {k : ℤ} (hk : k % 2 = 0) {x : R} :
    roundTo decimals x ≤ (k : R) / 10 ^ decimals ↔ x ≤ ((k : R) + 1 / 2) / 10 ^ decimals := by
  have hpos : (0 : R) < 10 ^ decimals := by positivity
  rw [roundTo, div_le_div_iff_of_pos_right hpos, Int.cast_le, roundHalfEven_le_iff hk,
    le_div_iff₀ hpos]

/-- A share in percent stays between nothing and all. -/
theorem roundTo_percent {decimals part whole : ℕ} (h : part ≤ whole) :
    0 ≤ roundTo decimals ((part : R) / whole * 100) ∧
      roundTo decimals ((part : R) / whole * 100) ≤ 100 := by
  have hlow : (0 : R) ≤ (part : R) / whole * 100 := by positivity
  have hratio : (part : R) / whole ≤ 1 := div_le_one_of_le₀ (Nat.cast_le.2 h) (Nat.cast_nonneg _)
  have hhigh : (part : R) / whole * 100 ≤ ((100 : ℤ) : R) := by
    push_cast
    linarith
  have hlow' := roundTo_mono decimals hlow
  have hhigh' := roundTo_mono decimals hhigh
  rw [roundTo_zero] at hlow'
  rw [roundTo_intCast] at hhigh'
  exact ⟨hlow', by exact_mod_cast hhigh'⟩

end TrustCopilot.Rounding
