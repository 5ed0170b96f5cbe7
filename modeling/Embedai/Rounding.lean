import Mathlib.Algebra.Order.Floor.Ring
import Mathlib.Tactic.Linarith

namespace Embedai.Rounding

variable {K : Type} [Field K] [LinearOrder K] [FloorRing K] {x y : K}

def roundHalfEven (x : K) : ℤ :=
  if Int.fract x < 1 / 2 then ⌊x⌋
  else if 1 / 2 < Int.fract x then ⌊x⌋ + 1
  else if ⌊x⌋ % 2 = 0 then ⌊x⌋
  else ⌊x⌋ + 1

def roundTo (digits : ℕ) (x : K) : K := roundHalfEven (x * 10 ^ digits) / 10 ^ digits

theorem floor_le_roundHalfEven (x : K) : ⌊x⌋ ≤ roundHalfEven x := by
  unfold roundHalfEven
  split_ifs <;> omega

theorem roundHalfEven_le_floor_add_one (x : K) : roundHalfEven x ≤ ⌊x⌋ + 1 := by
  unfold roundHalfEven
  split_ifs <;> omega

variable [IsStrictOrderedRing K]

theorem roundHalfEven_intCast (n : ℤ) : roundHalfEven (n : K) = n := by
  have hhalf : (0 : K) < 1 / 2 := by norm_num
  rw [roundHalfEven, Int.fract_intCast, if_pos hhalf, Int.floor_intCast]

theorem roundHalfEven_mono (h : x ≤ y) : roundHalfEven x ≤ roundHalfEven y := by
  rcases (Int.floor_mono h).lt_or_eq with hlt | heq
  · calc roundHalfEven x ≤ ⌊x⌋ + 1 := roundHalfEven_le_floor_add_one x
      _ ≤ ⌊y⌋ := hlt
      _ ≤ roundHalfEven y := floor_le_roundHalfEven y
  · have hfract : Int.fract x ≤ Int.fract y := by
      rw [Int.fract, Int.fract, heq]
      exact sub_le_sub_right h _
    by_cases hx : Int.fract x < 1 / 2
    · rw [roundHalfEven, if_pos hx, heq]
      exact floor_le_roundHalfEven y
    · by_cases hy : 1 / 2 < Int.fract y
      · rw [roundHalfEven.eq_def y, if_neg hy.le.not_gt, if_pos hy, ← heq]
        exact roundHalfEven_le_floor_add_one x
      · -- both fractions are a half
        have hxy : Int.fract x = Int.fract y := le_antisymm hfract (le_trans (not_lt.mp hy) (not_lt.mp hx))
        rw [roundHalfEven, roundHalfEven, hxy, heq]

theorem roundTo_mono (digits : ℕ) (h : x ≤ y) : roundTo digits x ≤ roundTo digits y := by
  have hpow : (0 : K) < 10 ^ digits := by positivity
  apply div_le_div_of_nonneg_right _ hpow.le
  exact Int.cast_le.mpr (roundHalfEven_mono (mul_le_mul_of_nonneg_right h hpow.le))

theorem roundTo_intCast (digits : ℕ) (n : ℤ) : roundTo digits (n : K) = n := by
  have hpow : (10 : K) ^ digits ≠ 0 := by positivity
  have hscaled : (n : K) * 10 ^ digits = ((n * 10 ^ digits : ℤ) : K) := by push_cast; rfl
  rw [roundTo, hscaled, roundHalfEven_intCast, ← hscaled]
  exact mul_div_cancel_right₀ _ hpow

theorem roundTo_mem_Icc (digits : ℕ) {a b : ℤ} (h : x ∈ Set.Icc (a : K) b) : roundTo digits x ∈ Set.Icc (a : K) b := by
  constructor
  · rw [← roundTo_intCast digits a]
    exact roundTo_mono digits h.1
  · rw [← roundTo_intCast digits b]
    exact roundTo_mono digits h.2

end Embedai.Rounding
