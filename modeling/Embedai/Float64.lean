import Mathlib.Algebra.Ring.Int.Defs
import Mathlib.Algebra.Ring.Nat
import Mathlib.Data.Nat.Log
import Mathlib.Tactic.Common

namespace Embedai.Float64

def roundToMultiple (n unit : ℤ) : ℤ :=
  if 2 * (n % unit) < unit then n / unit * unit
  else if unit < 2 * (n % unit) then (n / unit + 1) * unit
  else if n / unit % 2 = 0 then n / unit * unit
  else (n / unit + 1) * unit

/-- An integer as a binary64 number, which has 53 significant bits. -/
def ofInt (n : ℤ) : ℤ := roundToMultiple n (2 ^ (n.natAbs.log2 + 1 - 53))

theorem roundToMultiple_of_dvd {n unit : ℤ} (hu : 0 < unit) (h : unit ∣ n) : roundToMultiple n unit = n := by
  have hr : n % unit = 0 := Int.emod_eq_zero_of_dvd h
  rw [roundToMultiple, hr, if_pos (by omega)]
  exact Int.ediv_mul_cancel h

theorem mul_le_roundToMultiple {n unit : ℤ} (hu : 0 < unit) : n / unit * unit ≤ roundToMultiple n unit := by
  have hle : n / unit * unit ≤ (n / unit + 1) * unit := Int.mul_le_mul_of_nonneg_right (by omega) (by omega)
  unfold roundToMultiple
  split_ifs <;> omega

theorem ofInt_pos {n : ℤ} (h : 0 < n) : 0 < ofInt n := by
  have hunit : (0 : ℤ) < 2 ^ (n.natAbs.log2 + 1 - 53) := Int.pow_pos (by omega)
  have hself : 2 ^ n.natAbs.log2 ≤ n.natAbs := Nat.log2_self_le (by omega)
  have hle : (2 : ℤ) ^ (n.natAbs.log2 + 1 - 53) ≤ n := by
    have hpow : 2 ^ (n.natAbs.log2 + 1 - 53) ≤ n.natAbs :=
      Nat.le_trans (Nat.pow_le_pow_right (by decide) (by omega)) hself
    rw [← Int.natAbs_of_nonneg (Int.le_of_lt h)]
    exact_mod_cast hpow
  have hquot : 0 < n / 2 ^ (n.natAbs.log2 + 1 - 53) := by
    have hone := Int.ediv_le_ediv hunit hle
    rw [Int.ediv_self (by omega)] at hone
    omega
  exact Int.lt_of_lt_of_le (Int.mul_pos hquot hunit) (mul_le_roundToMultiple hunit)

theorem ofInt_of_le {n : ℕ} (h : n ≤ 2 ^ 53) : ofInt n = n := by
  have hunit : (0 : ℤ) < 2 ^ ((n : ℤ).natAbs.log2 + 1 - 53) := Int.pow_pos (by omega)
  apply roundToMultiple_of_dvd hunit
  rw [Int.natAbs_natCast]
  rcases Nat.lt_or_eq_of_le h with hlt | rfl
  · have hlog : n.log2 < 53 := by
      rcases Nat.eq_zero_or_pos n with rfl | hpos
      · decide
      · exact (Nat.log2_lt (by omega)).mpr hlt
    have he : n.log2 + 1 - 53 = 0 := by omega
    rw [he]
    exact Int.one_dvd n
  · decide

end Embedai.Float64
