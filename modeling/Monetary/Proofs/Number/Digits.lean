import Monetary.Number.Digits
import Mathlib.Algebra.Order.Field.Rat
import Mathlib.Algebra.Order.Ring.Cast
import Mathlib.Tactic.Ring

/-!
# Powers of ten and digit counts

A digit count places a number between two neighbouring powers of ten. Every later fact about
precision comes from these two bounds: padding a number with zeros adds exactly their number to
the count, and a smaller number never has more digits.
-/

namespace Monetary

/-- The power of ten among the rational numbers. -/
@[simp] theorem cast_tenPow (exponent : Nat) : (tenPow exponent : ℚ) = 10 ^ exponent := by
  simp [tenPow]

/-- Powers of ten with integer exponents are multiplied by adding the exponents. -/
theorem ten_zpow_mul {a b c : Int} (h : a + b = c) : (10 : ℚ) ^ a * 10 ^ b = 10 ^ c := by
  rw [← zpow_add₀ (by norm_num), h]

/-- Of two exponents that cancel, one power of ten is the inverse of the other. -/
theorem ten_zpow_one_sub_mul (exponent : Int) :
    (10 : ℚ) ^ (1 - exponent) * 10 ^ (exponent - 1) = 1 := by
  rw [ten_zpow_mul (c := 0) (by ring), zpow_zero]

/-- A power of ten is no zero. -/
@[simp] theorem tenPow_ne_zero (exponent : Nat) : tenPow exponent ≠ 0 :=
  (tenPow_pos exponent).ne'

/-- A power that is not larger has an exponent that is not larger. -/
theorem le_of_tenPow_le_tenPow {a b : Nat} (h : tenPow a ≤ tenPow b) : a ≤ b :=
  (Nat.pow_le_pow_iff_right (by decide)).mp h

/-- A number is below the power of ten at its digit count. -/
theorem lt_tenPow_digitCount (n : Nat) : n < tenPow (digitCount n) :=
  (digitCount_le_iff n (digitCount_pos n)).mp (Nat.le_refl _)

/-- A number with more than so many digits reaches that power of ten. -/
theorem tenPow_le_of_lt_digitCount {n count : Nat} (hcount : 0 < count)
    (h : count < digitCount n) : tenPow count ≤ n := by
  rw [← Nat.not_lt, ← digitCount_le_iff n hcount]
  omega

/-- A number that reaches a power of ten has more digits than its exponent says. -/
theorem lt_digitCount_of_tenPow_le {n count : Nat} (h : tenPow count ≤ n) :
    count < digitCount n := by
  rcases Nat.eq_zero_or_pos count with rfl | hcount
  · exact digitCount_pos n
  · rw [← Nat.not_le, digitCount_le_iff n hcount]
    omega

/-- A number other than zero reaches the power of ten of its leading digit. -/
theorem tenPow_pred_digitCount_le {n : Nat} (hn : n ≠ 0) : tenPow (digitCount n - 1) ≤ n := by
  rcases Nat.lt_or_ge n 10 with hsmall | hlarge
  · rw [digitCount_of_lt_ten hsmall, Nat.sub_self, tenPow_zero]
    exact Nat.one_le_iff_ne_zero.mpr hn
  · have hcount := digitCount_of_ten_le hlarge
    have hpos := digitCount_pos (n / 10)
    exact tenPow_le_of_lt_digitCount (by omega) (by omega)

/-- Between two neighbouring powers of ten all numbers have one digit count. -/
theorem digitCount_eq_of_bounds {n count : Nat} (hlow : tenPow count ≤ n)
    (hhigh : n < tenPow (count + 1)) : digitCount n = count + 1 := by
  have hmore := lt_digitCount_of_tenPow_le hlow
  have hless := (digitCount_le_iff n (Nat.succ_pos count)).mpr hhigh
  omega

/-- A smaller number never has more digits. -/
theorem digitCount_mono {m n : Nat} (h : m ≤ n) : digitCount m ≤ digitCount n :=
  (digitCount_le_iff m (digitCount_pos n)).mpr (Nat.lt_of_le_of_lt h (lt_tenPow_digitCount n))

/-- Zeros at the end of a number other than zero all count as digits. -/
theorem digitCount_mul_tenPow {n : Nat} (hn : n ≠ 0) (k : Nat) :
    digitCount (n * tenPow k) = digitCount n + k := by
  have hpos := digitCount_pos n
  have hlow : tenPow (digitCount n - 1 + k) ≤ n * tenPow k := by
    rw [tenPow_add]
    exact Nat.mul_le_mul_right _ (tenPow_pred_digitCount_le hn)
  have hhigh : n * tenPow k < tenPow (digitCount n - 1 + k + 1) := by
    rw [show digitCount n - 1 + k + 1 = digitCount n + k by omega, tenPow_add]
    exact Nat.mul_lt_mul_of_pos_right (lt_tenPow_digitCount n) (tenPow_pos k)
  have := digitCount_eq_of_bounds hlow hhigh
  omega

/-- The size of a coefficient lies between the powers of ten that its digit count names. -/
theorem abs_coefficient_bounds {coefficient : Int} (h : coefficient ≠ 0) :
    (10 : ℚ) ^ ((digitCount coefficient.natAbs : Int) - 1) ≤ |(coefficient : ℚ)| ∧
      |(coefficient : ℚ)| < 10 ^ (digitCount coefficient.natAbs : Int) := by
  have hpos := digitCount_pos coefficient.natAbs
  have hcast : |(coefficient : ℚ)| = (coefficient.natAbs : ℚ) := by
    rw [Nat.cast_natAbs, Int.cast_abs]
  rw [hcast]
  constructor
  · rw [← Nat.cast_pred hpos, zpow_natCast, ← cast_tenPow]
    exact_mod_cast tenPow_pred_digitCount_le (Int.natAbs_ne_zero.mpr h)
  · rw [zpow_natCast, ← cast_tenPow]
    exact_mod_cast lt_tenPow_digitCount _

/-- A precision other than zero allows at least one digit. -/
theorem precision_pos {precision : UInt32} (h : precision ≠ 0) : 0 < precision.toNat := by
  apply Nat.pos_of_ne_zero
  intro hzero
  exact h (UInt32.toNat_inj.mp hzero)

end Monetary
