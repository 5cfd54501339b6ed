import Monetary.Decimal.Arithmetic
import Monetary.Proofs.Number.Digits
import Mathlib.Order.Compare
import Mathlib.Algebra.Order.Ring.Cast
import Mathlib.Tactic.Linarith
import Mathlib.Tactic.Positivity

/-!
# The value of a decimal number

A coefficient at a scale stands for a rational number. The scale may be any integer here, so that
the intermediate results of an operation have a value before their scale is checked. Appending
zeros to the coefficient while raising the scale keeps the value; sums, differences and products of
decimal numbers are those of their values.
-/

namespace Monetary.Decimal

/-- The rational number that a coefficient at a scale stands for. -/
def valueOf (coefficient scale : Int) : ℚ :=
  coefficient * 10 ^ (-scale)

/-- The rational number that a decimal number stands for. -/
def value (x : Decimal) : ℚ :=
  valueOf x.coefficient x.scale.toInt

/-- The unit of a scale is above zero. -/
theorem unit_pos (scale : Int) : (0 : ℚ) < 10 ^ (-scale) :=
  zpow_pos (by norm_num) _

/-- The opposite coefficient stands for the opposite number. -/
theorem valueOf_neg (coefficient scale : Int) :
    valueOf (-coefficient) scale = -valueOf coefficient scale := by
  simp [valueOf]

/-- Coefficients at one scale are added by adding what they stand for. -/
theorem valueOf_add (a b scale : Int) :
    valueOf (a + b) scale = valueOf a scale + valueOf b scale := by
  simp only [valueOf, Int.cast_add]
  ring

/-- Coefficients at one scale are subtracted by subtracting what they stand for. -/
theorem valueOf_sub (a b scale : Int) :
    valueOf (a - b) scale = valueOf a scale - valueOf b scale := by
  simp only [valueOf, Int.cast_sub]
  ring

/-- Coefficients are multiplied at the sum of their scales. -/
theorem valueOf_mul (a b s t : Int) :
    valueOf (a * b) (s + t) = valueOf a s * valueOf b t := by
  have hunit : (10 : ℚ) ^ (-s) * 10 ^ (-t) = 10 ^ (-(s + t)) := ten_zpow_mul (by ring)
  simp only [valueOf, Int.cast_mul, ← hunit]
  ring

/-- Zeros at the end of a coefficient count for nothing when the scale grows by their number. -/
theorem valueOf_mul_tenPow (coefficient scale : Int) (k : Nat) :
    valueOf (coefficient * tenPow k) (scale + k) = valueOf coefficient scale := by
  have hunit : (10 : ℚ) ^ k * 10 ^ (-(scale + k)) = 10 ^ (-scale) := by
    rw [← zpow_natCast]
    exact ten_zpow_mul (by ring)
  simp only [valueOf, Int.cast_mul, Int.cast_natCast, cast_tenPow]
  rw [mul_assoc, hunit]

/-- What coefficients at one scale stand for is ordered as the coefficients are. -/
theorem compare_valueOf (a b scale : Int) :
    compare (valueOf a scale) (valueOf b scale) = compare a b := by
  rw [← cmp_eq_compare, ← cmp_eq_compare, valueOf, valueOf, cmp_mul_pos_right (unit_pos scale)]
  exact Int.cast_strictMono.cmp_map_eq a b

/-- At one scale, different coefficients stand for different numbers. -/
theorem valueOf_inj {a b : Int} (scale : Int) : valueOf a scale = valueOf b scale ↔ a = b := by
  rw [valueOf, valueOf, mul_left_inj' (unit_pos scale).ne', Int.cast_inj]

/-- A coefficient at the scale zero stands for itself. -/
@[simp] theorem valueOf_scale_zero (coefficient : Int) : valueOf coefficient 0 = coefficient := by
  simp [valueOf]

/-- Without digits after the point a coefficient stands for an integer. -/
theorem exists_int_eq_valueOf (coefficient : Int) {scale : Int} (hscale : scale ≤ 0) :
    ∃ n : Int, valueOf coefficient scale = n := by
  obtain ⟨k, hk⟩ : ∃ k : Nat, scale + k = 0 := ⟨(-scale).toNat, by omega⟩
  refine ⟨coefficient * tenPow k, ?_⟩
  rw [← valueOf_mul_tenPow _ _ k, hk, valueOf_scale_zero]

/-- With digits after the point a coefficient stands for an integer exactly if all these digits are
zeros. -/
theorem valueOf_eq_int_iff {coefficient n : Int} {k : Nat} :
    valueOf coefficient k = n ↔ coefficient = n * tenPow k := by
  rw [← valueOf_scale_zero n, ← valueOf_mul_tenPow n 0 k, zero_add, valueOf_inj]

/-- At one scale, a coefficient that is larger in size stands for a number that is. -/
theorem abs_valueOf_lt_abs_valueOf {a b scale : Int} :
    |valueOf a scale| < |valueOf b scale| ↔ |a| < |b| := by
  rw [valueOf, valueOf, abs_mul, abs_mul, mul_lt_mul_iff_left₀ (abs_pos.mpr (unit_pos scale).ne'),
    ← Int.cast_abs, ← Int.cast_abs, Int.cast_lt]

/-- A value is above zero exactly if the coefficient is. -/
theorem value_pos_iff {x : Decimal} : 0 < x.value ↔ 0 < x.coefficient := by
  rw [value, valueOf, mul_pos_iff_of_pos_right (unit_pos _), Int.cast_pos]

/-- A value is zero exactly if the coefficient is. -/
theorem value_eq_zero_iff {x : Decimal} : x.value = 0 ↔ x.coefficient = 0 := by
  rw [value, valueOf, mul_eq_zero_iff_right (unit_pos _).ne', Int.cast_eq_zero]

/-- A number counts as zero exactly if its coefficient is zero. -/
@[simp] theorem isZero_iff {x : Decimal} : x.isZero = true ↔ x.coefficient = 0 :=
  beq_iff_eq

/-- The sign is above zero exactly if the coefficient is. -/
theorem signum_pos_iff {x : Decimal} : 0 < x.signum ↔ 0 < x.coefficient :=
  Int.sign_pos_iff

/-- The sign is below zero exactly if the coefficient is. -/
theorem signum_neg_iff {x : Decimal} : x.signum < 0 ↔ x.coefficient < 0 :=
  Int.sign_neg_iff

/-- The sign is zero exactly if the coefficient is. -/
theorem signum_eq_zero_iff {x : Decimal} : x.signum = 0 ↔ x.coefficient = 0 :=
  Int.sign_eq_zero_iff_zero

/-- The opposite number has the opposite value. -/
@[simp] theorem value_neg (x : Decimal) : x.neg.value = -x.value :=
  valueOf_neg _ _

@[simp] theorem value_zero : zero.value = 0 := by
  rw [value_eq_zero_iff]
  rfl

@[simp] theorem value_one : one.value = 1 := by
  simp [value, valueOf, one]

/-- A coefficient and a scale make a number exactly if the scale is in range. -/
theorem ofParts_eq_ok_iff {coefficient scale : Int} {x : Decimal} :
    ofParts coefficient scale = .ok x ↔ x.coefficient = coefficient ∧ x.scale.toInt = scale := by
  rw [← checkScale_eq_ok_iff]
  cases hscale : checkScale scale with
  | error cause => simp [ofParts, hscale, bind, Except.bind]
  | ok s =>
    obtain ⟨c, t⟩ := x
    simp only [ofParts, hscale, bind, Except.bind, pure, Except.pure, Except.ok.injEq, mk.injEq]
    exact ⟨fun h => ⟨h.1.symm, h.2⟩, fun h => ⟨h.1.symm, h.2⟩⟩

/-- A coefficient and a scale make no number only because the scale is out of range. -/
theorem ofParts_eq_error_iff {coefficient scale : Int} {error : NumberError} :
    ofParts coefficient scale = .error error ↔
      error = .overflow ∧ ¬ (leastScale ≤ scale ∧ scale ≤ greatestScale) := by
  unfold ofParts checkScale
  split
  · rename_i hrange
    simp [bind, Except.bind, pure, Except.pure, hrange]
  · rename_i hrange
    simp [bind, Except.bind, hrange, eq_comm]

/-- A coefficient at a scale in range makes a number. -/
theorem exists_ofParts_eq_ok (coefficient : Int) {scale : Int} (hlow : leastScale ≤ scale)
    (hhigh : scale ≤ greatestScale) : ∃ x, ofParts coefficient scale = .ok x :=
  ⟨⟨coefficient, Int32.ofInt scale⟩, ofParts_eq_ok_iff.mpr ⟨rfl, toInt_ofInt hlow hhigh⟩⟩

/-- The number of a coefficient and a scale has the value of these. -/
theorem value_of_ofParts {coefficient scale : Int} {x : Decimal}
    (h : ofParts coefficient scale = .ok x) : x.value = valueOf coefficient scale := by
  obtain ⟨hcoefficient, hscale⟩ := ofParts_eq_ok_iff.mp h
  rw [value, hcoefficient, hscale]

/-- Two numbers at the larger scale: the left one keeps its value. -/
theorem valueOf_aligned_left (x y : Decimal) :
    valueOf (aligned x y).1 (aligned x y).2.2.toInt = x.value := by
  unfold aligned
  dsimp only
  split
  · rename_i hless
    have hshift : y.scale.toInt = x.scale.toInt + (y.scale.toInt - x.scale.toInt).toNat := by omega
    dsimp only
    rw [value, ← valueOf_mul_tenPow x.coefficient x.scale.toInt, ← hshift]
  · rfl

/-- Two numbers at the larger scale: the right one keeps its value. -/
theorem valueOf_aligned_right (x y : Decimal) :
    valueOf (aligned x y).2.1 (aligned x y).2.2.toInt = y.value := by
  unfold aligned
  dsimp only
  split
  · rfl
  · rename_i hless
    have hshift : x.scale.toInt = y.scale.toInt + (x.scale.toInt - y.scale.toInt).toNat := by omega
    dsimp only
    rw [value, ← valueOf_mul_tenPow y.coefficient y.scale.toInt, ← hshift]

/-- A sum is the sum of the values. -/
theorem value_add (x y : Decimal) : (x.add y).value = x.value + y.value := by
  rw [← valueOf_aligned_left x y, ← valueOf_aligned_right x y, ← valueOf_add]
  rfl

/-- A difference is the difference of the values. -/
theorem value_sub (x y : Decimal) : (x.sub y).value = x.value - y.value := by
  rw [← valueOf_aligned_left x y, ← valueOf_aligned_right x y, ← valueOf_sub]
  rfl

/-- A product is the product of the values. -/
theorem value_mul {x y product : Decimal} (h : x.mul y = .ok product) :
    product.value = x.value * y.value := by
  rw [value_of_ofParts h, valueOf_mul]
  rfl

end Monetary.Decimal
