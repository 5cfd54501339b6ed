import Monetary.Decimal.Precision
import Monetary.Proofs.Decimal.Order
import Mathlib.Order.Bounds.Basic

/-!
# Trailing zeros and the normal form

Dropping zeros takes a power of ten off a coefficient and its exponent off the scale, until a digit
other than zero or the least allowed scale is met: the least scale at which the number has an
integer coefficient. Without trailing zeros a number is in normal form: it is `0` itself, or its
last digit is not zero, or its scale is the least one of all. Two numbers in normal form with one
value are one representation, also where the scale cannot be lowered any further, because a number
at a higher scale then has a zero to drop.
-/

namespace Monetary.Decimal

/-- What is dropped is a power of ten from the coefficient and its exponent from the scale. -/
theorem exists_dropped_zeros (coefficient scale least : Int) :
    ∃ k : Nat, coefficient = (dropZeros coefficient scale least).1 * tenPow k ∧
      scale = (dropZeros coefficient scale least).2 + k := by
  fun_induction dropZeros coefficient scale least with
  | case1 coefficient scale hzero ih =>
    obtain ⟨k, hcoefficient, hscale⟩ := ih
    refine ⟨k + 1, ?_, by push_cast; omega⟩
    calc coefficient = coefficient / 10 * 10 := by omega
      _ = _ := by
        rw [tenPow_succ]
        nth_rewrite 1 [hcoefficient]
        push_cast
        ring
  | case2 coefficient scale hdone => exact ⟨0, by simp [tenPow_zero], by simp⟩

/-- Where dropping stops, the least scale is reached or the last digit is not zero. -/
theorem dropZeros_stops (coefficient scale least : Int) :
    (dropZeros coefficient scale least).2 ≤ least ∨
      (dropZeros coefficient scale least).1 % 10 ≠ 0 := by
  fun_induction dropZeros coefficient scale least with
  | case1 coefficient scale hzero ih => exact ih
  | case2 coefficient scale hdone => omega

/-- Dropping never goes below the least scale. -/
theorem le_dropZeros_scale (coefficient : Int) {scale least : Int} (h : least ≤ scale) :
    least ≤ (dropZeros coefficient scale least).2 := by
  fun_induction dropZeros coefficient scale least with
  | case1 coefficient scale hzero ih => exact ih (by omega)
  | case2 coefficient scale hdone => exact h

/-- Dropping never raises the scale. -/
theorem dropZeros_scale_le (coefficient scale least : Int) :
    (dropZeros coefficient scale least).2 ≤ scale := by
  obtain ⟨k, -, hscale⟩ := exists_dropped_zeros coefficient scale least
  omega

/-- Dropping zeros keeps what the coefficient and the scale stand for. -/
theorem valueOf_dropZeros (coefficient scale least : Int) :
    valueOf (dropZeros coefficient scale least).1 (dropZeros coefficient scale least).2 =
      valueOf coefficient scale := by
  obtain ⟨k, hcoefficient, hscale⟩ := exists_dropped_zeros coefficient scale least
  rw [← valueOf_mul_tenPow _ _ k, ← hcoefficient, ← hscale]

/-- Dropping zeros adds no digits. -/
theorem digitCount_dropZeros_le (coefficient scale least : Int) :
    digitCount (dropZeros coefficient scale least).1.natAbs ≤ digitCount coefficient.natAbs := by
  obtain ⟨k, hcoefficient, -⟩ := exists_dropped_zeros coefficient scale least
  apply digitCount_mono
  conv_rhs => rw [hcoefficient, Int.natAbs_mul, Int.natAbs_natCast]
  exact Nat.le_mul_of_pos_right _ (tenPow_pos k)

/-- Dropping zeros leaves zero if and only if there was zero. -/
theorem dropZeros_eq_zero_iff {coefficient scale least : Int} :
    (dropZeros coefficient scale least).1 = 0 ↔ coefficient = 0 := by
  obtain ⟨k, hcoefficient, -⟩ := exists_dropped_zeros coefficient scale least
  conv_rhs => rw [hcoefficient]
  simp

/-- Of two coefficients that stand for one number, the one at the higher scale is the other one
padded with zeros. -/
theorem exists_padding_of_valueOf_eq {a b s t : Int} (hvalue : valueOf a s = valueOf b t)
    (hscale : s ≤ t) : ∃ k : Nat, b = a * tenPow k ∧ t = s + k := by
  obtain ⟨k, hk⟩ : ∃ k : Nat, t = s + k := ⟨(t - s).toNat, by omega⟩
  refine ⟨k, ?_, hk⟩
  rw [← valueOf_inj t, ← hvalue, hk, valueOf_mul_tenPow]

/-- Of two coefficients that stand for one number, the one at the higher scale is not smaller. -/
theorem natAbs_le_of_scale_le {a b s t : Int} (hvalue : valueOf a s = valueOf b t)
    (hscale : s ≤ t) : a.natAbs ≤ b.natAbs := by
  obtain ⟨k, rfl, -⟩ := exists_padding_of_valueOf_eq hvalue hscale
  rw [Int.natAbs_mul, Int.natAbs_natCast]
  exact Nat.le_mul_of_pos_right _ (tenPow_pos k)

/-- Of two coefficients that stand for one number, the one at the higher scale ends in zero. -/
theorem mod_ten_of_scale_lt {a b s t : Int} (hvalue : valueOf a s = valueOf b t) (hscale : s < t) :
    b % 10 = 0 := by
  obtain ⟨k, rfl, hk⟩ := exists_padding_of_valueOf_eq hvalue hscale.le
  obtain ⟨j, rfl⟩ : ∃ j, k = j + 1 := ⟨k - 1, by omega⟩
  rw [tenPow_succ, Nat.cast_mul, ← mul_assoc]
  exact Int.mul_emod_left _ _

/-- The scales from a least one on at which a number has an integer coefficient. -/
def scalesFrom (least : Int) (v : ℚ) : Set Int :=
  {scale | least ≤ scale ∧ ∃ coefficient : Int, valueOf coefficient scale = v}

/-- A coefficient at the scale where they begin has the least of these scales. -/
theorem isLeast_valueOf (coefficient least : Int) :
    IsLeast (scalesFrom least (valueOf coefficient least)) least :=
  ⟨⟨le_rfl, coefficient, rfl⟩, fun _ hscale => hscale.1⟩

/-- Dropping zeros leads to the least scale at which the number has an integer coefficient. -/
theorem isLeast_dropZeros (coefficient : Int) {scale least : Int} (hscale : least ≤ scale) :
    IsLeast (scalesFrom least (valueOf coefficient scale))
      (dropZeros coefficient scale least).2 := by
  refine ⟨⟨le_dropZeros_scale coefficient hscale, _, valueOf_dropZeros coefficient scale least⟩, ?_⟩
  rintro lower ⟨hlower, shorter, hshorter⟩
  by_contra hbelow
  rw [not_le] at hbelow
  -- A lower scale would leave a zero to drop.
  have hzero := mod_ten_of_scale_lt
    (hshorter.trans (valueOf_dropZeros coefficient scale least).symm) hbelow
  rcases dropZeros_stops coefficient scale least with hstop | hend
  · omega
  · exact hend hzero

/-- A coefficient without a zero at the end, or at the least scale, has nothing to drop. -/
theorem dropZeros_eq_self {coefficient scale least : Int}
    (h : scale ≤ least ∨ coefficient % 10 ≠ 0) :
    dropZeros coefficient scale least = (coefficient, scale) := by
  rw [dropZeros, if_neg]
  omega

/-- Zeros that a coefficient is padded with are dropped again. -/
theorem dropZeros_mul_tenPow (coefficient : Int) {scale least : Int} (h : least ≤ scale) (k : Nat) :
    dropZeros (coefficient * tenPow k) (scale + k) least = dropZeros coefficient scale least := by
  induction k with
  | zero => simp [tenPow_zero]
  | succ k ih =>
    have hpadded : coefficient * tenPow (k + 1) = coefficient * tenPow k * 10 := by
      rw [tenPow_succ, Nat.cast_mul, ← mul_assoc]
      rfl
    rw [dropZeros, if_pos ⟨by omega, by rw [hpadded]; exact Int.mul_emod_left _ _⟩, hpadded,
      Int.mul_ediv_cancel _ (by decide), Nat.cast_add_one, ← add_assoc, add_sub_cancel_right, ih]

/-- A number in normal form: `0`, or no zero at the end of the coefficient unless the scale is the
least one. -/
def IsNormal (x : Decimal) : Prop :=
  x = zero ∨ x.coefficient ≠ 0 ∧ (x.scale.toInt = leastScale ∨ x.coefficient % 10 ≠ 0)

/-- Numbers of one value and one scale have one coefficient. -/
theorem eq_of_value_eq_of_scale_eq {x y : Decimal} (hvalue : x.value = y.value)
    (hscale : x.scale = y.scale) : x = y := by
  obtain ⟨a, s⟩ := x
  obtain ⟨b, t⟩ := y
  obtain rfl : s = t := hscale
  obtain rfl : a = b := (valueOf_inj _).mp hvalue
  rfl

/-- Of two numbers of one value, the one at the higher scale is the other one padded with zeros. -/
theorem exists_padding {x y : Decimal} (hvalue : x.value = y.value)
    (hscale : x.scale.toInt ≤ y.scale.toInt) :
    ∃ k : Nat, y.coefficient = x.coefficient * tenPow k ∧ y.scale.toInt = x.scale.toInt + k :=
  exists_padding_of_valueOf_eq hvalue hscale

/-- A number of value one is `1` padded with zeros. -/
theorem exists_unit_padding {x : Decimal} (hx : x.value = 1) :
    ∃ k : Nat, x.coefficient = tenPow k ∧ x.scale.toInt = k := by
  have hone : one.scale.toInt = 0 := rfl
  rcases Int.le_total one.scale.toInt x.scale.toInt with hpadded | hshort
  · obtain ⟨k, hcoefficient, hk⟩ := exists_padding (value_one.trans hx.symm) hpadded
    exact ⟨k, by simpa [one] using hcoefficient, by omega⟩
  · -- A scale below zero makes the value a multiple of ten.
    obtain ⟨k, hcoefficient, hk⟩ := exists_padding (hx.trans value_one.symm) hshort
    have hunit : (tenPow k : Int) ∣ 1 := ⟨x.coefficient, by rw [mul_comm]; exact hcoefficient⟩
    have hpower : tenPow k = 1 := by exact_mod_cast Int.eq_one_of_dvd_one (by omega) hunit
    have hzero : k = 0 := Nat.le_zero.mp (le_of_tenPow_le_tenPow (hpower.trans tenPow_zero.symm).le)
    subst hzero
    rw [hpower, Nat.cast_one, mul_one] at hcoefficient
    exact ⟨0, by rw [← hcoefficient, tenPow_zero]; rfl, by omega⟩

/-- One value has one normal form. -/
theorem IsNormal.eq_of_value_eq {x y : Decimal} (hx : x.IsNormal) (hy : y.IsNormal)
    (h : x.value = y.value) : x = y := by
  have hzero : x.coefficient = 0 ↔ y.coefficient = 0 := by
    rw [← value_eq_zero_iff, ← value_eq_zero_iff, h]
  rcases hx with rfl | ⟨hx, hxend⟩
  · rcases hy with rfl | ⟨hy, -⟩
    · rfl
    · exact absurd (hzero.mp rfl) hy
  rcases hy with rfl | ⟨-, hyend⟩
  · exact absurd (hzero.mpr rfl) hx
  -- At different scales the higher one is not the least, and its coefficient ends in zero.
  rcases Int.lt_trichotomy x.scale.toInt y.scale.toInt with hless | hsame | hgreater
  · have := mod_ten_of_scale_lt h hless
    have := leastScale_le_toInt x.scale
    omega
  · exact eq_of_value_eq_of_scale_eq h (Int32.toInt_inj.mp hsame)
  · have := mod_ten_of_scale_lt h.symm hgreater
    have := leastScale_le_toInt y.scale
    omega

/-- The scale of a stripped number other than zero is the one where dropping zeros stops. -/
theorem stripZeros_scale_toInt (x : Decimal) :
    (Int32.ofInt (dropZeros x.coefficient x.scale.toInt leastScale).2).toInt =
      (dropZeros x.coefficient x.scale.toInt leastScale).2 :=
  toInt_ofInt (le_dropZeros_scale _ (leastScale_le_toInt _))
    ((dropZeros_scale_le _ _ _).trans (toInt_le_greatestScale _))

/-- Stripping keeps the value. -/
@[simp] theorem value_stripZeros (x : Decimal) : x.stripZeros.value = x.value := by
  unfold stripZeros
  split
  · rename_i hzero
    rw [value_zero, value_eq_zero_iff.mpr (isZero_iff.mp hzero)]
  · dsimp only
    rw [value, stripZeros_scale_toInt, valueOf_dropZeros, value]

/-- A stripped number is in normal form. -/
theorem isNormal_stripZeros (x : Decimal) : x.stripZeros.IsNormal := by
  unfold stripZeros
  split
  · exact .inl rfl
  · rename_i hnonzero
    dsimp only
    refine .inr ⟨?_, ?_⟩
    · rw [ne_eq, dropZeros_eq_zero_iff]
      exact mt isZero_iff.mpr hnonzero
    · have hleast := le_dropZeros_scale x.coefficient (leastScale_le_toInt x.scale)
      rw [stripZeros_scale_toInt]
      rcases dropZeros_stops x.coefficient x.scale.toInt leastScale with hstop | hend
      · exact .inl (by omega)
      · exact .inr hend

/-- A number in normal form has the least scale, from zero on, at which it has an integer
coefficient, or one below zero. -/
theorem IsNormal.scale_le {x : Decimal} (hx : x.IsNormal) {scale : Int}
    (h : scale ∈ scalesFrom 0 x.value) : x.scale.toInt ≤ scale := by
  obtain ⟨hnonneg, coefficient, hcoefficient⟩ := h
  rcases hx with rfl | ⟨-, hend⟩
  · exact hnonneg
  · by_contra hbelow
    have hzero := mod_ten_of_scale_lt hcoefficient (not_le.mp hbelow)
    rcases hend with hleast | hdigit
    · rw [hleast, leastScale] at hbelow
      omega
    · exact hdigit hzero

/-- A number in normal form has nothing to strip. -/
theorem IsNormal.stripZeros_eq {x : Decimal} (hx : x.IsNormal) : x.stripZeros = x :=
  (isNormal_stripZeros x).eq_of_value_eq hx (value_stripZeros x)

/-- Stripping leads numbers of one value, and no others, to one representation. -/
theorem stripZeros_eq_iff {x y : Decimal} : x.stripZeros = y.stripZeros ↔ x.value = y.value := by
  constructor
  · intro h
    rw [← value_stripZeros x, h, value_stripZeros]
  · intro h
    apply (isNormal_stripZeros x).eq_of_value_eq (isNormal_stripZeros y)
    rw [value_stripZeros, value_stripZeros, h]

/-- A stripped number has no more digits than before. -/
theorem digits_stripZeros_le (x : Decimal) : x.stripZeros.digits ≤ x.digits := by
  unfold stripZeros
  split
  · exact digitCount_mono (Nat.zero_le _)
  · exact digitCount_dropZeros_le _ _ _

end Monetary.Decimal
