import Monetary.Proofs.Decimal.Value
import Mathlib.Data.Sign.Basic

/-!
# The order of decimal numbers is the order of their values

The order is decided on three paths: by the signs, by the places of the leading digits, or by the
coefficients at one scale. Each path gives the order of the values. The leading digit bounds the
size of a number between two neighbouring powers of ten, which settles the second path; for numbers
below zero the larger size is the smaller value. All laws of the order follow from those of the
rational numbers, so that no law has to be checked for three numbers that take different paths.
-/

namespace Monetary.Decimal

/-- The size of a number is that of its coefficient without the sign. -/
theorem abs_value (x : Decimal) :
    |x.value| = (x.coefficient.natAbs : ℚ) * 10 ^ (-x.scale.toInt) := by
  rw [value, valueOf, abs_mul, abs_of_pos (unit_pos _), Nat.cast_natAbs, Int.cast_abs]

/-- A number is smaller in size than the unit above the place of its leading digit. -/
theorem abs_value_lt (x : Decimal) : |x.value| < 10 ^ (x.leadingExponent + 1) := by
  have hdigits : (x.coefficient.natAbs : ℚ) < 10 ^ x.digits := by
    rw [← cast_tenPow]
    exact_mod_cast lt_tenPow_digitCount x.coefficient.natAbs
  calc |x.value| = (x.coefficient.natAbs : ℚ) * 10 ^ (-x.scale.toInt) := abs_value x
    _ < 10 ^ x.digits * 10 ^ (-x.scale.toInt) := mul_lt_mul_of_pos_right hdigits (unit_pos _)
    _ = 10 ^ (x.leadingExponent + 1) := by
      rw [← zpow_natCast]
      exact ten_zpow_mul (by rw [leadingExponent]; ring)

/-- A number other than zero reaches in size the unit at the place of its leading digit. -/
theorem le_abs_value {x : Decimal} (hx : x.coefficient ≠ 0) :
    10 ^ x.leadingExponent ≤ |x.value| := by
  have hdigits : (10 : ℚ) ^ (x.digits - 1) ≤ x.coefficient.natAbs := by
    rw [← cast_tenPow]
    exact_mod_cast tenPow_pred_digitCount_le (Int.natAbs_ne_zero.mpr hx)
  have hpos : 0 < x.digits := digitCount_pos _
  calc (10 : ℚ) ^ x.leadingExponent = 10 ^ (x.digits - 1) * 10 ^ (-x.scale.toInt) := by
        rw [← zpow_natCast]
        exact (ten_zpow_mul (by rw [leadingExponent]; omega)).symm
    _ ≤ (x.coefficient.natAbs : ℚ) * 10 ^ (-x.scale.toInt) :=
      mul_le_mul_of_nonneg_right hdigits (unit_pos _).le
    _ = |x.value| := (abs_value x).symm

/-- Of two numbers the one whose leading digit stands at the higher place is larger in size. -/
theorem abs_value_lt_of_leadingExponent_lt {x y : Decimal} (hy : y.coefficient ≠ 0)
    (h : x.leadingExponent < y.leadingExponent) : |x.value| < |y.value| :=
  calc |x.value| < 10 ^ (x.leadingExponent + 1) := abs_value_lt x
    _ ≤ 10 ^ y.leadingExponent := zpow_le_zpow_right₀ (by norm_num) h
    _ ≤ |y.value| := le_abs_value hy

/-- What a coefficient stands for has the sign of the coefficient. -/
theorem sign_valueOf (coefficient scale : Int) :
    (SignType.sign (valueOf coefficient scale) : Int) = coefficient.sign := by
  rw [valueOf, sign_mul, sign_pos (unit_pos _), mul_one, sign_intCast, Int.sign_eq_sign]

/-- The sign of a number is the sign of its value. -/
theorem signum_eq_sign_value (x : Decimal) : x.signum = (SignType.sign x.value : Int) :=
  (sign_valueOf _ _).symm

/-- A smaller number has no larger sign. -/
theorem signum_mono {x y : Decimal} (h : x.value ≤ y.value) : x.signum ≤ y.signum := by
  rw [signum_eq_sign_value, signum_eq_sign_value]
  have hsign : SignType.sign x.value ≤ SignType.sign y.value := SignType.sign.monotone h
  revert hsign
  generalize SignType.sign x.value = a
  generalize SignType.sign y.value = b
  revert a b
  decide

/-- Numbers of different signs are ordered as their signs. -/
theorem compare_signum {x y : Decimal} (h : x.signum ≠ y.signum) :
    compare x.signum y.signum = compare x.value y.value := by
  rcases lt_or_gt_of_ne h with hless | hgreater
  · have hvalue : x.value < y.value := by
      apply lt_of_not_ge
      intro hle
      exact (signum_mono hle).not_gt hless
    rw [compare_lt_iff_lt.mpr hless, compare_lt_iff_lt.mpr hvalue]
  · have hvalue : y.value < x.value := by
      apply lt_of_not_ge
      intro hle
      exact (signum_mono hle).not_gt hgreater
    rw [compare_gt_iff_gt.mpr hgreater, compare_gt_iff_gt.mpr hvalue]

/-- Numbers above zero are ordered as the places of their leading digits, where these differ. -/
theorem compare_leadingExponent_of_pos {x y : Decimal} (hx : 0 < x.coefficient)
    (hy : 0 < y.coefficient) (h : x.leadingExponent ≠ y.leadingExponent) :
    compare x.leadingExponent y.leadingExponent = compare x.value y.value := by
  have hxabs : |x.value| = x.value := abs_of_pos (value_pos_iff.mpr hx)
  have hyabs : |y.value| = y.value := abs_of_pos (value_pos_iff.mpr hy)
  rcases lt_or_gt_of_ne h with hless | hgreater
  · have hvalue := abs_value_lt_of_leadingExponent_lt hy.ne' hless
    rw [hxabs, hyabs] at hvalue
    rw [compare_lt_iff_lt.mpr hless, compare_lt_iff_lt.mpr hvalue]
  · have hvalue := abs_value_lt_of_leadingExponent_lt hx.ne' hgreater
    rw [hxabs, hyabs] at hvalue
    rw [compare_gt_iff_gt.mpr hgreater, compare_gt_iff_gt.mpr hvalue]

/-- The opposite number has its leading digit at the same place. -/
@[simp] theorem leadingExponent_neg (x : Decimal) : x.neg.leadingExponent = x.leadingExponent := by
  simp [leadingExponent, digits, neg]

/-- Numbers below zero are ordered against the places of their leading digits. -/
theorem compare_leadingExponent_of_neg {x y : Decimal} (hx : x.coefficient < 0)
    (hy : y.coefficient < 0) (h : x.leadingExponent ≠ y.leadingExponent) :
    (compare x.leadingExponent y.leadingExponent).swap = compare x.value y.value := by
  have hopposite := compare_leadingExponent_of_pos (x := x.neg) (y := y.neg)
    (neg_pos.mpr hx) (neg_pos.mpr hy) (by simpa using h)
  rw [leadingExponent_neg, leadingExponent_neg, value_neg, value_neg] at hopposite
  rw [hopposite, ← cmp_eq_compare, ← cmp_eq_compare, cmp_swap]
  exact StrictAnti.cmp_map_eq (f := fun q : ℚ => -q) (fun _ _ h => neg_lt_neg h) y.value x.value

/-- The coefficients at one scale are ordered as the values. -/
theorem compare_aligned (x y : Decimal) :
    compare (aligned x y).1 (aligned x y).2.1 = compare x.value y.value := by
  rw [← compare_valueOf _ _ (aligned x y).2.2.toInt, valueOf_aligned_left, valueOf_aligned_right]

/-- Two numbers are ordered as their values. -/
theorem order_eq_compare (x y : Decimal) : x.order y = compare x.value y.value := by
  unfold order
  split
  · exact compare_signum ‹_›
  rename_i hsigns
  rw [ne_eq, not_not] at hsigns
  split
  · -- Both numbers are zero.
    rename_i hzero
    have hx : x.value = 0 := value_eq_zero_iff.mpr (signum_eq_zero_iff.mp hzero)
    have hy : y.value = 0 := value_eq_zero_iff.mpr (signum_eq_zero_iff.mp (hsigns ▸ hzero))
    rw [hx, hy, compare_eq_iff_eq.mpr rfl]
  rename_i hnonzero
  split
  · exact compare_aligned x y
  rename_i hplace
  have hdiffers : x.leadingExponent ≠ y.leadingExponent := by
    intro h
    exact hplace (compare_eq_iff_eq.mpr h)
  split
  · rename_i hpos
    exact compare_leadingExponent_of_pos (signum_pos_iff.mp hpos)
      (signum_pos_iff.mp (hsigns ▸ hpos)) hdiffers
  · have hneg : x.signum < 0 := by omega
    exact compare_leadingExponent_of_neg (signum_neg_iff.mp hneg)
      (signum_neg_iff.mp (hsigns ▸ hneg)) hdiffers

/-- Numbers of equal value, and no others, are level in the order. -/
theorem order_eq_eq_iff {x y : Decimal} : x.order y = .eq ↔ x.value = y.value := by
  rw [order_eq_compare, compare_eq_iff_eq]

/-- The order turns around when its sides are exchanged, and is transitive. -/
instance : Std.TransCmp order where
  eq_swap := by
    intro x y
    rw [order_eq_compare, order_eq_compare]
    exact Std.OrientedCmp.eq_swap
  isLE_trans := by
    intro x y z hxy hyz
    rw [order_eq_compare] at hxy hyz ⊢
    exact Std.TransCmp.isLE_trans hxy hyz

/-- A number counts as one exactly if its value is one. -/
theorem isOne_iff {x : Decimal} : x.isOne = true ↔ x.value = 1 := by
  rw [isOne, beq_iff_eq, order_eq_eq_iff, value_one]

/-- The order of two numbers is that of their values, so that it is a total preorder which
distinguishes values only. -/
theorem order_total_preorder (x y z : Decimal) :
    x.order y = compare x.value y.value ∧
      x.order x = .eq ∧
      y.order x = (x.order y).swap ∧
      ((x.order y).isLE = true ∨ (y.order x).isLE = true) ∧
      ((x.order y).isLE = true → (y.order x).isLE = true → x.value = y.value) ∧
      ((x.order y).isLE = true → (y.order z).isLE = true → (x.order z).isLE = true) ∧
      (x.isOne = true ↔ x.value = 1) := by
  have hswap : y.order x = (x.order y).swap := Std.OrientedCmp.eq_swap
  refine ⟨order_eq_compare x y, order_eq_eq_iff.mpr rfl, hswap, ?_, ?_, ?_, isOne_iff⟩
  · rw [hswap]
    cases x.order y <;> decide
  · intro hxy hyx
    exact order_eq_eq_iff.mp (Std.OrientedCmp.isLE_antisymm hxy hyx)
  · exact Std.TransCmp.isLE_trans

/-- Two paths for numbers below zero: the place of the leading digit tells -100 from -9.99, and the
coefficients tell -9.99 from -9.985. -/
theorem order_total_preorder_below_zero :
    (order ⟨-1, -2⟩ ⟨-999, 2⟩).isLE = true ∧ (order ⟨-999, 2⟩ ⟨-9985, 3⟩).isLE = true ∧
      (order ⟨-1, -2⟩ ⟨-9985, 3⟩).isLE = true := by
  have hplace : (order ⟨-1, -2⟩ ⟨-999, 2⟩).isLE = true := by decide +kernel
  have haligned : (order ⟨-999, 2⟩ ⟨-9985, 3⟩).isLE = true := by decide +kernel
  obtain ⟨-, -, -, -, -, htransitive, -⟩ := order_total_preorder ⟨-1, -2⟩ ⟨-999, 2⟩ ⟨-9985, 3⟩
  exact ⟨hplace, haligned, htransitive hplace haligned⟩

end Monetary.Decimal
