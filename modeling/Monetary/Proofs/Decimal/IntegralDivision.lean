import Monetary.Proofs.Decimal.Order
import Monetary.Proofs.Decimal.RoundedDivision
import Mathlib.Data.Rat.Floor

/-!
# Integral quotients and remainders

Over the larger of the two scales the quotient of two numbers is that of their coefficients, so that
the integral quotient is the one truncated to an integer. What the dividend exceeds its product with
the divisor by is the remainder of the coefficients: smaller in size than the divisor, and zero or
of the sign of the dividend. These two facts about the remainder are what makes the quotient the
truncated one.

The scale of the integral quotient lies between the preferred scale and zero, or is the preferred
scale where that is above zero. Its sum with the scale of the divisor then lies between the scales
of the operands, so that the product with the divisor is never out of range, and division with
remainder fails for the divisor zero only.

Rounding to a precision can change an integer, but only into another integer. Either the last digit
that is kept stands before the point; or digits after the point are kept, and then all the digits
that are dropped are zeros.
-/

namespace Monetary

/-- Two integral quotients of one number are the same if the remainder of one of them is smaller in
size than the divisor and the other remainder differs from it by no more than its size. -/
theorem eq_of_rebuild_eq {m n : Int} {divisor rest moved : ℚ} (hrest : |rest| < |divisor|)
    (hmoved : |moved - rest| ≤ |rest|) (h : m * divisor + moved = n * divisor + rest) : m = n := by
  by_contra hne
  have hone : (1 : ℚ) ≤ |(m - n : ℚ)| := by
    exact_mod_cast Int.one_le_abs (sub_ne_zero.mpr hne)
  have hproduct : (m - n : ℚ) * divisor = -(moved - rest) := by linarith
  have hlarge : |divisor| ≤ |rest| :=
    calc |divisor| ≤ |(m - n : ℚ)| * |divisor| := le_mul_of_one_le_left (abs_nonneg _) hone
      _ = |moved - rest| := by rw [← abs_mul, hproduct, abs_neg]
      _ ≤ |rest| := hmoved
  exact absurd hrest (not_lt.mpr hlarge)

namespace Decimal

/-- A number passes as integral exactly if its value is an integer. -/
theorem isIntegral_iff {x : Decimal} : x.isIntegral = true ↔ ∃ n : Int, x.value = n := by
  unfold isIntegral
  split
  · rename_i hwhole
    refine iff_of_true rfl ?_
    rcases Bool.or_eq_true_iff.mp hwhole with hscale | hzero
    · exact exists_int_eq_valueOf _ (of_decide_eq_true hscale)
    · exact ⟨0, by rw [value_eq_zero_iff.mpr (isZero_iff.mp hzero), Int.cast_zero]⟩
  rename_i hpoint
  rw [Bool.or_eq_true_iff, decide_eq_true_eq, isZero_iff, not_or, not_le] at hpoint
  obtain ⟨hscale, hnonzero⟩ := hpoint
  obtain ⟨k, hk⟩ := Int.eq_ofNat_of_zero_le hscale.le
  simp only [value, hk, valueOf_eq_int_iff, Int.toNat_natCast]
  split
  · -- An integer other than zero would have a digit more than stand after the point.
    rename_i hfew
    refine iff_of_false (by decide) ?_
    rintro ⟨n, hn⟩
    have hnZero : n ≠ 0 := by
      rintro rfl
      exact hnonzero (by rw [hn, zero_mul])
    have hpadded := digits_of_padded hnZero hn
    have hone := digitCount_pos n.natAbs
    omega
  · rw [beq_iff_eq, ← Int.dvd_iff_emod_eq_zero]
    exact exists_congr fun n => by rw [mul_comm]

/-- Rounding leaves an integer an integer. -/
theorem isIntegral_round {x y : Decimal} {precision : UInt32} {mode : Rounding}
    (hx : x.isIntegral = true) (h : x.round precision mode = .ok y) : y.isIntegral = true := by
  rcases round_cases h with ⟨-, rfl⟩ | ⟨dropped, quotient, -, -, -, hquotient, -, hvalue⟩
  · exact hx
  rw [isIntegral_iff] at hx ⊢
  rw [hvalue]
  rcases Int.le_total (x.scale.toInt - dropped) 0 with hwhole | hfraction
  · exact exists_int_eq_valueOf quotient hwhole
  obtain ⟨rest, hrest⟩ := Int.eq_ofNat_of_zero_le hfraction
  obtain ⟨n, hn⟩ := hx
  have hscale : x.scale.toInt = (rest + dropped : Nat) := by omega
  rw [value, hscale, valueOf_eq_int_iff, tenPow_add, Nat.cast_mul, ← mul_assoc] at hn
  rw [mode.divide_of_eq_mul (by simp) hn] at hquotient
  cases hquotient
  exact ⟨n, by rw [hrest, valueOf_eq_int_iff]⟩

/-- The integral quotient is the truncated quotient of the coefficients at one scale. -/
theorem value_divideToIntegral {x y q : Decimal} (h : x.divideToIntegral y = .ok q) :
    y.coefficient ≠ 0 ∧ q.value = ((aligned x y).1.tdiv (aligned x y).2.1 : Int) := by
  unfold divideToIntegral at h
  split at h
  · cases h
  rename_i hnonzero
  refine ⟨mt isZero_iff.mpr hnonzero, ?_⟩
  dsimp only at h
  split at h
  · rename_i hpositive
    obtain ⟨scale, hscale, h⟩ := bind_eq_ok_iff.mp h
    cases h
    obtain ⟨k, hk⟩ := Int.eq_ofNat_of_zero_le hpositive.le
    rw [value, checkScale_eq_ok_iff.mp hscale, hk, Int.toNat_natCast, valueOf_eq_int_iff]
  · rw [(reducedToward_spec h).1, valueOf_scale_zero]

/-- At one scale a coefficient other than zero does not become zero. -/
theorem aligned_right_ne_zero {x y : Decimal} (hy : y.coefficient ≠ 0) :
    (aligned x y).2.1 ≠ 0 := by
  intro hzero
  have hvalue := valueOf_aligned_right x y
  rw [hzero, valueOf, Int.cast_zero, zero_mul, eq_comm, value_eq_zero_iff] at hvalue
  exact hy hvalue

/-- Division with remainder gives the quotient truncated to an integer and a remainder that
reconstructs the dividend, is smaller in size than the divisor, and is zero or has the sign of the
dividend. -/
theorem divideWithRemainder_spec {x y q r : Decimal} (h : x.divideWithRemainder y = .ok (q, r)) :
    ∃ n : Int, q.value = n ∧ x.value = n * y.value + r.value ∧ |r.value| < |y.value| ∧
      (r.isZero = true ∨ r.signum = x.signum) := by
  obtain ⟨quotient, hquotient, h⟩ := bind_eq_ok_iff.mp h
  obtain ⟨product, hproduct, h⟩ := bind_eq_ok_iff.mp h
  cases h
  obtain ⟨hy, hvalue⟩ := value_divideToIntegral hquotient
  generalize hn : (aligned x y).1.tdiv (aligned x y).2.1 = n at hvalue
  have hdifference : (x.sub product).value = x.value - n * y.value := by
    rw [value_sub, value_mul hproduct, hvalue]
  -- Over one scale the difference is the remainder of the coefficients.
  have hrest : (x.sub product).value =
      valueOf ((aligned x y).1.tmod (aligned x y).2.1) (aligned x y).2.2.toInt := by
    rw [hdifference, ← valueOf_aligned_left x y, ← valueOf_aligned_right x y, Int.tmod_def, hn,
      valueOf_sub, mul_comm _ n, valueOf, valueOf, valueOf, Int.cast_mul, mul_assoc]
  refine ⟨n, hvalue, by rw [hdifference, add_sub_cancel], ?_, ?_⟩
  · rw [hrest, ← valueOf_aligned_right x y, abs_valueOf_lt_abs_valueOf, Int.abs_eq_natAbs,
      Int.abs_eq_natAbs, Int.natAbs_tmod]
    exact_mod_cast Nat.mod_lt _ (Int.natAbs_pos.mpr (aligned_right_ne_zero hy))
  · rw [isZero_iff, ← value_eq_zero_iff, signum_eq_sign_value, signum_eq_sign_value, hrest,
      ← valueOf_aligned_left x y, sign_valueOf, sign_valueOf, Int.sign_tmod]
    by_cases hdvd : (aligned x y).2.1 ∣ (aligned x y).1
    · left
      rw [Int.tmod_eq_zero_of_dvd hdvd, valueOf, Int.cast_zero, zero_mul]
    · exact .inr (if_neg hdvd)

/-- A division leaves no remainder exactly if the dividend is an integer multiple of the divisor. -/
theorem isZero_remainder_iff {x y q r : Decimal} (h : x.divideWithRemainder y = .ok (q, r)) :
    r.isZero = true ↔ ∃ n : Int, x.value = n * y.value := by
  obtain ⟨n, -, hsum, hless, -⟩ := divideWithRemainder_spec h
  rw [isZero_iff, ← value_eq_zero_iff]
  constructor
  · intro hzero
    exact ⟨n, by rw [hsum, hzero, add_zero]⟩
  · rintro ⟨m, hm⟩
    have hrebuilt : m * y.value + 0 = n * y.value + r.value := by rw [add_zero, ← hm, hsum]
    obtain rfl := eq_of_rebuild_eq hless (by simp : |0 - r.value| ≤ |r.value|) hrebuilt
    exact (add_left_cancel hrebuilt).symm

/-- The integer part of a number, toward zero. -/
def truncate (v : ℚ) : Int :=
  if 0 ≤ v then ⌊v⌋ else ⌈v⌉

/-- A number is truncated to the integer that lies less than one away from it, toward zero. -/
theorem truncate_eq {v : ℚ} {n : Int} (hless : |v - n| < 1) (hside : 0 ≤ v * (v - n)) :
    truncate v = n := by
  obtain ⟨hlow, hhigh⟩ := abs_lt.mp hless
  unfold truncate
  rcases lt_trichotomy v 0 with hneg | rfl | hpos
  · have hbelow : v - n ≤ 0 := nonpos_of_mul_nonneg_right hside hneg
    rw [if_neg (not_le.mpr hneg), Int.ceil_eq_iff]
    constructor <;> linarith
  · have hzero : |n| < 1 := by exact_mod_cast (by simpa using hless : |(n : ℚ)| < 1)
    simp [Int.abs_lt_one_iff.mp hzero]
  · have habove : 0 ≤ v - n := nonneg_of_mul_nonneg_right hside hpos
    rw [if_pos hpos.le, Int.floor_eq_iff]
    constructor <;> linarith

/-- Numbers of one sign have a product that is not below zero. -/
theorem value_mul_value_nonneg {x y : Decimal} (h : x.signum = y.signum) :
    0 ≤ x.value * y.value := by
  have hsign : 0 ≤ (x.coefficient * y.coefficient).sign := by
    rw [Int.sign_mul, ← signum, ← signum, h]
    exact mul_self_nonneg _
  have hproduct : (0 : ℚ) ≤ (x.coefficient * y.coefficient : Int) := by
    exact_mod_cast Int.sign_nonneg_iff.mp hsign
  rw [value, value, ← valueOf_mul, valueOf]
  exact mul_nonneg hproduct (unit_pos _).le

/-- An integer that leaves a remainder smaller than the divisor, and on the side of the dividend, is
the truncated quotient. -/
theorem truncate_quotient {x y r : Decimal} {n : Int} (hy : y.coefficient ≠ 0)
    (hproduct : x.value = n * y.value + r.value) (hless : |r.value| < |y.value|)
    (hside : r.isZero = true ∨ r.signum = x.signum) : truncate (x.value / y.value) = n := by
  have hyValue : y.value ≠ 0 := mt value_eq_zero_iff.mp hy
  have hrest : x.value / y.value - n = r.value / y.value := by
    rw [hproduct, add_div, mul_div_cancel_right₀ _ hyValue, add_sub_cancel_left]
  have hnonneg : 0 ≤ x.value * r.value := by
    rcases hside with hzero | hsame
    · rw [value_eq_zero_iff.mpr (isZero_iff.mp hzero), mul_zero]
    · exact value_mul_value_nonneg hsame.symm
  apply truncate_eq
  · rw [hrest, abs_div, div_lt_one (abs_pos.mpr hyValue)]
    exact hless
  · rw [hrest, div_mul_div_comm]
    exact div_nonneg hnonneg (mul_self_nonneg _)

/-- A coefficient is reduced to the least scale from the preferred one on, if these are in range. -/
theorem exists_reducedToward (coefficient : Int) {scale preferred : Int}
    (hscale : preferred ≤ scale) (hlow : leastScale ≤ preferred) (hhigh : scale ≤ greatestScale) :
    ∃ q, reducedToward coefficient scale preferred = .ok q ∧ q.scale.toInt ≤ scale ∧
      IsLeast (scalesFrom preferred q.value) q.scale.toInt := by
  unfold reducedToward
  split
  · rw [min_eq_left hscale]
    refine ⟨_, rfl, ?_⟩
    rw [value, toInt_clampScale hlow (hscale.trans hhigh)]
    exact ⟨hscale, isLeast_valueOf _ _⟩
  · have hleast := isLeast_dropZeros coefficient hscale
    have hnotMore := dropZeros_scale_le coefficient scale preferred
    obtain ⟨q, hq⟩ := exists_ofParts_eq_ok (dropZeros coefficient scale preferred).1
      (hlow.trans hleast.1.1) (hnotMore.trans hhigh)
    refine ⟨q, hq, ?_⟩
    rw [value_of_ofParts hq, (ofParts_eq_ok_iff.mp hq).2, valueOf_dropZeros]
    exact ⟨hnotMore, hleast⟩

/-- The integral quotient has the least scale that can hold it, from the preferred one on and up to
zero, or the preferred one itself where that is above zero. -/
theorem exists_divideToIntegral {x y : Decimal} (hy : y.coefficient ≠ 0)
    (hlow : leastScale ≤ preferredScale x y) (hhigh : preferredScale x y ≤ greatestScale) :
    ∃ q, x.divideToIntegral y = .ok q ∧ q.scale.toInt ≤ max (preferredScale x y) 0 ∧
      IsLeast (scalesFrom (preferredScale x y) q.value) q.scale.toInt := by
  rw [divideToIntegral, if_neg (mt isZero_iff.mp hy)]
  dsimp only
  split
  · have hscale := toInt_ofInt hlow hhigh
    rw [checkScale_eq_ok_iff.mpr hscale]
    refine ⟨_, rfl, ?_⟩
    rw [value, hscale]
    exact ⟨le_max_left _ _, isLeast_valueOf _ _⟩
  · rename_i hnonpositive
    rw [not_lt] at hnonpositive
    rw [max_eq_right hnonpositive]
    exact exists_reducedToward _ hnonpositive hlow (by decide)

/-- The product of an integral quotient and the divisor has a scale between those of the operands,
so that division with remainder has a result where the integral quotient has one. -/
theorem exists_remainder {x y q : Decimal} (h : x.divideToIntegral y = .ok q)
    (hlow : preferredScale x y ≤ q.scale.toInt)
    (hhigh : q.scale.toInt ≤ max (preferredScale x y) 0) :
    ∃ r, x.divideWithRemainder y = .ok (q, r) ∧ x.remainder y = .ok r := by
  have hx := leastScale_le_toInt x.scale
  have hxHigh := toInt_le_greatestScale x.scale
  have hyHigh := toInt_le_greatestScale y.scale
  unfold preferredScale at hlow hhigh
  obtain ⟨product, hproduct⟩ : ∃ product, q.mul y = .ok product :=
    exists_ofParts_eq_ok _ (by omega) (by omega)
  refine ⟨x.sub product, ?_, ?_⟩
  · exact bind_eq_ok_iff.mpr ⟨q, h, bind_eq_ok_iff.mpr ⟨product, hproduct, rfl⟩⟩
  · exact bind_eq_ok_iff.mpr ⟨q, h, bind_eq_ok_iff.mpr ⟨product, hproduct, rfl⟩⟩

/-- Division with remainder fails for the divisor zero only, wherever the preferred scale is in
range. Its quotient is the truncated one, at the preferred scale if that is above zero and otherwise
at the least scale up to zero that can hold it; with the remainder it makes up the dividend, and the
remainder is smaller than the divisor and on the side of the dividend. The quotient and the
remainder are the same ones when only one of them is asked for. -/
theorem divideWithRemainder_total (x y : Decimal) :
    (y.coefficient = 0 → x.divideWithRemainder y = .error .divisionByZero ∧
      x.divideToIntegral y = .error .divisionByZero ∧
      x.remainder y = .error .divisionByZero) ∧
    (y.coefficient ≠ 0 → leastScale ≤ preferredScale x y → preferredScale x y ≤ greatestScale →
      ∃ q r, x.divideWithRemainder y = .ok (q, r) ∧ x.divideToIntegral y = .ok q ∧
        x.remainder y = .ok r ∧ q.value = truncate (x.value / y.value) ∧
        x.value = q.value * y.value + r.value ∧ |r.value| < |y.value| ∧
        (r.isZero = true ∨ r.signum = x.signum) ∧
        (0 < preferredScale x y → q.scale.toInt = preferredScale x y) ∧
        (preferredScale x y ≤ 0 → q.scale.toInt ≤ 0 ∧
          IsLeast (scalesFrom (preferredScale x y) q.value) q.scale.toInt) ∧
        (q.isZero = true → q.scale.toInt = preferredScale x y)) := by
  constructor
  · intro hy
    have hquotient : x.divideToIntegral y = .error .divisionByZero := by
      rw [divideToIntegral, if_pos (isZero_iff.mpr hy)]
    rw [remainder, divideWithRemainder, hquotient]
    exact ⟨rfl, rfl, rfl⟩
  intro hy hlow hhigh
  obtain ⟨q, hquotient, hscale, hleast⟩ := exists_divideToIntegral hy hlow hhigh
  obtain ⟨r, hboth, hremainder⟩ := exists_remainder hquotient hleast.1.1 hscale
  obtain ⟨n, hn, hsum, hless, hside⟩ := divideWithRemainder_spec hboth
  have htruncated : q.value = truncate (x.value / y.value) := by
    rw [hn, truncate_quotient hy hsum hless hside]
  refine ⟨q, r, hboth, hquotient, hremainder, htruncated, by rw [hn, hsum], hless, hside,
    fun hpositive => ?_, fun hnonpositive => ?_, fun hzero => ?_⟩
  · rw [max_eq_left hpositive.le] at hscale
    exact hscale.antisymm hleast.1.1
  · rw [max_eq_right hnonpositive] at hscale
    exact ⟨hscale, hleast⟩
  · -- Zero is an integer at every scale, so also at the preferred one.
    have hpreferred := isLeast_valueOf 0 (preferredScale x y)
    rw [valueOf, Int.cast_zero, zero_mul, ← value_eq_zero_iff.mpr (isZero_iff.mp hzero)]
      at hpreferred
    exact hleast.unique hpreferred

/-- -123.45 divided by 7 is -17.00, with the places of the dividend, and -4.45 remains; 4E+5 divided
by -16 is -25E+3, with as few places as that takes. -/
theorem divideWithRemainder_total_below_zero :
    divideWithRemainder ⟨-12345, 2⟩ ⟨7, 0⟩ = .ok (⟨-1700, 2⟩, ⟨-445, 2⟩) ∧
      truncate (value ⟨-12345, 2⟩ / value ⟨7, 0⟩) = -17 ∧
      divideWithRemainder ⟨4, -5⟩ ⟨-16, 0⟩ = .ok (⟨-25, -3⟩, ⟨0, -3⟩) ∧
      IsLeast (scalesFrom (-5) (value ⟨-25, -3⟩)) (-3) ∧
      divideWithRemainder ⟨7, 0⟩ ⟨0, 5⟩ = .error .divisionByZero := by
  have hplaces : divideWithRemainder ⟨-12345, 2⟩ ⟨7, 0⟩ = .ok (⟨-1700, 2⟩, ⟨-445, 2⟩) := by
    decide +kernel
  have hshort : divideWithRemainder ⟨4, -5⟩ ⟨-16, 0⟩ = .ok (⟨-25, -3⟩, ⟨0, -3⟩) := by
    decide +kernel
  obtain ⟨q, r, hq, -, -, htruncated, -⟩ :=
    (divideWithRemainder_total ⟨-12345, 2⟩ ⟨7, 0⟩).2 (by decide) (by decide) (by decide)
  obtain ⟨p, s, hp, -, -, -, -, -, -, -, hleast, -⟩ :=
    (divideWithRemainder_total ⟨4, -5⟩ ⟨-16, 0⟩).2 (by decide) (by decide) (by decide)
  obtain ⟨hzero, -, -⟩ := (divideWithRemainder_total ⟨7, 0⟩ ⟨0, 5⟩).1 (by decide)
  cases hplaces.symm.trans hq
  cases hshort.symm.trans hp
  refine ⟨hplaces, ?_, hshort, (hleast (by decide)).2, hzero⟩
  have hvalue : value ⟨-1700, 2⟩ = (-17 : Int) := (valueOf_eq_int_iff (k := 2)).mpr (by decide)
  exact_mod_cast htruncated.symm.trans hvalue

end Decimal

end Monetary
