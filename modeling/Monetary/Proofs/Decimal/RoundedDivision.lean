import Monetary.Proofs.Decimal.ExactDivision
import Monetary.Proofs.Decimal.Precision

/-!
# Division rounded to a precision

A rounded division multiplies the quotient by a power of ten so that its integral part has as many
digits as the precision. The first guess at the exponent comes from the digit counts of the operands
and is at most one too high, which the digits of the truncated quotient tell. The exponent is held
in a 32-bit word. The guess fits it if the digits of the dividend do not exceed `digitLimit`, and
those of divisor and precision together exceed it by no more than the digits of the dividend.

A quotient that has no more digits than the precision is found without rounding, in every mode. So
dividing by one gives the dividend back wherever that fits the precision.
-/

namespace Monetary.Decimal

/-- The shifted operands have the quotient of the given ones times the power of ten of the shift. -/
theorem shiftedOperands_spec (dividend shift : Int) {divisor : Int} (hdivisor : divisor ≠ 0)
    (hlow : -4294967296 < shift) (hhigh : shift < 4294967296) :
    (shiftedOperands dividend divisor shift).2 ≠ 0 ∧
      ((shiftedOperands dividend divisor shift).1 /
        (shiftedOperands dividend divisor shift).2 : ℚ) = dividend / divisor * 10 ^ shift := by
  unfold shiftedOperands
  split
  · rename_i hleft
    obtain ⟨k, rfl⟩ := Int.eq_ofNat_of_zero_le hleft
    rw [Int.toNat_natCast, tenPowWord_of_lt (by omega)]
    refine ⟨hdivisor, ?_⟩
    push_cast
    rw [cast_tenPow, zpow_natCast]
    ring
  · rename_i hright
    obtain ⟨k, hk⟩ := Int.eq_ofNat_of_zero_le (a := -shift) (by omega)
    rw [hk, Int.toNat_natCast, tenPowWord_of_lt (by omega)]
    obtain rfl : shift = -k := by omega
    refine ⟨mul_ne_zero hdivisor (by simp), ?_⟩
    push_cast
    rw [cast_tenPow, zpow_neg, zpow_natCast]
    ring

/-- A truncated quotient has more digits than the exponent of a power of ten exactly if the quotient
reaches that power. -/
theorem lt_quotientDigits_iff {operands : Int × Int} (hdivisor : operands.2 ≠ 0) {precision : Nat}
    (hprecision : 0 < precision) :
    precision < quotientDigits operands ↔
      (10 : ℚ) ^ precision ≤ |(operands.1 / operands.2 : ℚ)| := by
  have hpos : 0 < operands.2.natAbs := Int.natAbs_pos.mpr hdivisor
  have hposCast : (0 : ℚ) < |(operands.2 : ℚ)| := abs_pos.mpr (Int.cast_ne_zero.mpr hdivisor)
  rw [quotientDigits, ← Nat.not_le, digitCount_le_iff _ hprecision, Nat.not_lt, Int.natAbs_tdiv]
  rw [abs_div, le_div_iff₀ hposCast]
  change tenPow precision ≤ operands.1.natAbs / operands.2.natAbs ↔ _
  rw [Nat.le_div_iff_mul_le hpos, ← Nat.cast_le (α := ℚ), Nat.cast_mul, cast_tenPow,
    Nat.cast_natAbs, Nat.cast_natAbs, Int.cast_abs, Int.cast_abs]

/-- A quotient lies less than one place away from the power of ten that the digit counts of its
operands tell. -/
theorem abs_quotient_bounds {dividend divisor : Int} (hdividend : dividend ≠ 0)
    (hdivisor : divisor ≠ 0) :
    (10 : ℚ) ^ ((digitCount dividend.natAbs : Int) - digitCount divisor.natAbs - 1) <
        |(dividend / divisor : ℚ)| ∧
      |(dividend / divisor : ℚ)| <
        10 ^ ((digitCount dividend.natAbs : Int) - digitCount divisor.natAbs + 1) := by
  obtain ⟨hdividendLow, hdividendHigh⟩ := abs_coefficient_bounds hdividend
  obtain ⟨hdivisorLow, hdivisorHigh⟩ := abs_coefficient_bounds hdivisor
  have hpos : (0 : ℚ) < |(divisor : ℚ)| := abs_pos.mpr (Int.cast_ne_zero.mpr hdivisor)
  have hunit (exponent : Int) : (0 : ℚ) < 10 ^ exponent := zpow_pos (by norm_num) _
  rw [abs_div, lt_div_iff₀ hpos, div_lt_iff₀ hpos]
  constructor
  · calc _ < (10 : ℚ) ^ ((digitCount dividend.natAbs : Int) - digitCount divisor.natAbs - 1) *
          10 ^ (digitCount divisor.natAbs : Int) := mul_lt_mul_of_pos_left hdivisorHigh (hunit _)
      _ = 10 ^ ((digitCount dividend.natAbs : Int) - 1) := ten_zpow_mul (by ring)
      _ ≤ _ := hdividendLow
  · calc _ < (10 : ℚ) ^ (digitCount dividend.natAbs : Int) := hdividendHigh
      _ = 10 ^ ((digitCount dividend.natAbs : Int) - digitCount divisor.natAbs + 1) *
          10 ^ ((digitCount divisor.natAbs : Int) - 1) := (ten_zpow_mul (by ring)).symm
      _ ≤ _ := mul_le_mul_of_nonneg_left hdivisorLow (hunit _).le

variable {dividend divisor : Int} {precision : Nat}

/-- Moved by the first guess, a quotient has the digits of the precision or one more. -/
theorem guessed_quotient_bounds (hdividend : dividend ≠ 0) (hdivisor : divisor ≠ 0)
    (precision : Nat) {guess : Int}
    (hguess : precision + digitCount divisor.natAbs - digitCount dividend.natAbs = guess) :
    (10 : ℚ) ^ ((precision : Int) - 1) < |(dividend / divisor * 10 ^ guess : ℚ)| ∧
      |(dividend / divisor * 10 ^ guess : ℚ)| < 10 ^ ((precision : Int) + 1) := by
  obtain ⟨hlow, hhigh⟩ := abs_quotient_bounds hdividend hdivisor
  have hunit : (0 : ℚ) < 10 ^ guess := zpow_pos (by norm_num) _
  rw [abs_mul, abs_of_pos hunit]
  constructor
  · calc (10 : ℚ) ^ ((precision : Int) - 1)
        = 10 ^ ((digitCount dividend.natAbs : Int) - digitCount divisor.natAbs - 1) *
            10 ^ guess := (ten_zpow_mul (by omega)).symm
      _ < |(dividend / divisor : ℚ)| * 10 ^ guess := mul_lt_mul_of_pos_right hlow hunit
  · calc |(dividend / divisor : ℚ)| * 10 ^ guess
        < 10 ^ ((digitCount dividend.natAbs : Int) - digitCount divisor.natAbs + 1) *
            10 ^ guess := mul_lt_mul_of_pos_right hhigh hunit
      _ = 10 ^ ((precision : Int) + 1) := ten_zpow_mul (by omega)

/-- The exponent that is chosen fits its word, and the integral part of the quotient that is moved
by it has exactly the digits of the precision. -/
theorem quotientShift_spec (hdividend : dividend ≠ 0) (hdivisor : divisor ≠ 0)
    (hprecision : 0 < precision) (hdividendCount : digitCount dividend.natAbs ≤ digitLimit)
    (hguessCount : precision + digitCount divisor.natAbs ≤
      digitLimit + digitCount dividend.natAbs) :
    -4294967296 < quotientShift dividend divisor precision ∧
      quotientShift dividend divisor precision < 4294967296 ∧
      (10 : ℚ) ^ ((precision : Int) - 1) ≤
        |(dividend / divisor * 10 ^ quotientShift dividend divisor precision : ℚ)| ∧
      |(dividend / divisor * 10 ^ quotientShift dividend divisor precision : ℚ)| <
        10 ^ precision := by
  have hdividendPos := digitCount_pos dividend.natAbs
  have hdivisorPos := digitCount_pos divisor.natAbs
  unfold digitLimit at hdividendCount hguessCount
  unfold quotientShift
  generalize hguess : (precision + digitCount divisor.natAbs - digitCount dividend.natAbs : Int) =
    guess
  obtain ⟨hlow, hhigh⟩ := guessed_quotient_bounds hdividend hdivisor precision hguess
  obtain ⟨hshifted, hquotient⟩ := shiftedOperands_spec dividend guess hdivisor (by omega)
    (by omega)
  have hreached := lt_quotientDigits_iff hshifted hprecision
  rw [hquotient] at hreached
  dsimp only
  split
  · -- The guess is one too high.
    rename_i hmore
    have hten : (10 : ℚ) ≠ 0 := by norm_num
    have hless : |(dividend / divisor * 10 ^ (guess - 1) : ℚ)| =
        |(dividend / divisor * 10 ^ guess : ℚ)| / 10 := by
      rw [zpow_sub_one₀ hten, ← mul_assoc, ← div_eq_mul_inv, abs_div,
        abs_of_pos (by norm_num : (0 : ℚ) < 10)]
    have hlarge := hreached.mp hmore
    rw [zpow_add_one₀ hten, zpow_natCast] at hhigh
    rw [hless, zpow_sub_one₀ hten, zpow_natCast]
    refine ⟨by omega, by omega, ?_, ?_⟩ <;> linarith
  · rename_i henough
    exact ⟨by omega, by omega, hlow.le, lt_of_not_ge fun hlarge => henough (hreached.mpr hlarge)⟩

/-- A number of so many digits is an integer where it is large enough to have them before the
point. -/
theorem exists_int_eq_of_digits {t : ℚ} {coefficient exponent : Int}
    (ht : t = coefficient * 10 ^ exponent) (hprecision : 0 < precision)
    (hdigits : digitCount coefficient.natAbs ≤ precision)
    (hlow : (10 : ℚ) ^ ((precision : Int) - 1) ≤ |t|) : ∃ k : Int, t = k := by
  rcases Int.le_total 0 exponent with hwhole | hfraction
  · obtain ⟨n, hn⟩ := exists_int_eq_valueOf coefficient (neg_nonpos.mpr hwhole)
    exact ⟨n, by rw [ht, ← hn, valueOf, neg_neg]⟩
  · -- A digit after the point would be one digit more than the coefficient has.
    have hsize : |(coefficient : ℚ)| < 10 ^ (precision : Int) := by
      rw [← Int.cast_abs, ← Nat.cast_natAbs, zpow_natCast, ← cast_tenPow]
      exact_mod_cast (digitCount_le_iff _ hprecision).mp hdigits
    have hunit : (0 : ℚ) < 10 ^ exponent := zpow_pos (by norm_num) _
    have hless : (10 : ℚ) ^ ((precision : Int) - 1) < 10 ^ ((precision : Int) + exponent) :=
      calc (10 : ℚ) ^ ((precision : Int) - 1) ≤ |t| := hlow
        _ = |(coefficient : ℚ)| * 10 ^ exponent := by rw [ht, abs_mul, abs_of_pos hunit]
        _ < 10 ^ (precision : Int) * 10 ^ exponent := mul_lt_mul_of_pos_right hsize hunit
        _ = 10 ^ ((precision : Int) + exponent) := ten_zpow_mul rfl
    have hexponent : (precision : Int) - 1 < precision + exponent :=
      (zpow_lt_zpow_iff_right₀ (by norm_num)).mp hless
    obtain rfl : exponent = 0 := by omega
    exact ⟨coefficient, by rw [ht, zpow_zero, mul_one]⟩

/-- A coefficient reduced toward a scale keeps what it stands for, and gets no more digits. -/
theorem reducedToward_spec {coefficient scale preferred : Int} {x : Decimal}
    (h : reducedToward coefficient scale preferred = .ok x) :
    x.value = valueOf coefficient scale ∧ x.digits ≤ digitCount coefficient.natAbs := by
  unfold reducedToward at h
  split at h
  · rename_i hzero
    cases h
    rw [hzero, value_eq_zero_iff.mpr rfl]
    exact ⟨by simp [valueOf], le_rfl⟩
  · rw [value_of_ofParts h, valueOf_dropZeros, digits, (ofParts_eq_ok_iff.mp h).1]
    exact ⟨rfl, digitCount_dropZeros_le _ _ _⟩

/-- The only fault of a coefficient that is reduced toward a scale is that its scale is out of
range. -/
theorem eq_overflow_of_reducedToward {coefficient scale preferred : Int} {error : NumberError}
    (h : reducedToward coefficient scale preferred = .error error) : error = .overflow := by
  unfold reducedToward at h
  split at h
  · cases h
  · exact eq_overflow_of_ofParts h

/-- The quotient of two coefficients stands for the quotient of their numbers at the preferred
scale. -/
theorem coefficient_quotient_eq {x y : Decimal} {coefficient scale : Int}
    (hy : y.coefficient ≠ 0) (h : valueOf coefficient scale * y.value = x.value) :
    (x.coefficient / y.coefficient : ℚ) = coefficient * 10 ^ (preferredScale x y - scale) := by
  have hyCast : (y.coefficient : ℚ) ≠ 0 := Int.cast_ne_zero.mpr hy
  rw [div_eq_iff hyCast]
  calc (x.coefficient : ℚ) = x.value * 10 ^ x.scale.toInt := by
        rw [value, valueOf, mul_assoc, ten_zpow_mul (neg_add_cancel _), zpow_zero, mul_one]
    _ = coefficient * (10 ^ (-scale) * 10 ^ (-y.scale.toInt) * 10 ^ x.scale.toInt) *
          y.coefficient := by
        rw [← h, value, valueOf, valueOf]
        ring
    _ = coefficient * 10 ^ (preferredScale x y - scale) * y.coefficient := by
        rw [ten_zpow_mul rfl, ten_zpow_mul (c := preferredScale x y - scale)]
        rw [preferredScale]
        ring

/-- A quotient that has no more digits than the precision is found without rounding, first with as
many digits as the precision. -/
theorem divide_of_exact_quotient {x y : Decimal} {precision : UInt32} (mode : Rounding)
    {coefficient scale : Int} (hprecision : precision ≠ 0) (hx : x.coefficient ≠ 0)
    (hy : y.coefficient ≠ 0) (hxCount : x.digits ≤ digitLimit)
    (hyCount : precision.toNat + y.digits ≤ digitLimit)
    (hquotient : valueOf coefficient scale * y.value = x.value)
    (hdigits : digitCount coefficient.natAbs ≤ precision.toNat) :
    ∃ k shifted : Int, digitCount k.natAbs = precision.toNat ∧
      valueOf k shifted = valueOf coefficient scale ∧
      x.divide y precision mode = reducedToward k shifted (preferredScale x y) := by
  have hpos := precision_pos hprecision
  obtain ⟨hwordLow, hwordHigh, hlow, hhigh⟩ :=
    quotientShift_spec hx hy hpos hxCount (Nat.le_add_right_of_le hyCount)
  rw [divide, if_neg hprecision, if_neg (mt isZero_iff.mp hy),
    if_neg (mt isZero_iff.mp hx)]
  dsimp only
  generalize quotientShift x.coefficient y.coefficient precision.toNat = shift at *
  have hmoved : (x.coefficient / y.coefficient * 10 ^ shift : ℚ) =
      coefficient * 10 ^ (preferredScale x y - scale + shift) := by
    rw [coefficient_quotient_eq hy hquotient, mul_assoc, ten_zpow_mul rfl]
  obtain ⟨k, hk⟩ := exists_int_eq_of_digits hmoved hpos hdigits hlow
  obtain ⟨hdivisor, hoperands⟩ := shiftedOperands_spec x.coefficient shift hy hwordLow hwordHigh
  have hproduct : (shiftedOperands x.coefficient y.coefficient shift).1 =
      k * (shiftedOperands x.coefficient y.coefficient shift).2 := by
    exact_mod_cast (div_eq_iff (Int.cast_ne_zero.mpr hdivisor)).mp (hoperands.trans hk)
  have hcount : digitCount k.natAbs = precision.toNat := by
    rw [hk, ← Int.cast_abs, ← Nat.cast_natAbs] at hlow hhigh
    rw [← Nat.cast_pred hpos, zpow_natCast, ← cast_tenPow] at hlow
    rw [← cast_tenPow] at hhigh
    have hmore := lt_digitCount_of_tenPow_le (by exact_mod_cast hlow)
    have hless := (digitCount_le_iff k.natAbs hpos).mpr (by exact_mod_cast hhigh)
    omega
  refine ⟨k, preferredScale x y + shift, hcount, ?_, ?_⟩
  · rw [valueOf, ← hk, hmoved, mul_assoc, ten_zpow_mul (c := -scale) (by ring), valueOf]
  · rw [mode.divide_of_eq_mul hdivisor hproduct]
    dsimp only [bind, Except.bind]
    rw [if_neg (by omega)]

/-- Zero divided by any other number is zero at the preferred scale. -/
theorem divide_of_coefficient_eq_zero {x y : Decimal} (precision : UInt32) (mode : Rounding)
    (hx : x.coefficient = 0) (hy : y.coefficient ≠ 0) :
    x.divide y precision mode = .ok ⟨0, clampScale (preferredScale x y)⟩ := by
  have hdividend : x.isZero = true := isZero_iff.mpr hx
  have hdivisor : ¬ y.isZero = true := mt isZero_iff.mp hy
  by_cases hunlimited : precision = 0
  · rw [divide, if_pos hunlimited, divideExactly, if_neg hdivisor, if_pos hdividend]
  · rw [divide, if_neg hunlimited, if_neg hdivisor, if_pos hdividend]

/-- Dividing by a number of value one gives the dividend, at most in another representation, unless
its scale is out of range. -/
theorem divide_unit {x y : Decimal} {precision : UInt32} (mode : Rounding) (hy : y.value = 1)
    (hx : precision = 0 ∨ x.digits ≤ precision.toNat)
    (hcount : precision ≠ 0 → precision.toNat + y.digits ≤ digitLimit) :
    (∃ q, x.divide y precision mode = .ok q ∧ q.value = x.value ∧
        (precision = 0 ∨ q.digits ≤ precision.toNat)) ∨
      x.divide y precision mode = .error .overflow := by
  have hdivisor : y.coefficient ≠ 0 := by
    rw [ne_eq, ← value_eq_zero_iff, hy]
    exact one_ne_zero
  have hquotient : valueOf x.coefficient x.scale.toInt * y.value = x.value := by
    rw [hy, mul_one, value]
  by_cases hzero : x.coefficient = 0
  · rw [divide_of_coefficient_eq_zero precision mode hzero hdivisor]
    refine .inl ⟨_, rfl, ?_, ?_⟩
    · rw [value_eq_zero_iff.mpr hzero, value_eq_zero_iff]
    · exact hx.imp_right (digitCount_mono (Nat.zero_le _)).trans
  by_cases hunlimited : precision = 0
  · rw [divide, if_pos hunlimited]
    cases hexact : x.divideExactly y with
    | ok q =>
      have hproduct := (value_divideExactly_iff hexact).mpr (placesHeld_of_unit x hy)
      rw [hy, mul_one] at hproduct
      exact .inl ⟨q, rfl, hproduct, .inl hunlimited⟩
    | error error => exact .inr (by rw [eq_overflow_of_divideExactly_unit hy hexact])
  have hdigits := hx.resolve_left hunlimited
  have hlimit := hcount hunlimited
  obtain ⟨k, shifted, hk, hvalue, hdivide⟩ := divide_of_exact_quotient mode hunlimited hzero
    hdivisor (by omega) hlimit hquotient hdigits
  rw [hdivide]
  cases hreduced : reducedToward k shifted (preferredScale x y) with
  | ok q =>
    obtain ⟨hq, hqdigits⟩ := reducedToward_spec hreduced
    exact .inl ⟨q, rfl, hq.trans hvalue, .inr (hqdigits.trans hk.le)⟩
  | error error => exact .inr (by rw [eq_overflow_of_reducedToward hreduced])

end Monetary.Decimal
