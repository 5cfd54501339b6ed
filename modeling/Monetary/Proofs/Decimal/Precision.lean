import Monetary.Context.Basic
import Monetary.Proofs.Decimal.TrailingZeros
import Monetary.Proofs.Number.Rounding

/-!
# Numbers brought to a precision

A number that is brought to the precision of a context has no more digits than the context allows.
Where rounding carries into a new digit the coefficient is a power of ten, and the zero it ends
with is dropped again. A number other than zero moves by less than its size, and it keeps its value
exactly if the digits of the context suffice for that value: the digits that are too many are then
zeros, and rounding takes them off in every mode.

The power of ten that a coefficient is divided by has its exponent in a 32-bit word. A rounding that
succeeds has not exceeded it, because the scale of its result would be out of range. That a rounding
succeeds is only known for coefficients of at most `digitLimit` digits.
-/

namespace Monetary

/-- The greatest number of digits that a 32-bit word can count. -/
def digitLimit : Nat := 4294967295

namespace Decimal

/-- A coefficient from which a digit is dropped after a carry has lost nothing but that digit. -/
theorem digitCount_tdiv_ten {coefficient : Int} {precision : Nat} (hprecision : 0 < precision)
    (h : coefficient.natAbs ≤ tenPow precision) :
    digitCount (coefficient.tdiv 10).natAbs ≤ precision := by
  rw [digitCount_le_iff _ hprecision, Int.natAbs_tdiv]
  have hpos := tenPow_pos precision
  exact Nat.lt_of_le_of_lt (Nat.div_le_div_right h) (Nat.div_lt_self hpos (by decide))

/-- A quotient that is rounded at the place where it has `precision` digits is at most the power of
ten that comes next. -/
theorem natAbs_divide_le_tenPow {mode : Rounding} {coefficient quotient : Int}
    {precision dropped : Nat} (hdigits : digitCount coefficient.natAbs = precision + dropped)
    (h : mode.divide coefficient (tenPow dropped) = .ok quotient) :
    quotient.natAbs ≤ tenPow precision := by
  have hunit : (0 : Int) < tenPow dropped := Int.natCast_pos.mpr (tenPow_pos dropped)
  have hmoved := Rounding.abs_divide_mul_sub_lt h
  rw [abs_of_pos hunit] at hmoved
  have hcoefficient : |coefficient| < (tenPow precision * tenPow dropped : Int) := by
    rw [← Nat.cast_mul, ← tenPow_add, ← hdigits, Int.abs_eq_natAbs]
    exact_mod_cast lt_tenPow_digitCount _
  have hproduct : |quotient| * tenPow dropped < (tenPow precision + 1) * tenPow dropped :=
    calc |quotient| * tenPow dropped
        = |quotient * tenPow dropped - coefficient + coefficient| := by
          rw [sub_add_cancel, abs_mul, abs_of_pos hunit]
      _ ≤ |quotient * tenPow dropped - coefficient| + |coefficient| := abs_add_le _ _
      _ < tenPow dropped + tenPow precision * tenPow dropped := add_lt_add hmoved hcoefficient
      _ = (tenPow precision + 1) * tenPow dropped := by ring
  have hless := lt_of_mul_lt_mul_right hproduct hunit.le
  rw [Int.abs_eq_natAbs] at hless
  omega

/-- Where rounding carries into a new digit, the quotient is a power of ten, so that its last digit
is a zero. -/
theorem ten_dvd_of_carry {quotient : Int} {precision : Nat} (hprecision : 0 < precision)
    (hsize : quotient.natAbs ≤ tenPow precision)
    (hcarry : precision < digitCount quotient.natAbs) : (10 : Int) ∣ quotient := by
  obtain ⟨rest, rfl⟩ : ∃ rest, precision = rest + 1 := ⟨precision - 1, by omega⟩
  have hpower : quotient.natAbs = tenPow rest * 10 := by
    rw [← tenPow_succ]
    exact Nat.le_antisymm hsize (tenPow_le_of_lt_digitCount hprecision hcarry)
  omega

/-- A zero that is taken off a coefficient counts for nothing when the scale falls by one. -/
theorem valueOf_tdiv_ten {coefficient : Int} (scale : Int) (h : (10 : Int) ∣ coefficient) :
    valueOf (coefficient.tdiv 10) (scale - 1) = valueOf coefficient scale := by
  obtain ⟨kept, rfl⟩ := h
  have hpadded := valueOf_mul_tenPow kept (scale - 1) 1
  rw [Nat.cast_one, sub_add_cancel, tenPow_succ, tenPow_zero] at hpadded
  rw [Int.mul_tdiv_cancel_left _ (by decide), ← hpadded, mul_comm]
  rfl

/-- Scales lie less than a 32-bit word apart. -/
theorem lt_word_of_scale_le {low high : Int32} {k : Nat} (h : low.toInt + k ≤ high.toInt) :
    k < 4294967296 := by
  have hlow := leastScale_le_toInt low
  have hhigh := toInt_le_greatestScale high
  unfold leastScale at hlow
  unfold greatestScale at hhigh
  omega

/-- Rounding leaves a number within the precision as it is. From any other it drops the digits that
are too many, and what it leaves has no more digits than the precision and the value of the rounded
coefficient, also after a carry. -/
theorem round_cases {x y : Decimal} {precision : UInt32} {mode : Rounding}
    (h : x.round precision mode = .ok y) :
    (precision = 0 ∨ x.digits ≤ precision.toNat) ∧ y = x ∨
      ∃ (dropped : Nat) (quotient : Int), 0 < dropped ∧ 0 < precision.toNat ∧
        x.digits = precision.toNat + dropped ∧
        mode.divide x.coefficient (tenPow dropped) = .ok quotient ∧
        y.digits ≤ precision.toNat ∧ y.value = valueOf quotient (x.scale.toInt - dropped) := by
  unfold round at h
  split at h
  · rename_i hfits
    cases h
    exact .inl ⟨hfits, rfl⟩
  rename_i hexceeds
  obtain ⟨hprecision, hmore⟩ := not_or.mp hexceeds
  have hpos := precision_pos hprecision
  obtain ⟨dropped, hdigits⟩ := Nat.exists_eq_add_of_lt (not_le.mp hmore)
  dsimp only at h
  rw [show x.digits - precision.toNat = dropped + 1 by omega] at h
  obtain ⟨quotient, hquotient, h⟩ := bind_eq_ok_iff.mp h
  -- An exponent that exceeds its word would have taken the scale out of range.
  have hscale : y.scale.toInt + (dropped + 1 : Nat) ≤ x.scale.toInt := by
    split at h <;>
    · have := (ofParts_eq_ok_iff.mp h).2
      omega
  rw [tenPowWord_of_lt (lt_word_of_scale_le hscale)] at hquotient
  have hsize := natAbs_divide_le_tenPow (by rw [← digits]; omega) hquotient
  refine .inr ⟨dropped + 1, quotient, Nat.succ_pos _, hpos, by omega, hquotient, ?_⟩
  split at h
  · rename_i hcarry
    rw [value_of_ofParts h, valueOf_tdiv_ten _ (ten_dvd_of_carry hpos hsize hcarry), digits,
      (ofParts_eq_ok_iff.mp h).1]
    exact ⟨digitCount_tdiv_ten hpos hsize, rfl⟩
  · rename_i hwithin
    rw [value_of_ofParts h, digits, (ofParts_eq_ok_iff.mp h).1]
    exact ⟨not_lt.mp hwithin, rfl⟩

/-- A rounded number has no more digits than the precision. -/
theorem digits_round_le {x y : Decimal} {precision : UInt32} {mode : Rounding}
    (hprecision : precision ≠ 0) (h : x.round precision mode = .ok y) :
    y.digits ≤ precision.toNat := by
  rcases round_cases h with ⟨hfits, rfl⟩ | ⟨_, _, -, -, -, -, hdigits, -⟩
  · exact hfits.resolve_left hprecision
  · exact hdigits

/-- Rounding moves a number other than zero by less than its size. -/
theorem abs_round_sub_lt {x y : Decimal} {precision : UInt32} {mode : Rounding}
    (hx : x.coefficient ≠ 0) (h : x.round precision mode = .ok y) :
    |y.value - x.value| < |x.value| := by
  rcases round_cases h with ⟨-, rfl⟩ | ⟨dropped, quotient, -, hpos, hdigits, hquotient, -, hvalue⟩
  · rw [sub_self, abs_zero]
    exact abs_pos.mpr (mt value_eq_zero_iff.mp hx)
  have hunit : |(tenPow dropped : Int)| ≤ |x.coefficient| := by
    rw [Int.abs_eq_natAbs, Int.abs_eq_natAbs, Int.natAbs_natCast]
    exact_mod_cast (Nat.pow_le_pow_right (by decide) (by rw [← digits]; omega)).trans
      (tenPow_pred_digitCount_le (Int.natAbs_ne_zero.mpr hx))
  have hmoved := (Rounding.abs_divide_mul_sub_lt hquotient).trans_le hunit
  have hrounded := valueOf_mul_tenPow quotient (x.scale.toInt - dropped) dropped
  rw [sub_add_cancel] at hrounded
  rw [hvalue, ← hrounded, value, ← valueOf_sub]
  exact abs_valueOf_lt_abs_valueOf.mpr hmoved

/-- Zero has one digit. -/
theorem digits_of_coefficient_eq_zero {x : Decimal} (h : x.coefficient = 0) : x.digits = 1 := by
  rw [digits, h]
  exact digitCount_of_lt_ten (by decide)

/-- A padded coefficient other than zero has as many digits more as there are zeros. -/
theorem digits_of_padded {x : Decimal} {coefficient : Int} {k : Nat}
    (hcoefficient : coefficient ≠ 0) (hx : x.coefficient = coefficient * tenPow k) :
    x.digits = digitCount coefficient.natAbs + k := by
  rw [digits, hx, Int.natAbs_mul, Int.natAbs_natCast,
    digitCount_mul_tenPow (Int.natAbs_ne_zero.mpr hcoefficient)]

/-- Of two numbers of one value, the one at the lower scale has no more digits. -/
theorem digits_le_of_scale_le {x y : Decimal} (hvalue : x.value = y.value)
    (hscale : x.scale.toInt ≤ y.scale.toInt) : x.digits ≤ y.digits := by
  obtain ⟨k, hcoefficient, -⟩ := exists_padding hvalue hscale
  rw [digits, digits, hcoefficient, Int.natAbs_mul, Int.natAbs_natCast]
  exact digitCount_mono (Nat.le_mul_of_pos_right _ (tenPow_pos k))

/-- Zeros beyond the precision are taken off in every mode. -/
theorem round_of_padded {x : Decimal} {precision : UInt32} (mode : Rounding) {coefficient : Int}
    {dropped : Nat} (hprecision : precision ≠ 0) (hdropped : 0 < dropped)
    (hdigits : x.digits = precision.toNat + dropped) (hlimit : x.digits ≤ digitLimit)
    (hx : x.coefficient = coefficient * tenPow dropped) :
    x.round precision mode = ofParts coefficient (x.scale.toInt - dropped) := by
  have hpos := precision_pos hprecision
  have hexcess : x.digits - precision.toNat = dropped := by omega
  have hnonzero : coefficient ≠ 0 := by
    rintro rfl
    have hone : x.digits = 1 := digits_of_coefficient_eq_zero (by rw [hx, zero_mul])
    omega
  have hpadded := digits_of_padded hnonzero hx
  rw [round, if_neg (not_or.mpr ⟨hprecision, by omega⟩)]
  dsimp only
  rw [hexcess, tenPowWord_of_lt (by unfold digitLimit at hlimit; omega),
    mode.divide_of_eq_mul (by simp) hx]
  dsimp only [bind, Except.bind]
  rw [if_neg (by omega)]

/-- Of two coefficients that stand for one number, the one with more digits is at the higher
scale. -/
theorem scale_le_of_digitCount_le {a b s t : Int} (hvalue : valueOf a s = valueOf b t)
    (hb : b ≠ 0) (hdigits : digitCount a.natAbs ≤ digitCount b.natAbs) : s ≤ t := by
  by_contra hless
  obtain ⟨k, rfl, hk⟩ := exists_padding_of_valueOf_eq hvalue.symm (not_le.mp hless).le
  rw [Int.natAbs_mul, Int.natAbs_natCast, digitCount_mul_tenPow (Int.natAbs_ne_zero.mpr hb)]
    at hdigits
  omega

/-- Where fewer digits would do for the value of a number, all the digits that are too many are
zeros at its end. -/
theorem exists_kept_digits {a s : Int} {x : Decimal} {precision dropped : Nat}
    (hvalue : valueOf a s = x.value) (hfits : digitCount a.natAbs ≤ precision)
    (hdigits : x.digits = precision + dropped) (hdropped : 0 < dropped) :
    ∃ kept : Int, x.coefficient = kept * tenPow dropped ∧ s + dropped ≤ x.scale.toInt := by
  have hone := digitCount_pos a.natAbs
  have hnonzero : x.coefficient ≠ 0 := by
    intro hzero
    have hsingle := digits_of_coefficient_eq_zero hzero
    omega
  have hscale : s ≤ x.scale.toInt :=
    scale_le_of_digitCount_le hvalue hnonzero (by rw [← digits]; omega)
  obtain ⟨k, hcoefficient, hk⟩ := exists_padding_of_valueOf_eq hvalue hscale
  have hpadded : x.digits = digitCount a.natAbs + k :=
    digits_of_padded (by rintro h; simp [hcoefficient, h] at hnonzero) hcoefficient
  obtain ⟨rest, rfl⟩ : ∃ rest, k = rest + dropped := ⟨k - dropped, by omega⟩
  refine ⟨a * tenPow rest, ?_, by omega⟩
  rw [hcoefficient, tenPow_add, Nat.cast_mul, mul_assoc]

/-- Where fewer digits would do for the value of a number, it is brought to that precision in every
mode, and keeps its value. -/
theorem exists_round_of_value_eq {a x : Decimal} {precision : UInt32} (mode : Rounding)
    (hfits : a.digits ≤ precision.toNat) (hvalue : a.value = x.value)
    (hlimit : x.digits ≤ digitLimit) :
    ∃ y, x.round precision mode = .ok y ∧ y.value = x.value := by
  by_cases hround : precision = 0 ∨ x.digits ≤ precision.toNat
  · exact ⟨x, by rw [round, if_pos hround], rfl⟩
  rw [not_or, not_le] at hround
  obtain ⟨dropped, hdigits⟩ := Nat.exists_eq_add_of_le hround.2.le
  have hdropped : 0 < dropped := by omega
  obtain ⟨kept, hkept, hscale⟩ := exists_kept_digits hvalue hfits hdigits hdropped
  have hlow := leastScale_le_toInt a.scale
  have hhigh := toInt_le_greatestScale x.scale
  have hscaleLow : leastScale ≤ x.scale.toInt - dropped := by omega
  have hscaleHigh : x.scale.toInt - dropped ≤ greatestScale := by omega
  obtain ⟨y, hy⟩ := exists_ofParts_eq_ok kept hscaleLow hscaleHigh
  refine ⟨y, ?_, ?_⟩
  · rw [round_of_padded mode hround.1 hdropped hdigits hlimit hkept, hy]
  · rw [value_of_ofParts hy, ← valueOf_mul_tenPow _ _ dropped, ← hkept, sub_add_cancel, value]

/-- Rounding keeps a value for which the digits of the precision suffice. -/
theorem value_round_of_value_eq {a x y : Decimal} {precision : UInt32} {mode : Rounding}
    (hfits : a.digits ≤ precision.toNat) (hvalue : a.value = x.value)
    (h : x.round precision mode = .ok y) : y.value = x.value := by
  rcases round_cases h with ⟨-, rfl⟩ |
    ⟨dropped, quotient, hdropped, -, hdigits, hquotient, -, hrounded⟩
  · rfl
  obtain ⟨kept, hkept, -⟩ := exists_kept_digits hvalue hfits hdigits hdropped
  rw [mode.divide_of_eq_mul (by simp) hkept] at hquotient
  cases hquotient
  rw [hrounded, ← valueOf_mul_tenPow _ _ dropped, ← hkept, sub_add_cancel, value]

end Decimal

namespace Context

/-- A number fits a context that allows any number of digits, or at least as many as it has. -/
theorem fits_iff {context : Context} {x : Decimal} :
    context.fits x = true ↔ context.precision = 0 ∨ x.digits ≤ context.precision.toNat := by
  simp [fits, isUnlimited]

/-- A number that fits a context is left as it is. -/
theorem apply_of_fits {context : Context} {x : Decimal} (h : context.fits x = true) :
    context.apply x = .ok x := by
  rw [apply, if_pos h]

/-- A number is brought to a context by rounding, which leaves it alone where it fits. -/
theorem apply_eq_round (context : Context) (x : Decimal) :
    context.apply x = x.round context.precision context.rounding := by
  by_cases hfits : context.fits x = true
  · rw [apply_of_fits hfits, Decimal.round, if_pos (fits_iff.mp hfits)]
  · rw [apply, if_neg hfits]

/-- What is brought to the precision of a context fits the context. -/
theorem fits_of_apply_eq_ok {context : Context} {x y : Decimal} (h : context.apply x = .ok y) :
    context.fits y = true := by
  rw [apply_eq_round] at h
  by_cases hunlimited : context.precision = 0
  · exact fits_iff.mpr (.inl hunlimited)
  · exact fits_iff.mpr (.inr (Decimal.digits_round_le hunlimited h))

/-- The digits of a number that fits a limited context can be counted. -/
theorem digits_le_of_fits {context : Context} {x : Decimal} (hfits : context.fits x = true)
    (hlimited : context.precision ≠ 0) : x.digits ≤ digitLimit :=
  ((fits_iff.mp hfits).resolve_left hlimited).trans
    (Nat.le_of_lt_succ context.precision.toNat_lt)

/-- What is brought to a context has digits that can be counted if the number has. -/
theorem digits_apply_le {context : Context} {x y : Decimal} (hcount : x.digits ≤ digitLimit)
    (h : context.apply x = .ok y) : y.digits ≤ digitLimit := by
  by_cases hfits : context.fits x = true
  · rw [apply_of_fits hfits] at h
    cases h
    exact hcount
  · have hlimited : context.precision ≠ 0 := fun hzero => hfits (fits_iff.mpr (.inl hzero))
    exact digits_le_of_fits (fits_of_apply_eq_ok h) hlimited

/-- The values that a context can hold: those of the numbers that fit it. -/
def CanHold (context : Context) (v : ℚ) : Prop :=
  ∃ x : Decimal, x.value = v ∧ context.fits x = true

/-- A context brings a value that it can hold back from any representation. -/
theorem exists_apply_of_canHold {context : Context} {x : Decimal} (h : context.CanHold x.value)
    (hdigits : x.digits ≤ digitLimit) : ∃ y, context.apply x = .ok y ∧ y.value = x.value := by
  obtain ⟨a, hvalue, hfits⟩ := h
  rcases fits_iff.mp hfits with hunlimited | hdigitsFit
  · exact ⟨x, apply_of_fits (fits_iff.mpr (.inl hunlimited)), rfl⟩
  · rw [apply_eq_round]
    exact Decimal.exists_round_of_value_eq _ hdigitsFit hvalue hdigits

/-- A number that is brought to a context keeps its value exactly if the context can hold it. -/
theorem value_apply_eq_iff {context : Context} {x y : Decimal} (h : context.apply x = .ok y) :
    y.value = x.value ↔ context.CanHold x.value := by
  constructor
  · intro hvalue
    exact ⟨y, hvalue, fits_of_apply_eq_ok h⟩
  · rintro ⟨a, hvalue, hfits⟩
    rcases fits_iff.mp hfits with hunlimited | hdigitsFit
    · rw [apply_of_fits (fits_iff.mpr (.inl hunlimited))] at h
      cases h
      rfl
    · rw [apply_eq_round] at h
      exact Decimal.value_round_of_value_eq hdigitsFit hvalue h

/-- Zero fits every context. -/
@[simp] theorem fits_zero (context : Context) : context.fits .zero = true := by
  rw [fits_iff]
  by_cases hunlimited : context.precision = 0
  · exact .inl hunlimited
  · right
    have hpos := precision_pos hunlimited
    have hone : Decimal.zero.digits = 1 := Decimal.digits_of_coefficient_eq_zero rfl
    omega

/-- A number that is brought to a context moves by no more than its size, and keeps its sign. -/
theorem apply_moves_within {context : Context} {x y : Decimal} (h : context.apply x = .ok y) :
    |y.value - x.value| ≤ |x.value| ∧ y.signum = x.signum := by
  rw [Decimal.signum_eq_sign_value, Decimal.signum_eq_sign_value]
  by_cases hzero : x.coefficient = 0
  · have hvalue : x.value = 0 := Decimal.value_eq_zero_iff.mpr hzero
    have hkept : y.value = x.value :=
      (value_apply_eq_iff h).mpr ⟨.zero, by rw [Decimal.value_zero, hvalue], fits_zero context⟩
    rw [hkept, sub_self, abs_zero]
    exact ⟨abs_nonneg _, rfl⟩
  · rw [apply_eq_round] at h
    have hmoved := Decimal.abs_round_sub_lt hzero h
    refine ⟨hmoved.le, ?_⟩
    rcases lt_or_gt_of_ne (mt Decimal.value_eq_zero_iff.mp hzero) with hnegative | hpositive
    · rw [abs_of_neg hnegative, abs_lt] at hmoved
      rw [sign_neg hnegative, sign_neg (by linarith)]
    · rw [abs_of_pos hpositive, abs_lt] at hmoved
      rw [sign_pos hpositive, sign_pos (by linarith)]

/-- A number fits a context as well as any other with at least as many digits. -/
theorem fits_of_digits_le {context : Context} {x y : Decimal} (hdigits : y.digits ≤ x.digits)
    (h : context.fits x = true) : context.fits y = true := by
  rw [fits_iff] at h ⊢
  exact h.imp_right hdigits.trans

end Context

end Monetary
