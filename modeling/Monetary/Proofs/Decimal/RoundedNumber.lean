import Monetary.Proofs.Decimal.CorrectRounding
import Mathlib.Data.Nat.Digits.Defs

/-!
# Numbers rounded to a precision

A number of more digits than the precision is rounded to the number of exactly that many digits
which its mode gives. It cannot be rounded by the mode that must not if one of the digits that are
dropped is not zero. Otherwise there is one coefficient with all the digits, at the highest scale
that the rounded number has in so many digits; so that if this scale is out of range, it is because
it lies below the least one, and then so do the scales of all shorter representations.
-/

namespace Monetary.Decimal

/-- The last digits of a number are all zeros exactly if a power of ten divides it. -/
theorem tenPow_dvd_iff (n k : Nat) : tenPow k ∣ n ↔ ∀ d ∈ (Nat.digits 10 n).take k, d = 0 := by
  rw [Nat.dvd_iff_mod_eq_zero]
  change n % 10 ^ k = 0 ↔ _
  rw [Nat.self_mod_pow_eq_ofDigits_take k n (by decide)]
  constructor
  · intro hzero d hd
    exact Nat.digits_zero_of_eq_zero (by decide) hzero d hd
  · intro hzeros
    rw [List.eq_replicate_of_mem hzeros, Nat.ofDigits_replicate_zero]

/-- One of the last digits of a coefficient is not zero exactly if the power of ten does not divide
it. -/
theorem exists_digit_ne_zero_iff (coefficient : Int) (k : Nat) :
    (∃ d ∈ (Nat.digits 10 coefficient.natAbs).take k, d ≠ 0) ↔
      ¬ (tenPow k : Int) ∣ coefficient := by
  rw [Int.natCast_dvd, tenPow_dvd_iff]
  push Not
  rfl

variable {x y : Decimal} {precision : UInt32} {mode : Rounding}

/-- Of two coefficients with equally many digits that stand for one number, both are one and at one
scale. -/
theorem eq_of_digitCount_eq {a b s t : Int} (hvalue : valueOf a s = valueOf b t) (ha : a ≠ 0)
    (hb : b ≠ 0) (hdigits : digitCount a.natAbs = digitCount b.natAbs) : a = b ∧ s = t := by
  obtain rfl : s = t := (scale_le_of_digitCount_le hvalue hb hdigits.le).antisymm
    (scale_le_of_digitCount_le hvalue.symm ha hdigits.ge)
  exact ⟨(valueOf_inj s).mp hvalue, rfl⟩

/-- A number of more digits than the precision is rounded to a coefficient with all the digits of
the precision, unless the digits that are dropped matter and must not be dropped. -/
theorem round_cases_of_exceeding (mode : Rounding) (hprecision : precision ≠ 0)
    (hmore : precision.toNat < x.digits) (hlimit : x.digits ≤ digitLimit) :
    (∃ coefficient scale : Int,
      mode.RoundsToDigits precision.toNat x.value (valueOf coefficient scale) ∧
        digitCount coefficient.natAbs = precision.toNat ∧ scale ≤ x.scale.toInt ∧
        x.round precision mode = ofParts coefficient scale) ∨
      mode = .unnecessary ∧ ¬ (tenPow (x.digits - precision.toNat) : Int) ∣ x.coefficient ∧
        x.round precision mode = .error .roundingNecessary := by
  have hpos := precision_pos hprecision
  have hcoefficient : x.coefficient ≠ 0 := by
    intro hzero
    have hone := digits_of_coefficient_eq_zero hzero
    omega
  obtain ⟨dropped, hdigits⟩ := Nat.exists_eq_add_of_le hmore.le
  have hexcess : x.digits - precision.toNat = dropped := by omega
  obtain ⟨hmoved, hlow, hhigh⟩ := moved_coefficient_bounds hcoefficient hdigits
  rw [round, if_neg (not_or.mpr ⟨hprecision, by omega⟩)]
  dsimp only
  rw [hexcess, tenPowWord_of_lt (by unfold digitLimit at hlimit; omega)]
  cases hdivide : mode.divide x.coefficient (tenPow dropped) with
  | error error =>
    obtain ⟨rfl, rfl, -⟩ := (Rounding.divide_eq_error_iff (by simp)).mp hdivide
    refine .inr ⟨rfl, ?_, rfl⟩
    rintro ⟨kept, hkept⟩
    rw [Rounding.divide_of_eq_mul .unnecessary (by simp) (by rw [hkept, mul_comm])] at hdivide
    cases hdivide
  | ok quotient =>
    rw [Rounding.divide_eq_ok_iff (by simp), Int.cast_natCast, cast_tenPow] at hdivide
    obtain ⟨hreached, hbounded⟩ := Rounding.natAbs_bounds_of_roundRat? hpos hlow hhigh hdivide
    obtain ⟨k, s, hk, hs, hkept, hmade⟩ :=
      exists_full_coefficient (x.scale.toInt - dropped) ofParts hpos hreached hbounded
    refine .inl ⟨k, s, ⟨_, _, quotient, hmoved, hlow, hhigh, hdivide, ?_⟩, hk, by omega, hmade⟩
    rw [hkept, valueOf, neg_sub]

/-- Where a number can be written with the digits of the precision, those that are too many are
zeros. -/
theorem dvd_of_hasDigits (hmore : precision.toNat < x.digits)
    (h : HasDigits precision.toNat x.value) :
    (tenPow (x.digits - precision.toNat) : Int) ∣ x.coefficient := by
  obtain ⟨n, exponent, hn, hvalue⟩ := h
  have hsame : valueOf n (-exponent) = x.value := by rw [hvalue, valueOf, neg_neg]
  obtain ⟨kept, hkept, -⟩ := exists_kept_digits hsame hn
    (by omega : x.digits = precision.toNat + (x.digits - precision.toNat)) (by omega)
  exact Dvd.intro_left kept hkept.symm

/-- Where the mode that must not round has a result, the digits that are dropped are zeros. -/
theorem dvd_of_roundsToDigits {v : ℚ} (hprecision : precision ≠ 0)
    (hmore : precision.toNat < x.digits)
    (h : Rounding.unnecessary.RoundsToDigits precision.toNat x.value v) :
    (tenPow (x.digits - precision.toNat) : Int) ∣ x.coefficient :=
  dvd_of_hasDigits hmore (h.hasDigits (precision_pos hprecision))

/-- A rounded number is left as it is when it is rounded again, in any mode. -/
theorem round_of_round (h : x.round precision mode = .ok y) (other : Rounding) :
    y.round precision other = .ok y := by
  rw [round, if_pos]
  by_cases hunlimited : precision = 0
  · exact .inl hunlimited
  · exact .inr (digits_round_le hunlimited h)

/-- Rounding to a precision leaves a number of no more digits as it is. From any other it makes the
number of just so many digits that the mode gives, and it fails in two cases only: a digit other
than zero would be dropped and must not be, or no representation of the rounded number in so many
digits has a scale in range. What has been rounded is not changed by rounding again. -/
theorem round_correctly_rounded (mode : Rounding) (hlimit : x.digits ≤ digitLimit) :
    (precision = 0 ∨ x.digits ≤ precision.toNat → x.round precision mode = .ok x) ∧
      (precision ≠ 0 → precision.toNat < x.digits →
        (∀ y, x.round precision mode = .ok y ↔
          y.digits = precision.toNat ∧
            mode.RoundsToDigits precision.toNat x.value y.value) ∧
        ∀ error, x.round precision mode = .error error ↔
          error = .roundingNecessary ∧ mode = .unnecessary ∧
              (∃ d ∈ (Nat.digits 10 x.coefficient.natAbs).take (x.digits - precision.toNat),
                d ≠ 0) ∨
            error = .overflow ∧ ∃ v, mode.RoundsToDigits precision.toNat x.value v ∧
              ¬ ∃ z : Decimal, z.value = v ∧ z.digits ≤ precision.toNat) ∧
      ∀ y, x.round precision mode = .ok y → ∀ other, y.round precision other = .ok y := by
  refine ⟨fun hfits => by rw [round, if_pos hfits], fun hprecision hmore => ?_,
    fun y h other => round_of_round h other⟩
  rw [exists_digit_ne_zero_iff]
  have hpos := precision_pos hprecision
  rcases round_cases_of_exceeding mode hprecision hmore hlimit with
    ⟨c, s, hrounds, hcount, hscale, hround⟩ | ⟨rfl, hdropped, hround⟩ <;> rw [hround]
  · have hc : c ≠ 0 := by
      rintro rfl
      exact hrounds.ne_zero hpos (by simp [valueOf])
    refine ⟨fun y => ⟨fun h => ?_, ?_⟩, fun error => ?_⟩
    · rw [value_of_ofParts h, digits, (ofParts_eq_ok_iff.mp h).1]
      exact ⟨hcount, hrounds⟩
    · rintro ⟨hdigits, hy⟩
      have hyZero : y.coefficient ≠ 0 := mt value_eq_zero_iff.mpr (hy.ne_zero hpos)
      exact ofParts_eq_ok_iff.mpr
        (eq_of_digitCount_eq (hy.unique hpos hrounds) hyZero hc (hdigits.trans hcount.symm))
    rw [ofParts_eq_error_iff]
    constructor
    · rintro ⟨rfl, hrange⟩
      refine .inr ⟨rfl, _, hrounds, ?_⟩
      rintro ⟨z, hvalue, hdigits⟩
      -- The scale of a shorter representation is no higher, so it is out of range as well.
      have hlower := scale_le_of_digitCount_le hvalue hc (hdigits.trans hcount.ge)
      exact hrange ⟨(leastScale_le_toInt z.scale).trans hlower,
        hscale.trans (toInt_le_greatestScale x.scale)⟩
    · rintro (⟨-, rfl, hnone⟩ | ⟨rfl, v, hv, hnone⟩)
      · exact absurd (dvd_of_roundsToDigits hprecision hmore hrounds) hnone
      · refine ⟨rfl, ?_⟩
        rintro ⟨hlow, hhigh⟩
        apply hnone
        obtain ⟨z, hz⟩ := exists_ofParts_eq_ok c hlow hhigh
        refine ⟨z, (value_of_ofParts hz).trans (hrounds.unique hpos hv), ?_⟩
        rw [digits, (ofParts_eq_ok_iff.mp hz).1, hcount]
  · have hnone : ∀ v, ¬ Rounding.unnecessary.RoundsToDigits precision.toNat x.value v :=
      fun v hv => hdropped (dvd_of_roundsToDigits hprecision hmore hv)
    refine ⟨fun y => iff_of_false (by simp) fun h => hnone _ h.2, fun error => ?_⟩
    constructor
    · rintro ⟨⟩
      exact .inl ⟨rfl, rfl, hdropped⟩
    · rintro (⟨rfl, -, -⟩ | ⟨-, v, hv, -⟩)
      · rfl
      · exact absurd hv (hnone v)

/-- 9999.5 is rounded to 1.000E+4, with a carry into a fifth digit; the half of the last digit that
it loses must not be lost without rounding; and 123450E+2147483647 has no scale with four digits. -/
theorem round_correctly_rounded_with_carry :
    round ⟨99995, 1⟩ 4 .halfEven = .ok ⟨1000, -1⟩ ∧
      Rounding.halfEven.RoundsToDigits 4 (value ⟨99995, 1⟩) (value ⟨1000, -1⟩) ∧
      round ⟨99995, 1⟩ 4 .unnecessary = .error .roundingNecessary ∧
      (∃ d ∈ (Nat.digits 10 99995).take 1, d ≠ 0) ∧
      round ⟨123450, -2147483647⟩ 4 .down = .error .overflow ∧
      ∃ v, Rounding.down.RoundsToDigits 4 (value ⟨123450, -2147483647⟩) v ∧
        ¬ ∃ z : Decimal, z.value = v ∧ z.digits ≤ 4 := by
  have hprecision : (4 : UInt32) ≠ 0 := by decide
  have hcarry : round ⟨99995, 1⟩ 4 .halfEven = .ok ⟨1000, -1⟩ := by decide +kernel
  have hhalf : round ⟨99995, 1⟩ 4 .unnecessary = .error .roundingNecessary := by decide +kernel
  have hscale : round ⟨123450, -2147483647⟩ 4 .down = .error .overflow := by decide +kernel
  obtain ⟨hok, -⟩ := (round_correctly_rounded (x := ⟨99995, 1⟩) .halfEven
    (by decide +kernel)).2.1 hprecision (by decide +kernel)
  obtain ⟨-, hnecessary⟩ := (round_correctly_rounded (x := ⟨99995, 1⟩) .unnecessary
    (by decide +kernel)).2.1 hprecision (by decide +kernel)
  obtain ⟨-, hoverflow⟩ := (round_correctly_rounded (x := ⟨123450, -2147483647⟩) .down
    (by decide +kernel)).2.1 hprecision (by decide +kernel)
  refine ⟨hcarry, ((hok _).mp hcarry).2, hhalf, ?_, hscale, ?_⟩
  · have hdropped : digits ⟨99995, 1⟩ - UInt32.toNat 4 = 1 := by decide +kernel
    rcases (hnecessary _).mp hhalf with ⟨-, -, hdigit⟩ | ⟨hother, -⟩
    · rwa [hdropped] at hdigit
    · cases hother
  · rcases (hoverflow _).mp hscale with ⟨hother, -⟩ | ⟨-, hnone⟩
    · cases hother
    · exact hnone

end Monetary.Decimal
