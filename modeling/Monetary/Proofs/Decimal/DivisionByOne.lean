import Monetary.Proofs.Decimal.RoundedNumber

/-!
# Rounding is division by one

Rounding drops digits and may carry. Division by one pads the number to the digits of the precision
and one beyond, corrects its guess, rounds, may carry, and takes zeros off again. Both come out at
the nearest representation of the rounded number, seen from the scale of the number itself: rounding
because a number within the precision keeps its scale, and any other one ends up below it with all
the digits. As a number comes out in one way only, the two are one and the same computation, and
they fail alike.

The digit of the divisor makes the exponent exceed the precision by no more than the digits of the
number take off again, so that it fits its word at the greatest precision too.
-/

namespace Monetary.Decimal

variable {x : Decimal} {precision : UInt32}

/-- A number other than zero is rounded to its nearest representation, seen from its own scale. -/
theorem isRounded_round (mode : Rounding) (hprecision : precision ≠ 0) (hx : x.coefficient ≠ 0)
    (hlimit : x.digits ≤ digitLimit) :
    IsRounded mode precision.toNat x.scale.toInt x.value (x.round precision mode) := by
  rcases Nat.lt_or_ge precision.toNat x.digits with hmore | hfits
  · rcases round_cases_of_exceeding mode hprecision hmore hlimit with
      ⟨c, s, hrounds, hcount, hscale, hround⟩ | ⟨hmode, hdropped, hround⟩
    · have hnearest : IsNearest x.scale.toInt precision.toNat c s :=
        ⟨hcount.le, fun habove => absurd hscale (not_le.mpr habove), fun _ => hcount⟩
      exact .inl ⟨c, s, hrounds, hnearest, hround⟩
    · exact .inr ⟨hmode, fun h => hdropped (dvd_of_hasDigits hmore h), hround⟩
  · have hrounds : mode.RoundsToDigits precision.toNat x.value x.value :=
      .refl mode (mt value_eq_zero_iff.mp hx) ⟨_, _, hfits, rfl⟩
    have hnearest : IsNearest x.scale.toInt precision.toNat x.coefficient x.scale.toInt :=
      ⟨hfits, fun habove => absurd habove (lt_irrefl _), fun hbelow => absurd hbelow (lt_irrefl _)⟩
    refine .inl ⟨_, _, hrounds, hnearest, ?_⟩
    rw [round, if_pos (.inr hfits), ofParts_eq_ok_iff.mpr ⟨rfl, rfl⟩]

/-- Seen from one, the preferred scale is that of the dividend. -/
@[simp] theorem preferredScale_one (x : Decimal) : preferredScale x one = x.scale.toInt :=
  sub_zero _

/-- Dividing a number by one is rounding it, at every precision that is limited and in every mode:
both have the same result, in the same representation, or fail with the same error. -/
theorem divide_one_eq_round (mode : Rounding) (hprecision : precision ≠ 0)
    (hlimit : x.digits ≤ digitLimit) : x.divide one precision mode = x.round precision mode := by
  have hone : one.coefficient ≠ 0 := one_ne_zero
  by_cases hx : x.coefficient = 0
  · have hdigits : x.digits ≤ precision.toNat :=
      (digits_of_coefficient_eq_zero hx).trans_le (precision_pos hprecision)
    rw [divide_of_coefficient_eq_zero precision mode hx hone, preferredScale_one, clampScale_toInt,
      round, if_pos (.inr hdigits), ← hx]
  · have hsingle : one.digits ≤ x.digits :=
      (digitCount_of_lt_ten (by decide)).trans_le (digitCount_pos _)
    have hguess : precision.toNat + one.digits ≤ digitLimit + x.digits :=
      Nat.add_le_add (Nat.le_of_lt_succ precision.toNat_lt) hsingle
    have hdivide := divide_cases_of_guess_le mode hprecision hx hone hlimit hguess
    rw [value_one, div_one, preferredScale_one] at hdivide
    exact hdivide.unique (precision_pos hprecision) (isRounded_round mode hprecision hx hlimit)

/-- 9999.5 carries into a fifth digit, 123450E+2147483647 has no scale with four digits, and at the
greatest precision 12.500 keeps its zeros. -/
theorem divide_one_eq_round_at_limits :
    divide ⟨99995, 1⟩ one 4 .halfUp = .ok ⟨1000, -1⟩ ∧
      divide ⟨123450, -2147483647⟩ one 4 .down = .error .overflow ∧
      divide ⟨12500, 3⟩ one 4294967295 .unnecessary = .ok ⟨12500, 3⟩ := by
  have hcarry : round ⟨99995, 1⟩ 4 .halfUp = .ok ⟨1000, -1⟩ := by decide +kernel
  have hscale : round ⟨123450, -2147483647⟩ 4 .down = .error .overflow := by decide +kernel
  have hkept : round ⟨12500, 3⟩ 4294967295 .unnecessary = .ok ⟨12500, 3⟩ := by decide +kernel
  refine ⟨?_, ?_, ?_⟩
  · rw [divide_one_eq_round .halfUp (by decide) (by decide +kernel), hcarry]
  · rw [divide_one_eq_round .down (by decide) (by decide +kernel), hscale]
  · rw [divide_one_eq_round .unnecessary (by decide) (by decide +kernel), hkept]

end Monetary.Decimal
