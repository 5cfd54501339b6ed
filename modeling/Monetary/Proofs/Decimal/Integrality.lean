import Monetary.Proofs.Decimal.DivisionByOne
import Monetary.Proofs.Decimal.FixedScale
import Monetary.Proofs.Decimal.IntegralDivision

/-!
# Integrality without a division

Most numbers show by their scale, or by the count of their digits, whether they are integers: without
digits after the point a number is one, and with no other digits it is none, unless it is zero. Only
what is left has its coefficient divided by the power of ten of the scale.

Two computations that always divide tell as much. Bringing a number to a scale without rounding asks
whether it is an integer number of units there, and a remainder of zero whether it is an integer
multiple of the divisor. At the scale zero, and for the divisor one, both ask for an integer. Division
by one never fails, since its preferred scale is that of the number itself.
-/

namespace Monetary.Decimal

variable {x : Decimal} {scale : Int32}

/-- A number is brought to a scale without rounding exactly if it is an integer number of units of
the last place there. -/
theorem exists_setScale_unnecessary_iff : (∃ y, x.setScale scale .unnecessary = .ok y) ↔
    ∃ n : Int, x.value = n * 10 ^ (-scale.toInt) := by
  constructor
  · rintro ⟨y, hy⟩
    by_contra hnone
    rw [setScale_eq_error_iff.mpr ⟨rfl, rfl, hnone⟩] at hy
    cases hy
  · intro hunits
    cases hresult : x.setScale scale .unnecessary with
    | ok y => exact ⟨y, rfl⟩
    | error error => exact absurd hunits (setScale_eq_error_iff.mp hresult).2.2

/-- Every number is divided by one with a remainder. -/
theorem exists_divideWithRemainder_one (x : Decimal) :
    ∃ q r, x.divideWithRemainder one = .ok (q, r) := by
  have hlow : leastScale ≤ preferredScale x one := by
    rw [preferredScale_one]
    exact leastScale_le_toInt x.scale
  have hhigh : preferredScale x one ≤ greatestScale := by
    rw [preferredScale_one]
    exact toInt_le_greatestScale x.scale
  obtain ⟨q, hq, hscale, hleast⟩ := exists_divideToIntegral (y := one) one_ne_zero hlow hhigh
  obtain ⟨r, hr, -⟩ := exists_remainder hq hleast.1.1 hscale
  exact ⟨q, r, hr⟩

/-- A number passes as integral exactly if its value is an integer, exactly if it is brought to the
scale zero without rounding, and exactly if division by one, which every number has, leaves the
remainder zero. -/
theorem isIntegral_agrees_with_divisions (x : Decimal) :
    (x.isIntegral = true ↔ ∃ n : Int, x.value = n) ∧
      (x.isIntegral = true ↔ ∃ y, x.setScale 0 .unnecessary = .ok y) ∧
      ∃ q r, x.divideWithRemainder one = .ok (q, r) ∧
        (x.isIntegral = true ↔ r.isZero = true) := by
  refine ⟨isIntegral_iff, ?_, ?_⟩
  · rw [isIntegral_iff, exists_setScale_unnecessary_iff]
    have hunit : (10 : ℚ) ^ (-(0 : Int32).toInt) = 1 := zpow_zero 10
    simp only [hunit, mul_one]
  · obtain ⟨q, r, hqr⟩ := exists_divideWithRemainder_one x
    refine ⟨q, r, hqr, ?_⟩
    simp only [isIntegral_iff, isZero_remainder_iff hqr, value_one, mul_one]

/-- With as many digits as places 0.99 is no integer, and with one digit more 1.00 is; nor does zero
need a digit before the point. -/
example : isIntegral ⟨99, 2⟩ = false ∧ isIntegral ⟨100, 2⟩ = true ∧ isIntegral ⟨0, 2⟩ = true := by
  decide +kernel

end Monetary.Decimal
