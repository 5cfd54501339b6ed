import Monetary.Decimal.Arithmetic
import Monetary.Decimal.Precision

/-!
# Division

Three quotients: the exact one, where the decimal expansion is finite; the one rounded to a
precision; and the integral one, with its remainder. The scale that each would like to have is
the difference of the operands' scales, the preferred scale.
-/

namespace Monetary.Decimal

/-- How often `factor` divides a number, as a 32-bit word counts it, and what is left of the
number. -/
def factorOut (factor n : Nat) : UInt32 × Nat :=
  if 1 < factor ∧ 0 < n ∧ n % factor = 0 then
    let (times, rest) := factorOut factor (n / factor)
    (times + 1, rest)
  else (0, n)
termination_by n
decreasing_by exact Nat.div_lt_self (by omega) (by omega)

/-- The scale of the dividend less that of the divisor. -/
def preferredScale (x y : Decimal) : Int :=
  x.scale.toInt - y.scale.toInt

/-- The exact quotient, at the preferred scale or the least one above it that can hold it. -/
def divideExactly (x y : Decimal) : Except NumberError Decimal :=
  if y.isZero then .error .divisionByZero
  else if x.isZero then .ok ⟨0, clampScale (preferredScale x y)⟩
  else
    let dividend := x.coefficient.natAbs
    let divisor := y.coefficient.natAbs
    let (twos, odd) := factorOut 2 (divisor / Nat.gcd dividend divisor)
    let (fives, rest) := factorOut 5 odd
    if rest ≠ 1 then .error .nonTerminating
    else
      let shift := (max twos fives).toNat
      ofParts ((x.coefficient * tenPow shift).tdiv y.coefficient) (preferredScale x y + shift)

/-- Two coefficients whose quotient is the given one times `10^shift`. -/
def shiftedOperands (dividend divisor shift : Int) : Int × Int :=
  if 0 ≤ shift then (dividend * tenPowWord shift.toNat, divisor)
  else (dividend, divisor * tenPowWord (-shift).toNat)

/-- The number of digits of a truncated quotient. -/
def quotientDigits (operands : Int × Int) : Nat :=
  digitCount (operands.1.tdiv operands.2).natAbs

/-- The power of ten by which a quotient is multiplied so that its integral part has `precision`
digits: the guess from the digit counts of the operands, or one less. -/
def quotientShift (dividend divisor : Int) (precision : Nat) : Int :=
  let guess : Int := precision + digitCount divisor.natAbs - digitCount dividend.natAbs
  if precision < quotientDigits (shiftedOperands dividend divisor guess) then guess - 1 else guess

/-- The quotient rounded to at most `precision` digits, its trailing zeros dropped down to the
preferred scale; for the precision zero, the exact quotient. -/
def divide (x y : Decimal) (precision : UInt32) (mode : Rounding) : Except NumberError Decimal :=
  if precision = 0 then divideExactly x y
  else if y.isZero then .error .divisionByZero
  else if x.isZero then .ok ⟨0, clampScale (preferredScale x y)⟩
  else do
    let shift := quotientShift x.coefficient y.coefficient precision.toNat
    let (dividend, divisor) := shiftedOperands x.coefficient y.coefficient shift
    let quotient ← mode.divide dividend divisor
    let scale := preferredScale x y + shift
    if precision.toNat < digitCount quotient.natAbs then
      reducedToward (quotient.tdiv 10) (scale - 1) (preferredScale x y)
    else reducedToward quotient scale (preferredScale x y)

/-- The quotient truncated to an integer, at the preferred scale where that can hold it. -/
def divideToIntegral (x y : Decimal) : Except NumberError Decimal :=
  if y.isZero then .error .divisionByZero
  else
    let preferred := preferredScale x y
    let (dividend, divisor, _) := aligned x y
    let quotient := dividend.tdiv divisor
    if 0 < preferred then do
      let scale ← checkScale preferred
      return ⟨quotient * tenPow preferred.toNat, scale⟩
    else reducedToward quotient 0 preferred

/-- The integral quotient and what the dividend exceeds its product with the divisor by. -/
def divideWithRemainder (x y : Decimal) : Except NumberError (Decimal × Decimal) := do
  let quotient ← divideToIntegral x y
  let product ← quotient.mul y
  return (quotient, x.sub product)

/-- The remainder of the integral quotient, with the sign of the dividend. -/
def remainder (x y : Decimal) : Except NumberError Decimal := do
  let quotient ← divideToIntegral x y
  return x.sub (← quotient.mul y)

end Monetary.Decimal
