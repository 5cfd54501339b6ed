import Monetary.Decimal.Basic
import Monetary.Number.Rounding

/-!
# Precision and scale

Rounding to a number of digits, rounding to a scale, and the removal of trailing zeros. A
precision of zero stands for an unlimited number of digits.
-/

namespace Monetary.Decimal

/-- Drops zeros at the end of a coefficient while its scale is above `least`. -/
def dropZeros (coefficient scale least : Int) : Int × Int :=
  if least < scale ∧ coefficient % 10 = 0 then dropZeros (coefficient / 10) (scale - 1) least
  else (coefficient, scale)
termination_by (scale - least).toNat

/-- A coefficient and scale with trailing zeros dropped down to the scale `preferred`; zero has
that scale, or its own if it is smaller. -/
def reducedToward (coefficient scale preferred : Int) : Except NumberError Decimal :=
  if coefficient = 0 then .ok ⟨0, clampScale (min preferred scale)⟩
  else
    let (coefficient, scale) := dropZeros coefficient scale preferred
    ofParts coefficient scale

/-- The number without zeros at the end of its coefficient; zero becomes `0`. -/
def stripZeros (x : Decimal) : Decimal :=
  if x.isZero then zero
  else
    let (coefficient, scale) := dropZeros x.coefficient x.scale.toInt leastScale
    ⟨coefficient, Int32.ofInt scale⟩

/-- The number rounded to at most `precision` digits. -/
def round (x : Decimal) (precision : UInt32) (mode : Rounding) : Except NumberError Decimal :=
  if precision = 0 ∨ x.digits ≤ precision.toNat then .ok x
  else do
    let dropped := x.digits - precision.toNat
    let coefficient ← mode.divide x.coefficient (tenPowWord dropped)
    let scale := x.scale.toInt - dropped
    if precision.toNat < digitCount coefficient.natAbs then
      ofParts (coefficient.tdiv 10) (scale - 1)
    else ofParts coefficient scale

/-- The number rounded to a multiple of `10^(-scale)`, at that scale. -/
def setScale (x : Decimal) (scale : Int32) (mode : Rounding) : Except NumberError Decimal :=
  if x.scale.toInt ≤ scale.toInt then
    .ok ⟨x.coefficient * tenPow (scale.toInt - x.scale.toInt).toNat, scale⟩
  else do
    return ⟨← mode.divide x.coefficient (tenPow (x.scale.toInt - scale.toInt).toNat), scale⟩

end Monetary.Decimal
