import Monetary.Decimal.Basic

/-!
# The order of decimal numbers

Numbers are ordered by value, whatever their scales. Two numbers of one sign whose leading digits
stand at different places are told apart by these places; only otherwise are the coefficients
brought to one scale.
-/

namespace Monetary.Decimal

/-- The two coefficients at the larger of the two scales, and that scale. -/
def aligned (x y : Decimal) : Int × Int × Int32 :=
  let left := x.scale.toInt
  let right := y.scale.toInt
  if left < right then (x.coefficient * tenPow (right - left).toNat, y.coefficient, y.scale)
  else (x.coefficient, y.coefficient * tenPow (left - right).toNat, x.scale)

/-- The power of ten at which the leading digit stands. -/
def leadingExponent (x : Decimal) : Int :=
  x.digits - 1 - x.scale.toInt

/-- The order of the values of two numbers. -/
def order (x y : Decimal) : Ordering :=
  if x.signum ≠ y.signum then compare x.signum y.signum
  else if x.signum = 0 then .eq
  else
    match compare x.leadingExponent y.leadingExponent with
    | .eq =>
      let (left, right, _) := aligned x y
      compare left right
    | byPlace => if 0 < x.signum then byPlace else byPlace.swap

/-- Whether the value is one, at any scale. -/
def isOne (x : Decimal) : Bool :=
  x.order one == .eq

/-- Whether the value is an integer. -/
def isIntegral (x : Decimal) : Bool :=
  if x.scale.toInt ≤ 0 || x.isZero then true
  else if (x.digits : Int) ≤ x.scale.toInt then false
  else x.coefficient % tenPow x.scale.toInt.toNat == 0

end Monetary.Decimal
