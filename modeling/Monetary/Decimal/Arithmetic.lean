import Monetary.Decimal.Order

/-!
# Exact sums, differences and products

The scale of a sum or difference is the larger of the two scales, and that of a product their
sum; no digit is ever dropped.
-/

namespace Monetary.Decimal

/-- The sum at the larger of the two scales. -/
def add (x y : Decimal) : Decimal :=
  let (left, right, scale) := aligned x y
  ⟨left + right, scale⟩

/-- The difference at the larger of the two scales. -/
def sub (x y : Decimal) : Decimal :=
  let (left, right, scale) := aligned x y
  ⟨left - right, scale⟩

/-- The product at the sum of the two scales, if that is a scale. -/
def mul (x y : Decimal) : Except NumberError Decimal :=
  ofParts (x.coefficient * y.coefficient) (x.scale.toInt + y.scale.toInt)

/-- The number times `10^n`, with the same coefficient. -/
def scaleByPowerOfTen (x : Decimal) (n : Int) : Except NumberError Decimal :=
  ofParts x.coefficient (x.scale.toInt - n)

end Monetary.Decimal
