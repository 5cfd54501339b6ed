import Monetary.Decimal.Precision

/-!
# Decimals of 96 bits

The interchange format of decimals with a mantissa of at most 96 bits, a sign, and up to 28 digits
after the point. A number is converted in two steps: first a representation of it is chosen whose
scale the format can hold, then its coefficient and scale are handed over in words.
-/

namespace Monetary

/-- A decimal `mantissa × 10^(-scale)` with a mantissa below 2⁹⁶ and a scale up to 28. -/
structure Fixed96 where
  mantissa : Int
  scale : Nat
  mantissa_lt : mantissa.natAbs < 79228162514264337593543950336
  scale_le : scale ≤ 28
deriving DecidableEq

/-- What a conversion uses of a type of decimals: the mantissa and the scale of each, and the
decimal of a mantissa and a scale if there is one. -/
structure FixedFormat (F : Type) where
  mantissa : F → Int
  scale : F → UInt32
  make? : Int → UInt32 → Option F

namespace FixedFormat

/-- The decimal number of the same coefficient and scale. -/
def toDecimal {F : Type} (format : FixedFormat F) (x : F) : Decimal :=
  ⟨format.mantissa x, (format.scale x).toInt32⟩

end FixedFormat

namespace Fixed96

/-- A mantissa and a scale in this format, if they fit. -/
def ofParts? (mantissa : Int) (scale : Nat) : Option Fixed96 :=
  if h : mantissa.natAbs < 79228162514264337593543950336 ∧ scale ≤ 28 then
    some ⟨mantissa, scale, h.1, h.2⟩
  else none

/-- The decimals of 96 bits as a format to convert to and from. -/
def format : FixedFormat Fixed96 where
  mantissa := mantissa
  scale x := UInt32.ofNat x.scale
  make? mantissa scale := ofParts? mantissa scale.toNat

/-- The decimal number of the same coefficient and scale. -/
def toDecimal (x : Fixed96) : Decimal :=
  format.toDecimal x

end Fixed96

/-- An integer in a word of 128 bits with a sign, if it goes into one. -/
def inWord128? (n : Int) : Option Int :=
  if -170141183460469231731687303715884105728 ≤ n ∧ n ≤ 170141183460469231731687303715884105727 then
    some n
  else none

namespace Decimal

/-- A representation with a scale that is not negative. -/
def widenToUnits (x : Decimal) : Except NumberError Decimal :=
  if x.scale.toInt < 0 then x.setScale 0 .unnecessary else .ok x

/-- The representation with at most 28 digits after the point: the number's own where the scale
allows it, otherwise the one without trailing zeros. -/
def fitFraction (x : Decimal) : Except NumberError Decimal :=
  if x.scale.toInt ≤ 28 then .ok x
  else if 28 < x.stripZeros.scale.toInt then .error .roundingNecessary
  else x.stripZeros.widenToUnits

/-- The representation that is handed over to the format, without any change of value. -/
def fitted (x : Decimal) : Except NumberError Decimal := do
  (← x.widenToUnits).fitFraction

/-- The decimal of a format with the coefficient and the scale of a number, the first in a word of
128 bits and the second in one of 32 bits. -/
def handOver {F : Type} (format : FixedFormat F) (x : Decimal) : Except NumberError F :=
  match inWord128? x.coefficient with
  | none => .error .overflow
  | some mantissa =>
    match format.make? mantissa x.scale.toUInt32 with
    | none => .error .overflow
    | some fixed => .ok fixed

/-- The number in a format, without any change of value. -/
def toFixed {F : Type} (format : FixedFormat F) (x : Decimal) : Except NumberError F := do
  (← x.fitted).handOver format

/-- The number in the 96-bit format, without any change of value. -/
def toFixed96 (x : Decimal) : Except NumberError Fixed96 :=
  x.toFixed Fixed96.format

end Decimal

end Monetary
