import Monetary.Decimal.Precision

/-!
# Decimals from binary floating point

A finite binary number becomes the decimal with the fewest digits that lies closer to it than to
any other number of its format, the nearest such decimal where there are several, and the upper
one of two at the same distance. Its scale is the least one that is not negative.
-/

namespace Monetary

/-- An interchange format of binary floating point, with an implicit leading bit. -/
structure BinaryFormat where
  fractionBits : Nat
  exponentBits : Nat

namespace BinaryFormat

/-- The format of 32 bits. -/
def single : BinaryFormat := ⟨23, 8⟩

/-- The format of 64 bits. -/
def double : BinaryFormat := ⟨52, 11⟩

end BinaryFormat

/-- A positive number `significand × 2^exponent` of a binary format. -/
structure BinaryMagnitude where
  significand : Nat
  exponent : Int
  /-- Whether the next smaller number of the format is only half as far away as the next larger. -/
  narrowBelow : Bool

namespace BinaryMagnitude

/-- The decimals that a binary magnitude is told by, over a common denominator: those between
`low` and `high`, with the ends if `closed`; `middle` is the magnitude itself. -/
structure Interval where
  low : Nat
  middle : Nat
  high : Nat
  denominator : Nat
  closed : Bool

/-- The interval of the numbers nearer to a magnitude than to its neighbours in the format. -/
def interval (m : BinaryMagnitude) : Interval :=
  let quarter := m.exponent - 2
  let unit := Nat.pow 2 quarter.toNat
  { low := (4 * m.significand - (if m.narrowBelow then 1 else 2)) * unit
    middle := 4 * m.significand * unit
    high := (4 * m.significand + 2) * unit
    denominator := Nat.pow 2 (-quarter).toNat
    closed := m.significand % 2 == 0 }

end BinaryMagnitude

namespace BinaryMagnitude.Interval

/-- The interval in units of `10^exponent`. -/
def inUnits (i : Interval) (exponent : Int) : Interval :=
  let stretch := tenPow (-exponent).toNat
  { low := i.low * stretch
    middle := i.middle * stretch
    high := i.high * stretch
    denominator := i.denominator * tenPow exponent.toNat
    closed := i.closed }

/-- Whether an integer lies in the interval. -/
def holds (i : Interval) (n : Nat) : Bool :=
  let point := n * i.denominator
  if i.closed then i.low ≤ point && point ≤ i.high else i.low < point && point < i.high

/-- The integer in the interval that is nearest to its middle, among the two around it. -/
def nearest? (i : Interval) : Option Nat :=
  let below := i.middle / i.denominator
  let fromBelow := i.middle % i.denominator
  match i.holds below, i.holds (below + 1) with
  | true, true => some (if 2 * fromBelow < i.denominator then below else below + 1)
  | true, false => some below
  | false, true => some (below + 1)
  | false, false => none

/-- The power of ten at which the leading digit of the middle stands. -/
def leadingExponent (i : Interval) : Int :=
  let guess : Int := digitCount i.middle - digitCount i.denominator
  let scaled := i.inUnits guess
  if scaled.denominator ≤ scaled.middle then guess else guess - 1

/-- The fewest digits that tell the middle, as an integer in units of a power of ten, and the
exponent of that power; no more than `limit` digits are tried. -/
def shortest? (i : Interval) (limit : Nat) : Option (Nat × Int) :=
  let lead := i.leadingExponent
  (List.range limit).findSome? fun (more : Nat) =>
    let exponent := lead - more
    ((i.inUnits exponent).nearest?).map fun n => (n, exponent)

end BinaryMagnitude.Interval

/-- What the bits of a binary number stand for. -/
inductive BinaryNumber where
  /-- A finite number other than zero. -/
  | finite (negative : Bool) (magnitude : BinaryMagnitude)
  /-- Zero of either sign. -/
  | zero
  /-- An infinity or no number at all. -/
  | special

namespace BinaryNumber

/-- The number with these bits. -/
def ofBits (format : BinaryFormat) (bits : Nat) : BinaryNumber :=
  let fractionRange := Nat.pow 2 format.fractionBits
  let exponentRange := Nat.pow 2 format.exponentBits
  let fraction := bits % fractionRange
  let biased := bits / fractionRange % exponentRange
  let negative := bits / fractionRange / exponentRange % 2 == 1
  let bias : Int := exponentRange / 2 - 1 + format.fractionBits
  if biased = exponentRange - 1 then .special
  else if biased = 0 then
    if fraction = 0 then .zero else .finite negative ⟨fraction, 1 - bias, false⟩
  else .finite negative ⟨fractionRange + fraction, biased - bias, fraction = 0 ∧ 1 < biased⟩

/-- The decimal of the fewest digits for a binary number; seventeen digits tell any number of 64
bits or fewer. -/
def toDecimal : BinaryNumber → Except NumberError Decimal
  | .special => .error .invalidInput
  | .zero => .ok Decimal.zero
  | .finite negative magnitude =>
    match magnitude.interval.shortest? 17 with
    | none => .error .invalidInput
    | some (n, exponent) =>
      let coefficient : Int := n * tenPow exponent.toNat
      let (coefficient, scale) := Decimal.dropZeros coefficient (max 0 (-exponent)) 0
      Decimal.ofParts (if negative then -coefficient else coefficient) scale

end BinaryNumber

end Monetary
