import Monetary.Decimal.Binary
import Monetary.Decimal.Fixed96

/-!
# Numeric input

The kinds of number that amounts are made from and multiplied or divided by.
-/

namespace Monetary

/-- A number as a caller may hand it over. -/
inductive NumberInput where
  | decimal (x : Decimal)
  | integer (n : Int)
  | fixed96 (x : Fixed96)
  /-- The bits of a 64-bit binary number. -/
  | double (bits : UInt64)
  /-- The bits of a 32-bit binary number. -/
  | single (bits : UInt32)

/-- The decimal number of an input; only infinities and what is no number have none. -/
def NumberInput.toDecimal : NumberInput → Except NumberError Decimal
  | .decimal x => .ok x
  | .integer n => .ok (Decimal.ofInt n)
  | .fixed96 x => .ok x.toDecimal
  | .double bits => (BinaryNumber.ofBits .double bits.toNat).toDecimal
  | .single bits => (BinaryNumber.ofBits .single bits.toNat).toDecimal

instance : Coe Decimal NumberInput := ⟨.decimal⟩

end Monetary
