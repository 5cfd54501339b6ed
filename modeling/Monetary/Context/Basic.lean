import Monetary.Decimal.Precision
import Monetary.Text.Listing
import Monetary.Text.Numeral
import Monetary.Text.Quoted

/-!
# Numeric contexts

A context bounds the digits of an amount's number and says how further digits are dropped. It
belongs to a kind of amount, which it names.
-/

namespace Monetary

/-- A precision with a rounding mode, for one kind of amount; the precision zero is unlimited. -/
structure Context where
  precision : UInt32
  rounding : Rounding
  amountType : String
deriving DecidableEq

namespace Context

/-- The kind of amount that this library computes with. -/
def moneyType : String := "Money"

/-- A context for money. -/
def money (precision : UInt32) (rounding : Rounding) : Context :=
  ⟨precision, rounding, moneyType⟩

/-- Whether the number of digits is unlimited. -/
def isUnlimited (context : Context) : Bool :=
  context.precision == 0

/-- Whether the context allows at least as many digits as another one. -/
def isAtLeastAsWideAs (context other : Context) : Bool :=
  context.precision == 0 ||
    (other.precision != 0 && other.precision.toNat ≤ context.precision.toNat)

/-- Whether a number has no more digits than the context allows. -/
def fits (context : Context) (x : Decimal) : Bool :=
  context.isUnlimited || x.digits ≤ context.precision.toNat

/-- The context as one for money. -/
def forMoney (context : Context) : Context :=
  { context with amountType := moneyType }

/-- A number brought to the precision of the context. -/
def apply (context : Context) (x : Decimal) : Except NumberError Decimal :=
  if context.fits x then .ok x else x.round context.precision context.rounding

/-- The digits of the precision. -/
def precisionText (context : Context) : String :=
  String.ofList (Text.digits context.precision.toNat)

/-- The text of a context. -/
def text (context : Context) : String :=
  "NumericContext[amountType=" ++ context.amountType ++ ", precision=" ++ context.precisionText ++
    ", rounding=" ++ context.rounding.name ++ "]"

/-- The listing of a context. -/
def listing (context : Context) : Text.Listing :=
  .fields "NumericContext"
    [("precision", .text context.precisionText), ("rounding", .text context.rounding.label),
      ("amount_type", .text (Text.quoted context.amountType))]

end Context

end Monetary
