import Monetary.Money.Construction

/-!
# Stored amounts

The flat form in which amounts are stored: a number as a text, the code of a currency, and a
context. Only the currency has to be there when an amount is made from a record.
-/

namespace Monetary

/-- A stored context. -/
structure ContextRecord where
  precision : UInt32
  rounding : Rounding
  amountType : Option String
deriving DecidableEq

/-- A stored amount. -/
structure MoneyRecord where
  number : Option String
  currency : Option String
  context : Option ContextRecord
deriving DecidableEq

namespace ContextRecord

/-- The stored form of a context. -/
def ofContext (context : Context) : ContextRecord :=
  ⟨context.precision, context.rounding, some context.amountType⟩

/-- The context of a stored one, which is for money whatever kind of amount was stored. -/
def toContext (record : ContextRecord) : Context :=
  .money record.precision record.rounding

end ContextRecord

namespace MoneyRecord

/-- The stored form of an amount. -/
def ofMoney (money : Money) : MoneyRecord :=
  { number := some money.number.canonicalText
    currency := some money.currency.code
    context := some (.ofContext money.context) }

/-- The currency of a stored amount. -/
def findCurrency (registry : Registry) (record : MoneyRecord) : Except MoneyError Currency :=
  match record.currency with
  | none => .error (.invalidArgument .currencyRequired)
  | some code => registry.find code

/-- The number of a stored amount, zero if none is stored. -/
def findNumber (record : MoneyRecord) : Except MoneyError Decimal :=
  match record.number with
  | none => .ok .zero
  | some text =>
    match Decimal.read text with
    | .ok number => .ok number
    | .error cause => .error (.invalidArgument (.numberText text cause))

/-- The amount of a stored form; a fault of the currency counts before one of the number. -/
def toMoney (registry : Registry) (record : MoneyRecord) :
    Contextual (Except MoneyError Money) :=
  match record.findCurrency registry, record.findNumber with
  | .error error, _ => .known (.error error)
  | .ok _, .error error => .known (.error error)
  | .ok currency, .ok number =>
    match record.context with
    | some context => .known (Money.withContext number currency context.toContext)
    | none => Money.of number currency

end MoneyRecord

end Monetary
