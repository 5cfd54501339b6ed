import Monetary.Context.Basic
import Monetary.Decimal.Input
import Monetary.Decimal.Notation
import Monetary.Error

/-!
# Amounts of money

An amount of money is a number of units of a currency, under a context that bounds its digits.
Other kinds of amount have the same three parts and can be operands, but are no money until they
are converted.
-/

namespace Monetary

/-- A number of units of a currency, under a context. -/
structure Money where
  currency : Currency
  number : Decimal
  context : Context
deriving DecidableEq

/-- An amount of any kind. -/
inductive Amount where
  | money (money : Money)
  /-- An amount of another kind than money. -/
  | foreign (currency : Currency) (number : Decimal) (context : Context)
deriving DecidableEq

namespace Amount

/-- The currency of an amount. -/
def currency : Amount → Currency
  | .money m => m.currency
  | .foreign currency _ _ => currency

/-- The number of an amount. -/
def number : Amount → Decimal
  | .money m => m.number
  | .foreign _ number _ => number

/-- The context of an amount. -/
def context : Amount → Context
  | .money m => m.context
  | .foreign _ _ context => context

/-- The sign of an amount: -1, 0 or 1. -/
def signum (amount : Amount) : Int :=
  amount.number.signum

/-- Whether an amount is zero. -/
def isZero (amount : Amount) : Bool :=
  amount.number.isZero

end Amount

namespace Money

instance : Coe Money Amount := ⟨.money⟩

/-- The number of an argument, which is invalid if it has none. -/
def operand (input : NumberInput) : Except MoneyError Decimal :=
  match input.toDecimal with
  | .ok x => .ok x
  | .error cause => .error (.invalidArgument (.number cause))

/-- The amount of a number of units, brought to the precision of the context. -/
def withContext (number : NumberInput) (currency : Currency) (context : Context) :
    Except MoneyError Money := do
  let x ← operand number
  let fitted ← MoneyError.ofNumber (context.apply x)
  return ⟨currency, fitted, context⟩

/-- The amount of a number of the receiver's units that is brought to the precision of its
context. -/
def derive (money : Money) (number : Decimal) : Except MoneyError Money := do
  let fitted ← MoneyError.ofNumber (money.context.apply number)
  return { money with number := fitted }

/-- The amount of a number of the receiver's units, whatever its digits. -/
def deriveExactly (money : Money) (number : Decimal) : Money :=
  { money with number }

/-- The number without trailing zeros. -/
def strippedNumber (money : Money) : Decimal :=
  money.number.stripZeros

/-- The sign of an amount: -1, 0 or 1. -/
def signum (money : Money) : Int :=
  money.number.signum

/-- Whether an amount is zero. -/
def isZero (money : Money) : Bool :=
  money.signum == 0

/-- Whether an amount is above zero. -/
def isPositive (money : Money) : Bool :=
  money.signum == 1

/-- Whether an amount is not below zero. -/
def isPositiveOrZero (money : Money) : Bool :=
  0 ≤ money.signum

/-- Whether an amount is below zero. -/
def isNegative (money : Money) : Bool :=
  money.signum == -1

/-- Whether an amount is not above zero. -/
def isNegativeOrZero (money : Money) : Bool :=
  money.signum ≤ 0

/-- The text of an amount: the code of its currency and its number. -/
def text (money : Money) : String :=
  money.currency.code ++ " " ++ money.number.canonicalText

instance : ToString Money := ⟨text⟩

/-- The listing of an amount. -/
def listing (money : Money) : Text.Listing :=
  .fields "Money"
    [("currency", .text (Text.quoted money.currency.code)),
      ("number", .text money.number.canonicalText), ("context", money.context.listing)]

end Money

end Monetary
