import Monetary.Context.Contextual
import Monetary.Currency.Registry
import Monetary.Decimal.Parser
import Monetary.Money.Basic

/-!
# Making amounts

Amounts from numbers and currencies, from texts, and from amounts of other kinds. Where no context
is given, the default context counts.
-/

namespace Monetary.Money

/-- The amount of a number of units under the default context. -/
def of (number : NumberInput) (currency : Currency) : Contextual (Except MoneyError Money) :=
  .byDefault fun context => withContext number currency context

/-- The amount of a number of units of a registered currency under the default context. -/
def ofCode (registry : Registry) (number : NumberInput) (code : String) :
    Contextual (Except MoneyError Money) :=
  match registry.find code with
  | .ok currency => of number currency
  | .error error => .known (.error error)

/-- The amount of a number of units of a registered currency under a context. -/
def ofCodeWithContext (registry : Registry) (number : NumberInput) (code : String)
    (context : Context) : Except MoneyError Money := do
  withContext number (← registry.find code) context

/-- Zero units of a currency under the default context. -/
def zero (currency : Currency) : Contextual Money :=
  .byDefault fun context => ⟨currency, .zero, context⟩

/-- A context that is at least as wide as another one. -/
def widened (context other : Context) : Context :=
  if context.isAtLeastAsWideAs other then context
  else { context with precision := other.precision }

/-- A number of digits as a precision; too many digits are taken for the greatest precision. -/
def precisionOfDigits (digits : Nat) : UInt32 :=
  UInt32.ofNat (min digits 4294967295)

/-- A context that allows some number of digits. -/
def widenedToDigits (context : Context) (digits : Nat) : Context :=
  let needed := precisionOfDigits digits
  if !context.isUnlimited && context.precision.toNat < needed.toNat then
    { context with precision := needed }
  else context

/-- The context under which an amount of another kind becomes money: its own, widened to the
default one and to the digits of its number. -/
def adoptedContext (number : Decimal) (context usual : Context) : Context :=
  widenedToDigits (widened context.forMoney usual) number.digits

/-- An amount of any kind as money. -/
def fromAmount : Amount → Contextual (Except MoneyError Money)
  | .money m => .known (.ok m)
  | .foreign currency number context =>
    .byDefault fun usual => withContext number currency (adoptedContext number context usual)

/-- Reads the number and the currency of an amount: a code, a blank, and a number. -/
def readParts (text : String) : Except MoneyError (Decimal × Currency) :=
  match Text.cutAt Text.isBlank (Text.trim text.toList) with
  | (_, none) => .error (.invalidArgument (.moneyText text))
  | (code, some number) =>
    match Decimal.readTrimmed (Text.trim number) with
    | .error cause => .error (.invalidArgument (.number cause))
    | .ok number => do return (number, ← Currency.read (String.ofList code))

/-- Reads an amount under the default context. -/
def read (text : String) : Contextual (Except MoneyError Money) :=
  match readParts text with
  | .error error => .known (.error error)
  | .ok (number, currency) => of number currency

end Monetary.Money
