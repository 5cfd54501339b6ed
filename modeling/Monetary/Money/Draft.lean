import Monetary.Money.Construction

/-!
# Drafts of amounts

A draft collects the parts of an amount in any order, the last setting of each part counting, and
finds fault only when the amount is made.
-/

namespace Monetary

/-- A currency, or the text of a code that is still to be looked up. -/
inductive CurrencyChoice where
  | currency (currency : Currency)
  | code (text : String)
deriving DecidableEq

/-- The parts of an amount, as far as they are set. -/
structure Draft where
  currency : Option CurrencyChoice
  number : Option (Except NumberError Decimal)
  context : Option Context

namespace Draft

/-- The draft with no part set. -/
def empty : Draft := ⟨none, none, none⟩

/-- Sets the currency. -/
def setCurrency (draft : Draft) (currency : Currency) : Draft :=
  { draft with currency := some (.currency currency) }

/-- Sets the currency to the registered one with this code. -/
def setCode (draft : Draft) (text : String) : Draft :=
  { draft with currency := some (.code text) }

/-- Sets the number. -/
def setNumber (draft : Draft) (number : NumberInput) : Draft :=
  { draft with number := some number.toDecimal }

/-- Sets the context, as one for money. -/
def setContext (draft : Draft) (context : Context) : Draft :=
  { draft with context := some context.forMoney }

/-- Sets every part to that of an amount. -/
def setAmount (draft : Draft) (amount : Amount) : Draft :=
  ((draft.setCurrency amount.currency).setNumber amount.number).setContext amount.context

/-- The widest context of the amounts that drafts make. -/
def maximalContext : Context :=
  .money 0 .halfEven

/-- The currency that is set. -/
def findCurrency (registry : Registry) (draft : Draft) : Except MoneyError Currency :=
  match draft.currency with
  | none => .error (.invalidArgument .currencyUnset)
  | some (.currency currency) => .ok currency
  | some (.code text) => registry.find text

/-- The number that is set. -/
def findNumber (draft : Draft) : Except MoneyError Decimal :=
  match draft.number with
  | none => .error (.invalidArgument .numberUnset)
  | some (.ok number) => .ok number
  | some (.error cause) => .error (.invalidArgument (.number cause))

/-- The amount of the parts; a fault of the currency counts before one of the number. -/
def create (registry : Registry) (draft : Draft) : Contextual (Except MoneyError Money) :=
  match draft.findCurrency registry, draft.findNumber with
  | .error error, _ => .known (.error error)
  | .ok _, .error error => .known (.error error)
  | .ok currency, .ok number =>
    match draft.context with
    | some context => .known (Money.withContext number currency context)
    | none => Money.of number currency

end Draft

/-- The draft with the parts of an amount. -/
def Money.draft (money : Money) : Draft :=
  Draft.empty.setAmount money

end Monetary
