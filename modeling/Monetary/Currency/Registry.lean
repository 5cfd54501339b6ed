import Monetary.Event
import Monetary.Error

/-!
# Registries of currencies

A registry knows a set of currencies. Currencies can be added to it, and none is ever removed.
-/

namespace Monetary

/-- The known currencies, each once, in the order in which they were added. -/
structure Registry where
  currencies : List Currency
deriving DecidableEq

namespace Registry

/-- The registry that knows no currency. -/
def empty : Registry := ⟨[]⟩

/-- The codes that the usual registry starts with: the commonly traded ones of the standard. -/
def isoCodes : List String :=
  ["AED", "ARS", "AUD", "BGN", "BRL", "CAD", "CHF", "CLP", "CNY", "COP", "CZK", "DKK", "EGP",
    "EUR", "GBP", "HKD", "HUF", "IDR", "ILS", "INR", "ISK", "JPY", "KRW", "KWD", "MXN", "MYR",
    "NGN", "NOK", "NZD", "PEN", "PHP", "PKR", "PLN", "RON", "RUB", "SAR", "SEK", "SGD", "THB",
    "TRY", "TWD", "UAH", "USD", "VND", "XAG", "XAU", "ZAR"]

/-- The registry that knows the currencies of `isoCodes`. -/
def iso : Registry :=
  ⟨isoCodes.filterMap Currency.ofText?⟩

/-- The number of known currencies. -/
def size (registry : Registry) : Nat :=
  registry.currencies.length

/-- Whether no currency is known. -/
def isEmpty (registry : Registry) : Bool :=
  registry.currencies.isEmpty

/-- Whether a currency is known. -/
def knows (registry : Registry) (currency : Currency) : Bool :=
  registry.currencies.any fun known => known = currency

/-- Whether a text is the code of a known currency. -/
def contains (registry : Registry) (text : String) : Bool :=
  match Currency.ofText? text with
  | some currency => registry.knows currency
  | none => false

/-- The known currency with this code. -/
def find (registry : Registry) (text : String) : Except MoneyError Currency :=
  match Currency.ofText? text with
  | some currency =>
    if registry.knows currency then .ok currency else .error (.unknownCurrency text)
  | none => .error (.unknownCurrency text)

/-- The registry with a currency added to it. -/
def add (registry : Registry) (currency : Currency) : Registry :=
  if registry.knows currency then registry else ⟨registry.currencies ++ [currency]⟩

/-- An added currency is known, and no other that was not known before. -/
theorem knows_add (registry : Registry) (added currency : Currency) :
    (registry.add added).knows currency = (registry.knows currency || decide (added = currency)) := by
  unfold add
  split
  · rename_i h
    by_cases hsame : added = currency
    · subst hsame
      simp [h]
    · simp [hsame]
  · simp [knows]

/-- The event that reports a new currency. -/
def registered (currency : Currency) : Event :=
  ⟨.debug, "Registered currency", [("code", currency.code)]⟩

/-- Adds the currency with this code; a currency that was not known before is reported. -/
def register (registry : Registry) (text : String) :
    Except MoneyError Currency × Registry × List Event :=
  match Currency.read text with
  | .error error => (.error error, registry, [])
  | .ok currency =>
    if registry.knows currency then (.ok currency, registry, [])
    else (.ok currency, registry.add currency, [registered currency])

end Registry

end Monetary
