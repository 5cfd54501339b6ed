import Monetary.Money.Construction
import Monetary.Money.Arithmetic

/-!
# The order of amounts

The relations between two amounts hold or fail only for one currency. The total order puts amounts
of different currencies in the order of the codes.
-/

namespace Monetary.Money

/-- The order of two amounts of one currency. -/
def compareStripped (money : Money) (amount : Amount) : Except MoneyError Ordering := do
  money.checkCurrency amount
  return money.strippedNumber.order amount.number.stripZeros

/-- Whether the amount is less than another one. -/
def isLessThan (money : Money) (amount : Amount) : Except MoneyError Bool := do
  return (← money.compareStripped amount) == .lt

/-- Whether the amount is not greater than another one. -/
def isLessThanOrEqualTo (money : Money) (amount : Amount) : Except MoneyError Bool := do
  return (← money.compareStripped amount) != .gt

/-- Whether the amount is greater than another one. -/
def isGreaterThan (money : Money) (amount : Amount) : Except MoneyError Bool := do
  return (← money.compareStripped amount) == .gt

/-- Whether the amount is not less than another one. -/
def isGreaterThanOrEqualTo (money : Money) (amount : Amount) : Except MoneyError Bool := do
  return (← money.compareStripped amount) != .lt

/-- Whether the amount has the value of another one. -/
def isEqualTo (money : Money) (amount : Amount) : Except MoneyError Bool := do
  return (← money.compareStripped amount) == .eq

/-- The total order of amounts: by the codes of the currencies, then by value. -/
def order (a b : Money) : Ordering :=
  (a.currency.order b.currency).then (a.number.order b.number)

/-- Whether two amounts have one currency and one value. -/
def equal (a b : Money) : Bool :=
  a.currency = b.currency && a.number.order b.number == .eq

/-- What equal amounts have in common and others do not. -/
def hashKey (money : Money) : Currency × Decimal :=
  (money.currency, money.strippedNumber)

/-- The place of the amount in the total order relative to an amount of any kind. -/
def compareTo (money : Money) (amount : Amount) : Contextual (Except MoneyError Ordering) :=
  match money.currency.order amount.currency with
  | .eq => (fromAmount amount).map fun converted => do
    return money.number.order (← converted).number
  | byCode => .known (.ok byCode)

/-- Amounts in ascending order, equal ones in the order in which they were given. -/
def sort (items : List Money) : List Money :=
  items.mergeSort fun a b => a.order b != .gt

end Monetary.Money
