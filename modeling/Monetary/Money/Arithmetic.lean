import Monetary.Decimal.Division
import Monetary.Money.Basic

/-!
# Arithmetic of amounts

Operations keep the currency and the context of the receiver and bring the number of the result to
that context, apart from those that only change the sign or the representation. An operation that
changes nothing, such as adding zero or dividing by one, returns the receiver.
-/

namespace Monetary.Money

/-- Refuses an amount of another currency than the receiver's. -/
def checkCurrency (money : Money) (amount : Amount) : Except MoneyError Unit :=
  if amount.currency = money.currency then .ok ()
  else .error (.currencyMismatch money.currency amount.currency)

/-- The sum of two amounts of one currency. -/
def add (money : Money) (amount : Amount) : Except MoneyError Money := do
  money.checkCurrency amount
  if amount.isZero then return money
  money.derive (money.number.add amount.number)

/-- The difference of two amounts of one currency. -/
def subtract (money : Money) (amount : Amount) : Except MoneyError Money := do
  money.checkCurrency amount
  if amount.isZero then return money
  money.derive (money.number.sub amount.number)

/-- The amount times a number. -/
def multiply (money : Money) (factor : NumberInput) : Except MoneyError Money := do
  let factor ← operand factor
  if factor.isOne then return money
  money.derive (← MoneyError.ofNumber (money.number.mul factor))

/-- The amount divided by a number, rounded half-even to the precision of the context. -/
def divide (money : Money) (divisor : NumberInput) : Except MoneyError Money := do
  let divisor ← operand divisor
  if divisor.isOne then return money
  let quotient ← MoneyError.ofNumber
    (money.number.divide divisor money.context.precision .halfEven)
  money.derive quotient

/-- The truncated quotient by a number, and the remainder with the sign of the amount. -/
def divideWithRemainder (money : Money) (divisor : NumberInput) :
    Except MoneyError (Money × Money) := do
  let divisor ← operand divisor
  if divisor.isOne && money.number.isIntegral then
    return (money, money.deriveExactly .zero)
  let (quotient, remainder) ← MoneyError.ofNumber (money.number.divideWithRemainder divisor)
  let quotient ← money.derive quotient
  let remainder ← money.derive remainder
  return (quotient, remainder)

/-- The truncated quotient by a number. -/
def divideToIntegral (money : Money) (divisor : NumberInput) : Except MoneyError Money := do
  let divisor ← operand divisor
  money.derive (← MoneyError.ofNumber (money.number.divideToIntegral divisor))

/-- The remainder of the truncated quotient by a number. -/
def remainder (money : Money) (divisor : NumberInput) : Except MoneyError Money := do
  let divisor ← operand divisor
  money.derive (← MoneyError.ofNumber (money.number.remainder divisor))

/-- The amount with the opposite sign. -/
def negate (money : Money) : Money :=
  money.deriveExactly money.number.neg

instance : Neg Money := ⟨negate⟩

/-- The amount itself. -/
def plus (money : Money) : Money :=
  money

/-- The amount without its sign. -/
def abs (money : Money) : Money :=
  if money.isPositiveOrZero then money else money.negate

/-- The amount with its number in the representation without trailing zeros. -/
def stripZeros (money : Money) : Money :=
  money.deriveExactly money.strippedNumber

/-- The amount times `10^n`, with the same coefficient. -/
def scaleByPowerOfTen (money : Money) (n : Int) : Except MoneyError Money := do
  return money.deriveExactly (← MoneyError.ofNumber (money.number.scaleByPowerOfTen n))

end Monetary.Money
