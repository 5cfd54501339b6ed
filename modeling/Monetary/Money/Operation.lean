import Monetary.Money.Arithmetic

/-!
# Operations as data

The operations that lead from an amount to one of the same currency and context. Those that change
nothing hand back the receiver itself, not an equal amount.
-/

namespace Monetary

/-- An operation on an amount, with its arguments. -/
inductive Operation where
  | add (amount : Amount)
  | subtract (amount : Amount)
  | multiply (factor : NumberInput)
  | divide (divisor : NumberInput)
  /-- The first member of the quotient with remainder. -/
  | quotient (divisor : NumberInput)
  /-- The second member of the quotient with remainder. -/
  | modulus (divisor : NumberInput)
  | divideToIntegral (divisor : NumberInput)
  | remainder (divisor : NumberInput)
  | negate
  | plus
  | abs
  | stripZeros
  | scaleByPowerOfTen (n : Int)

namespace Operation

/-- The result of an operation. -/
def run (money : Money) : Operation → Except MoneyError Money
  | .add amount => money.add amount
  | .subtract amount => money.subtract amount
  | .multiply factor => money.multiply factor
  | .divide divisor => money.divide divisor
  | .quotient divisor => (money.divideWithRemainder divisor).map Prod.fst
  | .modulus divisor => (money.divideWithRemainder divisor).map Prod.snd
  | .divideToIntegral divisor => money.divideToIntegral divisor
  | .remainder divisor => money.remainder divisor
  | .negate => .ok money.negate
  | .plus => .ok money.plus
  | .abs => .ok money.abs
  | .stripZeros => .ok money.stripZeros
  | .scaleByPowerOfTen n => money.scaleByPowerOfTen n

/-- Whether an argument is numerically one. -/
def isUnit (input : NumberInput) : Bool :=
  match input.toDecimal with
  | .ok x => x.isOne
  | .error _ => false

/-- Whether an operation that succeeds hands back the receiver itself. -/
def keepsReceiver (money : Money) : Operation → Bool
  | .add amount => amount.isZero
  | .subtract amount => amount.isZero
  | .multiply factor => isUnit factor
  | .divide divisor => isUnit divisor
  | .quotient divisor => isUnit divisor && money.number.isIntegral
  | .plus => true
  | .abs => money.isPositiveOrZero
  | _ => false

end Operation

end Monetary
