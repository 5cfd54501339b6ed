/-!
# Errors of decimal arithmetic
-/

namespace Monetary

/-- Why a decimal computation has no result. -/
inductive NumberError where
  /-- The scale of the result lies outside the range of scales. -/
  | overflow
  /-- The divisor is zero. -/
  | divisionByZero
  /-- A digit other than zero would be dropped although rounding is not allowed. -/
  | roundingNecessary
  /-- The exact quotient has no finite decimal expansion. -/
  | nonTerminating
  /-- The text or binary number does not stand for a decimal number. -/
  | invalidInput
deriving DecidableEq

/-- The wording of an error. -/
def NumberError.message : NumberError → String
  | .overflow => "arithmetic overflow: scale out of range"
  | .divisionByZero => "division by zero"
  | .roundingNecessary =>
    "rounding necessary: result exceeds precision and rounding is disallowed"
  | .nonTerminating => "non-terminating decimal expansion: no exact representable quotient"
  | .invalidInput => "invalid input: could not parse value"

end Monetary
