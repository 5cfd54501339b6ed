import Monetary.Currency.Basic
import Monetary.Number.Error
import Monetary.Text.Quoted

/-!
# Errors of amounts
-/

namespace Monetary

/-- What is wrong with an argument. -/
inductive ArgumentError where
  /-- The number cannot be converted. -/
  | number (cause : NumberError)
  /-- The text of a stored number cannot be read. -/
  | numberText (text : String) (cause : NumberError)
  /-- The text is no currency code. -/
  | currencyCode (text : String)
  /-- A draft of an amount has no currency. -/
  | currencyUnset
  /-- A draft of an amount has no number. -/
  | numberUnset
  /-- A stored record has no currency. -/
  | currencyRequired
  /-- The text is not a code and a number with a blank between them. -/
  | moneyText (text : String)
deriving DecidableEq

/-- The wording of an argument error. -/
def ArgumentError.message : ArgumentError → String
  | .number cause => "invalid number: " ++ cause.message
  | .numberText text cause => "invalid number " ++ Text.quoted text ++ ": " ++ cause.message
  | .currencyCode text => "invalid currency code " ++ Text.quoted text
  | .currencyUnset => "currency must be set"
  | .numberUnset => "number must be set"
  | .currencyRequired => "currency is required"
  | .moneyText text => "expected \"CODE number\", got " ++ Text.quoted text

mutual

/-- Why an operation on amounts has no result. -/
inductive MoneyError where
  | invalidArgument (cause : ArgumentError)
  /-- No currency is registered under the text. -/
  | unknownCurrency (text : String)
  | currencyMismatch (expected found : Currency)
  /-- The number of the result cannot be computed or does not go into its context. -/
  | number (cause : NumberError)
  /-- A caller's function of this name failed for a reason of its own. -/
  | operationFailed (operation : String) (source : Failure)
deriving DecidableEq

/-- Why a caller's function has no result: an error of any type. What can be told of it is whether
it is an error of amounts. -/
inductive Failure where
  | money (error : MoneyError)
  /-- A reason outside amounts, by its wording. -/
  | foreign (reason : String)
deriving DecidableEq

end

mutual

/-- The wording of an error. -/
def MoneyError.message : MoneyError → String
  | .invalidArgument cause => "invalid argument: " ++ cause.message
  | .unknownCurrency text => "unknown currency: " ++ text
  | .currencyMismatch expected found =>
    "currency mismatch: " ++ expected.code ++ "/" ++ found.code
  | .number cause => cause.message
  | .operationFailed operation source => operation ++ " failed: " ++ source.message

/-- The wording of a failure. -/
def Failure.message : Failure → String
  | .money error => error.message
  | .foreign reason => reason

end

instance : Coe Failure String := ⟨Failure.message⟩

namespace MoneyError

/-- The wording of the error that lies behind an error, if there is one. -/
def cause? : MoneyError → Option String
  | .number cause => some cause.message
  | .operationFailed _ source => some source.message
  | _ => none

/-- The result of a computation with numbers, as one of a computation with amounts. -/
def ofNumber {α : Type} : Except NumberError α → Except MoneyError α
  | .ok a => .ok a
  | .error cause => .error (.number cause)

end MoneyError

/-- The currency of a code in any case, with blanks around it allowed. -/
def Currency.read (text : String) : Except MoneyError Currency :=
  match Currency.ofText? text with
  | some currency => .ok currency
  | none => .error (.invalidArgument (.currencyCode text))

end Monetary
