import Monetary.Money.Basic

/-!
# Callers' functions on amounts

A query takes an amount to anything, an operator to another amount. A function may fail with errors
of any type that goes into a failure. An error of amounts is told from the others, whether it comes
as such or in a failure already, and only the others are wrapped with the function's name.
-/

namespace Monetary

/-- A type of errors that a caller's function may fail with. -/
class IntoFailure (ε : Type) where
  toFailure : ε → Failure

instance : IntoFailure MoneyError := ⟨.money⟩

instance : IntoFailure Failure := ⟨id⟩

/-- A text as an error is a reason outside amounts. -/
instance : IntoFailure String := ⟨.foreign⟩

/-- An error of numbers is no error of amounts unless it is turned into one. -/
instance : IntoFailure NumberError := ⟨fun error => .foreign error.message⟩

namespace Failure

variable {α ε : Type}

/-- An answer with its error in a failure. -/
def ofResult [IntoFailure ε] (result : Except ε α) : Except Failure α :=
  result.mapError IntoFailure.toFailure

/-- A function that fails with errors of a type of its own, as one that can be called on amounts. -/
def ofFunction [IntoFailure ε] (f : Money → Except ε α) (money : Money) : Except Failure α :=
  ofResult (f money)

/-- The failure of a function of this name as an error of amounts. -/
def named (name : String) : Failure → MoneyError
  | .money error => error
  | .foreign reason => .operationFailed name (.foreign reason)

end Failure

namespace Money

/-- The answer of a caller's function of this name. -/
def query {α : Type} (money : Money) (name : String) (f : Money → Except Failure α) :
    Except MoneyError α :=
  (f money).mapError (Failure.named name)

/-- The amount that a caller's operator of this name makes of an amount. -/
def apply (money : Money) (name : String) (operator : Money → Except Failure Money) :
    Except MoneyError Money :=
  (operator money).mapError (Failure.named name)

end Money

end Monetary
