import Mathlib.Data.List.Basic
import Monetary.Decimal.Precision
import Monetary.Money.Query

/-!
# Failures of nested functions

A caller's function may call another one on an amount and pass its error on. What it passes on is an
error of amounts, because the call has turned every failure into one: a foreign reason has been
wrapped with the name of the function that failed. Such an error goes into a failure and is told
from the foreign reasons there, whether it went into a failure once or twice. So a function around
another one leaves the answer as it is, and so do all of them together: a foreign reason is wrapped
once, by the call of the function in which it arises.
-/

namespace Monetary

/-- How a function is called on an amount: as a query, for an answer of any kind, or as an operator,
for an amount. -/
inductive Calling : Type → Type 1 where
  | query {α : Type} : Calling α
  | operator : Calling Money

/-- How a function that calls another one passes on its error of amounts. -/
inductive Passing where
  /-- As it is, by a function that fails with errors of amounts. -/
  | typed
  /-- In a failure, by a function that fails with errors of any type. -/
  | boxed

/-- Functions that call each other. The innermost one is any function, with errors of any type.
Every other one calls the next one and passes on what that answers; which function this is, and the
amount that it is called on, may depend on the amount at hand. -/
inductive Nesting (α : Type) : Type 1 where
  | innermost (calling : Calling α) (name : String) {ε : Type} (errors : IntoFailure ε)
      (f : Money → Except ε α)
  | around (calling : Calling α) (name : String) (passing : Passing) (target : Money → Money)
      (inner : Money → Nesting α)

variable {α : Type}

/-- The answer of a function of this name. -/
def Calling.call {α : Type} : Calling α → Money → String → (Money → Except Failure α) →
    Except MoneyError α
  | .query, money, name, f => money.query name f
  | .operator, money, name, f => money.apply name f

/-- What a function comes to that passes on the answer of another one. -/
def Passing.pass : Passing → Except MoneyError α → Except Failure α
  | .typed, answer => Failure.ofResult answer
  | .boxed, answer => Failure.ofResult (Failure.ofResult answer)

namespace Nesting

/-- The answer of the outermost function. -/
def answer : Nesting α → Money → Except MoneyError α
  | .innermost calling name _ f, money => calling.call money name (Failure.ofFunction f)
  | .around calling name passing target inner, money =>
    calling.call money name fun amount => passing.pass ((inner amount).answer (target amount))

/-- What the innermost function comes to, on the amount that it is called on. -/
def outcome : Nesting α → Money → Except Failure α
  | .innermost _ _ _ f, money => Failure.ofFunction f money
  | .around _ _ _ target inner, money => (inner money).outcome (target money)

/-- The name of the innermost function. -/
def innermostName : Nesting α → Money → String
  | .innermost _ name _ _, _ => name
  | .around _ _ _ target inner, money => (inner money).innermostName (target money)

end Nesting

/-- Queries and operators report a failure in the same way. -/
theorem Calling.call_eq (calling : Calling α) (money : Money) (name : String)
    (f : Money → Except Failure α) :
    calling.call money name f = (f money).mapError (Failure.named name) := by
  cases calling with
  | query => rfl
  | operator => rfl

/-- However an error of amounts is passed on, the failure holds this very error. -/
theorem Passing.pass_eq (passing : Passing) (answer : Except MoneyError α) :
    passing.pass answer = answer.mapError .money := by
  cases passing with
  | typed => rfl
  | boxed => cases answer <;> rfl

namespace Nesting

/-- A function around another one leaves its answer as it is. -/
theorem answer_around (calling : Calling α) (name : String) (passing : Passing)
    (target : Money → Money) (inner : Money → Nesting α) (money : Money) :
    (around calling name passing target inner).answer money =
      (inner money).answer (target money) := by
  rw [answer, calling.call_eq, passing.pass_eq]
  cases (inner money).answer (target money) with
  | error error => rfl
  | ok a => rfl

/-- The answer of the outermost function is what the innermost one comes to, a failure of which is
reported under the name of the innermost function. -/
theorem answer_eq (nesting : Nesting α) (money : Money) : nesting.answer money =
    (nesting.outcome money).mapError (Failure.named (nesting.innermostName money)) := by
  induction nesting generalizing money with
  | innermost calling name errors f => exact calling.call_eq money name _
  | around calling name passing target inner ih =>
    rw [answer_around]
    exact ih money (target money)

/-- Through any number of functions that call each other, the value of the innermost one is
answered, and so is its error of amounts. A foreign reason is answered in one wrapper, with the name
of the innermost function; no other wrapper is answered than this one and one that the innermost
function has failed with. -/
theorem innermost_failure_reported_once (nesting : Nesting α) (money : Money) :
    (∀ a, nesting.outcome money = .ok a → nesting.answer money = .ok a) ∧
      (∀ error, nesting.outcome money = .error (.money error) →
        nesting.answer money = .error error) ∧
      (∀ reason, nesting.outcome money = .error (.foreign reason) → nesting.answer money =
        .error (.operationFailed (nesting.innermostName money) (.foreign reason))) ∧
      (∀ operation source, nesting.answer money = .error (.operationFailed operation source) →
        nesting.outcome money = .error (.money (.operationFailed operation source)) ∨
          operation = nesting.innermostName money ∧ nesting.outcome money = .error source ∧
            ∃ reason, source = .foreign reason) := by
  rw [answer_eq]
  refine ⟨fun a ha => ?_, fun error herror => ?_, fun reason hreason => ?_,
    fun operation source hwrapper => ?_⟩
  · rw [ha]
    rfl
  · rw [herror]
    rfl
  · rw [hreason]
    rfl
  · cases houtcome : nesting.outcome money with
    | ok a =>
      rw [houtcome] at hwrapper
      cases hwrapper
    | error failure =>
      rw [houtcome] at hwrapper
      cases failure with
      | money error =>
        cases hwrapper
        exact .inl rfl
      | foreign reason =>
        cases hwrapper
        exact .inr ⟨rfl, rfl, reason, rfl⟩

/-- An error of numbers is a foreign reason, as a text is, and through three calls it is wrapped
once. An error of amounts comes through as it is, even if it is a wrapper around another wrapper
itself. -/
theorem innermost_failure_reported_once_through_three_calls :
    let money : Money := ⟨⟨"USD", by decide⟩, ⟨125, 2⟩, .money 16 .halfEven⟩
    let rescale (money : Money) : Except NumberError Money :=
      (money.number.setScale 1 .unnecessary).map money.deriveExactly
    let nested {ε : Type} (errors : IntoFailure ε) (f : Money → Except ε Money) : Nesting Money :=
      .around .query "report" .boxed id fun _ =>
        .around .operator "tax" .typed (fun amount => amount.deriveExactly amount.number.neg)
          fun _ => .innermost .operator "rescale" errors f
    let wrapped : MoneyError :=
      .operationFailed "load" (.money (.operationFailed "open" (.foreign "closed")))
    (nested inferInstance rescale).answer money = .error (.operationFailed "rescale"
        (.foreign NumberError.roundingNecessary.message)) ∧
      (nested inferInstance fun _ => .error "table unavailable").answer money =
        .error (.operationFailed "rescale" (.foreign "table unavailable")) ∧
      (nested inferInstance fun _ => .error (MoneyError.unknownCurrency "XYZ")).answer money =
        .error (.unknownCurrency "XYZ") ∧
      (nested inferInstance fun _ => .error (Failure.money wrapped)).answer money =
        .error wrapped := by
  intro money rescale nested wrapped
  have hrescale : rescale (money.deriveExactly money.number.neg) = .error .roundingNecessary := by
    have hlost : money.number.neg.setScale 1 .unnecessary = .error .roundingNecessary := by
      decide +kernel
    exact congrArg (Except.map _) hlost
  have houtcome : (nested inferInstance rescale).outcome money =
      .error (.foreign NumberError.roundingNecessary.message) :=
    congrArg Failure.ofResult hrescale
  exact ⟨(innermost_failure_reported_once _ money).2.2.1 _ houtcome,
    (innermost_failure_reported_once _ money).2.2.1 _ rfl,
    (innermost_failure_reported_once _ money).2.1 _ rfl,
    (innermost_failure_reported_once _ money).2.1 _ rfl⟩

end Nesting

end Monetary
