import Monetary.Context.Contextual
import Monetary.Context.Resolution
import Monetary.Currency.Registry

/-!
# Sessions

What a process knows in common for all amounts: a registry of currencies and the default context.
The default context is chosen when it is first asked for and stays the same from then on.
-/

namespace Monetary

/-- What a process knows in common for all amounts. -/
structure Session where
  registry : Registry
  /-- What the process was started in. -/
  environment : Environment
  /-- The default context, once it is chosen. -/
  chosen? : Option Context

namespace Session

/-- A process that has just started. -/
def start (environment : Environment) : Session :=
  ⟨.iso, environment, none⟩

/-- The default context, the events of its choice if it is chosen now, and the process after. -/
def defaultContext (session : Session) : Context × List Event × Session :=
  match session.chosen? with
  | some context => (context, [], session)
  | none =>
    let resolution := session.environment.resolve
    (resolution.context, [resolution.event], { session with chosen? := some resolution.context })

/-- An answer that may depend on the default context, and the process after it is given. -/
def settle {α : Type} (session : Session) : Contextual α → α × Session
  | .known answer => (answer, session)
  | .byDefault answerUnder =>
    let (context, _, after) := session.defaultContext
    (answerUnder context, after)

/-- Registers a currency. -/
def register (session : Session) (text : String) :
    Except MoneyError Currency × List Event × Session :=
  let (answer, registry, events) := session.registry.register text
  (answer, events, { session with registry })

end Session

end Monetary
