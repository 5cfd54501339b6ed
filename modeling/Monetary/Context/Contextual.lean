import Monetary.Context.Basic

/-!
# Answers that may depend on the default context

An answer either holds under every default context or waits for the default context. What waits
for it is what makes a process choose it.
-/

namespace Monetary

/-- An answer that is known, or one for each default context. -/
inductive Contextual (α : Type) where
  | known (answer : α)
  | byDefault (answerUnder : Context → α)

namespace Contextual

variable {α β : Type}

/-- The answer under a default context. -/
def under (context : Context) : Contextual α → α
  | .known answer => answer
  | .byDefault answerUnder => answerUnder context

/-- The answer after a function. -/
def map (f : α → β) : Contextual α → Contextual β
  | .known answer => .known (f answer)
  | .byDefault answerUnder => .byDefault fun context => f (answerUnder context)

@[simp] theorem under_known (context : Context) (answer : α) :
    (known answer).under context = answer := rfl

@[simp] theorem under_byDefault (context : Context) (answerUnder : Context → α) :
    (byDefault answerUnder).under context = answerUnder context := rfl

@[simp] theorem under_map (context : Context) (f : α → β) (c : Contextual α) :
    (c.map f).under context = f (c.under context) := by
  cases c <;> rfl

end Contextual

end Monetary
