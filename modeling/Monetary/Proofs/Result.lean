import Monetary.Error

/-!
# Computations that may fail

A computation in steps succeeds exactly if each step does. These equivalences take a result apart
step by step, so that no proof has to unfold the steps.
-/

namespace Monetary

variable {ε α β : Type}

/-- Two steps in a row succeed exactly if the first one does, and the second one on its result. -/
theorem bind_eq_ok_iff {first : Except ε α} {second : α → Except ε β} {b : β} :
    (first >>= second) = .ok b ↔ ∃ a, first = .ok a ∧ second a = .ok b := by
  cases first with
  | error e => simp [bind, Except.bind]
  | ok a => simp [bind, Except.bind]

/-- Two steps in a row fail exactly if the first one does, or the second one on its result. -/
theorem bind_eq_error_iff {first : Except ε α} {second : α → Except ε β} {e : ε} :
    (first >>= second) = .error e ↔ first = .error e ∨ ∃ a, first = .ok a ∧ second a = .error e := by
  cases first with
  | error e => simp [bind, Except.bind]
  | ok a => simp [bind, Except.bind]

/-- A result that is changed afterwards comes from a result. -/
theorem map_eq_ok_iff {computation : Except ε α} {f : α → β} {b : β} :
    computation.map f = .ok b ↔ ∃ a, computation = .ok a ∧ f a = b := by
  cases computation with
  | error e => simp [Except.map]
  | ok a => simp [Except.map]

/-- Where a change before the second step is the same as one after it, it can be made at the end. -/
theorem map_bind_eq {γ δ : Type} {first : Except ε α} {second : α → Except ε β}
    {changed : γ → Except ε δ} {f : α → γ} {g : β → δ} (h : ∀ a, changed (f a) = (second a).map g) :
    (first.map f >>= changed) = (first >>= second).map g := by
  cases first with
  | error e => rfl
  | ok a => exact h a

/-- What is left of a computation without its error is the result, if there is one. -/
theorem toOption_eq_some_iff {computation : Except ε α} {a : α} :
    computation.toOption = some a ↔ computation = .ok a := by
  cases computation <;> simp [Except.toOption]

/-- A result that is changed afterwards is changed as well where errors do not count. -/
theorem toOption_bind_pure (computation : Except ε α) (f : α → β) :
    (computation >>= fun a => pure (f a)).toOption = computation.toOption.map f := by
  cases computation <;> rfl

/-- A computation with numbers succeeds exactly if it does as one with amounts. -/
@[simp] theorem MoneyError.ofNumber_eq_ok_iff {computation : Except NumberError α} {a : α} :
    MoneyError.ofNumber computation = .ok a ↔ computation = .ok a := by
  cases computation with
  | error e => simp [MoneyError.ofNumber]
  | ok b => simp [MoneyError.ofNumber]

/-- A computation with numbers fails as one with amounts exactly if it does by itself. -/
theorem MoneyError.ofNumber_eq_error_iff {computation : Except NumberError α} {e : MoneyError} :
    MoneyError.ofNumber computation = .error e ↔
      ∃ cause, computation = .error cause ∧ e = .number cause := by
  cases computation with
  | error cause => simp [MoneyError.ofNumber, eq_comm]
  | ok a => simp [MoneyError.ofNumber]

end Monetary
