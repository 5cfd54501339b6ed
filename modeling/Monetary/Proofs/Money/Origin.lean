import Monetary.Money.Draft
import Monetary.Money.Record
import Monetary.Proofs.Decimal.Precision
import Monetary.Proofs.Result

/-!
# Where amounts come from

The ways in which an amount is made without another amount of money, as data. Each of them first
finds a number, a currency and a context and then brings the number to the precision of the
context, so that all of them share the facts about that last step.
-/

namespace Monetary

/-- A way of making an amount, with its arguments. -/
inductive Origin where
  | ofNumber (number : NumberInput) (currency : Currency)
  | ofNumberUnder (number : NumberInput) (currency : Currency) (context : Context)
  | ofCode (number : NumberInput) (code : String)
  | ofCodeUnder (number : NumberInput) (code : String) (context : Context)
  | zero (currency : Currency)
  /-- The conversion of an amount of another kind. -/
  | foreign (currency : Currency) (number : Decimal) (context : Context)
  | ofText (text : String)
  | ofDraft (draft : Draft)
  | ofRecord (record : MoneyRecord)

namespace Origin

/-- The amount that is made. -/
def make (registry : Registry) : Origin → Contextual (Except MoneyError Money)
  | .ofNumber number currency => Money.of number currency
  | .ofNumberUnder number currency context => .known (Money.withContext number currency context)
  | .ofCode number code => Money.ofCode registry number code
  | .ofCodeUnder number code context =>
    .known (Money.ofCodeWithContext registry number code context)
  | .zero currency => (Money.zero currency).map .ok
  | .foreign currency number context => Money.fromAmount (.foreign currency number context)
  | .ofText text => Money.read text
  | .ofDraft draft => draft.create registry
  | .ofRecord record => record.toMoney registry

/-- The number that an amount is made of, before it is rounded, with the currency and the context
of the amount. -/
def parts (registry : Registry) (usual : Context) :
    Origin → Except MoneyError (Decimal × Currency × Context)
  | .ofNumber number currency => do return (← Money.operand number, currency, usual)
  | .ofNumberUnder number currency context => do
    return (← Money.operand number, currency, context)
  | .ofCode number code => do
    let currency ← registry.find code
    return (← Money.operand number, currency, usual)
  | .ofCodeUnder number code context => do
    let currency ← registry.find code
    return (← Money.operand number, currency, context)
  | .zero currency => .ok (.zero, currency, usual)
  | .foreign currency number context =>
    .ok (number, currency, Money.adoptedContext number context usual)
  | .ofText text => do
    let (number, currency) ← Money.readParts text
    return (number, currency, usual)
  | .ofDraft draft => do
    let currency ← draft.findCurrency registry
    return (← draft.findNumber, currency, draft.context.getD usual)
  | .ofRecord record => do
    let currency ← record.findCurrency registry
    return (← record.findNumber, currency, (record.context.map (·.toContext)).getD usual)

end Origin

/-- The number is found first when an amount is made. -/
theorem Money.withContext_eq_bind (number : NumberInput) (currency : Currency)
    (context : Context) : Money.withContext number currency context =
      Money.operand number >>= fun x => Money.withContext x currency context := by
  rw [withContext]
  cases Money.operand number <;> rfl

/-- An amount of a number is made exactly if the number can be brought to the context. -/
theorem Money.withContext_eq_ok_iff {number : Decimal} {currency : Currency} {context : Context}
    {money : Money} : Money.withContext number currency context = .ok money ↔
      ∃ fitted, context.apply number = .ok fitted ∧ money = ⟨currency, fitted, context⟩ := by
  simp only [withContext, operand, NumberInput.toDecimal, bind_eq_ok_iff,
    MoneyError.ofNumber_eq_ok_iff, pure, Except.pure, Except.ok.injEq]
  constructor
  · rintro ⟨_, rfl, fitted, hfitted, rfl⟩
    exact ⟨fitted, hfitted, rfl⟩
  · rintro ⟨fitted, hfitted, rfl⟩
    exact ⟨number, rfl, fitted, hfitted, rfl⟩

/-- An amount of a number that fits the context is made of the number as it is. -/
theorem Money.withContext_of_fits {number : Decimal} {currency : Currency} {context : Context}
    (h : context.fits number = true) :
    Money.withContext number currency context = .ok ⟨currency, number, context⟩ :=
  withContext_eq_ok_iff.mpr ⟨number, Context.apply_of_fits h, rfl⟩

/-- An amount of a number fails to be made exactly if the number cannot be brought to the context.
-/
theorem Money.withContext_eq_error_iff {number : Decimal} {currency : Currency}
    {context : Context} {error : MoneyError} :
    Money.withContext number currency context = .error error ↔
      ∃ cause, context.apply number = .error cause ∧ error = .number cause := by
  simp only [withContext, operand, NumberInput.toDecimal, bind_eq_error_iff,
    MoneyError.ofNumber_eq_error_iff, pure, Except.pure, reduceCtorEq, and_false, exists_false,
    or_false, false_or, Except.ok.injEq, exists_eq_left']

/-- Every way of making an amount brings the number of its parts to their context. -/
theorem Origin.make_eq (registry : Registry) (usual : Context) (origin : Origin) :
    (origin.make registry).under usual = origin.parts registry usual >>=
      fun (number, currency, context) => Money.withContext number currency context := by
  cases origin with
  | ofNumber number currency =>
    rw [make, Money.of, Contextual.under_byDefault, Money.withContext_eq_bind, parts]
    cases Money.operand number <;> rfl
  | ofNumberUnder number currency context =>
    rw [make, Contextual.under_known, Money.withContext_eq_bind, parts]
    cases Money.operand number <;> rfl
  | ofCode number code =>
    rw [make, parts]
    unfold Money.ofCode
    cases registry.find code with
    | error error => rfl
    | ok currency =>
      dsimp only
      rw [Money.of, Contextual.under_byDefault, Money.withContext_eq_bind]
      cases Money.operand number <;> rfl
  | ofCodeUnder number code context =>
    rw [make, Money.ofCodeWithContext, parts, Contextual.under_known]
    cases registry.find code with
    | error error => rfl
    | ok currency =>
      change Money.withContext number currency context = _
      rw [Money.withContext_eq_bind]
      cases Money.operand number <;> rfl
  | zero currency =>
    exact (Money.withContext_of_fits (Context.fits_zero usual)).symm
  | foreign currency number context => rfl
  | ofText text =>
    rw [make, Money.read, parts]
    cases Money.readParts text <;> rfl
  | ofDraft draft =>
    rw [make, Draft.create, parts]
    cases draft.findCurrency registry with
    | error error => rfl
    | ok currency =>
      cases draft.findNumber with
      | error error => rfl
      | ok number => cases draft.context <;> rfl
  | ofRecord record =>
    rw [make, MoneyRecord.toMoney, parts]
    cases record.findCurrency registry with
    | error error => rfl
    | ok currency =>
      cases record.findNumber with
      | error error => rfl
      | ok number => cases record.context <;> rfl

end Monetary
