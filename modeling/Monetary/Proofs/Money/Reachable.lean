import Monetary.Proofs.Money.Operation
import Monetary.Proofs.Money.Origin

/-!
# The amounts of a run

An amount is reached by making it, by converting an amount, or by an operation on an amount that is
reached. Making an amount establishes that its number fits its context, and every operation keeps
that up: where it brings its result to the context by doing so, and where it does not because the
result has no more digits than the receiver. So the invariant holds along every run, in whatever
order amounts are made and operated on.
-/

namespace Monetary

/-- The amounts that a run of constructions and operations leads to. Registry and default context
may change from one step to the next, and the operands are arbitrary, as long as the digits of a
number that is to be rounded can be counted. -/
inductive Reachable : Money → Prop where
  | made (registry : Registry) (usual : Context) (origin : Origin) {number : Decimal}
      {currency : Currency} {context : Context} {money : Money}
      (hparts : origin.parts registry usual = .ok (number, currency, context))
      (hcount : number.digits ≤ digitLimit)
      (h : (origin.make registry).under usual = .ok money) : Reachable money
  | converted (usual : Context) {money result : Money} (hmoney : Reachable money)
      (h : (Money.fromAmount money).under usual = .ok result) : Reachable result
  | operated (operation : Operation) {money result : Money} (hmoney : Reachable money)
      (hcount : operation.keepsReceiver money = false →
        ∀ x, operation.unrounded money = .ok x → x.digits ≤ digitLimit)
      (h : operation.run money = .ok result) : Reachable result

/-- An amount fits its context as soon as it is made. -/
theorem Origin.make_fits {registry : Registry} {usual context : Context} {origin : Origin}
    {number : Decimal} {currency : Currency} {money : Money}
    (hparts : origin.parts registry usual = .ok (number, currency, context))
    (h : (origin.make registry).under usual = .ok money) :
    money.context.fits money.number = true := by
  rw [origin.make_eq, hparts] at h
  obtain ⟨fitted, hfitted, rfl⟩ := Money.withContext_eq_ok_iff.mp h
  exact Context.fits_of_apply_eq_ok hfitted

/-- The number of an amount fits the context of the amount along every run. -/
theorem Reachable.fits {money : Money} (h : Reachable money) :
    money.context.fits money.number = true := by
  induction h with
  | made registry usual origin hparts _ h => exact Origin.make_fits hparts h
  | converted usual _ h ih =>
    cases h
    exact ih
  | operated operation _ _ h ih => exact Operation.run_fits ih h

/-- The digits of an amount can be counted along every run. -/
theorem Reachable.digits_le {money : Money} (h : Reachable money) :
    money.number.digits ≤ digitLimit := by
  induction h with
  | made registry usual origin hparts hcount h =>
    rw [origin.make_eq, hparts] at h
    obtain ⟨fitted, hfitted, rfl⟩ := Money.withContext_eq_ok_iff.mp h
    exact Context.digits_apply_le hcount hfitted
  | converted usual _ h ih =>
    cases h
    exact ih
  | operated operation _ hcount h ih =>
    rcases Operation.run_cases h with rfl | ⟨hkeeps, x, hx, hderive⟩ | ⟨x, hdigits, rfl⟩
    · exact ih
    · obtain ⟨fitted, hfitted, rfl⟩ := Money.derive_eq_ok_iff.mp hderive
      exact Context.digits_apply_le (hcount hkeeps x hx) hfitted
    · exact hdigits.trans ih

/-- Every amount whose number fits its context is reached by making it. -/
theorem Reachable.of_fits {money : Money} (hfits : money.context.fits money.number = true)
    (hcount : money.number.digits ≤ digitLimit) : Reachable money :=
  .made .empty money.context (.ofNumberUnder (.decimal money.number) money.currency money.context)
    rfl hcount (Money.withContext_of_fits hfits)

/-- Along every run an amount has no more digits than its context allows, and every operation that
succeeds keeps the currency and the whole context. -/
theorem reachable_within_precision {money : Money} (h : Reachable money) :
    (money.context.precision = 0 ∨ money.number.digits ≤ money.context.precision.toNat) ∧
      ∀ (operation : Operation) (result : Money), operation.run money = .ok result →
        result.currency = money.currency ∧ result.context = money.context :=
  ⟨Context.fits_iff.mp h.fits, fun _ _ => Operation.run_keeps_currency_and_context⟩

/-- Rounding carries 9.995 to 10.0, and a seventh of that is 1.43. -/
theorem reachable_within_precision_after_carry :
    ∃ money : Money, Reachable money ∧ money.number = ⟨143, 2⟩ ∧ money.context.precision = 3 ∧
      (money.context.precision = 0 ∨ money.number.digits ≤ money.context.precision.toNat) := by
  let usd : Currency := ⟨"USD", by decide⟩
  let context : Context := .money 3 .halfUp
  have hmade : Reachable ⟨usd, ⟨100, 1⟩, context⟩ :=
    .made .empty context (.ofNumberUnder (.decimal ⟨9995, 3⟩) usd context) rfl
      (by decide +kernel) (by decide +kernel)
  have hquotient : (Operation.divide (.integer 7)).unrounded ⟨usd, ⟨100, 1⟩, context⟩ =
      .ok ⟨143, 2⟩ := by decide +kernel
  have hoperated : Reachable ⟨usd, ⟨143, 2⟩, context⟩ := by
    refine .operated (.divide (.integer 7)) hmade (fun _ x hx => ?_) (by decide +kernel)
    rw [hquotient] at hx
    cases hx
    decide +kernel
  exact ⟨_, hoperated, rfl, rfl, (reachable_within_precision hoperated).1⟩

end Monetary
