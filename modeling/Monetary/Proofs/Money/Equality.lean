import Monetary.Money.Order
import Monetary.Proofs.Decimal.TrailingZeros

/-!
# Equal amounts have one key

Equality of amounts compares values, while their key holds the stripped number. These are two
unrelated computations, and an amount is found again under its key only because stripping leads
exactly the representations of one value to one and the same representation.
-/

namespace Monetary

/-- Amounts are equal exactly if they have one currency and one value. -/
theorem Money.equal_iff {a b : Money} :
    a.equal b = true ↔ a.currency = b.currency ∧ a.number.value = b.number.value := by
  simp [equal, Decimal.order_eq_eq_iff]

/-- Two numbers are level in the order exactly if they have one stripped representation, which has
their value and has nothing more to strip; two amounts are equal exactly if they have one key. -/
theorem equality_by_normal_form (x y : Decimal) (a b : Money) :
    (x.order y = .eq ↔ x.stripZeros = y.stripZeros) ∧
      x.stripZeros.order x = .eq ∧
      x.stripZeros.value = x.value ∧
      x.stripZeros.stripZeros = x.stripZeros ∧
      (a.equal b = true ↔ a.currency = b.currency ∧ a.strippedNumber = b.strippedNumber) ∧
      (a.equal b = true ↔ a.hashKey = b.hashKey) := by
  have hequal : a.equal b = true ↔
      a.currency = b.currency ∧ a.strippedNumber = b.strippedNumber := by
    rw [Money.equal_iff, Money.strippedNumber, Money.strippedNumber, Decimal.stripZeros_eq_iff]
  refine ⟨?_, ?_, Decimal.value_stripZeros x, (Decimal.isNormal_stripZeros x).stripZeros_eq,
    hequal, ?_⟩
  · rw [Decimal.order_eq_eq_iff, Decimal.stripZeros_eq_iff]
  · rw [Decimal.order_eq_eq_iff, Decimal.value_stripZeros]
  · rw [hequal, Money.hashKey, Money.hashKey, Prod.mk.injEq]

end Monetary
