import Monetary.Proofs.Currency.Spelling
import Monetary.Proofs.Money.Conversion
import Monetary.Proofs.Money.Equality
import Mathlib.Data.String.Basic

/-!
# One order behind all comparisons

Two amounts are compared in three ways: the relations compare the numbers without trailing zeros and
refuse different currencies; the comparison with an amount of any kind first makes money of it; and
the total order of money compares the numbers as they stand. All three come down to the order of
the values, and before that to the order of the codes.

Making money of an amount cannot fail and cannot round, because the context that it adopts is
widened until it allows all the digits of the number. This is so as long as these digits can be
counted in a precision.
-/

namespace Monetary

namespace Text

/-- A text comes before another one in the order of texts exactly if it does so in that of lists of
characters. -/
theorem order_eq_lt_iff (a b : List Char) : order a b = .lt ↔ a < b := by
  fun_induction order a b with
  | case1 => simp
  | case2 => simp
  | case3 => simp
  | case4 a as bs ih => simp [ih]
  | case5 a as b bs hne hless =>
    have hfirst : a < b := hless
    simp [List.cons_lt_cons_iff, hfirst]
  | case6 a as b bs hne hnotless =>
    have hfirst : ¬ a < b := hnotless
    simp [List.cons_lt_cons_iff, hfirst, hne]

/-- The order of texts is that of strings. -/
theorem order_toList (a b : String) : order a.toList b.toList = compare a b := by
  rcases lt_trichotomy a b with hless | rfl | hgreater
  · rw [compare_lt_iff_lt.mpr hless, order_eq_lt_iff]
    exact String.lt_iff_toList_lt.mp hless
  · rw [compare_eq_iff_eq.mpr rfl, order_eq_eq_iff]
  · have hswapped := (order_eq_lt_iff b.toList a.toList).mpr (String.lt_iff_toList_lt.mp hgreater)
    rw [compare_gt_iff_gt.mpr hgreater, ← order_swap, hswapped]
    rfl

end Text

namespace Currency

/-- The order of currencies is that of their codes. -/
theorem order_eq_compare (a b : Currency) : a.order b = compare a.code b.code :=
  Text.order_toList a.code b.code

end Currency

/-- The digits of the number of an amount of another kind than money can be counted in a
precision. -/
def Amount.IsCountable : Amount → Prop
  | .money _ => True
  | .foreign _ number _ => number.digits ≤ digitLimit

/-- A relation between two amounts. -/
inductive Relation where
  | lessThan
  | lessThanOrEqualTo
  | greaterThan
  | greaterThanOrEqualTo
  | equalTo

namespace Relation

/-- Whether a relation holds between two amounts. -/
def test (money : Money) (amount : Amount) : Relation → Except MoneyError Bool
  | .lessThan => money.isLessThan amount
  | .lessThanOrEqualTo => money.isLessThanOrEqualTo amount
  | .greaterThan => money.isGreaterThan amount
  | .greaterThanOrEqualTo => money.isGreaterThanOrEqualTo amount
  | .equalTo => money.isEqualTo amount

/-- The places in the order at which a relation holds. -/
def admits : Relation → Ordering → Bool
  | .lessThan, place => place == .lt
  | .lessThanOrEqualTo, place => place != .gt
  | .greaterThan, place => place == .gt
  | .greaterThanOrEqualTo, place => place != .lt
  | .equalTo, place => place == .eq

/-- Every relation is decided by one comparison. -/
theorem test_eq (relation : Relation) (money : Money) (amount : Amount) :
    relation.test money amount = (money.compareStripped amount).map relation.admits := by
  cases relation <;> simp only [test, Money.isLessThan, Money.isLessThanOrEqualTo,
    Money.isGreaterThan, Money.isGreaterThanOrEqualTo, Money.isEqualTo] <;>
    cases money.compareStripped amount <;> rfl

end Relation

namespace Money

variable {money : Money} {amount : Amount}

/-- Amounts of one currency are compared by their values. -/
theorem compareStripped_of_currency_eq (h : amount.currency = money.currency) :
    money.compareStripped amount = .ok (compare money.number.value amount.number.value) := by
  rw [compareStripped, checkCurrency, if_pos h, strippedNumber, Decimal.order_eq_compare,
    Decimal.value_stripZeros, Decimal.value_stripZeros]
  rfl

/-- Amounts of different currencies are not compared. -/
theorem compareStripped_of_currency_ne (h : amount.currency ≠ money.currency) :
    money.compareStripped amount =
      .error (.currencyMismatch money.currency amount.currency) := by
  rw [compareStripped, checkCurrency, if_neg h]
  rfl

/-- An amount of any kind becomes money with its currency and its number. -/
theorem exists_fromAmount (hcount : amount.IsCountable) (usual : Context) :
    ∃ converted, (fromAmount amount).under usual = .ok converted ∧
      converted.currency = amount.currency ∧ converted.number = amount.number := by
  cases amount with
  | money m => exact ⟨m, rfl, rfl, rfl⟩
  | foreign currency number context =>
    exact ⟨_, fromAmount_foreign currency hcount context usual, rfl, rfl⟩

/-- Money is compared with an amount of any kind by the codes, and then by the values. -/
theorem compareTo_eq (hcount : amount.IsCountable) (money : Money) (usual : Context) :
    (money.compareTo amount).under usual = .ok
      ((compare money.currency.code amount.currency.code).then
        (compare money.number.value amount.number.value)) := by
  obtain ⟨converted, hconverted, -, hnumber⟩ := exists_fromAmount hcount usual
  unfold compareTo
  rw [Currency.order_eq_compare]
  cases compare money.currency.code amount.currency.code with
  | lt => rfl
  | gt => rfl
  | eq =>
    dsimp only
    rw [Contextual.under_map, hconverted, ← hnumber, ← Decimal.order_eq_compare]
    rfl

/-- The total order of money is by the codes, and then by the values. -/
theorem order_eq_compareLex : Money.order =
    compareLex (compareOn fun money => money.currency.code)
      (compareOn fun money => money.number.value) := by
  funext a b
  rw [Money.order, Currency.order_eq_compare, Decimal.order_eq_compare]
  rfl

/-- The order of money turns around when its sides are exchanged, and is transitive. -/
instance : Std.TransCmp Money.order := by
  rw [order_eq_compareLex]
  infer_instance

/-- Amounts are level in the order exactly if they are equal. -/
theorem order_eq_eq_iff_equal {a b : Money} : a.order b = .eq ↔ a.equal b = true := by
  rw [equal_iff, ← Currency.code_inj, order, Ordering.then_eq_eq, Currency.order_eq_compare,
    compare_eq_iff_eq, Decimal.order_eq_eq_iff]

/-- Every comparison of money with an amount of any kind follows one order. Amounts of different
currencies have the order of the codes, and no relation between them is decided; those of one
currency have the order of the values, and every relation holds at just the places that it admits.
For money this is the total order, in which just the equal amounts are level. -/
theorem comparisons_agree (hcount : amount.IsCountable) (money : Money) (usual : Context) :
    (∃ place, (money.compareTo amount).under usual = .ok place ∧
      (money.currency.code ≠ amount.currency.code →
        place = compare money.currency.code amount.currency.code ∧
          ∀ relation : Relation, relation.test money amount =
            .error (.currencyMismatch money.currency amount.currency)) ∧
      (money.currency.code = amount.currency.code →
        place = compare money.number.value amount.number.value ∧
          ∀ relation : Relation, relation.test money amount = .ok (relation.admits place)) ∧
      ∀ other : Money, amount = .money other →
        place = money.order other ∧ (place = .eq ↔ money.equal other = true)) ∧
    ∀ a b c : Money, (a.order b = .eq ↔ a.equal b = true) ∧
      b.order a = (a.order b).swap ∧
      ((a.order b).isLE = true ∨ (b.order a).isLE = true) ∧
      ((a.order b).isLE = true → (b.order c).isLE = true → (a.order c).isLE = true) := by
  refine ⟨⟨_, compareTo_eq hcount money usual, ?_, ?_, ?_⟩, ?_⟩
  · intro hcodes
    have hcurrencies : amount.currency ≠ money.currency :=
      fun h => hcodes (Currency.code_inj.mpr h.symm)
    refine ⟨?_, fun relation => ?_⟩
    · cases hcompare : compare money.currency.code amount.currency.code with
      | lt => rfl
      | gt => rfl
      | eq => exact absurd (compare_eq_iff_eq.mp hcompare) hcodes
    · rw [relation.test_eq, compareStripped_of_currency_ne hcurrencies]
      rfl
  · intro hcodes
    have hcurrencies : amount.currency = money.currency := (Currency.code_inj.mp hcodes).symm
    rw [compare_eq_iff_eq.mpr hcodes, Ordering.eq_then]
    refine ⟨rfl, fun relation => ?_⟩
    rw [relation.test_eq, compareStripped_of_currency_eq hcurrencies]
    rfl
  · rintro other rfl
    have horder : money.order other =
        (compare money.currency.code other.currency.code).then
          (compare money.number.value other.number.value) := by
      rw [order_eq_compareLex]
      rfl
    exact ⟨horder.symm, by rw [← order_eq_eq_iff_equal, horder]; rfl⟩
  · intro a b c
    have hswap : b.order a = (a.order b).swap := Std.OrientedCmp.eq_swap
    refine ⟨order_eq_eq_iff_equal, hswap, ?_, Std.TransCmp.isLE_trans⟩
    rw [hswap]
    cases a.order b <;> decide

/-- An amount of another kind has twenty digits under a context for two that must not round, and the
default context allows sixteen; even so the last digit counts. -/
theorem comparisons_agree_on_last_digit :
    let usd : Currency := ⟨"USD", by decide⟩
    let money : Money := ⟨usd, ⟨12345678901234567890, 0⟩, .money 0 .halfEven⟩
    let amount : Amount := .foreign usd ⟨12345678901234567891, 0⟩ ⟨2, .unnecessary, "Points"⟩
    amount.IsCountable ∧ (money.compareTo amount).under (.money 16 .halfEven) = .ok .lt ∧
      Relation.lessThan.test money amount = .ok true := by
  intro usd money amount
  have hcount : amount.IsCountable := by
    change Decimal.digits _ ≤ digitLimit
    decide +kernel
  have hplace : (money.compareTo amount).under (.money 16 .halfEven) = .ok .lt := by
    decide +kernel
  obtain ⟨⟨place, hcompare, -, hsame, -⟩, -⟩ :=
    comparisons_agree hcount money (.money 16 .halfEven)
  obtain rfl : place = .lt := Except.ok.inj (hcompare.symm.trans hplace)
  exact ⟨hcount, hplace, (hsame rfl).2 .lessThan⟩

end Money

end Monetary
