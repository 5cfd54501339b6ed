import Monetary.Proofs.Decimal.Opposite
import Monetary.Proofs.Money.Division

/-!
# Opposite amounts and opposite divisors

Division rounds half-even, which is a mode that keeps opposites opposite, and what it derives is the
quotient as it is, whatever the mode of the context. So the opposite amount has the opposite
quotient, and the opposite divisor leads to it, too. Only one of two opposite divisors can be one.
Dividing by that one returns the amount itself, and dividing by the other one computes the opposite
amount, perhaps in another representation. The digits of that divisor count then: where they take the
shift out of its word, nothing of the amount is left.
-/

namespace Monetary.Money

variable {money : Money} {divisor opposite : NumberInput} {d : Decimal}

/-- The opposite amount fits the context of the amount. -/
theorem fits_negate (hfits : money.context.fits money.number = true) :
    money.negate.context.fits money.negate.number = true :=
  Context.fits_of_digits_le (Decimal.digits_neg money.number).le hfits

/-- The quotient of the opposite numbers is derived as the opposite amount. -/
theorem map_deriveExactly_neg (quotient : Except NumberError Decimal) :
    (MoneyError.ofNumber (quotient.map Decimal.neg)).map money.deriveExactly =
      ((MoneyError.ofNumber quotient).map money.deriveExactly).map negate := by
  cases quotient <;> rfl

/-- The opposite amount is divided to the opposite result, or fails with the same error. -/
theorem divide_negate (hfits : money.context.fits money.number = true) (divisor : NumberInput) :
    money.negate.divide divisor = (money.divide divisor).map negate := by
  cases hd : divisor.toDecimal with
  | error cause => simp [divide, operand, hd, bind, Except.bind, Except.map]
  | ok d =>
    rw [divide_eq hd hfits, divide_eq hd (fits_negate hfits)]
    split
    · rfl
    · exact (congrArg (fun quotient => (MoneyError.ofNumber quotient).map money.deriveExactly)
        (money.number.divide_neg_left d money.context.precision .halfEven)).trans
        (map_deriveExactly_neg _)

/-- Where neither of two opposite divisors is one, they lead to opposite results, or to the same
error. -/
theorem divide_opposite (hfits : money.context.fits money.number = true)
    (hd : divisor.toDecimal = .ok d) (hopposite : opposite.toDecimal = .ok d.neg)
    (hone : d.isOne = false) (hnegOne : d.neg.isOne = false) :
    money.divide opposite = (money.divide divisor).map negate := by
  rw [divide_eq hd hfits, divide_eq hopposite hfits, hone, hnegOne]
  exact (congrArg (fun quotient => (MoneyError.ofNumber quotient).map money.deriveExactly)
    (money.number.divide_neg_right d money.context.precision .halfEven)).trans
    (map_deriveExactly_neg _)

/-- Dividing by minus one gives the opposite amount, at most in another representation. -/
theorem equal_negate_of_divide {result : Money} (hfits : money.context.fits money.number = true)
    (hd : divisor.toDecimal = .ok d) (hvalue : d.value = -1)
    (hcount : money.context.precision ≠ 0 →
      money.context.precision.toNat + d.digits ≤ digitLimit)
    (h : money.divide divisor = .ok result) : result.equal money.negate = true := by
  have hnonzero : d.coefficient ≠ 0 := by
    rw [ne_eq, ← Decimal.value_eq_zero_iff, hvalue]
    norm_num
  have hheld : Decimal.PlacesHeld money.number d :=
    (Decimal.placesHeld_neg_right _ _).mp
      (Decimal.placesHeld_of_unit _ (by rw [Decimal.value_neg, hvalue, neg_neg]))
  have hbrings := Operation.brings_quotient hd hcount (fun _ => hheld) hfits h hnonzero
  rw [hvalue, div_neg, div_one, ← Decimal.value_neg] at hbrings
  obtain ⟨hcurrency, -⟩ := @Operation.run_keeps_currency_and_context _ _ (.divide divisor) h
  exact equal_iff.mpr ⟨hcurrency,
    hbrings.unique (Context.brings_of_fits .halfEven (fits_negate hfits))⟩

/-- Opposite divisors lead to opposite amounts, also where one of them is one and leads back to the
amount itself. -/
theorem equal_negate_of_opposite {quotient result : Money}
    (hfits : money.context.fits money.number = true) (hd : divisor.toDecimal = .ok d)
    (hopposite : opposite.toDecimal = .ok d.neg)
    (hcount : money.context.precision ≠ 0 →
      money.context.precision.toNat + d.digits ≤ digitLimit)
    (hquotient : money.divide divisor = .ok quotient) (hresult : money.divide opposite = .ok result) :
    result.equal quotient.negate = true := by
  by_cases hone : d.isOne = true
  · -- The amount itself is the quotient.
    obtain rfl : money = quotient := by simpa [divide_eq hd hfits, hone] using hquotient
    have hvalue : d.neg.value = -1 := by rw [Decimal.value_neg, Decimal.isOne_iff.mp hone]
    exact equal_negate_of_divide hfits hopposite hvalue
      (by rwa [Decimal.digits_neg]) hresult
  by_cases hnegOne : d.neg.isOne = true
  · -- The amount itself is the result.
    obtain rfl : money = result := by simpa [divide_eq hopposite hfits, hnegOne] using hresult
    have hvalue : d.value = -1 := by
      rw [← neg_neg d.value, ← Decimal.value_neg, Decimal.isOne_iff.mp hnegOne]
    obtain ⟨hcurrency, hnumber⟩ :=
      equal_iff.mp (equal_negate_of_divide hfits hd hvalue hcount hquotient)
    refine equal_iff.mpr ⟨hcurrency.symm, ?_⟩
    change money.number.value = quotient.number.neg.value
    rw [Decimal.value_neg, hnumber]
    exact (neg_neg _).symm.trans (congrArg (-·) (Decimal.value_neg _).symm)
  · rw [divide_opposite hfits hd hopposite (Bool.eq_false_iff.mpr hone)
      (Bool.eq_false_iff.mpr hnegOne), hquotient] at hresult
    cases hresult
    exact equal_iff.mpr ⟨rfl, rfl⟩

/-- Rounding, rescaling and dividing keep opposites opposite if ceiling and floor change places: the
results have opposite coefficients at one scale, or the errors are the same. Therefore an amount and
its opposite have opposite quotients along every run, and so have opposite divisors if neither is
one. If one of them is, the results still are opposite in value. -/
theorem opposites_keep_opposite (x y : Decimal) (precision : UInt32) (scale : Int32)
    (mode : Rounding) :
    x.neg.round precision mode.dual = (x.round precision mode).map Decimal.neg ∧
    x.neg.setScale scale mode.dual = (x.setScale scale mode).map Decimal.neg ∧
    x.neg.divide y precision mode.dual = (x.divide y precision mode).map Decimal.neg ∧
    x.divide y.neg precision mode.dual = (x.divide y precision mode).map Decimal.neg ∧
    ∀ money, Reachable money →
      (∀ divisor, money.negate.divide divisor = (money.divide divisor).map negate) ∧
      ∀ (divisor opposite : NumberInput) (d : Decimal), divisor.toDecimal = .ok d →
        opposite.toDecimal = .ok d.neg →
        (d.isOne = false → d.neg.isOne = false →
          money.divide opposite = (money.divide divisor).map negate) ∧
        ((money.context.precision ≠ 0 →
            money.context.precision.toNat + d.digits ≤ digitLimit) →
          ∀ quotient result, money.divide divisor = .ok quotient →
            money.divide opposite = .ok result → result.equal quotient.negate = true) :=
  ⟨x.round_neg precision mode, x.setScale_neg scale mode, x.divide_neg_left y precision mode,
    x.divide_neg_right y precision mode, fun _ hmoney => ⟨divide_negate hmoney.fits,
      fun _ _ _ hd hopposite => ⟨divide_opposite hmoney.fits hd hopposite,
        fun hcount _ _ => equal_negate_of_opposite hmoney.fits hd hopposite hcount⟩⟩⟩

/-- 2.5 rounds down to 2 and -2.5 up to -2, and a third of 2 is 0.667 rounded up just where minus a
third of it is -0.667 rounded down. Dividing 5 by 1.0 gives 5, and dividing it by -1.0 gives -5. -/
theorem opposites_keep_opposite_by_one :
    let money : Money := ⟨⟨"USD", by decide⟩, ⟨5, 0⟩, .money 3 .up⟩
    Decimal.setScale ⟨25, 1⟩ 0 .floor = .ok ⟨2, 0⟩ ∧
      Decimal.setScale ⟨-25, 1⟩ 0 .ceiling = .ok ⟨-2, 0⟩ ∧
      Decimal.divide ⟨2, 0⟩ ⟨3, 0⟩ 3 .ceiling = .ok ⟨667, 3⟩ ∧
      Decimal.divide ⟨2, 0⟩ ⟨-3, 0⟩ 3 .floor = .ok ⟨-667, 3⟩ ∧
      money.divide (.decimal ⟨10, 1⟩) = .ok money ∧
      money.divide (.decimal ⟨-10, 1⟩) = .ok (money.deriveExactly ⟨-5, 0⟩) ∧
      (money.deriveExactly ⟨-5, 0⟩).equal money.negate = true := by
  intro money
  have hmoney : Reachable money := .of_fits (by decide +kernel) (by decide +kernel)
  have hfloor : Decimal.setScale ⟨25, 1⟩ 0 .floor = .ok ⟨2, 0⟩ := by decide +kernel
  have hceiling : Decimal.divide ⟨2, 0⟩ ⟨3, 0⟩ 3 .ceiling = .ok ⟨667, 3⟩ := by decide +kernel
  have hone : money.divide (.decimal ⟨10, 1⟩) = .ok money := by decide +kernel
  have hminus : money.divide (.decimal ⟨-10, 1⟩) = .ok (money.deriveExactly ⟨-5, 0⟩) := by
    decide +kernel
  obtain ⟨-, hscale, -, -, -⟩ := opposites_keep_opposite ⟨25, 1⟩ .zero 3 0 .floor
  obtain ⟨-, -, -, hdivide, hquotients⟩ :=
    opposites_keep_opposite ⟨2, 0⟩ ⟨3, 0⟩ 3 0 .ceiling
  obtain ⟨-, hopposite⟩ := hquotients money hmoney
  rw [hfloor] at hscale
  rw [hceiling] at hdivide
  exact ⟨hfloor, hscale, hceiling, hdivide, hone, hminus,
    (hopposite (.decimal ⟨10, 1⟩) (.decimal ⟨-10, 1⟩) ⟨10, 1⟩ rfl rfl).2
      (fun _ => by decide +kernel) _ _ hone hminus⟩

end Monetary.Money
