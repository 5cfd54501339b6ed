import Monetary.Money.Operation
import Monetary.Proofs.Decimal.Precision
import Monetary.Proofs.Decimal.ShiftWord
import Monetary.Proofs.Result

/-!
# What an operation can do

An operation that succeeds does one of three things: it hands back the receiver, it brings the
number that it computes to the context of the receiver, or it takes a number that has no more
digits than that of the receiver as it is. In each of them currency and context stay.

A division rounds only once. Its quotient is rounded to the precision of the context already, and
bringing it to the context changes nothing.
-/

namespace Monetary

/-- An operand is the number that an argument stands for. -/
theorem Money.operand_eq_ok_iff {input : NumberInput} {x : Decimal} :
    operand input = .ok x ↔ input.toDecimal = .ok x := by
  cases h : input.toDecimal <;> simp [operand, h]

/-- A number is derived exactly if it can be brought to the context of the receiver. -/
theorem Money.derive_eq_ok_iff {money result : Money} {number : Decimal} :
    money.derive number = .ok result ↔
      ∃ fitted, money.context.apply number = .ok fitted ∧ result = money.deriveExactly fitted := by
  simp only [derive, bind_eq_ok_iff, MoneyError.ofNumber_eq_ok_iff, pure, Except.pure,
    Except.ok.injEq]
  exact exists_congr fun fitted => and_congr_right fun _ => eq_comm

/-- A number that fits the context of the receiver is derived as it is. -/
theorem Money.derive_of_fits {money : Money} {number : Decimal}
    (h : money.context.fits number = true) :
    money.derive number = .ok (money.deriveExactly number) :=
  Money.derive_eq_ok_iff.mpr ⟨number, Context.apply_of_fits h, rfl⟩

namespace Money

variable {money : Money} {divisor : NumberInput} {d : Decimal}

/-- Division rounds only once: what it derives is the quotient as it is. -/
theorem divide_eq (hd : divisor.toDecimal = .ok d)
    (hfits : money.context.fits money.number = true) :
    money.divide divisor = if d.isOne then .ok money else
      (MoneyError.ofNumber (money.number.divide d money.context.precision .halfEven)).map
        money.deriveExactly := by
  simp only [divide, operand_eq_ok_iff.mpr hd, bind, Except.bind, pure, Except.pure]
  split
  · rfl
  cases hquotient : money.number.divide d money.context.precision .halfEven with
  | error cause => rfl
  | ok q =>
    refine derive_of_fits (Context.fits_iff.mpr ?_)
    by_cases hunlimited : money.context.precision = 0
    · exact .inl hunlimited
    · exact .inr (Decimal.digits_divide_le hunlimited
        (Context.digits_le_of_fits hfits hunlimited) hquotient)

/-- A division that fails does so because there is no quotient at the precision of the context. -/
theorem error_of_divide {error : MoneyError} (hd : divisor.toDecimal = .ok d)
    (hfits : money.context.fits money.number = true) (h : money.divide divisor = .error error) :
    ∃ cause, error = .number cause ∧
      money.number.divide d money.context.precision .halfEven = .error cause := by
  rw [divide_eq hd hfits] at h
  split at h
  · cases h
  cases hquotient : money.number.divide d money.context.precision .halfEven with
  | error cause =>
    rw [hquotient] at h
    cases h
    exact ⟨cause, rfl, rfl⟩
  | ok q =>
    rw [hquotient] at h
    cases h

/-- A division that succeeds hands back the amount, or takes the quotient at the precision of the
context as it is. -/
theorem divide_cases {result : Money} (hd : divisor.toDecimal = .ok d)
    (hfits : money.context.fits money.number = true) (h : money.divide divisor = .ok result) :
    d.value = 1 ∧ result = money ∨
      ∃ q, money.number.divide d money.context.precision .halfEven = .ok q ∧
        result = money.deriveExactly q := by
  rw [divide_eq hd hfits] at h
  split at h
  · rename_i hone
    cases h
    exact .inl ⟨Decimal.isOne_iff.mp hone, rfl⟩
  cases hquotient : money.number.divide d money.context.precision .halfEven with
  | error cause =>
    rw [hquotient] at h
    cases h
  | ok q =>
    rw [hquotient] at h
    cases h
    exact .inr ⟨q, rfl, rfl⟩

end Money

namespace Operation

/-- The number that an operation computes, whatever its digits and whether or not there is an
easier way to the result. -/
def unrounded (money : Money) : Operation → Except MoneyError Decimal
  | .add amount => do
    money.checkCurrency amount
    return money.number.add amount.number
  | .subtract amount => do
    money.checkCurrency amount
    return money.number.sub amount.number
  | .multiply factor => do
    MoneyError.ofNumber (money.number.mul (← Money.operand factor))
  | .divide divisor => do
    let divisor ← Money.operand divisor
    MoneyError.ofNumber (money.number.divide divisor money.context.precision .halfEven)
  | .quotient divisor => do
    let divisor ← Money.operand divisor
    return (← MoneyError.ofNumber (money.number.divideWithRemainder divisor)).1
  | .modulus divisor => do
    let divisor ← Money.operand divisor
    return (← MoneyError.ofNumber (money.number.divideWithRemainder divisor)).2
  | .divideToIntegral divisor => do
    MoneyError.ofNumber (money.number.divideToIntegral (← Money.operand divisor))
  | .remainder divisor => do
    MoneyError.ofNumber (money.number.remainder (← Money.operand divisor))
  | .negate => .ok money.number.neg
  | .plus => .ok money.number
  | .abs => .ok money.number.abs
  | .stripZeros => .ok money.strippedNumber
  | .scaleByPowerOfTen n => MoneyError.ofNumber (money.number.scaleByPowerOfTen n)

/-- The operation without an easier way: it always computes its number and applies the context of
the receiver to that, once. Currency and context are those of the receiver. -/
def plain (money : Money) (operation : Operation) : Except MoneyError Money := do
  let x ← operation.unrounded money
  let fitted ← MoneyError.ofNumber (money.context.apply x)
  return ⟨money.currency, fitted, money.context⟩

/-- The four operations that have an easier way for an operand that changes nothing. -/
def isArithmetic : Operation → Bool
  | .add _ | .subtract _ | .multiply _ | .divide _ => true
  | _ => false

variable {money result : Money} {operation : Operation}

/-- The plain operation derives the number that it computes from the receiver. -/
theorem plain_eq_bind (money : Money) (operation : Operation) :
    operation.plain money = operation.unrounded money >>= money.derive := rfl

/-- An argument is the unit exactly if it stands for a number that is one. -/
theorem isUnit_eq_true_iff {input : NumberInput} :
    isUnit input = true ↔ ∃ x, Money.operand input = .ok x ∧ x.isOne = true := by
  cases h : input.toDecimal <;> simp [isUnit, Money.operand, h]

/-- A number that an argument other than the unit stands for is not one. -/
theorem isOne_eq_false_of_operand {input : NumberInput} {x : Decimal}
    (hunit : isUnit input = false) (h : Money.operand input = .ok x) : x.isOne = false := by
  rw [← Bool.not_eq_true] at hunit ⊢
  exact fun hone => hunit (isUnit_eq_true_iff.mpr ⟨x, h, hone⟩)

/-- The easier way counts only where an operand changes nothing. -/
theorem run_eq_plain (harithmetic : operation.isArithmetic = true)
    (h : operation.keepsReceiver money = false) : operation.run money = operation.plain money := by
  cases operation with
  | add amount =>
    have hnonzero : amount.isZero = false := h
    simp only [run, plain_eq_bind, unrounded, Money.add, hnonzero]
    cases money.checkCurrency amount <;> rfl
  | subtract amount =>
    have hnonzero : amount.isZero = false := h
    simp only [run, plain_eq_bind, unrounded, Money.subtract, hnonzero]
    cases money.checkCurrency amount <;> rfl
  | multiply factor =>
    simp only [run, plain_eq_bind, unrounded, Money.multiply]
    cases hfactor : Money.operand factor with
    | error error => rfl
    | ok x => simp [bind, Except.bind, isOne_eq_false_of_operand h hfactor]
  | divide divisor =>
    simp only [run, plain_eq_bind, unrounded, Money.divide]
    cases hdivisor : Money.operand divisor with
    | error error => rfl
    | ok x => simp [bind, Except.bind, isOne_eq_false_of_operand h hdivisor]
  | _ => cases harithmetic

/-- An operation that hands back the receiver has no other result. -/
theorem eq_of_keepsReceiver (hkeeps : operation.keepsReceiver money = true)
    (h : operation.run money = .ok result) : result = money := by
  cases operation with
  | add amount =>
    have hzero : amount.isZero = true := hkeeps
    obtain ⟨-, -, h⟩ := bind_eq_ok_iff.mp h
    simpa [hzero, pure, Except.pure, eq_comm] using h
  | subtract amount =>
    have hzero : amount.isZero = true := hkeeps
    obtain ⟨-, -, h⟩ := bind_eq_ok_iff.mp h
    simpa [hzero, pure, Except.pure, eq_comm] using h
  | multiply factor =>
    obtain ⟨x, hx, hone⟩ := isUnit_eq_true_iff.mp hkeeps
    simpa [run, Money.multiply, hx, hone, bind, Except.bind, pure, Except.pure, eq_comm] using h
  | divide divisor =>
    obtain ⟨x, hx, hone⟩ := isUnit_eq_true_iff.mp hkeeps
    simpa [run, Money.divide, hx, hone, bind, Except.bind, pure, Except.pure, eq_comm] using h
  | quotient divisor =>
    obtain ⟨hunit, hintegral⟩ := Bool.and_eq_true_iff.mp hkeeps
    obtain ⟨x, hx, hone⟩ := isUnit_eq_true_iff.mp hunit
    simpa [run, Money.divideWithRemainder, hx, hone, hintegral, bind, Except.bind, pure,
      Except.pure, Except.map, eq_comm] using h
  | plus => exact (Except.ok.inj h).symm
  | abs =>
    have hpositive : money.isPositiveOrZero = true := hkeeps
    simpa [run, Money.abs, hpositive, eq_comm] using h
  | _ => cases hkeeps

/-- A quotient with remainder is the receiver and zero, or both members are computed and derived. -/
theorem divideWithRemainder_cases {divisor : NumberInput} {quotient remainder : Money}
    (h : money.divideWithRemainder divisor = .ok (quotient, remainder)) :
    (isUnit divisor && money.number.isIntegral) = true ∧ quotient = money ∧
        remainder = money.deriveExactly .zero ∨
      (isUnit divisor && money.number.isIntegral) = false ∧
        ∃ x q r, Money.operand divisor = .ok x ∧
          money.number.divideWithRemainder x = .ok (q, r) ∧
          money.derive q = .ok quotient ∧ money.derive r = .ok remainder := by
  obtain ⟨x, hx, h⟩ := bind_eq_ok_iff.mp h
  have hunit : isUnit divisor = x.isOne := by
    rw [Bool.eq_iff_iff, isUnit_eq_true_iff, hx]
    simp
  rw [hunit]
  cases hshort : x.isOne && money.number.isIntegral with
  | true =>
    rw [if_pos hshort] at h
    cases h
    exact .inl ⟨rfl, rfl, rfl⟩
  | false =>
    rw [if_neg (by rw [hshort]; decide)] at h
    obtain ⟨⟨q, r⟩, hqr, h⟩ := bind_eq_ok_iff.mp h
    obtain ⟨first, hfirst, h⟩ := bind_eq_ok_iff.mp h
    obtain ⟨second, hsecond, h⟩ := bind_eq_ok_iff.mp h
    cases h
    exact .inr ⟨rfl, x, q, r, hx, MoneyError.ofNumber_eq_ok_iff.mp hqr, hfirst, hsecond⟩

/-- An operation hands back the receiver, or derives the number that it computes, or takes a number
with no more digits than the receiver's as it is. -/
theorem run_cases (h : operation.run money = .ok result) :
    result = money ∨
      (operation.keepsReceiver money = false ∧
        ∃ x, operation.unrounded money = .ok x ∧ money.derive x = .ok result) ∨
      ∃ x, x.digits ≤ money.number.digits ∧ result = money.deriveExactly x := by
  cases hkeeps : operation.keepsReceiver money with
  | true => exact .inl (eq_of_keepsReceiver hkeeps h)
  | false =>
    right
    by_cases harithmetic : operation.isArithmetic = true
    · rw [run_eq_plain harithmetic hkeeps] at h
      exact .inl ⟨rfl, bind_eq_ok_iff.mp (plain_eq_bind money operation ▸ h)⟩
    cases operation with
    | quotient divisor =>
      obtain ⟨⟨quotient, remainder⟩, hpair, rfl⟩ := map_eq_ok_iff.mp h
      rcases divideWithRemainder_cases hpair with ⟨hshort, -⟩ | ⟨-, x, q, r, hx, hqr, hq, -⟩
      · exact absurd (hshort.symm.trans hkeeps) (by decide)
      · exact .inl ⟨rfl, q, by simp [unrounded, hx, hqr, bind, Except.bind, MoneyError.ofNumber,
          pure, Except.pure], hq⟩
    | modulus divisor =>
      obtain ⟨⟨quotient, remainder⟩, hpair, rfl⟩ := map_eq_ok_iff.mp h
      rcases divideWithRemainder_cases hpair with ⟨-, -, hrest⟩ | ⟨-, x, q, r, hx, hqr, -, hr⟩
      · exact .inr ⟨.zero, digitCount_mono (Nat.zero_le _), hrest⟩
      · exact .inl ⟨rfl, r, by simp [unrounded, hx, hqr, bind, Except.bind, MoneyError.ofNumber,
          pure, Except.pure], hr⟩
    | divideToIntegral divisor =>
      obtain ⟨x, hx, h⟩ := bind_eq_ok_iff.mp h
      obtain ⟨quotient, hquotient, h⟩ := bind_eq_ok_iff.mp h
      exact .inl ⟨rfl, quotient, bind_eq_ok_iff.mpr ⟨x, hx, hquotient⟩, h⟩
    | remainder divisor =>
      obtain ⟨x, hx, h⟩ := bind_eq_ok_iff.mp h
      obtain ⟨rest, hrest, h⟩ := bind_eq_ok_iff.mp h
      exact .inl ⟨rfl, rest, bind_eq_ok_iff.mpr ⟨x, hx, hrest⟩, h⟩
    | negate =>
      cases h
      exact .inr ⟨money.number.neg, by simp [Decimal.digits, Decimal.neg], rfl⟩
    | abs =>
      have hnegative : money.isPositiveOrZero = false := hkeeps
      cases h
      refine .inr ⟨money.number.neg, by simp [Decimal.digits, Decimal.neg], ?_⟩
      rw [Money.abs, hnegative]
      rfl
    | stripZeros =>
      cases h
      exact .inr ⟨money.strippedNumber, Decimal.digits_stripZeros_le _, rfl⟩
    | scaleByPowerOfTen n =>
      obtain ⟨shifted, hshifted, h⟩ := bind_eq_ok_iff.mp h
      cases h
      have hcoefficient := (Decimal.ofParts_eq_ok_iff.mp
        (MoneyError.ofNumber_eq_ok_iff.mp hshifted)).1
      exact .inr ⟨shifted, by rw [Decimal.digits, hcoefficient, Decimal.digits], rfl⟩
    | plus => cases hkeeps
    | _ => exact absurd rfl harithmetic

/-- Whatever an operation does, currency and context stay. -/
theorem run_keeps_currency_and_context (h : operation.run money = .ok result) :
    result.currency = money.currency ∧ result.context = money.context := by
  rcases run_cases h with rfl | ⟨-, x, -, hderive⟩ | ⟨x, -, rfl⟩
  · exact ⟨rfl, rfl⟩
  · obtain ⟨fitted, -, rfl⟩ := Money.derive_eq_ok_iff.mp hderive
    exact ⟨rfl, rfl⟩
  · exact ⟨rfl, rfl⟩

/-- An operation keeps a number that fits the context within it. -/
theorem run_fits (hfits : money.context.fits money.number = true)
    (h : operation.run money = .ok result) : result.context.fits result.number = true := by
  rcases run_cases h with rfl | ⟨-, x, -, hderive⟩ | ⟨x, hdigits, rfl⟩
  · exact hfits
  · obtain ⟨fitted, hfitted, rfl⟩ := Money.derive_eq_ok_iff.mp hderive
    exact Context.fits_of_apply_eq_ok hfitted
  · exact Context.fits_of_digits_le hdigits hfits

end Operation

end Monetary
