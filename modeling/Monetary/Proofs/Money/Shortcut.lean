import Monetary.Proofs.Decimal.RoundedDivision
import Monetary.Proofs.Money.Equality
import Monetary.Proofs.Money.Reachable

/-!
# Operands that change nothing

Adding zero and multiplying or dividing by one hand back the receiver, while the plain operation
computes a number and rounds it. The computed number is the receiver's padded with zeros, which may
be more digits than the context allows. As the receiver itself fits the context, rounding takes off
nothing but these zeros again, in every mode, so the two ways agree. The plain way alone can fail:
the scale of what it computes may be out of range.
-/

namespace Monetary

/-- The digits of what an operation computes can be counted. A rounded division extends the
dividend to the digits of the precision and the divisor together. -/
def Operation.IsCountable (money : Money) : Operation → Prop
  | .divide divisor => ∀ n, divisor.toDecimal = .ok n → money.context.precision ≠ 0 →
      money.context.precision.toNat + n.digits ≤ digitLimit
  | operation => ∀ x, operation.unrounded money = .ok x → x.digits ≤ digitLimit

/-- An operand that changes nothing: zero in a sum or a difference, and one in a product or a
quotient, at any scale. -/
def Operation.IsNeutral : Operation → Prop
  | .add amount | .subtract amount => amount.number.value = 0
  | .multiply factor | .divide factor => ∃ n, factor.toDecimal = .ok n ∧ n.value = 1
  | _ => False

/-- The number of an operation is the exact sum, difference or product, or the quotient rounded
half-even to the precision of the receiver's context. -/
def Operation.Computes (money : Money) (x : Decimal) : Operation → Prop
  | .add amount => x.value = money.number.value + amount.number.value
  | .subtract amount => x.value = money.number.value - amount.number.value
  | .multiply factor => ∃ n, factor.toDecimal = .ok n ∧ x.value = money.number.value * n.value
  | .divide divisor => ∃ n, divisor.toDecimal = .ok n ∧
      money.number.divide n money.context.precision .halfEven = .ok x
  | _ => True

/-- Two amounts that differ in nothing but the representation of their numbers. -/
def Money.Agrees (a b : Money) : Prop :=
  a.equal b = true ∧ a.context = b.context

/-- Amounts agree exactly if they have one currency, one value and one context. -/
theorem Money.agrees_iff {a b : Money} : a.Agrees b ↔
    a.currency = b.currency ∧ a.number.value = b.number.value ∧ a.context = b.context := by
  rw [Agrees, equal_iff, and_assoc]

/-- An amount agrees with itself. -/
theorem Money.Agrees.refl (a : Money) : a.Agrees a :=
  Money.agrees_iff.mpr ⟨rfl, rfl, rfl⟩

namespace Operation

variable {money : Money}

/-- A number of the receiver's value is derived, to an amount that agrees with the receiver. -/
theorem exists_derive_of_value_eq {x : Decimal} (hfits : money.context.fits money.number = true)
    (hvalue : x.value = money.number.value) (hdigits : x.digits ≤ digitLimit) :
    ∃ result, money.derive x = .ok result ∧ money.Agrees result := by
  obtain ⟨y, happly, hy⟩ :=
    Context.exists_apply_of_canHold ⟨money.number, hvalue.symm, hfits⟩ hdigits
  refine ⟨money.deriveExactly y, Money.derive_eq_ok_iff.mpr ⟨y, happly, rfl⟩, ?_⟩
  exact Money.agrees_iff.mpr ⟨rfl, hvalue.symm.trans hy.symm, rfl⟩

/-- The plain way from an operand that changes nothing: it leads back to the receiver, or fails
because a scale is out of range. -/
def LeadsBack (money : Money) (plain : Except MoneyError Money) : Prop :=
  (∃ result, plain = .ok result ∧ money.Agrees result) ∨ plain = .error (.number .overflow)

/-- What the plain operation does with the number that it computes. -/
theorem plain_of_unrounded {operation : Operation} {x : Decimal}
    (h : operation.unrounded money = .ok x) : operation.plain money = money.derive x := by
  rw [plain_eq_bind, h]
  rfl

/-- The currencies of two amounts agree, or the mismatch is reported. -/
theorem checkCurrency_cases (money : Money) (amount : Amount) :
    money.checkCurrency amount = .ok () ∨
      money.checkCurrency amount = .error (.currencyMismatch money.currency amount.currency) := by
  unfold Money.checkCurrency
  split
  · exact .inl rfl
  · exact .inr rfl

/-- An operation whose only check is that of the currencies leads back to the receiver if the number
that it computes does, unless the currencies differ. -/
theorem leadsBack_of_checked {operation : Operation} {amount : Amount} {x : Decimal}
    (hunrounded : operation.unrounded money = money.checkCurrency amount >>= fun _ => .ok x)
    (hderive : operation.unrounded money = .ok x →
      ∃ result, money.derive x = .ok result ∧ money.Agrees result) :
    LeadsBack money (operation.plain money) ∨
      ∃ expected found, operation.plain money = .error (.currencyMismatch expected found) := by
  rcases checkCurrency_cases money amount with hcheck | hcheck
  · rw [hcheck] at hunrounded
    rw [plain_of_unrounded hunrounded]
    exact .inl (.inl (hderive hunrounded))
  · refine .inr ⟨money.currency, amount.currency, ?_⟩
    rw [plain_eq_bind, hunrounded, hcheck]
    rfl

/-- A factor of value one leads back to the receiver. -/
theorem leadsBack_multiply {factor : NumberInput} {x : Decimal}
    (hfits : money.context.fits money.number = true)
    (hcount : (Operation.multiply factor).IsCountable money)
    (hx : Money.operand factor = .ok x) (hone : x.value = 1) :
    LeadsBack money ((Operation.multiply factor).plain money) := by
  have hunrounded : (Operation.multiply factor).unrounded money =
      MoneyError.ofNumber (money.number.mul x) := by
    rw [unrounded, hx]
    rfl
  cases hproduct : money.number.mul x with
  | ok product =>
    rw [hproduct] at hunrounded
    rw [plain_of_unrounded hunrounded]
    refine .inl (exists_derive_of_value_eq hfits ?_ (hcount _ hunrounded))
    rw [Decimal.value_mul hproduct, hone, mul_one]
  | error error =>
    rw [plain_eq_bind, hunrounded, hproduct, Decimal.eq_overflow_of_ofParts hproduct]
    exact .inr rfl

/-- A divisor of value one leads back to the receiver. -/
theorem leadsBack_divide {divisor : NumberInput} {x : Decimal}
    (hfits : money.context.fits money.number = true)
    (hcount : (Operation.divide divisor).IsCountable money)
    (hx : Money.operand divisor = .ok x) (hone : x.value = 1) :
    LeadsBack money ((Operation.divide divisor).plain money) := by
  have hunrounded : (Operation.divide divisor).unrounded money =
      MoneyError.ofNumber (money.number.divide x money.context.precision .halfEven) := by
    rw [unrounded, hx]
    rfl
  rcases Decimal.divide_unit .halfEven hone (Context.fits_iff.mp hfits)
    (hcount x (Money.operand_eq_ok_iff.mp hx)) with ⟨q, hq, hvalue, hdigits⟩ | hoverflow
  · rw [hq] at hunrounded
    rw [plain_of_unrounded hunrounded, Money.derive_of_fits (Context.fits_iff.mpr hdigits)]
    exact .inl ⟨_, rfl, Money.agrees_iff.mpr ⟨rfl, hvalue.symm, rfl⟩⟩
  · rw [plain_eq_bind, hunrounded, hoverflow]
    exact .inr rfl

variable {operation : Operation}

/-- Where the receiver is handed back, the plain operation leads back to it, unless the currencies
differ. -/
theorem plain_of_keepsReceiver (hfits : money.context.fits money.number = true)
    (harithmetic : operation.isArithmetic = true) (hcount : operation.IsCountable money)
    (hkeeps : operation.keepsReceiver money = true) :
    LeadsBack money (operation.plain money) ∨
      ∃ expected found, operation.plain money = .error (.currencyMismatch expected found) := by
  cases operation with
  | add amount =>
    have hzero : amount.number.value = 0 :=
      Decimal.value_eq_zero_iff.mpr (Decimal.isZero_iff.mp hkeeps)
    apply leadsBack_of_checked (x := money.number.add amount.number) rfl
    intro hunrounded
    refine exists_derive_of_value_eq hfits ?_ (hcount _ hunrounded)
    rw [Decimal.value_add, hzero, add_zero]
  | subtract amount =>
    have hzero : amount.number.value = 0 :=
      Decimal.value_eq_zero_iff.mpr (Decimal.isZero_iff.mp hkeeps)
    apply leadsBack_of_checked (x := money.number.sub amount.number) rfl
    intro hunrounded
    refine exists_derive_of_value_eq hfits ?_ (hcount _ hunrounded)
    rw [Decimal.value_sub, hzero, sub_zero]
  | multiply factor =>
    obtain ⟨x, hx, hone⟩ := isUnit_eq_true_iff.mp hkeeps
    exact .inl (leadsBack_multiply hfits hcount hx (Decimal.isOne_iff.mp hone))
  | divide divisor =>
    obtain ⟨x, hx, hone⟩ := isUnit_eq_true_iff.mp hkeeps
    exact .inl (leadsBack_divide hfits hcount hx (Decimal.isOne_iff.mp hone))
  | _ => cases harithmetic

/-- Where the plain operation succeeds, handing back the receiver does so too. -/
theorem run_of_keepsReceiver {result : Money} (harithmetic : operation.isArithmetic = true)
    (hkeeps : operation.keepsReceiver money = true) (hplain : operation.plain money = .ok result) :
    operation.run money = .ok money := by
  obtain ⟨x, hunrounded, -⟩ := bind_eq_ok_iff.mp hplain
  cases operation with
  | add amount =>
    have hzero : amount.isZero = true := hkeeps
    obtain ⟨_, hcheck, _⟩ := bind_eq_ok_iff.mp hunrounded
    simp [run, Money.add, hcheck, hzero, bind, Except.bind, pure, Except.pure]
  | subtract amount =>
    have hzero : amount.isZero = true := hkeeps
    obtain ⟨_, hcheck, _⟩ := bind_eq_ok_iff.mp hunrounded
    simp [run, Money.subtract, hcheck, hzero, bind, Except.bind, pure, Except.pure]
  | multiply factor =>
    obtain ⟨x, hx, hone⟩ := isUnit_eq_true_iff.mp hkeeps
    simp [run, Money.multiply, hx, hone, bind, Except.bind, pure, Except.pure]
  | divide divisor =>
    obtain ⟨x, hx, hone⟩ := isUnit_eq_true_iff.mp hkeeps
    simp [run, Money.divide, hx, hone, bind, Except.bind, pure, Except.pure]
  | _ => cases harithmetic

/-- The receiver is handed back exactly for an operand that changes nothing. -/
theorem keepsReceiver_eq_true_iff (harithmetic : operation.isArithmetic = true) :
    operation.keepsReceiver money = true ↔ operation.IsNeutral := by
  cases operation with
  | add amount => exact Decimal.isZero_iff.trans Decimal.value_eq_zero_iff.symm
  | subtract amount => exact Decimal.isZero_iff.trans Decimal.value_eq_zero_iff.symm
  | multiply factor =>
    simp only [keepsReceiver, isUnit_eq_true_iff, Money.operand_eq_ok_iff, Decimal.isOne_iff,
      IsNeutral]
  | divide divisor =>
    simp only [keepsReceiver, isUnit_eq_true_iff, Money.operand_eq_ok_iff, Decimal.isOne_iff,
      IsNeutral]
  | _ => cases harithmetic

/-- The number that the plain operation computes is the exact one, or the rounded quotient. -/
theorem computes_of_unrounded {x : Decimal} (h : operation.unrounded money = .ok x) :
    operation.Computes money x := by
  cases operation with
  | add amount =>
    obtain ⟨-, -, h⟩ := bind_eq_ok_iff.mp h
    cases h
    exact Decimal.value_add _ _
  | subtract amount =>
    obtain ⟨-, -, h⟩ := bind_eq_ok_iff.mp h
    cases h
    exact Decimal.value_sub _ _
  | multiply factor =>
    obtain ⟨n, hn, h⟩ := bind_eq_ok_iff.mp h
    exact ⟨n, Money.operand_eq_ok_iff.mp hn, Decimal.value_mul (MoneyError.ofNumber_eq_ok_iff.mp h)⟩
  | divide divisor =>
    obtain ⟨n, hn, h⟩ := bind_eq_ok_iff.mp h
    exact ⟨n, Money.operand_eq_ok_iff.mp hn, MoneyError.ofNumber_eq_ok_iff.mp h⟩
  | _ => exact trivial

/-- Along every run, the four operations agree with the plain ones, which compute the exact sum,
difference or product, or the rounded quotient: where the plain one succeeds, so does the operation,
with an equal amount in the same context; for an operand that changes something, the two are the
same; and for one that changes nothing, the plain one never fails for want of rounding. -/
theorem arithmetic_agrees_with_plain (hmoney : Reachable money)
    (harithmetic : operation.isArithmetic = true) (hcount : operation.IsCountable money) :
    (∀ x, operation.unrounded money = .ok x → operation.Computes money x) ∧
      (∀ result, operation.plain money = .ok result →
        ∃ same, operation.run money = .ok same ∧ same.Agrees result) ∧
      (¬ operation.IsNeutral → operation.run money = operation.plain money) ∧
      (operation.IsNeutral →
        operation.plain money ≠ .error (.number .roundingNecessary) ∧
          operation.plain money ≠ .error (.number .nonTerminating)) := by
  refine ⟨fun x => computes_of_unrounded, fun result hplain => ?_, fun hneutral => ?_,
    fun hneutral => ?_⟩
  · cases hkeeps : operation.keepsReceiver money with
    | false => exact ⟨result, by rw [run_eq_plain harithmetic hkeeps, hplain], .refl result⟩
    | true =>
      refine ⟨money, run_of_keepsReceiver harithmetic hkeeps hplain, ?_⟩
      rcases plain_of_keepsReceiver hmoney.fits harithmetic hcount hkeeps with
        (⟨same, hsame, hagrees⟩ | hoverflow) | ⟨_, _, hmismatch⟩
      · obtain rfl : same = result := Except.ok.inj (hsame.symm.trans hplain)
        exact hagrees
      · exact absurd (hplain.symm.trans hoverflow) (by simp)
      · exact absurd (hplain.symm.trans hmismatch) (by simp)
  · rw [← keepsReceiver_eq_true_iff harithmetic, Bool.not_eq_true] at hneutral
    exact run_eq_plain harithmetic hneutral
  · rcases plain_of_keepsReceiver hmoney.fits harithmetic hcount
      ((keepsReceiver_eq_true_iff harithmetic).mpr hneutral) with
      (⟨same, hsame, -⟩ | hoverflow) | ⟨_, _, hmismatch⟩
    · simp [hsame]
    · simp [hoverflow]
    · simp [hmismatch]

/-- Times 1.00 the amount 1.23 has five digits, of which a context for three that must not round
takes off two. Times 2.5, in a context that rounds half-up, it is 3.075, which becomes 3.08 without
an easier way. -/
theorem arithmetic_agrees_with_plain_on_product :
    let money : Money := ⟨⟨"USD", by decide⟩, ⟨123, 2⟩, .money 3 .unnecessary⟩
    let rounding : Money := ⟨⟨"USD", by decide⟩, ⟨123, 2⟩, .money 3 .halfUp⟩
    let product : Money := ⟨⟨"USD", by decide⟩, ⟨308, 2⟩, .money 3 .halfUp⟩
    let byOne : Operation := .multiply (.decimal ⟨100, 2⟩)
    let byMore : Operation := .multiply (.decimal ⟨25, 1⟩)
    byOne.IsNeutral ∧ byOne.unrounded money = .ok ⟨12300, 4⟩ ∧ byOne.plain money = .ok money ∧
      (∃ same, byOne.run money = .ok same ∧ same.Agrees money) ∧
      byOne.plain money ≠ .error (.number .roundingNecessary) ∧
      ¬ byMore.IsNeutral ∧ byMore.unrounded rounding = .ok ⟨3075, 3⟩ ∧
      Decimal.value ⟨3075, 3⟩ = rounding.number.value * Decimal.value ⟨25, 1⟩ ∧
      byMore.plain rounding = .ok product ∧ byMore.run rounding = .ok product := by
  intro money rounding product byOne byMore
  have hmoney : Reachable money := .of_fits (by decide +kernel) (by decide +kernel)
  have hrounding : Reachable rounding := .of_fits (by decide +kernel) (by decide +kernel)
  have hpadded : byOne.unrounded money = .ok ⟨12300, 4⟩ := by decide +kernel
  have hexact : byMore.unrounded rounding = .ok ⟨3075, 3⟩ := by decide +kernel
  have hpaddedCount : byOne.IsCountable money := by
    intro x hx
    rw [hpadded] at hx
    cases hx
    decide +kernel
  have hexactCount : byMore.IsCountable rounding := by
    intro x hx
    rw [hexact] at hx
    cases hx
    decide +kernel
  have hneutral : byOne.IsNeutral := ⟨_, rfl, Decimal.isOne_iff.mp (by decide +kernel)⟩
  have hchanges : ¬ byMore.IsNeutral := by
    rintro ⟨n, hn, hone⟩
    cases hn
    exact absurd (Decimal.isOne_iff.mpr hone) (by decide +kernel)
  have hkept : byOne.plain money = .ok money := by decide +kernel
  have hrounded : byMore.plain rounding = .ok product := by decide +kernel
  obtain ⟨-, hagrees, -, herrors⟩ := arithmetic_agrees_with_plain hmoney rfl hpaddedCount
  obtain ⟨hcomputes, -, hplain, -⟩ := arithmetic_agrees_with_plain hrounding rfl hexactCount
  obtain ⟨n, hn, hproduct⟩ := hcomputes _ hexact
  cases hn
  exact ⟨hneutral, hpadded, hkept, hagrees money hkept, (herrors hneutral).1, hchanges, hexact,
    hproduct, hrounded, (hplain hchanges).trans hrounded⟩

end Operation

end Monetary
