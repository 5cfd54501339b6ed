import Monetary.Proofs.Decimal.CorrectRounding
import Monetary.Proofs.Decimal.FactorWord
import Monetary.Proofs.Money.Order
import Monetary.Proofs.Money.Reachable

/-!
# Rounded arithmetic keeps the order

The four operations bring the exact sum, difference, product or quotient to the precision of the
receiver's context: where they compute a number, because they do so in the end, and where they hand
back the receiver, because that fits the context already. Since bringing numbers to one precision
keeps their order, each operation keeps the order of two receivers, or turns it around, as the exact
operation does. The two runs may round at different places, carry or not, and take the easier way or
not.

Where the precision is unlimited, a quotient is exact only if a 32-bit word holds the number of
places that it needs. A divisor with 2³² twos and more makes an exception: an amount may then be
divided to zero, and a smaller one not.
-/

namespace Monetary

namespace Context

/-- What is brought to a context has the value to which the mode of the context rounds. -/
theorem brings_apply {context : Context} {x y : Decimal} (h : context.apply x = .ok y) :
    context.rounding.Brings context.precision x.value y.value := by
  rw [apply_eq_round] at h
  exact Decimal.brings_round h

/-- A number that fits a context is brought to its precision by every mode, as it is. -/
theorem brings_of_fits {context : Context} {x : Decimal} (mode : Rounding)
    (h : context.fits x = true) : mode.Brings context.precision x.value x.value := by
  rw [fits_iff] at h
  have hround : x.round context.precision mode = .ok x := by rw [Decimal.round, if_pos h]
  exact Decimal.brings_round hround

end Context

namespace Operation

variable {money result : Money} {v : ℚ}

/-- The exact result is brought to the context of the receiver, if it is what is computed, and that
of the receiver where the receiver is handed back. -/
theorem brings_of_run (operation : Operation) (hfits : money.context.fits money.number = true)
    (harithmetic : operation.isArithmetic = true)
    (hkept : operation.keepsReceiver money = true → money.number.value = v)
    (hcomputed : ∀ x, operation.unrounded money = .ok x → x.value = v)
    (h : operation.run money = .ok result) :
    money.context.rounding.Brings money.context.precision v result.number.value := by
  cases hkeeps : operation.keepsReceiver money with
  | true =>
    rw [eq_of_keepsReceiver hkeeps h, ← hkept hkeeps]
    exact Context.brings_of_fits _ hfits
  | false =>
    rw [run_eq_plain harithmetic hkeeps, plain_eq_bind] at h
    obtain ⟨x, hx, hderive⟩ := bind_eq_ok_iff.mp h
    obtain ⟨y, hy, rfl⟩ := Money.derive_eq_ok_iff.mp hderive
    rw [← hcomputed x hx]
    exact Context.brings_apply hy

/-- A sum is the exact sum, brought to the context of the receiver. -/
theorem brings_add {amount : Amount} (hfits : money.context.fits money.number = true)
    (h : money.add amount = .ok result) : money.context.rounding.Brings money.context.precision
      (money.number.value + amount.number.value) result.number.value := by
  refine brings_of_run (.add amount) hfits rfl ?_ ?_ h
  · intro hzero
    rw [Decimal.value_eq_zero_iff.mpr (Decimal.isZero_iff.mp hzero), add_zero]
  · intro x hx
    obtain ⟨-, -, hx⟩ := bind_eq_ok_iff.mp hx
    cases hx
    exact Decimal.value_add _ _

/-- A difference is the exact difference, brought to the context of the receiver. -/
theorem brings_subtract {amount : Amount} (hfits : money.context.fits money.number = true)
    (h : money.subtract amount = .ok result) :
    money.context.rounding.Brings money.context.precision
      (money.number.value - amount.number.value) result.number.value := by
  refine brings_of_run (.subtract amount) hfits rfl ?_ ?_ h
  · intro hzero
    rw [Decimal.value_eq_zero_iff.mpr (Decimal.isZero_iff.mp hzero), sub_zero]
  · intro x hx
    obtain ⟨-, -, hx⟩ := bind_eq_ok_iff.mp hx
    cases hx
    exact Decimal.value_sub _ _

/-- The number of a unit is one. -/
theorem value_of_isUnit {input : NumberInput} {x : Decimal} (hx : input.toDecimal = .ok x)
    (hunit : isUnit input = true) : x.value = 1 := by
  obtain ⟨one, hone, hisOne⟩ := isUnit_eq_true_iff.mp hunit
  obtain rfl : one = x := Except.ok.inj ((Money.operand_eq_ok_iff.mp hone).symm.trans hx)
  exact Decimal.isOne_iff.mp hisOne

/-- A product is the exact product, brought to the context of the receiver. -/
theorem brings_multiply {factor : NumberInput} {x : Decimal} (hx : factor.toDecimal = .ok x)
    (hfits : money.context.fits money.number = true) (h : money.multiply factor = .ok result) :
    money.context.rounding.Brings money.context.precision (money.number.value * x.value)
      result.number.value := by
  refine brings_of_run (.multiply factor) hfits rfl ?_ ?_ h
  · intro hunit
    rw [value_of_isUnit hx hunit, mul_one]
  · intro product hproduct
    obtain ⟨_, hoperand, hproduct⟩ := bind_eq_ok_iff.mp hproduct
    cases hx.symm.trans (Money.operand_eq_ok_iff.mp hoperand)
    exact Decimal.value_mul (MoneyError.ofNumber_eq_ok_iff.mp hproduct)

/-- A quotient is the exact quotient, brought half-even to the precision of the receiver's context,
if the count of its places is held where that is unlimited. -/
theorem brings_quotient {divisor : NumberInput} {x : Decimal} (hx : divisor.toDecimal = .ok x)
    (hcount : money.context.precision ≠ 0 →
      money.context.precision.toNat + x.digits ≤ digitLimit)
    (hheld : money.context.precision = 0 → Decimal.PlacesHeld money.number x)
    (hfits : money.context.fits money.number = true) (h : money.divide divisor = .ok result)
    (hnonzero : x.coefficient ≠ 0) : Rounding.halfEven.Brings money.context.precision
      (money.number.value / x.value) result.number.value := by
  rcases Money.divide_cases hx hfits h with ⟨hone, rfl⟩ | ⟨q, hquotient, rfl⟩
  · rw [hone, div_one]
    exact Context.brings_of_fits _ hfits
  · exact (Decimal.brings_divide .halfEven hnonzero (Context.digits_le_of_fits hfits) hcount hheld
      hquotient).1

end Operation

namespace Decimal

/-- A number is not above another one in the order exactly if its value is not. -/
theorem isLE_order_iff {x y : Decimal} : (x.order y).isLE = true ↔ x.value ≤ y.value := by
  rw [order_eq_compare, Ordering.isLE_iff_ne_gt]
  exact compare_le_iff_le

end Decimal

namespace Money

variable {a b r s : Money}

/-- Amounts of one currency are ordered as the values of their numbers. -/
theorem isLE_order_iff (h : a.currency = b.currency) :
    (a.order b).isLE = true ↔ a.number.value ≤ b.number.value := by
  rw [order, h, Currency.order_eq_compare, compare_eq_iff_eq.mpr rfl, Ordering.eq_then,
    Decimal.isLE_order_iff]

/-- The amount of a number has that number, brought to the context. -/
theorem withContext_brings {input : NumberInput} {x : Decimal} {currency : Currency}
    {context : Context} (hx : input.toDecimal = .ok x)
    (h : withContext input currency context = .ok r) : r.currency = currency ∧
      context.rounding.Brings context.precision x.value r.number.value := by
  rw [withContext_eq_bind, operand_eq_ok_iff.mpr hx] at h
  obtain ⟨fitted, hfitted, rfl⟩ := withContext_eq_ok_iff.mp h
  exact ⟨rfl, Context.brings_apply hfitted⟩

/-- Of the numbers that amounts are made of under one context, the smaller one does not make the
larger amount, and numbers of one value make equal amounts. -/
theorem withContext_keeps_order {m n : NumberInput} {x y : Decimal} {currency : Currency}
    {context : Context} (hm : m.toDecimal = .ok x) (hn : n.toDecimal = .ok y)
    (hr : withContext m currency context = .ok r) (hs : withContext n currency context = .ok s) :
    ((x.order y).isLE = true → (r.order s).isLE = true) ∧
      (x.order y = .eq → r.equal s = true) := by
  obtain ⟨hrCurrency, hrBrings⟩ := withContext_brings hm hr
  obtain ⟨hsCurrency, hsBrings⟩ := withContext_brings hn hs
  have hcurrency : r.currency = s.currency := hrCurrency.trans hsCurrency.symm
  rw [Decimal.isLE_order_iff, Decimal.order_eq_eq_iff, isLE_order_iff hcurrency, equal_iff]
  refine ⟨hrBrings.mono hsBrings, fun h => ⟨hcurrency, ?_⟩⟩
  rw [h] at hrBrings
  exact hrBrings.unique hsBrings

/-- The first amount is not above the second one, and they have one currency and one context, which
both numbers fit. -/
structure Ordered (a b : Money) : Prop where
  currency_eq : a.currency = b.currency
  context_eq : a.context = b.context
  left_fits : a.context.fits a.number = true
  right_fits : b.context.fits b.number = true
  value_le : a.number.value ≤ b.number.value

/-- In the order of amounts the first amount is not above the second one. -/
theorem Ordered.isLE (h : a.Ordered b) : (a.order b).isLE = true :=
  (isLE_order_iff h.currency_eq).mpr h.value_le

end Money

namespace Operation

variable {a b r s : Money}

/-- Two results are ordered as the exact results are, to which a mode brings them that depends on no
more than the context. -/
theorem ordered_of_brings (mode : Context → Rounding) (operation : Operation) {v w : ℚ}
    (h : a.Ordered b) (hr : operation.run a = .ok r) (hs : operation.run b = .ok s)
    (hrBrings : (mode a.context).Brings a.context.precision v r.number.value)
    (hsBrings : (mode b.context).Brings b.context.precision w s.number.value) :
    (v ≤ w → r.Ordered s) ∧ (w ≤ v → s.Ordered r) := by
  obtain ⟨hrCurrency, hrContext⟩ := run_keeps_currency_and_context hr
  obtain ⟨hsCurrency, hsContext⟩ := run_keeps_currency_and_context hs
  have hcurrency : r.currency = s.currency := by rw [hrCurrency, hsCurrency, h.currency_eq]
  have hcontext : r.context = s.context := by rw [hrContext, hsContext, h.context_eq]
  have hrFits := run_fits h.left_fits hr
  have hsFits := run_fits h.right_fits hs
  rw [h.context_eq] at hrBrings
  exact ⟨fun hle => ⟨hcurrency, hcontext, hrFits, hsFits, hrBrings.mono hsBrings hle⟩,
    fun hle => ⟨hcurrency.symm, hcontext.symm, hsFits, hrFits, hsBrings.mono hrBrings hle⟩⟩

/-- Adding an amount keeps the order. -/
theorem ordered_add {amount : Amount} (h : a.Ordered b) (hr : a.add amount = .ok r)
    (hs : b.add amount = .ok s) : r.Ordered s :=
  (ordered_of_brings Context.rounding (.add amount) h hr hs (brings_add h.left_fits hr)
    (brings_add h.right_fits hs)).1 (add_le_add_left h.value_le _)

/-- Subtracting an amount keeps the order. -/
theorem ordered_subtract {amount : Amount} (h : a.Ordered b) (hr : a.subtract amount = .ok r)
    (hs : b.subtract amount = .ok s) : r.Ordered s :=
  (ordered_of_brings Context.rounding (.subtract amount) h hr hs (brings_subtract h.left_fits hr)
    (brings_subtract h.right_fits hs)).1 (sub_le_sub_right h.value_le _)

/-- Multiplying by a number keeps the order if the number is not below zero, and turns it around if
the number is not above zero. -/
theorem ordered_multiply {factor : NumberInput} {x : Decimal} (hx : factor.toDecimal = .ok x)
    (h : a.Ordered b) (hr : a.multiply factor = .ok r) (hs : b.multiply factor = .ok s) :
    (0 ≤ x.value → r.Ordered s) ∧ (x.value ≤ 0 → s.Ordered r) := by
  obtain ⟨hkept, hturned⟩ := ordered_of_brings Context.rounding (.multiply factor) h hr hs
    (brings_multiply hx h.left_fits hr) (brings_multiply hx h.right_fits hs)
  exact ⟨fun hpos => hkept (mul_le_mul_of_nonneg_right h.value_le hpos),
    fun hneg => hturned (mul_le_mul_of_nonpos_right h.value_le hneg)⟩

/-- Dividing by a number keeps the order if the number is above zero, and turns it around if the
number is below zero. Where the precision is unlimited, this asks that the places of both quotients
are held. -/
theorem ordered_divide {divisor : NumberInput} {x : Decimal} (hx : divisor.toDecimal = .ok x)
    (hcount : a.context.precision ≠ 0 → a.context.precision.toNat + x.digits ≤ digitLimit)
    (hheld : a.context.precision = 0 →
      Decimal.PlacesHeld a.number x ∧ Decimal.PlacesHeld b.number x)
    (h : a.Ordered b) (hr : a.divide divisor = .ok r) (hs : b.divide divisor = .ok s) :
    (0 < x.value → r.Ordered s) ∧ (x.value < 0 → s.Ordered r) := by
  have hordered (hnonzero : x.value ≠ 0) := by
    have hcoefficient := mt Decimal.value_eq_zero_iff.mpr hnonzero
    exact ordered_of_brings (fun _ => .halfEven) (.divide divisor) h hr hs
      (brings_quotient hx hcount (fun hunlimited => (hheld hunlimited).1) h.left_fits hr
        hcoefficient)
      (brings_quotient hx (h.context_eq ▸ hcount)
        (fun hunlimited => (hheld (h.context_eq ▸ hunlimited)).2) h.right_fits hs hcoefficient)
  exact ⟨fun hpos => (hordered hpos.ne').1 (div_le_div_of_nonneg_right h.value_le hpos.le),
    fun hneg => (hordered hneg.ne).2 (div_le_div_of_nonpos_of_le hneg.le h.value_le)⟩

/-- By a divisor of at most `bitLimit` binary digits an amount at the unlimited precision is divided
only if the places of the quotient are held. -/
theorem placesHeld_of_divide {divisor : NumberInput} {x : Decimal}
    (hx : divisor.toDecimal = .ok x) (hunlimited : a.context.precision = 0)
    (hbits : x.coefficient.natAbs < 2 ^ Decimal.bitLimit) (h : a.divide divisor = .ok r) :
    Decimal.PlacesHeld a.number x := by
  have hfits : a.context.fits a.number = true := Context.fits_iff.mpr (.inl hunlimited)
  rcases Money.divide_cases hx hfits h with ⟨hone, -⟩ | ⟨q, hquotient, -⟩
  · exact Decimal.placesHeld_of_unit _ hone
  · rw [hunlimited, Decimal.divide, if_pos rfl] at hquotient
    exact Decimal.placesHeld_of_divideExactly hbits hquotient

/-- The operations that keep the order of two receivers: adding and subtracting, multiplying by a
number that is not below zero, and dividing by one above zero, of at most `bitLimit` binary digits
where the precision is unlimited. -/
def KeepsOrder (context : Context) : Operation → Prop
  | .add _ | .subtract _ => True
  | .multiply factor => ∀ x, factor.toDecimal = .ok x → 0 ≤ x.value
  | .divide divisor => ∀ x, divisor.toDecimal = .ok x → 0 < x.value ∧
      (context.precision ≠ 0 → context.precision.toNat + x.digits ≤ digitLimit) ∧
      (context.precision = 0 → x.coefficient.natAbs < 2 ^ Decimal.bitLimit)
  | _ => False

/-- An operation that keeps the order leads from two amounts to results of the same order. -/
theorem ordered_run {operation : Operation} (hkeeps : operation.KeepsOrder a.context)
    (h : a.Ordered b) (hr : operation.run a = .ok r) (hs : operation.run b = .ok s) :
    r.Ordered s := by
  cases operation with
  | add amount => exact ordered_add h hr hs
  | subtract amount => exact ordered_subtract h hr hs
  | multiply factor =>
    obtain ⟨x, hx, -⟩ := bind_eq_ok_iff.mp hr
    have hx := Money.operand_eq_ok_iff.mp hx
    exact (ordered_multiply hx h hr hs).1 (hkeeps x hx)
  | divide divisor =>
    obtain ⟨x, hx, -⟩ := bind_eq_ok_iff.mp hr
    have hx := Money.operand_eq_ok_iff.mp hx
    obtain ⟨hpos, hcount, hbits⟩ := hkeeps x hx
    refine (ordered_divide hx hcount (fun hunlimited => ⟨?_, ?_⟩) h hr hs).1 hpos
    · exact placesHeld_of_divide hx hunlimited (hbits hunlimited) hr
    · exact placesHeld_of_divide hx (h.context_eq ▸ hunlimited) (hbits hunlimited) hs
  | _ => cases hkeeps

/-- A run of operations that keep the order leads from two amounts to results of the same order. -/
theorem ordered_foldlM (operations : List Operation)
    (hkeeps : ∀ operation ∈ operations, operation.KeepsOrder a.context) (h : a.Ordered b)
    (hr : operations.foldlM run a = .ok r) (hs : operations.foldlM run b = .ok s) :
    r.Ordered s := by
  induction operations generalizing a b with
  | nil =>
    cases hr
    cases hs
    exact h
  | cons operation rest ih =>
    rw [List.foldlM_cons] at hr hs
    obtain ⟨next, hnext, hr⟩ := bind_eq_ok_iff.mp hr
    obtain ⟨other, hother, hs⟩ := bind_eq_ok_iff.mp hs
    have hcontext := (run_keeps_currency_and_context hnext).2
    have hordered := ordered_run (hkeeps operation List.mem_cons_self) h hnext hother
    refine ih (fun later hlater => ?_) hordered hr hs
    rw [hcontext]
    exact hkeeps later (List.mem_cons_of_mem _ hlater)

/-- An amount at the unlimited precision has the exact quotient of its number. -/
theorem divide_of_divideExactly {divisor : NumberInput} {x q : Decimal}
    (hx : divisor.toDecimal = .ok x) (hone : x.isOne = false) (hunlimited : a.context.precision = 0)
    (h : a.number.divideExactly x = .ok q) : a.divide divisor = .ok (a.deriveExactly q) := by
  have hfits : a.context.fits a.number = true := Context.fits_iff.mpr (.inl hunlimited)
  have hquotient : a.number.divide x a.context.precision .halfEven = .ok q := by
    rw [hunlimited, Decimal.divide, if_pos rfl, h]
  rw [Money.divide_eq hx hfits, if_neg (by rw [hone]; decide), hquotient]
  rfl

/-- Under every context arithmetic keeps the order of two amounts of one currency, although it rounds:
adding and subtracting do, multiplying and dividing by a number above zero do, and by one below zero
they turn it around. Division at the unlimited precision does so where a word holds the number of
places of both quotients. Making amounts of numbers keeps the order as well, and numbers of one
value make equal amounts. -/
theorem arithmetic_monotone_where_places_held (currency : Currency) (context : Context) :
    (∀ a b, Reachable a → Reachable b → a.currency = currency → b.currency = currency →
      a.context = context → b.context = context → (a.order b).isLE = true →
      (∀ amount r s, a.add amount = .ok r → b.add amount = .ok s → (r.order s).isLE = true) ∧
      (∀ amount r s, a.subtract amount = .ok r → b.subtract amount = .ok s →
        (r.order s).isLE = true) ∧
      (∀ factor x r s, factor.toDecimal = .ok x →
        a.multiply factor = .ok r → b.multiply factor = .ok s →
        (0 ≤ x.value → (r.order s).isLE = true) ∧ (x.value ≤ 0 → (s.order r).isLE = true)) ∧
      (∀ divisor x r s, divisor.toDecimal = .ok x →
        (context.precision ≠ 0 → context.precision.toNat + x.digits ≤ digitLimit) →
        (context.precision = 0 →
          Decimal.PlacesHeld a.number x ∧ Decimal.PlacesHeld b.number x) →
        a.divide divisor = .ok r → b.divide divisor = .ok s →
        (0 < x.value → (r.order s).isLE = true) ∧ (x.value < 0 → (s.order r).isLE = true))) ∧
    ∀ m n x y r s, m.toDecimal = .ok x → n.toDecimal = .ok y →
      Money.withContext m currency context = .ok r → Money.withContext n currency context = .ok s →
      ((x.order y).isLE = true → (r.order s).isLE = true) ∧
        (x.order y = .eq → r.equal s = true) := by
  refine ⟨?_, fun m n x y r s hm hn hr hs => Money.withContext_keeps_order hm hn hr hs⟩
  rintro a b ha hb rfl hcurrency rfl hcontext h
  have hordered : a.Ordered b :=
    ⟨hcurrency.symm, hcontext.symm, ha.fits, hb.fits, (Money.isLE_order_iff hcurrency.symm).mp h⟩
  refine ⟨fun amount r s hr hs => ?_, fun amount r s hr hs => ?_, fun factor x r s hx hr hs => ?_,
    fun divisor x r s hx hcount hheld hr hs => ?_⟩
  · exact (ordered_add hordered hr hs).isLE
  · exact (ordered_subtract hordered hr hs).isLE
  · obtain ⟨hkept, hturned⟩ := ordered_multiply hx hordered hr hs
    exact ⟨fun hpos => (hkept hpos).isLE, fun hneg => (hturned hneg).isLE⟩
  · obtain ⟨hkept, hturned⟩ := ordered_divide hx hcount hheld hordered hr hs
    exact ⟨fun hpos => (hkept hpos).isLE, fun hneg => (hturned hneg).isLE⟩

/-- With 0.035 more, -9.99 becomes -9.96 and 9.96 carries to 10.0; divided by -3 they become 3.33
and -3.32, and at the unlimited precision they become -1.24875 and 1.245 divided by 8. The numbers
1.005 and 1.0050 make equal amounts. -/
theorem arithmetic_monotone_where_places_held_across_carry :
    let usd : Currency := ⟨"USD", by decide⟩
    let context : Context := .money 3 .up
    let unlimited : Context := .money 0 .up
    let amount : Amount := .foreign usd ⟨35, 3⟩ ⟨2, .unnecessary, "Points"⟩
    Money.add ⟨usd, ⟨-999, 2⟩, context⟩ amount = .ok ⟨usd, ⟨-996, 2⟩, context⟩ ∧
      Money.add ⟨usd, ⟨996, 2⟩, context⟩ amount = .ok ⟨usd, ⟨100, 1⟩, context⟩ ∧
      (Money.order ⟨usd, ⟨-996, 2⟩, context⟩ ⟨usd, ⟨100, 1⟩, context⟩).isLE = true ∧
      Money.divide ⟨usd, ⟨-999, 2⟩, context⟩ (.integer (-3)) = .ok ⟨usd, ⟨333, 2⟩, context⟩ ∧
      Money.divide ⟨usd, ⟨996, 2⟩, context⟩ (.integer (-3)) = .ok ⟨usd, ⟨-332, 2⟩, context⟩ ∧
      (Money.order ⟨usd, ⟨-332, 2⟩, context⟩ ⟨usd, ⟨333, 2⟩, context⟩).isLE = true ∧
      Money.divide ⟨usd, ⟨-999, 2⟩, unlimited⟩ (.integer 8) = .ok ⟨usd, ⟨-124875, 5⟩, unlimited⟩ ∧
      Money.divide ⟨usd, ⟨996, 2⟩, unlimited⟩ (.integer 8) = .ok ⟨usd, ⟨1245, 3⟩, unlimited⟩ ∧
      (Money.order ⟨usd, ⟨-124875, 5⟩, unlimited⟩ ⟨usd, ⟨1245, 3⟩, unlimited⟩).isLE = true ∧
      Money.withContext (.decimal ⟨1005, 3⟩) usd context = .ok ⟨usd, ⟨101, 2⟩, context⟩ ∧
      Money.withContext (.decimal ⟨10050, 4⟩) usd context = .ok ⟨usd, ⟨101, 2⟩, context⟩ ∧
      Money.equal ⟨usd, ⟨101, 2⟩, context⟩ ⟨usd, ⟨101, 2⟩, context⟩ = true := by
  intro usd context unlimited amount
  have hless : Reachable ⟨usd, ⟨-999, 2⟩, context⟩ :=
    .of_fits (by decide +kernel) (by decide +kernel)
  have hmore : Reachable ⟨usd, ⟨996, 2⟩, context⟩ :=
    .of_fits (by decide +kernel) (by decide +kernel)
  have hlessExact : Reachable ⟨usd, ⟨-999, 2⟩, unlimited⟩ :=
    .of_fits (by decide +kernel) (by decide +kernel)
  have hmoreExact : Reachable ⟨usd, ⟨996, 2⟩, unlimited⟩ :=
    .of_fits (by decide +kernel) (by decide +kernel)
  have hlessSum : Money.add ⟨usd, ⟨-999, 2⟩, context⟩ amount = .ok ⟨usd, ⟨-996, 2⟩, context⟩ := by
    decide +kernel
  have hmoreSum : Money.add ⟨usd, ⟨996, 2⟩, context⟩ amount = .ok ⟨usd, ⟨100, 1⟩, context⟩ := by
    decide +kernel
  have hlessQuotient : Money.divide ⟨usd, ⟨-999, 2⟩, context⟩ (.integer (-3)) =
      .ok ⟨usd, ⟨333, 2⟩, context⟩ := by decide +kernel
  have hmoreQuotient : Money.divide ⟨usd, ⟨996, 2⟩, context⟩ (.integer (-3)) =
      .ok ⟨usd, ⟨-332, 2⟩, context⟩ := by decide +kernel
  have hlessEighth : Money.divide ⟨usd, ⟨-999, 2⟩, unlimited⟩ (.integer 8) =
      .ok ⟨usd, ⟨-124875, 5⟩, unlimited⟩ := by decide +kernel
  have hmoreEighth : Money.divide ⟨usd, ⟨996, 2⟩, unlimited⟩ (.integer 8) =
      .ok ⟨usd, ⟨1245, 3⟩, unlimited⟩ := by decide +kernel
  have hmade : Money.withContext (.decimal ⟨1005, 3⟩) usd context =
      .ok ⟨usd, ⟨101, 2⟩, context⟩ := by decide +kernel
  have hmadePadded : Money.withContext (.decimal ⟨10050, 4⟩) usd context =
      .ok ⟨usd, ⟨101, 2⟩, context⟩ := by decide +kernel
  obtain ⟨harithmetic, hmaking⟩ := arithmetic_monotone_where_places_held usd context
  obtain ⟨harithmeticExact, -⟩ := arithmetic_monotone_where_places_held usd unlimited
  obtain ⟨hadd, -, -, hdivide⟩ := harithmetic _ _ hless hmore rfl rfl rfl rfl (by decide +kernel)
  obtain ⟨-, -, -, hdivideExactly⟩ :=
    harithmeticExact _ _ hlessExact hmoreExact rfl rfl rfl rfl (by decide +kernel)
  have hinteger (n : Int) : (Decimal.ofInt n).value = n := by
    rw [Decimal.value, Decimal.ofInt, show (0 : Int32).toInt = 0 from rfl,
      Decimal.valueOf_scale_zero]
  have hnegative : (Decimal.ofInt (-3)).value < 0 := by
    rw [hinteger]
    norm_num
  have hpositive : 0 < (Decimal.ofInt 8).value := by
    rw [hinteger]
    norm_num
  have hheld : Decimal.PlacesHeld ⟨-999, 2⟩ (.ofInt 8) ∧ Decimal.PlacesHeld ⟨996, 2⟩ (.ofInt 8) :=
    ⟨⟨3, by decide, by decide⟩, ⟨3, by decide, by decide⟩⟩
  exact ⟨hlessSum, hmoreSum, hadd _ _ _ hlessSum hmoreSum, hlessQuotient, hmoreQuotient,
    (hdivide _ _ _ _ rfl (by decide +kernel) (fun hunlimited => absurd hunlimited (by decide))
      hlessQuotient hmoreQuotient).2 hnegative, hlessEighth, hmoreEighth,
    (hdivideExactly _ _ _ _ rfl (fun hlimited => absurd rfl hlimited) (fun _ => hheld) hlessEighth
      hmoreEighth).1 hpositive, hmade, hmadePadded,
    (hmaking _ _ _ _ _ _ rfl rfl hmade hmadePadded).2 (by decide +kernel)⟩

/-- At the unlimited precision, the amount of 2 to the power 2³² at the scale 1431655766 is less
than one. Divided by 2 to the power 2³² it is above zero, and one is divided to zero. -/
theorem order_lost_of_many_twos :
    ∃ (a b r s : Money) (divisor : NumberInput) (x : Decimal), Reachable a ∧ Reachable b ∧
      a.currency = b.currency ∧ a.context = b.context ∧ a.context.precision = 0 ∧
      (a.order b).isLE = true ∧ divisor.toDecimal = .ok x ∧ 0 < x.value ∧ x.digits ≤ digitLimit ∧
      a.divide divisor = .ok r ∧ b.divide divisor = .ok s ∧ (r.order s).isLE = false := by
  let usd : Currency := ⟨"USD", by decide⟩
  let unlimited : Context := .money 0 .up
  let divisor : Decimal := .powerOfTwo 4294967296 0
  have hscale : (1431655766 : Int32).toInt = (1431655766 : Nat) := by decide
  have hdivisor : 0 < divisor.value := by
    rw [Decimal.value_powerOfTwo]
    exact mul_pos (pow_pos two_pos _) (Decimal.unit_pos _)
  have hdigits : divisor.digits ≤ 1431655766 := Decimal.digits_powerOfTwo_le (by decide)
  have hone : divisor.isOne = false := Decimal.isOne_powerOfTwo (by decide)
  have hcurrency (x y : Decimal) : (⟨usd, x, unlimited⟩ : Money).currency =
      (⟨usd, y, unlimited⟩ : Money).currency := rfl
  have hamount {x : Decimal} (hx : x.digits ≤ digitLimit) : Reachable ⟨usd, x, unlimited⟩ :=
    .of_fits (Context.fits_iff.mpr (.inl rfl)) hx
  refine ⟨⟨usd, .powerOfTwo 4294967296 1431655766, unlimited⟩, ⟨usd, .one, unlimited⟩,
    ⟨usd, ⟨1, 1431655766⟩, unlimited⟩, ⟨usd, .zero, unlimited⟩, .decimal divisor, divisor,
    hamount (hdigits.trans (by decide)), hamount (by decide +kernel), rfl, rfl, rfl, ?_, rfl,
    hdivisor, hdigits.trans (by decide), ?_, ?_, ?_⟩
  · rw [Money.isLE_order_iff (hcurrency _ _), Decimal.value_one]
    exact Decimal.value_powerOfTwo_le_one (by decide) hscale
  · exact divide_of_divideExactly rfl hone rfl (Decimal.powerOfTwo_divideExactly _ _)
  · exact divide_of_divideExactly rfl hone rfl (Decimal.divideExactly_powerOfTwo rfl (by decide))
  · rw [← Bool.not_eq_true, Money.isLE_order_iff (hcurrency _ _), Decimal.value_zero, not_le]
    exact mul_pos (by norm_num) (Decimal.unit_pos _)

end Operation

end Monetary
