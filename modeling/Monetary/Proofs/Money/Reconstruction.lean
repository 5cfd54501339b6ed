import Monetary.Proofs.Decimal.IntegralDivision
import Monetary.Proofs.Money.Reachable

/-!
# Quotient and remainder of an amount

Division with remainder finds both members exactly and then brings each of them to the context of
the receiver. The quotient by a divisor below one, and the remainder by a divisor of many digits,
can have more digits than the receiver. Rounding leaves the quotient an integer and the remainder
its sign, but together they rebuild the receiver exactly if rounding changes neither of them.

The two changes cannot make up for each other. A quotient that changes does so by one at least, and
its product with the divisor by the size of the divisor at least. The remainder moves by no more
than its own size, which is less.
-/

namespace Monetary

namespace Context

variable {context : Context}

/-- A number that is brought to a context stays integral. -/
theorem isIntegral_apply {x y : Decimal} (hx : x.isIntegral = true) (h : context.apply x = .ok y) :
    y.isIntegral = true := by
  rw [apply_eq_round] at h
  exact Decimal.isIntegral_round hx h

/-- An integral quotient and its remainder that are brought to a context rebuild the dividend
exactly if the context can hold both of them. -/
theorem apply_rebuilds_iff {q r roundedQ roundedR : Decimal} {n : Int} {divisor : ℚ}
    (hq : q.value = n) (hrest : |r.value| < |divisor|) (hroundedQ : context.apply q = .ok roundedQ)
    (hroundedR : context.apply r = .ok roundedR) :
    roundedQ.value * divisor + roundedR.value = n * divisor + r.value ↔
      context.CanHold n ∧ context.CanHold r.value := by
  rw [← hq, ← value_apply_eq_iff hroundedQ, ← value_apply_eq_iff hroundedR]
  constructor
  · intro h
    obtain ⟨m, hm⟩ := Decimal.isIntegral_iff.mp
      (isIntegral_apply (Decimal.isIntegral_iff.mpr ⟨n, hq⟩) hroundedQ)
    rw [hm, hq] at h
    obtain rfl : m = n := eq_of_rebuild_eq hrest (apply_moves_within hroundedR).1 h
    exact ⟨hm.trans hq.symm, add_left_cancel h⟩
  · rintro ⟨hkeptQ, hkeptR⟩
    rw [hkeptQ, hkeptR]

end Context

namespace Money

variable {money quotient remainder : Money} {divisor : NumberInput} {d : Decimal}

/-- The members of a division with remainder are the integral quotient and its remainder, brought to
the context of the receiver; also where the receiver is handed back. -/
theorem divideWithRemainder_members (hfits : money.context.fits money.number = true)
    (hd : divisor.toDecimal = .ok d)
    (h : money.divideWithRemainder divisor = .ok (quotient, remainder)) :
    ∃ (q r : Decimal) (n : Int), q.value = n ∧
      money.number.value = n * d.value + r.value ∧ |r.value| < |d.value| ∧
      (r.isZero = true ∨ r.signum = money.signum) ∧
      money.context.apply q = .ok quotient.number ∧
      money.context.apply r = .ok remainder.number := by
  have hoperand := operand_eq_ok_iff.mpr hd
  rcases Operation.divideWithRemainder_cases h with
    ⟨hshort, rfl, rfl⟩ | ⟨-, x, q, r, hx, hqr, hquotient, hremainder⟩
  · obtain ⟨hunit, hintegral⟩ := Bool.and_eq_true_iff.mp hshort
    obtain ⟨x, hx, hone⟩ := Operation.isUnit_eq_true_iff.mp hunit
    obtain rfl : d = x := Except.ok.inj (hoperand.symm.trans hx)
    obtain ⟨n, hn⟩ := Decimal.isIntegral_iff.mp hintegral
    refine ⟨quotient.number, .zero, n, hn, ?_, ?_, .inl rfl, Context.apply_of_fits hfits,
      Context.apply_of_fits (Context.fits_zero _)⟩
    · rw [Decimal.isOne_iff.mp hone, Decimal.value_zero, mul_one, add_zero, hn]
    · rw [Decimal.isOne_iff.mp hone, Decimal.value_zero, abs_zero, abs_one]
      exact one_pos
  · obtain rfl : d = x := Except.ok.inj (hoperand.symm.trans hx)
    obtain ⟨n, hn, hsplit, hrest, hsign⟩ := Decimal.divideWithRemainder_spec hqr
    obtain ⟨fittedQ, hfittedQ, rfl⟩ := derive_eq_ok_iff.mp hquotient
    obtain ⟨fittedR, hfittedR, rfl⟩ := derive_eq_ok_iff.mp hremainder
    exact ⟨q, r, n, hn, hsplit, hrest, hsign, hfittedQ, hfittedR⟩

/-- Along every run the quotient of a division with remainder is an integer, and the remainder is
zero or has the sign of the receiver. They rebuild the receiver exactly if its context can hold both
the truncated quotient and the exact remainder. -/
theorem divideWithRemainder_rebuilds_iff (hmoney : Reachable money)
    (hd : divisor.toDecimal = .ok d)
    (h : money.divideWithRemainder divisor = .ok (quotient, remainder)) :
    (∃ m : Int, quotient.number.value = m) ∧
      (remainder.isZero = true ∨ remainder.signum = money.signum) ∧
      ∃ (n : Int) (rest : Decimal), money.number.value = n * d.value + rest.value ∧
        |rest.value| < |d.value| ∧ (rest.isZero = true ∨ rest.signum = money.signum) ∧
        (quotient.number.value * d.value + remainder.number.value = money.number.value ↔
          money.context.CanHold n ∧ money.context.CanHold rest.value) := by
  obtain ⟨q, rest, n, hn, hsplit, hrest, hsign, hquotient, hremainder⟩ :=
    divideWithRemainder_members hmoney.fits hd h
  obtain ⟨-, hkept⟩ := Context.apply_moves_within hremainder
  refine ⟨?_, ?_, n, rest, hsplit, hrest, hsign, ?_⟩
  · exact Decimal.isIntegral_iff.mp
      (Context.isIntegral_apply (Decimal.isIntegral_iff.mpr ⟨n, hn⟩) hquotient)
  · refine hsign.imp (fun hzero => ?_) hkept.trans
    rw [Decimal.isZero_iff, ← Decimal.signum_eq_zero_iff, ← hkept] at hzero
    exact beq_iff_eq.mpr hzero
  · rw [hsplit]
    exact Context.apply_rebuilds_iff hn hrest hquotient hremainder

/-- The quotient of 123 by 0.007 has two digits more than a context for three can hold. -/
theorem divideWithRemainder_rebuilds_iff_of_narrow_context :
    let money : Money := ⟨⟨"USD", by decide⟩, ⟨123, 0⟩, .money 3 .halfEven⟩
    ∃ (n : Int) (rest : Decimal),
      money.number.value = n * Decimal.value ⟨7, 3⟩ + rest.value ∧
        |rest.value| < |Decimal.value ⟨7, 3⟩| ∧
        ¬ (money.context.CanHold n ∧ money.context.CanHold rest.value) := by
  intro money
  have hmoney : Reachable money := .of_fits (by decide +kernel) (by decide +kernel)
  have hresult : money.divideWithRemainder (.decimal ⟨7, 3⟩) =
      .ok (money.deriveExactly ⟨176, -2⟩, money.deriveExactly ⟨3, 3⟩) := by decide +kernel
  obtain ⟨-, -, n, rest, hsplit, hrest, -, hrebuilds⟩ :=
    divideWithRemainder_rebuilds_iff hmoney rfl hresult
  refine ⟨n, rest, hsplit, hrest, mt hrebuilds.mpr ?_⟩
  change Decimal.valueOf 176 (-2) * Decimal.valueOf 7 3 + Decimal.valueOf 3 3 ≠
    Decimal.valueOf 123 0
  norm_num [Decimal.valueOf]

/-- Divided by 0.007 under a context for three digits, 123 gives the quotient 176E+2 and the
remainder 0.003, which rebuild 123.203. -/
theorem not_rebuilt_of_narrow_context :
    ∃ (money quotient remainder : Money) (d : Decimal), Reachable money ∧
      money.divideWithRemainder d = .ok (quotient, remainder) ∧
      money.number.value = 123 ∧
      quotient.number.value * d.value + remainder.number.value = 123.203 := by
  let money : Money := ⟨⟨"USD", by decide⟩, ⟨123, 0⟩, .money 3 .halfEven⟩
  refine ⟨money, money.deriveExactly ⟨176, -2⟩, money.deriveExactly ⟨3, 3⟩, ⟨7, 3⟩,
    .of_fits (by decide +kernel) (by decide +kernel), by decide +kernel, ?_, ?_⟩
  · exact Decimal.valueOf_scale_zero 123
  · change Decimal.valueOf 176 (-2) * Decimal.valueOf 7 3 + Decimal.valueOf 3 3 = 123.203
    norm_num [Decimal.valueOf]

end Money

end Monetary
