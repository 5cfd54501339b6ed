import Monetary.Proofs.Money.Reconstruction
import Monetary.Proofs.Money.Shortcut

/-!
# Quotient and remainder, together or apart

Division with remainder computes both members and then derives one after the other, the quotient
first. Asked for apart, each member is computed and derived on its own. Both ways take the same
steps, but together the product of quotient and divisor is formed before the quotient is derived,
so that a product out of range would hide what deriving the quotient fails with. Where the preferred
scale is in range no such product exists.

An integral amount divided by one is handed back with the remainder `0`, and its context is not
asked. The quotient that is computed apart is the amount in another representation. Its scale is the
least one from the preferred scale on, and that of the amount is one of these, because no number of
value one has a scale below zero. Hence it has no more digits than the amount and fits the context
as the amount does, and so does the remainder, which is zero. No mode is asked either way.
-/

namespace Monetary

/-- An integer divided by a number of value one is the integer, with no more digits than before, and
nothing remains. -/
theorem Decimal.exists_divideToIntegral_unit {x y : Decimal} (hx : x.isIntegral = true)
    (hy : y.value = 1) (hlow : leastScale ≤ preferredScale x y)
    (hhigh : preferredScale x y ≤ greatestScale) :
    ∃ q r, x.divideToIntegral y = .ok q ∧ x.remainder y = .ok r ∧ q.value = x.value ∧
      q.digits ≤ x.digits ∧ r.coefficient = 0 := by
  have hnonzero : y.coefficient ≠ 0 := by
    rw [Ne, ← value_eq_zero_iff, hy]
    exact one_ne_zero
  obtain ⟨q, hq, hscale, hleast⟩ := exists_divideToIntegral hnonzero hlow hhigh
  obtain ⟨r, hboth, hr⟩ := exists_remainder hq hleast.1.1 hscale
  obtain ⟨n, hn, hsplit, -⟩ := divideWithRemainder_spec hboth
  have hzero : r.isZero = true := by
    rw [isZero_remainder_iff hboth]
    simpa only [hy, mul_one] using isIntegral_iff.mp hx
  rw [isZero_iff] at hzero
  have hvalue : q.value = x.value := by
    rw [hsplit, hy, mul_one, value_eq_zero_iff.mpr hzero, add_zero, hn]
  obtain ⟨k, -, hk⟩ := exists_unit_padding hy
  have hown : x.scale.toInt ∈ scalesFrom (preferredScale x y) q.value :=
    ⟨by rw [preferredScale, hk]; omega, x.coefficient, hvalue.symm⟩
  exact ⟨q, r, hq, hr, hvalue, digits_le_of_scale_le hvalue (hleast.2 hown), hzero⟩

namespace Money

variable {money : Money} {divisor : NumberInput} {d : Decimal}

/-- The integral quotient and the remainder, each of them computed on its own. -/
def divideApart (money : Money) (divisor : NumberInput) : Except MoneyError (Money × Money) := do
  let quotient ← money.divideToIntegral divisor
  let remainder ← money.remainder divisor
  return (quotient, remainder)

/-- Both members exist apart exactly if each of them exists. -/
theorem divideApart_eq_ok_iff {quotient remainder : Money} :
    money.divideApart divisor = .ok (quotient, remainder) ↔
      money.divideToIntegral divisor = .ok quotient ∧ money.remainder divisor = .ok remainder := by
  simp only [divideApart, bind_eq_ok_iff, pure, Except.pure, Except.ok.injEq, Prod.mk.injEq]
  constructor
  · rintro ⟨_, hquotient, _, hremainder, rfl, rfl⟩
    exact ⟨hquotient, hremainder⟩
  · rintro ⟨hquotient, hremainder⟩
    exact ⟨quotient, hquotient, remainder, hremainder, rfl, rfl⟩

/-- The quotient fails first, and the remainder only where there is a quotient. -/
theorem divideApart_eq_error_iff {error : MoneyError} :
    money.divideApart divisor = .error error ↔ money.divideToIntegral divisor = .error error ∨
      (∃ quotient, money.divideToIntegral divisor = .ok quotient) ∧
        money.remainder divisor = .error error := by
  simp only [divideApart, bind_eq_error_iff, pure, Except.pure, reduceCtorEq, and_false,
    exists_false, or_false, exists_and_right]

/-- Where the receiver is not handed back, the members are the same together or apart. -/
theorem divideWithRemainder_eq_divideApart (hd : divisor.toDecimal = .ok d)
    (hlow : Decimal.leastScale ≤ Decimal.preferredScale money.number d)
    (hhigh : Decimal.preferredScale money.number d ≤ Decimal.greatestScale)
    (hplain : (d.isOne && money.number.isIntegral) = false) :
    money.divideWithRemainder divisor = money.divideApart divisor := by
  simp only [divideWithRemainder, divideApart, divideToIntegral, remainder,
    operand_eq_ok_iff.mpr hd, hplain, bind, Except.bind, pure, Except.pure]
  cases hq : money.number.divideToIntegral d with
  | error cause =>
    rw [Decimal.divideWithRemainder, hq]
    rfl
  | ok q =>
    obtain ⟨hnonzero, -⟩ := Decimal.value_divideToIntegral hq
    obtain ⟨same, hsame, hscale, hleast⟩ := Decimal.exists_divideToIntegral hnonzero hlow hhigh
    obtain rfl : q = same := Except.ok.inj (hq.symm.trans hsame)
    obtain ⟨r, hboth, hr⟩ := Decimal.exists_remainder hq hleast.1.1 hscale
    rw [hboth, hr]
    cases hquotient : money.derive q with
    | error cause => simp [MoneyError.ofNumber, hquotient]
    | ok quotient => simp [MoneyError.ofNumber, hquotient]

/-- An integral amount divided by one is the amount, and nothing remains, together or apart. -/
theorem divideApart_unit (hfits : money.context.fits money.number = true)
    (hintegral : money.number.isIntegral = true) (hd : divisor.toDecimal = .ok d)
    (hone : d.isOne = true) (hlow : Decimal.leastScale ≤ Decimal.preferredScale money.number d)
    (hhigh : Decimal.preferredScale money.number d ≤ Decimal.greatestScale) :
    money.divideWithRemainder divisor = .ok (money, money.deriveExactly .zero) ∧
      ∃ quotient remainder, money.divideApart divisor = .ok (quotient, remainder) ∧
        money.Agrees quotient ∧ (money.deriveExactly .zero).Agrees remainder := by
  have hoperand := operand_eq_ok_iff.mpr hd
  obtain ⟨q, r, hq, hr, hvalue, hdigits, hzero⟩ :=
    Decimal.exists_divideToIntegral_unit hintegral (Decimal.isOne_iff.mp hone) hlow hhigh
  have hqFits : money.context.fits q = true := Context.fits_of_digits_le hdigits hfits
  have hrFits : money.context.fits r = true := Context.fits_of_digits_le
    ((Decimal.digits_of_coefficient_eq_zero hzero).trans_le (digitCount_pos _)) hfits
  refine ⟨?_, money.deriveExactly q, money.deriveExactly r, ?_, ?_, ?_⟩
  · simp [divideWithRemainder, hoperand, hone, hintegral, bind, Except.bind, pure, Except.pure]
  · refine divideApart_eq_ok_iff.mpr ⟨?_, ?_⟩
    · exact bind_eq_ok_iff.mpr ⟨d, hoperand, bind_eq_ok_iff.mpr
        ⟨q, MoneyError.ofNumber_eq_ok_iff.mpr hq, derive_of_fits hqFits⟩⟩
    · exact bind_eq_ok_iff.mpr ⟨d, hoperand, bind_eq_ok_iff.mpr
        ⟨r, MoneyError.ofNumber_eq_ok_iff.mpr hr, derive_of_fits hrFits⟩⟩
  · exact agrees_iff.mpr ⟨rfl, hvalue.symm, rfl⟩
  · exact agrees_iff.mpr
      ⟨rfl, Decimal.value_zero.trans (Decimal.value_eq_zero_iff.mpr hzero).symm, rfl⟩

/-- Together or apart, a quotient and a remainder are the same members, or equal ones where the
receiver is handed back; or both ways fail with the same error. -/
theorem divideWithRemainder_cases_apart (hfits : money.context.fits money.number = true)
    (hscale : ∀ d, divisor.toDecimal = .ok d →
      Decimal.leastScale ≤ Decimal.preferredScale money.number d ∧
        Decimal.preferredScale money.number d ≤ Decimal.greatestScale) :
    (∃ quotient remainder q r, money.divideWithRemainder divisor = .ok (quotient, remainder) ∧
        money.divideApart divisor = .ok (q, r) ∧ quotient.Agrees q ∧ remainder.Agrees r) ∨
      ∃ error, money.divideWithRemainder divisor = .error error ∧
        money.divideApart divisor = .error error := by
  cases hoperand : operand divisor with
  | error error =>
    refine .inr ⟨error, bind_eq_error_iff.mpr (.inl hoperand), ?_⟩
    exact divideApart_eq_error_iff.mpr (.inl (bind_eq_error_iff.mpr (.inl hoperand)))
  | ok d =>
    have hd := operand_eq_ok_iff.mp hoperand
    obtain ⟨hlow, hhigh⟩ := hscale d hd
    cases hplain : d.isOne && money.number.isIntegral with
    | true =>
      obtain ⟨hone, hintegral⟩ := Bool.and_eq_true_iff.mp hplain
      obtain ⟨htogether, q, r, hapart, hq, hr⟩ :=
        divideApart_unit hfits hintegral hd hone hlow hhigh
      exact .inl ⟨_, _, q, r, htogether, hapart, hq, hr⟩
    | false =>
      rw [divideWithRemainder_eq_divideApart hd hlow hhigh hplain]
      cases hapart : money.divideApart divisor with
      | error error => exact .inr ⟨error, rfl, rfl⟩
      | ok pair => exact .inl ⟨_, _, _, _, rfl, rfl, .refl _, .refl _⟩

/-- Along every run, and wherever the preferred scale is in range, division with remainder has a
result exactly if the integral quotient and the remainder both have one; its members are equal to
them, in the same context. Otherwise it fails with the error of the quotient, or with that of the
remainder where there is a quotient. -/
theorem divideWithRemainder_agrees_with_members (hmoney : Reachable money)
    (hscale : ∀ d, divisor.toDecimal = .ok d →
      Decimal.leastScale ≤ Decimal.preferredScale money.number d ∧
        Decimal.preferredScale money.number d ≤ Decimal.greatestScale) :
    (∀ quotient remainder, money.divideWithRemainder divisor = .ok (quotient, remainder) →
        ∃ q r, money.divideToIntegral divisor = .ok q ∧ money.remainder divisor = .ok r ∧
          quotient.Agrees q ∧ remainder.Agrees r) ∧
      (∀ q r, money.divideToIntegral divisor = .ok q → money.remainder divisor = .ok r →
        ∃ quotient remainder, money.divideWithRemainder divisor = .ok (quotient, remainder)) ∧
      ∀ error, money.divideWithRemainder divisor = .error error ↔
        money.divideToIntegral divisor = .error error ∨
          (∃ q, money.divideToIntegral divisor = .ok q) ∧
            money.remainder divisor = .error error := by
  simp only [← divideApart_eq_error_iff]
  rcases divideWithRemainder_cases_apart hmoney.fits hscale with
    ⟨quotient, remainder, q, r, htogether, hapart, hq, hr⟩ | ⟨error, htogether, hapart⟩
  · obtain ⟨hquotient, hremainder⟩ := divideApart_eq_ok_iff.mp hapart
    refine ⟨fun a b h => ?_, fun _ _ _ _ => ⟨quotient, remainder, htogether⟩, fun error => ?_⟩
    · cases htogether.symm.trans h
      exact ⟨q, r, hquotient, hremainder, hq, hr⟩
    · rw [htogether, hapart]
      exact iff_of_false nofun nofun
  · refine ⟨fun a b h => ?_, fun a b hquotient hremainder => ?_, fun other => ?_⟩
    · cases htogether.symm.trans h
    · cases hapart.symm.trans (divideApart_eq_ok_iff.mpr ⟨hquotient, hremainder⟩)
    · rw [htogether, hapart]

/-- By 1.000 the amount 50E+3 is handed back by itself, while the quotient computed apart is 5E+4
in a context for two digits that must not round. A quotient that such a context cannot hold is
refused together and apart. -/
theorem divideWithRemainder_agrees_with_members_by_one :
    let usd : Currency := ⟨"USD", by decide⟩
    let money : Money := ⟨usd, ⟨50, -3⟩, .money 2 .unnecessary⟩
    let narrow : Money := ⟨usd, ⟨12, 0⟩, .money 2 .unnecessary⟩
    money.divideWithRemainder (.decimal ⟨1000, 3⟩) = .ok (money, money.deriveExactly .zero) ∧
      money.divideToIntegral (.decimal ⟨1000, 3⟩) = .ok (money.deriveExactly ⟨5, -4⟩) ∧
      money.Agrees (money.deriveExactly ⟨5, -4⟩) ∧
      narrow.divideToIntegral (.decimal ⟨7, 2⟩) = .error (.number .roundingNecessary) ∧
      narrow.divideWithRemainder (.decimal ⟨7, 2⟩) = .error (.number .roundingNecessary) := by
  intro usd money narrow
  have hmoney : Reachable money := .of_fits (by decide +kernel) (by decide +kernel)
  have hnarrow : Reachable narrow := .of_fits (by decide +kernel) (by decide +kernel)
  have hkept : money.divideWithRemainder (.decimal ⟨1000, 3⟩) =
      .ok (money, money.deriveExactly .zero) := by decide +kernel
  have hapart : money.divideToIntegral (.decimal ⟨1000, 3⟩) =
      .ok (money.deriveExactly ⟨5, -4⟩) := by decide +kernel
  have hrefused : narrow.divideToIntegral (.decimal ⟨7, 2⟩) =
      .error (.number .roundingNecessary) := by decide +kernel
  obtain ⟨hmembers, -, -⟩ := @divideWithRemainder_agrees_with_members money
    (.decimal ⟨1000, 3⟩) hmoney (by rintro _ ⟨⟩; decide)
  obtain ⟨-, -, herrors⟩ := @divideWithRemainder_agrees_with_members narrow (.decimal ⟨7, 2⟩)
    hnarrow (by rintro _ ⟨⟩; decide)
  obtain ⟨q, -, hq, -, hagrees, -⟩ := hmembers _ _ hkept
  cases hapart.symm.trans hq
  exact ⟨hkept, hapart, hagrees, hrefused, (herrors _).mpr (.inl hrefused)⟩

end Money

end Monetary
