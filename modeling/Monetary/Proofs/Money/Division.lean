import Monetary.Proofs.Decimal.ExactQuotient
import Monetary.Proofs.Decimal.ShiftWord
import Monetary.Proofs.Money.Monotone
import Monetary.Proofs.Number.HalfEven

/-!
# Division of an amount does not ask the mode of its context

Division rounds half-even to the precision of the context and then brings the quotient to the
context, under whatever mode that has. The quotient has no more digits than the precision by then,
so that the second step never drops one, and the mode is not asked at all: not even the mode that
must not round makes a division fail. What is left to fail is the scale of the quotient, and where
the precision is unlimited an expansion without an end.

Where the precision is unlimited, what is returned is the exact quotient if and only if a 32-bit
word holds the number of places that it needs.
-/

namespace Monetary.Money

variable {money : Money} {divisor : NumberInput} {d : Decimal}

/-- The amount under a context with another mode. -/
def withRounding (money : Money) (mode : Rounding) : Money :=
  { money with context := { money.context with rounding := mode } }

/-- Under another mode a division has the same result under that mode, or fails with the same
error. -/
theorem divide_withRounding (mode : Rounding) (hd : divisor.toDecimal = .ok d)
    (hfits : money.context.fits money.number = true) :
    (money.withRounding mode).divide divisor =
      (money.divide divisor).map (·.withRounding mode) := by
  have hother : (money.withRounding mode).context.fits (money.withRounding mode).number = true :=
    hfits
  rw [divide_eq hd hfits, divide_eq hd hother]
  split
  · rfl
  · change (MoneyError.ofNumber (money.number.divide d money.context.precision .halfEven)).map _ = _
    cases money.number.divide d money.context.precision .halfEven <;> rfl

/-- At the unlimited precision a quotient that is returned is exact if and only if the number of its
places is held. -/
theorem divide_exact_iff {result : Money} (hd : divisor.toDecimal = .ok d)
    (hfits : money.context.fits money.number = true) (hnonzero : d.coefficient ≠ 0)
    (hunlimited : money.context.precision = 0) (h : money.divide divisor = .ok result) :
    result.number.value = money.number.value / d.value ↔ Decimal.PlacesHeld money.number d := by
  rcases divide_cases hd hfits h with ⟨hone, rfl⟩ | ⟨q, hquotient, rfl⟩
  · exact iff_of_true (by rw [hone, div_one]) (Decimal.placesHeld_of_unit _ hone)
  · rw [hunlimited, Decimal.divide, if_pos rfl] at hquotient
    rw [eq_div_iff (mt Decimal.value_eq_zero_iff.mp hnonzero)]
    exact Decimal.value_divideExactly_iff hquotient

/-- Along every run an amount is divided half-even, whatever the mode of its context. At a limited
precision the quotient lies within half a unit of its last digit, a tie at the even digit, and
division fails only because the scale of the quotient is out of range. At the unlimited precision
the quotient is exact if and only if a word holds the number of its places, and division fails only
because a scale is out of range, which then is that of the quotient, or because the quotient has no
end. Another mode changes nothing but the mode of the result. -/
theorem divide_half_even_where_places_held (hmoney : Reachable money)
    (hd : divisor.toDecimal = .ok d) (hnonzero : d.coefficient ≠ 0)
    (hcount : money.context.precision ≠ 0 →
      money.context.precision.toNat + d.digits ≤ digitLimit) :
    (money.context.precision ≠ 0 →
      (∀ result, money.divide divisor = .ok result →
        Rounding.RoundsHalfEven money.context.precision.toNat (money.number.value / d.value)
            result.number.value ∨
          money.number.value = 0 ∧ result.number.value = 0) ∧
      ∀ error, money.divide divisor = .error error → error = .number .overflow ∧
        ∃ coefficient scale : Int,
          Rounding.RoundsHalfEven money.context.precision.toNat (money.number.value / d.value)
              (Decimal.valueOf coefficient scale) ∧
            Decimal.IsNearest (Decimal.preferredScale money.number d)
              money.context.precision.toNat coefficient scale ∧
            ¬ (Decimal.leastScale ≤ scale ∧ scale ≤ Decimal.greatestScale)) ∧
    (money.context.precision = 0 →
      (∀ result, money.divide divisor = .ok result →
        (result.number.value = money.number.value / d.value ↔
          Decimal.PlacesHeld money.number d)) ∧
      ∀ error, money.divide divisor = .error error →
        error = .number .nonTerminating ∧
            ¬ Decimal.IsTerminating (money.number.value / d.value) ∨
          error = .number .overflow ∧ Decimal.IsTerminating (money.number.value / d.value) ∧
            (Decimal.PlacesHeld money.number d → ∃ scale,
              IsLeast (Decimal.scalesFrom (Decimal.preferredScale money.number d)
                (money.number.value / d.value)) scale ∧
                ¬ (Decimal.leastScale ≤ scale ∧ scale ≤ Decimal.greatestScale))) ∧
    ∀ mode, (money.withRounding mode).divide divisor =
      (money.divide divisor).map (·.withRounding mode) := by
  have hvalue : d.value ≠ 0 := mt Decimal.value_eq_zero_iff.mp hnonzero
  refine ⟨fun hlimited => ⟨fun result h => ?_, fun error h => ?_⟩,
    fun hunlimited => ⟨fun result h => ?_, fun error h => ?_⟩,
    fun mode => divide_withRounding mode hd hmoney.fits⟩
  · have hresult := Operation.brings_quotient hd hcount
      (fun hunlimited => absurd hunlimited hlimited) hmoney.fits h hnonzero
    unfold Rounding.Brings at hresult
    split at hresult
    · rename_i hkept
      have hzero := (div_eq_zero_iff.mp (hkept.resolve_left hlimited)).resolve_right hvalue
      exact .inr ⟨hzero, by rw [hresult, hzero, zero_div]⟩
    · exact .inl (Rounding.roundsToDigits_halfEven_iff.mp hresult)
  · obtain ⟨cause, rfl, hcause⟩ := error_of_divide hd hmoney.fits h
    obtain ⟨rfl, c, s, hrounds, hnearest, hrange⟩ := Decimal.divide_fails_only_at_scale (by decide)
      hlimited hnonzero (Context.digits_le_of_fits hmoney.fits hlimited) (hcount hlimited) hcause
    exact ⟨rfl, c, s, Rounding.roundsToDigits_halfEven_iff.mp hrounds, hnearest, hrange⟩
  · exact divide_exact_iff hd hmoney.fits hnonzero hunlimited h
  · obtain ⟨cause, rfl, hcause⟩ := error_of_divide hd hmoney.fits h
    rw [Decimal.divide, if_pos hunlimited] at hcause
    rcases Decimal.divideExactly_fails_only hnonzero hcause with ⟨rfl, hnone⟩ |
      ⟨rfl, hterminating, hscale⟩
    · exact .inl ⟨rfl, hnone⟩
    · exact .inr ⟨rfl, hterminating, hscale⟩

/-- Half of 2.45 is a tie between 1.22 and 1.23 and goes to the even digit in a context that must
not round, and where the mode is up as well. At the unlimited precision an eighth of 1 is 0.125, and
a third of 1 has no end. -/
theorem divide_half_even_where_places_held_at_tie :
    let usd : Currency := ⟨"USD", by decide⟩
    let money : Money := ⟨usd, ⟨245, 2⟩, .money 3 .unnecessary⟩
    let unlimited : Money := ⟨usd, ⟨1, 0⟩, .money 0 .halfUp⟩
    money.divide (.integer 2) = .ok ⟨usd, ⟨122, 2⟩, .money 3 .unnecessary⟩ ∧
      Rounding.RoundsHalfEven 3 (money.number.value / (Decimal.ofInt 2).value)
        (Decimal.value ⟨122, 2⟩) ∧
      (money.withRounding .up).divide (.integer 2) = .ok ⟨usd, ⟨122, 2⟩, .money 3 .up⟩ ∧
      unlimited.divide (.integer 8) = .ok ⟨usd, ⟨125, 3⟩, .money 0 .halfUp⟩ ∧
      Decimal.value ⟨125, 3⟩ = unlimited.number.value / (Decimal.ofInt 8).value ∧
      unlimited.divide (.integer 3) = .error (.number .nonTerminating) ∧
      ¬ Decimal.IsTerminating (unlimited.number.value / (Decimal.ofInt 3).value) := by
  intro usd money unlimited
  have hmoney : Reachable money := .of_fits (by decide +kernel) (by decide +kernel)
  have hunlimited : Reachable unlimited := .of_fits (by decide +kernel) (by decide +kernel)
  have hhalf : money.divide (.integer 2) = .ok ⟨usd, ⟨122, 2⟩, .money 3 .unnecessary⟩ := by
    decide +kernel
  have heighth : unlimited.divide (.integer 8) = .ok ⟨usd, ⟨125, 3⟩, .money 0 .halfUp⟩ := by
    decide +kernel
  have hthird : unlimited.divide (.integer 3) = .error (.number .nonTerminating) := by
    decide +kernel
  have htwo : (NumberInput.integer 2).toDecimal = .ok (.ofInt 2) := rfl
  have height : (NumberInput.integer 8).toDecimal = .ok (.ofInt 8) := rfl
  have hthree : (NumberInput.integer 3).toDecimal = .ok (.ofInt 3) := rfl
  obtain ⟨hrounds, -, hmode⟩ := divide_half_even_where_places_held hmoney htwo (by decide)
    (fun _ => by decide +kernel)
  obtain ⟨-, hexact, -⟩ := divide_half_even_where_places_held hunlimited height (by decide)
    (fun hlimited => absurd rfl hlimited)
  obtain ⟨-, hendless, -⟩ := divide_half_even_where_places_held hunlimited hthree (by decide)
    (fun hlimited => absurd rfl hlimited)
  refine ⟨hhalf, ?_, ?_, heighth, ?_, hthird, ?_⟩
  · rcases (hrounds (by decide)).1 _ hhalf with htie | ⟨hzero, -⟩
    · exact htie
    · exact absurd (Decimal.value_eq_zero_iff.mp hzero) (by decide)
  · rw [hmode .up, hhalf]
    rfl
  · exact ((hexact rfl).1 _ heighth).mpr ⟨3, by decide, by decide⟩
  · rcases (hendless rfl).2 _ hthird with ⟨-, hnone⟩ | ⟨hoverflow, -⟩
    · exact hnone
    · cases hoverflow

/-- At the unlimited precision one is divided by the power of two with 2³² twos to zero, which is
not the quotient. -/
theorem divide_unlimited_lost_of_many_twos :
    ∃ (money result : Money) (divisor : NumberInput) (d : Decimal), Reachable money ∧
      money.context.precision = 0 ∧ divisor.toDecimal = .ok d ∧ d.coefficient ≠ 0 ∧
      d.digits ≤ digitLimit ∧ money.divide divisor = .ok result ∧
      result.number.value ≠ money.number.value / d.value := by
  let money : Money := ⟨⟨"USD", by decide⟩, .one, .money 0 .halfUp⟩
  have hmoney : Reachable money := .of_fits (by decide +kernel) (by decide +kernel)
  have hnonzero := Decimal.powerOfTwo_coefficient_ne_zero 4294967296 0
  have hdigits : (Decimal.powerOfTwo 4294967296 0).digits ≤ 1431655766 :=
    Decimal.digits_powerOfTwo_le (by decide)
  have hdivide : money.divide (.decimal (.powerOfTwo 4294967296 0)) =
      .ok (money.deriveExactly .zero) :=
    Operation.divide_of_divideExactly rfl (Decimal.isOne_powerOfTwo (by decide)) rfl
      (Decimal.divideExactly_powerOfTwo rfl (by decide))
  refine ⟨money, _, _, _, hmoney, rfl, rfl, hnonzero, hdigits.trans (by decide), hdivide, ?_⟩
  rw [ne_eq, divide_exact_iff rfl hmoney.fits hnonzero rfl hdivide]
  exact Decimal.not_placesHeld_powerOfTwo le_rfl

end Monetary.Money
