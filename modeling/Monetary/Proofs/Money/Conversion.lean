import Monetary.Proofs.Money.Origin
import Mathlib.Data.ENat.Lattice

/-!
# Money made of other amounts

An amount of another kind becomes money under its own context, once that is widened to the default
one and then to the digits of the number. Each time the wider one of two is taken, where the
precision zero has room for any number of digits. So the context that is arrived at has the largest
of three rooms, in whatever order they stand and whichever of them are unlimited, and no more than
that. The number has room in it by then: nothing is rounded, the mode is not asked, and no
conversion fails, as long as the digits of the number can be counted in a precision.
-/

namespace Monetary

namespace Context

variable {context other : Context} {x : Decimal}

/-- How many digits a context allows. -/
def room (context : Context) : ℕ∞ :=
  if context.precision = 0 then ⊤ else context.precision.toNat

/-- The precision zero has room for any number of digits. -/
theorem room_of_unlimited (h : context.precision = 0) : context.room = ⊤ :=
  if_pos h

/-- Any other precision has room for just as many digits. -/
theorem room_of_limited (h : context.precision ≠ 0) : context.room = context.precision.toNat :=
  if_neg h

/-- A context has room for the digits exactly of the numbers that fit it. -/
theorem fits_iff_le_room : context.fits x = true ↔ x.digits ≤ context.room := by
  rw [fits_iff]
  by_cases hlimited : context.precision = 0
  · simp [hlimited, room_of_unlimited]
  · simp [hlimited, room_of_limited]

/-- The wider one of two contexts has the larger room. -/
theorem isAtLeastAsWideAs_iff : context.isAtLeastAsWideAs other = true ↔
    other.room ≤ context.room := by
  by_cases hcontext : context.precision = 0 <;> by_cases hother : other.precision = 0 <;>
    simp [isAtLeastAsWideAs, room, hcontext, hother]

/-- Widening to a number of digits asks whether there is too little room for them. -/
theorem room_lt_iff {digits : Nat} : context.room < digits ↔
    (!context.isUnlimited && decide (context.precision.toNat < digits)) = true := by
  by_cases hlimited : context.precision = 0
  · simp [hlimited, isUnlimited, room_of_unlimited]
  · simp [hlimited, isUnlimited, room_of_limited]

end Context

namespace Money

variable {number : Decimal}

/-- A number of digits that can be counted is a precision. -/
theorem toNat_precisionOfDigits {digits : Nat} (h : digits ≤ digitLimit) :
    (precisionOfDigits digits).toNat = digits := by
  unfold digitLimit at h
  have hsize : digits < UInt32.size := Nat.lt_add_one_of_le h
  rw [precisionOfDigits, Nat.min_eq_left h, UInt32.toNat_ofNat_of_lt' hsize]

/-- Of two contexts the larger room is taken. -/
theorem room_widened (context other : Context) :
    (widened context other).room = max context.room other.room := by
  unfold widened
  split
  · rename_i hwide
    rw [max_eq_left (Context.isAtLeastAsWideAs_iff.mp hwide)]
  · rename_i hnarrow
    rw [Context.isAtLeastAsWideAs_iff, not_le] at hnarrow
    rw [max_eq_right hnarrow.le]
    rfl

/-- A context that has too little room for a number of digits is widened to just as many. -/
theorem room_widenedToDigits {digits : Nat} (hcount : digits ≤ digitLimit) (context : Context) :
    (widenedToDigits context digits).room = max context.room digits := by
  have hneeded := toNat_precisionOfDigits hcount
  unfold widenedToDigits
  dsimp only
  rw [hneeded]
  split
  · rename_i htest
    have hnarrow := Context.room_lt_iff.mpr htest
    have hlimited : precisionOfDigits digits ≠ 0 := by
      intro hzero
      rw [hzero] at hneeded
      rw [← hneeded] at hnarrow
      exact not_lt_bot hnarrow
    rw [max_eq_right hnarrow.le, Context.room_of_limited hlimited, hneeded]
  · rename_i htest
    rw [max_eq_left (not_lt.mp (mt Context.room_lt_iff.mp htest))]

/-- The adopted context has the largest of three rooms. -/
theorem room_adoptedContext (hcount : number.digits ≤ digitLimit) (context usual : Context) :
    (adoptedContext number context usual).room =
      max (max context.room usual.room) number.digits := by
  rw [adoptedContext, room_widenedToDigits hcount, room_widened]
  rfl

/-- The adopted context is one for money, with the mode of the amount's own. -/
theorem adoptedContext_isMoney (number : Decimal) (context usual : Context) :
    (adoptedContext number context usual).rounding = context.rounding ∧
      (adoptedContext number context usual).amountType = Context.moneyType := by
  unfold adoptedContext widenedToDigits widened
  dsimp only
  split_ifs <;> exact ⟨rfl, rfl⟩

/-- The adopted context has room for all the digits of the number. -/
theorem adoptedContext_fits (hcount : number.digits ≤ digitLimit) (context usual : Context) :
    (adoptedContext number context usual).fits number = true := by
  rw [Context.fits_iff_le_room, room_adoptedContext hcount]
  exact le_max_right _ _

/-- An amount of another kind becomes money of its number as it is, under the adopted context. -/
theorem fromAmount_foreign (currency : Currency) (hcount : number.digits ≤ digitLimit)
    (context usual : Context) : (fromAmount (.foreign currency number context)).under usual =
      .ok ⟨currency, number, adoptedContext number context usual⟩ :=
  withContext_of_fits (adoptedContext_fits hcount context usual)

/-- Money of an amount of another kind exists, under every default context, with the currency, the
number in its representation, and the mode of the amount. Its context is one for money, with the
least room that is no smaller than that of the amount's context, that of the default one and the
digits of the number. Money itself stays as it is, whatever the default context. -/
theorem fromAmount_keeps_number_in_least_room (currency : Currency)
    (hcount : number.digits ≤ digitLimit) (context usual : Context) :
    (∃ converted, (fromAmount (.foreign currency number context)).under usual = .ok converted ∧
      converted.currency = currency ∧ converted.number = number ∧
      converted.context.rounding = context.rounding ∧
      converted.context.amountType = Context.moneyType ∧
      IsLeast {room : ℕ∞ | context.room ≤ room ∧ usual.room ≤ room ∧ number.digits ≤ room}
        converted.context.room) ∧
      ∀ money, fromAmount (.money money) = .known (.ok money) := by
  obtain ⟨hrounding, htype⟩ := adoptedContext_isMoney number context usual
  refine ⟨⟨_, fromAmount_foreign currency hcount context usual, rfl, rfl, hrounding, htype, ?_⟩,
    fun money => rfl⟩
  rw [room_adoptedContext hcount]
  refine ⟨⟨?_, ?_, le_max_right _ _⟩, ?_⟩
  · exact (le_max_left _ _).trans (le_max_left _ _)
  · exact (le_max_right _ _).trans (le_max_left _ _)
  · rintro room ⟨hown, husual, hdigits⟩
    exact max_le (max_le hown husual) hdigits

/-- A number of 20 digits under a context for two that must not round needs the precision 20 under a
default one of 16, and none under an unlimited default one. -/
theorem fromAmount_keeps_number_in_least_room_of_digits :
    let usd : Currency := ⟨"USD", by decide⟩
    let number : Decimal := ⟨12345678901234567890, 4⟩
    let points : Context := ⟨2, .unnecessary, "Points"⟩
    (fromAmount (.foreign usd number points)).under (.money 16 .halfEven) =
        .ok ⟨usd, number, .money 20 .unnecessary⟩ ∧
      IsLeast {room : ℕ∞ | points.room ≤ room ∧ (Context.money 16 .halfEven).room ≤ room ∧
        number.digits ≤ room} 20 ∧
      (fromAmount (.foreign usd number points)).under (.money 0 .halfUp) =
        .ok ⟨usd, number, .money 0 .unnecessary⟩ ∧
      IsLeast {room : ℕ∞ | points.room ≤ room ∧ (Context.money 0 .halfUp).room ≤ room ∧
        number.digits ≤ room} ⊤ := by
  intro usd number points
  have hcount : number.digits ≤ digitLimit := by decide +kernel
  have hlimited : (fromAmount (.foreign usd number points)).under (.money 16 .halfEven) =
      .ok ⟨usd, number, .money 20 .unnecessary⟩ := by decide +kernel
  have hunlimited : (fromAmount (.foreign usd number points)).under (.money 0 .halfUp) =
      .ok ⟨usd, number, .money 0 .unnecessary⟩ := by decide +kernel
  obtain ⟨⟨_, hfirst, -, -, -, -, hdigits⟩, -⟩ :=
    fromAmount_keeps_number_in_least_room usd hcount points (.money 16 .halfEven)
  obtain ⟨⟨_, hsecond, -, -, -, -, htop⟩, -⟩ :=
    fromAmount_keeps_number_in_least_room usd hcount points (.money 0 .halfUp)
  cases hlimited.symm.trans hfirst
  cases hunlimited.symm.trans hsecond
  exact ⟨hlimited, hdigits, hunlimited, htop⟩

end Money

end Monetary
