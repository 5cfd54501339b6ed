import Monetary.Proofs.Decimal.RoundedDivision
import Monetary.Proofs.Number.SignificantDigits

/-!
# Correctly rounded numbers and quotients

A number that is brought to a precision has the value that its mode gives to so many significant
digits, and so has a quotient: its value is the exact quotient, rounded once. A carry into a new
digit changes nothing about that, since the digit it adds is a zero.

A quotient is returned at the scale nearest to the preferred one that its digits allow, and a
coefficient and a scale are determined by that. Therefore rounding and reducing say everything about
a division: what it returns, and with which error it fails.
-/

namespace Monetary.Decimal

/-- A number of more digits, with its point moved before those that are too many, has as many digits
before the point as are kept. -/
theorem moved_coefficient_bounds {x : Decimal} {kept dropped : Nat} (hx : x.coefficient ≠ 0)
    (hdigits : x.digits = kept + dropped) :
    x.value = x.coefficient / 10 ^ dropped * 10 ^ (dropped - x.scale.toInt) ∧
      (10 : ℚ) ^ ((kept : Int) - 1) ≤ |(x.coefficient / 10 ^ dropped : ℚ)| ∧
      |(x.coefficient / 10 ^ dropped : ℚ)| < 10 ^ kept := by
  have hunit : (0 : ℚ) < 10 ^ dropped := by positivity
  obtain ⟨hlow, hhigh⟩ := abs_coefficient_bounds hx
  rw [← digits, hdigits, Nat.cast_add] at hlow hhigh
  rw [abs_div, abs_of_pos hunit]
  refine ⟨?_, ?_, ?_⟩
  · rw [value, valueOf, div_mul_eq_mul_div, eq_div_iff hunit.ne', mul_assoc, ← zpow_natCast,
      ten_zpow_mul (neg_add_eq_sub _ _)]
  · rw [le_div_iff₀ hunit, ← zpow_natCast, ten_zpow_mul (sub_add_eq_add_sub _ _ _)]
    exact hlow
  · rw [div_lt_iff₀ hunit, ← pow_add]
    exact_mod_cast hhigh

/-- A number that is rounded to a precision is brought to it. -/
theorem brings_round {x y : Decimal} {precision : UInt32} {mode : Rounding}
    (h : x.round precision mode = .ok y) : mode.Brings precision x.value y.value := by
  unfold Rounding.Brings
  rcases round_cases h with ⟨hfits, rfl⟩ | ⟨dropped, quotient, hdropped, hpos, hdigits, hquotient,
    -, hvalue⟩
  · split
    · rfl
    · rename_i hrounded
      obtain ⟨hprecision, hnonzero⟩ := not_or.mp hrounded
      exact .refl mode hnonzero ⟨_, _, hfits.resolve_left hprecision, rfl⟩
  have hcoefficient : x.coefficient ≠ 0 := by
    intro hzero
    have hone := digits_of_coefficient_eq_zero hzero
    omega
  have hlimited : ¬ precision = 0 := by
    rintro rfl
    exact absurd hpos (by decide)
  rw [if_neg (not_or.mpr ⟨hlimited, mt value_eq_zero_iff.mp hcoefficient⟩)]
  rw [Rounding.divide_eq_ok_iff (by simp), Int.cast_natCast, cast_tenPow] at hquotient
  obtain ⟨hmoved, hlow, hhigh⟩ := moved_coefficient_bounds hcoefficient hdigits
  exact ⟨_, _, quotient, hmoved, hlow, hhigh, hquotient, by rw [hvalue, valueOf, neg_sub]⟩

/-- The representation of a number in at most so many digits whose scale is the nearest one to a
preferred scale: above it no zero is left to drop, and below it there is no digit left to append. -/
structure IsNearest (preferred : Int) (digits : Nat) (coefficient scale : Int) : Prop where
  digits_le : digitCount coefficient.natAbs ≤ digits
  no_zero_above : preferred < scale → coefficient % 10 ≠ 0
  no_digit_below : scale < preferred → digitCount coefficient.natAbs = digits

/-- Of two coefficients that stand for one number, the one at the higher scale is no nearer. -/
theorem IsNearest.scale_le {preferred a b s t : Int} {digits : Nat}
    (ha : IsNearest preferred digits a s) (hb : IsNearest preferred digits b t) (hzero : b ≠ 0)
    (hvalue : valueOf a s = valueOf b t) : t ≤ s := by
  by_contra hless
  obtain ⟨k, rfl, rfl⟩ := exists_padding_of_valueOf_eq hvalue (not_le.mp hless).le
  obtain ⟨j, rfl⟩ : ∃ j, k = j + 1 := ⟨k - 1, by omega⟩
  have hpadded :
      digitCount (a * (tenPow (j + 1) : Int)).natAbs = digitCount a.natAbs + (j + 1) := by
    rw [Int.natAbs_mul, Int.natAbs_natCast]
    exact digitCount_mul_tenPow (Int.natAbs_ne_zero.mpr (left_ne_zero_of_mul hzero)) _
  have hend : a * (tenPow (j + 1) : Int) % 10 = 0 := by
    rw [tenPow_succ, Nat.cast_mul, ← mul_assoc]
    exact Int.mul_emod_left _ _
  -- The zero at its end keeps the higher scale at the preferred one, so the lower one is below it.
  have hpreferred : ¬ preferred < s + (j + 1 : Nat) := fun habove => hb.no_zero_above habove hend
  have hfull := ha.no_digit_below (by omega)
  have hmost := hb.digits_le
  omega

/-- What is rounded to some digits has one nearest representation. -/
theorem IsNearest.unique {mode : Rounding} {preferred a b s t : Int} {digits : Nat} {v : ℚ}
    (hdigits : 0 < digits) (ha : mode.RoundsToDigits digits v (valueOf a s))
    (hb : mode.RoundsToDigits digits v (valueOf b t)) (hanear : IsNearest preferred digits a s)
    (hbnear : IsNearest preferred digits b t) : a = b ∧ s = t := by
  have hvalue := ha.unique hdigits hb
  have haZero : a ≠ 0 := by
    rintro rfl
    exact ha.ne_zero hdigits (by simp [valueOf])
  have hbZero : b ≠ 0 := by
    rintro rfl
    exact hb.ne_zero hdigits (by simp [valueOf])
  obtain rfl : s = t :=
    le_antisymm (hbnear.scale_le hanear haZero hvalue.symm) (hanear.scale_le hbnear hbZero hvalue)
  exact ⟨(valueOf_inj s).mp hvalue, rfl⟩

/-- Dropping zeros from a coefficient with all the digits leads to the nearest representation. -/
theorem isNearest_dropZeros {digits : Nat} {coefficient : Int} (scale preferred : Int)
    (h : digitCount coefficient.natAbs = digits) :
    IsNearest preferred digits (dropZeros coefficient scale preferred).1
      (dropZeros coefficient scale preferred).2 where
  digits_le := h ▸ digitCount_dropZeros_le coefficient scale preferred
  no_zero_above habove := by
    rcases dropZeros_stops coefficient scale preferred with hstop | hend
    · omega
    · exact hend
  no_digit_below hbelow := by
    have hscale : scale ≤ preferred := by
      by_contra habove
      have hstop := le_dropZeros_scale coefficient (not_le.mp habove).le
      omega
    rw [dropZeros_eq_self (.inl hscale), h]

/-- What a number comes out at when a mode rounds it to some digits: the nearest representation of
the rounded number, if its scale is in range; or, where the mode must not round and the number
cannot be written with these digits, nothing. -/
def IsRounded (mode : Rounding) (digits : Nat) (preferred : Int) (v : ℚ)
    (outcome : Except NumberError Decimal) : Prop :=
  (∃ coefficient scale : Int, mode.RoundsToDigits digits v (valueOf coefficient scale) ∧
      IsNearest preferred digits coefficient scale ∧ outcome = ofParts coefficient scale) ∨
    mode = .unnecessary ∧ ¬ HasDigits digits v ∧ outcome = .error .roundingNecessary

/-- A number comes out in one way only. -/
theorem IsRounded.unique {mode : Rounding} {digits : Nat} {preferred : Int} {v : ℚ}
    {first second : Except NumberError Decimal} (hdigits : 0 < digits)
    (hfirst : IsRounded mode digits preferred v first)
    (hsecond : IsRounded mode digits preferred v second) : first = second := by
  rcases hfirst with ⟨a, s, ha, hanear, rfl⟩ | ⟨rfl, hnone, rfl⟩
  · rcases hsecond with ⟨b, t, hb, hbnear, rfl⟩ | ⟨rfl, hnone, -⟩
    · obtain ⟨rfl, rfl⟩ := IsNearest.unique hdigits ha hb hanear hbnear
      rfl
    · exact absurd (ha.hasDigits hdigits) hnone
  · rcases hsecond with ⟨b, t, hb, -, -⟩ | ⟨-, -, rfl⟩
    · exact absurd (hb.hasDigits hdigits) hnone
    · rfl

/-- The quotient of two numbers is that of their coefficients at the preferred scale. -/
theorem value_div (x y : Decimal) :
    x.value / y.value = x.coefficient / y.coefficient * 10 ^ (-preferredScale x y) := by
  rw [value, value, valueOf, valueOf, mul_div_mul_comm, ← zpow_sub₀ (by norm_num), preferredScale]
  congr 2
  ring

/-- An integer of so many digits, or the power of ten that comes next, has the value of a
coefficient of just so many digits: the one from which a zero is dropped after a carry. -/
theorem exists_full_coefficient {α : Type} {quotient : Int} {digits : Nat} (scale : Int)
    (make : Int → Int → α) (hdigits : 0 < digits) (hlow : tenPow (digits - 1) ≤ quotient.natAbs)
    (hhigh : quotient.natAbs ≤ tenPow digits) :
    ∃ k s : Int, digitCount k.natAbs = digits ∧ s ≤ scale ∧ valueOf k s = valueOf quotient scale ∧
      (if digits < digitCount quotient.natAbs then make (quotient.tdiv 10) (scale - 1)
        else make quotient scale) = make k s := by
  have hreached := lt_digitCount_of_tenPow_le hlow
  split
  · rename_i hcarry
    have hdvd := ten_dvd_of_carry hdigits hhigh hcarry
    have hmost := digitCount_tdiv_ten hdigits hhigh
    refine ⟨quotient.tdiv 10, scale - 1, ?_, by omega, valueOf_tdiv_ten scale hdvd, rfl⟩
    obtain ⟨kept, rfl⟩ := hdvd
    rw [Int.mul_tdiv_cancel_left _ (by decide)] at hmost ⊢
    have hnonzero : kept.natAbs ≠ 0 := by
      rintro hzero
      rw [Int.natAbs_mul, hzero, mul_zero, digitCount_of_lt_ten (by decide)] at hcarry
      omega
    have hpadded := digitCount_mul_tenPow hnonzero 1
    rw [tenPow_succ, tenPow_zero, one_mul, mul_comm, show 10 = (10 : Int).natAbs from rfl,
      ← Int.natAbs_mul] at hpadded
    omega
  · exact ⟨quotient, scale, by omega, le_rfl, rfl, rfl⟩

section Divide

variable {x y : Decimal} {precision : UInt32}

/-- Where the first guess at the exponent fits its word, a quotient is rounded to the digits of the
precision and given its nearest representation, unless it would have to be rounded by the mode that
must not. -/
theorem divide_cases_of_guess_le (mode : Rounding) (hprecision : precision ≠ 0)
    (hx : x.coefficient ≠ 0) (hy : y.coefficient ≠ 0) (hxCount : x.digits ≤ digitLimit)
    (hguessCount : precision.toNat + y.digits ≤ digitLimit + x.digits) :
    IsRounded mode precision.toNat (preferredScale x y) (x.value / y.value)
      (x.divide y precision mode) := by
  have hpos := precision_pos hprecision
  obtain ⟨hwordLow, hwordHigh, hlow, hhigh⟩ := quotientShift_spec hx hy hpos hxCount hguessCount
  rw [divide, if_neg hprecision, if_neg (mt isZero_iff.mp hy), if_neg (mt isZero_iff.mp hx)]
  dsimp only
  generalize quotientShift x.coefficient y.coefficient precision.toNat = shift at *
  obtain ⟨hdivisor, hoperands⟩ := shiftedOperands_spec x.coefficient shift hy hwordLow hwordHigh
  have hvalue : x.value / y.value = x.coefficient / y.coefficient * 10 ^ shift *
      10 ^ (-(preferredScale x y + shift)) := by
    rw [value_div, mul_assoc, ten_zpow_mul (c := -preferredScale x y) (by ring)]
  generalize (x.coefficient / y.coefficient * 10 ^ shift : ℚ) = t at *
  cases hdivide : mode.divide (shiftedOperands x.coefficient y.coefficient shift).1
      (shiftedOperands x.coefficient y.coefficient shift).2 with
  | error error =>
    obtain ⟨rfl, rfl, hinteger⟩ := (Rounding.divide_eq_error_iff hdivisor).mp hdivide
    rw [hoperands] at hinteger
    refine .inr ⟨rfl, ?_, rfl⟩
    rintro ⟨n, exponent, hdigits, hn⟩
    have hmoved : t = n * 10 ^ (exponent + (preferredScale x y + shift)) := by
      rw [← ten_zpow_mul rfl, ← mul_assoc, ← hn, hvalue, mul_assoc,
        ten_zpow_mul (neg_add_cancel _), zpow_zero, mul_one]
    exact hinteger (exists_int_eq_of_digits hmoved hpos hdigits hlow)
  | ok quotient =>
    have hquotient : mode.roundRat? t = some quotient := by
      rw [← hoperands]
      exact (Rounding.divide_eq_ok_iff hdivisor).mp hdivide
    obtain ⟨hreached, hbounded⟩ :=
      Rounding.natAbs_bounds_of_roundRat? hpos hlow hhigh hquotient
    obtain ⟨k, s, hk, -, hkept, hreduced⟩ := exists_full_coefficient (preferredScale x y + shift)
      (reducedToward · · (preferredScale x y)) hpos hreached hbounded
    have hrounds : mode.RoundsToDigits precision.toNat (x.value / y.value) (valueOf k s) :=
      ⟨t, _, quotient, hvalue, hlow, hhigh, hquotient, hkept⟩
    have hnonzero : k ≠ 0 := by
      rintro rfl
      exact hrounds.ne_zero hpos (by simp [valueOf])
    refine .inl ⟨_, _, ?_, isNearest_dropZeros s (preferredScale x y) hk, ?_⟩
    · rwa [valueOf_dropZeros]
    · exact hreduced.trans (by rw [reducedToward, if_neg hnonzero])

/-- A quotient is rounded to the digits of the precision and given its nearest representation,
unless it would have to be rounded by the mode that must not. -/
theorem divide_cases_of_nonzero (mode : Rounding) (hprecision : precision ≠ 0)
    (hx : x.coefficient ≠ 0) (hy : y.coefficient ≠ 0) (hxCount : x.digits ≤ digitLimit)
    (hyCount : precision.toNat + y.digits ≤ digitLimit) :
    IsRounded mode precision.toNat (preferredScale x y) (x.value / y.value)
      (x.divide y precision mode) :=
  divide_cases_of_guess_le mode hprecision hx hy hxCount (Nat.le_add_right_of_le hyCount)

/-- Division by a number other than zero is correctly rounded. It returns just the nearest
representation of the quotient rounded to the digits of the precision, and fails in two cases only:
the quotient cannot be written with these digits and must not be rounded, or the scale of that
representation is out of range. -/
theorem divide_correctly_rounded (mode : Rounding) (hprecision : precision ≠ 0)
    (hx : x.coefficient ≠ 0) (hy : y.coefficient ≠ 0) (hxCount : x.digits ≤ digitLimit)
    (hyCount : precision.toNat + y.digits ≤ digitLimit) :
    (∀ q, x.divide y precision mode = .ok q ↔
      mode.RoundsToDigits precision.toNat (x.value / y.value) q.value ∧
        IsNearest (preferredScale x y) precision.toNat q.coefficient q.scale.toInt) ∧
    ∀ error, x.divide y precision mode = .error error ↔
      error = .roundingNecessary ∧ mode = .unnecessary ∧
          ¬ HasDigits precision.toNat (x.value / y.value) ∨
        error = .overflow ∧ ∃ coefficient scale : Int,
          mode.RoundsToDigits precision.toNat (x.value / y.value) (valueOf coefficient scale) ∧
            IsNearest (preferredScale x y) precision.toNat coefficient scale ∧
            ¬ (leastScale ≤ scale ∧ scale ≤ greatestScale) := by
  have hpos := precision_pos hprecision
  rcases divide_cases_of_nonzero mode hprecision hx hy hxCount hyCount with
    ⟨c, s, hrounds, hnearest, hdivide⟩ | ⟨rfl, hdigits, hdivide⟩ <;> rw [hdivide]
  · refine ⟨fun q => ⟨fun h => ?_, fun ⟨hq, hqNearest⟩ => ?_⟩, fun error => ?_⟩
    · obtain ⟨hcoefficient, hscale⟩ := ofParts_eq_ok_iff.mp h
      rw [value_of_ofParts h, hcoefficient, hscale]
      exact ⟨hrounds, hnearest⟩
    · exact ofParts_eq_ok_iff.mpr (IsNearest.unique hpos hq hrounds hqNearest hnearest)
    rw [ofParts_eq_error_iff]
    constructor
    · rintro ⟨rfl, hrange⟩
      exact .inr ⟨rfl, c, s, hrounds, hnearest, hrange⟩
    · rintro (⟨-, rfl, hnone⟩ | ⟨rfl, a, t, ha, hat, hrange⟩)
      · exact absurd (hrounds.hasDigits hpos) hnone
      · obtain ⟨rfl, rfl⟩ := IsNearest.unique hpos ha hrounds hat hnearest
        exact ⟨rfl, hrange⟩
  · refine ⟨fun q => iff_of_false (by simp) fun h => hdigits (h.1.hasDigits hpos), fun error => ?_⟩
    constructor
    · rintro ⟨⟩
      exact .inl ⟨rfl, rfl, hdigits⟩
    · rintro (⟨rfl, -, -⟩ | ⟨-, a, t, ha, -, -⟩)
      · rfl
      · exact absurd (ha.hasDigits hpos) hdigits

/-- Two thirds below zero have no end: rounded to four digits they are -0.6667, and without rounding
they are not to be had; 9999.5 carries into a fifth digit; and 1E-2147483647 divided by 30 has no
scale. -/
theorem divide_correctly_rounded_of_thirds :
    divide ⟨-2, 0⟩ ⟨3, 0⟩ 4 .halfEven = .ok ⟨-6667, 4⟩ ∧
      Rounding.halfEven.RoundsToDigits 4 (value ⟨-2, 0⟩ / value ⟨3, 0⟩) (value ⟨-6667, 4⟩) ∧
      divide ⟨-2, 0⟩ ⟨3, 0⟩ 4 .unnecessary = .error .roundingNecessary ∧
      ¬ HasDigits 4 (value ⟨-2, 0⟩ / value ⟨3, 0⟩) ∧
      divide ⟨99995, 1⟩ ⟨1, 0⟩ 4 .halfUp = .ok ⟨1000, -1⟩ ∧
      IsNearest (preferredScale ⟨99995, 1⟩ ⟨1, 0⟩) 4 1000 (-1) ∧
      divide ⟨1, 2147483647⟩ ⟨3, -1⟩ 4 .floor = .error .overflow ∧
      ∃ coefficient scale : Int,
        IsNearest (preferredScale ⟨1, 2147483647⟩ ⟨3, -1⟩) 4 coefficient scale ∧
          ¬ (leastScale ≤ scale ∧ scale ≤ greatestScale) := by
  have hprecision : (4 : UInt32) ≠ 0 := by decide
  have hthirds : divide ⟨-2, 0⟩ ⟨3, 0⟩ 4 .halfEven = .ok ⟨-6667, 4⟩ := by decide +kernel
  have hnone : divide ⟨-2, 0⟩ ⟨3, 0⟩ 4 .unnecessary = .error .roundingNecessary := by
    decide +kernel
  have hcarried : divide ⟨99995, 1⟩ ⟨1, 0⟩ 4 .halfUp = .ok ⟨1000, -1⟩ := by decide +kernel
  have hscale : divide ⟨1, 2147483647⟩ ⟨3, -1⟩ 4 .floor = .error .overflow := by decide +kernel
  obtain ⟨hok, -⟩ := divide_correctly_rounded (x := ⟨-2, 0⟩) (y := ⟨3, 0⟩) .halfEven
    hprecision (by decide) (by decide) (by decide +kernel) (by decide +kernel)
  obtain ⟨-, herror⟩ := divide_correctly_rounded (x := ⟨-2, 0⟩) (y := ⟨3, 0⟩) .unnecessary
    hprecision (by decide) (by decide) (by decide +kernel) (by decide +kernel)
  obtain ⟨hcarry, -⟩ := divide_correctly_rounded (x := ⟨99995, 1⟩) (y := ⟨1, 0⟩) .halfUp
    hprecision (by decide) (by decide) (by decide +kernel) (by decide +kernel)
  obtain ⟨-, hrange⟩ := divide_correctly_rounded (x := ⟨1, 2147483647⟩) (y := ⟨3, -1⟩)
    .floor hprecision (by decide) (by decide) (by decide +kernel) (by decide +kernel)
  refine ⟨hthirds, ((hok _).mp hthirds).1, hnone, ?_, hcarried, ((hcarry _).mp hcarried).2, hscale,
    ?_⟩
  · rcases (herror _).mp hnone with ⟨-, -, hdigits⟩ | ⟨hoverflow, -⟩
    · exact hdigits
    · cases hoverflow
  · rcases (hrange _).mp hscale with ⟨hnecessary, -⟩ | ⟨-, c, s, -, hnearest, hout⟩
    · cases hnecessary
    · exact ⟨c, s, hnearest, hout⟩

/-- A quotient by a number other than zero is brought to the precision and has no more digits, also
where the precision is unlimited, if the count of its places is held then. -/
theorem brings_divide {q : Decimal} (mode : Rounding) (hy : y.coefficient ≠ 0)
    (hxCount : precision ≠ 0 → x.digits ≤ digitLimit)
    (hyCount : precision ≠ 0 → precision.toNat + y.digits ≤ digitLimit)
    (hheld : precision = 0 → PlacesHeld x y) (h : x.divide y precision mode = .ok q) :
    mode.Brings precision (x.value / y.value) q.value ∧
      (precision = 0 ∨ q.digits ≤ precision.toNat) := by
  have hyValue : y.value ≠ 0 := mt value_eq_zero_iff.mp hy
  unfold Rounding.Brings
  by_cases hunlimited : precision = 0
  · rw [if_pos (.inl hunlimited), eq_div_iff hyValue]
    rw [divide, if_pos hunlimited] at h
    exact ⟨(value_divideExactly_iff h).mpr (hheld hunlimited), .inl hunlimited⟩
  by_cases hx : x.coefficient = 0
  · rw [divide_of_coefficient_eq_zero precision mode hx hy] at h
    cases h
    rw [value_eq_zero_iff.mpr hx, zero_div, if_pos (.inr rfl), value_eq_zero_iff]
    exact ⟨rfl, .inr ((digits_of_coefficient_eq_zero rfl).trans_le (precision_pos hunlimited))⟩
  rw [if_neg (not_or.mpr ⟨hunlimited, div_ne_zero (mt value_eq_zero_iff.mp hx) hyValue⟩)]
  rcases divide_cases_of_nonzero mode hunlimited hx hy (hxCount hunlimited) (hyCount hunlimited)
    with ⟨c, s, hrounds, hnearest, hdivide⟩ | ⟨-, -, hdivide⟩
  · rw [hdivide] at h
    rw [value_of_ofParts h, digits, (ofParts_eq_ok_iff.mp h).1]
    exact ⟨hrounds, .inr hnearest.digits_le⟩
  · rw [hdivide] at h
    cases h

/-- A mode that may round gives a quotient by a number other than zero a result, unless the nearest
representation of that has a scale out of range. -/
theorem divide_fails_only_at_scale {mode : Rounding} {error : NumberError}
    (hmode : mode ≠ .unnecessary) (hprecision : precision ≠ 0) (hy : y.coefficient ≠ 0)
    (hxCount : x.digits ≤ digitLimit) (hyCount : precision.toNat + y.digits ≤ digitLimit)
    (h : x.divide y precision mode = .error error) :
    error = .overflow ∧ ∃ coefficient scale : Int,
      mode.RoundsToDigits precision.toNat (x.value / y.value) (valueOf coefficient scale) ∧
        IsNearest (preferredScale x y) precision.toNat coefficient scale ∧
        ¬ (leastScale ≤ scale ∧ scale ≤ greatestScale) := by
  have hx : x.coefficient ≠ 0 := by
    intro hzero
    rw [divide_of_coefficient_eq_zero precision mode hzero hy] at h
    cases h
  rcases divide_cases_of_nonzero mode hprecision hx hy hxCount hyCount with
    ⟨c, s, hrounds, hnearest, hdivide⟩ | ⟨hmust, -, -⟩
  · rw [hdivide] at h
    obtain ⟨herror, hrange⟩ := ofParts_eq_error_iff.mp h
    exact ⟨herror, c, s, hrounds, hnearest, hrange⟩
  · exact absurd hmust hmode

end Divide

end Monetary.Decimal
