import Monetary.Proofs.Decimal.CorrectRounding
import Monetary.Proofs.Decimal.FactorWord

/-!
# Exact and rounded division agree

The exact quotient pads the dividend as far as the divisor needs it and no further. A rounded
division first finds the same number with as many digits as the precision and then drops zeros
toward the preferred scale. These are one representation: the first result has at least as many
digits as the exact quotient, so it is that quotient padded with zeros, and dropping stops exactly
there, because the exact quotient ends in a digit other than zero unless it is at the preferred
scale itself.

Where no padding suffices, moving the point is no help either, and the quotient is not to be had
without rounding at any precision.

The rounded division counts no factors. Where the exact division needs more places than its word can
count, the two part: what the exact division then returns is not the quotient, and the rounded
division that must not round never returns it.
-/

namespace Monetary.Decimal

/-- A coefficient that is padded with zeros is reduced to itself, if it has nothing to drop. -/
theorem reducedToward_of_padded {coefficient scale preferred : Int} (hcoefficient : coefficient ≠ 0)
    (hscale : preferred ≤ scale) (hend : scale ≤ preferred ∨ coefficient % 10 ≠ 0) (k : Nat) :
    reducedToward (coefficient * tenPow k) (scale + k) preferred = ofParts coefficient scale := by
  rw [reducedToward, if_neg (mul_ne_zero hcoefficient (by simp)),
    dropZeros_mul_tenPow coefficient hscale, dropZeros_eq_self hend]

/-- An exact quotient that is padded no further than needed does not end in zero. -/
theorem tdiv_mod_ten_ne_zero {dividend divisor : Int} {k : Nat} (hk : 0 < k)
    (hdvd : divisor ∣ dividend * tenPow k)
    (hleast : ∀ j, divisor ∣ dividend * tenPow j → k ≤ j) :
    (dividend * tenPow k).tdiv divisor % 10 ≠ 0 := by
  intro hzero
  obtain ⟨shorter, hshorter⟩ := Int.dvd_of_emod_eq_zero hzero
  obtain ⟨j, rfl⟩ : ∃ j, k = j + 1 := ⟨k - 1, by omega⟩
  have hproduct : shorter * divisor * 10 = dividend * tenPow j * 10 := by
    calc shorter * divisor * 10 = 10 * shorter * divisor := by ring
      _ = dividend * tenPow (j + 1) := by rw [← hshorter, Int.tdiv_mul_cancel hdvd]
      _ = dividend * tenPow j * 10 := by rw [tenPow_succ, Nat.cast_mul, ← mul_assoc]; rfl
  have hsooner : divisor ∣ dividend * tenPow j :=
    Dvd.intro_left shorter (mul_right_cancel₀ (by decide) hproduct)
  have := hleast j hsooner
  omega

/-- The exact quotient of numbers other than zero, if the count of its places is held, has the
preferred scale, or a higher one and then no zero at its end. -/
theorem divideExactly_scale {x y q : Decimal} (hx : x.coefficient ≠ 0) (hy : y.coefficient ≠ 0)
    (hheld : PlacesHeld x y) (h : x.divideExactly y = .ok q) :
    preferredScale x y ≤ q.scale.toInt ∧
      (q.scale.toInt ≤ preferredScale x y ∨ q.coefficient % 10 ≠ 0) := by
  rcases divideExactly_cases hx hy with ⟨k, -, hdvd, hleast, hquotient⟩ | ⟨hbeyond, -⟩ | ⟨-, hnone⟩
  · rw [hquotient] at h
    obtain ⟨hcoefficient, hscale⟩ := ofParts_eq_ok_iff.mp h
    refine ⟨by omega, ?_⟩
    rcases Nat.eq_zero_or_pos k with rfl | hk
    · exact .inl (by omega)
    · exact .inr (hcoefficient ▸ tdiv_mod_ten_ne_zero hk hdvd hleast)
  · exact absurd hheld hbeyond
  · rw [hnone] at h
    cases h

section Agreement

variable {x y q : Decimal} {precision : UInt32}

/-- An exact quotient that fits the precision, and whose count of places is held, is the result of
the rounded division in every mode. -/
theorem divide_of_divideExactly (mode : Rounding) (hprecision : precision ≠ 0)
    (hx : x.digits ≤ digitLimit) (hy : precision.toNat + y.digits ≤ digitLimit)
    (hheld : PlacesHeld x y) (h : x.divideExactly y = .ok q)
    (hdigits : q.digits ≤ precision.toNat) : x.divide y precision mode = .ok q := by
  have hproduct := (value_divideExactly_iff h).mpr hheld
  have hyZero := coefficient_ne_zero_of_divideExactly h
  by_cases hxZero : x.coefficient = 0
  · rw [divide_of_coefficient_eq_zero precision mode hxZero hyZero, ← h,
      ← divide_of_coefficient_eq_zero 0 mode hxZero hyZero, divide, if_pos rfl]
  obtain ⟨hpreferred, hend⟩ := divideExactly_scale hxZero hyZero hheld h
  have hqZero : q.coefficient ≠ 0 := by
    intro hzero
    rw [value_eq_zero_iff.mpr hzero, zero_mul, eq_comm, value_eq_zero_iff] at hproduct
    exact hxZero hproduct
  obtain ⟨k, shifted, hk, hvalue, hdivide⟩ := divide_of_exact_quotient mode hprecision hxZero
    hyZero hx hy hproduct hdigits
  have hkZero : k ≠ 0 := by
    rintro rfl
    rw [valueOf, Int.cast_zero, zero_mul, eq_comm, ← value, value_eq_zero_iff] at hvalue
    exact hqZero hvalue
  -- What division finds has at least the digits of the exact quotient, so it is padded.
  have hscale : q.scale.toInt ≤ shifted :=
    scale_le_of_digitCount_le hvalue.symm hkZero (hdigits.trans hk.ge)
  obtain ⟨j, rfl, rfl⟩ := exists_padding_of_valueOf_eq hvalue.symm hscale
  rw [hdivide, reducedToward_of_padded hqZero hpreferred hend]
  exact ofParts_eq_ok_iff.mpr ⟨rfl, rfl⟩

/-- If the rounded division that must not round returns what the exact division does, the count of
places is held. -/
theorem placesHeld_of_divide_unnecessary (hprecision : precision ≠ 0) (hx : x.digits ≤ digitLimit)
    (hy : precision.toNat + y.digits ≤ digitLimit) (h : x.divideExactly y = .ok q)
    (hsame : x.divide y precision .unnecessary = .ok q) : PlacesHeld x y := by
  have hyZero := coefficient_ne_zero_of_divideExactly h
  obtain ⟨hbrings, -⟩ := brings_divide .unnecessary hyZero (fun _ => hx) (fun _ => hy)
    (fun hunlimited => absurd hunlimited hprecision) hsame
  rw [← value_divideExactly_iff h, ← eq_div_iff (mt value_eq_zero_iff.mp hyZero)]
  exact hbrings.eq_of_unnecessary

/-- Where no padding of the dividend suffices, moving the point of either operand is no help. -/
theorem not_dvd_shiftedOperands {dividend divisor : Int}
    (h : ∀ k : Nat, ¬ divisor ∣ dividend * tenPow k) (shift : Int) :
    ¬ (shiftedOperands dividend divisor shift).2 ∣ (shiftedOperands dividend divisor shift).1 := by
  unfold shiftedOperands
  split
  · exact h _
  · intro hdvd
    have hundivided : divisor ∣ dividend := (Int.dvd_mul_right _ _).trans hdvd
    exact h 0 (hundivided.mul_right _)

/-- A quotient without an end is not to be had without rounding. -/
theorem divide_unnecessary_of_nonTerminating (hprecision : precision ≠ 0)
    (hx : x.digits ≤ digitLimit) (hy : precision.toNat + y.digits ≤ digitLimit)
    (h : x.divideExactly y = .error .nonTerminating) :
    x.divide y precision .unnecessary = .error .roundingNecessary := by
  have hyZero : y.coefficient ≠ 0 := by
    intro hzero
    rw [divideExactly, if_pos (isZero_iff.mpr hzero)] at h
    cases h
  have hxZero : x.coefficient ≠ 0 := by
    intro hzero
    rw [divideExactly_of_coefficient_eq_zero hzero hyZero] at h
    cases h
  have hnone : ∀ k : Nat, ¬ y.coefficient ∣ x.coefficient * tenPow k := by
    rcases divideExactly_cases hxZero hyZero with ⟨k, -, -, -, hquotient⟩ |
      ⟨-, -, k, -, hquotient⟩ | ⟨hnone, -⟩
    · exact absurd (eq_overflow_of_ofParts (hquotient.symm.trans h)) (by decide)
    · exact absurd (eq_overflow_of_ofParts (hquotient.symm.trans h)) (by decide)
    · exact hnone
  obtain ⟨hlow, hhigh, -, -⟩ :=
    quotientShift_spec hxZero hyZero (precision_pos hprecision) hx (Nat.le_add_right_of_le hy)
  obtain ⟨hdivisor, -⟩ := shiftedOperands_spec x.coefficient
    (quotientShift x.coefficient y.coefficient precision.toNat) hyZero hlow hhigh
  rw [divide, if_neg hprecision, if_neg (mt isZero_iff.mp hyZero),
    if_neg (mt isZero_iff.mp hxZero)]
  dsimp only
  rw [Rounding.divide_unnecessary_of_not_dvd hdivisor (not_dvd_shiftedOperands hnone _)]
  rfl

end Agreement

/-- What the exact division returns, if it fits the precision, is found by the rounded division in
every mode and in the very same representation exactly if a word holds the number of places that the
quotient needs. Where the exact quotient has no end, the rounded division that must not round has no
result. -/
theorem divide_agrees_iff_places_held {x y : Decimal} {precision : UInt32}
    (hprecision : precision ≠ 0) (hx : x.digits ≤ digitLimit)
    (hy : precision.toNat + y.digits ≤ digitLimit) :
    (∀ q, x.divideExactly y = .ok q → q.digits ≤ precision.toNat →
        ((∀ mode, x.divide y precision mode = .ok q) ↔ PlacesHeld x y)) ∧
      (x.divideExactly y = .error .nonTerminating →
        x.divide y precision .unnecessary = .error .roundingNecessary) := by
  refine ⟨fun q h hdigits => ⟨fun hsame => ?_, fun hheld mode => ?_⟩,
    divide_unnecessary_of_nonTerminating hprecision hx hy⟩
  · exact placesHeld_of_divide_unnecessary hprecision hx hy h (hsame .unnecessary)
  · exact divide_of_divideExactly mode hprecision hx hy hheld h hdigits

/-- The quotient of -3.0 and 1.6E+5 is -0.00001875, whose four digits are just as many as the
precision; a third has no end. -/
theorem divide_agrees_iff_places_held_of_four_digits :
    divideExactly ⟨-30, 1⟩ ⟨16, -4⟩ = .ok ⟨-1875, 8⟩ ∧
      (∀ mode, divide ⟨-30, 1⟩ ⟨16, -4⟩ 4 mode = .ok ⟨-1875, 8⟩) ∧
      divideExactly ⟨1, 0⟩ ⟨3, 0⟩ = .error .nonTerminating ∧
      divide ⟨1, 0⟩ ⟨3, 0⟩ 4 .unnecessary = .error .roundingNecessary := by
  have hprecision : (4 : UInt32) ≠ 0 := by decide
  have hexact : divideExactly ⟨-30, 1⟩ ⟨16, -4⟩ = .ok ⟨-1875, 8⟩ := by decide +kernel
  have hthird : divideExactly ⟨1, 0⟩ ⟨3, 0⟩ = .error .nonTerminating := by decide +kernel
  have hheld : PlacesHeld ⟨-30, 1⟩ ⟨16, -4⟩ := ⟨3, by decide, by decide⟩
  obtain ⟨hagree, -⟩ := divide_agrees_iff_places_held (x := ⟨-30, 1⟩) (y := ⟨16, -4⟩)
    hprecision (by decide +kernel) (by decide +kernel)
  obtain ⟨-, hnone⟩ := divide_agrees_iff_places_held (x := ⟨1, 0⟩) (y := ⟨3, 0⟩) hprecision
    (by decide +kernel) (by decide +kernel)
  exact ⟨hexact, (hagree _ hexact (by decide +kernel)).mpr hheld, hthird, hnone hthird⟩

/-- One divided exactly by the power of two with 2³² twos is returned as zero, while the rounded
division returns zero in no mode. -/
theorem exact_quotient_lost_of_many_twos :
    ∃ (x y q : Decimal) (precision : UInt32), precision ≠ 0 ∧ x.digits ≤ digitLimit ∧
      precision.toNat + y.digits ≤ digitLimit ∧ y.coefficient ≠ 0 ∧
      x.divideExactly y = .ok q ∧ q.value = 0 ∧ q.digits ≤ precision.toNat ∧
      ∀ mode, x.divide y precision mode ≠ .ok q := by
  have hdivisor := powerOfTwo_coefficient_ne_zero 4294967296 0
  have hone : one.digits ≤ digitLimit := by decide +kernel
  have hcount : (1 : UInt32).toNat + (powerOfTwo 4294967296 0).digits ≤ digitLimit := by
    have hdigits : (powerOfTwo 4294967296 0).digits ≤ 1431655766 := digits_powerOfTwo_le (by decide)
    rw [show (1 : UInt32).toNat = 1 from rfl, show digitLimit = 4294967295 from rfl]
    omega
  refine ⟨one, powerOfTwo 4294967296 0, zero, 1, by decide, hone, hcount, hdivisor,
    divideExactly_powerOfTwo rfl (by decide), value_zero, by decide +kernel, fun mode hsame => ?_⟩
  obtain ⟨hbrings, -⟩ := brings_divide mode hdivisor (fun _ => hone) (fun _ => hcount)
    (fun hunlimited => absurd hunlimited (by decide)) hsame
  refine hbrings.ne_zero (div_ne_zero ?_ (mt value_eq_zero_iff.mp hdivisor)) value_zero
  rw [value_one]
  exact one_ne_zero

end Monetary.Decimal
