import Monetary.Proofs.Decimal.ExactDivision

/-!
# Exact quotients and finite expansions

The exact quotient exists if and only if its decimal expansion is finite, and is returned at the
least scale, from the preferred one on, at which it has an integer coefficient: these scales are the
ones whose zeros make the dividend divisible, so that the one which the factors of the divisor tell
is the least of them. In particular a product divided by one factor is the other factor itself, in
its own representation, because its scale is then the preferred one.

This asks for a number of places that a 32-bit word can hold. A divisor of at most `bitLimit` binary
digits has no more factors than that, and neither has a factor of the dividend, of which nothing is
left. The loops that count the factors would run forever on zero, which what is left of the divisor
never is.
-/

namespace Monetary.Decimal

/-- A number whose decimal expansion is finite: some digits after the point are enough. -/
def IsTerminating (v : ℚ) : Prop :=
  ∃ (places : Nat) (n : Int), v * 10 ^ places = n

/-- An expansion is finite exactly if there is a scale at which the number has an integer
coefficient, wherever the scales that count begin. -/
theorem isTerminating_iff_nonempty (least : Int) (v : ℚ) :
    IsTerminating v ↔ (scalesFrom least v).Nonempty := by
  constructor
  · rintro ⟨places, n, hn⟩
    obtain ⟨gap, hgap⟩ := Int.eq_ofNat_of_zero_le
      (sub_nonneg.mpr (le_max_left (places : Int) least))
    refine ⟨places + gap, by omega, n * tenPow gap, ?_⟩
    rw [valueOf_mul_tenPow, valueOf, ← hn, mul_assoc, ← zpow_natCast,
      ten_zpow_mul (add_neg_cancel _), zpow_zero, mul_one]
  · rintro ⟨scale, -, coefficient, rfl⟩
    obtain ⟨n, hn⟩ :=
      exists_int_eq_valueOf coefficient (by omega : scale - (scale.toNat : Int) ≤ 0)
    refine ⟨scale.toNat, n, ?_⟩
    rw [← hn, valueOf, valueOf, mul_assoc, ← zpow_natCast, ten_zpow_mul (neg_add_eq_sub _ _),
      neg_sub]

variable {x y : Decimal}

/-- The quotient of two numbers at a scale so many places beyond the preferred one. -/
theorem valueOf_eq_quotient_iff (hy : y.coefficient ≠ 0) {coefficient : Int} {k : Nat} :
    valueOf coefficient (preferredScale x y + k) = x.value / y.value ↔
      coefficient * y.coefficient = x.coefficient * tenPow k := by
  rw [eq_div_iff (mt value_eq_zero_iff.mp hy), valueOf_mul_eq_iff]

/-- A quotient has an integer coefficient at the scales whose zeros make the dividend divisible. -/
theorem mem_scalesFrom_quotient_iff (hy : y.coefficient ≠ 0) {scale : Int} :
    scale ∈ scalesFrom (preferredScale x y) (x.value / y.value) ↔
      ∃ k : Nat, scale = preferredScale x y + k ∧ y.coefficient ∣ x.coefficient * tenPow k := by
  constructor
  · rintro ⟨hscale, coefficient, hvalue⟩
    obtain ⟨k, hk⟩ := Int.eq_ofNat_of_zero_le (sub_nonneg.mpr hscale)
    obtain rfl : scale = preferredScale x y + k := by omega
    exact ⟨k, rfl, Dvd.intro_left _ ((valueOf_eq_quotient_iff hy).mp hvalue)⟩
  · rintro ⟨k, rfl, coefficient, hdvd⟩
    exact ⟨by omega, coefficient, (valueOf_eq_quotient_iff hy).mpr (by rw [hdvd, mul_comm])⟩

/-- A quotient has an end exactly if some number of zeros makes the dividend divisible. -/
theorem isTerminating_iff_exists_dvd (hy : y.coefficient ≠ 0) :
    IsTerminating (x.value / y.value) ↔ ∃ k : Nat, y.coefficient ∣ x.coefficient * tenPow k := by
  rw [isTerminating_iff_nonempty (preferredScale x y)]
  constructor
  · rintro ⟨scale, hscale⟩
    obtain ⟨k, -, hdvd⟩ := (mem_scalesFrom_quotient_iff hy).mp hscale
    exact ⟨k, hdvd⟩
  · rintro ⟨k, hdvd⟩
    exact ⟨_, (mem_scalesFrom_quotient_iff hy).mpr ⟨k, rfl, hdvd⟩⟩

/-- The exact quotient of numbers other than zero has its value and the least scale that can hold
it, unless its expansion has no end or the count of its places is not held. -/
theorem divideExactly_cases_of_nonzero (hx : x.coefficient ≠ 0) (hy : y.coefficient ≠ 0) :
    (∃ coefficient scale : Int, valueOf coefficient scale = x.value / y.value ∧
        IsLeast (scalesFrom (preferredScale x y) (x.value / y.value)) scale ∧
        x.divideExactly y = ofParts coefficient scale) ∨
      (¬ PlacesHeld x y ∧ IsTerminating (x.value / y.value) ∧
        ∃ coefficient scale : Int, x.divideExactly y = ofParts coefficient scale) ∨
      ¬ IsTerminating (x.value / y.value) ∧ x.divideExactly y = .error .nonTerminating := by
  rcases divideExactly_cases hx hy with ⟨k, -, hdvd, hleast, hquotient⟩ |
    ⟨hbeyond, hterminating, k, -, hquotient⟩ | ⟨hnone, hfails⟩
  · refine .inl ⟨_, _, (valueOf_eq_quotient_iff hy).mpr (Int.tdiv_mul_cancel hdvd), ⟨?_, ?_⟩,
      hquotient⟩
    · exact (mem_scalesFrom_quotient_iff hy).mpr ⟨k, rfl, hdvd⟩
    · intro scale hscale
      obtain ⟨j, rfl, hj⟩ := (mem_scalesFrom_quotient_iff hy).mp hscale
      have hfewer := hleast j hj
      omega
  · exact .inr (.inl ⟨hbeyond, (isTerminating_iff_exists_dvd hy).mpr hterminating, _, _, hquotient⟩)
  · refine .inr (.inr ⟨?_, hfails⟩)
    rw [isTerminating_iff_exists_dvd hy, not_exists]
    exact hnone

/-- The exact quotient by a number other than zero is found, unless its expansion has no end or the
least scale that can hold it is out of range. Where the count of its places is not held, the scale
out of range is another one. -/
theorem divideExactly_fails_only {error : NumberError} (hy : y.coefficient ≠ 0)
    (h : x.divideExactly y = .error error) :
    error = .nonTerminating ∧ ¬ IsTerminating (x.value / y.value) ∨
      error = .overflow ∧ IsTerminating (x.value / y.value) ∧ (PlacesHeld x y → ∃ scale,
        IsLeast (scalesFrom (preferredScale x y) (x.value / y.value)) scale ∧
          ¬ (leastScale ≤ scale ∧ scale ≤ greatestScale)) := by
  have hx : x.coefficient ≠ 0 := by
    intro hzero
    rw [divideExactly_of_coefficient_eq_zero hzero hy] at h
    cases h
  rcases divideExactly_cases_of_nonzero hx hy with ⟨c, s, -, hleast, hdivide⟩ |
    ⟨hbeyond, hterminating, c, s, hdivide⟩ | ⟨hnone, hdivide⟩
  · rw [hdivide] at h
    obtain ⟨herror, hrange⟩ := ofParts_eq_error_iff.mp h
    exact .inr ⟨herror, (isTerminating_iff_nonempty _ _).mpr ⟨s, hleast.1⟩,
      fun _ => ⟨s, hleast, hrange⟩⟩
  · exact .inr ⟨eq_overflow_of_ofParts (hdivide.symm.trans h), hterminating,
      fun hheld => absurd hheld hbeyond⟩
  · rw [hdivide] at h
    cases h
    exact .inl ⟨rfl, hnone⟩

/-- A quotient without an end is not found. -/
theorem divideExactly_of_not_terminating (hy : y.coefficient ≠ 0)
    (h : ¬ IsTerminating (x.value / y.value)) : x.divideExactly y = .error .nonTerminating := by
  have hx : x.coefficient ≠ 0 := by
    intro hzero
    exact h ⟨0, 0, by rw [value_eq_zero_iff.mpr hzero]; simp⟩
  rcases divideExactly_cases_of_nonzero hx hy with
    ⟨c, s, -, hleast, -⟩ | ⟨-, hterminating, -⟩ | ⟨-, hfails⟩
  · exact absurd ((isTerminating_iff_nonempty _ _).mpr ⟨s, hleast.1⟩) h
  · exact absurd hterminating h
  · exact hfails

/-- A factor of a product needs no places beyond the preferred scale. -/
theorem placesHeld_of_mul {w : Decimal} (h : w.mul y = .ok x) : PlacesHeld x y :=
  ⟨0, by decide, (Dvd.intro_left _ (ofParts_eq_ok_iff.mp h).1.symm).mul_right _⟩

/-- A product divided by one factor is the other one, in its own representation. -/
theorem divideExactly_of_mul {w : Decimal} (hy : y.coefficient ≠ 0) (h : w.mul y = .ok x) :
    x.divideExactly y = .ok w := by
  obtain ⟨hcoefficient, hscale⟩ := ofParts_eq_ok_iff.mp h
  have hpreferred : preferredScale x y = w.scale.toInt := by
    rw [preferredScale, hscale, add_sub_cancel_right]
  by_cases hw : w.coefficient = 0
  · rw [divideExactly_of_coefficient_eq_zero (by rw [hcoefficient, hw, zero_mul]) hy, hpreferred,
      clampScale_toInt, ← hw]
  have hx : x.coefficient ≠ 0 := hcoefficient ▸ mul_ne_zero hw hy
  have hquotient : w.value = x.value / y.value := by
    rw [eq_div_iff (mt value_eq_zero_iff.mp hy), value_mul h]
  have hfirst : IsLeast (scalesFrom (preferredScale x y) (x.value / y.value)) w.scale.toInt := by
    rw [hpreferred, ← hquotient]
    exact isLeast_valueOf _ _
  rcases divideExactly_cases_of_nonzero hx hy with ⟨c, s, hvalue, hleast, hdivide⟩ |
    ⟨hbeyond, -⟩ | ⟨hnone, -⟩
  · obtain rfl : s = w.scale.toInt := hleast.unique hfirst
    rw [hdivide]
    exact ofParts_eq_ok_iff.mpr ⟨(valueOf_inj _).mp (hquotient.trans hvalue.symm), rfl⟩
  · exact absurd (placesHeld_of_mul h) hbeyond
  · exact absurd ((isTerminating_iff_nonempty _ _).mpr ⟨_, hfirst.1⟩) hnone

/-- The number of binary digits up to which the factors of a number are sure to fit a 32-bit
word. -/
def bitLimit : Nat := 2147483648

/-- The loops on a divisor of at most `bitLimit` binary digits go round fewer times than that. -/
theorem times_lt_bitLimit {twos odd fives rest : Nat} (hy : y.coefficient ≠ 0)
    (htwos : DividesOut 2 (reducedDivisor x y) twos odd) (hfives : DividesOut 5 odd fives rest)
    (hbits : y.coefficient.natAbs < 2 ^ bitLimit) : twos < bitLimit ∧ fives < bitLimit := by
  have hfew : reducedDivisor x y < 2 ^ bitLimit := (Nat.div_le_self _ _).trans_lt hbits
  have hless : odd ≤ reducedDivisor x y := Nat.le_of_dvd (reducedDivisor_pos x hy) htwos.rest_dvd
  exact ⟨htwos.times_lt Nat.one_lt_two hfew, hfives.times_lt (by decide) (hless.trans_lt hfew)⟩

/-- By a divisor of at most `bitLimit` binary digits a quotient with an end needs no more places
than a word can hold. -/
theorem placesHeld_of_lt (hy : y.coefficient ≠ 0) (hbits : y.coefficient.natAbs < 2 ^ bitLimit)
    (h : IsTerminating (x.value / y.value)) : PlacesHeld x y := by
  by_cases hx : x.coefficient = 0
  · exact placesHeld_of_coefficient_eq_zero hx
  obtain ⟨k, hdvd⟩ := (isTerminating_iff_exists_dvd hy).mp h
  obtain ⟨twos, odd, fives, rest, htwos, hfives, -⟩ := exists_dividesOut_divideExactly hx hy
  have hone := rest_eq_one_of_dvd_tenPow htwos hfives ((dvd_mul_tenPow_iff hy).mp hdvd)
  obtain ⟨htwosLess, hfivesLess⟩ := times_lt_bitLimit hy htwos hfives hbits
  unfold bitLimit at htwosLess hfivesLess
  exact ⟨max twos fives, by omega,
    (dvd_mul_tenPow_iff hy).mpr (dvd_tenPow_of_rest_eq_one htwos hfives hone)⟩

/-- By such a divisor a quotient that is returned needs no more places than a word can hold. -/
theorem placesHeld_of_divideExactly {q : Decimal} (hbits : y.coefficient.natAbs < 2 ^ bitLimit)
    (h : x.divideExactly y = .ok q) : PlacesHeld x y := by
  have hy := coefficient_ne_zero_of_divideExactly h
  refine placesHeld_of_lt hy hbits ?_
  by_contra hnone
  rw [divideExactly_of_not_terminating hy hnone] at h
  cases h

/-- Exact division by a number other than zero returns the quotient at the least scale, from the
preferred one on, at which it has an integer coefficient, if there is such a scale and it is in
range: for every divisor of at most `bitLimit` binary digits, and for any other one where a word
holds the number of places. It returns zero at the preferred scale where the dividend is zero, and
gives the first factor of a product back. Both loops that count factors end; the words keep what
they can of the counts, and for such a divisor all of it. -/
theorem divideExactly_finds_least_scale (x : Decimal) (hy : y.coefficient ≠ 0) :
    (x.coefficient = 0 → x.divideExactly y = .ok ⟨0, clampScale (preferredScale x y)⟩) ∧
      (x.coefficient ≠ 0 → IsTerminating (x.value / y.value) →
        y.coefficient.natAbs < 2 ^ bitLimit ∨ PlacesHeld x y →
        ∃ scale, IsLeast (scalesFrom (preferredScale x y) (x.value / y.value)) scale ∧
          (leastScale ≤ scale ∧ scale ≤ greatestScale →
            ∃ q, x.divideExactly y = .ok q ∧ q.value * y.value = x.value ∧
              q.scale.toInt = scale) ∧
          (¬ (leastScale ≤ scale ∧ scale ≤ greatestScale) →
            x.divideExactly y = .error .overflow)) ∧
      (¬ IsTerminating (x.value / y.value) → x.divideExactly y = .error .nonTerminating) ∧
      (∀ w, w.mul y = .ok x → x.divideExactly y = .ok w) ∧
      ∃ i odd j rest, DividesOut 2 (reducedDivisor x y) i odd ∧ DividesOut 5 odd j rest ∧
        factorOut 2 (reducedDivisor x y) = (UInt32.ofNat i, odd) ∧
        factorOut 5 odd = (UInt32.ofNat j, rest) ∧
        (y.coefficient.natAbs < 2 ^ bitLimit → i < bitLimit ∧ j < bitLimit) := by
  have hyValue : y.value ≠ 0 := mt value_eq_zero_iff.mp hy
  refine ⟨fun hx => divideExactly_of_coefficient_eq_zero hx hy, fun hx hterminating hbounded => ?_,
    divideExactly_of_not_terminating hy, fun w => divideExactly_of_mul hy, ?_⟩
  · have hheld : PlacesHeld x y :=
      hbounded.elim (fun hbits => placesHeld_of_lt hy hbits hterminating) id
    rcases divideExactly_cases_of_nonzero hx hy with
      ⟨c, s, hvalue, hleast, hdivide⟩ | ⟨hbeyond, -⟩ | ⟨hnone, -⟩
    · refine ⟨s, hleast, fun ⟨hlow, hhigh⟩ => ?_, fun hrange => ?_⟩
      · obtain ⟨q, hq⟩ := exists_ofParts_eq_ok c hlow hhigh
        refine ⟨q, hdivide.trans hq, ?_, (ofParts_eq_ok_iff.mp hq).2⟩
        rw [value_of_ofParts hq, hvalue, div_mul_cancel₀ _ hyValue]
      · exact hdivide.trans (ofParts_eq_error_iff.mpr ⟨rfl, hrange⟩)
    · exact absurd hheld hbeyond
    · exact absurd hterminating hnone
  · obtain ⟨i, htwos, hi⟩ := dividesOut_factorOut Nat.one_lt_two (reducedDivisor_pos x hy)
    obtain ⟨j, hfives, hj⟩ := dividesOut_factorOut (by decide : 1 < 5) htwos.rest_pos
    exact ⟨i, _, j, _, htwos, hfives, by rw [← hi], by rw [← hj],
      times_lt_bitLimit hy htwos hfives⟩

/-- -0.7 divided by 56 has an end at the fourth place, and a third has none; 2.50E+3 is a factor of
-100.0 in just this representation. -/
theorem divideExactly_finds_least_scale_of_fourth_place :
    divideExactly ⟨-7, 1⟩ ⟨56, 0⟩ = .ok ⟨-125, 4⟩ ∧
      IsLeast (scalesFrom 1 (value ⟨-7, 1⟩ / value ⟨56, 0⟩)) 4 ∧
      divideExactly ⟨1, 0⟩ ⟨3, 0⟩ = .error .nonTerminating ∧
      ¬ IsTerminating (value ⟨1, 0⟩ / value ⟨3, 0⟩) ∧
      mul ⟨250, -1⟩ ⟨-4, 2⟩ = .ok ⟨-1000, 1⟩ ∧
      divideExactly ⟨-1000, 1⟩ ⟨-4, 2⟩ = .ok ⟨250, -1⟩ := by
  have hsmall (n : Nat) (hn : n ≤ bitLimit) : n < 2 ^ bitLimit :=
    Nat.lt_two_pow_self.trans_le (Nat.pow_le_pow_right Nat.two_pos hn)
  have hplace : divideExactly ⟨-7, 1⟩ ⟨56, 0⟩ = .ok ⟨-125, 4⟩ := by decide +kernel
  have hthird : divideExactly ⟨1, 0⟩ ⟨3, 0⟩ = .error .nonTerminating := by decide +kernel
  have hproduct : mul ⟨250, -1⟩ ⟨-4, 2⟩ = .ok ⟨-1000, 1⟩ := by decide +kernel
  obtain ⟨-, hfound, hendless, -⟩ :=
    divideExactly_finds_least_scale ⟨-7, 1⟩ (y := ⟨56, 0⟩) (by decide)
  obtain ⟨-, hthirdFound, -⟩ := divideExactly_finds_least_scale ⟨1, 0⟩ (y := ⟨3, 0⟩) (by decide)
  obtain ⟨-, -, -, hfactor, -⟩ :=
    divideExactly_finds_least_scale ⟨-1000, 1⟩ (y := ⟨-4, 2⟩) (by decide)
  refine ⟨hplace, ?_, hthird, ?_, hproduct, hfactor _ hproduct⟩
  · have hterminating : IsTerminating (value ⟨-7, 1⟩ / value ⟨56, 0⟩) := by
      by_contra hnone
      exact nomatch hplace.symm.trans (hendless hnone)
    obtain ⟨scale, hleast, hok, hout⟩ :=
      hfound (by decide) hterminating (.inl (hsmall _ (by decide)))
    by_cases hrange : leastScale ≤ scale ∧ scale ≤ greatestScale
    · obtain ⟨q, hq, -, hscale⟩ := hok hrange
      cases hplace.symm.trans hq
      cases hscale
      exact hleast
    · exact nomatch hplace.symm.trans (hout hrange)
  · intro hterminating
    obtain ⟨scale, -, hok, hout⟩ :=
      hthirdFound (by decide) hterminating (.inl (hsmall _ (by decide)))
    by_cases hrange : leastScale ≤ scale ∧ scale ≤ greatestScale
    · obtain ⟨q, hq, -⟩ := hok hrange
      exact nomatch hthird.symm.trans hq
    · exact nomatch hthird.symm.trans (hout hrange)

end Monetary.Decimal
