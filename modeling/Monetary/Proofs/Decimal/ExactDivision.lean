import Monetary.Decimal.Division
import Monetary.Proofs.Decimal.TrailingZeros
import Monetary.Proofs.Result
import Mathlib.Data.Nat.GCD.Basic
import Mathlib.Data.Nat.Prime.Basic

/-!
# Exact division

The exact quotient exists if the divisor, with what it has in common with the dividend taken out,
divides a power of ten. Two loops find this out: they take the twos and the fives out of the
divisor, and what is left of a divisor of a power of ten is one. The dividend is then padded with as
many zeros as the loops went round, and divides evenly.

The passes of the loops are counted in 32-bit words, which start again at zero after 2³² passes.
Where the quotient needs that many places, the dividend is padded with too few zeros, and what is
returned is not the quotient.
-/

namespace Monetary.Decimal

/-- The only fault of a coefficient at a scale is that the scale is out of range. -/
theorem eq_overflow_of_ofParts {coefficient scale : Int} {error : NumberError}
    (h : ofParts coefficient scale = .error error) : error = .overflow := by
  unfold ofParts checkScale at h
  split at h
  · cases h
  · cases h
    rfl

/-- The loop that divides a number by a factor as long as nothing is left over: how often it does so
and what remains. -/
inductive DividesOut (factor : Nat) : Nat → Nat → Nat → Prop
  | stop {n : Nat} (h : ¬ factor ∣ n) : DividesOut factor n 0 n
  | next {n times rest : Nat} (h : factor ∣ n) (hrest : DividesOut factor (n / factor) times rest) :
      DividesOut factor n (times + 1) rest

namespace DividesOut

variable {factor n times rest : Nat}

/-- The loop does not end on zero. -/
theorem pos (h : DividesOut factor n times rest) : 0 < n := by
  induction h with
  | stop h => exact Nat.pos_of_ne_zero fun hzero => h (hzero ▸ Nat.dvd_zero _)
  | next h hrest ih => exact Nat.pos_of_div_pos ih

/-- A number is what remains times a power of the factor. -/
theorem eq_pow_mul (h : DividesOut factor n times rest) : n = factor ^ times * rest := by
  induction h with
  | stop h => simp
  | next h hrest ih => rw [pow_succ', mul_assoc, ← ih, Nat.mul_div_cancel' h]

/-- What remains is not divided by the factor any more. -/
theorem not_dvd (h : DividesOut factor n times rest) : ¬ factor ∣ rest := by
  induction h with
  | stop h => exact h
  | next h hrest ih => exact ih

/-- What remains divides the number. -/
theorem rest_dvd (h : DividesOut factor n times rest) : rest ∣ n :=
  Dvd.intro_left _ h.eq_pow_mul.symm

/-- What remains is not zero. -/
theorem rest_pos (h : DividesOut factor n times rest) : 0 < rest :=
  Nat.pos_of_dvd_of_pos h.rest_dvd h.pos

/-- A number has fewer factors above one than binary digits. -/
theorem times_lt {bits : Nat} (h : DividesOut factor n times rest) (hfactor : 1 < factor)
    (hn : n < 2 ^ bits) : times < bits := by
  have hpower : 2 ^ times ≤ n :=
    calc 2 ^ times ≤ factor ^ times := Nat.pow_le_pow_left hfactor times
      _ ≤ factor ^ times * rest := Nat.le_mul_of_pos_right _ h.rest_pos
      _ = n := h.eq_pow_mul.symm
  exact (Nat.pow_lt_pow_iff_right Nat.one_lt_two).mp (hpower.trans_lt hn)

end DividesOut

/-- On a number above zero the loop ends. What is modelled is what then remains, and what the word
keeps of the count. -/
theorem dividesOut_factorOut {factor n : Nat} (hfactor : 1 < factor) (hn : 0 < n) :
    ∃ times, DividesOut factor n times (factorOut factor n).2 ∧
      (factorOut factor n).1 = UInt32.ofNat times := by
  fun_induction factorOut factor n with
  | case1 n hdivides times rest hrest ih =>
    have hdvd : factor ∣ n := Nat.dvd_of_mod_eq_zero hdivides.2.2
    obtain ⟨count, hended, hcount⟩ := ih (Nat.div_pos (Nat.le_of_dvd hn hdvd) (by omega))
    rw [hrest] at hended hcount
    refine ⟨count + 1, .next hdvd hended, ?_⟩
    rw [UInt32.ofNat_add, ← hcount]
    rfl
  | case2 n hdivides =>
    exact ⟨0, .stop fun hdvd => hdivides ⟨hfactor, hn, Nat.mod_eq_zero_of_dvd hdvd⟩, rfl⟩

/-- Two words keep the larger one of two counts below 2³². -/
theorem toNat_max_ofNat {m n : Nat} (h : max m n < 4294967296) :
    (max (UInt32.ofNat m) (UInt32.ofNat n)).toNat = max m n := by
  obtain ⟨hm, hn⟩ := Nat.max_lt.mp h
  have hword : max (UInt32.ofNat m) (UInt32.ofNat n) =
      if UInt32.ofNat m ≤ UInt32.ofNat n then UInt32.ofNat n else UInt32.ofNat m := rfl
  simp only [hword, UInt32.ofNat_le_iff_le hm hn, Nat.max_def, apply_ite UInt32.toNat,
    UInt32.toNat_ofNat_of_lt' hm, UInt32.toNat_ofNat_of_lt' hn]

/-- A power of ten is made of twos and fives. -/
theorem tenPow_eq_two_pow_mul_five_pow (exponent : Nat) :
    tenPow exponent = 2 ^ exponent * 5 ^ exponent := by
  rw [← Nat.mul_pow]
  rfl

/-- What is left of a divisor of a power of ten without its twos and fives is one. -/
theorem eq_one_of_dvd_tenPow {n exponent : Nat} (h : n ∣ tenPow exponent) (htwo : ¬ 2 ∣ n)
    (hfive : ¬ 5 ∣ n) : n = 1 := by
  have htwos : Nat.Coprime n (2 ^ exponent) :=
    (((Nat.Prime.coprime_iff_not_dvd Nat.prime_two).mpr htwo).symm).pow_right exponent
  have hfives : Nat.Coprime n (5 ^ exponent) :=
    (((Nat.Prime.coprime_iff_not_dvd Nat.prime_five).mpr hfive).symm).pow_right exponent
  rw [tenPow_eq_two_pow_mul_five_pow] at h
  exact (htwos.mul_right hfives).eq_one_of_dvd h

/-- Twos and fives alone divide the power of ten with the larger of their exponents. -/
theorem two_pow_mul_five_pow_dvd (twos fives : Nat) :
    2 ^ twos * 5 ^ fives ∣ tenPow (max twos fives) := by
  rw [tenPow_eq_two_pow_mul_five_pow]
  exact Nat.mul_dvd_mul (Nat.pow_dvd_pow 2 (Nat.le_max_left _ _))
    (Nat.pow_dvd_pow 5 (Nat.le_max_right _ _))

/-- A power of ten has no more twos than its exponent says. -/
theorem le_of_two_pow_dvd_tenPow {twos k : Nat} (h : 2 ^ twos ∣ tenPow k) : twos ≤ k := by
  rw [tenPow_eq_two_pow_mul_five_pow] at h
  have hcoprime : Nat.Coprime (2 ^ twos) (5 ^ k) := Nat.Coprime.pow twos k (by decide)
  exact (Nat.pow_dvd_pow_iff_le_right (by decide)).mp (hcoprime.dvd_of_dvd_mul_right h)

/-- A power of ten has no more fives than its exponent says. -/
theorem le_of_five_pow_dvd_tenPow {fives k : Nat} (h : 5 ^ fives ∣ tenPow k) : fives ≤ k := by
  rw [tenPow_eq_two_pow_mul_five_pow] at h
  have hcoprime : Nat.Coprime (5 ^ fives) (2 ^ k) := Nat.Coprime.pow fives k (by decide)
  exact (Nat.pow_dvd_pow_iff_le_right (by decide)).mp (hcoprime.dvd_of_dvd_mul_left h)

section Factors

variable {n odd rest twos fives k : Nat} (htwos : DividesOut 2 n twos odd)
  (hfives : DividesOut 5 odd fives rest)

include htwos hfives

/-- Taking out the twos and the fives tells the least power of ten that is divided. -/
theorem max_times_le_of_dvd_tenPow (h : n ∣ tenPow k) : max twos fives ≤ k := by
  have htwo : 2 ^ twos ∣ n := Dvd.intro _ htwos.eq_pow_mul.symm
  have hfive : 5 ^ fives ∣ n := (Dvd.intro _ hfives.eq_pow_mul.symm).trans htwos.rest_dvd
  exact Nat.max_le.mpr
    ⟨le_of_two_pow_dvd_tenPow (htwo.trans h), le_of_five_pow_dvd_tenPow (hfive.trans h)⟩

/-- Of a divisor of a power of ten nothing but one is left without twos and fives. -/
theorem rest_eq_one_of_dvd_tenPow (h : n ∣ tenPow k) : rest = 1 :=
  eq_one_of_dvd_tenPow ((hfives.rest_dvd.trans htwos.rest_dvd).trans h)
    (fun htwo => htwos.not_dvd (htwo.trans hfives.rest_dvd)) hfives.not_dvd

/-- Where nothing but one is left without twos and fives, a power of ten is divided. -/
theorem dvd_tenPow_of_rest_eq_one (h : rest = 1) : n ∣ tenPow (max twos fives) := by
  have hproduct : n = 2 ^ twos * 5 ^ fives := by
    rw [htwos.eq_pow_mul, hfives.eq_pow_mul, h, mul_one]
  rw [hproduct]
  exact two_pow_mul_five_pow_dvd twos fives

end Factors

/-- A quotient has an integer coefficient at some scale exactly if the divisor, without what it has
in common with the dividend, divides the power of ten of that scale. -/
theorem reduced_dvd_tenPow_iff {dividend divisor : Nat} (hdivisor : 0 < divisor) (k : Nat) :
    divisor / Nat.gcd dividend divisor ∣ tenPow k ↔ divisor ∣ dividend * tenPow k := by
  obtain ⟨a, b, hcoprime, ha, hb⟩ := Nat.exists_coprime dividend divisor
  have hgcd : 0 < Nat.gcd dividend divisor := Nat.gcd_pos_of_pos_right dividend hdivisor
  generalize Nat.gcd dividend divisor = g at ha hb hgcd
  subst ha hb
  rw [Nat.mul_div_cancel b hgcd, ← Nat.Coprime.dvd_mul_left hcoprime.symm, Nat.mul_right_comm a g,
    Nat.mul_dvd_mul_iff_right hgcd]

/-- The divisor without what it has in common with the dividend. -/
def reducedDivisor (x y : Decimal) : Nat :=
  y.coefficient.natAbs / Nat.gcd x.coefficient.natAbs y.coefficient.natAbs

/-- A 32-bit word holds the number of places, beyond the preferred scale, at which a quotient has an
integer coefficient. -/
def PlacesHeld (x y : Decimal) : Prop :=
  ∃ places : Nat, places < 4294967296 ∧ y.coefficient ∣ x.coefficient * tenPow places

variable {x y q : Decimal}

/-- What is left of a divisor is not zero. -/
theorem reducedDivisor_pos (x : Decimal) (hy : y.coefficient ≠ 0) : 0 < reducedDivisor x y := by
  have hdivisor : 0 < y.coefficient.natAbs := Int.natAbs_pos.mpr hy
  exact Nat.div_pos (Nat.gcd_le_right _ hdivisor) (Nat.gcd_pos_of_pos_right _ hdivisor)

/-- Zeros make the dividend divisible exactly if the reduced divisor divides their power of ten. -/
theorem dvd_mul_tenPow_iff (hy : y.coefficient ≠ 0) {k : Nat} :
    y.coefficient ∣ x.coefficient * tenPow k ↔ reducedDivisor x y ∣ tenPow k := by
  rw [reducedDivisor, reduced_dvd_tenPow_iff (Int.natAbs_pos.mpr hy), ← Int.natAbs_dvd_natAbs,
    Int.natAbs_mul, Int.natAbs_natCast]

/-- The two loops on the reduced divisor, what the words keep of their counts, and what the exact
division makes of that. -/
theorem exists_dividesOut_divideExactly (hx : x.coefficient ≠ 0) (hy : y.coefficient ≠ 0) :
    ∃ twos odd fives rest, DividesOut 2 (reducedDivisor x y) twos odd ∧
      DividesOut 5 odd fives rest ∧
      x.divideExactly y =
        let shift := (max (UInt32.ofNat twos) (UInt32.ofNat fives)).toNat
        if rest ≠ 1 then .error .nonTerminating
        else ofParts ((x.coefficient * tenPow shift).tdiv y.coefficient)
          (preferredScale x y + shift) := by
  obtain ⟨twos, htwos, htwosWord⟩ :=
    dividesOut_factorOut Nat.one_lt_two (reducedDivisor_pos x hy)
  obtain ⟨fives, hfives, hfivesWord⟩ := dividesOut_factorOut (by decide : 1 < 5) htwos.rest_pos
  refine ⟨twos, _, fives, _, htwos, hfives, ?_⟩
  rw [divideExactly, if_neg (mt isZero_iff.mp hy), if_neg (mt isZero_iff.mp hx), ← htwosWord,
    ← hfivesWord]
  rfl

/-- The exact quotient of numbers other than zero: the dividend, padded no further than needed, over
the divisor, where the count of the zeros is held; padded with too few zeros, where it is not; or
none, where no padding suffices. -/
theorem divideExactly_cases (hx : x.coefficient ≠ 0) (hy : y.coefficient ≠ 0) :
    (∃ k : Nat, k < 4294967296 ∧ y.coefficient ∣ x.coefficient * tenPow k ∧
        (∀ j, y.coefficient ∣ x.coefficient * tenPow j → k ≤ j) ∧
        x.divideExactly y =
          ofParts ((x.coefficient * tenPow k).tdiv y.coefficient) (preferredScale x y + k)) ∨
      (¬ PlacesHeld x y ∧ (∃ k : Nat, y.coefficient ∣ x.coefficient * tenPow k) ∧
        ∃ k : Nat, k < 4294967296 ∧ x.divideExactly y =
          ofParts ((x.coefficient * tenPow k).tdiv y.coefficient) (preferredScale x y + k)) ∨
      (∀ k : Nat, ¬ y.coefficient ∣ x.coefficient * tenPow k) ∧
        x.divideExactly y = .error .nonTerminating := by
  obtain ⟨twos, odd, fives, rest, htwos, hfives, hdivide⟩ := exists_dividesOut_divideExactly hx hy
  dsimp only at hdivide
  by_cases hrest : rest = 1
  swap
  · rw [if_pos hrest] at hdivide
    refine .inr (.inr ⟨fun k hk => hrest ?_, hdivide⟩)
    exact rest_eq_one_of_dvd_tenPow htwos hfives ((dvd_mul_tenPow_iff hy).mp hk)
  rw [if_neg (not_not.mpr hrest)] at hdivide
  have hdvd := (dvd_mul_tenPow_iff hy).mpr (dvd_tenPow_of_rest_eq_one htwos hfives hrest)
  have hleast (j : Nat) (hj : y.coefficient ∣ x.coefficient * tenPow j) : max twos fives ≤ j :=
    max_times_le_of_dvd_tenPow htwos hfives ((dvd_mul_tenPow_iff hy).mp hj)
  rcases Nat.lt_or_ge (max twos fives) 4294967296 with hheld | hbeyond
  · rw [toNat_max_ofNat hheld] at hdivide
    exact .inl ⟨_, hheld, hdvd, hleast, hdivide⟩
  · refine .inr (.inl ⟨?_, ⟨_, hdvd⟩, _, UInt32.toNat_lt _, hdivide⟩)
    rintro ⟨places, hplaces, hdvdPlaces⟩
    have hmore := hleast places hdvdPlaces
    omega

/-- So many places beyond the preferred scale a quotient has an integer coefficient exactly if that
times the divisor is the dividend padded with as many zeros. -/
theorem valueOf_mul_eq_iff {coefficient : Int} {k : Nat} :
    valueOf coefficient (preferredScale x y + k) * y.value = x.value ↔
      coefficient * y.coefficient = x.coefficient * tenPow k := by
  have hscale : preferredScale x y + k + y.scale.toInt = x.scale.toInt + k := by
    rw [preferredScale]
    ring
  rw [value, value, ← valueOf_mul, hscale, ← valueOf_mul_tenPow x.coefficient _ k, valueOf_inj]

/-- Zero divided exactly is zero at the preferred scale, or the nearest one to that. -/
theorem divideExactly_of_coefficient_eq_zero (hx : x.coefficient = 0) (hy : y.coefficient ≠ 0) :
    x.divideExactly y = .ok ⟨0, clampScale (preferredScale x y)⟩ := by
  rw [divideExactly, if_neg (mt isZero_iff.mp hy), if_pos (isZero_iff.mpr hx)]

/-- By zero nothing is divided. -/
theorem coefficient_ne_zero_of_divideExactly (h : x.divideExactly y = .ok q) :
    y.coefficient ≠ 0 := by
  intro hy
  rw [divideExactly, if_pos (isZero_iff.mpr hy)] at h
  cases h

/-- Zero needs no places. -/
theorem placesHeld_of_coefficient_eq_zero (hx : x.coefficient = 0) : PlacesHeld x y :=
  ⟨0, by decide, by rw [hx, zero_mul]; exact Int.dvd_zero _⟩

/-- An exact quotient times the divisor is the dividend exactly if the count of its places is
held. -/
theorem value_divideExactly_iff (h : x.divideExactly y = .ok q) :
    q.value * y.value = x.value ↔ PlacesHeld x y := by
  have hy := coefficient_ne_zero_of_divideExactly h
  by_cases hx : x.coefficient = 0
  · rw [divideExactly_of_coefficient_eq_zero hx hy] at h
    cases h
    refine iff_of_true ?_ (placesHeld_of_coefficient_eq_zero hx)
    rw [value_eq_zero_iff.mpr rfl, value_eq_zero_iff.mpr hx, zero_mul]
  rcases divideExactly_cases hx hy with ⟨k, hk, hdvd, -, hdivide⟩ |
    ⟨hbeyond, -, k, hk, hdivide⟩ | ⟨-, hnone⟩
  · rw [hdivide] at h
    rw [value_of_ofParts h, valueOf_mul_eq_iff]
    exact iff_of_true (Int.tdiv_mul_cancel hdvd) ⟨k, hk, hdvd⟩
  · rw [hdivide] at h
    rw [value_of_ofParts h, valueOf_mul_eq_iff]
    exact iff_of_false (fun hproduct => hbeyond ⟨k, hk, Dvd.intro_left _ hproduct⟩) hbeyond
  · rw [hnone] at h
    cases h

/-- A divisor of value one needs no more places than its scale has. -/
theorem placesHeld_of_unit (x : Decimal) (hy : y.value = 1) : PlacesHeld x y := by
  obtain ⟨k, hcoefficient, hscale⟩ := exists_unit_padding hy
  have hgreatest := toInt_le_greatestScale y.scale
  exact ⟨k, by unfold greatestScale at hgreatest; omega,
    hcoefficient ▸ Int.dvd_mul_left _ _⟩

/-- The quotient by a number of value one is found, unless its scale is out of range. -/
theorem eq_overflow_of_divideExactly_unit {error : NumberError} (hy : y.value = 1)
    (h : x.divideExactly y = .error error) : error = .overflow := by
  obtain ⟨k, -, hdvd⟩ := placesHeld_of_unit x hy
  have hnonzero : y.coefficient ≠ 0 := by
    rw [ne_eq, ← value_eq_zero_iff, hy]
    exact one_ne_zero
  by_cases hx : x.coefficient = 0
  · rw [divideExactly_of_coefficient_eq_zero hx hnonzero] at h
    cases h
  rcases divideExactly_cases hx hnonzero with ⟨j, -, -, -, hdivide⟩ |
    ⟨-, -, j, -, hdivide⟩ | ⟨hnone, -⟩
  · exact eq_overflow_of_ofParts (hdivide.symm.trans h)
  · exact eq_overflow_of_ofParts (hdivide.symm.trans h)
  · exact absurd hdvd (hnone k)

end Monetary.Decimal
