import Monetary.Proofs.Decimal.ExactQuotient

/-!
# The words that count the factors of a divisor

Exact division counts the twos and the fives of its divisor in 32-bit words. A divisor that is the
power of two with 2³² twos has none according to its word. The dividend is then not padded at all,
and one divided by this power is returned as zero.

Such a divisor has fewer digits than a 32-bit word can count, so that this does not show in its
size.
-/

namespace Monetary.Decimal

/-- A power of two as the coefficient of a number. -/
def powerOfTwo (exponent : Nat) (scale : Int32) : Decimal :=
  ⟨2 ^ exponent, scale⟩

/-- Of a power the word counts the exponent, as far as it can, and one is left. -/
theorem factorOut_pow {factor : Nat} (hfactor : 1 < factor) (exponent : Nat) :
    factorOut factor (factor ^ exponent) = (UInt32.ofNat exponent, 1) := by
  induction exponent with
  | zero =>
    rw [factorOut, if_neg (by rw [pow_zero, Nat.one_mod_eq_one.mpr (by omega)]; omega)]
    rfl
  | succ exponent ih =>
    have hpos : 0 < factor ^ (exponent + 1) := Nat.pow_pos (by omega)
    have hdivides : factor ^ (exponent + 1) % factor = 0 :=
      Nat.mod_eq_zero_of_dvd (Dvd.intro_left _ (pow_succ factor exponent).symm)
    have hquotient : factor ^ (exponent + 1) / factor = factor ^ exponent :=
      Nat.div_eq_of_eq_mul_left (by omega) (pow_succ factor exponent)
    rw [factorOut, if_pos ⟨hfactor, hpos, hdivides⟩, hquotient, ih, UInt32.ofNat_add]
    rfl

variable {k m : Nat} {scale : Int32}

/-- A power of two is not zero. -/
theorem powerOfTwo_coefficient_ne_zero (k : Nat) (scale : Int32) :
    (powerOfTwo k scale).coefficient ≠ 0 :=
  pow_ne_zero k two_ne_zero

/-- The number has the value of the power, moved by its scale. -/
theorem value_powerOfTwo (k : Nat) (scale : Int32) :
    (powerOfTwo k scale).value = 2 ^ k * 10 ^ (-scale.toInt) := by
  rw [value, valueOf, powerOfTwo]
  norm_cast

/-- At the scale zero a power of two other than one does not have the value one. -/
theorem isOne_powerOfTwo (hk : k ≠ 0) : (powerOfTwo k 0).isOne = false := by
  have hone : (1 : ℚ) < 2 ^ k := one_lt_pow₀ one_lt_two hk
  rw [← Bool.not_eq_true, isOne_iff, value_powerOfTwo, show (0 : Int32).toInt = 0 from rfl,
    neg_zero, zpow_zero, mul_one]
  exact hone.ne'

/-- A power of ten has three times as many twos as a smaller power of two. -/
theorem two_pow_lt_tenPow (h : k < 3 * m) : 2 ^ k < tenPow m :=
  calc 2 ^ k < 2 ^ (3 * m) := Nat.pow_lt_pow_right Nat.one_lt_two h
    _ = 8 ^ m := pow_mul 2 3 m
    _ ≤ tenPow m := Nat.pow_le_pow_left (by decide) m

/-- Three twos make less than one digit. -/
theorem digits_powerOfTwo_le (h : k < 3 * m) : (powerOfTwo k scale).digits ≤ m := by
  have hpower : (2 ^ k : Int).natAbs = 2 ^ k := by rw [Int.natAbs_pow]; rfl
  rw [digits, powerOfTwo, hpower, digitCount_le_iff _ (by omega)]
  exact two_pow_lt_tenPow h

/-- Moved by as many places, the number is below one. -/
theorem value_powerOfTwo_le_one (h : k < 3 * m) (hscale : scale.toInt = m) :
    (powerOfTwo k scale).value ≤ 1 := by
  have hpower : (2 : ℚ) ^ k ≤ 10 ^ m := by exact_mod_cast (two_pow_lt_tenPow h).le
  rw [value_powerOfTwo, hscale]
  calc (2 : ℚ) ^ k * 10 ^ (-(m : Int)) ≤ 10 ^ (m : Int) * 10 ^ (-(m : Int)) := by
        rw [zpow_natCast]
        exact mul_le_mul_of_nonneg_right hpower (unit_pos _).le
    _ = 1 := by rw [ten_zpow_mul (add_neg_cancel _), zpow_zero]

/-- Divided by its own power of two the number is a one at its scale. -/
theorem powerOfTwo_divideExactly (k : Nat) (scale : Int32) :
    (powerOfTwo k scale).divideExactly (powerOfTwo k 0) = .ok ⟨1, scale⟩ := by
  refine divideExactly_of_mul (powerOfTwo_coefficient_ne_zero k 0) (ofParts_eq_ok_iff.mpr ⟨?_, ?_⟩)
  · exact (one_mul _).symm
  · exact (add_zero _).symm

/-- One divided by a power of two is padded with as many zeros as the word keeps of the twos. -/
theorem one_divideExactly_powerOfTwo (k : Nat) : one.divideExactly (powerOfTwo k 0) =
    ofParts ((tenPow (k % 4294967296) : Int).tdiv (2 ^ k)) (k % 4294967296 : Nat) := by
  have hreduced : (powerOfTwo k 0).coefficient.natAbs /
      Nat.gcd one.coefficient.natAbs (powerOfTwo k 0).coefficient.natAbs = 2 ^ k := by
    rw [powerOfTwo, Int.natAbs_pow, one, Int.natAbs_one, Nat.gcd_one_left, Nat.div_one]
    rfl
  have hpreferred : preferredScale one (powerOfTwo k 0) = 0 := rfl
  have hfives : factorOut 5 1 = (0, 1) := factorOut_pow (by decide) 0
  have hcount : (max (UInt32.ofNat k) 0).toNat = k % 4294967296 := by
    have hkept := toNat_max_ofNat (m := k % 4294967296) (n := 0) (by omega)
    rwa [Nat.max_zero, show UInt32.ofNat (k % 4294967296) = UInt32.ofNat k from
      UInt32.ofNat_mod_size] at hkept
  rw [divideExactly, if_neg (mt isZero_iff.mp (powerOfTwo_coefficient_ne_zero k 0)),
    if_neg (by decide)]
  dsimp only
  rw [hreduced, factorOut_pow Nat.one_lt_two]
  dsimp only
  rw [hfives]
  dsimp only
  rw [if_neg (by decide), hcount, hpreferred, zero_add, one, one_mul]
  rfl

/-- By a power of two whose exponent leaves nothing in the word, one is divided to zero. -/
theorem divideExactly_powerOfTwo (hword : k % 4294967296 = 0) (hk : k ≠ 0) :
    one.divideExactly (powerOfTwo k 0) = .ok zero := by
  have hone : (1 : Int) < 2 ^ k := one_lt_pow₀ one_lt_two hk
  rw [one_divideExactly_powerOfTwo, hword, tenPow_zero, Nat.cast_one,
    Int.tdiv_eq_zero_of_lt zero_le_one hone]
  rfl

/-- A word does not hold as many places as one divided by such a power needs. -/
theorem not_placesHeld_powerOfTwo (hk : 4294967296 ≤ k) : ¬ PlacesHeld one (powerOfTwo k 0) := by
  rintro ⟨places, hplaces, hdvd⟩
  have hpower : 2 ^ k ∣ tenPow places := by
    change (2 ^ k : Int) ∣ 1 * tenPow places at hdvd
    rw [one_mul] at hdvd
    exact_mod_cast hdvd
  have hmore := le_of_two_pow_dvd_tenPow hpower
  omega

end Monetary.Decimal
