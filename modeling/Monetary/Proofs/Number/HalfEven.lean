import Monetary.Proofs.Number.SignificantDigits

/-!
# Half-even rounding

The half-even mode takes the integer that lies at most one half away, and of two that lie just so
far away the even one. Two integers with this property would be neighbours and both even, so that
there is only one; as the mode always takes an integer, this property is all that there is to the
mode. In the unit of the last significant digit the same holds of numbers that are rounded to a
number of digits.
-/

namespace Monetary.Rounding

/-- An integer lies at most one half away from a number, and is even if it lies just so far away. -/
def IsNearestEven (t : ℚ) (n : Int) : Prop :=
  |n - t| ≤ 1 / 2 ∧ (|n - t| = 1 / 2 → n % 2 = 0)

variable {digits : Nat} {t x y : ℚ} {m n : Int}

/-- No number has two nearest even integers. -/
theorem IsNearestEven.unique (hm : IsNearestEven t m) (hn : IsNearestEven t n) : m = n := by
  by_contra hne
  have hone : (1 : ℚ) ≤ |(m - n : ℚ)| := by
    exact_mod_cast Int.one_le_abs (sub_ne_zero.mpr hne)
  have hdistance : |(m - n : ℚ)| ≤ |m - t| + |n - t| := by
    rw [abs_sub_comm (n : ℚ)]
    exact abs_sub_le _ _ _
  -- Both lie one half away, one on either side.
  have hmTie : |m - t| = 1 / 2 := by linarith [hm.1, hn.1]
  have hnTie : |n - t| = 1 / 2 := by linarith [hm.1, hn.1]
  have hneighbours : |m - n| ≤ 1 := by
    exact_mod_cast (by linarith : |(m - n : ℚ)| ≤ 1)
  have hmEven := hm.2 hmTie
  have hnEven := hn.2 hnTie
  rw [abs_le] at hneighbours
  omega

/-- Of the two integers around a number the half-even mode takes the nearest even one. -/
theorem isNearestEven_between {lower : Int} {fraction : ℚ} {upper : Bool} (hpos : 0 < fraction)
    (hless : fraction < 1) (h : halfEven.takesUpper? lower fraction = some upper) :
    IsNearestEven (lower + fraction) (if upper then lower + 1 else lower) := by
  cases h
  obtain ⟨hlower, hupper⟩ := abs_sub_add_fraction lower hpos hless
  unfold IsNearestEven
  split
  · rename_i hbeyond
    rw [decide_eq_true_eq] at hbeyond
    rw [hupper]
    rcases hbeyond with hmore | ⟨htie, hodd⟩
    · exact ⟨by linarith, fun hhalf => by linarith⟩
    · exact ⟨by linarith, fun _ => by omega⟩
  · rename_i hwithin
    rw [decide_eq_true_eq, not_or, not_lt, not_and, not_not] at hwithin
    rw [hlower]
    exact hwithin

/-- What the half-even mode takes is the nearest even integer. -/
theorem isNearestEven_of_roundRat? (h : halfEven.roundRat? t = some n) : IsNearestEven t n := by
  rw [← Int.floor_add_fract t] at h ⊢
  rcases (Int.fract_nonneg t).eq_or_lt with hinteger | hpos
  · rw [← hinteger, add_zero] at h ⊢
    cases (roundRat?_intCast halfEven ⌊t⌋).symm.trans h
    rw [IsNearestEven, sub_self, abs_zero]
    norm_num
  · rw [roundRat?_add_fraction halfEven hpos (Int.fract_lt_one t), Option.map_eq_some_iff] at h
    obtain ⟨upper, hupper, rfl⟩ := h
    exact isNearestEven_between hpos (Int.fract_lt_one t) hupper

/-- The half-even mode takes an integer exactly if that is the nearest even one. -/
theorem roundRat?_halfEven_iff : halfEven.roundRat? t = some n ↔ IsNearestEven t n := by
  refine ⟨isNearestEven_of_roundRat?, fun hn => ?_⟩
  cases h : halfEven.roundRat? t with
  | none => exact absurd (roundRat?_eq_none_iff.mp h).1 (by decide)
  | some m => rw [(isNearestEven_of_roundRat? h).unique hn]

/-- `y` is a multiple of the unit in which the last of so many significant digits of `x` stands. It
lies at most half that unit away from `x`, and is an even multiple if it lies just so far away. -/
def RoundsHalfEven (digits : Nat) (x y : ℚ) : Prop :=
  ∃ exponent n : Int, 10 ^ ((digits : Int) - 1 + exponent) ≤ |x| ∧
    |x| < 10 ^ ((digits : Int) + exponent) ∧ y = n * 10 ^ exponent ∧
    |y - x| ≤ 10 ^ exponent / 2 ∧ (|y - x| = 10 ^ exponent / 2 → n % 2 = 0)

/-- Half a unit away from a number in units of a power of ten is one half away from it. -/
theorem isNearestEven_iff_of_unit (exponent : Int) : IsNearestEven t n ↔
    |(n * 10 ^ exponent - t * 10 ^ exponent : ℚ)| ≤ 10 ^ exponent / 2 ∧
      (|(n * 10 ^ exponent - t * 10 ^ exponent : ℚ)| = 10 ^ exponent / 2 → n % 2 = 0) := by
  have hunit : (0 : ℚ) < 10 ^ exponent := zpow_pos (by norm_num) _
  rw [← sub_mul, abs_mul, abs_of_pos hunit, div_eq_mul_one_div, mul_comm (10 ^ exponent : ℚ) (1 / 2),
    mul_le_mul_iff_left₀ hunit, mul_left_inj' hunit.ne']
  rfl

/-- Rounding half-even to significant digits is rounding to the nearest multiple of the unit of the
last digit, a tie to the even one. -/
theorem roundsToDigits_halfEven_iff :
    halfEven.RoundsToDigits digits x y ↔ RoundsHalfEven digits x y := by
  constructor
  · rintro ⟨t, exponent, n, rfl, hlow, hhigh, hn, rfl⟩
    obtain ⟨hreached, hless⟩ := abs_moved_bounds exponent hlow hhigh
    obtain ⟨hnear, heven⟩ := (isNearestEven_iff_of_unit exponent).mp (roundRat?_halfEven_iff.mp hn)
    exact ⟨exponent, n, hreached, hless, rfl, hnear, heven⟩
  · rintro ⟨exponent, n, hreached, hless, rfl, hnear, heven⟩
    have hunit : (0 : ℚ) < 10 ^ exponent := zpow_pos (by norm_num) _
    obtain ⟨t, rfl⟩ : ∃ t : ℚ, x = t * 10 ^ exponent :=
      ⟨x / 10 ^ exponent, (div_mul_cancel₀ _ hunit.ne').symm⟩
    rw [abs_mul, abs_of_pos hunit, ← ten_zpow_mul (rfl : (digits : Int) - 1 + exponent = _)]
      at hreached
    rw [abs_mul, abs_of_pos hunit, ← ten_zpow_mul (rfl : (digits : Int) + exponent = _)] at hless
    have hlow := le_of_mul_le_mul_right hreached hunit
    have hhigh := lt_of_mul_lt_mul_right hless hunit.le
    rw [zpow_natCast] at hhigh
    exact ⟨t, exponent, n, rfl, hlow, hhigh,
      roundRat?_halfEven_iff.mpr ((isNearestEven_iff_of_unit exponent).mpr ⟨hnear, heven⟩), rfl⟩

end Monetary.Rounding
