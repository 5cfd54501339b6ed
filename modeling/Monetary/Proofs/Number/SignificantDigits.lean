import Monetary.Proofs.Number.Digits
import Monetary.Proofs.Number.RationalRounding

/-!
# Rounding rational numbers to significant digits

A number other than zero is rounded to a number of digits by moving its point until so many digits
stand before it, rounding to an integer, and moving the point back. How far the point is moved
depends on the number, so that two numbers may be rounded in different units. Still the smaller one
never gets above the larger one: a power of ten, or its opposite, then lies between them, it is a
multiple of both units, and no rounding passes it. Hence a number is rounded to one number only.

Zero, and every number where the precision is unlimited, is taken as it is.
-/

namespace Monetary

/-- A number that can be written with so many digits, followed or preceded by zeros. -/
def HasDigits (digits : Nat) (x : ℚ) : Prop :=
  ∃ n exponent : Int, digitCount n.natAbs ≤ digits ∧ x = n * 10 ^ exponent

namespace Rounding

/-- Rounding `x` to so many significant digits gives `y`: the number, moved so that this many digits
stand before the point, is rounded to an integer and moved back. -/
def RoundsToDigits (mode : Rounding) (digits : Nat) (x y : ℚ) : Prop :=
  ∃ (t : ℚ) (exponent n : Int), x = t * 10 ^ exponent ∧ 10 ^ ((digits : Int) - 1) ≤ |t| ∧
    |t| < 10 ^ digits ∧ mode.roundRat? t = some n ∧ y = n * 10 ^ exponent

/-- Bringing `x` to a precision gives `y`: zero is kept, as is every number at the precision zero,
which stands for an unlimited number of digits. -/
def Brings (mode : Rounding) (precision : UInt32) (x y : ℚ) : Prop :=
  if precision = 0 ∨ x = 0 then y = x else mode.RoundsToDigits precision.toNat x y

variable {mode : Rounding} {digits : Nat} {precision : UInt32} {t a b x y : ℚ} {n : Int}

/-- A multiple of a power of ten is a multiple of every smaller power. -/
theorem exists_multiple_of_le (c : Int) {exponent power : Int} (h : exponent ≤ power) :
    ∃ k : Int, (c * 10 ^ power : ℚ) = k * 10 ^ exponent := by
  obtain ⟨gap, hgap⟩ := Int.eq_ofNat_of_zero_le (sub_nonneg.mpr h)
  refine ⟨c * tenPow gap, ?_⟩
  rw [Int.cast_mul, Int.cast_natCast, cast_tenPow, mul_assoc, ← zpow_natCast,
    ten_zpow_mul (c := power) (by omega)]

/-- A number that is rounded in some unit does not pass a multiple of a larger unit from below. -/
theorem rounded_le_of_le_multiple {exponent power c : Int} (h : mode.roundRat? t = some n)
    (hunit : exponent ≤ power) (ht : t * 10 ^ exponent ≤ c * 10 ^ power) :
    (n * 10 ^ exponent : ℚ) ≤ c * 10 ^ power := by
  have hpos : (0 : ℚ) < 10 ^ exponent := zpow_pos (by norm_num) _
  obtain ⟨k, hk⟩ := exists_multiple_of_le c hunit
  rw [hk, mul_le_mul_iff_left₀ hpos] at ht ⊢
  exact Int.cast_le.mpr (le_of_roundRat?_le h ht)

/-- A number that is rounded in some unit does not pass a multiple of a larger unit from above. -/
theorem le_rounded_of_multiple_le {exponent power c : Int} (h : mode.roundRat? t = some n)
    (hunit : exponent ≤ power) (ht : c * 10 ^ power ≤ t * 10 ^ exponent) :
    (c * 10 ^ power : ℚ) ≤ n * 10 ^ exponent := by
  have hpos : (0 : ℚ) < 10 ^ exponent := zpow_pos (by norm_num) _
  obtain ⟨k, hk⟩ := exists_multiple_of_le c hunit
  rw [hk, mul_le_mul_iff_left₀ hpos] at ht ⊢
  exact Int.cast_le.mpr (le_of_le_roundRat? h ht)

/-- A number above zero is not rounded to one below. -/
theorem RoundsToDigits.nonneg (h : mode.RoundsToDigits digits x a) (hx : 0 ≤ x) : 0 ≤ a := by
  obtain ⟨t, exponent, n, rfl, -, -, hn, rfl⟩ := h
  simpa using le_rounded_of_multiple_le (c := 0) hn (le_refl exponent) (by simpa using hx)

/-- A number below zero is not rounded to one above. -/
theorem RoundsToDigits.nonpos (h : mode.RoundsToDigits digits x a) (hx : x ≤ 0) : a ≤ 0 := by
  obtain ⟨t, exponent, n, rfl, -, -, hn, rfl⟩ := h
  simpa using rounded_le_of_le_multiple (c := 0) hn (le_refl exponent) (by simpa using hx)

/-- Moved back, a number with so many digits before its point lies between the powers of ten where
its leading digit stands. -/
theorem abs_moved_bounds (exponent : Int) (hlow : (10 : ℚ) ^ ((digits : Int) - 1) ≤ |t|)
    (hhigh : |t| < 10 ^ digits) : (10 : ℚ) ^ ((digits : Int) - 1 + exponent) ≤ |t * 10 ^ exponent| ∧
      |t * 10 ^ exponent| < 10 ^ ((digits : Int) + exponent) := by
  have hunit : (0 : ℚ) < 10 ^ exponent := zpow_pos (by norm_num) _
  rw [← zpow_natCast] at hhigh
  rw [abs_mul, abs_of_pos hunit, ← ten_zpow_mul (rfl : (digits : Int) - 1 + exponent = _),
    ← ten_zpow_mul (rfl : (digits : Int) + exponent = _)]
  exact ⟨mul_le_mul_of_nonneg_right hlow hunit.le, mul_lt_mul_of_pos_right hhigh hunit⟩

/-- Between two numbers of which only one reaches a size lies this size or its opposite. -/
theorem exists_between_of_abs {size : ℚ} (h : x ≤ y) (hsize : |x| < size ∧ size ≤ |y| ∨
    |y| < size ∧ size ≤ |x|) : ∃ c : Int, x ≤ c * size ∧ c * size ≤ y := by
  rcases hsize with ⟨hless, hreached⟩ | ⟨hless, hreached⟩ <;>
    rw [abs_lt] at hless <;>
    rw [le_abs'] at hreached
  · refine ⟨1, ?_⟩
    rw [Int.cast_one, one_mul]
    rcases hreached with hreached | hreached
    · linarith
    · exact ⟨hless.2.le, hreached⟩
  · refine ⟨-1, ?_⟩
    rw [Int.cast_neg, Int.cast_one, neg_one_mul]
    rcases hreached with hreached | hreached
    · exact ⟨hreached, hless.1.le⟩
    · linarith

/-- Between two numbers whose leading digits stand at different places lies a multiple of both units
in which they are rounded. -/
theorem exists_multiple_between {s t : ℚ} {e f : Int} (hdigits : 0 < digits) (hunit : e ≠ f)
    (hslow : (10 : ℚ) ^ ((digits : Int) - 1) ≤ |s|) (hshigh : |s| < 10 ^ digits)
    (htlow : (10 : ℚ) ^ ((digits : Int) - 1) ≤ |t|) (hthigh : |t| < 10 ^ digits)
    (h : s * 10 ^ e ≤ t * 10 ^ f) : ∃ c power : Int, e ≤ power ∧ f ≤ power ∧
      s * 10 ^ e ≤ c * 10 ^ power ∧ (c * 10 ^ power : ℚ) ≤ t * 10 ^ f := by
  obtain ⟨hsReached, hsLess⟩ := abs_moved_bounds e hslow hshigh
  obtain ⟨htReached, htLess⟩ := abs_moved_bounds f htlow hthigh
  have hten : (1 : ℚ) ≤ 10 := by norm_num
  rcases Int.lt_or_gt_of_ne hunit with hless | hless
  · obtain ⟨c, hc⟩ := exists_between_of_abs h
      (.inl ⟨hsLess.trans_le (zpow_le_zpow_right₀ hten (by omega)), htReached⟩)
    exact ⟨c, _, by omega, by omega, hc⟩
  · obtain ⟨c, hc⟩ := exists_between_of_abs h
      (.inr ⟨htLess.trans_le (zpow_le_zpow_right₀ hten (by omega)), hsReached⟩)
    exact ⟨c, _, by omega, by omega, hc⟩

/-- Of two numbers the smaller one is not rounded to the larger one of the results. -/
theorem RoundsToDigits.mono (hdigits : 0 < digits) (hx : mode.RoundsToDigits digits x a)
    (hy : mode.RoundsToDigits digits y b) (h : x ≤ y) : a ≤ b := by
  obtain ⟨s, e, m, rfl, hslow, hshigh, hm, rfl⟩ := hx
  obtain ⟨t, f, n, rfl, htlow, hthigh, hn, rfl⟩ := hy
  by_cases hunit : e = f
  · -- In one unit both are rounded to integers, which keeps the order.
    subst hunit
    have hpos : (0 : ℚ) < 10 ^ e := zpow_pos (by norm_num) _
    rw [mul_le_mul_iff_left₀ hpos] at h ⊢
    exact Int.cast_le.mpr (roundRat?_mono h hm hn)
  · obtain ⟨c, power, he, hf, hbelow, habove⟩ :=
      exists_multiple_between hdigits hunit hslow hshigh htlow hthigh h
    exact (rounded_le_of_le_multiple hm he hbelow).trans (le_rounded_of_multiple_le hn hf habove)

/-- A number is rounded to one number only. -/
theorem RoundsToDigits.unique (hdigits : 0 < digits) (ha : mode.RoundsToDigits digits x a)
    (hb : mode.RoundsToDigits digits x b) : a = b :=
  le_antisymm (ha.mono hdigits hb le_rfl) (hb.mono hdigits ha le_rfl)

/-- A number with so many digits before its point is rounded to an integer of as many digits, or to
the power of ten that comes next. -/
theorem natAbs_bounds_of_roundRat? (hdigits : 0 < digits)
    (hlow : (10 : ℚ) ^ ((digits : Int) - 1) ≤ |t|) (hhigh : |t| < 10 ^ digits)
    (h : mode.roundRat? t = some n) :
    tenPow (digits - 1) ≤ n.natAbs ∧ n.natAbs ≤ tenPow digits := by
  rw [← Nat.cast_pred hdigits, zpow_natCast, ← cast_tenPow] at hlow
  rw [← cast_tenPow] at hhigh
  have hleast := le_abs_of_roundRat? h (by exact_mod_cast hlow)
  have hmost := abs_le_of_roundRat? h (by exact_mod_cast hhigh.le)
  rw [Int.abs_eq_natAbs] at hleast hmost
  exact ⟨by exact_mod_cast hleast, by exact_mod_cast hmost⟩

/-- What is rounded to some digits is not zero. -/
theorem RoundsToDigits.ne_zero (hdigits : 0 < digits) (h : mode.RoundsToDigits digits x a) :
    a ≠ 0 := by
  obtain ⟨t, exponent, n, -, hlow, hhigh, hn, rfl⟩ := h
  have hsize := (natAbs_bounds_of_roundRat? hdigits hlow hhigh hn).1
  have hnonzero : n ≠ 0 := Int.natAbs_pos.mp ((tenPow_pos _).trans_le hsize)
  exact mul_ne_zero (Int.cast_ne_zero.mpr hnonzero) (zpow_pos (by norm_num) _).ne'

/-- A number that can be written with so many digits is rounded to itself, in every mode. -/
theorem RoundsToDigits.refl (mode : Rounding) (hx : x ≠ 0) (h : HasDigits digits x) :
    mode.RoundsToDigits digits x x := by
  obtain ⟨n, exponent, hcount, rfl⟩ := h
  have hn : n ≠ 0 := by
    rintro rfl
    simp at hx
  obtain ⟨padding, hpadding⟩ := Nat.exists_eq_add_of_le hcount
  have hpadded : n * (tenPow padding : Int) ≠ 0 := mul_ne_zero hn (by simp)
  have hnumber : (n * 10 ^ exponent : ℚ) =
      (n * tenPow padding : Int) * 10 ^ (exponent - padding) := by
    rw [Int.cast_mul, Int.cast_natCast, cast_tenPow, mul_assoc, ← zpow_natCast,
      ten_zpow_mul (c := exponent) (by omega)]
  obtain ⟨hlow, hhigh⟩ := abs_coefficient_bounds hpadded
  rw [Int.natAbs_mul, Int.natAbs_natCast, digitCount_mul_tenPow (Int.natAbs_ne_zero.mpr hn),
    ← hpadding] at hlow hhigh
  rw [zpow_natCast] at hhigh
  exact ⟨_, _, _, hnumber, hlow, hhigh, roundRat?_intCast mode _, hnumber⟩

/-- The mode that must not round takes only numbers that can be written with the digits. -/
theorem RoundsToDigits.hasDigits (hdigits : 0 < digits)
    (h : unnecessary.RoundsToDigits digits x y) : HasDigits digits x := by
  obtain ⟨t, exponent, n, rfl, -, hhigh, hn, -⟩ := h
  obtain rfl := roundRat?_unnecessary_iff.mp hn
  refine ⟨n, exponent, (digitCount_le_iff _ hdigits).mpr ?_, rfl⟩
  rw [← Int.cast_abs, ← Nat.cast_natAbs, ← cast_tenPow] at hhigh
  exact_mod_cast hhigh

/-- Rounding to some digits moves a number by less than the unit of the last digit that a number of
its size begins with. -/
theorem RoundsToDigits.abs_sub_lt (h : mode.RoundsToDigits digits x y) :
    |y - x| < 10 ^ (1 - (digits : Int)) * |x| := by
  obtain ⟨t, exponent, n, rfl, hlow, -, hn, rfl⟩ := h
  have hunit : (0 : ℚ) < 10 ^ exponent := zpow_pos (by norm_num) _
  have hscale : (0 : ℚ) < 10 ^ (1 - (digits : Int)) := zpow_pos (by norm_num) _
  have hone : (1 : ℚ) ≤ 10 ^ (1 - (digits : Int)) * |t| :=
    calc (1 : ℚ) = 10 ^ (1 - (digits : Int)) * 10 ^ ((digits : Int) - 1) :=
          (ten_zpow_one_sub_mul _).symm
      _ ≤ 10 ^ (1 - (digits : Int)) * |t| := mul_le_mul_of_nonneg_left hlow hscale.le
  rw [← sub_mul, abs_mul, abs_mul, abs_of_pos hunit, ← mul_assoc]
  exact mul_lt_mul_of_pos_right ((abs_roundRat?_sub_lt hn).trans_le hone) hunit

/-- A number above zero is not brought to one below. -/
theorem Brings.nonneg (h : mode.Brings precision x a) (hx : 0 ≤ x) : 0 ≤ a := by
  unfold Brings at h
  split at h
  · rwa [h]
  · exact h.nonneg hx

/-- A number below zero is not brought to one above. -/
theorem Brings.nonpos (h : mode.Brings precision x a) (hx : x ≤ 0) : a ≤ 0 := by
  unfold Brings at h
  split at h
  · rwa [h]
  · exact h.nonpos hx

/-- Of two numbers the smaller one is not brought to the larger one of the results. -/
theorem Brings.mono (ha : mode.Brings precision x a) (hb : mode.Brings precision y b) (h : x ≤ y) :
    a ≤ b := by
  by_cases hunlimited : precision = 0
  · rw [Brings, if_pos (.inl hunlimited)] at ha hb
    rwa [ha, hb]
  by_cases hx : x = 0
  · subst hx
    rw [Brings, if_pos (.inr rfl)] at ha
    exact ha.trans_le (hb.nonneg h)
  by_cases hy : y = 0
  · subst hy
    rw [Brings, if_pos (.inr rfl)] at hb
    exact (ha.nonpos h).trans_eq hb.symm
  · rw [Brings, if_neg (not_or.mpr ⟨hunlimited, hx⟩)] at ha
    rw [Brings, if_neg (not_or.mpr ⟨hunlimited, hy⟩)] at hb
    exact ha.mono (precision_pos hunlimited) hb h

/-- The mode that must not round brings a number to itself only. -/
theorem Brings.eq_of_unnecessary (h : unnecessary.Brings precision x y) : y = x := by
  unfold Brings at h
  split at h
  · exact h
  · obtain ⟨t, exponent, n, rfl, -, -, hn, rfl⟩ := h
    rw [roundRat?_unnecessary_iff.mp hn]

/-- A number other than zero is not brought to zero. -/
theorem Brings.ne_zero (h : mode.Brings precision x a) (hx : x ≠ 0) : a ≠ 0 := by
  unfold Brings at h
  split at h
  · rwa [h]
  · rename_i hrounded
    exact RoundsToDigits.ne_zero (precision_pos (not_or.mp hrounded).1) h

/-- A number is brought to one number only. -/
theorem Brings.unique (ha : mode.Brings precision x a) (hb : mode.Brings precision x b) : a = b :=
  le_antisymm (ha.mono hb le_rfl) (hb.mono ha le_rfl)

end Rounding

end Monetary
