import Monetary.Proofs.Decimal.CorrectRounding

/-!
# The word that holds the exponent of a division

A division moves the point of a quotient by a power of ten whose exponent is held in a 32-bit word,
and the word keeps the low bits of any larger exponent. The exponent grows with the precision and the
digits of the divisor and falls with the digits of the dividend. So the word holds it as long as
precision and divisor together exceed `digitLimit` by no more than the digits of the dividend, and
then the quotient has all the digits of the precision.

Beyond that the point is moved at least 2³² places too little. Nothing is left of the quotient before
its point, and what is returned is zero, or one unit of the last place, which is far too small.

Scales never lie so far apart that the word could not hold their difference. Bringing two numbers to
one scale, or a number to another scale, therefore never loses a bit of the exponent.
-/

namespace Monetary

/-- The word holds an exponent exactly if the exponent is below 2³². -/
theorem tenPowWord_eq_iff {exponent : Nat} :
    tenPowWord exponent = tenPow exponent ↔ exponent < 4294967296 := by
  refine ⟨fun h => ?_, tenPowWord_of_lt⟩
  have hword : exponent ≤ exponent % 4294967296 := le_of_tenPow_le_tenPow h.ge
  exact hword.trans_lt (Nat.mod_lt _ (by decide))

namespace Decimal

/-- Both powers of ten by which a shift may multiply an operand are the intended ones. -/
def IsHeld (shift : Int) : Prop :=
  tenPowWord shift.toNat = tenPow shift.toNat ∧ tenPowWord (-shift).toNat = tenPow (-shift).toNat

/-- A shift is held exactly if its size is below 2³². -/
theorem isHeld_iff {shift : Int} : IsHeld shift ↔ -4294967296 < shift ∧ shift < 4294967296 := by
  rw [IsHeld, tenPowWord_eq_iff, tenPowWord_eq_iff]
  omega

/-- The power of ten that a division tries first, from the digit counts of the operands. -/
def guessedShift (x y : Decimal) (precision : UInt32) : Int :=
  precision.toNat + y.digits - x.digits

variable {x y q : Decimal} {precision : UInt32} {mode : Rounding}

/-- The shifts of a division are held exactly if precision and divisor exceed the limit by no more
than the digits of the dividend. -/
theorem isHeld_shifts_iff (hprecision : precision ≠ 0) (hx : x.coefficient ≠ 0)
    (hy : y.coefficient ≠ 0) (hxCount : x.digits ≤ digitLimit) :
    IsHeld (guessedShift x y precision) ∧
        IsHeld (quotientShift x.coefficient y.coefficient precision.toNat) ↔
      precision.toNat + y.digits ≤ digitLimit + x.digits := by
  have hlimit : (digitLimit : Int) = 4294967295 := rfl
  rw [isHeld_iff, isHeld_iff, guessedShift]
  constructor
  · rintro ⟨⟨-, hguess⟩, -⟩
    omega
  · intro hguess
    obtain ⟨hlow, hhigh, -, -⟩ :=
      quotientShift_spec hx hy (precision_pos hprecision) hxCount hguess
    exact ⟨by omega, hlow, hhigh⟩

section Beyond

/-- Moved by what the word keeps of a shift that it does not hold, a quotient has nothing before its
point. -/
theorem abs_moved_quotient_lt_one (hx : x.coefficient ≠ 0) (hy : y.coefficient ≠ 0)
    (hbeyond : digitLimit + x.digits < precision.toNat + y.digits) :
    (shiftedOperands x.coefficient y.coefficient (guessedShift x y precision)).2 ≠ 0 ∧
      |((shiftedOperands x.coefficient y.coefficient (guessedShift x y precision)).1 /
        (shiftedOperands x.coefficient y.coefficient (guessedShift x y precision)).2 : ℚ)| < 1 := by
  have hlimit : (digitLimit : Int) = 4294967295 := rfl
  have hword := precision.toNat_lt
  obtain ⟨guess, hguess⟩ : ∃ guess : Nat, guessedShift x y precision = guess :=
    ⟨(guessedShift x y precision).toNat, by unfold guessedShift; omega⟩
  have hexponent : precision.toNat + y.digits - x.digits = (guess : Int) := hguess
  have hkept : guess % 4294967296 + 4294967296 ≤ guess := by omega
  rw [hguess, shiftedOperands, if_pos (Int.natCast_nonneg guess), Int.toNat_natCast]
  refine ⟨hy, ?_⟩
  obtain ⟨-, hquotient⟩ := abs_quotient_bounds hx hy
  have hunit : (0 : ℚ) < 10 ^ (guess % 4294967296 : Nat) := by positivity
  rw [tenPowWord, Int.cast_mul, Int.cast_natCast, cast_tenPow, mul_div_right_comm, abs_mul,
    abs_of_pos hunit]
  calc |(x.coefficient / y.coefficient : ℚ)| * 10 ^ (guess % 4294967296)
      < 10 ^ ((x.digits : Int) - y.digits + 1) * 10 ^ (guess % 4294967296) :=
        mul_lt_mul_of_pos_right hquotient hunit
    _ = 10 ^ ((x.digits : Int) - y.digits + 1 + (guess % 4294967296 : Nat)) := by
        rw [← zpow_natCast, ten_zpow_mul rfl]
    _ ≤ 10 ^ (0 : Int) := zpow_le_zpow_right₀ (by norm_num) (by omega)
    _ = 1 := zpow_zero _

/-- A division whose shift is not held makes at most one unit of the last place, without looking for
another shift, or does not round. -/
theorem divide_cases_beyond (mode : Rounding) (hprecision : precision ≠ 0) (hx : x.coefficient ≠ 0)
    (hy : y.coefficient ≠ 0) (hbeyond : digitLimit + x.digits < precision.toNat + y.digits) :
    (∃ n : Int, n.natAbs ≤ 1 ∧ x.divide y precision mode =
        reducedToward n (preferredScale x y + guessedShift x y precision) (preferredScale x y)) ∨
      x.divide y precision mode = .error .roundingNecessary := by
  have hpos := precision_pos hprecision
  obtain ⟨hdivisor, hless⟩ := abs_moved_quotient_lt_one hx hy hbeyond
  have hfew : ¬ precision.toNat <
      quotientDigits (shiftedOperands x.coefficient y.coefficient (guessedShift x y precision)) := by
    rw [lt_quotientDigits_iff hdivisor hpos, not_le]
    exact hless.trans_le (one_le_pow₀ (by norm_num))
  have hshift : quotientShift x.coefficient y.coefficient precision.toNat =
      guessedShift x y precision := if_neg hfew
  rw [divide, if_neg hprecision, if_neg (mt isZero_iff.mp hy), if_neg (mt isZero_iff.mp hx), hshift]
  dsimp only
  cases hdivide : mode.divide
      (shiftedOperands x.coefficient y.coefficient (guessedShift x y precision)).1
      (shiftedOperands x.coefficient y.coefficient (guessedShift x y precision)).2 with
  | error error =>
    obtain ⟨rfl, -⟩ := (Rounding.divide_eq_error_iff hdivisor).mp hdivide
    exact .inr rfl
  | ok n =>
    rw [Rounding.divide_eq_ok_iff hdivisor] at hdivide
    have hunit : |n| ≤ 1 := Rounding.abs_le_of_roundRat? hdivide (by exact_mod_cast hless.le)
    rw [Int.abs_eq_natAbs] at hunit
    have hdigit : digitCount n.natAbs = 1 := digitCount_of_lt_ten (by omega)
    refine .inl ⟨n, by omega, ?_⟩
    dsimp only [bind, Except.bind]
    rw [if_neg (by omega)]

/-- What a division returns where the shift is not held has one digit, and is smaller than the
quotient by all the digits of the precision but one. -/
theorem divide_beyond (hprecision : precision ≠ 0) (hx : x.coefficient ≠ 0) (hy : y.coefficient ≠ 0)
    (hbeyond : digitLimit + x.digits < precision.toNat + y.digits)
    (h : x.divide y precision mode = .ok q) : q.digits ≤ 1 ∧
      |q.value| < 10 ^ (1 - (precision.toNat : Int)) * |x.value / y.value| := by
  rcases divide_cases_beyond mode hprecision hx hy hbeyond with ⟨n, hn, hdivide⟩ | hdivide
  swap
  · rw [hdivide] at h
    cases h
  obtain ⟨hvalue, hdigits⟩ := reducedToward_spec (hdivide.symm.trans h)
  rw [digitCount_of_lt_ten (by omega)] at hdigits
  refine ⟨hdigits, ?_⟩
  generalize hguess : guessedShift x y precision = guess at *
  obtain ⟨hlow, -⟩ := guessed_quotient_bounds hx hy precision.toNat hguess
  have hscale : (0 : ℚ) < 10 ^ (1 - (precision.toNat : Int)) := zpow_pos (by norm_num) _
  have hplace := unit_pos (preferredScale x y + guess)
  have hquotient : x.value / y.value = x.coefficient / y.coefficient * 10 ^ guess *
      10 ^ (-(preferredScale x y + guess)) := by
    rw [value_div, mul_assoc, ten_zpow_mul (c := -preferredScale x y) (by ring)]
  have hone : 1 < 10 ^ (1 - (precision.toNat : Int)) *
      |(x.coefficient / y.coefficient * 10 ^ guess : ℚ)| :=
    calc (1 : ℚ) = 10 ^ (1 - (precision.toNat : Int)) * 10 ^ ((precision.toNat : Int) - 1) :=
          (ten_zpow_one_sub_mul _).symm
      _ < _ := mul_lt_mul_of_pos_left hlow hscale
  rw [hvalue, valueOf, hquotient, abs_mul, abs_mul, abs_of_pos hplace, ← mul_assoc]
  refine mul_lt_mul_of_pos_right (lt_of_le_of_lt ?_ hone) hplace
  rw [← Int.cast_abs, Int.abs_eq_natAbs]
  exact_mod_cast hn

end Beyond

/-- What is smaller than a number by at least one digit does not approximate it to this digit. -/
theorem not_abs_sub_lt_of_small {a v tolerance : ℚ} (htolerance : tolerance ≤ 1 / 10)
    (h : |a| < tolerance * |v|) : ¬ |a - v| < tolerance * |v| := by
  intro hnear
  have hsum : |v| ≤ |a - v| + |a| := by
    rw [abs_sub_comm a v]
    simpa using abs_add_le (v - a) a
  have hsmall : tolerance * |v| ≤ 1 / 10 * |v| := mul_le_mul_of_nonneg_right htolerance (abs_nonneg v)
  linarith [abs_nonneg v, abs_nonneg a]

/-- Where the shifts are held, a quotient is not zero and lies closer to the exact one than the unit
of its last digit. -/
theorem divide_within (hprecision : precision ≠ 0) (hx : x.coefficient ≠ 0) (hy : y.coefficient ≠ 0)
    (hxCount : x.digits ≤ digitLimit)
    (hheld : precision.toNat + y.digits ≤ digitLimit + x.digits)
    (h : x.divide y precision mode = .ok q) : q.value ≠ 0 ∧
      |q.value - x.value / y.value| <
        10 ^ (1 - (precision.toNat : Int)) * |x.value / y.value| := by
  rcases divide_cases_of_guess_le mode hprecision hx hy hxCount hheld with
    ⟨c, s, hrounds, -, hdivide⟩ | ⟨-, -, hdivide⟩
  · rw [value_of_ofParts (hdivide.symm.trans h)]
    exact ⟨hrounds.ne_zero (precision_pos hprecision), hrounds.abs_sub_lt⟩
  · rw [hdivide] at h
    cases h

/-- A quotient has no more digits than the precision, whether or not the shift is held. -/
theorem digits_divide_le (hprecision : precision ≠ 0) (hxCount : x.digits ≤ digitLimit)
    (h : x.divide y precision mode = .ok q) : q.digits ≤ precision.toNat := by
  have hpos := precision_pos hprecision
  by_cases hy : y.coefficient = 0
  · rw [divide, if_neg hprecision, if_pos (isZero_iff.mpr hy)] at h
    cases h
  by_cases hx : x.coefficient = 0
  · rw [divide_of_coefficient_eq_zero precision mode hx hy] at h
    cases h
    exact (digits_of_coefficient_eq_zero rfl).trans_le hpos
  rcases Nat.lt_or_ge (digitLimit + x.digits) (precision.toNat + y.digits) with hbeyond | hheld
  · exact (divide_beyond hprecision hx hy hbeyond h).1.trans hpos
  rcases divide_cases_of_guess_le mode hprecision hx hy hxCount hheld with
    ⟨c, s, -, hnearest, hdivide⟩ | ⟨-, -, hdivide⟩
  · rw [digits, (ofParts_eq_ok_iff.mp (hdivide.symm.trans h)).1]
    exact hnearest.digits_le
  · rw [hdivide] at h
    cases h

/-- `aligned`, with the exponents held in a word. -/
def alignedInWord (x y : Decimal) : Int × Int × Int32 :=
  let left := x.scale.toInt
  let right := y.scale.toInt
  if left < right then (x.coefficient * tenPowWord (right - left).toNat, y.coefficient, y.scale)
  else (x.coefficient, y.coefficient * tenPowWord (left - right).toNat, x.scale)

/-- `setScale`, with the exponents held in a word. -/
def setScaleInWord (x : Decimal) (scale : Int32) (mode : Rounding) : Except NumberError Decimal :=
  if x.scale.toInt ≤ scale.toInt then
    .ok ⟨x.coefficient * tenPowWord (scale.toInt - x.scale.toInt).toNat, scale⟩
  else do
    return ⟨← mode.divide x.coefficient (tenPowWord (x.scale.toInt - scale.toInt).toNat), scale⟩

/-- The difference of two scales is held. -/
theorem isHeld_sub_scale (s t : Int32) : IsHeld (s.toInt - t.toInt) := by
  have hsLow := leastScale_le_toInt s
  have hsHigh := toInt_le_greatestScale s
  have htLow := leastScale_le_toInt t
  have htHigh := toInt_le_greatestScale t
  unfold leastScale at hsLow htLow
  unfold greatestScale at hsHigh htHigh
  exact isHeld_iff.mpr ⟨by omega, by omega⟩

/-- Bringing two numbers to one scale loses no bit of an exponent. -/
theorem alignedInWord_eq (x y : Decimal) : alignedInWord x y = aligned x y := by
  rw [alignedInWord, aligned, (isHeld_sub_scale y.scale x.scale).1,
    (isHeld_sub_scale x.scale y.scale).1]

/-- Bringing a number to another scale loses no bit of an exponent. -/
theorem setScaleInWord_eq (x : Decimal) (scale : Int32) (mode : Rounding) :
    x.setScaleInWord scale mode = x.setScale scale mode := by
  rw [setScaleInWord, setScale, (isHeld_sub_scale scale x.scale).1,
    (isHeld_sub_scale x.scale scale).1]

/-- The shifts of a division of two numbers other than zero are held exactly if precision and
divisor exceed the limit by no more than the digits of the dividend, and exactly then is a quotient
that is returned other than zero and right to the last digit but one. The differences of scales are
always held, so that numbers are brought to one scale, and to any scale, by the intended powers. -/
theorem divide_right_iff_shifts_held (mode : Rounding) (hprecision : precision ≠ 0)
    (hx : x.coefficient ≠ 0) (hy : y.coefficient ≠ 0) (hxCount : x.digits ≤ digitLimit)
    (hyCount : y.digits ≤ digitLimit) :
    (IsHeld (guessedShift x y precision) ∧
        IsHeld (quotientShift x.coefficient y.coefficient precision.toNat) ↔
      precision.toNat + y.digits ≤ digitLimit + x.digits) ∧
    (∀ q, x.divide y precision mode = .ok q →
      (q.value ≠ 0 ∧ |q.value - x.value / y.value| <
          10 ^ (1 - (precision.toNat : Int)) * |x.value / y.value| ↔
        precision.toNat + y.digits ≤ digitLimit + x.digits)) ∧
    ∀ (a b : Decimal) (scale : Int32), IsHeld (a.scale.toInt - b.scale.toInt) ∧
      alignedInWord a b = aligned a b ∧ IsHeld (a.scale.toInt - scale.toInt) ∧
      ∀ other, a.setScaleInWord scale other = a.setScale scale other := by
  refine ⟨isHeld_shifts_iff hprecision hx hy hxCount, fun q h => ⟨fun hright => ?_, fun hheld => ?_⟩,
    fun a b scale => ⟨isHeld_sub_scale _ _, alignedInWord_eq a b, isHeld_sub_scale _ _,
      a.setScaleInWord_eq scale⟩⟩
  · by_contra hbeyond
    rw [not_le] at hbeyond
    obtain ⟨-, hsmall⟩ := divide_beyond hprecision hx hy hbeyond h
    have hone : 1 ≤ x.digits := digitCount_pos _
    have htolerance : (10 : ℚ) ^ (1 - (precision.toNat : Int)) ≤ 1 / 10 :=
      calc (10 : ℚ) ^ (1 - (precision.toNat : Int)) ≤ 10 ^ (-1 : Int) :=
            zpow_le_zpow_right₀ (by norm_num) (by omega)
        _ = 1 / 10 := by norm_num
    exact not_abs_sub_lt_of_small htolerance hsmall hright.2
  · exact divide_within hprecision hx hy hxCount hheld h

/-- Two thirds rounded to four digits are right to the third one. At the greatest precision the shift
that a divisor of two digits needs is not held, and the quotient 0 is wrong altogether. -/
theorem divide_right_iff_shifts_held_at_greatest_precision :
    divide ⟨2, 0⟩ ⟨3, 0⟩ 4 .halfEven = .ok ⟨6667, 4⟩ ∧
      |value ⟨6667, 4⟩ - value ⟨2, 0⟩ / value ⟨3, 0⟩| <
        10 ^ (1 - ((4 : UInt32).toNat : Int)) * |value ⟨2, 0⟩ / value ⟨3, 0⟩| ∧
      divide ⟨1, 0⟩ ⟨16, 0⟩ 4294967295 .halfEven = .ok zero ∧
      ¬ (IsHeld (guessedShift ⟨1, 0⟩ ⟨16, 0⟩ 4294967295) ∧
        IsHeld (quotientShift 1 16 (4294967295 : UInt32).toNat)) := by
  have hthirds : divide ⟨2, 0⟩ ⟨3, 0⟩ 4 .halfEven = .ok ⟨6667, 4⟩ := by decide +kernel
  have hlost : divide ⟨1, 0⟩ ⟨16, 0⟩ 4294967295 .halfEven = .ok zero := by decide +kernel
  obtain ⟨-, hright, -⟩ := @divide_right_iff_shifts_held ⟨2, 0⟩ ⟨3, 0⟩ 4 .halfEven (by decide)
    (by decide) (by decide) (by decide +kernel) (by decide +kernel)
  obtain ⟨hheld, -, -⟩ := @divide_right_iff_shifts_held ⟨1, 0⟩ ⟨16, 0⟩ 4294967295 .halfEven
    (by decide) (by decide) (by decide) (by decide +kernel) (by decide +kernel)
  exact ⟨hthirds, ((hright _ hthirds).mpr (by decide +kernel)).2, hlost,
    mt hheld.mp (by decide +kernel)⟩

/-- At the greatest precision one divided by sixteen is zero: the point would have to be moved by
2³² places, and the word keeps none of them. -/
theorem quotient_lost_at_greatest_precision :
    ∃ (x y q : Decimal) (precision : UInt32), precision ≠ 0 ∧ x.digits ≤ 2 ^ 31 ∧
      y.digits ≤ 2 ^ 31 ∧ guessedShift x y precision = 2 ^ 32 ∧
      tenPowWord (guessedShift x y precision).toNat = 1 ∧
      x.value / y.value = 0.0625 ∧ x.divide y precision .halfEven = .ok q ∧ q.value = 0 := by
  refine ⟨⟨1, 0⟩, ⟨16, 0⟩, zero, 4294967295, by decide, by decide +kernel, by decide +kernel,
    by decide +kernel, by decide +kernel, ?_, by decide +kernel, value_zero⟩
  change valueOf 1 0 / valueOf 16 0 = 0.0625
  norm_num

end Decimal

end Monetary
