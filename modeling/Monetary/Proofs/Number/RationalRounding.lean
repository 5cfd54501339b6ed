import Monetary.Proofs.Number.Rounding
import Mathlib.Algebra.Order.Floor.Ring
import Mathlib.Data.Rat.Floor
import Mathlib.Tactic.Linarith

/-!
# Rounding rational numbers to integers

What each mode means for a rational number: an integer is kept, and of the two integers around any
other number the mode takes one. No mode puts the smaller of two numbers above the larger one, since
the upper integer is never given up when the number grows. That integers are kept and the order is
not reversed is all that the theory of precision needs to know about the modes.

The rounded quotient of two integers is the rounded rational quotient, so that it depends on nothing
but the value of the quotient.
-/

namespace Monetary.Rounding

/-- Whether a mode takes the upper one of the two integers around a number, which lies a fraction
above the lower one; none for the mode that must not round. Zero is the upper one of -1 and 0. -/
def takesUpper? (mode : Rounding) (lower : Int) (fraction : ℚ) : Option Bool :=
  match mode with
  | .up => some (0 ≤ lower)
  | .down => some (lower < 0)
  | .ceiling => some true
  | .floor => some false
  | .halfUp => some (1 / 2 < fraction ∨ fraction = 1 / 2 ∧ 0 ≤ lower)
  | .halfDown => some (1 / 2 < fraction ∨ fraction = 1 / 2 ∧ lower < 0)
  | .halfEven => some (1 / 2 < fraction ∨ fraction = 1 / 2 ∧ lower % 2 ≠ 0)
  | .unnecessary => none

/-- The integer that a mode makes of a rational number: the number itself if it is one, otherwise
the one of the two integers around it that the mode takes. -/
def roundRat? (mode : Rounding) (t : ℚ) : Option Int :=
  if Int.fract t = 0 then some ⌊t⌋
  else (mode.takesUpper? ⌊t⌋ (Int.fract t)).map fun upper => if upper then ⌊t⌋ + 1 else ⌊t⌋

variable {mode : Rounding} {s t : ℚ} {m n : Int}

/-- An integer is kept. -/
theorem roundRat?_intCast (mode : Rounding) (n : Int) : mode.roundRat? n = some n := by
  rw [roundRat?, if_pos (Int.fract_intCast n), Int.floor_intCast]

/-- The two integers around a number that lies a fraction above the lower one. -/
theorem floor_ceil_add_fraction (lower : Int) {fraction : ℚ} (hpos : 0 < fraction)
    (hless : fraction < 1) :
    ⌊(lower + fraction : ℚ)⌋ = lower ∧ ⌈(lower + fraction : ℚ)⌉ = lower + 1 := by
  rw [Int.floor_eq_iff, Int.ceil_eq_iff, Int.cast_add, Int.cast_one, add_sub_cancel_right]
  exact ⟨⟨by linarith, by linarith⟩, by linarith, by linarith⟩

/-- How far the two integers around a number lie from it. -/
theorem abs_sub_add_fraction (lower : Int) {fraction : ℚ} (hpos : 0 < fraction)
    (hless : fraction < 1) : |(lower - (lower + fraction) : ℚ)| = fraction ∧
      |((lower + 1 : Int) - (lower + fraction) : ℚ)| = 1 - fraction := by
  constructor
  · rw [sub_add_cancel_left, abs_neg, abs_of_pos hpos]
  · rw [Int.cast_add, Int.cast_one, add_sub_add_left_eq_sub, abs_of_pos (sub_pos.mpr hless)]

/-- Between two integers the mode takes one of them. -/
theorem roundRat?_add_fraction (mode : Rounding) {lower : Int} {fraction : ℚ}
    (hpos : 0 < fraction) (hless : fraction < 1) :
    mode.roundRat? (lower + fraction) =
      (mode.takesUpper? lower fraction).map fun upper => if upper then lower + 1 else lower := by
  have hfract : Int.fract (lower + fraction) = fraction := by
    rw [Int.fract_intCast_add, Int.fract_eq_self.mpr ⟨hpos.le, hless⟩]
  rw [roundRat?, hfract, (floor_ceil_add_fraction lower hpos hless).1, if_neg hpos.ne']

/-- Only the mode that must not round has no integer for a number, and then for just the numbers
that are no integers. -/
theorem roundRat?_eq_none_iff :
    mode.roundRat? t = none ↔ mode = .unnecessary ∧ ¬ ∃ n : Int, t = n := by
  have hinteger : Int.fract t = 0 ↔ ∃ n : Int, t = n := by
    rw [Int.fract_eq_zero_iff]
    exact ⟨fun ⟨n, hn⟩ => ⟨n, hn.symm⟩, fun ⟨n, hn⟩ => ⟨n, hn.symm⟩⟩
  rw [← hinteger]
  unfold roundRat?
  split
  · rename_i hfract
    simp [hfract]
  · rename_i hfract
    cases mode <;> simp [takesUpper?, hfract]

/-- The mode that must not round takes an integer for no number but this integer. -/
theorem roundRat?_unnecessary_iff : unnecessary.roundRat? t = some n ↔ t = n := by
  constructor
  · intro h
    obtain ⟨m, rfl⟩ : ∃ m : Int, t = m := by
      by_contra hnone
      rw [roundRat?_eq_none_iff.mpr ⟨rfl, hnone⟩] at h
      cases h
    rw [Option.some.inj ((roundRat?_intCast unnecessary m).symm.trans h)]
  · rintro rfl
    exact roundRat?_intCast unnecessary n

/-- A number is rounded to the integer below it or to the next one. -/
theorem roundRat?_bounds (h : mode.roundRat? t = some n) : ⌊t⌋ ≤ n ∧ n ≤ ⌊t⌋ + 1 := by
  unfold roundRat? at h
  split at h
  · cases h
    omega
  · obtain ⟨upper, -, rfl⟩ := Option.map_eq_some_iff.mp h
    cases upper <;> simp

/-- The upper integer is not given up when the number between two integers grows. -/
theorem takesUpper?_mono {lower : Int} {f g : ℚ} (h : f ≤ g)
    (hf : mode.takesUpper? lower f = some true) : mode.takesUpper? lower g = some true := by
  rcases h.eq_or_lt with rfl | hless
  · exact hf
  have hhalf {P : Prop} (hf : 1 / 2 < f ∨ f = 1 / 2 ∧ P) : 1 / 2 < g ∨ g = 1 / 2 ∧ P :=
    .inl (hf.elim (·.trans hless) (·.1 ▸ hless))
  cases mode with
  | halfUp | halfDown | halfEven =>
    simp only [takesUpper?, Option.some.injEq, decide_eq_true_eq] at hf ⊢
    exact hhalf hf
  | _ => exact hf

/-- Of two numbers the smaller one is not rounded to the larger integer. -/
theorem roundRat?_mono (h : s ≤ t) (hs : mode.roundRat? s = some m)
    (ht : mode.roundRat? t = some n) : m ≤ n := by
  have hmUpper := (roundRat?_bounds hs).2
  have hnLower := (roundRat?_bounds ht).1
  rcases (Int.floor_mono h).eq_or_lt with hfloor | hfloor
  · -- Between the same two integers the choice of the mode decides.
    have hfract : Int.fract s ≤ Int.fract t := by
      rw [Int.fract, Int.fract, hfloor]
      linarith
    have hfractNonneg := Int.fract_nonneg s
    unfold roundRat? at hs ht
    split at hs
    · cases hs
      omega
    rename_i hsFraction
    rw [if_neg (by intro hzero; exact hsFraction (by linarith)), ← hfloor] at ht
    obtain ⟨upperS, hupperS, rfl⟩ := Option.map_eq_some_iff.mp hs
    obtain ⟨upperT, hupperT, rfl⟩ := Option.map_eq_some_iff.mp ht
    cases upperS with
    | false => cases upperT <;> simp
    | true =>
      obtain rfl : true = upperT :=
        Option.some.inj ((takesUpper?_mono hfract hupperS).symm.trans hupperT)
      exact le_rfl
  · omega

/-- Rounding does not pass an integer from below. -/
theorem le_of_roundRat?_le (h : mode.roundRat? t = some n) (ht : t ≤ m) : n ≤ m :=
  roundRat?_mono ht h (roundRat?_intCast mode m)

/-- Rounding does not pass an integer from above. -/
theorem le_of_le_roundRat? (h : mode.roundRat? t = some n) (ht : m ≤ t) : m ≤ n :=
  roundRat?_mono ht (roundRat?_intCast mode m) h

/-- Rounding does not make a number larger in size than an integer that it does not exceed. -/
theorem abs_le_of_roundRat? (h : mode.roundRat? t = some n) (ht : |t| ≤ m) : |n| ≤ m := by
  obtain ⟨hlow, hhigh⟩ := abs_le.mp ht
  exact abs_le.mpr ⟨le_of_le_roundRat? h (by exact_mod_cast hlow), le_of_roundRat?_le h hhigh⟩

/-- Rounding does not make a number smaller in size than an integer that it reaches. -/
theorem le_abs_of_roundRat? (h : mode.roundRat? t = some n) (ht : m ≤ |t|) : m ≤ |n| := by
  rcases le_abs'.mp ht with hlow | hhigh
  · exact le_abs'.mpr (.inl (le_of_roundRat?_le h (by exact_mod_cast hlow)))
  · exact le_abs'.mpr (.inr (le_of_le_roundRat? h hhigh))

/-- Rounding moves a number by less than one. -/
theorem abs_roundRat?_sub_lt (h : mode.roundRat? t = some n) : |(n - t : ℚ)| < 1 := by
  have hlow : ⌊t⌋ ≤ n := le_of_le_roundRat? h (Int.floor_le t)
  have hhigh : n ≤ ⌈t⌉ := le_of_roundRat?_le h (Int.le_ceil t)
  have hlowCast : (⌊t⌋ : ℚ) ≤ n := Int.cast_le.mpr hlow
  have hhighCast : (n : ℚ) ≤ ⌈t⌉ := Int.cast_le.mpr hhigh
  have hfloor := Int.lt_floor_add_one t
  have hceil := Int.ceil_lt_add_one t
  rw [abs_lt]
  constructor <;> linarith

section Divide

variable {quotient remainder divisor : Int}

/-- A remainder above zero is a fraction of the divisor. -/
theorem div_fraction (hpos : 0 < remainder) (hless : remainder < divisor) :
    (0 : ℚ) < remainder / divisor ∧ (remainder / divisor : ℚ) < 1 := by
  have hdivisor : (0 : ℚ) < divisor := Int.cast_pos.mpr (hpos.trans hless)
  exact ⟨div_pos (Int.cast_pos.mpr hpos) hdivisor,
    (div_lt_one hdivisor).mpr (Int.cast_lt.mpr hless)⟩

/-- A remainder lies beyond the middle of the divisor, or at it, as twice the remainder lies beyond
the divisor, or at it. -/
theorem div_middle_iff (hdivisor : 0 < divisor) (remainder : Int) :
    ((1 / 2 : ℚ) < remainder / divisor ↔ divisor < 2 * remainder) ∧
      ((remainder / divisor : ℚ) = 1 / 2 ↔ 2 * remainder = divisor) := by
  have hdivisorCast : (0 : ℚ) < divisor := Int.cast_pos.mpr hdivisor
  rw [div_lt_div_iff₀ two_pos hdivisorCast, div_eq_div_iff hdivisorCast.ne' two_ne_zero, one_mul,
    mul_comm (remainder : ℚ)]
  exact ⟨by exact_mod_cast Iff.rfl, by exact_mod_cast Iff.rfl⟩

/-- Above zero, moving away from zero is taking the upper integer. -/
theorem movesAway_of_pos (mode : Rounding) (hquotient : 0 ≤ quotient) (hpos : 0 < remainder)
    (hless : remainder < divisor) : (mode.movesAway quotient remainder divisor).toOption =
      mode.takesUpper? quotient (remainder / divisor) := by
  obtain ⟨hbeyond, hmiddle⟩ := div_middle_iff (hpos.trans hless) remainder
  cases mode with
  | up | down | ceiling | floor =>
    simp [movesAway, takesUpper?, Except.toOption]
    omega
  | halfUp | halfDown | halfEven =>
    refine congrArg some (Bool.eq_iff_iff.mpr ?_)
    simp only [hbeyond, hmiddle, decide_eq_true_eq, Bool.or_eq_true, Bool.and_eq_true, beq_iff_eq,
      bne_iff_ne]
    omega
  | unnecessary => rfl

/-- Below zero, moving away from zero is taking the lower integer. -/
theorem movesAway_of_neg (mode : Rounding) (hquotient : quotient ≤ 0) (hneg : remainder < 0)
    (hless : -remainder < divisor) : (mode.movesAway quotient remainder divisor).toOption =
      (mode.takesUpper? (quotient - 1) ((remainder + divisor : Int) / divisor)).map (!·) := by
  obtain ⟨hbeyond, hmiddle⟩ := div_middle_iff (by omega : 0 < divisor) (remainder + divisor)
  cases mode with
  | up | down | ceiling | floor =>
    simp [movesAway, takesUpper?, Except.toOption]
    omega
  | halfUp | halfDown | halfEven =>
    refine congrArg some (Bool.eq_iff_iff.mpr ?_)
    simp only [hbeyond, hmiddle, decide_eq_true_eq, Bool.not_eq_true', decide_eq_false_iff_not,
      Bool.or_eq_true, Bool.and_eq_true, beq_iff_eq, bne_iff_ne]
    omega
  | unnecessary => rfl

/-- The truncated quotient and the remainder lie on one side of zero. -/
theorem tdiv_tmod_sign (dividend : Int) {divisor : Int} (hdivisor : 0 < divisor) :
    (0 ≤ dividend.tdiv divisor ∧ 0 ≤ dividend.tmod divisor) ∨
      (dividend.tdiv divisor ≤ 0 ∧ dividend.tmod divisor ≤ 0) := by
  rcases Int.le_total 0 dividend with hdividend | hdividend
  · exact .inl ⟨Int.tdiv_nonneg hdividend hdivisor.le, Int.tmod_nonneg _ hdividend⟩
  · obtain ⟨opposite, rfl⟩ : ∃ opposite, dividend = -opposite := ⟨-dividend, by omega⟩
    have hopposite : 0 ≤ opposite := by omega
    have hquotient := Int.tdiv_nonneg hopposite hdivisor.le
    have hremainder := Int.tmod_nonneg divisor hopposite
    rw [Int.neg_tdiv, Int.neg_tmod]
    exact .inr ⟨by omega, by omega⟩

/-- An integer quotient with a remainder above zero is rounded to itself or to the next integer. -/
theorem roundRat?_of_remainder (mode : Rounding) (quotient : Int) (hpos : 0 < remainder)
    (hless : remainder < divisor) :
    mode.roundRat? ((quotient * divisor + remainder : Int) / divisor) =
      (mode.takesUpper? quotient (remainder / divisor)).map fun upper =>
        if upper then quotient + 1 else quotient := by
  obtain ⟨hfractionPos, hfractionLess⟩ := div_fraction hpos hless
  have hdivisor : (divisor : ℚ) ≠ 0 := Int.cast_ne_zero.mpr (hpos.trans hless).ne'
  rw [Int.cast_add, Int.cast_mul, add_div, mul_div_cancel_right₀ _ hdivisor,
    roundRat?_add_fraction mode hfractionPos hfractionLess]

/-- The rounded quotient by a positive divisor is the rounded rational quotient. -/
theorem divideByPositive_toOption (mode : Rounding) (dividend : Int) {divisor : Int}
    (hdivisor : 0 < divisor) :
    (mode.divideByPositive dividend divisor).toOption = mode.roundRat? (dividend / divisor) := by
  have hsplit := Int.tdiv_mul_add_tmod dividend divisor
  have hhigh := Int.tmod_lt_of_pos dividend hdivisor
  have hlow := Int.lt_tmod_of_pos dividend hdivisor
  have hside := tdiv_tmod_sign dividend hdivisor
  unfold divideByPositive
  dsimp only
  generalize dividend.tdiv divisor = quotient at *
  generalize dividend.tmod divisor = remainder at *
  subst hsplit
  split
  · rename_i hzero
    rw [hzero, add_zero, Int.cast_mul,
      mul_div_cancel_right₀ _ (Int.cast_ne_zero.mpr hdivisor.ne'), roundRat?_intCast]
    rfl
  rename_i hnonzero
  rw [toOption_bind_pure (mode.movesAway quotient remainder divisor)]
  rcases Int.lt_or_gt_of_ne hnonzero with hneg | hpos
  · -- Below zero the truncated quotient is the upper one of the two integers.
    have hlower : quotient * divisor + remainder =
        (quotient - 1) * divisor + (remainder + divisor) := by ring
    rw [hlower, roundRat?_of_remainder mode (quotient - 1) (by omega) (by omega),
      movesAway_of_neg mode (by omega) hneg (by omega), Option.map_map]
    congr 1
    funext upper
    cases upper <;> simp [hneg]
  · rw [roundRat?_of_remainder mode quotient hpos hhigh,
      movesAway_of_pos mode (by omega) hpos hhigh, if_neg (not_lt.mpr hpos.le)]

/-- The rounded quotient is the rounded rational quotient. -/
theorem divide_toOption (mode : Rounding) (dividend : Int) {divisor : Int}
    (hdivisor : divisor ≠ 0) :
    (mode.divide dividend divisor).toOption = mode.roundRat? (dividend / divisor) := by
  rw [divide, if_neg hdivisor]
  split
  · rw [divideByPositive_toOption mode _ (by omega), Int.cast_neg, Int.cast_neg, neg_div_neg_eq]
  · exact divideByPositive_toOption mode _ (by omega)

/-- A rounded quotient is had exactly if the rational quotient is rounded to it. -/
theorem divide_eq_ok_iff {mode : Rounding} {dividend divisor quotient : Int}
    (hdivisor : divisor ≠ 0) : mode.divide dividend divisor = .ok quotient ↔
      mode.roundRat? (dividend / divisor) = some quotient := by
  rw [← divide_toOption mode dividend hdivisor, toOption_eq_some_iff]

/-- A rational quotient that is no integer is not to be had without rounding. -/
theorem divide_unnecessary_of_forall_ne {dividend divisor : Int} (hdivisor : divisor ≠ 0)
    (h : ¬ ∃ quotient : Int, (dividend / divisor : ℚ) = quotient) :
    unnecessary.divide dividend divisor = .error .roundingNecessary := by
  refine divide_unnecessary_of_not_dvd hdivisor ?_
  rintro ⟨quotient, rfl⟩
  exact h ⟨quotient, by rw [Int.cast_mul, mul_div_cancel_left₀ _ (Int.cast_ne_zero.mpr hdivisor)]⟩

/-- The only fault of a quotient by a number other than zero is that it is no integer and must not
be rounded. -/
theorem divide_eq_error_iff {mode : Rounding} {dividend divisor : Int} {error : NumberError}
    (hdivisor : divisor ≠ 0) : mode.divide dividend divisor = .error error ↔
      error = .roundingNecessary ∧ mode = .unnecessary ∧
        ¬ ∃ quotient : Int, (dividend / divisor : ℚ) = quotient := by
  constructor
  · intro h
    have hnone : mode.roundRat? (dividend / divisor) = none := by
      rw [← divide_toOption mode dividend hdivisor, h]
      rfl
    obtain ⟨rfl, hinteger⟩ := roundRat?_eq_none_iff.mp hnone
    rw [divide_unnecessary_of_forall_ne hdivisor hinteger] at h
    exact ⟨(Except.error.inj h).symm, rfl, hinteger⟩
  · rintro ⟨rfl, rfl, hinteger⟩
    exact divide_unnecessary_of_forall_ne hdivisor hinteger

/-- Equal rational quotients have equal rounded quotients, or none for the same reason. -/
theorem divide_congr (mode : Rounding) {a b c d : Int} (hb : b ≠ 0) (hd : d ≠ 0)
    (h : (a / b : ℚ) = c / d) : mode.divide a b = mode.divide c d := by
  cases hresult : mode.divide c d with
  | ok quotient => rwa [divide_eq_ok_iff hb, h, ← divide_eq_ok_iff hd]
  | error error => rwa [divide_eq_error_iff hb, h, ← divide_eq_error_iff hd]

/-- A factor of dividend and divisor, above or below zero, makes no difference to the quotient. -/
theorem divide_mul_left (mode : Rounding) {factor : Int} (hfactor : factor ≠ 0)
    (dividend divisor : Int) :
    mode.divide (factor * dividend) (factor * divisor) = mode.divide dividend divisor := by
  by_cases hdivisor : divisor = 0
  · rw [hdivisor, mul_zero]
    rfl
  · refine divide_congr mode (mul_ne_zero hfactor hdivisor) hdivisor ?_
    rw [Int.cast_mul, Int.cast_mul, mul_div_mul_left _ _ (Int.cast_ne_zero.mpr hfactor)]

end Divide

end Monetary.Rounding
