import Monetary.Proofs.Number.RationalRounding

/-!
# The neighbour that a mode prefers

A number lies between two integers, its neighbours; an integer is its own only neighbour. A mode says
which of two neighbours it prefers: the one away from zero or toward it, the larger or the smaller
one, or the nearer one with a word on ties. The integer that it prescribes is the neighbour that it
prefers to any other. The mode that must not round prefers no neighbour to another one, so that it
prescribes integers for integers only.

Division asks for none of this. It truncates the quotient, which is the lower neighbour above zero and
the upper one below, and from the remainder it tells whether to move on by one. Between the two
stands the choice of the mode between lower and upper neighbour, on either side of zero alike.
-/

namespace Monetary.Rounding

/-- An integer is one of the two around a number, or the number itself. -/
def IsNeighbour (t : ℚ) (n : Int) : Prop :=
  n = ⌊t⌋ ∨ n = ⌈t⌉

/-- An integer lies nearer to a number than another one, or just as near where a tie goes to it. -/
def IsNearer (t : ℚ) (n other : Int) (tie : Prop) : Prop :=
  |n - t| < |other - t| ∨ |n - t| = |other - t| ∧ tie

/-- A mode prefers an integer to another one, both of them neighbours of a number. -/
def Prefers (mode : Rounding) (t : ℚ) (n other : Int) : Prop :=
  match mode with
  | .up => |other| < |n|
  | .down => |n| < |other|
  | .ceiling => other < n
  | .floor => n < other
  | .halfUp => IsNearer t n other (|other| < |n|)
  | .halfDown => IsNearer t n other (|n| < |other|)
  | .halfEven => IsNearer t n other (n % 2 = 0)
  | .unnecessary => False

/-- The integer that a mode prescribes for a number is the neighbour that it prefers to any other. -/
def Prescribes (mode : Rounding) (t : ℚ) (n : Int) : Prop :=
  IsNeighbour t n ∧ ∀ other, IsNeighbour t other → other ≠ n → mode.Prefers t n other

variable {mode : Rounding} {t fraction : ℚ} {m n lower : Int}

/-- An integer is its own only neighbour. -/
theorem isNeighbour_intCast_iff : IsNeighbour m n ↔ n = m := by
  rw [IsNeighbour, Int.floor_intCast, Int.ceil_intCast, or_self]

/-- The neighbours of a number between two integers are these two. -/
theorem isNeighbour_add_fraction_iff (hpos : 0 < fraction) (hless : fraction < 1) :
    IsNeighbour (lower + fraction) n ↔ n = lower ∨ n = lower + 1 := by
  obtain ⟨hfloor, hceil⟩ := floor_ceil_add_fraction lower hpos hless
  rw [IsNeighbour, hfloor, hceil]

/-- For an integer every mode prescribes the integer. -/
theorem prescribes_intCast_iff : mode.Prescribes m n ↔ n = m := by
  simp only [Prescribes, isNeighbour_intCast_iff]
  constructor
  · rintro ⟨rfl, -⟩
    rfl
  · rintro rfl
    exact ⟨rfl, fun other hsame hother => absurd hsame hother⟩

/-- Between two integers a mode prescribes the one that it prefers to the other. -/
theorem prescribes_add_fraction_iff (hpos : 0 < fraction) (hless : fraction < 1) :
    mode.Prescribes (lower + fraction) n ↔
      n = lower + 1 ∧ mode.Prefers (lower + fraction) (lower + 1) lower ∨
        n = lower ∧ mode.Prefers (lower + fraction) lower (lower + 1) := by
  simp only [Prescribes, isNeighbour_add_fraction_iff hpos hless]
  constructor
  · rintro ⟨rfl | rfl, hprefers⟩
    · exact .inr ⟨rfl, hprefers _ (.inr rfl) (by omega)⟩
    · exact .inl ⟨rfl, hprefers _ (.inl rfl) (by omega)⟩
  · rintro (⟨rfl, hprefers⟩ | ⟨rfl, hprefers⟩)
    · refine ⟨.inr rfl, ?_⟩
      rintro other (rfl | rfl) hother
      · exact hprefers
      · exact absurd rfl hother
    · refine ⟨.inl rfl, ?_⟩
      rintro other (rfl | rfl) hother
      · exact absurd rfl hother
      · exact hprefers

/-- Of two integers in a row the upper one is larger in size from zero on, and the lower one below. -/
theorem abs_lt_abs_add_one_iff (lower : Int) :
    (|lower| < |lower + 1| ↔ 0 ≤ lower) ∧ (|lower + 1| < |lower| ↔ lower < 0) := by
  rw [Int.abs_eq_natAbs, Int.abs_eq_natAbs]
  omega

/-- The upper neighbour is the nearer one beyond the middle. -/
theorem isNearer_upper_iff (hpos : 0 < fraction) (hless : fraction < 1) (tie : Prop) :
    IsNearer (lower + fraction) (lower + 1) lower tie ↔
      1 / 2 < fraction ∨ fraction = 1 / 2 ∧ tie := by
  obtain ⟨hlower, hupper⟩ := abs_sub_add_fraction lower hpos hless
  have hbeyond : 1 - fraction < fraction ↔ 1 / 2 < fraction := by
    constructor <;> intro h <;> linarith
  have hmiddle : 1 - fraction = fraction ↔ fraction = 1 / 2 := by
    constructor <;> intro h <;> linarith
  rw [IsNearer, hlower, hupper, hbeyond, hmiddle]

/-- The lower neighbour is the nearer one unless the number lies beyond the middle, or in the middle
and the tie does not go to it. -/
theorem isNearer_lower_iff (hpos : 0 < fraction) (hless : fraction < 1) (tie : Prop) :
    IsNearer (lower + fraction) lower (lower + 1) tie ↔
      ¬ (1 / 2 < fraction ∨ fraction = 1 / 2 ∧ ¬ tie) := by
  obtain ⟨hlower, hupper⟩ := abs_sub_add_fraction lower hpos hless
  rw [IsNearer, hlower, hupper]
  grind

/-- A mode takes the neighbour that it prefers. -/
theorem takesUpper?_iff_prefers (mode : Rounding) (lower : Int) (hpos : 0 < fraction)
    (hless : fraction < 1) :
    (mode.takesUpper? lower fraction = some true ↔
        mode.Prefers (lower + fraction) (lower + 1) lower) ∧
      (mode.takesUpper? lower fraction = some false ↔
        mode.Prefers (lower + fraction) lower (lower + 1)) := by
  obtain ⟨haway, htoward⟩ := abs_lt_abs_add_one_iff lower
  have heven : (lower + 1) % 2 = 0 ↔ lower % 2 ≠ 0 := by omega
  cases mode with
  | up | down | ceiling | floor => simp [takesUpper?, Prefers, haway, htoward]
  | halfUp | halfDown | halfEven =>
    simp only [takesUpper?, Prefers, isNearer_upper_iff hpos hless, isNearer_lower_iff hpos hless,
      haway, htoward, heven, Option.some.injEq, decide_eq_true_eq, decide_eq_false_iff_not, not_le,
      not_lt, and_self]
  | unnecessary => simp [takesUpper?, Prefers]

/-- A number is rounded to the integer that the mode prescribes. -/
theorem roundRat?_eq_some_iff : mode.roundRat? t = some n ↔ mode.Prescribes t n := by
  rw [← Int.floor_add_fract t]
  rcases (Int.fract_nonneg t).eq_or_lt with hinteger | hpos
  · rw [← hinteger, add_zero, roundRat?_intCast, prescribes_intCast_iff, Option.some.injEq, eq_comm]
  -- The lower neighbour is the floor, and the fraction above it decides for every mode alike.
  have hless := Int.fract_lt_one t
  obtain ⟨hupper, hlower⟩ := takesUpper?_iff_prefers mode ⌊t⌋ hpos hless
  rw [roundRat?_add_fraction mode hpos hless, prescribes_add_fraction_iff hpos hless, ← hupper,
    ← hlower]
  cases mode.takesUpper? ⌊t⌋ (Int.fract t) with
  | none => simp
  | some upper => cases upper <;> simp [eq_comm]

/-- The quotient of two integers is the one that the mode prescribes for the rational quotient. Every
mode returns one, an integer as it is, but for the mode that must not round, which returns integers
only and otherwise fails for that reason; and every mode fails for the divisor zero. No more counts
than the rational quotient, and so no factor of dividend and divisor, above or below zero. -/
theorem divide_takes_preferred_neighbour (mode : Rounding) (dividend divisor : Int) :
    (divisor = 0 → mode.divide dividend divisor = .error .divisionByZero) ∧
    (divisor ≠ 0 →
      (∀ quotient, mode.divide dividend divisor = .ok quotient ↔
        mode.Prescribes (dividend / divisor) quotient) ∧
      (mode ≠ .unnecessary → ∃ quotient, mode.divide dividend divisor = .ok quotient) ∧
      (∀ quotient : Int, (dividend / divisor : ℚ) = quotient →
        mode.divide dividend divisor = .ok quotient) ∧
      (∀ error, mode.divide dividend divisor = .error error ↔ error = .roundingNecessary ∧
        mode = .unnecessary ∧ ¬ ∃ quotient : Int, (dividend / divisor : ℚ) = quotient) ∧
      ∀ otherDividend otherDivisor : Int, otherDivisor ≠ 0 →
        (otherDividend / otherDivisor : ℚ) = dividend / divisor →
          mode.divide otherDividend otherDivisor = mode.divide dividend divisor) ∧
    ∀ factor : Int, factor ≠ 0 →
      mode.divide (factor * dividend) (factor * divisor) = mode.divide dividend divisor := by
  refine ⟨fun hzero => if_pos hzero, fun hdivisor => ⟨fun quotient => ?_, fun hmode => ?_,
    fun quotient hquotient => ?_, fun error => divide_eq_error_iff hdivisor,
    fun otherDividend otherDivisor hother hsame => divide_congr mode hother hdivisor hsame⟩,
    fun factor hfactor => divide_mul_left mode hfactor dividend divisor⟩
  · rw [divide_eq_ok_iff hdivisor, roundRat?_eq_some_iff]
  · cases hresult : mode.divide dividend divisor with
    | ok quotient => exact ⟨quotient, rfl⟩
    | error error => exact absurd ((divide_eq_error_iff hdivisor).mp hresult).2.1 hmode
  · rw [divide_eq_ok_iff hdivisor, hquotient, roundRat?_intCast]

/-- Seven divided by minus two lies in the middle between -4 and -3, and the even one is taken; so it
is for -35 divided by 10. The mode that must not round takes neither of the two. -/
theorem divide_takes_preferred_neighbour_at_tie :
    halfEven.divide 7 (-2) = .ok (-4) ∧ halfEven.Prescribes ((7 : Int) / (-2 : Int)) (-4) ∧
      halfDown.divide 7 (-2) = .ok (-3) ∧ halfDown.Prescribes ((7 : Int) / (-2 : Int)) (-3) ∧
      halfEven.divide (-5 * 7) (-5 * -2) = .ok (-4) ∧
      unnecessary.divide 7 (-2) = .error .roundingNecessary ∧
      (¬ ∃ quotient : Int, ((7 : Int) / (-2 : Int) : ℚ) = quotient) ∧
      up.divide 7 0 = .error .divisionByZero := by
  have heven : halfEven.divide 7 (-2) = .ok (-4) := by decide +kernel
  have hdown : halfDown.divide 7 (-2) = .ok (-3) := by decide +kernel
  have hlost : unnecessary.divide 7 (-2) = .error .roundingNecessary := by decide +kernel
  obtain ⟨-, hquotient, hfactor⟩ := divide_takes_preferred_neighbour halfEven 7 (-2)
  obtain ⟨-, hother, -⟩ := divide_takes_preferred_neighbour halfDown 7 (-2)
  obtain ⟨-, hfault, -⟩ := divide_takes_preferred_neighbour unnecessary 7 (-2)
  obtain ⟨hzero, -⟩ := divide_takes_preferred_neighbour up 7 0
  exact ⟨heven, ((hquotient (by decide)).1 _).mp heven, hdown,
    ((hother (by decide)).1 _).mp hdown, (hfactor (-5) (by decide)).trans heven, hlost,
    (((hfault (by decide)).2.2.2.1 _).mp hlost).2.2, hzero rfl⟩

end Monetary.Rounding
