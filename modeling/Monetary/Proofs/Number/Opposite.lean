import Monetary.Proofs.Number.Rounding

/-!
# Rounding opposite quotients

A quotient and its opposite have opposite truncated quotients and remainders, so that twice the
remainder reaches the divisor for both or for neither, and the truncated quotient is odd for both or
for neither. Six of the modes ask no more than that. The other two ask for the sign of the remainder,
and change places. The sign of the divisor makes no difference of its own, since it is moved to the
dividend before anything is divided.
-/

namespace Monetary.Rounding

/-- The mode that rounds opposite quotients to opposite integers: ceiling and floor change places. -/
def dual : Rounding → Rounding
  | .ceiling => .floor
  | .floor => .ceiling
  | mode => mode

/-- The opposite of the truncated quotient moves away from zero exactly if the quotient does. -/
theorem movesAway_neg (mode : Rounding) (quotient remainder divisor : Int) :
    mode.dual.movesAway (-quotient) (-remainder) divisor =
      mode.movesAway quotient remainder divisor := by
  have hparity : -quotient % 2 = quotient % 2 := by omega
  cases mode <;> simp [dual, movesAway, hparity]

/-- Divided by a positive divisor, the opposite dividend has the opposite quotient. -/
theorem divideByPositive_neg (mode : Rounding) (dividend divisor : Int) :
    mode.dual.divideByPositive (-dividend) divisor =
      (mode.divideByPositive dividend divisor).map (-·) := by
  simp only [divideByPositive, Int.neg_tdiv, Int.neg_tmod, movesAway_neg, neg_eq_zero]
  by_cases hexact : dividend.tmod divisor = 0
  · rw [if_pos hexact, if_pos hexact]
    rfl
  rw [if_neg hexact, if_neg hexact]
  cases mode.movesAway (dividend.tdiv divisor) (dividend.tmod divisor) divisor with
  | error error => rfl
  | ok away =>
    refine congrArg Except.ok ?_
    dsimp only
    -- The remainders have opposite signs, so that both quotients move away from zero.
    split
    · split <;> split <;> omega
    · rfl

/-- The opposite dividend has the opposite quotient. -/
theorem divide_neg_left (mode : Rounding) (dividend divisor : Int) :
    mode.dual.divide (-dividend) divisor = (mode.divide dividend divisor).map (-·) := by
  unfold divide
  split
  · rfl
  split
  · exact divideByPositive_neg mode (-dividend) (-divisor)
  · exact divideByPositive_neg mode dividend divisor

/-- Dividing by the opposite divisor is dividing the opposite dividend. -/
theorem divide_neg_right (mode : Rounding) (dividend divisor : Int) :
    mode.divide dividend (-divisor) = mode.divide (-dividend) divisor := by
  unfold divide
  rcases Int.lt_trichotomy divisor 0 with hneg | rfl | hpos
  · rw [if_neg (by omega), if_neg (by omega), if_neg (by omega), if_pos hneg, neg_neg]
  · rfl
  · rw [if_neg (by omega), if_pos (by omega), if_neg (by omega), if_neg (by omega), neg_neg]

end Monetary.Rounding
