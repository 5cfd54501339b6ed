import Monetary.Proofs.Decimal.ExactDivision
import Monetary.Proofs.Number.Opposite

/-!
# Opposite numbers

Rounding, rescaling and dividing do to the opposite of a number just the opposite of what they do to
the number, if ceiling and floor change places. All that they ask of a coefficient besides its
rounded quotient is how many digits it has and whether it ends in zero, and neither depends on the
sign. The scale of the result is therefore the same, and where one of the two computations fails the
other one fails with the same error, also at the limits of the 32-bit word and of the scales.
-/

namespace Monetary.Decimal

/-- The opposite number has the opposite coefficient. -/
@[simp] theorem coefficient_neg (x : Decimal) : x.neg.coefficient = -x.coefficient := rfl

/-- The opposite number has the same scale. -/
@[simp] theorem scale_neg (x : Decimal) : x.neg.scale = x.scale := rfl

/-- The opposite number has the same digits. -/
@[simp] theorem digits_neg (x : Decimal) : x.neg.digits = x.digits := by
  rw [digits, digits, coefficient_neg, Int.natAbs_neg]

/-- The opposite number is zero exactly if the number is. -/
@[simp] theorem isZero_neg (x : Decimal) : x.neg.isZero = x.isZero := by
  rw [Bool.eq_iff_iff, isZero_iff, isZero_iff]
  exact neg_eq_zero

/-- The opposite coefficient makes the opposite number. -/
theorem ofParts_neg (coefficient scale : Int) :
    ofParts (-coefficient) scale = (ofParts coefficient scale).map neg := by
  unfold ofParts
  cases checkScale scale <;> rfl

/-- The opposite coefficient has the same zeros to drop. -/
theorem dropZeros_neg (coefficient scale least : Int) :
    dropZeros (-coefficient) scale least =
      (-(dropZeros coefficient scale least).1, (dropZeros coefficient scale least).2) := by
  fun_induction dropZeros coefficient scale least with
  | case1 coefficient scale hzero ih =>
    rw [dropZeros, if_pos ⟨hzero.1, by omega⟩,
      show -coefficient / 10 = -(coefficient / 10) by omega, ih]
  | case2 coefficient scale hdone => exact dropZeros_eq_self (by omega)

/-- The opposite coefficient is reduced to the opposite number. -/
theorem reducedToward_neg (coefficient scale preferred : Int) :
    reducedToward (-coefficient) scale preferred =
      (reducedToward coefficient scale preferred).map neg := by
  unfold reducedToward
  by_cases hzero : coefficient = 0
  · rw [if_pos (neg_eq_zero.mpr hzero), if_pos hzero]
    rfl
  · rw [if_neg (neg_ne_zero.mpr hzero), if_neg hzero, dropZeros_neg]
    exact ofParts_neg _ _

/-- A coefficient that may have carried into a new digit has the same carry as its opposite. -/
theorem carried_neg (make : Int → Int → Except NumberError Decimal)
    (hmake : ∀ coefficient scale, make (-coefficient) scale = (make coefficient scale).map neg)
    (precision : Nat) (quotient scale : Int) :
    (if precision < digitCount (-quotient).natAbs then make ((-quotient).tdiv 10) (scale - 1)
        else make (-quotient) scale) =
      (if precision < digitCount quotient.natAbs then make (quotient.tdiv 10) (scale - 1)
        else make quotient scale).map neg := by
  rw [Int.natAbs_neg, Int.neg_tdiv]
  split <;> exact hmake _ _

/-- The opposite of a number is rounded to the opposite result. -/
theorem round_neg (x : Decimal) (precision : UInt32) (mode : Rounding) :
    x.neg.round precision mode.dual = (x.round precision mode).map neg := by
  unfold round
  rw [digits_neg]
  split
  · rfl
  · rw [coefficient_neg]
    dsimp only
    rw [mode.divide_neg_left]
    exact map_bind_eq fun quotient => carried_neg ofParts ofParts_neg _ _ _

/-- The opposite of a number is brought to a scale as the opposite result. -/
theorem setScale_neg (x : Decimal) (scale : Int32) (mode : Rounding) :
    x.neg.setScale scale mode.dual = (x.setScale scale mode).map neg := by
  unfold setScale
  rw [coefficient_neg, scale_neg]
  split
  · rw [Int.neg_mul]
    rfl
  · rw [mode.divide_neg_left]
    exact map_bind_eq fun quotient => rfl

section Divide

variable (x y : Decimal) (precision : UInt32) (mode : Rounding)

/-- The preferred scale does not ask for the sign of the dividend. -/
@[simp] theorem preferredScale_neg_left : preferredScale x.neg y = preferredScale x y := rfl

/-- The preferred scale does not ask for the sign of the divisor. -/
@[simp] theorem preferredScale_neg_right : preferredScale x y.neg = preferredScale x y := rfl

/-- The opposite of a number has the opposite exact quotient. -/
theorem divideExactly_neg_left : x.neg.divideExactly y = (x.divideExactly y).map neg := by
  unfold divideExactly
  rw [isZero_neg, preferredScale_neg_left, coefficient_neg, Int.natAbs_neg]
  dsimp only
  rw [Int.neg_mul, Int.neg_tdiv]
  split
  · rfl
  split
  · rfl
  split
  · rfl
  · exact ofParts_neg _ _

/-- A divisor and its opposite need as many places. -/
theorem placesHeld_neg_right : PlacesHeld x y.neg ↔ PlacesHeld x y := by
  simp only [PlacesHeld, coefficient_neg, Int.neg_dvd]

/-- By the opposite of a number there is the opposite exact quotient. -/
theorem divideExactly_neg_right : x.divideExactly y.neg = (x.divideExactly y).map neg := by
  unfold divideExactly
  rw [isZero_neg, preferredScale_neg_right, coefficient_neg, Int.natAbs_neg]
  dsimp only
  rw [Int.tdiv_neg]
  split
  · rfl
  split
  · rfl
  split
  · rfl
  · exact ofParts_neg _ _

/-- The opposite dividend is shifted to the opposite dividend. -/
theorem shiftedOperands_neg_left (dividend divisor shift : Int) :
    shiftedOperands (-dividend) divisor shift =
      (-(shiftedOperands dividend divisor shift).1, (shiftedOperands dividend divisor shift).2) := by
  unfold shiftedOperands
  split
  · rw [Int.neg_mul]
  · rfl

/-- The opposite divisor is shifted to the opposite divisor. -/
theorem shiftedOperands_neg_right (dividend divisor shift : Int) :
    shiftedOperands dividend (-divisor) shift =
      ((shiftedOperands dividend divisor shift).1, -(shiftedOperands dividend divisor shift).2) := by
  unfold shiftedOperands
  split
  · rfl
  · rw [Int.neg_mul]

/-- A truncated quotient has the digits of its opposite, whichever operand has the other sign. -/
theorem quotientDigits_neg (operands : Int × Int) :
    quotientDigits (-operands.1, operands.2) = quotientDigits operands ∧
      quotientDigits (operands.1, -operands.2) = quotientDigits operands := by
  simp only [quotientDigits, Int.neg_tdiv, Int.tdiv_neg, Int.natAbs_neg, and_self]

/-- The shift does not ask for the sign of the dividend. -/
theorem quotientShift_neg_left (dividend divisor : Int) (digits : Nat) :
    quotientShift (-dividend) divisor digits = quotientShift dividend divisor digits := by
  unfold quotientShift
  rw [Int.natAbs_neg]
  dsimp only
  rw [shiftedOperands_neg_left, (quotientDigits_neg _).1]

/-- The shift does not ask for the sign of the divisor. -/
theorem quotientShift_neg_right (dividend divisor : Int) (digits : Nat) :
    quotientShift dividend (-divisor) digits = quotientShift dividend divisor digits := by
  unfold quotientShift
  rw [Int.natAbs_neg]
  dsimp only
  rw [shiftedOperands_neg_right, (quotientDigits_neg _).2]

/-- The opposite of a number is divided to the opposite quotient. -/
theorem divide_neg_left :
    x.neg.divide y precision mode.dual = (x.divide y precision mode).map neg := by
  unfold divide
  rw [isZero_neg, divideExactly_neg_left, preferredScale_neg_left, coefficient_neg,
    quotientShift_neg_left]
  dsimp only
  rw [shiftedOperands_neg_left, mode.divide_neg_left]
  split
  · rfl
  split
  · rfl
  split
  · rfl
  · exact map_bind_eq fun quotient => carried_neg (reducedToward · · (preferredScale x y))
      (reducedToward_neg · · _) _ _ _

/-- A number is divided by the opposite of another one to the opposite quotient. -/
theorem divide_neg_right :
    x.divide y.neg precision mode.dual = (x.divide y precision mode).map neg := by
  unfold divide
  rw [isZero_neg, divideExactly_neg_right, preferredScale_neg_right, coefficient_neg,
    quotientShift_neg_right]
  dsimp only
  rw [shiftedOperands_neg_right, mode.dual.divide_neg_right, mode.divide_neg_left]
  split
  · rfl
  split
  · rfl
  split
  · rfl
  · exact map_bind_eq fun quotient => carried_neg (reducedToward · · (preferredScale x y))
      (reducedToward_neg · · _) _ _ _

end Divide

end Monetary.Decimal
