import Monetary.Number.Error
import Monetary.Number.Digits

/-!
# Decimal numbers

A decimal number is an integer coefficient together with a scale, the number of its digits that
stand after the point; a negative scale stands for zeros before the point. Numbers such as `1.0`
and `1.00` have one value and two representations, and most operations of this library say which
representation their result has.
-/

namespace Monetary

/-- The number `coefficient × 10^(-scale)` in this very representation. -/
structure Decimal where
  coefficient : Int
  scale : Int32
deriving DecidableEq

namespace Decimal

/-- The number `0`. -/
def zero : Decimal := ⟨0, 0⟩

/-- The number `1`. -/
def one : Decimal := ⟨1, 0⟩

instance : Inhabited Decimal := ⟨zero⟩

/-- An integer as a decimal number without digits after the point. -/
def ofInt (n : Int) : Decimal := ⟨n, 0⟩

/-- The least scale. -/
def leastScale : Int := -2147483648

/-- The greatest scale. -/
def greatestScale : Int := 2147483647

/-- An integer as a scale, if it is one. -/
def checkScale (scale : Int) : Except NumberError Int32 :=
  if leastScale ≤ scale ∧ scale ≤ greatestScale then .ok (Int32.ofInt scale)
  else .error .overflow

/-- The scale nearest to an integer. -/
def clampScale (scale : Int) : Int32 :=
  Int32.ofInt (max leastScale (min scale greatestScale))

/-- A coefficient at a scale that has to be checked. -/
def ofParts (coefficient scale : Int) : Except NumberError Decimal := do
  return ⟨coefficient, ← checkScale scale⟩

/-- The sign of a number: -1, 0 or 1. -/
def signum (x : Decimal) : Int :=
  x.coefficient.sign

/-- Whether a number is zero, at any scale. -/
def isZero (x : Decimal) : Bool :=
  x.coefficient == 0

/-- The number of digits of the coefficient; zero has one digit. -/
def digits (x : Decimal) : Nat :=
  digitCount x.coefficient.natAbs

/-- The number with the opposite sign, at the same scale. -/
def neg (x : Decimal) : Decimal :=
  ⟨-x.coefficient, x.scale⟩

/-- The number without its sign, at the same scale. -/
def abs (x : Decimal) : Decimal :=
  ⟨x.coefficient.natAbs, x.scale⟩

instance : Neg Decimal := ⟨neg⟩

theorem leastScale_le_toInt (scale : Int32) : leastScale ≤ scale.toInt :=
  scale.le_toInt

theorem toInt_le_greatestScale (scale : Int32) : scale.toInt ≤ greatestScale :=
  Int.le_of_lt_add_one scale.toInt_lt

theorem toInt_ofInt {scale : Int} (hlow : leastScale ≤ scale) (hhigh : scale ≤ greatestScale) :
    (Int32.ofInt scale).toInt = scale :=
  Int32.toInt_ofInt_of_le hlow (Int.lt_add_one_of_le hhigh)

/-- A scale in range is not clamped. -/
theorem toInt_clampScale {scale : Int} (hlow : leastScale ≤ scale) (hhigh : scale ≤ greatestScale) :
    (clampScale scale).toInt = scale := by
  rw [clampScale, Int.min_eq_left hhigh, Int.max_eq_right hlow, toInt_ofInt hlow hhigh]

/-- A scale is the nearest one to itself. -/
@[simp] theorem clampScale_toInt (scale : Int32) : clampScale scale.toInt = scale :=
  Int32.toInt_inj.mp (toInt_clampScale (leastScale_le_toInt _) (toInt_le_greatestScale _))

/-- Checking a scale succeeds exactly with the scale of that value. -/
theorem checkScale_eq_ok_iff {scale : Int} {s : Int32} :
    checkScale scale = .ok s ↔ s.toInt = scale := by
  unfold checkScale
  constructor
  · intro h
    split at h
    · rename_i hrange
      cases h
      exact toInt_ofInt hrange.1 hrange.2
    · cases h
  · rintro rfl
    rw [if_pos ⟨leastScale_le_toInt s, toInt_le_greatestScale s⟩, Int32.ofInt_toInt]

end Decimal

end Monetary
