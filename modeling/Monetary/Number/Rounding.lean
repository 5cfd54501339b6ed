import Monetary.Number.Error
import Monetary.Text.Blank
import Monetary.Text.Letters

/-!
# Rounding modes

The eight rules for dropping digits, their names, and the rounded quotient of two integers. A
quotient that is an integer is never changed; any other is one of its two integer neighbours, and
the mode chooses between the one toward zero and the one away from zero.
-/

namespace Monetary

/-- A rule for choosing between the two integer neighbours of a quotient. -/
inductive Rounding where
  /-- Away from zero. -/
  | up
  /-- Toward zero. -/
  | down
  /-- Toward positive infinity. -/
  | ceiling
  /-- Toward negative infinity. -/
  | floor
  /-- To the nearest neighbour, a tie away from zero. -/
  | halfUp
  /-- To the nearest neighbour, a tie toward zero. -/
  | halfDown
  /-- To the nearest neighbour, a tie to the even one. -/
  | halfEven
  /-- No digit but zero may be dropped. -/
  | unnecessary
deriving DecidableEq

namespace Rounding

/-- Every mode, in the order of their declaration. -/
def all : List Rounding :=
  [.up, .down, .ceiling, .floor, .halfUp, .halfDown, .halfEven, .unnecessary]

/-- The name of a mode in settings and stored records. -/
def name : Rounding → String
  | .up => "UP"
  | .down => "DOWN"
  | .ceiling => "CEILING"
  | .floor => "FLOOR"
  | .halfUp => "HALF_UP"
  | .halfDown => "HALF_DOWN"
  | .halfEven => "HALF_EVEN"
  | .unnecessary => "UNNECESSARY"

/-- The name of a mode in diagnostic listings. -/
def label : Rounding → String
  | .up => "Up"
  | .down => "Down"
  | .ceiling => "Ceiling"
  | .floor => "Floor"
  | .halfUp => "HalfUp"
  | .halfDown => "HalfDown"
  | .halfEven => "HalfEven"
  | .unnecessary => "Unnecessary"

/-- The mode of exactly this name. -/
def ofName? (text : String) : Option Rounding :=
  all.find? fun mode => mode.name == text

/-- A text without the word `ROUND_` if it starts with it. -/
def dropRoundWord : List Char → List Char
  | 'R' :: 'O' :: 'U' :: 'N' :: 'D' :: '_' :: rest => rest
  | text => text

/-- Reads the name of a mode in any case, with blanks around it and `ROUND_` before it allowed. -/
def read (text : String) : Except NumberError Rounding :=
  match ofName? (String.ofList (dropRoundWord (Text.upper (Text.trim text.toList)))) with
  | some mode => .ok mode
  | none => .error .invalidInput

/-- Whether the truncated `quotient` moves one away from zero, for a `remainder` that is not zero
and has the sign of the dividend, and a positive `divisor`. -/
def movesAway (mode : Rounding) (quotient remainder divisor : Int) : Except NumberError Bool :=
  let doubled : Int := 2 * remainder.natAbs
  match mode with
  | .up => .ok true
  | .down => .ok false
  | .ceiling => .ok (0 < remainder)
  | .floor => .ok (remainder < 0)
  | .halfUp => .ok (divisor ≤ doubled)
  | .halfDown => .ok (divisor < doubled)
  | .halfEven => .ok (divisor < doubled || (divisor == doubled && quotient % 2 != 0))
  | .unnecessary => .error .roundingNecessary

/-- The quotient rounded to an integer, for a positive divisor. -/
def divideByPositive (mode : Rounding) (dividend divisor : Int) : Except NumberError Int :=
  let quotient := dividend.tdiv divisor
  let remainder := dividend.tmod divisor
  if remainder = 0 then .ok quotient
  else do
    let away ← mode.movesAway quotient remainder divisor
    return if away then (if remainder < 0 then quotient - 1 else quotient + 1) else quotient

/-- The quotient of two integers rounded to an integer. -/
def divide (mode : Rounding) (dividend divisor : Int) : Except NumberError Int :=
  if divisor = 0 then .error .divisionByZero
  else if divisor < 0 then mode.divideByPositive (-dividend) (-divisor)
  else mode.divideByPositive dividend divisor

end Rounding

end Monetary
