import Monetary.Decimal.Basic
import Monetary.Text.Blank
import Monetary.Text.Letters
import Monetary.Text.Numeral

/-!
# Reading decimal numbers

A number is an optional sign, digits with at most one point among or beside them, and an optional
exponent after `e` or `E`; blanks may stand around it. The digits after the point, less the
exponent, give the scale, so the representation is read along with the value.
-/

namespace Monetary.Decimal

/-- The exponents that a numeral may carry. -/
def isExponent (exponent : Int) : Bool :=
  -9223372036854775808 ≤ exponent && exponent ≤ 9223372036854775807

/-- Whether a numeral starts with `-`, and the numeral without its sign. -/
def splitSign : List Char → Bool × List Char
  | '-' :: rest => (true, rest)
  | '+' :: rest => (false, rest)
  | text => (false, text)

/-- The exponent after the exponent mark; zero without a mark. -/
def readExponent : Option (List Char) → Option Int
  | none => some 0
  | some text => (Text.readInteger text).filter isExponent

/-- Reads a number from a text without blanks around it. -/
def readTrimmed (text : List Char) : Except NumberError Decimal :=
  let (negative, body) := splitSign text
  let (mantissa, exponentPart) := Text.cutAt (fun c => c == 'e' || c == 'E') body
  let (whole, fractionPart) := Text.cutAt (· == '.') mantissa
  let fraction := fractionPart.getD []
  match readExponent exponentPart, Text.readDigits (whole ++ fraction) with
  | some exponent, some magnitude =>
    ofParts (if negative then -(magnitude : Int) else magnitude) (fraction.length - exponent)
  | _, _ => .error .invalidInput

/-- Reads a number. -/
def read (text : String) : Except NumberError Decimal :=
  readTrimmed (Text.trim text.toList)

end Monetary.Decimal
