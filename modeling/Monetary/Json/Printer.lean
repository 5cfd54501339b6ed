import Monetary.Json.Basic
import Monetary.Text.Quoted

/-!
# Writing JSON

The compact text of a value, without blanks. In a string only the double quote, the backslash, the
controls below the space and halves of surrogate pairs are escaped.
-/

namespace Monetary.JsonValue

/-- The hexadecimal digits of a number below 2¹⁶, four of them. -/
def fourHexDigits (n : Nat) : List Char :=
  [Text.hexDigitChar (n / 4096 % 16), Text.hexDigitChar (n / 256 % 16),
    Text.hexDigitChar (n / 16 % 16), Text.hexDigitChar (n % 16)]

/-- A code point as it stands in a string. -/
def escapePoint (point : Nat) : List Char :=
  if point = 0x22 then ['\\', '"']
  else if point = 0x5C then ['\\', '\\']
  else if point = 8 then ['\\', 'b']
  else if point = 9 then ['\\', 't']
  else if point = 10 then ['\\', 'n']
  else if point = 12 then ['\\', 'f']
  else if point = 13 then ['\\', 'r']
  else if point < 0x20 || isSurrogate point then '\\' :: 'u' :: fourHexDigits point
  else [Char.ofNat point]

/-- A string as it is written. -/
def printString (points : List Nat) : List Char :=
  '"' :: points.flatMap escapePoint ++ ['"']

mutual

/-- A value as it is written. -/
def print : JsonValue → List Char
  | .null => "null".toList
  | .boolean value => if value then "true".toList else "false".toList
  | .number numeral => numeral
  | .string points => printString points
  | .array items => '[' :: printItems items ++ [']']
  | .object members => '\x7b' :: printMembers members ++ ['\x7d']

/-- The items of an array, divided by commas. -/
def printItems : List JsonValue → List Char
  | [] => []
  | [item] => print item
  | item :: rest => print item ++ ',' :: printItems rest

/-- The members of an object, divided by commas. -/
def printMembers : List (List Nat × JsonValue) → List Char
  | [] => []
  | [(key, value)] => printString key ++ ':' :: print value
  | (key, value) :: rest => printString key ++ ':' :: print value ++ ',' :: printMembers rest

end

end Monetary.JsonValue
