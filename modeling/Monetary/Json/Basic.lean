/-!
# JSON values

Values of the data format in which amounts are stored. A string is kept as its code points, since
an escape may name one half of a surrogate pair, which is no character; a number is kept as it is
written.
-/

namespace Monetary

/-- A JSON value. -/
inductive JsonValue where
  | null
  | boolean (value : Bool)
  | number (numeral : List Char)
  | string (points : List Nat)
  | array (items : List JsonValue)
  | object (members : List (List Nat × JsonValue))

namespace JsonValue

/-- The code points of a text. -/
def points (text : String) : List Nat :=
  text.toList.map Char.toNat

/-- Whether a code point is one half of a surrogate pair. -/
def isSurrogate (point : Nat) : Bool :=
  0xD800 ≤ point && point ≤ 0xDFFF

/-- The text of some code points, if each of them is a character. -/
def text? (points : List Nat) : Option String :=
  if points.any isSurrogate then none else some (String.ofList (points.map Char.ofNat))

/-- The string value of a text. -/
def ofText (text : String) : JsonValue :=
  .string (points text)

end JsonValue

end Monetary
