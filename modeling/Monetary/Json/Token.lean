import Monetary.Json.Basic
import Monetary.Text.Letters
import Monetary.Text.Numeral

/-!
# JSON tokens

A JSON text is cut into tokens by a machine that takes one character at a time. Blanks may stand
between tokens and are dropped.
-/

namespace Monetary

/-- A token of a JSON text. -/
inductive JsonToken where
  | beginObject
  | endObject
  | beginArray
  | endArray
  | colon
  | comma
  | null
  | boolean (value : Bool)
  | number (numeral : List Char)
  | string (points : List Nat)
deriving DecidableEq

namespace JsonToken

/-- Whether digits may stand as the integral part of a number: without leading zeros. -/
def isIntegralPart : List Char → Bool
  | [] => false
  | ['0'] => true
  | '0' :: _ => false
  | digits => digits.all Text.isDigit

/-- Whether a word holds digits and nothing else. -/
def isDigits (word : List Char) : Bool :=
  !word.isEmpty && word.all Text.isDigit

/-- Whether a text is the exponent of a number, after the mark. -/
def isExponentPart : List Char → Bool
  | '+' :: digits => isDigits digits
  | '-' :: digits => isDigits digits
  | digits => isDigits digits

/-- Whether a text is a number without a sign. -/
def isUnsignedNumber (text : List Char) : Bool :=
  let (mantissa, exponent) := Text.cutAt (fun c => c == 'e' || c == 'E') text
  let (whole, fraction) := Text.cutAt (· == '.') mantissa
  isIntegralPart whole && fraction.all isDigits && exponent.all isExponentPart

/-- The token of a numeral. -/
def ofNumeral? (text : List Char) : Option JsonToken :=
  let unsigned :=
    match text with
    | '-' :: rest => rest
    | _ => text
  if isUnsignedNumber unsigned then some (.number text) else none

/-- The token of a word. -/
def ofWord? (word : List Char) : Option JsonToken :=
  if word = "null".toList then some .null
  else if word = "true".toList then some (.boolean true)
  else if word = "false".toList then some (.boolean false)
  else none

/-- What the machine is in the middle of; what it has read of a token is kept in reverse. -/
inductive State where
  | between
  | numeral (read : List Char)
  | word (read : List Char)
  | string (read : List Nat)
  /-- After a backslash in a string. -/
  | escape (read : List Nat)
  /-- After some digits of a code unit in a string. -/
  | codeUnit (read : List Nat) (value count : Nat)

/-- Whether a character may stand in a number. -/
def isNumeralChar (c : Char) : Bool :=
  Text.isDigit c || c == '-' || c == '+' || c == '.' || c == 'e' || c == 'E'

/-- Whether a character is a lower-case letter. -/
def isLowerLetter (c : Char) : Bool :=
  'a' ≤ c && c ≤ 'z'

/-- The value of a hexadecimal digit. -/
def hexValue? (c : Char) : Option Nat :=
  if Text.isDigit c then some (Text.digitValue c)
  else if 'a' ≤ c ∧ c ≤ 'f' then some (c.toNat - 87)
  else if 'A' ≤ c ∧ c ≤ 'F' then some (c.toNat - 55)
  else none

/-- A code unit put before code points in reverse; the second half of a surrogate pair joins the
first half right before it. -/
def pushUnit (unit : Nat) (read : List Nat) : List Nat :=
  match read with
  | high :: rest =>
    if 0xDC00 ≤ unit ∧ unit ≤ 0xDFFF ∧ 0xD800 ≤ high ∧ high ≤ 0xDBFF then
      (0x10000 + (high - 0xD800) * 0x400 + (unit - 0xDC00)) :: rest
    else unit :: read
  | [] => [unit]

/-- The code point that an escape of one letter stands for. -/
def escaped? (c : Char) : Option Nat :=
  if c = '"' ∨ c = '\\' ∨ c = '/' then some c.toNat
  else if c = 'b' then some 8
  else if c = 'f' then some 12
  else if c = 'n' then some 10
  else if c = 'r' then some 13
  else if c = 't' then some 9
  else none

/-- A step between tokens. -/
def begin (c : Char) : Option (List JsonToken × State) :=
  if c = ' ' ∨ c = '\n' ∨ c = '\t' ∨ c = '\r' then some ([], .between)
  else if c = '\x7b' then some ([.beginObject], .between)
  else if c = '\x7d' then some ([.endObject], .between)
  else if c = '[' then some ([.beginArray], .between)
  else if c = ']' then some ([.endArray], .between)
  else if c = ':' then some ([.colon], .between)
  else if c = ',' then some ([.comma], .between)
  else if c = '"' then some ([], .string [])
  else if Text.isDigit c ∨ c = '-' then some ([], .numeral [c])
  else if isLowerLetter c then some ([], .word [c])
  else none

/-- A step that ends one token before the character. -/
def beginAfter (token? : Option JsonToken) (c : Char) : Option (List JsonToken × State) := do
  let token ← token?
  let (tokens, state) ← begin c
  return (token :: tokens, state)

/-- The tokens that a character completes, and what the machine is then in the middle of. -/
def step (state : State) (c : Char) : Option (List JsonToken × State) :=
  match state with
  | .between => begin c
  | .numeral read =>
    if isNumeralChar c then some ([], .numeral (c :: read))
    else beginAfter (ofNumeral? read.reverse) c
  | .word read =>
    if isLowerLetter c then some ([], .word (c :: read))
    else beginAfter (ofWord? read.reverse) c
  | .string read =>
    if c = '"' then some ([.string read.reverse], .between)
    else if c = '\\' then some ([], .escape read)
    else if c.toNat < 0x20 then none
    else some ([], .string (c.toNat :: read))
  | .escape read =>
    if c = 'u' then some ([], .codeUnit read 0 0)
    else (escaped? c).map fun point => ([], .string (point :: read))
  | .codeUnit read value count =>
    (hexValue? c).map fun digit =>
      let value := 16 * value + digit
      ([], if count < 3 then .codeUnit read value (count + 1) else .string (pushUnit value read))

/-- The token that the end of the text completes. -/
def finish : State → Option (List JsonToken)
  | .between => some []
  | .numeral read => (ofNumeral? read.reverse).map ([·])
  | .word read => (ofWord? read.reverse).map ([·])
  | _ => none

/-- The tokens of the rest of a text. -/
def scan (state : State) : List Char → Option (List JsonToken)
  | [] => finish state
  | c :: rest => do
    let (tokens, next) ← step state c
    return tokens ++ (← scan next rest)

end JsonToken

end Monetary
