import Monetary.Text.Numeral
import Monetary.Text.Printable

/-!
# Quoted texts

How a message quotes a text: between double quotes, with a backslash before a double quote or a
backslash, short forms for the common controls, and the code point in braces for any other
character that does not print.
-/

namespace Monetary.Text

/-- The character of a digit below sixteen, in lower case. -/
def hexDigitChar (digit : Nat) : Char :=
  if digit < 10 then digitChar digit else Char.ofNat (87 + digit)

/-- The hexadecimal digits of a number put in front of a text, in lower case and without leading
zeros. -/
def hexDigitsBefore (n : Nat) (text : List Char) : List Char :=
  if n < 16 then hexDigitChar n :: text
  else hexDigitsBefore (n / 16) (hexDigitChar (n % 16) :: text)
termination_by n

/-- A code point in braces after `\u`. -/
def codePointEscape (c : Char) : List Char :=
  '\\' :: 'u' :: '\x7b' :: hexDigitsBefore c.toNat ['\x7d']

/-- A character as it stands between the quotes. -/
def quotedChar (c : Char) : List Char :=
  if c = '"' then ['\\', '"']
  else if c = '\\' then ['\\', '\\']
  else if c = '\n' then ['\\', 'n']
  else if c = '\r' then ['\\', 'r']
  else if c = '\t' then ['\\', 't']
  else if c = '\x00' then ['\\', '0']
  else if isPrintable c then [c]
  else codePointEscape c

/-- A text between double quotes. -/
def quoted (text : String) : String :=
  String.ofList ('"' :: text.toList.flatMap quotedChar ++ ['"'])

end Monetary.Text
