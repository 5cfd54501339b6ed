/-!
# Numerals

Decimal numerals as texts: the digits of a natural number, most significant first and without
leading zeros, and the readers of natural numbers and integers. Readers accept leading zeros and
a sign `+`; none accepts blanks, separators or digits outside ASCII.
-/

namespace Monetary.Text

/-- The character of a digit below ten. -/
def digitChar (digit : Nat) : Char :=
  Char.ofNat (48 + digit)

/-- The value of a digit character. -/
def digitValue (c : Char) : Nat :=
  c.toNat - 48

/-- Whether a character is one of `0` to `9`. -/
def isDigit (c : Char) : Bool :=
  '0' ≤ c && c ≤ '9'

/-- The digits of a number put in front of a text. -/
def digitsBefore (n : Nat) (text : List Char) : List Char :=
  if n < 10 then digitChar n :: text
  else digitsBefore (n / 10) (digitChar (n % 10) :: text)
termination_by n

/-- The digits of a number, most significant first; zero has the one digit `0`. -/
def digits (n : Nat) : List Char :=
  digitsBefore n []

/-- The digits of an integer after a `-` if it is negative. -/
def integer (n : Int) : List Char :=
  if n < 0 then '-' :: digits n.natAbs else digits n.natAbs

/-- The number that a word of digits stands for; the empty word stands for zero. -/
def positionalValue (word : List Char) : Nat :=
  word.foldl (fun value c => 10 * value + digitValue c) 0

theorem digitsBefore_eq_append (n : Nat) (text : List Char) :
    digitsBefore n text = digits n ++ text := by
  induction n using Nat.strongRecOn generalizing text with
  | ind n ih =>
    unfold digits
    rw [digitsBefore, digitsBefore.eq_def n []]
    split
    · rfl
    · rw [ih (n / 10) (by omega), ih (n / 10) (by omega) [_]]
      simp

/-- The last digit stands for the units, those before it for the tens. -/
theorem digits_of_ten_le {n : Nat} (h : 10 ≤ n) :
    digits n = digits (n / 10) ++ [digitChar (n % 10)] := by
  rw [digits, digitsBefore, if_neg (by omega), digitsBefore_eq_append]

theorem digits_of_lt_ten {n : Nat} (h : n < 10) : digits n = [digitChar n] := by
  rw [digits, digitsBefore, if_pos h]

theorem digitValue_digitChar {digit : Nat} (h : digit < 10) :
    digitValue (digitChar digit) = digit := by
  have : ∀ d < 10, digitValue (digitChar d) = d := by decide
  exact this digit h

theorem isDigit_digitChar {digit : Nat} (h : digit < 10) : isDigit (digitChar digit) = true := by
  have : ∀ d < 10, isDigit (digitChar d) = true := by decide
  exact this digit h

/-- The digits of a number stand for the number. -/
theorem positionalValue_digits (n : Nat) : positionalValue (digits n) = n := by
  induction n using Nat.strongRecOn with
  | ind n ih =>
    by_cases h : n < 10
    · rw [digits_of_lt_ten h, positionalValue]
      simp [digitValue_digitChar h]
    · have hlast : n % 10 < 10 := Nat.mod_lt n (by omega)
      have hrest := ih (n / 10) (by omega)
      rw [positionalValue] at hrest
      rw [digits_of_ten_le (by omega), positionalValue, List.foldl_append, hrest]
      simp only [List.foldl_cons, List.foldl_nil, digitValue_digitChar hlast]
      omega

theorem digits_ne_nil (n : Nat) : digits n ≠ [] := by
  by_cases h : n < 10
  · simp [digits_of_lt_ten h]
  · simp [digits_of_ten_le (by omega : 10 ≤ n)]

theorem all_isDigit_digits (n : Nat) : (digits n).all isDigit = true := by
  induction n using Nat.strongRecOn with
  | ind n ih =>
    by_cases h : n < 10
    · simp [digits_of_lt_ten h, isDigit_digitChar h]
    · have hlast : n % 10 < 10 := Nat.mod_lt n (by omega)
      rw [digits_of_ten_le (by omega), List.all_append, ih (n / 10) (by omega)]
      simp [isDigit_digitChar hlast]

/-- Reads a non-empty word of digits. -/
def readDigits (text : List Char) : Option Nat :=
  if !text.isEmpty && text.all isDigit then some (positionalValue text) else none

/-- Reads digits after an optional `+`. -/
def readNatural : List Char → Option Nat
  | '+' :: rest => readDigits rest
  | text => readDigits text

/-- Reads digits after an optional `+` or `-`. -/
def readInteger : List Char → Option Int
  | '+' :: rest => (readDigits rest).map Int.ofNat
  | '-' :: rest => (readDigits rest).map fun n => -Int.ofNat n
  | text => (readDigits text).map Int.ofNat

/-- Reading the digits of a number gives the number. -/
theorem readDigits_digits (n : Nat) : readDigits (digits n) = some n := by
  rw [readDigits, if_pos, positionalValue_digits]
  simp [digits_ne_nil, all_isDigit_digits]

end Monetary.Text
