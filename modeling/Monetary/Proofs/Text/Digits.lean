import Monetary.Number.Digits
import Monetary.Text.Blank
import Monetary.Text.Numeral
import Mathlib.Data.List.Basic

/-!
# Words of digits

The digits of a number are as many as its digit count, zeros in front of a word of digits leave what
it stands for, and every word of digits is read as that number. A digit is no blank, no sign and no
mark, so that words of digits can be told from what stands between them.
-/

namespace Monetary.Text

/-- A digit is none of the characters that are no digits. -/
theorem ne_of_isDigit {c d : Char} (hc : isDigit c = true) (hd : isDigit d = false) : c ≠ d := by
  rintro rfl
  exact Bool.noConfusion (hc.symm.trans hd)

/-- The digits stand together among the characters. -/
theorem isDigit_iff {c : Char} : isDigit c = true ↔ 48 ≤ c.toNat ∧ c.toNat ≤ 57 := by
  rw [isDigit, Bool.and_eq_true, decide_eq_true_eq, decide_eq_true_eq]
  rfl

/-- A digit is no blank. -/
theorem isBlank_of_isDigit {c : Char} (h : isDigit c = true) : isBlank c = false := by
  have hpoint := isDigit_iff.mp h
  simp only [isBlank, Bool.or_eq_false_iff, Bool.and_eq_false_iff, decide_eq_false_iff_not,
    beq_eq_false_iff_ne]
  omega

/-- Every character of the digits of a number is a digit. -/
theorem isDigit_of_mem_digits {n : Nat} {c : Char} (h : c ∈ digits n) : isDigit c = true :=
  List.all_eq_true.mp (all_isDigit_digits n) c h

/-- There are as many digits as the digit count says. -/
theorem length_digits (n : Nat) : (digits n).length = digitCount n := by
  induction n using Nat.strongRecOn with
  | ind n ih =>
    rcases Nat.lt_or_ge n 10 with hsmall | hlarge
    · rw [digits_of_lt_ten hsmall, digitCount_of_lt_ten hsmall]
      rfl
    · rw [digits_of_ten_le hlarge, digitCount_of_ten_le hlarge, List.length_append,
        ih (n / 10) (by omega)]
      rfl

/-- A number other than zero is multiplied by a power of ten by writing zeros behind its digits. -/
theorem digits_mul_tenPow {n : Nat} (hn : n ≠ 0) (k : Nat) :
    digits (n * tenPow k) = digits n ++ List.replicate k '0' := by
  induction k with
  | zero => rw [tenPow_zero, Nat.mul_one, List.replicate_zero, List.append_nil]
  | succ k ih =>
    have hpos : 0 < n * tenPow k := Nat.mul_pos (Nat.pos_of_ne_zero hn) (tenPow_pos k)
    rw [tenPow_succ, ← Nat.mul_assoc, digits_of_ten_le (by omega), Nat.mul_div_cancel _ (by decide),
      Nat.mul_mod_left, ih, List.append_assoc, List.replicate_succ']
    rfl

/-- Only zero has digits that start with a zero. -/
theorem digits_ne_zero_cons {n : Nat} (hn : n ≠ 0) (tail : List Char) : digits n ≠ '0' :: tail := by
  induction n using Nat.strongRecOn generalizing tail with
  | ind n ih =>
    intro hzero
    rcases Nat.lt_or_ge n 10 with hsmall | hlarge
    · rw [digits_of_lt_ten hsmall, List.cons.injEq] at hzero
      have hvalue := digitValue_digitChar hsmall
      rw [hzero.1] at hvalue
      exact hn hvalue.symm
    · obtain ⟨lead, rest, hrest⟩ := List.exists_cons_of_ne_nil (digits_ne_nil (n / 10))
      rw [digits_of_ten_le hlarge, hrest, List.cons_append, List.cons.injEq] at hzero
      exact ih (n / 10) (by omega) (by omega) rest (by rw [hrest, hzero.1])

/-- Zeros in front of a word of digits count for nothing. -/
theorem positionalValue_zeros_append (k : Nat) (word : List Char) :
    positionalValue (List.replicate k '0' ++ word) = positionalValue word := by
  induction k with
  | zero => rfl
  | succ k ih => rw [List.replicate_succ, List.cons_append, ← ih]; rfl

/-- Just the words of digits are read, each as the number that it stands for. -/
theorem readDigits_eq_some_iff {word : List Char} {n : Nat} :
    readDigits word = some n ↔
      word ≠ [] ∧ (∀ c ∈ word, isDigit c = true) ∧ positionalValue word = n := by
  rw [readDigits, ← and_assoc, ← List.all_eq_true, ← List.isEmpty_eq_false_iff,
    ← Bool.not_eq_true', ← Bool.and_eq_true]
  split
  · rename_i hword
    simp [hword]
  · rename_i hword
    simp [hword]

/-- A word of digits is read as the number that it stands for. -/
theorem readDigits_of_isDigit {word : List Char} (hne : word ≠ [])
    (hdigits : ∀ c ∈ word, isDigit c = true) : readDigits word = some (positionalValue word) :=
  readDigits_eq_some_iff.mpr ⟨hne, hdigits, rfl⟩

end Monetary.Text
