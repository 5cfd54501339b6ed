/-!
# Powers of ten and digit counts
-/

namespace Monetary

/-- Ten to the given exponent. -/
def tenPow (exponent : Nat) : Nat :=
  Nat.pow 10 exponent

/-- Ten to an exponent that is held in a 32-bit word: only the low 32 bits of the exponent count. -/
def tenPowWord (exponent : Nat) : Nat :=
  tenPow (exponent % 4294967296)

/-- The number of decimal digits of a number; zero has one digit. -/
def digitCount (n : Nat) : Nat :=
  if n < 10 then 1 else digitCount (n / 10) + 1
termination_by n

theorem tenPow_zero : tenPow 0 = 1 := rfl

theorem tenPow_succ (exponent : Nat) : tenPow (exponent + 1) = tenPow exponent * 10 := rfl

theorem tenPow_pos (exponent : Nat) : 0 < tenPow exponent := by
  induction exponent with
  | zero => decide
  | succ exponent ih => rw [tenPow_succ]; omega

/-- Below 2³² the 32-bit exponent loses nothing. -/
theorem tenPowWord_of_lt {exponent : Nat} (h : exponent < 4294967296) :
    tenPowWord exponent = tenPow exponent := by
  rw [tenPowWord, Nat.mod_eq_of_lt h]

theorem tenPow_add (a b : Nat) : tenPow (a + b) = tenPow a * tenPow b := by
  induction b with
  | zero => simp [tenPow_zero]
  | succ b ih => rw [← Nat.add_assoc, tenPow_succ, tenPow_succ, ih, Nat.mul_assoc]

theorem digitCount_of_lt_ten {n : Nat} (h : n < 10) : digitCount n = 1 := by
  rw [digitCount, if_pos h]

theorem digitCount_of_ten_le {n : Nat} (h : 10 ≤ n) : digitCount n = digitCount (n / 10) + 1 := by
  rw [digitCount, if_neg (by omega)]

theorem digitCount_pos (n : Nat) : 0 < digitCount n := by
  unfold digitCount
  split <;> omega

/-- A number has at most so many digits if it is below that power of ten. -/
theorem digitCount_le_iff (n : Nat) {count : Nat} (h : 0 < count) :
    digitCount n ≤ count ↔ n < tenPow count := by
  induction count generalizing n with
  | zero => omega
  | succ count ih =>
    have hpow := tenPow_pos count
    by_cases hn : n < 10
    · rw [digitCount_of_lt_ten hn, tenPow_succ]
      omega
    · rw [digitCount_of_ten_le (by omega), tenPow_succ]
      rcases Nat.eq_zero_or_pos count with rfl | hcount
      · have := digitCount_pos (n / 10)
        have hone : tenPow 0 = 1 := tenPow_zero
        omega
      · have := ih (n / 10) hcount
        omega

end Monetary
