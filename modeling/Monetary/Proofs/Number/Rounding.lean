import Monetary.Number.Rounding
import Monetary.Proofs.Result
import Mathlib.Algebra.Order.Ring.Int

/-!
# Rounded quotients

Two facts about a quotient rounded to an integer, in every mode. A quotient that is an integer is
returned as it is, also where rounding is not allowed. Any other moves by less than one, and is not
to be had where rounding is not allowed.
-/

namespace Monetary.Rounding

/-- A quotient by a positive divisor that is an integer is not rounded. -/
theorem divideByPositive_of_eq_mul (mode : Rounding) {dividend divisor quotient : Int}
    (hdivisor : 0 < divisor) (h : dividend = quotient * divisor) :
    mode.divideByPositive dividend divisor = .ok quotient := by
  subst h
  simp only [divideByPositive, Int.mul_tmod_left, if_pos]
  rw [Int.mul_tdiv_cancel _ hdivisor.ne']

/-- A quotient that is an integer is not rounded. -/
theorem divide_of_eq_mul (mode : Rounding) {dividend divisor quotient : Int}
    (hdivisor : divisor ≠ 0) (h : dividend = quotient * divisor) :
    mode.divide dividend divisor = .ok quotient := by
  rw [divide, if_neg hdivisor]
  split
  · exact mode.divideByPositive_of_eq_mul (by omega) (by rw [h, Int.mul_neg])
  · exact mode.divideByPositive_of_eq_mul (by omega) h

/-- A quotient by a positive divisor that is no integer is not to be had without rounding. -/
theorem divideByPositive_unnecessary_of_not_dvd {dividend divisor : Int}
    (h : ¬ divisor ∣ dividend) :
    unnecessary.divideByPositive dividend divisor = .error .roundingNecessary := by
  rw [divideByPositive, if_neg (mt Int.dvd_of_tmod_eq_zero h)]
  rfl

/-- A quotient that is no integer is not to be had without rounding. -/
theorem divide_unnecessary_of_not_dvd {dividend divisor : Int} (hdivisor : divisor ≠ 0)
    (h : ¬ divisor ∣ dividend) :
    unnecessary.divide dividend divisor = .error .roundingNecessary := by
  rw [divide, if_neg hdivisor]
  split
  · exact divideByPositive_unnecessary_of_not_dvd (by rwa [Int.neg_dvd, Int.dvd_neg])
  · exact divideByPositive_unnecessary_of_not_dvd h

/-- Rounding by a positive divisor moves the quotient by less than one. -/
theorem abs_divideByPositive_mul_sub_lt {mode : Rounding} {dividend divisor quotient : Int}
    (hdivisor : 0 < divisor) (h : mode.divideByPositive dividend divisor = .ok quotient) :
    |quotient * divisor - dividend| < divisor := by
  have hsplit := Int.tdiv_mul_add_tmod dividend divisor
  have hhigh := Int.tmod_lt_of_pos dividend hdivisor
  have hlow := Int.lt_tmod_of_pos dividend hdivisor
  unfold divideByPositive at h
  dsimp only at h
  rw [abs_lt]
  split at h
  · cases h
    omega
  obtain ⟨away, -, h⟩ := bind_eq_ok_iff.mp h
  cases away with
  | false =>
    cases h
    simp only [Bool.false_eq_true, if_false]
    omega
  | true =>
    rw [if_pos rfl] at h
    cases h
    split
    · rw [sub_one_mul]
      omega
    · rw [add_one_mul]
      omega

/-- Rounding moves a quotient by less than one. -/
theorem abs_divide_mul_sub_lt {mode : Rounding} {dividend divisor quotient : Int}
    (h : mode.divide dividend divisor = .ok quotient) :
    |quotient * divisor - dividend| < |divisor| := by
  unfold divide at h
  split at h
  · cases h
  split at h
  · rename_i hnegative
    have hopposite := abs_divideByPositive_mul_sub_lt (by omega) h
    rwa [mul_neg, neg_sub_neg, abs_sub_comm, ← abs_of_neg hnegative] at hopposite
  · rename_i hnonzero hpositive
    have hdivisor : 0 < divisor := by omega
    rw [abs_of_pos hdivisor]
    exact abs_divideByPositive_mul_sub_lt hdivisor h

end Monetary.Rounding
