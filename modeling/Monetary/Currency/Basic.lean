import Monetary.Text.Blank
import Monetary.Text.Letters

/-!
# Currencies

A currency is known by its code: one to eight digits and capital letters, all of them ASCII.
-/

namespace Monetary

/-- Whether a character may stand in a currency code. -/
def isCodeChar (c : Char) : Bool :=
  ('A' ≤ c && c ≤ 'Z') || ('0' ≤ c && c ≤ '9')

/-- Whether a text is a currency code. -/
def isCode (text : List Char) : Bool :=
  1 ≤ text.length && text.length ≤ 8 && text.all isCodeChar

/-- A currency, by its code. -/
structure Currency where
  code : String
  isCode_code : isCode code.toList = true
deriving DecidableEq

namespace Currency

/-- The currency of a code in any case, with blanks around it allowed. -/
def ofText? (text : String) : Option Currency :=
  let code := String.ofList (Text.upper (Text.trim text.toList))
  if h : isCode code.toList = true then some ⟨code, h⟩ else none

theorem isBlank_eq_false_of_isCodeChar {c : Char} (h : isCodeChar c = true) :
    Text.isBlank c = false := by
  simp only [isCodeChar, Bool.or_eq_true, Bool.and_eq_true, decide_eq_true_eq, Char.le_def,
    UInt32.le_iff_toNat_le] at h
  have hpoint : 48 ≤ c.toNat ∧ c.toNat ≤ 90 := by
    rcases h with h | h <;> exact ⟨Nat.le_trans (by decide) h.1, Nat.le_trans h.2 (by decide)⟩
  simp only [Text.isBlank, Bool.or_eq_false_iff, Bool.and_eq_false_iff, decide_eq_false_iff_not,
    beq_eq_false_iff_ne]
  omega

theorem upperLetter_of_isCodeChar {c : Char} (h : isCodeChar c = true) :
    Text.upperLetter c = c := by
  apply Text.upperLetter_of_le_Z
  simp only [isCodeChar, Bool.or_eq_true, Bool.and_eq_true, decide_eq_true_eq] at h
  rcases h with h | h
  · exact h.2
  · exact Char.le_trans h.2 (by decide)

/-- A currency has a code that is not empty. -/
theorem code_ne_nil (currency : Currency) : currency.code.toList ≠ [] := by
  have hcode := currency.isCode_code
  intro hnil
  rw [hnil] at hcode
  exact absurd hcode (by decide)

/-- The code of a currency holds only characters that may stand there. -/
theorem isCodeChar_of_mem_code (currency : Currency) :
    ∀ c ∈ currency.code.toList, isCodeChar c = true := by
  have hcode := currency.isCode_code
  simp only [isCode, Bool.and_eq_true] at hcode
  exact List.all_eq_true.1 hcode.2

/-- The code of a currency holds no blanks. -/
theorem isBlank_of_mem_code (currency : Currency) :
    ∀ c ∈ currency.code.toList, Text.isBlank c = false :=
  fun c hc => isBlank_eq_false_of_isCodeChar (currency.isCodeChar_of_mem_code c hc)

/-- Reading the code of a currency gives the currency. -/
theorem ofText?_code (currency : Currency) : ofText? currency.code = some currency := by
  have htrim : Text.trim currency.code.toList = currency.code.toList :=
    Text.trim_eq_self currency.isBlank_of_mem_code
  have hupper : Text.upper currency.code.toList = currency.code.toList :=
    (List.map_congr_left fun c hc =>
      upperLetter_of_isCodeChar (currency.isCodeChar_of_mem_code c hc)).trans (List.map_id _)
  have htext : String.ofList (Text.upper (Text.trim currency.code.toList)) = currency.code := by
    rw [htrim, hupper, String.ofList_toList]
  simp only [ofText?, htext]
  rw [dif_pos currency.isCode_code]

/-- The order of two currencies by their codes. -/
def order (a b : Currency) : Ordering :=
  Text.order a.code.toList b.code.toList

/-- A listing of a currency. -/
def describe (currency : Currency) : String :=
  "Currency(" ++ currency.code ++ ")"

end Currency

end Monetary
