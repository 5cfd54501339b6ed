import Monetary.Error
import Monetary.Proofs.Text.Lines

/-!
# The spellings of a currency code

A text spells a currency code if it is one to eight ASCII letters and digits apart from the blanks
around it. Reading puts the letters in upper case before it looks at the characters. Only the
letters `a` to `z` are changed by that, and into capital letters, so that it makes no difference:
the texts that are read are the spellings, and two of them are read as one currency exactly if they
have one normal form.
-/

namespace Monetary.Currency

/-- Whether a character is an ASCII letter or digit. -/
def isLetterOrDigit (c : Char) : Bool :=
  ('a' ≤ c && c ≤ 'z') || ('A' ≤ c && c ≤ 'Z') || ('0' ≤ c && c ≤ '9')

/-- A text spells a currency code: apart from blanks around it, it is one to eight letters and
digits. -/
def IsSpelling (text : String) : Prop :=
  ∃ word, Text.IsTrimmed text.toList word ∧ 1 ≤ word.length ∧ word.length ≤ 8 ∧
    ∀ c ∈ word, isLetterOrDigit c = true

/-- The normal form of the spellings of a code: without blanks around it and in upper case. -/
def normalForm (text : String) : String :=
  String.ofList (Text.upper (Text.trim text.toList))

variable {text : String} {currency : Currency}

/-- Currencies of one code are one currency. -/
theorem code_inj {a b : Currency} : a.code = b.code ↔ a = b := by
  constructor
  · intro h
    obtain ⟨code, hcode⟩ := a
    obtain ⟨other, hother⟩ := b
    obtain rfl : code = other := h
    rfl
  · rintro rfl
    rfl

/-- The letters and digits are the characters that may stand in a code once they are in upper
case. -/
theorem isCodeChar_upperLetter (c : Char) :
    isCodeChar (Text.upperLetter c) = isLetterOrDigit c := by
  unfold Text.upperLetter isLetterOrDigit
  split
  · rename_i hlower
    have hcapital : ∀ d < 26, isCodeChar (Char.ofNat (65 + d)) = true := by decide
    have hlow : 97 ≤ c.toNat := hlower.1
    have hhigh : c.toNat ≤ 122 := hlower.2
    have hletter : c.toNat - 32 = 65 + (c.toNat - 97) := by omega
    have hupper := hcapital (c.toNat - 97) (by omega)
    rw [hletter, hupper, ← Bool.decide_and, decide_eq_true hlower]
    rfl
  · rename_i hother
    rw [← Bool.decide_and, decide_eq_false hother, Bool.false_or, isCodeChar]

/-- A text is a code once it is in upper case exactly if it is one to eight letters and digits. -/
theorem isCode_upper_iff {word : List Char} :
    isCode (Text.upper word) = true ↔
      1 ≤ word.length ∧ word.length ≤ 8 ∧ ∀ c ∈ word, isLetterOrDigit c = true := by
  simp only [isCode, Text.upper, List.length_map, List.all_map, Bool.and_eq_true,
    decide_eq_true_eq, List.all_eq_true, Function.comp_apply, isCodeChar_upperLetter, and_assoc]

/-- The normal form of a text is a code exactly if the text spells one. -/
theorem isCode_normalForm_iff : isCode (normalForm text).toList = true ↔ IsSpelling text := by
  rw [normalForm, String.toList_ofList, isCode_upper_iff]
  constructor
  · intro hword
    exact ⟨_, Text.isTrimmed_trim _, hword⟩
  · rintro ⟨word, htrimmed, hword⟩
    rwa [Text.trim_eq_iff.mpr htrimmed]

/-- The texts that are read are the spellings of codes, each as the currency of its normal form. -/
theorem ofText?_eq_some_iff :
    ofText? text = some currency ↔ IsSpelling text ∧ currency.code = normalForm text := by
  have hread : ofText? text =
      if h : isCode (normalForm text).toList = true then some ⟨normalForm text, h⟩ else none := rfl
  rw [← isCode_normalForm_iff, hread]
  constructor
  · intro h
    split at h
    · rename_i hcode
      cases h
      exact ⟨hcode, rfl⟩
    · cases h
  · rintro ⟨hcode, hform⟩
    rw [dif_pos hcode, Option.some_inj, ← code_inj, hform]

/-- A spelling of a code is read as a currency. -/
theorem IsSpelling.exists_ofText? (h : IsSpelling text) :
    ∃ currency, ofText? text = some currency ∧ currency.code = normalForm text :=
  have hcode := isCode_normalForm_iff.mpr h
  ⟨⟨_, hcode⟩, ofText?_eq_some_iff.mpr ⟨h, rfl⟩, rfl⟩

/-- A text that spells no code is not read. -/
theorem ofText?_eq_none (h : ¬ IsSpelling text) : ofText? text = none :=
  Option.eq_none_iff_forall_ne_some.mpr fun _ hread => h (ofText?_eq_some_iff.mp hread).1

/-- The code of a currency spells it, and is its own normal form. -/
theorem isSpelling_code (currency : Currency) :
    IsSpelling currency.code ∧ normalForm currency.code = currency.code := by
  obtain ⟨hspelling, hform⟩ := ofText?_eq_some_iff.mp (ofText?_code currency)
  exact ⟨hspelling, hform.symm⟩

/-- Reading succeeds on the spellings of codes. -/
theorem read_eq_ok_iff :
    read text = .ok currency ↔ IsSpelling text ∧ currency.code = normalForm text := by
  rw [← ofText?_eq_some_iff]
  unfold read
  cases ofText? text <;> simp

end Monetary.Currency
