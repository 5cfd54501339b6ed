import Monetary.Context.Resolution
import Monetary.Proofs.Text.Digits
import Monetary.Proofs.Text.Lines
import Mathlib.Data.List.Forall2

/-!
# The texts of a setting

A text names a mode or a width if it is their name in letters of either case, apart from the blanks
around it; before the name of a mode the word `ROUND_` may stand. It tells a precision if it is
digits, after a plus sign or not, for a number below 2³². Reading puts letters in upper case, takes
the word away and looks the rest up. As no name has a small letter or begins with that word, these
are just the texts that are read.
-/

namespace Monetary

namespace Text

/-- A character is a capital letter or a mark in either case: itself, or the small letter. -/
def IsEitherCase (c capital : Char) : Prop :=
  c = capital ∨ ('a' ≤ c ∧ c ≤ 'z' ∧ c.toNat = capital.toNat + 32)

/-- A text spells a name: apart from the blanks around it, it is the name in letters of either
case. -/
def Spells (text name : List Char) : Prop :=
  ∃ word, IsTrimmed text word ∧ List.Forall₂ IsEitherCase word name

variable {text word name : List Char} {n : Nat}

/-- In upper case just a capital letter and its small letter are that capital. -/
theorem upperLetter_eq_iff {c capital : Char} (h : ¬ ('a' ≤ capital ∧ capital ≤ 'z')) :
    upperLetter c = capital ↔ IsEitherCase c capital := by
  unfold upperLetter IsEitherCase
  split
  · rename_i hsmall
    have hlow : 97 ≤ c.toNat := hsmall.1
    have hhigh : c.toNat ≤ 122 := hsmall.2
    have hletters : ∀ d < 26, (Char.ofNat (65 + d)).toNat = 65 + d := by decide
    have hletter : c.toNat - 32 = 65 + (c.toNat - 97) := by omega
    have hvalid : (Char.ofNat (c.toNat - 32)).toNat = c.toNat - 32 := by
      rw [hletter, hletters _ (by omega)]
    have hother : c ≠ capital := by
      rintro rfl
      exact h hsmall
    rw [← Char.toNat_inj, hvalid]
    refine ⟨fun heq => .inr ⟨hsmall.1, hsmall.2, by omega⟩, fun hcase => ?_⟩
    rcases hcase with heq | ⟨-, -, heq⟩
    · exact absurd heq hother
    · omega
  · rename_i hcapital
    refine ⟨.inl, fun hcase => ?_⟩
    rcases hcase with heq | ⟨hlow, hhigh, -⟩
    · exact heq
    · exact absurd ⟨hlow, hhigh⟩ hcapital

/-- In upper case just the words in either case are a name without small letters. -/
theorem upper_eq_iff (h : ∀ c ∈ name, ¬ ('a' ≤ c ∧ c ≤ 'z')) :
    upper word = name ↔ List.Forall₂ IsEitherCase word name := by
  induction name generalizing word with
  | nil => rw [upper, List.map_eq_nil_iff, List.forall₂_nil_right_iff]
  | cons capital rest ih =>
    obtain ⟨hcapital, hrest⟩ := List.forall_mem_cons.mp h
    cases word with
    | nil => simp [upper]
    | cons c more =>
      rw [List.forall₂_cons, ← upperLetter_eq_iff hcapital, ← ih hrest]
      exact List.cons_eq_cons

/-- Without blanks around it and in upper case, just a text that spells a name is the name. -/
theorem upper_trim_eq_iff (h : ∀ c ∈ name, ¬ ('a' ≤ c ∧ c ≤ 'z')) :
    upper (trim text) = name ↔ Spells text name := by
  rw [upper_eq_iff h]
  constructor
  · intro hword
    exact ⟨_, isTrimmed_trim text, hword⟩
  · rintro ⟨word, htrimmed, hword⟩
    rwa [trim_eq_iff.mpr htrimmed]

/-- Just digits, after a plus sign or not, are read as a natural number. -/
theorem readNatural_eq_some_iff : readNatural word = some n ↔
    ∃ sign digits, word = sign ++ digits ∧ (sign = [] ∨ sign = ['+']) ∧ digits ≠ [] ∧
      (∀ c ∈ digits, isDigit c = true) ∧ positionalValue digits = n := by
  constructor
  · intro h
    unfold readNatural at h
    split at h
    · exact ⟨['+'], _, rfl, .inr rfl, readDigits_eq_some_iff.mp h⟩
    · exact ⟨[], _, rfl, .inl rfl, readDigits_eq_some_iff.mp h⟩
  · rintro ⟨sign, digits, rfl, rfl | rfl, hdigits⟩
    · have hplus (more : List Char) : digits ≠ '+' :: more := by
        rintro rfl
        exact absurd (hdigits.2.1 '+' List.mem_cons_self) (by decide)
      rw [List.nil_append, readNatural]
      · exact readDigits_eq_some_iff.mpr hdigits
      · exact hplus
    · exact readDigits_eq_some_iff.mpr hdigits

end Text

namespace Rounding

/-- A text names a mode: it spells the name of the mode, with the word `ROUND_` before it or not. -/
def IsSpelling (mode : Rounding) (text : String) : Prop :=
  Text.Spells text.toList mode.name.toList ∨
    Text.Spells text.toList ("ROUND_".toList ++ mode.name.toList)

variable {mode : Rounding} {text : String}

/-- Just the name of a mode is looked up as the mode. -/
theorem ofName?_eq_some_iff : ofName? text = some mode ↔ text = mode.name := by
  constructor
  · intro h
    have hfound := List.find?_some h
    exact (beq_iff_eq.mp hfound).symm
  · rintro rfl
    cases mode <;> decide

/-- Without the word `ROUND_` a text is the name of a mode exactly if it is that name, or the word
and the name. -/
theorem dropRoundWord_eq_iff {word : List Char} : dropRoundWord word = mode.name.toList ↔
    word = mode.name.toList ∨ word = "ROUND_".toList ++ mode.name.toList := by
  constructor
  · intro h
    unfold dropRoundWord at h
    split at h
    · exact .inr (congrArg ("ROUND_".toList ++ ·) h)
    · exact .inl h
  · rintro (rfl | rfl)
    · cases mode <;> decide
    · rfl

/-- Just the texts that name a mode are read as the mode. -/
theorem read_eq_ok_iff : read text = .ok mode ↔ mode.IsSpelling text := by
  have hname : ∀ c ∈ mode.name.toList, ¬ ('a' ≤ c ∧ c ≤ 'z') := by cases mode <;> simp [name]
  have hword : ∀ c ∈ "ROUND_".toList ++ mode.name.toList, ¬ ('a' ≤ c ∧ c ≤ 'z') := by
    cases mode <;> simp [name]
  have hlookup : read text = .ok mode ↔
      ofName? (String.ofList (dropRoundWord (Text.upper (Text.trim text.toList)))) =
        some mode := by
    unfold read
    split
    · rename_i found hfound
      simp [hfound]
    · rename_i hnone
      simp [hnone]
  rw [hlookup, ofName?_eq_some_iff, ← String.toList_inj, String.toList_ofList, dropRoundWord_eq_iff,
    Text.upper_trim_eq_iff hname, Text.upper_trim_eq_iff hword, IsSpelling]

end Rounding

namespace Width

/-- A text names a width: it spells its name. -/
def IsSpelling (width : Width) (text : String) : Prop :=
  Text.Spells text.toList width.name.toList

/-- Just the texts that name a width are read as the width. -/
theorem read?_eq_some_iff {width : Width} {text : String} :
    read? text = some width ↔ width.IsSpelling text := by
  have hname : ∀ c ∈ width.name.toList, ¬ ('a' ≤ c ∧ c ≤ 'z') := by cases width <;> simp [name]
  rw [IsSpelling, ← Text.upper_trim_eq_iff hname]
  constructor
  · intro h
    rw [read?] at h
    have hfound := List.find?_some h
    rw [beq_iff_eq.mp hfound, String.toList_ofList]
  · intro h
    rw [read?, h, String.ofList_toList]
    cases width <;> decide

end Width

namespace Resolution

/-- A text tells a precision: apart from the blanks around it, it is digits for the number, after a
plus sign or not. -/
def IsSpelling (precision : UInt32) (text : String) : Prop :=
  ∃ sign digits, Text.IsTrimmed text.toList (sign ++ digits) ∧ (sign = [] ∨ sign = ['+']) ∧
    digits ≠ [] ∧ (∀ c ∈ digits, Text.isDigit c = true) ∧
    Text.positionalValue digits = precision.toNat

/-- Just the texts that tell a precision are read as the precision. -/
theorem readPrecision_eq_ok_iff {precision : UInt32} {text : String} :
    readPrecision text = .ok precision ↔ IsSpelling precision text := by
  have hnumber : readPrecision text = .ok precision ↔
      Text.readNatural (Text.trim text.toList) = some precision.toNat := by
    have hword := precision.toNat_lt
    unfold readPrecision
    split
    · rename_i n hn
      rw [hn, Option.some_inj]
      split
      · rename_i hsize
        rw [Except.ok.injEq, ← UInt32.toNat_inj, UInt32.toNat_ofNat_of_lt' hsize]
      · rename_i hsize
        refine iff_of_false (by simp) fun heq => hsize ?_
        rwa [heq]
    · rename_i hnone
      simp [hnone]
  rw [hnumber, Text.readNatural_eq_some_iff]
  constructor
  · rintro ⟨sign, digits, htrim, hdigits⟩
    exact ⟨sign, digits, Text.trim_eq_iff.mp htrim, hdigits⟩
  · rintro ⟨sign, digits, htrimmed, hdigits⟩
    exact ⟨sign, digits, Text.trim_eq_iff.mpr htrimmed, hdigits⟩

end Resolution

end Monetary
