import Monetary.Text.Letters
import Monetary.Proofs.Text.Digits

/-!
# Texts cut at bytes

A text in memory is a sequence of bytes, and it is cut at byte offsets. That goes wrong if the
offset lies inside a character. A mark that takes one byte is safe: the byte offset of its first
occurrence is a boundary between characters, and so is the next offset, so that cutting there is
cutting at the mark. The first byte of a text tells whether a sign stands there, and the bytes of a
word whether it is one of digits, because a character outside ASCII starts with a byte beyond ASCII.
-/

namespace Monetary.Text

/-- The bytes of a text in UTF-8. -/
def bytes (text : List Char) : List UInt8 :=
  text.flatMap String.utf8EncodeChar

/-- Whether a byte is that of a digit. -/
def isDigitByte (byte : UInt8) : Bool :=
  48 ≤ byte && byte ≤ 57

/-- A text cut at a byte offset; none if that lies inside a character or beyond the end. -/
def splitAtByte? : List Char → Nat → Option (List Char × List Char)
  | [], offset => if offset = 0 then some ([], []) else none
  | c :: rest, offset =>
    if offset = 0 then some ([], c :: rest)
    else if c.utf8Size ≤ offset then
      (splitAtByte? rest (offset - c.utf8Size)).map fun (before, after) => (c :: before, after)
    else none

/-- The byte offset of the first character with a mark, if there is one. -/
def offsetOf? (isMark : Char → Bool) : List Char → Option Nat
  | [] => none
  | c :: rest => if isMark c then some 0 else (offsetOf? isMark rest).map (c.utf8Size + ·)

/-- A text before the first character with a mark and, one byte later, after it. -/
def cutAtByte? (isMark : Char → Bool) (text : List Char) :
    Option (List Char × Option (List Char)) :=
  match offsetOf? isMark text with
  | none => some (text, none)
  | some offset => do
    let (before, _) ← splitAtByte? text offset
    let (_, after) ← splitAtByte? text (offset + 1)
    return (before, some after)

variable {word : List Char} {isMark : Char → Bool}

theorem bytes_append (before after : List Char) :
    bytes (before ++ after) = bytes before ++ bytes after :=
  List.flatMap_append

theorem bytes_cons (c : Char) (rest : List Char) :
    bytes (c :: rest) = String.utf8EncodeChar c ++ bytes rest :=
  List.flatMap_cons

/-- A character outside ASCII starts with a byte beyond ASCII; the others are one byte. -/
theorem utf8EncodeChar_cases (c : Char) :
    c.toNat < 128 ∧ String.utf8EncodeChar c = [UInt8.ofNat c.toNat] ∨
      128 ≤ c.toNat ∧ ∃ lead rest, String.utf8EncodeChar c = lead :: rest ∧ 128 ≤ lead.toNat := by
  have hnat : c.toNat = c.val.toNat := rfl
  unfold String.utf8EncodeChar
  dsimp only
  split
  · exact .inl ⟨by omega, rfl⟩
  · refine .inr ⟨by omega, ?_⟩
    split
    · exact ⟨_, _, rfl, by rw [UInt8.toNat_ofNat']; omega⟩
    split
    · exact ⟨_, _, rfl, by rw [UInt8.toNat_ofNat']; omega⟩
    · exact ⟨_, _, rfl, by rw [UInt8.toNat_ofNat']; omega⟩

theorem length_bytes_cons (c : Char) (rest : List Char) :
    (bytes (c :: rest)).length = c.utf8Size + (bytes rest).length := by
  rw [bytes_cons, List.length_append, String.length_utf8EncodeChar]

/-- A text is cut where the bytes of some of its characters end, counted from its start. -/
theorem splitAtByte?_append (before after : List Char) :
    splitAtByte? (before ++ after) (bytes before).length = some (before, after) := by
  induction before with
  | nil => cases after <;> rfl
  | cons c rest ih =>
    have hsize := c.utf8Size_pos
    rw [List.cons_append, splitAtByte?, length_bytes_cons, if_neg (by omega),
      if_pos (Nat.le_add_right _ _), Nat.add_sub_cancel_left, ih]
    rfl

/-- A text has no marked character, or one at the offset of the first. -/
theorem offsetOf?_cases (isMark : Char → Bool) (text : List Char) :
    offsetOf? isMark text = none ∧ (∀ c ∈ text, isMark c = false) ∨
      ∃ before c after, text = before ++ c :: after ∧ (∀ d ∈ before, isMark d = false) ∧
        isMark c = true ∧ offsetOf? isMark text = some (bytes before).length := by
  induction text with
  | nil => exact .inl ⟨rfl, by simp⟩
  | cons d rest ih =>
    rw [offsetOf?]
    split
    · rename_i hmark
      exact .inr ⟨[], d, rest, rfl, by simp, hmark, rfl⟩
    rename_i hmark
    rw [Bool.not_eq_true] at hmark
    rcases ih with ⟨hnone, hall⟩ | ⟨before, c, after, rfl, hbefore, hc, hoffset⟩
    · rw [hnone]
      exact .inl ⟨rfl, List.forall_mem_cons.mpr ⟨hmark, hall⟩⟩
    · rw [hoffset]
      refine .inr ⟨d :: before, c, after, rfl, List.forall_mem_cons.mpr ⟨hmark, hbefore⟩, hc, ?_⟩
      rw [length_bytes_cons]
      rfl

/-- Cutting at bytes is cutting at the mark if a mark takes one byte. -/
theorem cutAtByte?_eq (hmark : ∀ c, isMark c = true → c.utf8Size = 1) (text : List Char) :
    cutAtByte? isMark text = some (cutAt isMark text) := by
  unfold cutAtByte?
  rcases offsetOf?_cases isMark text with
    ⟨hnone, hall⟩ | ⟨before, c, after, rfl, hbefore, hc, hoffset⟩
  · rw [hnone, cutAt_of_forall hall]
  · have hnext : (bytes (before ++ [c])).length = (bytes before).length + 1 := by
      rw [bytes_append, List.length_append, length_bytes_cons, hmark c hc]
      rfl
    have hsecond := splitAtByte?_append (before ++ [c]) after
    rw [hnext, List.append_assoc, List.singleton_append] at hsecond
    rw [hoffset, cutAt_append_cons hbefore hc]
    dsimp only
    rw [splitAtByte?_append, hsecond]
    rfl

/-- A text starts with the byte of an ASCII character just where it starts with that character. -/
theorem head?_bytes_eq_iff (text : List Char) {c : Char} (hc : c.toNat < 128) :
    (bytes text).head? = some (UInt8.ofNat c.toNat) ↔ text.head? = some c := by
  cases text with
  | nil => exact iff_of_false nofun nofun
  | cons d rest =>
    rw [bytes_cons, List.head?_cons, Option.some_inj, ← Char.toNat_inj]
    rcases utf8EncodeChar_cases d with ⟨hsmall, hbytes⟩ | ⟨hlarge, lead, tail, hbytes, hlead⟩
    · rw [hbytes, List.singleton_append, List.head?_cons, Option.some_inj, ← UInt8.toNat_inj,
        UInt8.toNat_ofNat', UInt8.toNat_ofNat', Nat.mod_eq_of_lt (by omega),
        Nat.mod_eq_of_lt (by omega)]
    · rw [hbytes, List.cons_append, List.head?_cons, Option.some_inj, ← UInt8.toNat_inj,
        UInt8.toNat_ofNat', Nat.mod_eq_of_lt (by omega)]
      omega

/-- The bytes of a word are those of digits just where its characters are digits. -/
theorem all_isDigitByte_bytes (word : List Char) :
    (bytes word).all isDigitByte = word.all isDigit := by
  have hbyte (byte : UInt8) :
      isDigitByte byte = true ↔ 48 ≤ byte.toNat ∧ byte.toNat ≤ 57 := by
    rw [isDigitByte, Bool.and_eq_true, decide_eq_true_eq, decide_eq_true_eq]
    rfl
  have hchar (c : Char) : (String.utf8EncodeChar c).all isDigitByte = isDigit c := by
    rw [Bool.eq_iff_iff, isDigit_iff]
    rcases utf8EncodeChar_cases c with ⟨hsmall, hbytes⟩ | ⟨hlarge, lead, tail, hbytes, hlead⟩
    · rw [hbytes, List.all_cons, List.all_nil, Bool.and_true, hbyte, UInt8.toNat_ofNat',
        Nat.mod_eq_of_lt (by omega)]
    · rw [hbytes, List.all_cons, Bool.and_eq_true, hbyte]
      omega
  induction word with
  | nil => rfl
  | cons c rest ih => rw [bytes_cons, List.all_append, hchar, ih, List.all_cons]

/-- The bytes of a word of digits are as many as its digits. -/
theorem length_bytes_of_isDigit (h : ∀ c ∈ word, isDigit c = true) :
    (bytes word).length = word.length := by
  induction word with
  | nil => rfl
  | cons c rest ih =>
    obtain ⟨hc, hrest⟩ := List.forall_mem_cons.mp h
    have hsize : c.utf8Size = 1 := by
      rw [Char.utf8Size_eq_one_iff, UInt32.le_iff_toNat_le]
      exact Nat.le_trans (isDigit_iff.mp hc).2 (by decide)
    rw [length_bytes_cons, hsize, ih hrest, List.length_cons, Nat.add_comm]

end Monetary.Text
