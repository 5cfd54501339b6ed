import Monetary.Proofs.Decimal.Grammar
import Monetary.Proofs.Text.Slices

/-!
# Which texts are read

A number is read from the bytes of a text: the sign is its first byte, the exponent mark and the
point are found by their byte offsets, the text is sliced at these, and the bytes of the slices are
tested for digits. None of this can go wrong, whatever the text is. All marks are characters of
ASCII, so no slice starts or ends inside a character, and the scale is computed with a check. What
the slices give is what taking the text apart by its characters gives, and that is decided by the
grammar.
-/

namespace Monetary.Decimal

/-- Whether the first byte of a text is that of `-`, and the text after a sign of one byte. -/
def splitSignByte? (text : List Char) : Option (Bool × List Char) :=
  if (Text.bytes text).head? = some 45 then
    (Text.splitAtByte? text 1).map fun (_, rest) => (true, rest)
  else if (Text.bytes text).head? = some 43 then
    (Text.splitAtByte? text 1).map fun (_, rest) => (false, rest)
  else some (false, text)

/-- The number of digits after the point less the exponent, if the difference takes no more bits
than the exponent may. -/
def subExponent? (places : Nat) (exponent : Int) : Option Int :=
  (some (places - exponent)).filter isExponent

/-- Reads the slices before and after a point. -/
def readSlices (negative : Bool) (whole fraction : List Char) (exponent : Int) :
    Except NumberError Decimal :=
  if (whole.isEmpty && fraction.isEmpty) || !(Text.bytes whole).all Text.isDigitByte ||
      !(Text.bytes fraction).all Text.isDigitByte then
    .error .invalidInput
  else
    match Text.readDigits (whole ++ fraction) with
    | none => .error .invalidInput
    | some magnitude =>
      match subExponent? (Text.bytes fraction).length exponent with
      | none => .error .overflow
      | some scale => ofParts (if negative then -(magnitude : Int) else magnitude) scale

/-- Reads a number from a text without blanks around it by slicing the text at bytes; none if a
slice would start or end inside a character or beyond the end. -/
def readBySlices? (text : List Char) : Option (Except NumberError Decimal) := do
  let (negative, body) ← splitSignByte? text
  let (mantissa, exponentPart) ← Text.cutAtByte? (fun c => c == 'e' || c == 'E') body
  match readExponent exponentPart with
  | none => return .error .invalidInput
  | some exponent =>
    let (whole, fraction) ← Text.cutAtByte? (· == '.') mantissa
    return readSlices negative whole (fraction.getD []) exponent

/-- A text that starts with a character of one byte is cut after it. -/
theorem splitAtByte?_one {c : Char} (hc : c.utf8Size = 1) (rest : List Char) :
    Text.splitAtByte? (c :: rest) 1 = some ([c], rest) := by
  have hlength : (Text.bytes [c]).length = 1 := by
    rw [Text.length_bytes_cons, hc]
    rfl
  rw [← List.singleton_append, ← hlength, Text.splitAtByte?_append]

/-- The sign by the first byte is the sign by the first character. -/
theorem splitSignByte?_eq (text : List Char) : splitSignByte? text = some (splitSign text) := by
  have hminus : (Text.bytes text).head? = some 45 ↔ text.head? = some '-' :=
    Text.head?_bytes_eq_iff text (c := '-') (by decide)
  have hplus : (Text.bytes text).head? = some 43 ↔ text.head? = some '+' :=
    Text.head?_bytes_eq_iff text (c := '+') (by decide)
  simp only [splitSignByte?, hminus, hplus]
  split
  · rename_i hfirst
    obtain ⟨rest, rfl⟩ := List.head?_eq_some_iff.mp hfirst
    rw [splitAtByte?_one rfl]
    rfl
  split
  · rename_i hfirst
    obtain ⟨rest, rfl⟩ := List.head?_eq_some_iff.mp hfirst
    rw [splitAtByte?_one rfl]
    rfl
  · rename_i hnoMinus hnoPlus
    unfold splitSign
    split
    · exact absurd rfl hnoMinus
    · exact absurd rfl hnoPlus
    · rfl

/-- The check that the difference takes no more bits is only another way to find that the scale is
out of range. -/
theorem ofParts_of_subExponent? (coefficient : Int) (places : Nat) (exponent : Int) :
    (match subExponent? places exponent with
      | none => .error .overflow
      | some scale => ofParts coefficient scale) = ofParts coefficient (places - exponent) := by
  rw [subExponent?, Option.filter_some]
  cases hfits : isExponent (places - exponent) with
  | true => rfl
  | false =>
    refine (ofParts_eq_error_iff.mpr ⟨rfl, ?_⟩).symm
    rintro ⟨hlow, hhigh⟩
    simp only [isExponent, Bool.and_eq_false_iff, decide_eq_false_iff_not, leastScale,
      greatestScale] at *
    omega

/-- The slices are read as the number that their digits and the exponent give. -/
theorem readSlices_eq (negative : Bool) (whole fraction : List Char) (exponent : Int) :
    readSlices negative whole fraction exponent =
      match Text.readDigits (whole ++ fraction) with
      | none => .error .invalidInput
      | some magnitude =>
        ofParts (if negative then -(magnitude : Int) else magnitude)
          (fraction.length - exponent) := by
  rw [readSlices, Text.all_isDigitByte_bytes, Text.all_isDigitByte_bytes]
  cases hread : Text.readDigits (whole ++ fraction) with
  | none =>
    split
    · rfl
    · rfl
  | some magnitude =>
    obtain ⟨hne, hdigits, -⟩ := Text.readDigits_eq_some_iff.mp hread
    obtain ⟨hwhole, hfraction⟩ := List.forall_mem_append.mp hdigits
    rw [if_neg]
    · dsimp only
      rw [ofParts_of_subExponent?, Text.length_bytes_of_isDigit hfraction]
    · simpa [List.all_eq_true.mpr hwhole, List.all_eq_true.mpr hfraction] using hne

/-- Reading at bytes never slices a text inside a character, and it gives what reading by characters
gives. -/
theorem readBySlices?_eq (text : List Char) : readBySlices? text = some (readTrimmed text) := by
  have hexponentMark (c : Char) (hc : (c == 'e' || c == 'E') = true) : c.utf8Size = 1 := by
    rcases Bool.or_eq_true_iff.mp hc with h | h
    · rw [beq_iff_eq.mp h]
      rfl
    · rw [beq_iff_eq.mp h]
      rfl
  have hpoint (c : Char) (hc : (c == '.') = true) : c.utf8Size = 1 := by
    rw [beq_iff_eq.mp hc]
    rfl
  simp only [readBySlices?, readTrimmed, splitSignByte?_eq, Text.cutAtByte?_eq hexponentMark,
    Text.cutAtByte?_eq hpoint, readSlices_eq, Option.bind_eq_bind, Option.bind_some]
  obtain ⟨negative, body⟩ := splitSign text
  obtain ⟨mantissa, exponentPart⟩ := Text.cutAt (fun c => c == 'e' || c == 'E') body
  obtain ⟨whole, fraction⟩ := Text.cutAt (· == '.') mantissa
  cases readExponent exponentPart with
  | none => rfl
  | some exponent =>
    dsimp only
    cases Text.readDigits (whole ++ fraction.getD []) with
    | none => rfl
    | some magnitude => rfl

/-- A number is read from a text as the grammar has it, after the blanks around the text are taken
off: the digits and the sign give the coefficient, and the number of digits after the point less the
exponent the scale. Nothing else is read, and slicing at bytes comes to the same. -/
theorem read_decided_by_grammar (text : String) :
    Text.IsTrimmed text.toList (Text.trim text.toList) ∧
      readBySlices? (Text.trim text.toList) = some (read text) ∧
      (∀ n exponent, Numeral.IsWritten (Text.trim text.toList) n exponent →
        (isExponent exponent = false → read text = .error .invalidInput) ∧
        (isExponent exponent = true → ∀ scale, scale = n.fractionDigits.length - exponent →
          (leastScale ≤ scale ∧ scale ≤ greatestScale → ∃ x, read text = .ok x ∧
            x.coefficient = n.coefficient ∧ x.scale.toInt = scale) ∧
          (¬ (leastScale ≤ scale ∧ scale ≤ greatestScale) → read text = .error .overflow))) ∧
      ((∀ n exponent, ¬ Numeral.IsWritten (Text.trim text.toList) n exponent) →
        read text = .error .invalidInput) := by
  refine ⟨Text.isTrimmed_trim text.toList, readBySlices?_eq _, ?_,
    Numeral.readTrimmed_of_not_isWritten⟩
  intro n exponent hwritten
  rw [read, hwritten.readTrimmed_eq]
  refine ⟨fun hbeyond => by rw [hbeyond]; rfl, ?_⟩
  rintro hexponent scale rfl
  rw [if_pos hexponent]
  constructor
  · rintro ⟨hlow, hhigh⟩
    obtain ⟨x, hx⟩ := exists_ofParts_eq_ok n.coefficient hlow hhigh
    exact ⟨x, hx, ofParts_eq_ok_iff.mp hx⟩
  · exact fun hrange => ofParts_eq_error_iff.mpr ⟨rfl, hrange⟩

/-- A numeral between blanks, one whose scale takes more than 64 bits, and a text with a character
of two bytes where the sign may stand. -/
theorem read_decided_by_grammar_of_three_texts :
    (∃ x, read " -1.50e+1 " = .ok x ∧ x.coefficient = -150 ∧ x.scale.toInt = 1) ∧
      read "1E-9223372036854775808" = .error .overflow ∧
      readBySlices? "é5".toList = some (.error .invalidInput) := by
  have hplain : Numeral.IsWritten (Text.trim " -1.50e+1 ".toList)
      ⟨true, ['1'], some ['5', '0'], some ['+', '1']⟩ 1 :=
    Numeral.isWritten_of_read (by decide +kernel) (by decide +kernel : _ = some 150)
  have hfar : Numeral.IsWritten (Text.trim "1E-9223372036854775808".toList)
      ⟨false, ['1'], none, some "-9223372036854775808".toList⟩ (-9223372036854775808) :=
    Numeral.isWritten_of_read (by decide +kernel) (by decide +kernel : _ = some 1)
  have hnone : ∀ n exponent, ¬ Numeral.IsWritten (Text.trim "é5".toList) n exponent := by
    intro n exponent h
    have hword := h.isWord
    rw [← h.ofText_eq] at hword
    exact absurd (hword.2 'é' List.mem_cons_self) (by decide)
  obtain ⟨-, -, hread, -⟩ := read_decided_by_grammar " -1.50e+1 "
  obtain ⟨-, -, hoverflow, -⟩ := read_decided_by_grammar "1E-9223372036854775808"
  obtain ⟨-, hsliced, -, hinvalid⟩ := read_decided_by_grammar "é5"
  refine ⟨((hread _ _ hplain).2 (by decide) 1 (by decide)).1 (by decide),
    ((hoverflow _ _ hfar).2 (by decide) 9223372036854775808 (by decide)).2 (by decide), ?_⟩
  rw [← hinvalid hnone, ← hsliced]
  rfl

end Monetary.Decimal
