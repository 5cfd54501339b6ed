import Monetary.Json.Printer
import Monetary.Json.Token
import Monetary.Proofs.Text.Digits

/-!
# Written tokens are read

Every token is read back from the text in which it is written. In a string each character is read
before the next one, whether it stands for itself or is escaped, because no text holds half of a
surrogate pair that a later escape could join. A numeral or a word ends where a character follows
that can be no part of it, so what is written after it must not start with such a character.
-/

namespace Monetary

namespace JsonValue

/-- No character is one half of a surrogate pair. -/
theorem isSurrogate_toNat (c : Char) : isSurrogate c.toNat = false := by
  have hvalid : c.toNat < 0xD800 ∨ 0xDFFF < c.toNat ∧ c.toNat < 0x110000 := c.valid
  simp only [isSurrogate, Bool.and_eq_false_iff, decide_eq_false_iff_not]
  omega

/-- The code points of a text are those of this text. -/
theorem text?_points (text : String) : text? (points text) = some text := by
  have hnone : (points text).any isSurrogate = false := by
    simp [points, isSurrogate_toNat]
  rw [text?, hnone, points, List.map_map]
  have hchars : Char.ofNat ∘ Char.toNat = id := by
    funext c
    exact Char.ofNat_toNat c
  simp [hchars]

/-- Texts of the same code points are the same. -/
theorem points_injective : Function.Injective points := by
  intro a b h
  have htext := text?_points a
  rw [h, text?_points b] at htext
  exact (Option.some.inj htext).symm

end JsonValue

namespace JsonToken

open JsonValue (points printString escapePoint fourHexDigits)

variable {state : State} {c : Char} {rest word : List Char} {token : JsonToken}

/-- A character that completes no token only changes what the machine is in the middle of. -/
theorem scan_cons_silent (next : State) (h : step state c = some ([], next)) :
    scan state (c :: rest) = scan next rest := by
  simp only [scan, h, Option.bind_eq_bind, Option.bind_some]
  cases scan next rest <;> rfl

/-- A character that is a token by itself comes before the tokens of the rest. -/
theorem scan_cons_token (token : JsonToken) {next : State}
    (h : step state c = some ([token], next)) :
    scan state (c :: rest) = (scan next rest).map (token :: ·) := by
  simp only [scan, h, Option.bind_eq_bind, Option.bind_some]
  cases scan next rest <;> rfl

section Strings

/-- A hexadecimal digit is read back. -/
theorem hexValue?_hexDigitChar {digit : Nat} (h : digit < 16) :
    hexValue? (Text.hexDigitChar digit) = some digit := by
  have hall : ∀ d < 16, hexValue? (Text.hexDigitChar d) = some d := by decide
  exact hall digit h

/-- A hexadecimal digit before the last one of a code unit is taken into its value. -/
theorem scan_hexDigit (read : List Nat) (value : Nat) {count digit : Nat} (hdigit : digit < 16)
    (hcount : count < 3) : scan (.codeUnit read value count) (Text.hexDigitChar digit :: rest) =
      scan (.codeUnit read (16 * value + digit) (count + 1)) rest :=
  scan_cons_silent _ (by simp [step, hexValue?_hexDigitChar hdigit, hcount])

/-- The last hexadecimal digit of a code unit completes it. -/
theorem scan_lastHexDigit (read : List Nat) (value : Nat) {digit : Nat} (hdigit : digit < 16) :
    scan (.codeUnit read value 3) (Text.hexDigitChar digit :: rest) =
      scan (.string (pushUnit (16 * value + digit) read)) rest :=
  scan_cons_silent _ (by simp [step, hexValue?_hexDigitChar hdigit])

/-- A code unit that is no half of a surrogate pair is read from its four digits. -/
theorem scan_fourHexDigits (read : List Nat) {unit : Nat} (h : unit < 0xDC00) :
    scan (.codeUnit read 0 0) (fourHexDigits unit ++ rest) =
      scan (.string (unit :: read)) rest := by
  have hvalue : 16 * (16 * (16 * (16 * 0 + unit / 4096 % 16) + unit / 256 % 16) + unit / 16 % 16) +
      unit % 16 = unit := by omega
  have hpush : pushUnit unit read = unit :: read := by
    cases read with
    | nil => rfl
    | cons high read => rw [pushUnit, if_neg (by omega)]
  simp only [fourHexDigits, List.cons_append, List.nil_append]
  rw [scan_hexDigit _ _ (by omega) (by decide), scan_hexDigit _ _ (by omega) (by decide),
    scan_hexDigit _ _ (by omega) (by decide), scan_lastHexDigit _ _ (by omega), hvalue, hpush]

/-- A character is read from the form in which it stands in a string. -/
theorem scan_escapePoint (read : List Nat) (c : Char) :
    scan (.string read) (escapePoint c.toNat ++ rest) = scan (.string (c.toNat :: read)) rest := by
  have hshort {letter : Char} {point : Nat} (hletter : letter ≠ 'u')
      (hescaped : escaped? letter = some point) :
      scan (.string read) ('\\' :: letter :: rest) = scan (.string (point :: read)) rest := by
    rw [scan_cons_silent (.escape read) rfl,
      scan_cons_silent (.string (point :: read))]
    simp [step, hletter, hescaped]
  unfold escapePoint
  split_ifs with hquote hbackslash hback htab hline hform hreturn hcontrol
  · rw [hquote]
    exact hshort (by decide) rfl
  · rw [hbackslash]
    exact hshort (by decide) rfl
  · rw [hback]
    exact hshort (by decide) rfl
  · rw [htab]
    exact hshort (by decide) rfl
  · rw [hline]
    exact hshort (by decide) rfl
  · rw [hform]
    exact hshort (by decide) rfl
  · rw [hreturn]
    exact hshort (by decide) rfl
  · rw [JsonValue.isSurrogate_toNat, Bool.or_false, decide_eq_true_eq] at hcontrol
    rw [List.cons_append, List.cons_append, scan_cons_silent (.escape read) rfl,
      scan_cons_silent (.codeUnit read 0 0) rfl, scan_fourHexDigits read (by omega)]
  · rw [JsonValue.isSurrogate_toNat, Bool.or_false, decide_eq_true_eq, Nat.not_lt] at hcontrol
    have hnotQuote : c ≠ '"' := by
      rintro rfl
      exact hquote rfl
    have hnotBackslash : c ≠ '\\' := by
      rintro rfl
      exact hbackslash rfl
    rw [Char.ofNat_toNat]
    apply scan_cons_silent
    simp [step, hnotQuote, hnotBackslash, hcontrol]

/-- A string is read up to its end from the forms of its characters. -/
theorem scan_escaped (read : List Nat) (text : List Char) :
    scan (.string read) ((text.map Char.toNat).flatMap escapePoint ++ '"' :: rest) =
      (scan .between rest).map (.string (read.reverse ++ text.map Char.toNat) :: ·) := by
  induction text generalizing read with
  | nil =>
    rw [List.map_nil, List.append_nil]
    exact scan_cons_token _ rfl
  | cons c text ih =>
    rw [List.map_cons, List.flatMap_cons, List.append_assoc, scan_escapePoint, ih,
      List.reverse_cons, List.append_assoc]
    rfl

/-- The string of a text is read back. -/
theorem scan_printString (text : String) : scan .between (printString (points text) ++ rest) =
    (scan .between rest).map (.string (points text) :: ·) := by
  rw [printString, List.cons_append, List.cons_append, List.append_assoc,
    scan_cons_silent (.string []) rfl]
  exact scan_escaped [] text.toList

end Strings

section Words

/-- What is written after a numeral or a word that does not start like a further part of it. -/
def EndsToken (rest : List Char) : Prop :=
  ∀ c ∈ rest.head?, isNumeralChar c = false ∧ isLowerLetter c = false

/-- A token is completed by what ends it, before the tokens of the rest. -/
theorem scan_of_ended (hfinish : finish state = some [token])
    (hstep : ∀ c ∈ rest.head?, step state c = beginAfter (some token) c) :
    scan state rest = (scan .between rest).map (token :: ·) := by
  cases rest with
  | nil =>
    rw [scan, hfinish]
    rfl
  | cons c rest =>
    have hbegin : step .between c = begin c := rfl
    simp only [scan, hstep c rfl, hbegin, beginAfter, Option.bind_eq_bind, Option.bind_some]
    cases begin c with
    | none => rfl
    | some started =>
      simp only [Option.bind_some, Option.pure_def]
      cases scan started.2 rest <;> rfl

/-- A numeral is complete where it ends. -/
theorem scan_numeral_of_ended {read : List Char} (h : ofNumeral? read.reverse = some token)
    (hrest : EndsToken rest) : scan (.numeral read) rest =
      (scan .between rest).map (token :: ·) := by
  apply scan_of_ended
  · rw [finish, h]
    rfl
  · intro c hc
    rw [step, (hrest c hc).1, h]
    rfl

/-- A word is complete where it ends. -/
theorem scan_word_of_ended {read : List Char} (h : ofWord? read.reverse = some token)
    (hrest : EndsToken rest) : scan (.word read) rest =
      (scan .between rest).map (token :: ·) := by
  apply scan_of_ended
  · rw [finish, h]
    rfl
  · intro c hc
    rw [step, (hrest c hc).2, h]
    rfl

/-- The characters of a numeral are taken into it. -/
theorem scan_numeral_append (read : List Char) (hword : ∀ c ∈ word, isNumeralChar c = true) :
    scan (.numeral read) (word ++ rest) = scan (.numeral (word.reverse ++ read)) rest := by
  induction word generalizing read with
  | nil => rfl
  | cons c word ih =>
    obtain ⟨hc, hword⟩ := List.forall_mem_cons.mp hword
    rw [List.cons_append, scan_cons_silent (.numeral (c :: read)) (by simp [step, hc]),
      ih _ hword, List.reverse_cons, List.append_assoc]
    rfl

/-- The letters of a word are taken into it. -/
theorem scan_word_append (read : List Char) (hword : ∀ c ∈ word, isLowerLetter c = true) :
    scan (.word read) (word ++ rest) = scan (.word (word.reverse ++ read)) rest := by
  induction word generalizing read with
  | nil => rfl
  | cons c word ih =>
    obtain ⟨hc, hword⟩ := List.forall_mem_cons.mp hword
    rw [List.cons_append, scan_cons_silent (.word (c :: read)) (by simp [step, hc]),
      ih _ hword, List.reverse_cons, List.append_assoc]
    rfl

/-- A text that may be written for a number: one that starts like a numeral, goes on like one, and
is one. -/
structure IsNumeral (numeral : List Char) : Prop where
  starts : ∃ lead tail, numeral = lead :: tail ∧ (Text.isDigit lead = true ∨ lead = '-')
  goes_on : ∀ c ∈ numeral, isNumeralChar c = true
  is_numeral : ofNumeral? numeral = some (.number numeral)

/-- A digit, and a sign, start a numeral. -/
theorem begin_of_numeral (h : Text.isDigit c = true ∨ c = '-') :
    begin c = some ([], .numeral [c]) := by
  rcases h with hdigit | rfl
  · have hmarks : ∀ d ∈ [' ', '\n', '\t', '\r', '\x7b', '\x7d', '[', ']', ':', ',', '"'],
        Text.isDigit d = false := by simp [Text.isDigit]
    have hne := fun d hd => Text.ne_of_isDigit hdigit (hmarks d hd)
    simp only [List.forall_mem_cons] at hne
    simp [begin, hdigit, hne]
  · rfl

/-- A numeral is read back. -/
theorem scan_numeral {numeral : List Char} (h : IsNumeral numeral) (hrest : EndsToken rest) :
    scan .between (numeral ++ rest) = (scan .between rest).map (.number numeral :: ·) := by
  obtain ⟨⟨lead, tail, rfl, hlead⟩, hgoes, hnumeral⟩ := h
  have hbegin : step .between lead = some ([], .numeral [lead]) := begin_of_numeral hlead
  rw [List.cons_append, scan_cons_silent _ hbegin,
    scan_numeral_append _ (List.forall_mem_cons.mp hgoes).2]
  apply scan_numeral_of_ended _ hrest
  simpa using hnumeral

/-- A word that is a token is read back. -/
theorem scan_word {lead : Char} (hstarts : begin lead = some ([], .word [lead]))
    (hword : word.all isLowerLetter = true) (htoken : ofWord? (lead :: word) = some token)
    (hrest : EndsToken rest) :
    scan .between (lead :: word ++ rest) = (scan .between rest).map (token :: ·) := by
  have hbegin : step .between lead = some ([], .word [lead]) := hstarts
  rw [List.cons_append, scan_cons_silent _ hbegin, scan_word_append _ (List.all_eq_true.mp hword)]
  apply scan_word_of_ended _ hrest
  simpa using htoken

/-- The digits of a number are an integral part: only zero starts with the digit zero. -/
theorem isIntegralPart_digits (n : Nat) : isIntegralPart (Text.digits n) = true := by
  unfold isIntegralPart
  split
  · rename_i hnone
    exact absurd hnone (Text.digits_ne_nil n)
  · rfl
  · rename_i tail hlonger hzero
    have hnonzero : n ≠ 0 := by
      rintro rfl
      rw [Text.digits_of_lt_ten (by decide)] at hzero
      cases hzero
      exact hlonger rfl
    exact absurd hzero (Text.digits_ne_zero_cons hnonzero tail)
  · exact Text.all_isDigit_digits n

/-- The digits of a number are a numeral. -/
theorem isNumeral_digits (n : Nat) : IsNumeral (Text.digits n) := by
  have hdigit {c : Char} (hc : c ∈ Text.digits n) := Text.isDigit_of_mem_digits hc
  obtain ⟨lead, tail, hdigits⟩ := List.exists_cons_of_ne_nil (Text.digits_ne_nil n)
  have hlead : Text.isDigit lead = true := hdigit (hdigits ▸ List.mem_cons_self)
  refine ⟨⟨lead, tail, hdigits, .inl hlead⟩, fun c hc => by simp [isNumeralChar, hdigit hc], ?_⟩
  have hunmarked : ∀ c ∈ Text.digits n, (c == 'e' || c == 'E') = false ∧ (c == '.') = false := by
    intro c hc
    have hne := fun d hd => Text.ne_of_isDigit (d := d) (hdigit hc) hd
    simp [hne 'e' rfl, hne 'E' rfl, hne '.' rfl]
  have hunsigned : isUnsignedNumber (Text.digits n) = true := by
    unfold isUnsignedNumber
    rw [Text.cutAt_of_forall fun c hc => (hunmarked c hc).1]
    dsimp only
    rw [Text.cutAt_of_forall fun c hc => (hunmarked c hc).2]
    simp [isIntegralPart_digits]
  unfold ofNumeral?
  split
  · rename_i rest hsign
    rw [hsign] at hdigits
    cases hdigits
    exact absurd hlead (by decide)
  · exact if_pos hunsigned

end Words

end JsonToken

end Monetary
