import Monetary.Decimal.Parser
import Monetary.Proofs.Decimal.Value
import Monetary.Proofs.Text.Digits

/-!
# The grammar of numerals

A numeral is an optional sign; digits, at most with a point after or among them, or a point and
digits; and an optional exponent, which is a mark, an optional sign and digits. Reading first takes
a text apart at these marks, whatever it is. A text in the grammar is taken apart into the parts it
is written from, because no digit is a sign, a point or an exponent mark; and where the parts can be
read, the text was written from them. So only a text in the grammar is read, and the number is
decided by its parts.
-/

namespace Monetary.Decimal

/-- The parts of a numeral as they are written. -/
structure Numeral where
  negative : Bool
  /-- The digits before the point. -/
  whole : List Char
  /-- The digits after the point, if there is one. -/
  fraction : Option (List Char)
  /-- The text after the exponent mark, if there is one. -/
  exponent : Option (List Char)

namespace Numeral

/-- The parts of a text. -/
def ofText (text : List Char) : Numeral :=
  let (negative, body) := splitSign text
  let (mantissa, exponent) := Text.cutAt (fun c => c == 'e' || c == 'E') body
  let (whole, fraction) := Text.cutAt (· == '.') mantissa
  ⟨negative, whole, fraction, exponent⟩

/-- The digits after the point; none without a point. -/
def fractionDigits (n : Numeral) : List Char :=
  n.fraction.getD []

/-- The digits before and after the point. -/
def word (n : Numeral) : List Char :=
  n.whole ++ n.fractionDigits

/-- The integer that digits after a sign stand for. -/
def signedValue (negative : Bool) (word : List Char) : Int :=
  if negative then -(Text.positionalValue word : Int) else Text.positionalValue word

/-- The coefficient that the sign and the digits stand for. -/
def coefficient (n : Numeral) : Int :=
  signedValue n.negative n.word

/-- Digits, at least one. -/
def IsWord (word : List Char) : Prop :=
  word ≠ [] ∧ ∀ c ∈ word, Text.isDigit c = true

/-- A sign, and whether it is negative; it may be left out. -/
inductive IsSign : List Char → Bool → Prop
  | absent : IsSign [] false
  | plus : IsSign ['+'] false
  | minus : IsSign ['-'] true

/-- Digits with at most one point among or beside them, the digits before it, and those after it. -/
inductive IsMantissa : List Char → List Char → Option (List Char) → Prop
  | whole {word : List Char} (h : IsWord word) : IsMantissa word word none
  | pointed {whole fraction : List Char} (h : IsWord whole)
      (hfraction : ∀ c ∈ fraction, Text.isDigit c = true) :
      IsMantissa (whole ++ '.' :: fraction) whole (some fraction)
  | fraction {fraction : List Char} (h : IsWord fraction) :
      IsMantissa ('.' :: fraction) [] (some fraction)

/-- An exponent after its mark, the text after the mark, and the value; zero without a mark. -/
inductive IsExponentPart : List Char → Option (List Char) → Int → Prop
  | absent : IsExponentPart [] none 0
  | marked {mark : Char} {sign word : List Char} {negative : Bool}
      (hmark : mark = 'e' ∨ mark = 'E') (hsign : IsSign sign negative) (hword : IsWord word) :
      IsExponentPart (mark :: (sign ++ word)) (some (sign ++ word)) (signedValue negative word)

/-- A text in the grammar, the parts it is written from and the exponent it carries. -/
def IsWritten (text : List Char) (n : Numeral) (exponent : Int) : Prop :=
  ∃ sign mantissa marked, text = sign ++ (mantissa ++ marked) ∧ IsSign sign n.negative ∧
    IsMantissa mantissa n.whole n.fraction ∧ IsExponentPart marked n.exponent exponent

variable {n : Numeral} {text word body mantissa whole marked : List Char}
  {fraction after : Option (List Char)} {negative : Bool} {exponent : Int}

/-- Digits after a sign are read as the integer that they stand for. -/
theorem IsSign.readInteger {sign : List Char} (h : IsSign sign negative) (hword : IsWord word) :
    Text.readInteger (sign ++ word) = some (signedValue negative word) := by
  have hdigits := Text.readDigits_of_isDigit hword.1 hword.2
  cases h with
  | absent =>
    obtain ⟨c, rest, rfl⟩ := List.exists_cons_of_ne_nil hword.1
    have hc : Text.isDigit c = true := hword.2 c List.mem_cons_self
    unfold Text.readInteger
    split
    · rename_i heq
      exact absurd (List.cons.inj heq).1 (Text.ne_of_isDigit hc (by decide))
    · rename_i heq
      exact absurd (List.cons.inj heq).1 (Text.ne_of_isDigit hc (by decide))
    · rw [List.nil_append, hdigits]
      rfl
  | plus =>
    change (Text.readDigits word).map Int.ofNat = _
    rw [hdigits]
    rfl
  | minus =>
    change (Text.readDigits word).map (fun n => -Int.ofNat n) = _
    rw [hdigits]
    rfl

/-- What is read as an integer is digits after a sign. -/
theorem exists_sign_of_readInteger {value : Int} (h : Text.readInteger text = some value) :
    ∃ sign negative word, text = sign ++ word ∧ IsSign sign negative ∧ IsWord word ∧
      value = signedValue negative word := by
  unfold Text.readInteger at h
  split at h
  all_goals
    obtain ⟨m, hm, hvalue⟩ := Option.map_eq_some_iff.mp h
    obtain ⟨hne, hdigits, rfl⟩ := Text.readDigits_eq_some_iff.mp hm
  · exact ⟨['+'], false, _, rfl, .plus, ⟨hne, hdigits⟩, hvalue.symm⟩
  · exact ⟨['-'], true, _, rfl, .minus, ⟨hne, hdigits⟩, hvalue.symm⟩
  · exact ⟨[], false, _, rfl, .absent, ⟨hne, hdigits⟩, hvalue.symm⟩

/-- Every text is a sign, which may be left out, and what follows it. -/
theorem exists_sign_of_splitSign (text : List Char) :
    ∃ sign, IsSign sign (splitSign text).1 ∧ text = sign ++ (splitSign text).2 := by
  unfold splitSign
  split
  · exact ⟨['-'], .minus, rfl⟩
  · exact ⟨['+'], .plus, rfl⟩
  · exact ⟨[], .absent, rfl⟩

/-- A sign is split off if what follows does not start with one. -/
theorem IsSign.splitSign_append {sign : List Char} (h : IsSign sign negative)
    (hbody : ∀ c rest, body = c :: rest → c ≠ '-' ∧ c ≠ '+') :
    splitSign (sign ++ body) = (negative, body) := by
  cases h with
  | absent =>
    rw [List.nil_append]
    unfold splitSign
    split
    · exact absurd rfl (hbody _ _ rfl).1
    · exact absurd rfl (hbody _ _ rfl).2
    · rfl
  | plus => rfl
  | minus => rfl

/-- A mantissa holds digits and points only. -/
theorem IsMantissa.isDigit_or_eq_point (h : IsMantissa mantissa whole fraction) :
    ∀ c ∈ mantissa, Text.isDigit c = true ∨ c = '.' := by
  cases h with
  | whole h => exact fun c hc => .inl (h.2 c hc)
  | pointed h hfraction =>
    refine List.forall_mem_append.mpr ⟨fun c hc => .inl (h.2 c hc), ?_⟩
    exact List.forall_mem_cons.mpr ⟨.inr rfl, fun c hc => .inl (hfraction c hc)⟩
  | fraction h => exact List.forall_mem_cons.mpr ⟨.inr rfl, fun c hc => .inl (h.2 c hc)⟩

/-- A mantissa starts with a digit or the point, so not with a sign. -/
theorem IsMantissa.ne_sign (h : IsMantissa mantissa whole fraction) :
    ∀ c rest, mantissa ++ marked = c :: rest → c ≠ '-' ∧ c ≠ '+' := by
  intro c rest hstart
  have hne : mantissa ≠ [] := by
    cases h with
    | whole h => exact h.1
    | pointed => simp
    | fraction => simp
  obtain ⟨d, tail, rfl⟩ := List.exists_cons_of_ne_nil hne
  obtain rfl : d = c := (List.cons.inj hstart).1
  rcases h.isDigit_or_eq_point d List.mem_cons_self with hdigit | rfl
  · exact ⟨Text.ne_of_isDigit hdigit (by decide), Text.ne_of_isDigit hdigit (by decide)⟩
  · decide

/-- A mantissa is cut at its point into the digits before and after it. -/
theorem IsMantissa.cutAt_point (h : IsMantissa mantissa whole fraction) :
    Text.cutAt (· == '.') mantissa = (whole, fraction) := by
  have hnone {word : List Char} (hword : IsWord word) : ∀ c ∈ word, (c == '.') = false :=
    fun c hc => beq_eq_false_iff_ne.mpr (Text.ne_of_isDigit (hword.2 c hc) (by decide))
  cases h with
  | whole h => exact Text.cutAt_of_forall (hnone h)
  | pointed h => exact Text.cutAt_append_cons (hnone h) rfl _
  | fraction => rfl

/-- A mantissa is told from the exponent by its mark. -/
theorem IsMantissa.cutAt_mark (h : IsMantissa mantissa whole fraction)
    (hexponent : IsExponentPart marked after exponent) :
    Text.cutAt (fun c => c == 'e' || c == 'E') (mantissa ++ marked) = (mantissa, after) := by
  have hnone : ∀ c ∈ mantissa, (c == 'e' || c == 'E') = false := by
    intro c hc
    rcases h.isDigit_or_eq_point c hc with hdigit | rfl
    · simp [Text.ne_of_isDigit hdigit (d := 'e') (by decide),
        Text.ne_of_isDigit hdigit (d := 'E') (by decide)]
    · decide
  cases hexponent with
  | absent => rw [List.append_nil, Text.cutAt_of_forall hnone]
  | marked hmark =>
    exact Text.cutAt_append_cons hnone (by rcases hmark with rfl | rfl <;> decide) _

/-- A text in the grammar is taken apart into the parts it is written from. -/
theorem IsWritten.ofText_eq (h : IsWritten text n exponent) : ofText text = n := by
  obtain ⟨sign, mantissa, marked, rfl, hsign, hmantissa, hexponent⟩ := h
  simp only [ofText, hsign.splitSign_append hmantissa.ne_sign, hmantissa.cutAt_mark hexponent,
    hmantissa.cutAt_point]

/-- The digits of a text in the grammar are digits, and there are some. -/
theorem IsWritten.isWord (h : IsWritten text n exponent) : IsWord n.word := by
  obtain ⟨negative, whole, fraction, marked⟩ := n
  obtain ⟨-, mantissa, -, -, -, hmantissa, -⟩ := h
  cases hmantissa with
  | whole h =>
    change IsWord (whole ++ [])
    rwa [List.append_nil]
  | pointed h hfraction =>
    exact ⟨List.append_ne_nil_of_left_ne_nil h.1 _, List.forall_mem_append.mpr ⟨h.2, hfraction⟩⟩
  | fraction h => exact h

/-- The exponent of a text in the grammar is read in so far as a numeral may carry it. -/
theorem IsWritten.readExponent_eq (h : IsWritten text n exponent) :
    readExponent n.exponent = if isExponent exponent then some exponent else none := by
  obtain ⟨negative, whole, fraction, after⟩ := n
  obtain ⟨-, -, marked, -, -, -, hexponent⟩ := h
  cases hexponent with
  | absent => rfl
  | marked hmark hsign hword =>
    change (Text.readInteger _).filter isExponent = _
    rw [hsign.readInteger hword, Option.filter_some]

/-- Reading takes a text apart and then reads its parts. -/
theorem readTrimmed_eq (text : List Char) :
    readTrimmed text =
      match readExponent (ofText text).exponent, Text.readDigits (ofText text).word with
      | some exponent, some magnitude =>
        ofParts (if (ofText text).negative then -(magnitude : Int) else magnitude)
          ((ofText text).fractionDigits.length - exponent)
      | _, _ => .error .invalidInput :=
  rfl

/-- A text in the grammar is read as the coefficient and the scale that its parts give, unless its
exponent is not one that a numeral may carry. -/
theorem IsWritten.readTrimmed_eq (h : IsWritten text n exponent) :
    readTrimmed text =
      if isExponent exponent then ofParts n.coefficient (n.fractionDigits.length - exponent)
      else .error .invalidInput := by
  rw [Numeral.readTrimmed_eq, h.ofText_eq, h.readExponent_eq,
    Text.readDigits_of_isDigit h.isWord.1 h.isWord.2]
  cases isExponent exponent with
  | false => rfl
  | true => rfl

/-- A text is put together from what is before a mark, the mark, and what is after it. -/
theorem exists_marked_of_cutAt (isMark : Char → Bool) (text : List Char) :
    ∃ marked, text = (Text.cutAt isMark text).1 ++ marked ∧
      ((Text.cutAt isMark text).2 = none ∧ marked = [] ∨
        ∃ c after, isMark c = true ∧ (Text.cutAt isMark text).2 = some after ∧
          marked = c :: after) := by
  induction text with
  | nil => exact ⟨[], rfl, .inl ⟨rfl, rfl⟩⟩
  | cons c rest ih =>
    rw [Text.cutAt]
    split
    · rename_i hc
      exact ⟨c :: rest, rfl, .inr ⟨c, rest, hc, rfl, rfl⟩⟩
    · obtain ⟨marked, hrest, hmarked⟩ := ih
      exact ⟨marked, congrArg (c :: ·) hrest, hmarked⟩

/-- Digits before and after a point, and some among them, were written as a mantissa. -/
theorem isMantissa_of_cutAt
    (hword : IsWord ((Text.cutAt (· == '.') text).1 ++ (Text.cutAt (· == '.') text).2.getD [])) :
    IsMantissa text (Text.cutAt (· == '.') text).1 (Text.cutAt (· == '.') text).2 := by
  obtain ⟨marked, htext, ⟨hfraction, rfl⟩ | ⟨c, fraction, hc, hfraction, rfl⟩⟩ :=
    exists_marked_of_cutAt (· == '.') text
  · rw [hfraction, Option.getD_none, List.append_nil] at hword
    rw [List.append_nil] at htext
    rw [hfraction, ← htext]
    exact .whole (htext ▸ hword)
  · obtain rfl : c = '.' := beq_iff_eq.mp hc
    rw [hfraction, Option.getD_some] at hword
    rw [hfraction]
    generalize (Text.cutAt (· == '.') text).1 = whole at *
    subst htext
    rcases List.eq_nil_or_concat whole with rfl | ⟨init, last, rfl⟩
    · exact .fraction hword
    · have hdigits := List.forall_mem_append.mp hword.2
      exact .pointed ⟨by simp, hdigits.1⟩ hdigits.2

/-- An exponent that is read was written as one. -/
theorem isExponentPart_of_readExponent {c : Char} (hc : (c == 'e' || c == 'E') = true)
    (h : readExponent (some text) = some exponent) :
    IsExponentPart (c :: text) (some text) exponent := by
  obtain ⟨hread, -⟩ := Option.filter_eq_some_iff.mp h
  obtain ⟨sign, negative, word, rfl, hsign, hword, rfl⟩ := exists_sign_of_readInteger hread
  exact .marked (by simpa using hc) hsign hword

/-- A text whose parts can be read is in the grammar. -/
theorem isWritten_of_read {magnitude : Nat}
    (hexponent : readExponent (ofText text).exponent = some exponent)
    (hword : Text.readDigits (ofText text).word = some magnitude) :
    IsWritten text (ofText text) exponent := by
  obtain ⟨hne, hdigits, -⟩ := Text.readDigits_eq_some_iff.mp hword
  obtain ⟨sign, hsign, htext⟩ := exists_sign_of_splitSign text
  obtain ⟨marked, hbody, hmarked⟩ :=
    exists_marked_of_cutAt (fun c => c == 'e' || c == 'E') (splitSign text).2
  refine ⟨sign, _, marked, htext.trans (congrArg (sign ++ ·) hbody), hsign,
    isMantissa_of_cutAt ⟨hne, hdigits⟩, ?_⟩
  rcases hmarked with ⟨hnone, rfl⟩ | ⟨c, after, hc, hsome, rfl⟩
  · have habsent : (ofText text).exponent = none := hnone
    rw [habsent] at hexponent ⊢
    cases hexponent
    exact .absent
  · have hpresent : (ofText text).exponent = some after := hsome
    rw [hpresent] at hexponent ⊢
    exact isExponentPart_of_readExponent hc hexponent

/-- A text outside the grammar is not read. -/
theorem readTrimmed_of_not_isWritten (h : ∀ n exponent, ¬ IsWritten text n exponent) :
    readTrimmed text = .error .invalidInput := by
  rw [readTrimmed_eq]
  split
  · rename_i hexponent hword
    exact absurd (isWritten_of_read hexponent hword) (h _ _)
  · rfl

/-- A text in the grammar holds no blanks. -/
theorem IsWritten.isBlank_of_mem (h : IsWritten text n exponent) :
    ∀ c ∈ text, Text.isBlank c = false := by
  have hsigns {sign : List Char} {negative : Bool} (h : IsSign sign negative) :
      ∀ c ∈ sign, Text.isBlank c = false := by
    cases h with
    | absent => exact nofun
    | plus => exact List.forall_mem_singleton.mpr rfl
    | minus => exact List.forall_mem_singleton.mpr rfl
  obtain ⟨negative, whole, fraction, after⟩ := n
  obtain ⟨sign, mantissa, marked, rfl, hsign, hmantissa, hexponent⟩ := h
  refine List.forall_mem_append.mpr ⟨hsigns hsign, List.forall_mem_append.mpr ⟨?_, ?_⟩⟩
  · intro c hc
    rcases hmantissa.isDigit_or_eq_point c hc with hdigit | rfl
    · exact Text.isBlank_of_isDigit hdigit
    · decide
  · cases hexponent with
    | absent => exact fun c hc => nomatch hc
    | marked hmark hown hword =>
      refine List.forall_mem_cons.mpr ⟨by rcases hmark with rfl | rfl <;> decide, ?_⟩
      exact List.forall_mem_append.mpr
        ⟨hsigns hown, fun c hc => Text.isBlank_of_isDigit (hword.2 c hc)⟩

end Numeral

end Monetary.Decimal
