import Monetary.Decimal.Notation
import Monetary.Proofs.Decimal.Grammar

/-!
# The parts of a numeral

A text that is put together from a sign, the digits before and after a point, and an exponent is in
the grammar, and is therefore taken apart into the very same parts. So the number is decided by the
parts, and what a notation has to show is only which parts it writes.
-/

namespace Monetary.Decimal

/-- A text after the mark that introduces it, if there is one. -/
def marked (mark : Char) : Option (List Char) → List Char
  | none => []
  | some text => mark :: text

namespace Numeral

/-- A numeral without its sign. -/
def unsignedText (n : Numeral) : List Char :=
  (n.whole ++ marked '.' n.fraction) ++ marked 'E' n.exponent

/-- The text of a numeral. -/
def text (n : Numeral) : List Char :=
  if n.negative then '-' :: n.unsignedText else n.unsignedText

/-- The exponent; zero without an exponent mark. -/
def exponentValue? (n : Numeral) : Option Int :=
  match n.exponent with
  | none => some 0
  | some text => Text.readInteger text

/-- A numeral stands for a number: digits are written before the point, and the sign, the digits and
the exponent give the coefficient and the scale. -/
structure Denotes (n : Numeral) (x : Decimal) (exponent : Int) : Prop where
  whole_ne_nil : n.whole ≠ []
  isDigit_of_mem : ∀ c ∈ n.word, Text.isDigit c = true
  coefficient_eq : n.coefficient = x.coefficient
  exponentValue?_eq : n.exponentValue? = some exponent
  scale_eq : x.scale.toInt = n.fractionDigits.length - exponent

variable {n : Numeral} {x y : Decimal} {exponent : Int}

/-- A numeral that stands for a number is written as the grammar has it. -/
theorem Denotes.isWritten (h : n.Denotes x exponent) : IsWritten n.text n exponent := by
  obtain ⟨hwhole, hdigits, -, hexponent, -⟩ := h
  obtain ⟨negative, whole, fraction, after⟩ := n
  obtain ⟨hwholeDigits, hfractionDigits⟩ := List.forall_mem_append.mp hdigits
  refine ⟨if negative then ['-'] else [], whole ++ marked '.' fraction, marked 'E' after,
    ?_, ?_, ?_, ?_⟩
  · cases negative <;> rfl
  · cases negative
    · exact .absent
    · exact .minus
  · cases fraction with
    | none => exact (List.append_nil whole).symm ▸ .whole ⟨hwhole, hwholeDigits⟩
    | some digits => exact .pointed ⟨hwhole, hwholeDigits⟩ hfractionDigits
  · cases after with
    | none =>
      cases hexponent
      exact .absent
    | some text =>
      obtain ⟨sign, negative, word, rfl, hsign, hword, rfl⟩ := exists_sign_of_readInteger hexponent
      exact .marked (.inr rfl) hsign hword

/-- A numeral is taken apart into its parts. -/
theorem Denotes.ofText_text (h : n.Denotes x exponent) : ofText n.text = n :=
  h.isWritten.ofText_eq

/-- A numeral that stands for a number is read as that number, unless its exponent is not one that a
numeral may carry. -/
theorem Denotes.readTrimmed_text (h : n.Denotes x exponent) :
    readTrimmed n.text = if isExponent exponent then .ok x else .error .invalidInput := by
  have hnumber : ofParts n.coefficient (n.fractionDigits.length - exponent) = .ok x :=
    ofParts_eq_ok_iff.mpr ⟨h.coefficient_eq.symm, h.scale_eq⟩
  rw [h.isWritten.readTrimmed_eq, hnumber]

/-- One numeral stands for one number. -/
theorem Denotes.unique {other : Int} (hx : n.Denotes x exponent) (hy : n.Denotes y other) :
    x = y := by
  obtain rfl : exponent = other :=
    Option.some.inj (hx.exponentValue?_eq.symm.trans hy.exponentValue?_eq)
  have hscale : x.scale = y.scale := Int32.toInt_inj.mp (hx.scale_eq.trans hy.scale_eq.symm)
  have hcoefficient : x.coefficient = y.coefficient :=
    hx.coefficient_eq.symm.trans hy.coefficient_eq
  obtain ⟨a, s⟩ := x
  obtain ⟨b, t⟩ := y
  exact congrArg₂ Decimal.mk hcoefficient hscale

/-- A numeral that stands for a number is not empty. -/
theorem Denotes.text_ne_nil (h : n.Denotes x exponent) : n.text ≠ [] := by
  unfold text
  split
  · exact List.cons_ne_nil _ _
  · exact List.append_ne_nil_of_left_ne_nil
      (List.append_ne_nil_of_left_ne_nil h.whole_ne_nil _) _

/-- A numeral that stands for a number holds no blanks. -/
theorem Denotes.isBlank_of_mem_text (h : n.Denotes x exponent) :
    ∀ c ∈ n.text, Text.isBlank c = false :=
  h.isWritten.isBlank_of_mem

/-- A numeral whose exponent is one that it may carry is read as the number that it stands for. -/
theorem Denotes.read_text (h : n.Denotes x exponent) (hexponent : isExponent exponent = true) :
    read (String.ofList n.text) = .ok x := by
  rw [read, String.toList_ofList, Text.trim_eq_self h.isBlank_of_mem_text, h.readTrimmed_text,
    if_pos hexponent]

end Numeral

end Monetary.Decimal
