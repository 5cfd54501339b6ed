import Monetary.Proofs.Currency.Spelling
import Monetary.Proofs.Money.Storage

/-!
# The text of an amount is read back

The text of an amount is the code of its currency and the canonical notation of its number. Neither
of them holds a blank, so that the first blank after the ones in front ends the code, however many
blanks there are and of whatever kind: what is left of them is trimmed before the number is read.
The number is the one that was written, and only then is it brought to the default context. A number
that fits it is not changed by that, in whatever way it would be rounded otherwise. No registry
takes part, so the currency need not be known to any.
-/

namespace Monetary.Money

/-- A text holds the code and the number of an amount with blanks around them: any before the code
and after the number, and one or more between the two. -/
def IsSpacedText (money : Money) (text : String) : Prop :=
  ∃ before gap after,
    text.toList =
      before ++ (money.currency.code.toList ++ gap ++ money.number.canonical) ++ after ∧
    gap ≠ [] ∧ ∀ c ∈ before ++ gap ++ after, Text.isBlank c = true

variable {money : Money} {text : String}

/-- The text of an amount has one blank, and this after the code. -/
theorem isSpacedText_text (money : Money) : money.IsSpacedText money.text := by
  refine ⟨[], [' '], [], ?_, List.cons_ne_nil _ _, List.forall_mem_singleton.mpr (by decide)⟩
  simp [Money.text, Decimal.canonicalText]

/-- The blanks around the code and the number are trimmed, and those in between are kept. -/
theorem trim_spaced {before gap after : List Char} (hbefore : ∀ c ∈ before, Text.isBlank c = true)
    (hafter : ∀ c ∈ after, Text.isBlank c = true) :
    Text.trim (before ++ (money.currency.code.toList ++ gap ++ money.number.canonical) ++ after) =
      money.currency.code.toList ++ gap ++ money.number.canonical := by
  refine Text.trim_eq_iff.mpr
    ⟨before, after, rfl, List.forall_mem_append.mpr ⟨hbefore, hafter⟩, ?_, ?_⟩
  · intro c hc
    rw [List.append_assoc, List.head?_append_of_ne_nil _ money.currency.code_ne_nil] at hc
    exact money.currency.isBlank_of_mem_code c (List.mem_of_mem_head? hc)
  · intro c hc
    rw [List.getLast?_append_of_ne_nil _ money.number.canonical_ne_nil] at hc
    exact money.number.isBlank_of_mem_canonical c (List.mem_of_getLast? hc)

/-- The number and the currency of an amount are found in its text, whatever blanks are around
them. -/
theorem IsSpacedText.readParts (h : money.IsSpacedText text)
    (hreadable : Decimal.isExponent money.number.leadingExponent = true) :
    readParts text = .ok (money.number, money.currency) := by
  obtain ⟨before, gap, after, htext, hgap, hblank⟩ := h
  obtain ⟨hinner, hafter⟩ := List.forall_mem_append.mp hblank
  obtain ⟨hbefore, hgapBlank⟩ := List.forall_mem_append.mp hinner
  obtain ⟨blank, more, rfl⟩ := List.exists_cons_of_ne_nil hgap
  obtain ⟨hfirst, hmore⟩ := List.forall_mem_cons.mp hgapBlank
  -- The first blank of the gap ends the code; the other ones go with the number.
  have hcut : Text.cutAt Text.isBlank
      (money.currency.code.toList ++ blank :: more ++ money.number.canonical) =
        (money.currency.code.toList, some (more ++ money.number.canonical)) := by
    rw [List.append_assoc, List.cons_append]
    exact Text.cutAt_append_cons money.currency.isBlank_of_mem_code hfirst _
  have hnumber : Text.trim (more ++ money.number.canonical) = money.number.canonical := by
    rw [Text.trim_blanks_append hmore, Text.trim_eq_self money.number.isBlank_of_mem_canonical]
  have hcode : Currency.read (String.ofList money.currency.code.toList) = .ok money.currency := by
    obtain ⟨hspelling, hform⟩ := money.currency.isSpelling_code
    rw [String.ofList_toList]
    exact Currency.read_eq_ok_iff.mpr ⟨hspelling, hform.symm⟩
  rw [Money.readParts, htext, trim_spaced hbefore hafter, hcut]
  simp only [hnumber, Decimal.readTrimmed_canonical hreadable, hcode]
  rfl

/-- Whatever the default context is, and whatever blanks are around code and number, the text of an
amount is read as an amount of the same currency under this context, of the very same number if it
fits, and otherwise of what the context makes of the number; the reading fails only if that does. -/
theorem text_read_back (hmoney : Reachable money) :
    money.IsSpacedText money.text ∧
      ∀ text, money.IsSpacedText text → ∀ usual : Context,
        (usual.fits money.number = true →
          (read text).under usual = .ok ⟨money.currency, money.number, usual⟩) ∧
        (∀ number, usual.apply money.number = .ok number →
          (read text).under usual = .ok ⟨money.currency, number, usual⟩) ∧
        (∀ cause, usual.apply money.number = .error cause →
          (read text).under usual = .error (.number cause)) := by
  refine ⟨money.isSpacedText_text, fun text htext usual => ?_⟩
  have hparts := htext.readParts hmoney.isStorable.readable
  have hread : (read text).under usual = withContext money.number money.currency usual := by
    rw [read, hparts]
    rfl
  rw [hread]
  refine ⟨withContext_of_fits, fun number hnumber => ?_, fun cause hcause => ?_⟩
  · exact withContext_eq_ok_iff.mpr ⟨number, hnumber, rfl⟩
  · exact withContext_eq_error_iff.mpr ⟨cause, hcause, rfl⟩

/-- A number near the least scale, of a currency that the usual registry does not know, is read
among blanks that are no ASCII characters. A context for two digits rounds it or refuses to. -/
theorem text_read_back_among_wide_blanks :
    let money : Money := ⟨⟨"X9", by decide⟩, ⟨-105, -2147483647⟩, .money 3 .halfUp⟩
    let text := "\u3000X9\u00a0\t-1.05E+2147483649\u2028"
    Registry.iso.knows money.currency = false ∧ money.text = "X9 -1.05E+2147483649" ∧
      (read text).under (.money 3 .unnecessary) =
        .ok ⟨money.currency, money.number, .money 3 .unnecessary⟩ ∧
      (read text).under (.money 2 .halfEven) =
        .ok ⟨money.currency, ⟨-10, -2147483648⟩, .money 2 .halfEven⟩ ∧
      (read text).under (.money 2 .unnecessary) = .error (.number .roundingNecessary) := by
  intro money text
  have hmoney : Reachable money := .of_fits (by decide +kernel) (by decide +kernel)
  have htext : money.IsSpacedText text :=
    ⟨['\u3000'], ['\u00a0', '\t'], ['\u2028'], by decide +kernel, List.cons_ne_nil _ _,
      List.all_eq_true.mp (by decide)⟩
  obtain ⟨-, hread⟩ := text_read_back hmoney
  exact ⟨by decide +kernel, by decide +kernel,
    (hread text htext (.money 3 .unnecessary)).1 (by decide +kernel),
    (hread text htext (.money 2 .halfEven)).2.1 _ (by decide +kernel),
    (hread text htext (.money 2 .unnecessary)).2.2 _ (by decide +kernel)⟩

end Monetary.Money
