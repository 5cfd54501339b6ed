import Monetary.Proofs.Decimal.Numeral

/-!
# The canonical notation is read back

The canonical notation has four layouts: digits alone, digits with a point among them, digits after
a point and zeros, and digits with an exponent. Each writes the digits of the coefficient, at most
with zeros in front, and places the point and the exponent so that the number of digits after the
point, less the exponent, is the scale. So every layout is a numeral that stands for the number
itself, coefficient and scale, and not only for its value.

The exponent is that of the leading digit. A numeral carries exponents of 64 bits, and only a number
with about as many digits as those can count has a leading digit beyond them.
-/

namespace Monetary.Decimal

/-- Digits with a point are zeros and the given digits, as many of them after the point as there are
places. -/
theorem exists_insertPoint_parts (word : List Char) (places : Nat) :
    ∃ whole fraction zeros, insertPoint word places = whole ++ '.' :: fraction ∧ whole ≠ [] ∧
      whole ++ fraction = List.replicate zeros '0' ++ word ∧ fraction.length = places := by
  unfold insertPoint
  split
  · rename_i hinside
    refine ⟨_, _, 0, rfl, ?_, ?_, ?_⟩
    · rw [ne_eq, List.take_eq_nil_iff]
      rintro (hzero | rfl)
      · omega
      · cases hinside
    · rw [List.take_append_drop]
      rfl
    · rw [List.length_drop]
      omega
  · rename_i hbefore
    refine ⟨['0'], List.replicate (places - word.length) '0' ++ word, places - word.length + 1,
      rfl, List.cons_ne_nil _ _, rfl, ?_⟩
    rw [List.length_append, List.length_replicate]
    omega

/-- Digits with an exponent have all but the first one after the point. -/
theorem exists_scientific_parts {word : List Char} (hword : word ≠ []) (exponent : Int) :
    ∃ whole fraction, scientific word exponent =
        (whole ++ marked '.' fraction) ++ marked 'E' (some (exponentText exponent)) ∧
      whole ≠ [] ∧ whole ++ fraction.getD [] = word ∧
      (fraction.getD []).length + 1 = word.length := by
  match word with
  | [lead] => exact ⟨[lead], none, rfl, List.cons_ne_nil _ _, rfl, rfl⟩
  | lead :: second :: rest =>
    exact ⟨[lead], some (second :: rest), rfl, List.cons_ne_nil _ _, rfl, rfl⟩

/-- An exponent is read back. -/
theorem readInteger_exponentText (exponent : Int) :
    Text.readInteger (exponentText exponent) = some exponent := by
  unfold exponentText
  split
  · rename_i hpositive
    rw [Text.readInteger, Text.readDigits_digits]
    exact congrArg some (Int.natAbs_of_nonneg hpositive)
  · rename_i hnegative
    rw [Text.readInteger, Text.readDigits_digits]
    exact congrArg some (by change -(exponent.natAbs : Int) = exponent; omega)

/-- The digits of the coefficient, with zeros in front, make a numeral that stands for the number if
point and exponent give the scale. -/
theorem exists_numeral_of_parts (x : Decimal) {whole : List Char} (fraction : Option (List Char))
    (exponent : Option Int) (zeros : Nat) (hwhole : whole ≠ [])
    (hword : whole ++ fraction.getD [] =
      List.replicate zeros '0' ++ Text.digits x.coefficient.natAbs)
    (hscale : x.scale.toInt = (fraction.getD []).length - exponent.getD 0) :
    ∃ n : Numeral, n.Denotes x (exponent.getD 0) ∧
      x.signed ((whole ++ marked '.' fraction) ++ marked 'E' (exponent.map exponentText)) =
        n.text := by
  have hdigits : ∀ c ∈ whole ++ fraction.getD [], Text.isDigit c = true := by
    rw [hword]
    intro c hc
    rcases List.mem_append.mp hc with hzero | hdigit
    · rw [List.eq_of_mem_replicate hzero]
      decide
    · exact Text.isDigit_of_mem_digits hdigit
  have hvalue : Text.positionalValue (whole ++ fraction.getD []) = x.coefficient.natAbs := by
    rw [hword, Text.positionalValue_zeros_append, Text.positionalValue_digits]
  refine ⟨⟨decide (x.coefficient < 0), whole, fraction, exponent.map exponentText⟩,
    ⟨hwhole, hdigits, ?_, ?_, hscale⟩, ?_⟩
  · simp only [Numeral.coefficient, Numeral.signedValue, Numeral.word, Numeral.fractionDigits,
      hvalue, decide_eq_true_eq]
    split <;> omega
  · cases exponent with
    | none => rfl
    | some e => exact readInteger_exponentText e
  · simp only [signed, Numeral.text, Numeral.unsignedText, decide_eq_true_eq]

/-- The digits of the coefficient alone make a numeral that stands for the number if the scale is
zero. -/
theorem exists_whole_numeral {x : Decimal} (hscale : x.scale = 0) :
    ∃ n : Numeral, n.Denotes x 0 ∧ x.signed (Text.digits x.coefficient.natAbs) = n.text := by
  obtain ⟨n, hn, htext⟩ := exists_numeral_of_parts x none none 0
    (Text.digits_ne_nil x.coefficient.natAbs) (List.append_nil _) (by rw [hscale]; rfl)
  refine ⟨n, hn, ?_⟩
  rw [← htext, marked, Option.map_none, marked, List.append_nil, List.append_nil]

/-- Digits with a point before as many of them as the scale says make a numeral that stands for the
number. -/
theorem exists_pointed_numeral {x : Decimal} (hscale : 0 < x.scale.toInt) :
    ∃ n : Numeral, n.Denotes x 0 ∧
      x.signed (insertPoint (Text.digits x.coefficient.natAbs) x.scale.toInt.toNat) = n.text := by
  obtain ⟨whole, fraction, zeros, hlayout, hwhole, hdigits, hlength⟩ :=
    exists_insertPoint_parts (Text.digits x.coefficient.natAbs) x.scale.toInt.toNat
  obtain ⟨n, hn, htext⟩ := exists_numeral_of_parts x (some fraction) none zeros hwhole hdigits
    (by simp only [Option.getD]; omega)
  refine ⟨n, hn, ?_⟩
  rw [← htext, hlayout, Option.map_none, marked, marked, List.append_nil]

/-- The canonical notation is a numeral that stands for the number, and it carries no other exponent
than that of the leading digit. -/
theorem exists_canonical_numeral (x : Decimal) :
    ∃ (n : Numeral) (exponent : Int), x.canonical = n.text ∧ n.Denotes x exponent ∧
      (exponent = 0 ∨ exponent = x.leadingExponent) := by
  have hword := Text.digits_ne_nil x.coefficient.natAbs
  unfold canonical
  dsimp only
  split
  · rename_i hscale
    obtain ⟨n, hn, htext⟩ := exists_whole_numeral hscale
    exact ⟨n, 0, htext, hn, .inl rfl⟩
  split
  · rename_i hpoint
    obtain ⟨n, hn, htext⟩ := exists_pointed_numeral hpoint.1
    exact ⟨n, 0, htext, hn, .inl rfl⟩
  · obtain ⟨whole, fraction, hlayout, hwhole, hdigits, hlength⟩ :=
      exists_scientific_parts hword x.leadingExponent
    rw [Text.length_digits, ← digits] at hlength
    obtain ⟨n, hn, htext⟩ := exists_numeral_of_parts x fraction (some x.leadingExponent) 0 hwhole
      hdigits (by rw [Option.getD_some, leadingExponent]; omega)
    refine ⟨n, x.leadingExponent, ?_, hn, .inr rfl⟩
    rw [← htext, hlayout]
    rfl

/-- The canonical notation is not empty. -/
theorem canonical_ne_nil (x : Decimal) : x.canonical ≠ [] := by
  obtain ⟨n, exponent, htext, hdenotes, -⟩ := exists_canonical_numeral x
  rw [htext]
  exact hdenotes.text_ne_nil

/-- The canonical notation holds no blanks. -/
theorem isBlank_of_mem_canonical (x : Decimal) : ∀ c ∈ x.canonical, Text.isBlank c = false := by
  obtain ⟨n, exponent, htext, hdenotes, -⟩ := exists_canonical_numeral x
  rw [htext]
  exact hdenotes.isBlank_of_mem_text

/-- The canonical notation of a number is read back without a look for blanks if the exponent of its
leading digit can be. -/
theorem readTrimmed_canonical {x : Decimal} (h : isExponent x.leadingExponent = true) :
    readTrimmed x.canonical = .ok x := by
  obtain ⟨n, exponent, htext, hdenotes, hexponent⟩ := exists_canonical_numeral x
  have hcarried : isExponent exponent = true := by
    rcases hexponent with rfl | rfl
    · decide
    · exact h
  rw [htext, hdenotes.readTrimmed_text, if_pos hcarried]

/-- The canonical notation of a number is read back if the exponent of its leading digit can be. -/
theorem read_canonicalText {x : Decimal} (h : isExponent x.leadingExponent = true) :
    read x.canonicalText = .ok x := by
  rw [read, canonicalText, String.toList_ofList, Text.trim_eq_self x.isBlank_of_mem_canonical,
    readTrimmed_canonical h]

/-- The canonical notation of a number is read as this very number, coefficient and scale, as long
as the exponent of its leading digit is one that a numeral may carry; and it is the notation of no
other number. -/
theorem canonicalText_faithful (x y : Decimal) :
    (isExponent x.leadingExponent = true → read x.canonicalText = .ok x) ∧
      (x.canonicalText = y.canonicalText ↔ x = y) := by
  obtain ⟨n, exponent, htext, hdenotes, hexponent⟩ := exists_canonical_numeral x
  constructor
  · intro hreadable
    have hcarried : isExponent exponent = true := by
      rcases hexponent with rfl | rfl
      · decide
      · exact hreadable
    rw [read, canonicalText, String.toList_ofList, htext,
      Text.trim_eq_self hdenotes.isBlank_of_mem_text, hdenotes.readTrimmed_text, if_pos hcarried]
  · constructor
    · intro hsame
      obtain ⟨m, other, hother, hdenotesOther, -⟩ := exists_canonical_numeral y
      have hcanonical : x.canonical = y.canonical := String.ofList_injective hsame
      obtain rfl : n = m := by
        rw [← hdenotes.ofText_text, ← htext, hcanonical, hother, hdenotesOther.ofText_text]
      exact hdenotes.unique hdenotesOther
    · rintro rfl
      rfl

/-- At the least scale the exponent leaves the range of scales, and zero at the greatest scale has
only an exponent to show. -/
theorem canonicalText_faithful_at_extreme_scales :
    let least : Decimal := ⟨-105, -2147483648⟩
    let greatest : Decimal := ⟨0, 2147483647⟩
    least.canonicalText = "-1.05E+2147483650" ∧ read least.canonicalText = .ok least ∧
      greatest.canonicalText = "0E-2147483647" ∧ read greatest.canonicalText = .ok greatest := by
  intro least greatest
  have hleast : isExponent least.leadingExponent = true := by decide +kernel
  have hgreatest : isExponent greatest.leadingExponent = true := by decide +kernel
  exact ⟨by decide +kernel, (canonicalText_faithful least greatest).1 hleast, by decide +kernel,
    (canonicalText_faithful greatest least).1 hgreatest⟩

end Monetary.Decimal
