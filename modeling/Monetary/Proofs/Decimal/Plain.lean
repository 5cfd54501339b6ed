import Monetary.Proofs.Decimal.Canonical
import Monetary.Proofs.Decimal.TrailingZeros

/-!
# The plain notation is read back

The plain notation writes all the zeros of a number instead of an exponent. Behind digits before
the point they are those of the coefficient at the scale zero, so that the plain notation of a
number without digits after the point is the canonical notation of the number with this
coefficient: it is read back with the same value and without the exponent. With digits after the
point the two notations place the point in the same way, and differ only where the canonical one
takes to an exponent.
-/

namespace Monetary.Decimal

/-- The number of the same value without an exponent to show: with all zeros before the point in the
coefficient. -/
def spelledOut (x : Decimal) : Decimal :=
  if x.scale.toInt ≤ 0 then ⟨x.coefficient * tenPow (-x.scale.toInt).toNat, 0⟩ else x

variable {x : Decimal}

/-- Spelling out keeps the value. -/
theorem value_spelledOut (x : Decimal) : x.spelledOut.value = x.value := by
  unfold spelledOut
  split
  · rename_i hscale
    have hzero : x.scale.toInt + (-x.scale.toInt).toNat = 0 := by omega
    rw [value, value, ← valueOf_mul_tenPow x.coefficient x.scale.toInt (-x.scale.toInt).toNat, hzero]
    rfl
  · rfl

/-- A number without zeros before the point is spelled out already. -/
theorem spelledOut_eq_self (h : 0 ≤ x.scale.toInt) : x.spelledOut = x := by
  unfold spelledOut
  split
  · rename_i hscale
    have hzero : x.scale.toInt = 0 := by omega
    apply eq_of_value_eq_of_scale_eq
    · rw [value, value, hzero]
      simp
    · exact Int32.toInt_inj.mp hzero.symm
  · rfl

/-- Without digits after the point the plain notation has the digits of the number spelled out. -/
theorem plain_eq_signed_digits (h : x.scale.toInt ≤ 0) :
    x.plain = x.spelledOut.signed (Text.digits x.spelledOut.coefficient.natAbs) := by
  have hpower : (0 : Int) < tenPow (-x.scale.toInt).toNat := by exact_mod_cast tenPow_pos _
  have hsign : x.coefficient * tenPow (-x.scale.toInt).toNat < 0 ↔ x.coefficient < 0 := by
    rw [← not_le, mul_nonneg_iff_of_pos_right hpower, not_le]
  have hword : (if x.isZero then Text.digits x.coefficient.natAbs
        else Text.digits x.coefficient.natAbs ++ List.replicate (-x.scale.toInt).toNat '0') =
      Text.digits (x.coefficient * tenPow (-x.scale.toInt).toNat).natAbs := by
    rw [Int.natAbs_mul, Int.natAbs_natCast]
    split
    · rename_i hzero
      rw [isZero_iff.mp hzero, Int.natAbs_zero, Nat.zero_mul]
    · rename_i hnonzero
      exact (Text.digits_mul_tenPow (Int.natAbs_ne_zero.mpr (mt isZero_iff.mpr hnonzero)) _).symm
  rw [plain, if_pos h, hword, spelledOut, if_pos h, signed, signed]
  simp only [hsign]

/-- With digits after the point the plain notation has a point before as many digits as the scale
says. -/
theorem plain_eq_signed_insertPoint (h : 0 < x.scale.toInt) :
    x.plain = x.signed (insertPoint (Text.digits x.coefficient.natAbs) x.scale.toInt.toNat) := by
  rw [plain, if_neg (not_le.mpr h)]

/-- The plain notation is a numeral that stands for the number spelled out, without an exponent. -/
theorem exists_plain_numeral (x : Decimal) :
    ∃ n : Numeral, n.Denotes x.spelledOut 0 ∧ x.plain = n.text := by
  rcases le_or_gt x.scale.toInt 0 with hwhole | hpoint
  · rw [plain_eq_signed_digits hwhole]
    exact exists_whole_numeral (by rw [spelledOut, if_pos hwhole])
  · rw [plain_eq_signed_insertPoint hpoint, spelledOut_eq_self hpoint.le]
    exact exists_pointed_numeral hpoint

/-- The plain notation is read as the number spelled out. -/
theorem read_plainText (x : Decimal) : read x.plainText = .ok x.spelledOut := by
  obtain ⟨n, hdenotes, htext⟩ := exists_plain_numeral x
  rw [plainText, htext]
  exact hdenotes.read_text (by decide)

/-- Putting a point among digits adds only zeros and the point. -/
theorem isDigit_or_eq_point_of_mem_insertPoint {word : List Char} {places : Nat} {c : Char}
    (hword : ∀ d ∈ word, Text.isDigit d = true) (hc : c ∈ insertPoint word places) :
    Text.isDigit c = true ∨ c = '.' := by
  obtain ⟨whole, fraction, zeros, hlayout, -, hdigits, -⟩ := exists_insertPoint_parts word places
  have hall : ∀ d ∈ whole ++ fraction, Text.isDigit d = true := by
    rw [hdigits]
    refine List.forall_mem_append.mpr ⟨fun d hd => ?_, hword⟩
    rw [List.eq_of_mem_replicate hd]
    decide
  rw [hlayout, List.mem_append, List.mem_cons] at hc
  rcases hc with hwhole | rfl | hfraction
  · exact .inl (hall c (List.mem_append_left _ hwhole))
  · exact .inr rfl
  · exact .inl (hall c (List.mem_append_right _ hfraction))

/-- Only a sign can stand before the digits of a notation. -/
theorem eq_minus_or_mem_of_mem_signed {text : List Char} {c : Char} (hc : c ∈ x.signed text) :
    c = '-' ∨ c ∈ text := by
  unfold signed at hc
  split at hc
  · exact List.mem_cons.mp hc
  · exact .inr hc

/-- The plain notation has only digits, a point and a sign. -/
theorem isDigit_or_mark_of_mem_plain {c : Char} (hc : c ∈ x.plain) :
    Text.isDigit c = true ∨ c = '.' ∨ c = '-' := by
  rcases le_or_gt x.scale.toInt 0 with hwhole | hpoint
  · rw [plain_eq_signed_digits hwhole] at hc
    rcases eq_minus_or_mem_of_mem_signed hc with rfl | hdigit
    · exact .inr (.inr rfl)
    · exact .inl (Text.isDigit_of_mem_digits hdigit)
  · rw [plain_eq_signed_insertPoint hpoint] at hc
    rcases eq_minus_or_mem_of_mem_signed hc with rfl | hinside
    · exact .inr (.inr rfl)
    · have hdigits (d : Char) := @Text.isDigit_of_mem_digits x.coefficient.natAbs d
      exact (isDigit_or_eq_point_of_mem_insertPoint hdigits hinside).imp_right .inl

/-- No character of the plain notation is an exponent mark. -/
theorem ne_exponentMark_of_mem_plain {c : Char} (hc : c ∈ x.plain) : c ≠ 'e' ∧ c ≠ 'E' := by
  rcases isDigit_or_mark_of_mem_plain hc with hdigit | rfl | rfl
  · exact ⟨Text.ne_of_isDigit hdigit (by decide), Text.ne_of_isDigit hdigit (by decide)⟩
  · decide
  · decide

/-- Digits with an exponent have the exponent mark. -/
theorem exponentMark_mem_scientific {word : List Char} (hword : word ≠ []) (exponent : Int) :
    'E' ∈ scientific word exponent := by
  obtain ⟨whole, fraction, hlayout, -⟩ := exists_scientific_parts hword exponent
  rw [hlayout]
  exact List.mem_append_right _ List.mem_cons_self

/-- The two notations are the same exactly where the canonical one has no exponent. -/
theorem plain_eq_canonical_iff : x.plain = x.canonical ↔
    x.scale = 0 ∨ 0 < x.scale.toInt ∧ -6 ≤ x.leadingExponent := by
  unfold canonical
  dsimp only
  split
  · rename_i hscale
    refine iff_of_true ?_ (.inl hscale)
    rw [plain, hscale, if_pos (by decide)]
    split <;> simp
  split
  · rename_i hpoint
    exact iff_of_true (plain_eq_signed_insertPoint hpoint.1) (.inr hpoint)
  · rename_i hscale hpoint
    refine iff_of_false (fun hsame => ?_) (not_or.mpr ⟨hscale, hpoint⟩)
    have hmark : 'E' ∈ x.plain := by
      rw [hsame, signed]
      have hbody := exponentMark_mem_scientific (Text.digits_ne_nil x.coefficient.natAbs)
        x.leadingExponent
      split
      · exact List.mem_cons_of_mem _ hbody
      · exact hbody
    exact (ne_exponentMark_of_mem_plain hmark).2 rfl

/-- The plain notation shows no exponent and is read with the same value: as the very number if it
has no zeros before the point to spell out, and at the scale zero otherwise. It is the canonical
notation exactly where that is positional. -/
theorem plainText_faithful (x : Decimal) :
    (∀ c ∈ x.plainText.toList, c ≠ 'e' ∧ c ≠ 'E') ∧
      (∃ y, read x.plainText = .ok y ∧ y.value = x.value ∧
        (0 ≤ x.scale.toInt → y = x) ∧ (x.scale.toInt < 0 → y.scale = 0)) ∧
      (x.plainText = x.canonicalText ↔
        x.scale = 0 ∨ 0 < x.scale.toInt ∧ -6 ≤ x.leadingExponent) := by
  refine ⟨fun c hc => ?_, ⟨x.spelledOut, read_plainText x, value_spelledOut x, spelledOut_eq_self,
    fun hscale => ?_⟩, ?_⟩
  · rw [plainText, String.toList_ofList] at hc
    exact ne_exponentMark_of_mem_plain hc
  · rw [spelledOut, if_pos hscale.le]
  · rw [← plain_eq_canonical_iff, plainText, canonicalText]
    exact String.ofList_inj

/-- Zeros before the point are spelled out, those after it stay, and below the sixth place only the
canonical notation takes to an exponent. -/
theorem plainText_faithful_of_three_layouts :
    let whole : Decimal := ⟨-120, -2⟩
    let padded : Decimal := ⟨120, 7⟩
    let small : Decimal := ⟨12, 8⟩
    read whole.plainText = .ok ⟨-12000, 0⟩ ∧ whole.plainText ≠ whole.canonicalText ∧
      read padded.plainText = .ok padded ∧ padded.plainText = padded.canonicalText ∧
        read small.plainText = .ok small ∧ small.plainText ≠ small.canonicalText := by
  intro whole padded small
  obtain ⟨-, -, hwholeSame⟩ := plainText_faithful whole
  obtain ⟨-, ⟨p, hpadded, -, hpaddedSelf, -⟩, hpaddedSame⟩ := plainText_faithful padded
  obtain ⟨-, ⟨s, hsmall, -, hsmallSelf, -⟩, hsmallSame⟩ := plainText_faithful small
  refine ⟨by decide +kernel, mt hwholeSame.mp (by decide), ?_, hpaddedSame.mpr (by decide +kernel), ?_,
    mt hsmallSame.mp (by decide +kernel)⟩
  · rw [hpadded, hpaddedSelf (by decide)]
  · rw [hsmall, hsmallSelf (by decide)]

end Monetary.Decimal
