import Monetary.Decimal.Fixed96
import Monetary.Proofs.Decimal.FixedScale

/-!
# Conversion to 96 bits

A number is converted in a representation of its own value: in its own one if the format has its
scale, and otherwise at the least scale, from zero on, at which it has an integer coefficient. So a
conversion never changes a value, and it fails for want of a scale exactly where the value is no
multiple of the last place of the format.

Whether the coefficient goes into the mantissa is then decided by the value alone, as long as the
scale is the least one. A number that is kept at its own scale keeps the zeros at its end as well,
and with these a coefficient may be too long for the mantissa although the value would have one that
is not.
-/

namespace Monetary

/-- What is known of a type of decimals of 96 bits: it has a decimal for exactly the mantissas below
2⁹⁶ and the scales up to 28, which has this mantissa and this scale, and it has no others. -/
structure FixedFormat.IsLawful {F : Type} (format : FixedFormat F) : Prop where
  exists_make?_iff (mantissa : Int) (scale : UInt32) :
    (∃ d, format.make? mantissa scale = some d) ↔ mantissa.natAbs < 2 ^ 96 ∧ scale.toNat ≤ 28
  parts_of_make? (mantissa : Int) (scale : UInt32) (d : F) :
    format.make? mantissa scale = some d → format.mantissa d = mantissa ∧ format.scale d = scale
  mantissa_lt (d : F) : (format.mantissa d).natAbs < 2 ^ 96
  scale_le (d : F) : (format.scale d).toNat ≤ 28

/-- The decimals of 96 bits are such a type. -/
theorem Fixed96.isLawful_format : Fixed96.format.IsLawful where
  exists_make?_iff mantissa scale := by
    change (∃ d, ofParts? mantissa scale.toNat = some d) ↔ _
    unfold ofParts?
    split
    · rename_i hwithin
      exact iff_of_true ⟨_, rfl⟩ hwithin
    · rename_i hbeyond
      exact iff_of_false (by simp) hbeyond
  parts_of_make? mantissa scale d h := by
    change ofParts? mantissa scale.toNat = some d at h
    unfold ofParts? at h
    split at h
    · cases h
      exact ⟨rfl, UInt32.ofNat_toNat⟩
    · cases h
  mantissa_lt d := d.mantissa_lt
  scale_le d := by
    have hscale := d.scale_le
    change (UInt32.ofNat d.scale).toNat ≤ 28
    rw [UInt32.toNat_ofNat_of_lt' (by rw [UInt32.size]; omega)]
    exact hscale

namespace Decimal

variable {F : Type} {format : FixedFormat F} {x y : Decimal}

/-- The numbers that have a mantissa below 2⁹⁶ at a scale up to 28. -/
def IsFixed96 (v : ℚ) : Prop :=
  ∃ (mantissa : Int) (scale : Nat), mantissa.natAbs < 2 ^ 96 ∧ scale ≤ 28 ∧
    v = mantissa * 10 ^ (-(scale : Int))

/-- The scale is one of the format. -/
def HasFixedScale (x : Decimal) : Prop :=
  0 ≤ x.scale.toInt ∧ x.scale.toInt ≤ 28

/-- The scale is one of the format, but the coefficient is too long for a mantissa. -/
def IsOverlong (x : Decimal) : Prop :=
  x.HasFixedScale ∧ 2 ^ 96 ≤ x.coefficient.natAbs

/-- A representation for the format: the number's own if the format has its scale, otherwise the
one at the least scale from zero on. -/
structure IsFitting (x y : Decimal) : Prop where
  value_eq : y.value = x.value
  hasFixedScale : y.HasFixedScale
  own_or_least : y = x ∨ ¬ x.HasFixedScale ∧ IsLeast (scalesFrom 0 x.value) y.scale.toInt

/-- Zeros before the point are written out, and nothing else is changed. -/
theorem exists_widenToUnits (x : Decimal) : ∃ y, x.widenToUnits = .ok y ∧ y.value = x.value ∧
    y.scale.toInt = max 0 x.scale.toInt := by
  unfold widenToUnits
  split
  · rename_i hnegative
    have hwiden : x.scale.toInt ≤ (0 : Int32).toInt := hnegative.le
    obtain ⟨y, hy, hvalue⟩ := exists_setScale_eq_ok .unnecessary hwiden
    refine ⟨y, hy, hvalue, ?_⟩
    rw [(setScale_eq_ok_iff.mp hy).1, max_eq_left hnegative.le]
    rfl
  · rename_i hnonneg
    exact ⟨x, rfl, rfl, (max_eq_right (not_lt.mp hnonneg)).symm⟩

/-- A number without zeros before the point is not changed. -/
theorem widenToUnits_of_nonneg (h : 0 ≤ x.scale.toInt) : x.widenToUnits = .ok x := by
  rw [widenToUnits, if_neg (not_lt.mpr h)]

/-- A number at a scale of the format is handed over as it is. -/
theorem fitted_of_hasFixedScale (h : x.HasFixedScale) : x.fitted = .ok x := by
  rw [fitted, widenToUnits_of_nonneg h.1]
  exact if_pos h.2

/-- A number with zeros before the point has them written out, at the scale zero. -/
theorem exists_fitted_of_neg (h : x.scale.toInt < 0) : ∃ y, x.fitted = .ok y ∧ x.IsFitting y := by
  obtain ⟨y, hy, hvalue, hscale⟩ := x.exists_widenToUnits
  have hzero : y.scale.toInt = 0 := hscale.trans (max_eq_left h.le)
  have hleast : IsLeast (scalesFrom 0 x.value) y.scale.toInt := by
    rw [← hvalue, value, hzero]
    exact isLeast_valueOf y.coefficient 0
  refine ⟨y, ?_, hvalue, ⟨hzero.ge, by omega⟩, .inr ⟨?_, hleast⟩⟩
  · rw [fitted, hy]
    exact if_pos (by omega)
  · exact fun hfixed => absurd hfixed.1 (not_le.mpr h)

/-- A number with too many digits after the point is brought to the least scale by stripping, unless
that one is too large as well. -/
theorem fitted_cases_of_long (h : 28 < x.scale.toInt) :
    (∃ y, x.fitted = .ok y ∧ x.IsFitting y) ∨
      x.fitted = .error .roundingNecessary ∧ ∀ scale ∈ scalesFrom 0 x.value, 28 < scale := by
  have hleast : ∀ scale ∈ scalesFrom 0 x.value, x.stripZeros.scale.toInt ≤ scale := by
    rw [← value_stripZeros x]
    exact fun scale => (isNormal_stripZeros x).scale_le
  have hfitted : x.fitted = x.fitFraction := by
    rw [fitted, widenToUnits_of_nonneg (by omega)]
    rfl
  rw [hfitted, fitFraction, if_neg (not_le.mpr h)]
  split
  · rename_i hbeyond
    exact .inr ⟨rfl, fun scale hmem => hbeyond.trans_le (hleast scale hmem)⟩
  · rename_i hwithin
    obtain ⟨y, hy, hvalue, hscale⟩ := x.stripZeros.exists_widenToUnits
    rw [value_stripZeros] at hvalue
    have hfixed : y.HasFixedScale := by
      constructor <;> omega
    refine .inl ⟨y, hy, hvalue, hfixed, .inr ⟨fun hown => absurd hown.2 (not_le.mpr h),
      ⟨hfixed.1, y.coefficient, hvalue⟩, fun scale hmem => ?_⟩⟩
    rw [hscale]
    exact max_le hmem.1 (hleast scale hmem)

/-- A number has a representation for the format, unless every scale at which it has an integer
coefficient is too large. -/
theorem fitted_cases (x : Decimal) : (∃ y, x.fitted = .ok y ∧ x.IsFitting y) ∨
    x.fitted = .error .roundingNecessary ∧ ∀ scale ∈ scalesFrom 0 x.value, 28 < scale := by
  rcases lt_or_ge x.scale.toInt 0 with hnegative | hnonneg
  · exact .inl (exists_fitted_of_neg hnegative)
  rcases lt_or_ge 28 x.scale.toInt with hlong | hwithin
  · exact fitted_cases_of_long hlong
  · exact .inl ⟨x, fitted_of_hasFixedScale ⟨hnonneg, hwithin⟩, rfl, ⟨hnonneg, hwithin⟩, .inl rfl⟩

/-- The number of places in a word is the scale, if that is not below zero. -/
theorem toNat_toUInt32 (h : 0 ≤ x.scale.toInt) :
    (x.scale.toUInt32.toNat : Int) = x.scale.toInt := by
  rw [Int32.toNat_toUInt32_of_le (Int32.le_iff_toInt_le.mpr h)]
  exact Int.toNat_of_nonneg h

/-- A number is handed over with its coefficient and its scale if it has a mantissa. -/
theorem exists_handOver (h : format.IsLawful) (hscale : x.HasFixedScale)
    (hmantissa : x.coefficient.natAbs < 2 ^ 96) : ∃ d, x.handOver format = .ok d ∧
      format.mantissa d = x.coefficient ∧ format.scale d = x.scale.toUInt32 := by
  have hword : inWord128? x.coefficient = some x.coefficient := if_pos (by omega)
  have hle : x.scale.toUInt32.toNat ≤ 28 := by
    have hplaces := toNat_toUInt32 hscale.1
    have hlimit := hscale.2
    omega
  obtain ⟨d, hd⟩ := (h.exists_make?_iff x.coefficient x.scale.toUInt32).mpr ⟨hmantissa, hle⟩
  refine ⟨d, ?_, h.parts_of_make? _ _ d hd⟩
  rw [handOver, hword]
  simp only [hd]

/-- A number without a mantissa is not handed over. -/
theorem handOver_of_le (h : format.IsLawful) (hmantissa : 2 ^ 96 ≤ x.coefficient.natAbs) :
    x.handOver format = .error .overflow := by
  unfold handOver
  split
  · rfl
  · rename_i mantissa hword
    obtain rfl : x.coefficient = mantissa := by
      unfold inWord128? at hword
      split at hword
      · exact Option.some.inj hword
      · cases hword
    have hnone : format.make? x.coefficient x.scale.toUInt32 = none := by
      rw [Option.eq_none_iff_forall_ne_some]
      intro d hd
      have := ((h.exists_make?_iff _ _).mp ⟨d, hd⟩).1
      omega
    rw [hnone]

/-- A conversion hands a fitting representation over, fails because its coefficient is too long, or
fails because there is none. -/
theorem toFixed_cases (h : format.IsLawful) (x : Decimal) :
    (∃ y d, x.IsFitting y ∧ y.coefficient.natAbs < 2 ^ 96 ∧ x.toFixed format = .ok d ∧
      format.mantissa d = y.coefficient ∧ format.scale d = y.scale.toUInt32) ∨
    (∃ y, x.IsFitting y ∧ 2 ^ 96 ≤ y.coefficient.natAbs ∧
      x.toFixed format = .error .overflow) ∨
    x.toFixed format = .error .roundingNecessary ∧ ∀ scale ∈ scalesFrom 0 x.value, 28 < scale := by
  rw [toFixed]
  rcases x.fitted_cases with ⟨y, hy, hfitting⟩ | ⟨hnone, hscales⟩
  · rw [hy]
    rcases lt_or_ge y.coefficient.natAbs (2 ^ 96) with hmantissa | hmantissa
    · obtain ⟨d, hd⟩ := exists_handOver h hfitting.hasFixedScale hmantissa
      exact .inl ⟨y, d, hfitting, hmantissa, hd⟩
    · exact .inr (.inl ⟨y, hfitting, hmantissa, handOver_of_le h hmantissa⟩)
  · rw [hnone]
    exact .inr (.inr ⟨rfl, hscales⟩)

/-- A number is a multiple of the last place of the format exactly if it has an integer coefficient
at some scale of the format. -/
theorem exists_multiple_iff {v : ℚ} :
    (∃ n : Int, v = n * 10 ^ (-28 : Int)) ↔ ∃ scale ∈ scalesFrom 0 v, scale ≤ 28 := by
  constructor
  · rintro ⟨n, rfl⟩
    exact ⟨28, ⟨by decide, n, rfl⟩, le_rfl⟩
  · rintro ⟨scale, ⟨-, coefficient, rfl⟩, hle⟩
    obtain ⟨k, hk⟩ := Int.le.dest hle
    exact ⟨coefficient * tenPow k, by rw [← valueOf_mul_tenPow coefficient scale k, hk]; rfl⟩

/-- A fitting representation is a multiple of the last place. -/
theorem IsFitting.exists_multiple (h : x.IsFitting y) :
    ∃ n : Int, x.value = n * 10 ^ (-28 : Int) :=
  exists_multiple_iff.mpr ⟨y.scale.toInt, ⟨h.hasFixedScale.1, y.coefficient, h.value_eq⟩,
    h.hasFixedScale.2⟩

/-- A decimal of the format is made into a number at a scale of the format. -/
theorem hasFixedScale_toDecimal (h : format.IsLawful) (d : F) :
    (format.toDecimal d).HasFixedScale := by
  have hplaces := h.scale_le d
  have hscale : (format.toDecimal d).scale.toInt = (format.scale d).toNat := by
    change (format.scale d).toInt32.toInt = _
    rw [← Int32.toInt_toBitVec, UInt32.toBitVec_toInt32, BitVec.toInt_eq_toNat_of_lt,
      UInt32.toNat_toBitVec]
    rw [UInt32.toNat_toBitVec]
    omega
  constructor <;> omega

/-- What a conversion leads to has the value of the number. -/
theorem value_of_toFixed (h : format.IsLawful) {d : F} (hd : x.toFixed format = .ok d) :
    (format.mantissa d * 10 ^ (-((format.scale d).toNat : Int)) : ℚ) = x.value := by
  rcases toFixed_cases h x with ⟨y, e, hfitting, -, he, hmantissa, hscale⟩ | ⟨_, _, _, hfail⟩ |
    ⟨hfail, -⟩
  · obtain rfl : e = d := Except.ok.inj (he.symm.trans hd)
    rw [hmantissa, hscale, toNat_toUInt32 hfitting.hasFixedScale.1]
    exact hfitting.value_eq
  · cases hfail.symm.trans hd
  · cases hfail.symm.trans hd

/-- A conversion fails for want of a scale exactly where the value is no multiple of the last
place. -/
theorem toFixed_eq_roundingNecessary_iff (h : format.IsLawful) :
    x.toFixed format = .error .roundingNecessary ↔
      ¬ ∃ n : Int, x.value = n * 10 ^ (-28 : Int) := by
  rcases toFixed_cases h x with ⟨y, d, hfitting, -, hd, -⟩ | ⟨y, hfitting, -, hfail⟩ |
    ⟨hfail, hscales⟩
  · rw [hd]
    exact iff_of_false (by simp) (not_not.mpr hfitting.exists_multiple)
  · rw [hfail]
    exact iff_of_false (by simp) (not_not.mpr hfitting.exists_multiple)
  · refine iff_of_true hfail fun hmultiple => ?_
    obtain ⟨scale, hmem, hle⟩ := exists_multiple_iff.mp hmultiple
    exact absurd (hscales scale hmem) (not_lt.mpr hle)

/-- A decimal of the format comes back with its own mantissa and scale. -/
theorem exists_toFixed_toDecimal (h : format.IsLawful) (d : F) :
    ∃ back, (format.toDecimal d).toFixed format = .ok back ∧
      format.mantissa back = format.mantissa d ∧ format.scale back = format.scale d := by
  have hown := hasFixedScale_toDecimal h d
  obtain ⟨back, hback, hmantissa, hscale⟩ := exists_handOver h hown (h.mantissa_lt d)
  refine ⟨back, ?_, hmantissa, hscale.trans (UInt32.toUInt32_toInt32 _)⟩
  rw [toFixed, fitted_of_hasFixedScale hown]
  exact hback

/-- A conversion to 96 bits never changes a value, it fails for want of a scale exactly where the
value is no multiple of the last place, and a decimal of 96 bits comes back with its own mantissa
and scale. -/
theorem toFixed_keeps_value (h : format.IsLawful) (x : Decimal) :
    (∀ d, x.toFixed format = .ok d →
        (format.mantissa d * 10 ^ (-((format.scale d).toNat : Int)) : ℚ) = x.value) ∧
      (x.toFixed format = .error .roundingNecessary ↔
        ¬ ∃ n : Int, x.value = n * 10 ^ (-28 : Int)) ∧
      ∀ d, ∃ back, (format.toDecimal d).toFixed format = .ok back ∧
        format.mantissa back = format.mantissa d ∧ format.scale back = format.scale d :=
  ⟨fun _ => value_of_toFixed h, toFixed_eq_roundingNecessary_iff h, exists_toFixed_toDecimal h⟩

/-- The greatest mantissa is reached from a place more than the format has, a single unit of that
place is lost, and the least mantissa at the greatest scale comes back. -/
theorem toFixed_keeps_value_at_limits :
    let padded : Decimal := ⟨792281625142643375935439503350, 29⟩
    let unit : Decimal := ⟨1, 29⟩
    let least : Fixed96 := ⟨-79228162514264337593543950335, 28, by decide, by decide⟩
    Fixed96.format.IsLawful ∧
      (∃ d, padded.toFixed96 = .ok d ∧ d.mantissa = 79228162514264337593543950335 ∧
        (d.mantissa * 10 ^ (-((Fixed96.format.scale d).toNat : Int)) : ℚ) = padded.value) ∧
      unit.toFixed96 = .error .roundingNecessary ∧
      (¬ ∃ n : Int, unit.value = n * 10 ^ (-28 : Int)) ∧
      ∃ back, least.toDecimal.toFixed96 = .ok back ∧ back.mantissa = least.mantissa ∧
        Fixed96.format.scale back = 28 := by
  intro padded unit least
  let greatest : Fixed96 := ⟨79228162514264337593543950335, 28, by decide, by decide⟩
  have hpadded : padded.toFixed96 = .ok greatest := by decide +kernel
  have hunit : unit.toFixed96 = .error .roundingNecessary := by decide +kernel
  have hlawful := Fixed96.isLawful_format
  exact ⟨hlawful, ⟨greatest, hpadded, rfl, (toFixed_keeps_value hlawful padded).1 greatest hpadded⟩,
    hunit, (toFixed_keeps_value hlawful unit).2.1.mp hunit,
    (toFixed_keeps_value hlawful padded).2.2 least⟩

/-- A fitting representation with a mantissa shows that the value is one of 96 bits. -/
theorem IsFitting.isFixed96 (h : x.IsFitting y) (hmantissa : y.coefficient.natAbs < 2 ^ 96) :
    IsFixed96 x.value := by
  obtain ⟨hnonneg, hlimit⟩ := h.hasFixedScale
  refine ⟨y.coefficient, y.scale.toInt.toNat, hmantissa, by omega, ?_⟩
  rw [Int.toNat_of_nonneg hnonneg]
  exact h.value_eq.symm

/-- A number at a scale of the format fits in no other representation. -/
theorem IsFitting.eq_of_hasFixedScale (h : x.IsFitting y) (hown : x.HasFixedScale) : y = x :=
  h.own_or_least.resolve_right fun hother => hother.1 hown

/-- A value of 96 bits has a mantissa as its coefficient at the least scale. -/
theorem IsFixed96.natAbs_lt {v : ℚ} (h : IsFixed96 v) {coefficient scale : Int}
    (hvalue : valueOf coefficient scale = v) (hleast : ∀ s ∈ scalesFrom 0 v, scale ≤ s) :
    coefficient.natAbs < 2 ^ 96 := by
  obtain ⟨mantissa, places, hmantissa, -, rfl⟩ := h
  have hscale : scale ≤ places := hleast places ⟨Int.natCast_nonneg places, mantissa, rfl⟩
  exact (natAbs_le_of_scale_le hvalue hscale).trans_lt hmantissa

/-- A number without trailing zeros is not overlong if its value is one of 96 bits. -/
theorem IsNormal.not_isOverlong (hx : x.IsNormal) (h : IsFixed96 x.value) : ¬ x.IsOverlong := by
  rintro ⟨-, hlong⟩
  exact absurd (h.natAbs_lt rfl fun _ => hx.scale_le) (not_lt.mpr hlong)

/-- A number is converted exactly if its value is one of 96 bits and it is not overlong. -/
theorem exists_toFixed_iff (h : format.IsLawful) :
    (∃ d, x.toFixed format = .ok d) ↔ IsFixed96 x.value ∧ ¬ x.IsOverlong := by
  rcases toFixed_cases h x with ⟨y, d, hfitting, hmantissa, hd, -⟩ | ⟨y, hfitting, hlong, hfail⟩ |
    ⟨hfail, hscales⟩
  · refine iff_of_true ⟨d, hd⟩ ⟨hfitting.isFixed96 hmantissa, fun hoverlong => ?_⟩
    rw [hfitting.eq_of_hasFixedScale hoverlong.1] at hmantissa
    exact absurd hmantissa (not_lt.mpr hoverlong.2)
  · refine iff_of_false (by simp [hfail]) fun ⟨hvalue, hoverlong⟩ => ?_
    rcases hfitting.own_or_least with rfl | ⟨-, hleast⟩
    · exact hoverlong ⟨hfitting.hasFixedScale, hlong⟩
    · exact absurd (hvalue.natAbs_lt hfitting.value_eq fun _ hs => hleast.2 hs) (not_lt.mpr hlong)
  · refine iff_of_false (by simp [hfail]) ?_
    rintro ⟨⟨mantissa, places, -, hlimit, hvalue⟩, -⟩
    have hbeyond := hscales places ⟨Int.natCast_nonneg places, mantissa, hvalue.symm⟩
    omega

/-- A number that is overlong is not converted. -/
theorem toFixed_of_isOverlong (h : format.IsLawful) (hlong : x.IsOverlong) :
    x.toFixed format = .error .overflow := by
  rw [toFixed, fitted_of_hasFixedScale hlong.1]
  exact handOver_of_le h hlong.2

/-- A number is converted to 96 bits exactly if its value is one of 96 bits, unless its scale is one
of the format and its coefficient is too long at this scale: then it is not converted. So without
trailing zeros the value alone decides, and of two numbers of one value either both are converted or
none, if neither of them is overlong. -/
theorem converted_iff_value_and_not_overlong (h : format.IsLawful) (x : Decimal) :
    ((∃ d, x.toFixed format = .ok d) ↔ IsFixed96 x.value ∧ ¬ x.IsOverlong) ∧
      (x.IsOverlong → x.toFixed format = .error .overflow) ∧
      ((∃ d, x.stripZeros.toFixed format = .ok d) ↔ IsFixed96 x.value) ∧
      ∀ y : Decimal, y.value = x.value → ¬ x.IsOverlong → ¬ y.IsOverlong →
        ((∃ d, x.toFixed format = .ok d) ↔ ∃ d, y.toFixed format = .ok d) := by
  refine ⟨exists_toFixed_iff h, toFixed_of_isOverlong h, ?_, fun y hvalue hx hy => ?_⟩
  · rw [exists_toFixed_iff h, value_stripZeros]
    refine and_iff_left_of_imp fun hfixed => (isNormal_stripZeros x).not_isOverlong ?_
    rwa [value_stripZeros]
  · rw [exists_toFixed_iff h, exists_toFixed_iff h, hvalue]
    exact and_congr_right fun _ => iff_of_true hx hy

/-- Eight with 28 zeros after the point is overlong, and converted once it is stripped. With 29
zeros it is stripped on the way. -/
theorem converted_iff_value_and_not_overlong_of_eight :
    let overlong : Decimal := ⟨80000000000000000000000000000, 28⟩
    let longer : Decimal := ⟨800000000000000000000000000000, 29⟩
    Fixed96.format.IsLawful ∧ overlong.value = longer.value ∧
      overlong.toFixed96 = .error .overflow ∧ (∃ d, overlong.stripZeros.toFixed96 = .ok d) ∧
      ∃ d, longer.toFixed96 = .ok d := by
  intro overlong longer
  have hlawful := Fixed96.isLawful_format
  have hoverlong : overlong.value = valueOf 8 0 := valueOf_mul_tenPow 8 0 28
  have hlonger : longer.value = valueOf 8 0 := valueOf_mul_tenPow 8 0 29
  have hfixed : IsFixed96 (valueOf 8 0) := ⟨8, 0, by decide, by decide, rfl⟩
  obtain ⟨-, hfails, hstripped, -⟩ := converted_iff_value_and_not_overlong hlawful overlong
  obtain ⟨hconverts, -⟩ := converted_iff_value_and_not_overlong hlawful longer
  refine ⟨hlawful, hoverlong.trans hlonger.symm, hfails ⟨⟨by decide, by decide⟩, by decide⟩,
    hstripped.mpr (hoverlong ▸ hfixed), hconverts.mpr ⟨hlonger ▸ hfixed, ?_⟩⟩
  exact fun hwithin => absurd hwithin.1.2 (by decide)

/-- A single zero after the point keeps a number from being converted that is converted without it,
so the value does not decide by itself. -/
theorem not_converted_of_zero_at_end :
    let whole : Decimal := ⟨10000000000000000000000000000, 0⟩
    let padded : Decimal := ⟨100000000000000000000000000000, 1⟩
    padded.value = whole.value ∧ (∃ d, whole.toFixed96 = .ok d ∧ d.mantissa = whole.coefficient) ∧
      padded.toFixed96 = .error .overflow ∧
      (¬ ∀ x : Decimal, IsFixed96 x.value → ∃ d, x.toFixed96 = .ok d) ∧
      ¬ ∀ x y : Decimal, x.value = y.value →
        ((∃ d, x.toFixed96 = .ok d) ↔ ∃ d, y.toFixed96 = .ok d) := by
  intro whole padded
  let fixed : Fixed96 := ⟨10000000000000000000000000000, 0, by decide, by decide⟩
  have hvalue : padded.value = whole.value := valueOf_mul_tenPow 10000000000000000000000000000 0 1
  have hwhole : whole.toFixed96 = .ok fixed := by decide +kernel
  have hpadded : padded.toFixed96 = .error .overflow := by decide +kernel
  have hnone : ¬ ∃ d, padded.toFixed96 = .ok d := by simp [hpadded]
  have hfixed : IsFixed96 padded.value :=
    ⟨10000000000000000000000000000, 0, by decide, by decide, hvalue⟩
  exact ⟨hvalue, ⟨fixed, hwhole, rfl⟩, hpadded, fun hall => hnone (hall padded hfixed),
    fun hall => hnone ((hall padded whole hvalue).mpr ⟨fixed, hwhole⟩)⟩

end Decimal

end Monetary
