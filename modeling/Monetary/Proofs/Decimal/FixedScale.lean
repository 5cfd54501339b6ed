import Monetary.Proofs.Decimal.ShiftWord

/-!
# Numbers at a fixed scale

A number is brought to a scale by rounding its value, counted in units of the last place there, to an
integer. Where the scale grows, the value is an integer number of units already, and no mode changes
it. So the result is made from the value alone: the representation from which it starts, and any
higher scale that the number is taken through on the way, leave no trace in it.
-/

namespace Monetary.Decimal

variable {x y : Decimal} {scale : Int32} {mode : Rounding} {error : NumberError}

/-- A number counted in units of the last place of a scale. -/
theorem value_div_unit (x : Decimal) (scale : Int) :
    x.value / 10 ^ (-scale) = x.coefficient * 10 ^ (scale - x.scale.toInt) := by
  rw [value, valueOf, zpow_neg _ scale, div_inv_eq_mul, mul_assoc, ten_zpow_mul rfl, neg_add_eq_sub]

/-- Brought to a scale, a number has the coefficient to which its units of the last place are
rounded. -/
theorem setScale_toOption (x : Decimal) (scale : Int32) (mode : Rounding) :
    (x.setScale scale mode).toOption =
      (mode.roundRat? (x.value / 10 ^ (-scale.toInt))).map fun coefficient =>
        ⟨coefficient, scale⟩ := by
  rw [value_div_unit, setScale]
  split
  · rename_i hwider
    obtain ⟨k, hk⟩ := Int.le.dest hwider
    have hshift : scale.toInt - x.scale.toInt = k := by omega
    have hunits : (x.coefficient * 10 ^ k : ℚ) = (x.coefficient * tenPow k : Int) := by
      rw [Int.cast_mul, Int.cast_natCast, cast_tenPow]
    rw [hshift, Int.toNat_natCast, zpow_natCast, hunits, Rounding.roundRat?_intCast]
    rfl
  · rename_i hnarrower
    obtain ⟨k, hk⟩ := Int.le.dest (not_le.mp hnarrower).le
    have hshift : x.scale.toInt - scale.toInt = k := by omega
    have hback : scale.toInt - x.scale.toInt = -k := by omega
    rw [hshift, hback, Int.toNat_natCast, toOption_bind_pure, Rounding.divide_toOption mode _ (by simp),
      zpow_neg, ← div_eq_mul_inv, zpow_natCast, Int.cast_natCast, cast_tenPow]

/-- A number is brought to a scale exactly as the coefficient to which its units of the last place
are rounded. -/
theorem setScale_eq_ok_iff : x.setScale scale mode = .ok y ↔
    y.scale = scale ∧ mode.roundRat? (x.value / 10 ^ (-scale.toInt)) = some y.coefficient := by
  rw [← toOption_eq_some_iff, setScale_toOption, Option.map_eq_some_iff]
  constructor
  · rintro ⟨coefficient, hrounded, rfl⟩
    exact ⟨rfl, hrounded⟩
  · rintro ⟨rfl, hrounded⟩
    exact ⟨y.coefficient, hrounded, rfl⟩

/-- The only fault of a number at a scale is that it would have to be rounded. -/
theorem eq_roundingNecessary_of_setScale (h : x.setScale scale mode = .error error) :
    error = .roundingNecessary := by
  unfold setScale at h
  split at h
  · cases h
  · rcases bind_eq_error_iff.mp h with hdivide | ⟨_, -, hmade⟩
    · exact ((Rounding.divide_eq_error_iff (by simp)).mp hdivide).1
    · cases hmade

/-- Bringing a number to a scale fails exactly if it must not be rounded and is no integer number of
units of the last place. -/
theorem setScale_eq_error_iff : x.setScale scale mode = .error error ↔
    error = .roundingNecessary ∧ mode = .unnecessary ∧
      ¬ ∃ n : Int, x.value = n * 10 ^ (-scale.toInt) := by
  have hunits : (mode.roundRat? (x.value / 10 ^ (-scale.toInt)) = none ↔
      mode = .unnecessary ∧ ¬ ∃ n : Int, x.value = n * 10 ^ (-scale.toInt)) := by
    simp only [Rounding.roundRat?_eq_none_iff, div_eq_iff (unit_pos scale.toInt).ne']
  rw [← hunits, ← Option.map_eq_none_iff (f := fun coefficient => (⟨coefficient, scale⟩ : Decimal)),
    ← setScale_toOption]
  constructor
  · intro h
    exact ⟨eq_roundingNecessary_of_setScale h, by rw [h]; rfl⟩
  · rintro ⟨rfl, hnone⟩
    cases hresult : x.setScale scale mode with
    | ok y =>
      rw [hresult] at hnone
      cases hnone
    | error error => rw [eq_roundingNecessary_of_setScale hresult]

/-- Two numbers of one value are brought to a scale as one and the same number, or not at all. -/
theorem setScale_congr (h : x.value = y.value) (scale : Int32) (mode : Rounding) :
    x.setScale scale mode = y.setScale scale mode := by
  cases hresult : y.setScale scale mode with
  | ok z => rwa [setScale_eq_ok_iff, h, ← setScale_eq_ok_iff]
  | error error => rwa [setScale_eq_error_iff, h, ← setScale_eq_error_iff]

/-- At its own scale a number is left as it is. -/
theorem setScale_scale (x : Decimal) (mode : Rounding) : x.setScale x.scale mode = .ok x := by
  rw [setScale, if_pos le_rfl, sub_self, Int.toNat_zero, tenPow_zero, Nat.cast_one, mul_one]

/-- A number is brought to a higher scale in any mode, with the same value. -/
theorem exists_setScale_eq_ok (mode : Rounding) (h : x.scale.toInt ≤ scale.toInt) :
    ∃ y, x.setScale scale mode = .ok y ∧ y.value = x.value := by
  obtain ⟨k, hk⟩ := Int.le.dest h
  have hshift : scale.toInt - x.scale.toInt = k := by omega
  refine ⟨_, if_pos h, ?_⟩
  rw [hshift, Int.toNat_natCast, value, ← hk, valueOf_mul_tenPow]
  rfl

/-- A number that has been brought to a higher scale comes back from there unchanged. -/
theorem setScale_setScale_scale (mode other : Rounding) (h : x.scale.toInt ≤ scale.toInt) :
    (x.setScale scale mode >>= fun y => y.setScale x.scale other) = .ok x := by
  obtain ⟨y, hy, hvalue⟩ := exists_setScale_eq_ok mode h
  rw [hy]
  exact (setScale_congr hvalue x.scale other).trans (x.setScale_scale other)

/-- Brought to a scale, a number is at just this scale the multiple of the unit of the last place to
which the mode rounds its value. That fails only where the mode must not round and the value is no
such multiple. A higher scale keeps the value, and from there the number comes back as it was; of
the representation from which it starts nothing is left. No bit of a shift is lost in the word. -/
theorem setScale_correctly_rounded (x : Decimal) (scale : Int32) (mode : Rounding) :
    (∀ y, x.setScale scale mode = .ok y ↔ y.scale = scale ∧
      ∃ n : Int, mode.roundRat? (x.value / 10 ^ (-scale.toInt)) = some n ∧
        y.value = n * 10 ^ (-scale.toInt)) ∧
    (∀ error, x.setScale scale mode = .error error ↔
      error = .roundingNecessary ∧ mode = .unnecessary ∧
        ¬ ∃ n : Int, x.value = n * 10 ^ (-scale.toInt)) ∧
    (x.scale.toInt ≤ scale.toInt → (∃ y, x.setScale scale mode = .ok y ∧ y.value = x.value) ∧
      ∀ other, (x.setScale scale mode >>= fun y => y.setScale x.scale other) = .ok x) ∧
    (∀ other : Decimal, other.value = x.value →
      other.setScale scale mode = x.setScale scale mode) ∧
    IsHeld (scale.toInt - x.scale.toInt) ∧
      x.setScaleInWord scale mode = x.setScale scale mode := by
  refine ⟨fun y => ?_, fun error => setScale_eq_error_iff, fun hwider =>
    ⟨exists_setScale_eq_ok mode hwider, fun other => setScale_setScale_scale mode other hwider⟩,
    fun other hvalue => setScale_congr hvalue scale mode, isHeld_sub_scale _ _,
    setScaleInWord_eq x scale mode⟩
  rw [setScale_eq_ok_iff]
  constructor
  · rintro ⟨rfl, hrounded⟩
    exact ⟨rfl, y.coefficient, hrounded, rfl⟩
  · rintro ⟨rfl, n, hrounded, hvalue⟩
    exact ⟨rfl, (valueOf_inj y.scale.toInt).mp hvalue ▸ hrounded⟩

/-- The digits of -9.95 carry into a new one at a single place after the point, and 1.25 is no number
of tenths. From three places 2.5 comes back as it was, and 2.50 is rounded to an even integer as 2.5
is. -/
theorem setScale_correctly_rounded_with_carry :
    setScale ⟨-995, 2⟩ 1 .halfUp = .ok ⟨-100, 1⟩ ∧
      (∃ n : Int, Rounding.halfUp.roundRat? (value ⟨-995, 2⟩ / 10 ^ (-(1 : Int32).toInt)) = some n ∧
        value ⟨-100, 1⟩ = n * 10 ^ (-(1 : Int32).toInt)) ∧
      setScale ⟨125, 2⟩ 1 .unnecessary = .error .roundingNecessary ∧
      (¬ ∃ n : Int, value ⟨125, 2⟩ = n * 10 ^ (-(1 : Int32).toInt)) ∧
      (setScale ⟨25, 1⟩ 3 .up >>= fun y => y.setScale 1 .unnecessary) = .ok ⟨25, 1⟩ ∧
      setScale ⟨250, 2⟩ 0 .halfEven = setScale ⟨25, 1⟩ 0 .halfEven := by
  have hcarry : setScale ⟨-995, 2⟩ 1 .halfUp = .ok ⟨-100, 1⟩ := by decide +kernel
  have hlost : setScale ⟨125, 2⟩ 1 .unnecessary = .error .roundingNecessary := by decide +kernel
  have hhalves : value ⟨250, 2⟩ = value ⟨25, 1⟩ := valueOf_mul_tenPow 25 1 1
  obtain ⟨hrounded, -⟩ := setScale_correctly_rounded ⟨-995, 2⟩ 1 .halfUp
  obtain ⟨-, hfault, -⟩ := setScale_correctly_rounded ⟨125, 2⟩ 1 .unnecessary
  obtain ⟨-, -, hback, -⟩ := setScale_correctly_rounded ⟨25, 1⟩ 3 .up
  obtain ⟨-, -, -, hequal, -⟩ := setScale_correctly_rounded ⟨25, 1⟩ 0 .halfEven
  exact ⟨hcarry, ((hrounded _).mp hcarry).2, hlost, ((hfault _).mp hlost).2.2,
    (hback (by decide)).2 .unnecessary, hequal _ hhalves⟩

end Monetary.Decimal
