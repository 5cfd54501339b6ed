import Monetary.Proofs.Decimal.TrailingZeros

/-!
# The laws of exact arithmetic

A sum has the larger of two scales, a product the sum of the scales, and each has exactly the value
that it should have. Value and scale determine a number, so every law that holds of the values and
of the scales holds of the representations as well, whichever operand has to be brought to the
scale of the other one: that sums are commutative and associative follows from that of addition and
of the maximum, and that products are distributed over sums from that of multiplication and from
adding one scale to the larger of two.

Products and shifts of the point need their scale to be in range, and fail otherwise. A law that has
two ways to one result is stated for those operands for which the steps in between can be made; the
results are then equal even where they fail.
-/

namespace Monetary.Decimal

variable {x y z p : Decimal}

/-- Two numbers are brought to the larger of their scales. -/
theorem scale_aligned (x y : Decimal) :
    (aligned x y).2.2.toInt = max x.scale.toInt y.scale.toInt := by
  unfold aligned
  dsimp only
  split
  · rename_i hless
    exact (max_eq_right hless.le).symm
  · rename_i hless
    exact (max_eq_left (not_lt.mp hless)).symm

/-- A sum has the larger of the scales of its terms. -/
theorem scale_add (x y : Decimal) : (x.add y).scale.toInt = max x.scale.toInt y.scale.toInt :=
  scale_aligned x y

/-- A difference has the larger of the scales of its terms. -/
theorem scale_sub (x y : Decimal) : (x.sub y).scale.toInt = max x.scale.toInt y.scale.toInt :=
  scale_aligned x y

/-- The number with the sum of two values at the larger of the scales is the sum. -/
theorem eq_add_iff : p = x.add y ↔
    p.value = x.value + y.value ∧ p.scale.toInt = max x.scale.toInt y.scale.toInt := by
  rw [← value_add, ← scale_add]
  constructor
  · rintro rfl
    exact ⟨rfl, rfl⟩
  · rintro ⟨hvalue, hscale⟩
    exact eq_of_value_eq_of_scale_eq hvalue (Int32.toInt_inj.mp hscale)

/-- A coefficient and a scale make the number with their value at that scale, if there is one. -/
theorem ofParts_eq_ok_iff_value {coefficient scale : Int} : ofParts coefficient scale = .ok p ↔
    p.value = valueOf coefficient scale ∧ p.scale.toInt = scale := by
  rw [ofParts_eq_ok_iff]
  refine and_congr_left fun hscale => ?_
  rw [value, hscale, valueOf_inj]

/-- A product is the number with the product of the values at the sum of the scales. -/
theorem mul_eq_ok_iff : x.mul y = .ok p ↔
    p.value = x.value * y.value ∧ p.scale.toInt = x.scale.toInt + y.scale.toInt := by
  rw [mul, ofParts_eq_ok_iff_value, valueOf_mul]
  rfl

/-- Moving the point is multiplying the value by a power of ten. -/
theorem value_of_scaleByPowerOfTen {n : Int} (h : x.scaleByPowerOfTen n = .ok p) :
    p.value = x.value * 10 ^ n := by
  rw [value_of_ofParts h, value, valueOf, valueOf, mul_assoc, ten_zpow_mul]
  ring

/-- The order of the terms of a sum does not matter. -/
protected theorem add_comm (x y : Decimal) : x.add y = y.add x := by
  rw [eq_add_iff, value_add, scale_add]
  exact ⟨add_comm _ _, max_comm _ _⟩

/-- The order in which three terms are added does not matter. -/
protected theorem add_assoc (x y z : Decimal) : (x.add y).add z = x.add (y.add z) := by
  rw [eq_add_iff, value_add, value_add, value_add, scale_add, scale_add, scale_add]
  exact ⟨add_assoc _ _ _, max_assoc _ _ _⟩

/-- A number is subtracted by adding the opposite one. -/
protected theorem sub_eq_add_neg (x y : Decimal) : x.sub y = x.add y.neg := by
  rw [eq_add_iff, value_sub, value_neg]
  exact ⟨sub_eq_add_neg _ _, scale_sub x y⟩

/-- The order of the factors of a product does not matter. -/
protected theorem mul_comm (x y : Decimal) : x.mul y = y.mul x := by
  rw [mul, mul, mul_comm, add_comm]

/-- The order in which three factors are multiplied does not matter where both products of two of
them can be made. -/
protected theorem mul_assoc {xy yz : Decimal} (hleft : x.mul y = .ok xy)
    (hright : y.mul z = .ok yz) : xy.mul z = x.mul yz := by
  obtain ⟨hleftCoefficient, hleftScale⟩ := ofParts_eq_ok_iff.mp hleft
  obtain ⟨hrightCoefficient, hrightScale⟩ := ofParts_eq_ok_iff.mp hright
  rw [mul, mul, hleftCoefficient, hleftScale, hrightCoefficient, hrightScale, mul_assoc, add_assoc]

/-- A factor may be multiplied with a sum, or with both of its terms where these products can be
made. -/
protected theorem mul_add {xy xz : Decimal} (hleft : x.mul y = .ok xy)
    (hright : x.mul z = .ok xz) : x.mul (y.add z) = .ok (xy.add xz) := by
  obtain ⟨hleftValue, hleftScale⟩ := mul_eq_ok_iff.mp hleft
  obtain ⟨hrightValue, hrightScale⟩ := mul_eq_ok_iff.mp hright
  rw [mul_eq_ok_iff, value_add, value_add, scale_add, scale_add, hleftValue, hleftScale,
    hrightValue, hrightScale]
  exact ⟨(mul_add _ _ _).symm, max_add_add_left _ _ _⟩

/-- Moving the point twice is moving it once by all the places. -/
theorem scaleByPowerOfTen_add {n : Int} (k : Int) (h : x.scaleByPowerOfTen n = .ok p) :
    p.scaleByPowerOfTen k = x.scaleByPowerOfTen (n + k) := by
  obtain ⟨hcoefficient, hscale⟩ := ofParts_eq_ok_iff.mp h
  rw [scaleByPowerOfTen, scaleByPowerOfTen, hcoefficient, hscale, sub_sub]

/-- Sums, differences, products and shifts of the point have exactly the value that they should
have, at the scale that the operands give; only a scale out of range makes a product or a shift
fail. So the laws of addition and multiplication hold of the representations, as far as the steps in
between can be made. -/
theorem exact_arithmetic_lawful (x y z : Decimal) :
    ((x.add y).value = x.value + y.value ∧
        (x.add y).scale.toInt = max x.scale.toInt y.scale.toInt) ∧
      ((x.sub y).value = x.value - y.value ∧
        (x.sub y).scale.toInt = max x.scale.toInt y.scale.toInt) ∧
      (∀ p, x.mul y = .ok p ↔
        p.value = x.value * y.value ∧ p.scale.toInt = x.scale.toInt + y.scale.toInt) ∧
      (∀ error, x.mul y = .error error ↔ error = .overflow ∧
        ¬ (leastScale ≤ x.scale.toInt + y.scale.toInt ∧
          x.scale.toInt + y.scale.toInt ≤ greatestScale)) ∧
      (∀ n p, x.scaleByPowerOfTen n = .ok p ↔
        p.coefficient = x.coefficient ∧ p.scale.toInt = x.scale.toInt - n) ∧
      (∀ n p, x.scaleByPowerOfTen n = .ok p → p.value = x.value * 10 ^ n) ∧
      (∀ n error, x.scaleByPowerOfTen n = .error error ↔ error = .overflow ∧
        ¬ (leastScale ≤ x.scale.toInt - n ∧ x.scale.toInt - n ≤ greatestScale)) ∧
      x.add y = y.add x ∧ (x.add y).add z = x.add (y.add z) ∧ x.sub y = x.add y.neg ∧
      x.mul y = y.mul x ∧
      (∀ xy yz, x.mul y = .ok xy → y.mul z = .ok yz → xy.mul z = x.mul yz) ∧
      (∀ xy xz, x.mul y = .ok xy → x.mul z = .ok xz → x.mul (y.add z) = .ok (xy.add xz)) ∧
      ∀ n k p, x.scaleByPowerOfTen n = .ok p → p.scaleByPowerOfTen k = x.scaleByPowerOfTen (n + k) :=
  ⟨⟨value_add x y, scale_add x y⟩, ⟨value_sub x y, scale_sub x y⟩, fun _ => mul_eq_ok_iff,
    fun _ => ofParts_eq_error_iff, fun _ _ => ofParts_eq_ok_iff,
    fun _ _ => value_of_scaleByPowerOfTen, fun _ _ => ofParts_eq_error_iff,
    Decimal.add_comm x y, Decimal.add_assoc x y z, Decimal.sub_eq_add_neg x y,
    Decimal.mul_comm x y, fun _ _ => Decimal.mul_assoc, fun _ _ => Decimal.mul_add,
    fun _ k _ => scaleByPowerOfTen_add k⟩

/-- At the greatest scale a product with zeros before the point can still be made, while the point
cannot be moved to the left. -/
theorem exact_arithmetic_lawful_at_greatest_scale :
    let x : Decimal := ⟨2, 2147483647⟩
    let y : Decimal := ⟨-3, -1⟩
    let z : Decimal := ⟨7, -4⟩
    let xy : Decimal := ⟨-6, 2147483646⟩
    let xz : Decimal := ⟨14, 2147483643⟩
    x.mul y = .ok xy ∧ x.mul z = .ok xz ∧ x.mul (y.add z) = .ok (xy.add xz) ∧
      x.scaleByPowerOfTen (-1) = .error .overflow := by
  intro x y z xy xz
  obtain ⟨-, -, -, -, -, -, hshift, -, -, -, -, -, hdistributes, -⟩ := exact_arithmetic_lawful x y z
  have hleft : x.mul y = .ok xy := by decide +kernel
  have hright : x.mul z = .ok xz := by decide +kernel
  exact ⟨hleft, hright, hdistributes xy xz hleft hright, (hshift (-1) .overflow).mpr ⟨rfl, by decide⟩⟩

end Monetary.Decimal
