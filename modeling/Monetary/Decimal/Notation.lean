import Monetary.Decimal.Order
import Monetary.Text.Numeral

/-!
# Notations of decimal numbers

The canonical notation shows coefficient and scale, so different representations have different
texts: `1.0` and `1.00`, `5E+3` and `5000`. The plain notation never has an exponent.
-/

namespace Monetary.Decimal

/-- Digits with a point before the last `places` of them, after as many zeros as that takes. -/
def insertPoint (word : List Char) (places : Nat) : List Char :=
  if places < word.length then
    word.take (word.length - places) ++ '.' :: word.drop (word.length - places)
  else '0' :: '.' :: List.replicate (places - word.length) '0' ++ word

/-- A text after `-` if the number is negative. -/
def signed (x : Decimal) (text : List Char) : List Char :=
  if x.coefficient < 0 then '-' :: text else text

/-- An exponent after its sign. -/
def exponentText (exponent : Int) : List Char :=
  (if 0 ≤ exponent then '+' else '-') :: Text.digits exponent.natAbs

/-- Digits with a point after the first one if there are more, and an exponent. -/
def scientific (word : List Char) (exponent : Int) : List Char :=
  match word with
  | [] => []
  | lead :: [] => lead :: 'E' :: exponentText exponent
  | lead :: rest => lead :: '.' :: rest ++ 'E' :: exponentText exponent

/-- The canonical notation: positional if the scale is not negative and the leading digit stands
at the sixth place after the point or before, otherwise with an exponent. -/
def canonical (x : Decimal) : List Char :=
  let word := Text.digits x.coefficient.natAbs
  x.signed <|
    if x.scale = 0 then word
    else if 0 < x.scale.toInt ∧ -6 ≤ x.leadingExponent then insertPoint word x.scale.toInt.toNat
    else scientific word x.leadingExponent

/-- The notation without an exponent. -/
def plain (x : Decimal) : List Char :=
  let word := Text.digits x.coefficient.natAbs
  x.signed <|
    if x.scale.toInt ≤ 0 then
      if x.isZero then word else word ++ List.replicate (-x.scale.toInt).toNat '0'
    else insertPoint word x.scale.toInt.toNat

/-- The canonical notation as a string. -/
def canonicalText (x : Decimal) : String :=
  String.ofList x.canonical

/-- The plain notation as a string. -/
def plainText (x : Decimal) : String :=
  String.ofList x.plain

instance : ToString Decimal := ⟨canonicalText⟩

/-- A listing of the canonical notation, the coefficient and the scale. -/
def describe (x : Decimal) : String :=
  String.ofList <|
    "BigDecimal(".toList ++ x.canonical ++ ", unscaled=".toList ++ Text.integer x.coefficient ++
      ", scale=".toList ++ Text.integer x.scale.toInt ++ [')']

end Monetary.Decimal
