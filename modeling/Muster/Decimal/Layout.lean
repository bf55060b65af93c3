import Muster.Decimal.Shortest

/-!
# Decimal/Layout — the written forms of a double

A `FloatLayout` is the set of decisions that turn shortest digits into text: where positional
notation ends, whether a whole number keeps a fraction, how an exponent is signed, where ties go,
and what stands for the values that have no digits. `FloatLayout.write` is the one writer for all
layouts.
-/

namespace Muster

/-- **How doubles are written.** A double is `0.d₁d₂…dₙ · 10 ^ k`; the layout speaks about `k`. -/
structure FloatLayout where
  /-- Positional notation is used for these positions `k` of the point. -/
  positional : Int → Bool
  /-- A whole number in positional notation gets the fraction `.0`. -/
  wholeFraction : Bool
  /-- An exponent that is not negative is written with a plus sign. -/
  plus : Bool
  tie : Tie
  nan : List Char
  infinite : Bool → List Char

namespace FloatLayout

/-! ## Digits and point -/

/-- The digits of a whole number. -/
def digitsOf (n : Nat) : List Char := Nat.toDigits 10 n

/-- Digits with the point at position `k`, zeros filling the gap on either side. -/
def pointed (wholeFraction : Bool) (ds : List Char) (k : Int) : List Char :=
  if k ≤ 0 then '0' :: '.' :: (List.replicate (-k).toNat '0' ++ ds)
  else if (ds.length : Int) ≤ k then
    ds ++ List.replicate (k.toNat - ds.length) '0' ++ (if wholeFraction then ['.', '0'] else [])
  else ds.take k.toNat ++ '.' :: ds.drop k.toNat

/-- Digits with the point after the first one and an exponent. -/
def scientific (plus : Bool) (ds : List Char) (k : Int) : List Char :=
  let e := k - 1
  let mantissa := match ds with
    | [] => []
    | [d] => [d]
    | d :: more => d :: '.' :: more
  let sign := if e < 0 then ['-'] else if plus then ['+'] else []
  mantissa ++ 'e' :: (sign ++ digitsOf e.natAbs)

/-- **A double in a layout.** -/
def write (l : FloatLayout) (x : Binary64) : List Char :=
  let signed (body : List Char) := if x.negative then '-' :: body else body
  if x.isNaN then l.nan
  else if x.isInfinite then l.infinite x.negative
  else if x.isZero then signed (if l.wholeFraction then ['0', '.', '0'] else ['0'])
  else
    let d := Decimal.shortest l.tie x
    let ds := digitsOf d.digits
    let k : Int := d.exponent + ds.length
    signed (if l.positional k then pointed l.wholeFraction ds k else scientific l.plus ds k)

/-! ## The three layouts of this library -/

/-- **Doubles in JSON**: positional from `0.00001` to below `1e16`, always with a fraction there;
exponents carry a sign; what is not finite is `null`. -/
def json : FloatLayout where
  positional k := -5 < k ∧ k ≤ 16
  wholeFraction := true
  plus := true
  tie := .even
  nan := "null".toList
  infinite _ := "null".toList

/-- **Doubles for people**: always positional, and a whole number has no fraction. -/
def plain : FloatLayout where
  positional _ := true
  wholeFraction := false
  plus := false
  tie := .away
  nan := "NaN".toList
  infinite negative := if negative then "-inf".toList else "inf".toList

/-- **Doubles in dumps of values**: positional from `0.0001` to below `1e16`, with a fraction, so
that they cannot be taken for integers. -/
def exact : FloatLayout where
  positional k := -4 < k ∧ k ≤ 16
  wholeFraction := true
  plus := false
  tie := .away
  nan := "NaN".toList
  infinite negative := if negative then "-inf".toList else "inf".toList

/-- One hundred thousandth is the last positional one in JSON. -/
example : json.write ⟨0x3ee4f8b588e368f1⟩ = "0.00001".toList := by decide +kernel

/-- A whole number in the three layouts. -/
example : json.write ⟨0x4059000000000000⟩ = "100.0".toList ∧
    plain.write ⟨0x4059000000000000⟩ = "100".toList ∧
    exact.write ⟨0x4059000000000000⟩ = "100.0".toList := by decide +kernel

end FloatLayout

end Muster
