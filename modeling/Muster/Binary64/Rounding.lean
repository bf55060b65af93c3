import Muster.Binary64.Basic

/-!
# Binary64/Rounding — from exact fractions to doubles

There is one rounding, `Binary64.ofRatio`: the double nearest to a fraction, a tie going to the even
significand. Whole numbers, products and quotients are each the rounding of their exact value, which
is what the arithmetic of doubles means.
-/

namespace Muster

/-! ## Rounding a quotient to a whole number -/

/-- **The whole number nearest to `n / d`**, a tie going to the even one. -/
def roundHalfEven (n d : Nat) : Nat :=
  if 2 * (n % d) < d then n / d
  else if d < 2 * (n % d) then n / d + 1
  else n / d + n / d % 2

namespace Binary64

/-! ## The nearest double -/

/-- The quotient `n / d` counted in units of `2 ^ q`, again as a fraction. -/
def inUnits (n d : Nat) (q : Int) : Nat × Nat :=
  if 0 ≤ q then (n, d * 2 ^ q.toNat) else (n * 2 ^ (-q).toNat, d)

/-- **The unit of the doubles around `n / d`**, as a power of two: the quotient has 53 binary digits
in it, unless the least unit of all is coarser. -/
def unitAround (n d : Nat) : Int :=
  let q : Int := (n.log2 : Int) - d.log2 - 52
  let (a, b) := inUnits n d q
  max (if a < b * 2 ^ 52 then q - 1 else q) (-1074)

/-- **The double nearest to `n / d`**, a tie going to the even significand; beyond the largest
double it is the infinity. Consecutive magnitudes are consecutive words, so a significand that
rounds up to the next power of two carries into the exponent bits by itself. -/
def ofRatio (negative : Bool) (n d : Nat) : Binary64 :=
  if n = 0 then zero negative
  else
    let q := unitAround n d
    let (a, b) := inUnits n d q
    ofMagnitude negative (min ((q + 1074).toNat * 2 ^ 52 + roundHalfEven a b) infiniteMagnitude)

/-- The double nearest to a whole number. -/
def ofNat (n : Nat) : Binary64 := ofRatio false n 1

/-- The power of ten nearest to `10 ^ k`. -/
def tenTo (k : Nat) : Binary64 := ofNat (10 ^ k)

/-- The product of two finite doubles, rounded. -/
def mul (x y : Binary64) : Binary64 :=
  ofRatio (x.negative != y.negative) (x.fraction.1 * y.fraction.1) (x.fraction.2 * y.fraction.2)

/-- The quotient of two finite doubles, rounded; the divisor is not a zero. -/
def div (x y : Binary64) : Binary64 :=
  ofRatio (x.negative != y.negative) (x.fraction.1 * y.fraction.2) (x.fraction.2 * y.fraction.1)

/-- The same magnitude with the sign set as told. -/
def withSign (negative : Bool) (x : Binary64) : Binary64 :=
  ofMagnitude negative (x.bits.toNat % 2 ^ 63)

/-- One. -/
example : ofNat 1 = ⟨0x3ff0000000000000⟩ := by decide

/-- Halfway between two doubles the even one is taken. -/
example : ofNat (2 ^ 53 + 1) = ofNat (2 ^ 53) := by decide

/-- The least positive double, and half of it, which rounds to zero. -/
example : ofRatio false 1 (2 ^ 1074) = ⟨1⟩ ∧ ofRatio false 1 (2 ^ 1075) = ⟨0⟩ := by decide +kernel

end Binary64

end Muster
