import Muster.Powers

/-!
# Binary64/Basic — doubles as their 64 bits

A double is kept as the word that stores it: a sign, eleven exponent bits and 52 fraction bits.
A finite one is `± significand · 2 ^ scale`, both read off the word as exact integers, so every rule
about doubles in this library is a statement of integer arithmetic.

* `Binary64.canonical` — one representative per value: all NaNs are one value, and so are the zeros.
* `Binary64.same` — the equality that grouping uses, equality of representatives.
-/

namespace Muster

/-- **A double-precision number**, as the 64 bits that store it. -/
structure Binary64 where
  bits : UInt64
  deriving DecidableEq, Inhabited, Repr

namespace Binary64

/-! ## The fields of the word -/

/-- The sign bit. -/
def negative (x : Binary64) : Bool := 2 ^ 63 ≤ x.bits.toNat

/-- The eleven exponent bits. -/
def exponentBits (x : Binary64) : Nat := x.bits.toNat / 2 ^ 52 % 2 ^ 11

/-- The 52 fraction bits. -/
def fractionBits (x : Binary64) : Nat := x.bits.toNat % 2 ^ 52

/-- The word with a given sign and a given magnitude, the lower 63 bits as one number. -/
def ofMagnitude (negative : Bool) (magnitude : Nat) : Binary64 :=
  ⟨UInt64.ofNat ((if negative then 2 ^ 63 else 0) + magnitude)⟩

/-- The magnitude of both infinities. -/
def infiniteMagnitude : Nat := 2047 * 2 ^ 52

def zero (negative : Bool) : Binary64 := ofMagnitude negative 0

/-! ## Kinds of doubles -/

def isNaN (x : Binary64) : Bool := x.exponentBits = 2047 ∧ x.fractionBits ≠ 0

def isInfinite (x : Binary64) : Bool := x.exponentBits = 2047 ∧ x.fractionBits = 0

/-- Either zero. -/
def isZero (x : Binary64) : Bool := x.bits = 0 ∨ x.bits = 0x8000000000000000

/-! ## The value of a finite double -/

/-- **The integer significand**: the hidden bit is present unless the exponent bits are zero. -/
def significand (x : Binary64) : Nat :=
  if x.exponentBits = 0 then x.fractionBits else x.fractionBits + 2 ^ 52

/-- **The power of two of the significand's unit.** Subnormal doubles share the least one. -/
def scale (x : Binary64) : Int :=
  if x.exponentBits = 0 then -1074 else (x.exponentBits : Int) - 1075

/-- The absolute value of a finite double as an exact fraction: numerator and denominator. -/
def fraction (x : Binary64) : Nat × Nat :=
  if 0 ≤ x.scale then (x.significand * 2 ^ x.scale.toNat, 1)
  else (x.significand, 2 ^ (-x.scale).toNat)

/-! ## Equality of values -/

/-- **The representative of a value**: one quiet NaN for all NaNs, the positive zero for
both zeros. -/
def canonical (x : Binary64) : Binary64 :=
  if x.isNaN then ⟨0x7ff8000000000000⟩ else if x.isZero then ⟨0⟩ else x

/-- **Equality of values**: every NaN equals every NaN, and the two zeros are equal; otherwise the
words decide. -/
def same (x y : Binary64) : Bool := x.canonical = y.canonical

theorem same_iff {x y : Binary64} : x.same y = true ↔ x.canonical = y.canonical := by
  simp [same]

/-- The two zeros are one value. -/
example : (zero true).same (zero false) = true := by decide

/-- Two NaNs with different words are one value. -/
example : (⟨0x7ff0000000000001⟩ : Binary64).same ⟨0xfff8000000000000⟩ = true := by decide

end Binary64

end Muster
