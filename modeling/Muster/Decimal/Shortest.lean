import Muster.Binary64.Basic

/-!
# Decimal/Shortest — the fewest digits that read back

The reals that round to a given double form an interval around it; its ends belong to it when the
significand is even. `Decimal.shortest` walks through the grids of numbers with 1, 2, … digits,
takes the first that has a point in the interval, and of two such points the nearer. Only on an
exact tie is there a choice left, and that is the caller's (`Tie`).

All comparisons are between exact fractions.
-/

namespace Muster

/-- **A decimal** `digits · 10 ^ exponent`. -/
structure Decimal where
  digits : Nat
  exponent : Int
  deriving DecidableEq, Inhabited, Repr

/-- Which of two equally near decimals is taken. -/
inductive Tie
  /-- the one whose last digit is even -/
  | even
  /-- the one farther from zero -/
  | away
  deriving DecidableEq, Repr

namespace Decimal

/-! ## Decimal magnitudes -/

/-- The number of decimal digits of a whole number. -/
def digitCount (n : Nat) : Nat := (Nat.toDigits 10 n).length

/-- **Where the point goes**: the `k` with `10 ^ (k - 1) ≤ n / d < 10 ^ k`, for a positive
fraction. -/
def pointOf (n d : Nat) : Int :=
  if d ≤ n then digitCount (n / d) else 1 - (digitCount ((d - 1) / n) : Int)

/-- The numerator and denominator of `10 ^ e`. -/
def powerOfTen (e : Int) : Nat × Nat :=
  if 0 ≤ e then (10 ^ e.toNat, 1) else (1, 10 ^ (-e).toNat)

/-! ## The interval of a double -/

/-- **The reals that round to a double**: from `low` to `high`, around `centre`, all three counted
in units of `unit.1 / unit.2`. -/
structure Interval where
  low : Nat
  centre : Nat
  high : Nat
  unit : Nat × Nat
  closed : Bool

/-- **The interval of a positive finite double.** It reaches half a unit of the significand to
either side, but only a quarter downwards where the doubles below lie twice as dense. -/
def Interval.of (x : Binary64) : Interval :=
  let m := x.significand
  let q := x.scale - 2
  { low := if m = 2 ^ 52 ∧ -1074 < x.scale then 4 * m - 1 else 4 * m - 2
    centre := 4 * m
    high := 4 * m + 2
    unit := if 0 ≤ q then (2 ^ q.toNat, 1) else (1, 2 ^ (-q).toNat)
    closed := m % 2 = 0 }

/-- Is the decimal in the interval? -/
def Interval.holds (i : Interval) (d : Decimal) : Bool :=
  let ten := powerOfTen d.exponent
  let point := d.digits * ten.1 * i.unit.2
  let low := i.low * i.unit.1 * ten.2
  let high := i.high * i.unit.1 * ten.2
  if i.closed then low ≤ point ∧ point ≤ high else low < point ∧ point < high

/-! ## The search -/

/-- The centre of the interval counted in units of `10 ^ e`, as a fraction. -/
def Interval.centreIn (i : Interval) (e : Int) : Nat × Nat :=
  let ten := powerOfTen e
  (i.centre * i.unit.1 * ten.2, i.unit.2 * ten.1)

/-- Of the two grid points around the centre, both in the interval, the one to take. -/
def nearer (tie : Tie) (n d : Nat) : Nat :=
  let below := n / d
  let twice := 2 * (n % d)
  if twice < d then below
  else if d < twice then below + 1
  else match tie with
    | .even => below + below % 2
    | .away => below + 1

/-- **The point of one grid that is in the interval**, if there is one: it can only be a neighbour
of the centre. -/
def onGrid (tie : Tie) (i : Interval) (e : Int) : Option Decimal :=
  let (n, d) := i.centreIn e
  let below : Decimal := ⟨n / d, e⟩
  let above : Decimal := ⟨n / d + 1, e⟩
  match i.holds below, i.holds above with
  | true, true => some ⟨nearer tie n d, e⟩
  | true, false => some below
  | false, true => some above
  | false, false => none

/-- The first grid with a hit, among those with `grids` more digits to try below `10 ^ e`. -/
def search (tie : Tie) (i : Interval) : (grids : Nat) → (e : Int) → Decimal
  | 0, e => ⟨(i.centreIn e).1 / (i.centreIn e).2, e⟩
  | grids + 1, e => (onGrid tie i (e - 1)).getD (search tie i grids (e - 1))

/-- Trailing zeros move into the exponent; at most `fuel` of them. -/
def trim : (fuel : Nat) → Decimal → Decimal
  | 0, d => d
  | fuel + 1, d =>
    if d.digits ≠ 0 ∧ d.digits % 10 = 0 then trim fuel ⟨d.digits / 10, d.exponent + 1⟩ else d

/-- **The shortest decimal that reads back as the double**: seventeen digits always suffice. The
double is finite and not a zero; its sign is left out. -/
def shortest (tie : Tie) (x : Binary64) : Decimal :=
  let i := Interval.of x
  let f := x.fraction
  trim 17 (search tie i 17 (pointOf f.1 f.2))

/-- The tie at `2 ^ -25` goes to the even digit or away from zero. -/
example : (shortest .even ⟨0x3e60000000000000⟩).digits = 29802322387695312 ∧
    (shortest .away ⟨0x3e60000000000000⟩).digits = 29802322387695313 := by decide +kernel

/-- The least double has one digit. -/
example : shortest .even ⟨1⟩ = ⟨5, -324⟩ := by decide +kernel

end Decimal

end Muster
