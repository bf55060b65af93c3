import Muster.Binary64.Rounding
import Muster.Json.Failure

/-!
# Json/Number — numbers read in two rounded steps

The digits of a number are gathered into one 64-bit word as long as they fit; digits of the
integer part that no longer fit count as a power of ten, digits of the fraction that no longer fit
are dropped. A number with neither fraction nor exponent whose digits fit is a whole number. Any
other is a double, in two rounded steps: the word to the nearest double, then one product or
quotient by a power of ten.
-/

namespace Muster.Json

/-- **A number**: whole numbers from `-2 ^ 63` to below `2 ^ 64`, and doubles. -/
inductive Number
  | whole (i : Int)
  | real (x : Binary64)
  deriving DecidableEq, Repr

def digitValue (c : Char) : Nat := c.toNat - '0'.toNat

/-- **Digits as long as the value fits into a word**: the value, how many were taken, and
the rest. -/
def wordDigits : (value taken : Nat) → List Char → Nat × Nat × List Char
  | value, taken, c :: cs =>
    if c.isDigit ∧ value * 10 + digitValue c < 2 ^ 64 then
      wordDigits (value * 10 + digitValue c) (taken + 1) cs
    else (value, taken, c :: cs)
  | value, taken, [] => (value, taken, [])

def startsWithDigit : List Char → Bool
  | c :: _ => c.isDigit
  | [] => false

/-- **The double `x · 10 ^ e`.** Powers beyond `10 ^ 308` are no doubles: a value that needs one
upwards is too large, downwards it is divided in turn. -/
def scaled (x : Binary64) (e : Int) : Option Binary64 :=
  if e.natAbs ≤ 308 then
    if 0 ≤ e then
      let y := x.mul (.tenTo e.natAbs)
      if y.isInfinite then none else some y
    else some (x.div (.tenTo e.natAbs))
  else if x.isZero then some x
  else if 0 ≤ e then none
  else scaled (x.div (.tenTo 308)) (e + 308)
termination_by e.natAbs
decreasing_by omega

/-- The double `± value · 10 ^ e`; too large is malformed. -/
def realOf (negative : Bool) (value : Nat) (e : Int) : Except Failure Number :=
  match scaled (.ofNat value) e with
  | some x => .ok (.real (x.withSign negative))
  | none => .error .malformed

/-- The largest exponent that is taken as it is. -/
def maxExponent : Nat := 2 ^ 31 - 1

def exponentValue (cs : List Char) : Nat := cs.foldl (fun e c => e * 10 + digitValue c) 0

/-- **After the mark of an exponent.** An exponent beyond all bounds gives zero if it is negative or
the digits are zero, and is malformed otherwise. -/
def readExponent (negative : Bool) (value : Nat) (e : Int) (cs : List Char) :
    Except Failure (Number × List Char) :=
  let (down, cs) := match cs with
    | '+' :: r => (false, r)
    | '-' :: r => (true, r)
    | r => (false, r)
  match cs with
  | [] => .error .ended
  | c :: _ =>
    if c.isDigit then
      let n := exponentValue (cs.takeWhile Char.isDigit)
      let rest := cs.dropWhile Char.isDigit
      if maxExponent < n then
        if value ≠ 0 ∧ !down then .error .malformed
        else .ok (.real (.zero negative), rest)
      else (realOf negative value (if down then e - n else e + n)).map (·, rest)
    else .error .malformed

/-- What follows the digits of a double: an exponent, or nothing more. -/
def readTail (negative : Bool) (value : Nat) (e : Int) (cs : List Char) :
    Except Failure (Number × List Char) :=
  match cs with
  | 'e' :: r => readExponent negative value e r
  | 'E' :: r => readExponent negative value e r
  | r => (realOf negative value e).map (·, r)

/-- **After the point.** At least one digit has to follow. -/
def readFraction (negative : Bool) (value : Nat) (e : Int) (cs : List Char) :
    Except Failure (Number × List Char) :=
  let (value, taken, rest) := wordDigits value 0 cs
  if startsWithDigit rest then readTail negative value (e - taken) (rest.dropWhile Char.isDigit)
  else if taken = 0 then .error (if rest.isEmpty then .ended else .malformed)
  else readTail negative value (e - taken) rest

/-- A whole number of word size with its sign: the negative zero and what lies below `-2 ^ 63` are
doubles. -/
def wholeOf (negative : Bool) (value : Nat) : Number :=
  if negative then
    if value = 0 ∨ 2 ^ 63 < value then .real ((Binary64.ofNat value).withSign true)
    else .whole (-value)
  else .whole value

/-- **A number**, the text starting after its sign. -/
def readNumber (negative : Bool) (cs : List Char) : Except Failure (Number × List Char) :=
  match cs with
  | [] => .error .ended
  | c :: r =>
    if c = '0' ∧ startsWithDigit r then .error .malformed
    else if c.isDigit then
      let (value, _, rest) := wordDigits 0 0 cs
      let spilt := (rest.takeWhile Char.isDigit).length
      match rest.dropWhile Char.isDigit with
      | '.' :: r => readFraction negative value spilt r
      | 'e' :: r => readExponent negative value spilt r
      | 'E' :: r => readExponent negative value spilt r
      | r => if spilt = 0 then .ok (wholeOf negative value, r)
             else (realOf negative value spilt).map (·, r)
    else .error .malformed

end Muster.Json
