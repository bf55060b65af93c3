/-!
# Fault — how a call can break off

A call that cannot go on breaks off with a fault. Some faults say that a caller broke a rule of
the library or asked for more than there is, some that an earlier fault left a lock poisoned, and
one is the caller's own code giving up.
-/

namespace Muster

/-- **Why a call broke off.** -/
inductive Fault
  /-- a number that must not be zero is zero; the text says of what -/
  | zero (what : Option String)
  /-- an array was asked for that is longer than any memory -/
  | noRoom
  /-- a number that is the largest of its kind was to grow -/
  | overflow
  /-- a lock whose holder broke off -/
  | poisoned
  /-- a census was cleared while somebody held one of its shards -/
  | censusInUse
  /-- a group was handed out that the census no longer holds -/
  | groupLost (group : String)
  /-- a party registered after another one had arrived -/
  | registeredMidPhase (phase arrived parties : Nat)
  /-- more parties arrived than are registered -/
  | surplusArrival (parties : Nat)
  /-- a party left a barrier that has none -/
  | noParties
  /-- the caller's own code gave up, with a text or without -/
  | raised (message : Option String)
  deriving DecidableEq, Repr, Inhabited

namespace Fault

/-- The wording when a number that must not be zero is zero. -/
def zeroMessage (what : Option String) : String :=
  "assertion `left != right` failed" ++
    (match what with
      | some w => ": " ++ w
      | none => "") ++
    "\n  left: 0\n right: 0"

/-- **The wording of a fault**, if it has one. -/
def message : Fault → Option String
  | zero what => some (zeroMessage what)
  | noRoom => some "capacity overflow"
  | overflow => some "attempt to add with overflow"
  | poisoned => some "called `Result::unwrap()` on an `Err` value: PoisonError \x7b .. \x7d"
  | censusInUse =>
    some "GroupingMap::clear() called while the map is in use by another thread"
  | groupLost group =>
    some ("group " ++ group ++
      " was removed from a sealed grouping map; was the map cleared while draining?")
  | registeredMidPhase phase arrived parties =>
    some (s!"cannot register a party on an arrival barrier in the middle of phase {phase} " ++
      s!"({arrived} of {parties} parties arrived)")
  | surplusArrival parties =>
    some s!"arrival barrier received more arrivals than its {parties} registered parties"
  | noParties => some "deregistering from an arrival barrier with no parties"
  | raised message => message

end Fault

end Muster
