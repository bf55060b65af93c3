import Muster.Grouper.Basic

/-!
# Grouper/Handles — several handles on a few groupers

A handle is a number. A grouper may have several handles, made from one another; what is counted
through one of them shows through all. A handle may also be made on a new grouper with the same
configuration.
-/

namespace Muster

/-- **Handles and the groupers behind them.** -/
structure Handles where
  groupers : Array Grouper
  /-- for each handle, the place of its grouper -/
  places : Array Nat

namespace Handles

/-- One handle on a new grouper. -/
def ofConfig (g : Config) : Except Fault Handles := do
  return { groupers := #[← Grouper.ofConfig g], places := #[0] }

/-- The place of a handle's grouper. -/
def place (hs : Handles) (i : Nat) : Nat := hs.places[i]?.getD 0

/-- The grouper behind a handle. -/
def grouper (hs : Handles) (i : Nat) : Grouper := hs.groupers[hs.place i]?.getD default

/-- **Do two handles stand for the same grouper?** -/
def shared (hs : Handles) (i j : Nat) : Bool := hs.place i = hs.place j

/-- **A call through a handle.** -/
def through {α : Type} (i : Nat) (call : Call Grouper α) : Call Handles α :=
  call.within (fun hs => hs.grouper i) fun g hs =>
    { hs with groupers := hs.groupers.setIfInBounds (hs.place i) g }

/-- Makes another handle on the same grouper. -/
def replicate (i : Nat) : Call Handles Nat := do
  let hs ← Call.read
  Call.write { hs with places := hs.places.push (hs.place i) }
  return hs.places.size

/-- Makes a handle on a new grouper with the same configuration. -/
def isolate (i : Nat) : Call Handles Nat := do
  let hs ← Call.read
  let g ← Call.ofExcept (hs.grouper i).isolated
  Call.write { groupers := hs.groupers.push g, places := hs.places.push hs.groupers.size }
  return hs.places.size

/-- The meters of all groupers together, with the number of keys that was published last. -/
def meters (hs : Handles) (distinctKeys : Nat) : Meters :=
  Meters.total (hs.groupers.toList.map fun g => g.census.meters) distinctKeys

end Handles

end Muster
