import Muster.Census.Calls

/-!
# Grouper/Basic — records in, groups out

A grouper counts records by their key and hands each group out as one record: the first record of
the group or only its key fields, as configured, with the number of its records if that is asked
for.

* `Grouper.output` — how a group becomes a record.
* `Grouper.count`, `Grouper.next` — the two ends.
-/

namespace Muster

/-- **A grouper**: a configuration, and a census of the keys that it makes of records. -/
structure Grouper where
  config : Config
  census : Census
  deriving Inhabited

namespace Grouper

/-- A new grouper. -/
def ofConfig (g : Config) : Except Fault Grouper := do
  return { config := g, census := ← Census.ofConfig g }

/-- **A grouper with the same configuration and a census of its own.** -/
def isolated (g : Grouper) : Except Fault Grouper := ofConfig g.config

/-- A call on the census of a grouper. -/
def onCensus {α : Type} (call : Call Census α) : Call Grouper α :=
  call.within Grouper.census fun c g => { g with census := c }

/-! ## Counting -/

/-- The key of a record. -/
def keyOf (g : Grouper) (r : Record) : Key := Key.project g.config.keyFields r

/-- What is retained of the first record of a group. -/
def payload (g : Grouper) (r : Record) : Census.Payload :=
  if g.config.retainOthers then .record r else .nothing

/-- **Counts a record**; the answer is whether it opens a group. -/
def count (r : Record) : Call Grouper Bool := do
  let g ← Call.read
  onCensus (Census.count (g.keyOf r) (g.payload r))

/-- Counts a record several times; the answer is how often it opened a group. -/
def countTimes (r : Record) : (times : Nat) → (opened : Nat) → Call Grouper Nat
  | 0, opened => return opened
  | times + 1, opened => do
    let new ← count r
    countTimes r times (if new then opened + 1 else opened)

/-- How many records of the group of a record have been counted. -/
def countOf (r : Record) : Call Grouper (Option Nat) := do
  let g ← Call.read
  onCensus (Census.countOf (g.keyOf r))

/-- What is retained for the group of a record. -/
def retained (r : Record) : Call Grouper (Option Record) := do
  let g ← Call.read
  onCensus (Census.retained (g.keyOf r))

/-! ## Handing out -/

/-- **The record that stands for a group**, given what the census holds for its key. A configured
count must be there. -/
def output (g : Config) (k : Key) (retained : Option Record) (count : Option Nat) :
    Except Fault Record :=
  let r := if g.retainOthers then retained.getD k.record else k.record
  if g.withCount then
    match count with
    | none => .error (.groupLost k.display)
    | some n => .ok (r.add countField (.int (Int64.ofNat n)))
  else .ok r

/-- Looks up what the configuration asks for, and makes the record of a group. -/
def render (k : Key) : Call Grouper Record := do
  let g ← Call.read
  let retained ← if g.config.retainOthers then onCensus (Census.retained k) else pure none
  let count ← if g.config.withCount then onCensus (Census.countOf k) else pure none
  Call.ofExcept (output g.config k retained count)

/-- **Hands out the next group.** -/
def next : Call Grouper (Taken Record) := do
  match ← onCensus Census.take with
  | .waiting => return .waiting
  | .exhausted => return .exhausted
  | .item k => return .item (← render k)

/-- Hands out the next group, but does not begin to wait on a census that is not marked as
sealed. -/
def nextIfSealed : Call Grouper (Taken Record) := do
  let g ← Call.read
  if g.census.sealed then next else return .waiting

/-- Hands out groups until there is none; at most `fuel` of them. -/
def nextRest : (fuel : Nat) → Call Grouper (Taken Record)
  | 0 => return .exhausted
  | fuel + 1 => do
    match ← nextIfSealed with
    | .item _ => nextRest fuel
    | t => return t

/-- **Hands out all groups that are left.** The answer is never a group. -/
def nextAll : Call Grouper (Taken Record) := do
  let g ← Call.read
  nextRest (g.census.remaining.getD 0 + 1)

/-- **The groups that have been handed out** since the census was last cleared, in order. -/
def delivered (g : Grouper) : List Record :=
  g.census.handedOut.filterMap fun k =>
    let group := g.census.find? k
    match output g.config k (group.bind Group.retained) (group.map Group.count) with
    | .ok r => some r
    | .error _ => none

/-! ## The cycle -/

/-- Seals the census; the answer is whether this call did it. -/
def finish : Call Grouper Bool := onCensus Census.trySeal

/-- Is the census sealed? -/
def awaitFinish : Call Grouper Bool := onCensus Census.awaitSeal

/-- Clears the census. -/
def reset : Call Grouper Unit := onCensus Census.clear

/-- Prunes the census. -/
def prune (threshold : Nat) : Call Grouper Nat := onCensus (Census.prune threshold)

end Grouper

end Muster
