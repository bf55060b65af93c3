import Muster.Census.Section

/-!
# Census/Calls — the calls of a census

Each call is a sequence of critical sections (`Census/Section`). Here they run without anything
between them, as they do when one thread uses the census alone.

* `Census.count` — counts an occurrence of a key.
* `Census.prune`, `Census.checkpoint` — the bound on distinct keys.
* `Census.trySeal`, `Census.take`, `Census.clear` — the cycle of a census.
-/

namespace Muster.Census

/-- The indices of the shards, in the order in which loops visit them. -/
def slots (c : Census) : List Nat := List.range c.shards.size

/-! ## Pruning -/

/-- Prunes the given shards; a sealed census ends the pass. -/
def pruneFrom (threshold : Nat) : List Nat → (removed : Nat) → Call Census Nat
  | [], removed => return removed
  | i :: is, removed => do
    match ← pruneShard threshold i with
    | none => return removed
    | some n => pruneFrom threshold is (removed + n)

/-- **Removes every key whose count is below a threshold**; the answer is how many went. A sealed
census keeps its keys. -/
def prune (threshold : Nat) : Call Census Nat := do
  let removed ← pruneFrom threshold (← Call.gets slots) 0
  reportPrune threshold removed
  return removed

/-- **Checks the cap** after an accepted increment, if it is time to. -/
def checkpoint : Call Census Unit := do
  if ← account then
    let limits ← Call.gets Census.limits
    match limits.cap with
    | none => return
    | some cap => do
      if cap < (← Call.gets Census.size) then
        let _ ← prune limits.threshold
        let size ← Call.gets Census.size
        if cap < size then Call.note (.overLimit size limits.threshold cap)

/-! ## Counting -/

/-- **Counts an occurrence of a key.** The answer is whether the key is new; only then is the
payload asked for. A sealed census counts nothing. -/
def count (k : Key) (payload : Payload) : Call Census Bool := do
  match ← probe k with
  | .late => return false
  | .counted => do
    checkpoint
    return false
  | .absent => do
    match ← enter k payload with
    | .late => return false
    | .counted => do
      checkpoint
      return false
    | .created => do
      checkpoint
      return true

/-- Counts several occurrences of a key; the answer is how often the key was new. -/
def countTimes (k : Key) : (times : Nat) → (created : Nat) → Call Census Nat
  | 0, created => return created
  | times + 1, created => do
    let new ← count k .nothing
    countTimes k times (if new then created + 1 else created)

/-- Counts one occurrence of each key; the answer is how many were new. -/
def countAll : List Key → (created : Nat) → Call Census Nat
  | [], created => return created
  | k :: ks, created => do
    let new ← count k .nothing
    countAll ks (if new then created + 1 else created)

/-! ## Looking up -/

/-- How often a key has been counted, if it is there. -/
def countOf (k : Key) : Call Census (Option Nat) := do
  let s ← lockShard (← Call.gets fun c => c.slot k)
  return (s.find? k).map Group.count

/-- The record retained with a key. -/
def retained (k : Key) : Call Census (Option Record) := do
  let s ← lockShard (← Call.gets fun c => c.slot k)
  return (s.find? k).bind Group.retained

/-! ## The cycle -/

/-- The keys of the given shards. -/
def snapshotFrom : List Nat → Call Census (List Key)
  | [] => return []
  | i :: is => do
    let keys ← snapshotShard i
    return keys ++ (← snapshotFrom is)

/-- **Seals the census**: the answer is whether this call did it. -/
def trySeal : Call Census Bool :=
  underSeal do
    if ← Call.gets (fun c => c.handOff.isSome) then return false
    raiseMark
    publish (← snapshotFrom (← Call.gets slots))
    return true

/-- Seals the census again and again; the answer is how many of the calls did it. -/
def sealTimes : (times : Nat) → (done : Nat) → Call Census Nat
  | 0, done => return done
  | times + 1, done => do
    let new ← trySeal
    sealTimes times (if new then done + 1 else done)

/-- **Takes the next key of the hand-off.** Without one, the caller looks again under the lock of
the seal and would wait there. -/
def take : Call Census (Taken Key) := do
  let c ← Call.read
  match c.handOff with
  | none => underSeal (return .waiting)
  | some h => do
    let (k, h) := h.take
    Call.write { c with handOff := some h }
    match k with
    | none => return .exhausted
    | some k => return .item k

/-- Takes the next key, but does not begin to wait on a census that is not marked as sealed. -/
def takeIfSealed : Call Census (Taken Key) := do
  if ← Call.gets Census.sealed then take else return .waiting

/-- Takes keys until there is none; at most `fuel` of them. -/
def takeRest : (fuel : Nat) → Call Census (Taken Key)
  | 0 => return .exhausted
  | fuel + 1 => do
    match ← takeIfSealed with
    | .item _ => takeRest fuel
    | t => return t

/-- **Takes all keys that are left.** The answer is never a key. -/
def takeAll : Call Census (Taken Key) := do
  takeRest ((← Call.gets Census.remaining).getD 0 + 1)

/-- Each of some readers takes all keys that are left to it: the first one takes them all, and
without readers they stay. -/
def takeByReaders : (readers : Nat) → Call Census Unit
  | 0 => return ()
  | readers + 1 => do
    let _ ← takeAll
    takeByReaders readers

/-- **Seals a census that readers wait for.** They take its keys once there is a hand-off. -/
def sealForReaders (readers : Nat) : Call Census Bool := do
  let new ← trySeal
  takeByReaders readers
  return new

/-- **Is there a hand-off?** No time passes here, so that a hand-off cannot appear while waiting. -/
def awaitSeal : Call Census Bool := do
  if ← Call.gets (fun c => c.handOff.isSome) then return true
  underSeal (return false)

/-- **Clears the census**, which then accumulates again. Shards are emptied one by one until one is
found in use. -/
def clear : Call Census Unit :=
  underSeal do
    Call.forEach clearShard (← Call.gets slots)
    startOver

namespace Payload

/-- A payload that gives up. -/
def raising (message : String) : Payload := Call.fail (.raised (some message))

/-- A payload that clears the census it is asked by. -/
def clearing : Payload := do
  clear
  return none

end Payload

end Muster.Census
