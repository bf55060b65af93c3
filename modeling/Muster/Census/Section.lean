import Muster.Call
import Muster.Census.Basic

/-!
# Census/Section — what is done under one lock

Threads that share a census interleave between critical sections, never inside one. Each
definition here is one section: what happens while a shard's lock, or the lock under which the
census is sealed, is taken once, or one change of a counter. The calls of a census are sequences
of sections.

Every section on a shard looks at the `sealed` mark again after it has the lock; that is what
makes the hand-off final. Whoever finds a lock poisoned breaks off.
-/

namespace Muster.Census

/-! ## Locks -/

/-- The shard at an index, locked. -/
def lockShard (i : Nat) : Call Census Shard := do
  let s ← Call.gets fun c => c.shard i
  if s.poisoned then Call.fail .poisoned
  return s

/-- **Runs a call while holding a shard.** If it breaks off, the shard is poisoned. -/
def holding {α : Type} (i : Nat) (call : Call Census α) : Call Census α := do
  Call.change fun c => c.modifyShard i fun s => { s with held := true }
  let r ← call.caught
  Call.change fun c => c.modifyShard i fun s => { s with held := false }
  match r with
  | .ok a => return a
  | .error e => do
    Call.change fun c => c.modifyShard i fun s => { s with poisoned := true }
    Call.fail e

/-- **Runs a call under the lock of the seal.** If it breaks off, that lock is poisoned. -/
def underSeal {α : Type} (call : Call Census α) : Call Census α := do
  if ← Call.gets Census.sealPoisoned then Call.fail .poisoned
  match ← call.caught with
  | .ok a => return a
  | .error e => do
    Call.change fun c => { c with sealPoisoned := true }
    Call.fail e

/-! ## Counting -/

/-- Counts an increment that came too late. -/
def refuseLate : Call Census Unit :=
  Call.change fun c => { c with meters.lateRecords := c.meters.lateRecords + 1 }

/-- What a look under the shared lock finds. -/
inductive Probe
  | late | counted | absent
  deriving DecidableEq, Repr

/-- **The shared section of an increment**: a key that is present is counted here. -/
def probe (k : Key) : Call Census Probe := do
  let i ← Call.gets fun c => c.slot k
  let s ← lockShard i
  if ← Call.gets Census.sealed then
    refuseLate
    return .late
  match s.find? k with
  | none => return .absent
  | some _ => do
    Call.change fun c => c.modifyShard i fun s => s.bump k
    return .counted

/-- How the exclusive section of an increment ends. -/
inductive Entry
  | late | counted | created
  deriving DecidableEq, Repr

/-- **What a caller supplies for a new key**: a call that is made while the key's shard is held, and
that answers with the record to retain. -/
abbrev Payload := Call Census (Option Record)

namespace Payload

/-- Nothing to retain. -/
def nothing : Payload := pure none

/-- A record to retain. -/
def record (r : Record) : Payload := pure (some r)

end Payload

/-- **The exclusive section of an increment**: a key that is still absent is inserted, with what the
payload answers. -/
def enter (k : Key) (payload : Payload) : Call Census Entry := do
  let i ← Call.gets fun c => c.slot k
  let s ← lockShard i
  if ← Call.gets Census.sealed then
    refuseLate
    return .late
  match s.find? k with
  | some _ => do
    Call.change fun c => c.modifyShard i fun s => s.bump k
    return .counted
  | none => do
    let retained ← holding i payload
    Call.change fun c => c.modifyShard i fun s => s.insert k retained
    Call.change fun c => { c with distinct := c.distinct + 1 }
    return .created

/-- **Accounts for an accepted increment**; says whether the cap is to be checked now. -/
def account : Call Census Bool := do
  Call.change fun c =>
    { c with
      processed := c.processed + 1
      meters.recordsProcessed := c.meters.recordsProcessed + 1 }
  Call.gets fun c => c.processed % c.limits.interval = 0

/-! ## Pruning -/

/-- **Prunes one shard**; the answer is how many keys went, or `none` if the census is sealed. -/
def pruneShard (threshold i : Nat) : Call Census (Option Nat) := do
  let s ← lockShard i
  if ← Call.gets Census.sealed then return none
  let left := s.prune threshold
  let removed := s.groups.length - left.groups.length
  Call.change fun c => c.modifyShard i fun s => s.prune threshold
  Call.change fun c => { c with distinct := c.distinct - removed }
  return some removed

/-- Meters and reports a pass of pruning. -/
def reportPrune (threshold removed : Nat) : Call Census Unit := do
  Call.change fun c =>
    { c with
      meters.prunePasses := c.meters.prunePasses + 1
      meters.prunedKeys := c.meters.prunedKeys + removed
      meters.distinctKeys := c.size }
  Call.note (.pruned removed threshold (← Call.gets Census.size))

/-! ## Sealing and clearing -/

/-- **Raises the mark**: from here on no section counts anything. -/
def raiseMark : Call Census Unit := Call.change fun c => { c with sealed := true }

/-- The keys of one shard, after every section on it that came before. -/
def snapshotShard (i : Nat) : Call Census (List Key) := do
  let s ← lockShard i
  return s.keys

/-- **Publishes the hand-off.** -/
def publish (keys : List Key) : Call Census Unit := do
  Call.note (.sealed keys.length)
  Call.change fun c =>
    { c with
      meters.seals := c.meters.seals + 1
      meters.distinctKeys := keys.length
      seals := c.seals + 1
      handOff := some { keys := keys.toArray } }

/-- Empties one shard, even a poisoned one, unless somebody holds it. -/
def clearShard (i : Nat) : Call Census Unit := do
  if ← Call.gets (fun c => (c.shard i).held) then Call.fail .censusInUse
  Call.change fun c => c.modifyShard i Shard.clear

/-- Back to the start, once the shards are empty. -/
def startOver : Call Census Unit :=
  Call.change fun c => { c with distinct := 0, processed := 0, handOff := none, sealed := false }

end Muster.Census
