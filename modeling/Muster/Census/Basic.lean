import Muster.Config.Basic
import Muster.Fault
import Muster.Key
import Muster.Notice
import Muster.Room

/-!
# Census/Basic — a sharded count of keys

A census counts how often each key occurs. Its keys are spread over shards by fingerprint, each
shard behind a lock of its own. It accumulates until it is sealed; then its keys are handed out
from one sequence, the hand-off, each of them once: shard by shard, and in the order in which they
came to a shard. Clearing it makes it accumulate again.

What a census counts (the occurrences of a key, its keys, the increments, the seals, and the keys
that have been claimed) has no bound here. Each of these numbers stands for a word of 64 bits that
grows by one at a time, which no run goes on long enough to fill.

This module holds the state and what can be read off it without a lock.
-/

namespace Muster

/-! ## Shards -/

/-- **A counted key**, with the record that came with it when it was first counted, if one did. -/
structure Group where
  key : Key
  count : Nat := 1
  retained : Option Record := none

/-- **One shard**: its groups, whether somebody broke off while holding its lock, and whether
somebody holds it. -/
structure Shard where
  groups : List Group := []
  poisoned : Bool := false
  held : Bool := false

instance : Inhabited Shard := ⟨{}⟩

namespace Shard

/-- The bytes that a shard takes: two lines of a cache, so that no line is shared by two shards. -/
def width : Nat := 128

/-- The group of a key. -/
def find? (s : Shard) (k : Key) : Option Group := s.groups.find? (·.key.same k)

/-- The groups after one more occurrence of a key that is among them. -/
def bumped (k : Key) : List Group → List Group
  | [] => []
  | g :: gs => if g.key.same k then { g with count := g.count + 1 } :: gs else g :: bumped k gs

/-- The shard after one more occurrence of a key that it holds. -/
def bump (s : Shard) (k : Key) : Shard := { s with groups := bumped k s.groups }

/-- The shard with a new key. -/
def insert (s : Shard) (k : Key) (retained : Option Record) : Shard :=
  { s with groups := { key := k, retained := retained } :: s.groups }

/-- The shard without the groups whose count is below a threshold. -/
def prune (s : Shard) (threshold : Nat) : Shard :=
  { s with groups := s.groups.filter fun g => threshold ≤ g.count }

/-- The shard without any group. -/
def clear (s : Shard) : Shard := { s with groups := [] }

/-- The keys of the shard, the one that came first at the head. -/
def keys (s : Shard) : List Key := (s.groups.map Group.key).reverse

end Shard

/-! ## The hand-off -/

/-- **The keys of a sealed census**, and how many of them have been claimed. Callers that come too
late still move `next`, so that it may exceed the number of keys. -/
structure HandOff where
  keys : Array Key
  next : Nat := 0

namespace HandOff

/-- Have all keys been claimed? -/
def exhausted (h : HandOff) : Bool := h.keys.size ≤ h.next

/-- Claims the next index, whether or not there is a key at it. -/
def claim (h : HandOff) : Nat × HandOff := (h.next, { h with next := h.next + 1 })

/-- The key at an index. -/
def key? (h : HandOff) (i : Nat) : Option Key := h.keys[i]?

/-- **Takes the next key**: looks whether one is left, claims an index, and reads the key at it. -/
def take (h : HandOff) : Option Key × HandOff :=
  if h.exhausted then (none, h)
  else
    let (i, h) := h.claim
    (h.key? i, h)

/-- How many keys have not been claimed. -/
def remaining (h : HandOff) : Nat := h.keys.size - h.next

/-- The keys that have been claimed, in order. -/
def claimed (h : HandOff) : List Key := h.keys.toList.take h.next

/-- **Before the end, a taken key is the one at the next index.** -/
theorem take_of_lt {h : HandOff} (hlt : h.next < h.keys.size) :
    h.take = (some h.keys[h.next], { h with next := h.next + 1 }) := by
  have hx : h.exhausted = false := by simp [exhausted, hlt]
  simp [take, hx, claim, key?, hlt]

/-- **At the end, taking changes nothing.** -/
theorem take_of_le {h : HandOff} (hle : h.keys.size ≤ h.next) : h.take = (none, h) := by
  simp [take, exhausted, hle]

end HandOff

/-- **What asking for the next of several things answers.** -/
inductive Taken (α : Type)
  /-- it is not known yet what there is to take -/
  | waiting
  /-- all of them have been taken -/
  | exhausted
  | item (a : α)

/-! ## The census -/

/-- **The bounds of a census**: a cap on its distinct keys, the count below which keys are pruned
when the cap is exceeded, and after how many increments that is checked. -/
structure Limits where
  cap : Option Nat := none
  threshold : Nat := 2
  interval : Nat := 1000000
  interval_pos : 0 < interval := by decide

/-- **A census.** -/
structure Census where
  shards : Array Shard
  limits : Limits := {}
  /-- the number of keys, kept beside the shards -/
  distinct : Nat := 0
  /-- the increments accepted since the census was last empty by construction or clearing -/
  processed : Nat := 0
  /-- whether increments are refused -/
  sealed : Bool := false
  /-- the keys to hand out, once they are known -/
  handOff : Option HandOff := none
  /-- whether somebody broke off while holding the lock under which the census is sealed and
  cleared -/
  sealPoisoned : Bool := false
  /-- how often the census has been sealed -/
  seals : Nat := 0
  meters : Meters := {}
  shards_pos : 0 < shards.size

namespace Census

/-! ## Construction -/

instance : Inhabited Census := ⟨{ shards := #[{}], shards_pos := Nat.one_pos }⟩

/-- **An empty census** with some shards and no cap. There must be a shard, and room for all. -/
def ofShards (n : Nat) : Except Fault Census :=
  if h : 0 < n then do
    Room.reserve n Shard.width
    return { shards := Array.replicate n {}, shards_pos := by simpa using h }
  else .error (.zero (some "a grouping map needs at least one shard"))

/-- The census with another cap and threshold. -/
def withCap (c : Census) (cap : Option Nat) (threshold : Nat) : Census :=
  { c with limits := { c.limits with cap, threshold } }

/-- The census with another interval between checks of the cap. -/
def withInterval (c : Census) (interval : Nat) : Except Fault Census :=
  if h : 0 < interval then .ok { c with limits := { c.limits with interval, interval_pos := h } }
  else .error (.zero none)

/-- **An empty census as configured.** -/
def ofConfig (g : Config) : Except Fault Census := do
  let c ← ofShards g.shards.toNat
  (c.withCap g.limit g.pruneThreshold.toNat).withInterval g.checkpointInterval.toNat

/-! ## Shards of a census -/

/-- **The shard of a key**: the residue of its fingerprint. -/
def slot (c : Census) (k : Key) : Nat := k.fingerprint.toNat % c.shards.size

theorem slot_lt (c : Census) (k : Key) : c.slot k < c.shards.size := Nat.mod_lt _ c.shards_pos

/-- The shard at an index. -/
def shard (c : Census) (i : Nat) : Shard := c.shards[i]?.getD default

/-- The census with one shard changed. -/
def modifyShard (c : Census) (i : Nat) (f : Shard → Shard) : Census :=
  { c with shards := c.shards.modify i f, shards_pos := by simpa using c.shards_pos }

@[simp] theorem size_modifyShard (c : Census) (i : Nat) (f : Shard → Shard) :
    (c.modifyShard i f).shards.size = c.shards.size := Array.size_modify

@[simp] theorem slot_modifyShard (c : Census) (i : Nat) (f : Shard → Shard) (k : Key) :
    (c.modifyShard i f).slot k = c.slot k := by
  simp [slot]

theorem shard_modifyShard_self (c : Census) {i : Nat} (f : Shard → Shard) (h : i < c.shards.size) :
    (c.modifyShard i f).shard i = f (c.shard i) := by
  simp [shard, modifyShard, Array.getElem_modify, h]

/-- **Changing one shard leaves the others as they are.** -/
theorem shard_modifyShard_of_ne (c : Census) {i j : Nat} (f : Shard → Shard) (h : i ≠ j) :
    (c.modifyShard i f).shard j = c.shard j := by
  simp [shard, modifyShard, Array.getElem?_modify, h]

/-- Everything that is counted, shard by shard. -/
def groups (c : Census) : List Group := c.shards.toList.flatMap Shard.groups

/-- The group of a key. -/
def find? (c : Census) (k : Key) : Option Group := (c.shard (c.slot k)).find? k

/-! ## Readings that need no lock -/

/-- The number of keys. -/
def size (c : Census) : Nat := c.distinct

/-- The number of keys not yet handed out, once there is a hand-off. -/
def remaining (c : Census) : Option Nat := c.handOff.map HandOff.remaining

/-- The keys that have been handed out. -/
def handedOut (c : Census) : List Key :=
  match c.handOff with
  | none => []
  | some h => h.claimed

/-- A census in one line. -/
def describe (c : Census) : String :=
  let cap := match c.limits.cap with
    | none => "None"
    | some n => s!"Some({n})"
  "GroupingMap \x7b " ++
    s!"shards: {c.shards.size}, size: {c.size}, processed: {c.processed}, max_types: {cap}, " ++
    s!"prune_threshold: {c.limits.threshold}, sealed: {c.sealed}" ++ " \x7d"

end Census

end Muster
