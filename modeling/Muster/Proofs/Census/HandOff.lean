import Mathlib.Data.List.Perm.Basic
import Muster.Census.Calls
import Muster.Proofs.Census.Sections

/-!
# Proofs/Census/HandOff — the keys that are handed out are the keys that are there

A seal collects the keys shard by shard (`Census.keys`). Up to order these are the keys of all
groups (`keys_perm`), so a hand-off made of them lists every key of a sound census once:

* `Final.mem_iff` — a key is handed out exactly if it is there.
* `Final.differ` — no key is handed out twice.
* `Final.size_eq` — as many keys are handed out as the census counts.
-/

namespace Muster

namespace HandOff

@[simp] theorem keys_take (h : HandOff) : h.take.2.keys = h.keys := by
  unfold take
  split <;> rfl

/-- Only keys of the hand-off are handed out. -/
theorem mem_of_take {h : HandOff} {k : Key} (hk : h.take.1 = some k) : k ∈ h.keys := by
  by_cases hlt : h.next < h.keys.size
  · rw [take_of_lt hlt] at hk
    obtain rfl := Option.some.inj hk
    exact Array.getElem_mem hlt
  · rw [take_of_le (Nat.not_lt.1 hlt)] at hk
    exact absurd hk (by simp)

/-- **Taking a key claims it**, and leaves one key less. -/
theorem claimed_take {h : HandOff} {k : Key} (hk : h.take.1 = some k) :
    h.take.2.claimed = h.claimed ++ [k] ∧ h.remaining = h.take.2.remaining + 1 := by
  by_cases hlt : h.next < h.keys.size
  · rw [take_of_lt hlt] at hk ⊢
    obtain rfl := Option.some.inj hk
    refine ⟨?_, by simp only [remaining]; omega⟩
    simp [claimed, List.take_add_one, hlt]
  · rw [take_of_le (Nat.not_lt.1 hlt)] at hk
    exact absurd hk (by simp)

/-- Where no key is taken, none is left, and nothing changes. -/
theorem take_eq_self {h : HandOff} (hk : h.take.1 = none) : h.take.2 = h ∧ h.remaining = 0 := by
  by_cases hlt : h.next < h.keys.size
  · rw [take_of_lt hlt] at hk
    exact absurd hk (by simp)
  · rw [take_of_le (Nat.not_lt.1 hlt)]
    exact ⟨rfl, by simp only [remaining]; omega⟩

/-- **Where no key is left, all have been claimed.** -/
theorem claimed_of_remaining {h : HandOff} (hr : h.remaining = 0) : h.claimed = h.keys.toList := by
  refine List.take_of_length_le ?_
  rw [Array.length_toList]
  exact Nat.sub_eq_zero_iff_le.1 hr

end HandOff

namespace Census

variable {c d : Census} {h : HandOff}

/-- The keys of a census, in the order in which a seal collects them. -/
def keys (c : Census) : List Key := c.slots.flatMap fun i => (c.shard i).keys

/-- A census lists its shards. -/
theorem toList_shards (c : Census) : c.shards.toList = c.slots.map c.shard := by
  refine List.ext_getElem (by simp [slots]) fun i hi _ => ?_
  have hi' : i < c.shards.size := by simpa using hi
  simp [slots, shard_eq_getElem hi']

/-- **A seal collects the keys of all groups.** -/
theorem keys_perm (c : Census) : c.keys.Perm (c.groups.map Group.key) := by
  rw [groups, toList_shards, List.flatMap_map, List.map_flatMap]
  exact List.Perm.flatMap_left _ fun i _ => List.reverse_perm _

theorem keys_congr (hs : d.shards = c.shards) : d.keys = c.keys := by
  simp only [keys, slots, shard, hs]

theorem find?_congr_shards (hs : d.shards = c.shards) (k : Key) : d.find? k = c.find? k := by
  simp only [find?, slot, shard, hs]

/-- **The hand-off of a sealed census**: the keys that are there. -/
structure Final (c : Census) (h : HandOff) : Prop where
  mark : c.sealed = true
  keys_eq : h.keys.toList = c.keys

namespace Final

/-- **A key is handed out exactly if it is there.** -/
theorem mem_iff (hf : c.Final h) (hc : c.Sound) (k : Key) :
    (∃ l ∈ h.keys, l.same k = true) ↔ (c.find? k).isSome = true := by
  have hmem : ∀ l, l ∈ h.keys ↔ ∃ g ∈ c.groups, g.key = l := fun l => by
    rw [← Array.mem_toList_iff, hf.keys_eq, c.keys_perm.mem_iff, List.mem_map]
  rw [hc.find?_eq, List.find?_isSome]
  constructor
  · rintro ⟨l, hl, hlk⟩
    obtain ⟨g, hg, rfl⟩ := (hmem l).1 hl
    exact ⟨g, hg, hlk⟩
  · rintro ⟨g, hg, hgk⟩
    exact ⟨g.key, (hmem _).2 ⟨g, hg, rfl⟩, hgk⟩

/-- What is handed out is there. -/
theorem find?_of_mem (hf : c.Final h) (hc : c.Sound) {k : Key} (hk : k ∈ h.keys) :
    ∃ group, c.find? k = some group :=
  Option.isSome_iff_exists.1 ((hf.mem_iff hc k).1 ⟨k, hk, k.same_refl⟩)

/-- **No key is handed out twice.** -/
theorem differ (hf : c.Final h) (hc : c.Sound) :
    h.keys.toList.Pairwise fun k l => k.same l = false := by
  rw [hf.keys_eq, c.keys_perm.pairwise_iff fun hkl => (Key.same_comm _ _).trans hkl]
  exact List.pairwise_map.2 hc.differ

/-- **As many keys are handed out as the census counts.** -/
theorem size_eq (hf : c.Final h) (hc : c.Sound) : h.keys.size = c.size := by
  rw [← Array.length_toList, hf.keys_eq, c.keys_perm.length_eq, List.length_map, size,
    hc.distinct_eq]

/-- A hand-off stays final while the shards stay as they are and no key comes to it. -/
theorem congr {h' : HandOff} (hf : c.Final h) (hm : d.sealed = true) (hs : d.shards = c.shards)
    (hk : h'.keys = h.keys) : d.Final h' :=
  ⟨hm, by rw [hk, hf.keys_eq, keys_congr hs]⟩

end Final

/-- A census whose hand-off, if there is one, is final. -/
def HandsOff (c : Census) : Prop := ∀ h, c.handOff = some h → c.Final h

end Census

end Muster
