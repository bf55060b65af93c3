import Muster.Proofs.Census.Sections

/-!
# Proofs/Census/Fresh — censuses that have not begun

* `Census.Open` — a census that accumulates.
* `Census.Fresh` — one that has counted nothing yet, as every constructor makes it
  (`fresh_of_ofConfig`).
-/

namespace Muster.Census

variable {c d : Census} {g : Config}

/-- **A census that accumulates**: in order, without mark and hand-off. -/
structure Open (c : Census) : Prop where
  sound : c.Sound
  mark : c.sealed = false
  handOff : c.handOff = none

/-- **A census that has counted nothing yet.** -/
structure Fresh (c : Census) : Prop where
  shard (i : Nat) : c.shard i = {}
  distinct : c.distinct = 0
  processed : c.processed = 0
  mark : c.sealed = false
  handOff : c.handOff = none
  lock : c.sealPoisoned = false

namespace Fresh

theorem groups_eq_nil (h : c.Fresh) : c.groups = [] := by
  refine List.flatMap_eq_nil_iff.2 fun s hs => ?_
  obtain ⟨i, hi, rfl⟩ := List.getElem_of_mem hs
  have hi' : i < c.shards.size := by simpa using hi
  have hshard := h.shard i
  rw [shard_eq_getElem hi'] at hshard
  rw [Array.getElem_toList, hshard]

theorem sound (h : c.Fresh) : c.Sound where
  shard i := by
    rw [h.shard]
    exact Shard.sound_empty rfl rfl
  placed i g hg := by
    rw [h.shard] at hg
    exact absurd hg List.not_mem_nil
  distinct_eq := by rw [h.distinct, h.groups_eq_nil, List.length_nil]

theorem healthy (h : c.Fresh) : c.Healthy := ⟨fun i => by rw [h.shard], h.lock⟩

/-- **A census that has counted nothing accumulates.** -/
theorem isOpen (h : c.Fresh) : c.Open := ⟨h.sound, h.mark, h.handOff⟩

theorem find?_eq_none (h : c.Fresh) (k : Key) : c.find? k = none := by
  rw [find?, h.shard]
  rfl

end Fresh

/-- A census of one shard that has counted nothing. -/
def single (limits : Limits) : Census := { shards := #[{}], limits, shards_pos := Nat.one_pos }

theorem fresh_single (limits : Limits) : (single limits).Fresh := by
  refine ⟨fun i => ?_, rfl, rfl, rfl, rfl, rfl⟩
  match i with
  | 0 | i + 1 => rfl

/-- A small census that has counted nothing. -/
def pair (limits : Limits) : Census := { shards := #[{}, {}], limits, shards_pos := Nat.two_pos }

theorem fresh_pair (limits : Limits) : (pair limits).Fresh := by
  refine ⟨fun i => ?_, rfl, rfl, rfl, rfl, rfl⟩
  match i with
  | 0 | 1 | i + 2 => rfl

/-! ## Constructors -/

theorem fresh_of_ofShards {n : Nat} (h : ofShards n = .ok c) : c.Fresh := by
  unfold ofShards at h
  split at h
  · cases hroom : Room.reserve n Shard.width with
    | error e =>
      rw [hroom] at h
      cases h
    | ok u =>
      rw [hroom] at h
      obtain rfl := Except.ok.inj h
      refine ⟨fun i => ?_, rfl, rfl, rfl, rfl, rfl⟩
      by_cases hi : i < n
      · simp [shard, hi]
      · simp only [shard, Array.getElem?_replicate, hi, if_false]
        rfl
  · cases h

theorem Fresh.withCap (h : c.Fresh) (cap : Option Nat) (threshold : Nat) :
    (c.withCap cap threshold).Fresh :=
  ⟨h.shard, h.distinct, h.processed, h.mark, h.handOff, h.lock⟩

theorem Fresh.withInterval (h : c.Fresh) {interval : Nat} (hd : c.withInterval interval = .ok d) :
    d.Fresh := by
  unfold Census.withInterval at hd
  split at hd
  · obtain rfl := Except.ok.inj hd
    exact ⟨h.shard, h.distinct, h.processed, h.mark, h.handOff, h.lock⟩
  · cases hd

/-- **Every configured census begins with nothing.** -/
theorem fresh_of_ofConfig (h : ofConfig g = .ok c) : c.Fresh := by
  unfold ofConfig at h
  cases hs : ofShards g.shards.toNat with
  | error e =>
    rw [hs] at h
    cases h
  | ok d =>
    rw [hs] at h
    exact ((fresh_of_ofShards hs).withCap _ _).withInterval h

/-- **There is a census as configured if there is room for its shards.** -/
theorem exists_ofConfig_iff (hs : 0 < g.shards.toNat) (hi : 0 < g.checkpointInterval.toNat) :
    (∃ c, ofConfig g = .ok c) ↔ g.shards.toNat * Shard.width < Room.bound := by
  rw [← Room.reserve_eq_ok_iff, ofConfig, ofShards, dif_pos hs]
  cases Room.reserve g.shards.toNat Shard.width with
  | error e =>
    constructor
    · rintro ⟨c, hc⟩
      cases hc
    · intro h
      cases h
  | ok u => exact ⟨fun _ => rfl, fun _ => ⟨_, dif_pos hi⟩⟩

/-- A configured census has the configured cap. -/
theorem cap_of_ofConfig (h : ofConfig g = .ok c) : c.limits.cap = g.limit := by
  unfold ofConfig at h
  cases hs : ofShards g.shards.toNat with
  | error e =>
    rw [hs] at h
    cases h
  | ok d =>
    rw [hs] at h
    change withInterval _ _ = _ at h
    unfold withInterval at h
    split at h
    · rw [← Except.ok.inj h]
      rfl
    · cases h

/-- **A configured census has the configured shards**, and checks its cap in the configured
interval. -/
theorem shape_of_ofConfig (h : ofConfig g = .ok c) :
    c.shards.size = g.shards.toNat ∧ c.limits.interval = g.checkpointInterval.toNat := by
  unfold ofConfig ofShards at h
  split at h
  · cases hroom : Room.reserve g.shards.toNat Shard.width with
    | error e =>
      rw [hroom] at h
      cases h
    | ok u =>
      rw [hroom] at h
      change withInterval _ _ = _ at h
      unfold withInterval at h
      split at h
      · rw [← Except.ok.inj h]
        exact ⟨Array.size_replicate, rfl⟩
      · cases h
  · cases h

theorem unused_of_ofShards {n : Nat} (h : ofShards n = .ok c) : c.seals = 0 ∧ c.meters = {} := by
  unfold ofShards at h
  split at h
  · cases hroom : Room.reserve n Shard.width with
    | error e =>
      rw [hroom] at h
      cases h
    | ok u =>
      rw [hroom] at h
      obtain rfl := Except.ok.inj h
      exact ⟨rfl, rfl⟩
  · cases h

/-- Setting the bounds of a census uses nothing. -/
theorem unused_of_limits {cap : Option Nat} {threshold interval : Nat}
    (h : (c.withCap cap threshold).withInterval interval = .ok d) :
    d.seals = c.seals ∧ d.meters = c.meters := by
  unfold withInterval at h
  split at h
  · obtain rfl := Except.ok.inj h
    exact ⟨rfl, rfl⟩
  · cases h

/-- **A census that has just been configured** has never been sealed, and its meters show
nothing. -/
theorem unused_of_ofConfig (h : ofConfig g = .ok c) : c.seals = 0 ∧ c.meters = {} := by
  unfold ofConfig at h
  cases hs : ofShards g.shards.toNat with
  | error e =>
    rw [hs] at h
    cases h
  | ok d =>
    obtain ⟨hseals, hmeters⟩ := unused_of_ofShards hs
    rw [hs] at h
    obtain ⟨hseals', hmeters'⟩ := unused_of_limits (c := d) h
    exact ⟨hseals'.trans hseals, hmeters'.trans hmeters⟩

end Muster.Census
