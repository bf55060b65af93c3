import Muster.Proofs.Census.Sound

/-!
# Proofs/Census/Changes — what may happen to a census at a time

The changes that the sections of a census make, each with what it does to the list of groups and
to a look-up:

* `Census.bumped` — a key that is there is counted (`Sound.find?_bumped`).
* `Census.inserted` — a key that is not there is entered (`Sound.find?_inserted`).
* `Census.prunedAt` — one shard loses its rare keys.

All of them keep a census sound, since each touches one shard and accounts for its keys
(`Sound.modify`).
-/

namespace Muster.Census

variable {c : Census}

/-! ## Changing one shard -/

theorem shard_modifyShard (c : Census) {i : Nat} (hi : i < c.shards.size) (f : Shard → Shard)
    (j : Nat) : (c.modifyShard i f).shard j = if i = j then f (c.shard j) else c.shard j := by
  split
  · rename_i h
    rw [← h, shard_modifyShard_self c f hi]
  · rename_i h
    exact shard_modifyShard_of_ne c f h

theorem modifyShard_modifyShard (c : Census) (i : Nat) (f g : Shard → Shard) :
    (c.modifyShard i f).modifyShard i g = c.modifyShard i fun s => g (f s) := by
  have h : (c.shards.modify i f).modify i g = c.shards.modify i fun s => g (f s) := by
    refine Array.ext (by simp) fun j hj _ => ?_
    simp only [Array.getElem_modify]
    split <;> rfl
  simp only [modifyShard, h]

/-- A change that changes nothing. -/
theorem modifyShard_eq_self {i : Nat} {f : Shard → Shard} (h : f (c.shard i) = c.shard i) :
    c.modifyShard i f = c := by
  have hs : c.shards.modify i f = c.shards := by
    refine Array.ext (by simp) fun j hj hj' => ?_
    rw [Array.getElem_modify]
    split
    · rename_i hij
      subst hij
      rwa [shard_eq_getElem hj'] at h
    · rfl
  simp only [modifyShard, hs]

theorem length_groups_modifyShard {i : Nat} (hi : i < c.shards.size) (f : Shard → Shard) :
    (c.modifyShard i f).groups.length + (c.shard i).groups.length =
      c.groups.length + (f (c.shard i)).groups.length := by
  obtain ⟨before, behind, hgroups, hmod, -⟩ := c.groups_around hi
  rw [hmod, hgroups]
  simp only [List.length_append]
  omega

/-- **Changing one shard keeps a census in order** if the shard stays in order, gets no key that
belongs elsewhere, and the number of keys is brought up to date. -/
theorem Sound.modify (h : c.Sound) {i : Nat} (hi : i < c.shards.size) {f : Shard → Shard}
    (hf : (f (c.shard i)).Sound) (hp : ∀ g ∈ (f (c.shard i)).groups, c.slot g.key = i) {n : Nat}
    (hn : n + (c.shard i).groups.length = c.distinct + (f (c.shard i)).groups.length) :
    ({ c.modifyShard i f with distinct := n } : Census).Sound where
  shard j := by
    show ((c.modifyShard i f).shard j).Sound
    rw [shard_modifyShard c hi]
    split
    · rename_i hij
      exact hij ▸ hf
    · exact h.shard j
  placed j g hg := by
    change g ∈ ((c.modifyShard i f).shard j).groups at hg
    show (c.modifyShard i f).slot g.key = j
    rw [shard_modifyShard c hi] at hg
    rw [slot_modifyShard]
    split at hg
    · rename_i hij
      subst hij
      exact hp g hg
    · exact h.placed j g hg
  distinct_eq := by
    have hlen := length_groups_modifyShard hi f
    have hd := h.distinct_eq
    show n = (c.modifyShard i f).groups.length
    omega

/-! ## Counting a key that is there -/

/-- The census after one more occurrence of a key that it holds. -/
def bumped (c : Census) (k : Key) : Census := c.modifyShard (c.slot k) fun s => s.bump k

theorem Sound.bumped (h : c.Sound) (k : Key) : (c.bumped k).Sound := by
  refine h.modify (f := fun s => s.bump k) (c.slot_lt k) ((h.shard _).bump k) (fun g hg => ?_) ?_
  · rw [Shard.groups_bump (h.shard _)] at hg
    obtain ⟨x, hx, rfl⟩ := List.mem_map.1 hg
    rw [Group.key_bumpIf]
    exact h.placed _ x hx
  · rw [Shard.groups_bump (h.shard _), List.length_map]

/-- **One more occurrence changes the group of the key alone.** -/
theorem Sound.groups_bumped (h : c.Sound) (k : Key) :
    (c.bumped k).groups = c.groups.map (Group.bumpIf k) := by
  obtain ⟨before, behind, hgroups, hmod, haround⟩ := c.groups_around (c.slot_lt k)
  have hid : ∀ gs : List Group, (∀ g ∈ gs, g ∈ before ∨ g ∈ behind) →
      gs.map (Group.bumpIf k) = gs := fun gs hgs => by
    refine Group.map_bumpIf_eq_self fun g hg => ?_
    obtain ⟨j, hj, hgj⟩ := haround g (hgs g hg)
    exact h.not_same_of_mem hj hgj
  rw [Census.bumped, hmod, hgroups, List.map_append, List.map_append,
    hid before fun g hg => Or.inl hg, hid behind fun g hg => Or.inr hg,
    Shard.groups_bump (h.shard _)]

theorem Sound.find?_bumped (h : c.Sound) (k l : Key) :
    (c.bumped k).find? l = (c.find? l).map (Group.bumpIf k) := by
  rw [(h.bumped k).find?_eq, h.groups_bumped, find?_map_bumpIf, ← h.find?_eq]

/-! ## Entering a key -/

/-- The census with a new key, and what is retained with it. -/
def inserted (c : Census) (k : Key) (retained : Option Record) : Census :=
  { c.modifyShard (c.slot k) (fun s => s.insert k retained) with distinct := c.distinct + 1 }

theorem Sound.inserted (h : c.Sound) {k : Key} (hk : c.find? k = none) (r : Option Record) :
    (c.inserted k r).Sound := by
  refine h.modify (f := fun s => s.insert k r) (c.slot_lt k) ((h.shard _).insert hk r)
    (fun g hg => ?_) ?_
  · rcases List.mem_cons.1 hg with rfl | hg
    · rfl
    · exact h.placed _ g hg
  · simp only [Shard.insert, List.length_cons]
    omega

theorem groups_inserted_perm (c : Census) (k : Key) (r : Option Record) :
    (c.inserted k r).groups.Perm ({ key := k, retained := r } :: c.groups) := by
  obtain ⟨before, behind, hgroups, hmod, -⟩ := c.groups_around (c.slot_lt k)
  have hins : (c.inserted k r).groups =
      before ++ ({ key := k, retained := r } :: (c.shard (c.slot k)).groups) ++ behind := hmod _
  rw [hins, hgroups, List.append_assoc, List.append_assoc, List.cons_append]
  exact List.perm_middle

/-- **A look-up after a key has been entered.** -/
theorem find?_inserted (c : Census) (k l : Key) (r : Option Record) :
    (c.inserted k r).find? l =
      if k.same l then some { key := k, retained := r } else c.find? l := by
  have hshard := shard_modifyShard c (c.slot_lt k) (fun s => s.insert k r) (c.slot l)
  have hfind : (c.inserted k r).find? l =
      ((c.modifyShard (c.slot k) fun s => s.insert k r).shard (c.slot l)).find? l := by
    show ((c.modifyShard _ _).shard ((c.modifyShard _ _).slot l)).find? l = _
    rw [slot_modifyShard]
  rw [hfind, hshard]
  by_cases hkl : k.same l = true
  · rw [if_pos (Sound.slot_eq_of_same hkl), if_pos hkl]
    simp [Shard.find?, Shard.insert, hkl]
  · rw [if_neg hkl]
    split
    · simp [Shard.find?, Shard.insert, hkl, Census.find?]
    · rfl

/-! ## Pruning a shard -/

/-- The census without the groups of one shard whose count is below a threshold. -/
def prunedAt (c : Census) (threshold i : Nat) : Census :=
  { c.modifyShard i (fun s => s.prune threshold) with
    distinct := c.distinct -
      ((c.shard i).groups.length - ((c.shard i).prune threshold).groups.length) }

theorem Sound.prunedAt (h : c.Sound) (threshold i : Nat) : (c.prunedAt threshold i).Sound := by
  by_cases hi : i < c.shards.size
  · have hle : ((c.shard i).prune threshold).groups.length ≤ (c.shard i).groups.length :=
      List.length_filter_le _ _
    have hlen := length_groups_modifyShard hi fun s => s.prune threshold
    have hd := h.distinct_eq
    refine h.modify (f := fun s => s.prune threshold) hi ((h.shard i).prune threshold)
      (fun g hg => ?_) (by omega)
    exact h.placed i g (List.mem_filter.1 hg).1
  · -- there is no such shard, hence nothing to prune
    refine h.congr ?_ ?_
    · show (c.modifyShard i fun s => s.prune threshold).shards = c.shards
      rw [modifyShard_of_le (Nat.not_lt.1 hi)]
    · show c.distinct - ((c.shard i).groups.length - _) = c.distinct
      rw [groups_shard_of_le (Nat.not_lt.1 hi)]
      simp

/-! ## Breaking off inside a shard -/

/-- The census after somebody broke off while holding a shard. -/
def poisonedAt (c : Census) (i : Nat) : Census :=
  c.modifyShard i fun s => { s with poisoned := true }

theorem Sound.poisonedAt (h : c.Sound) {i : Nat} (hi : i < c.shards.size) :
    (c.poisonedAt i).Sound :=
  h.modify (f := fun s => { s with poisoned := true }) (n := c.distinct) hi
    ⟨(h.shard i).differ, (h.shard i).counted, (h.shard i).free⟩ (h.placed i) rfl

/-! ## Changes beside the shards -/

/-- The census after an increment that came too late. -/
def refused (c : Census) : Census :=
  { c with meters.lateRecords := c.meters.lateRecords + 1 }

/-- The census after an accepted increment has been accounted for. -/
def accounted (c : Census) : Census :=
  { c with
    processed := c.processed + 1
    meters.recordsProcessed := c.meters.recordsProcessed + 1 }

/-- The census after a pass of pruning has been metered. -/
def reported (c : Census) (removed : Nat) : Census :=
  { c with
    meters.prunePasses := c.meters.prunePasses + 1
    meters.prunedKeys := c.meters.prunedKeys + removed
    meters.distinctKeys := c.size }

/-- The census with the mark that refuses increments. -/
def marked (c : Census) : Census := { c with sealed := true }

/-- The census with a hand-off. -/
def published (c : Census) (keys : List Key) : Census :=
  { c with
    meters.seals := c.meters.seals + 1
    meters.distinctKeys := keys.length
    seals := c.seals + 1
    handOff := some { keys := keys.toArray } }

end Muster.Census
