import Muster.Proofs.Census.Fresh
import Muster.Proofs.Census.HandOff
import Muster.Proofs.Census.Steady

/-!
# Proofs/Census/Sweeping — passes over all shards

Pruning and clearing go from shard to shard and do to each of them what need not be done twice. A
pass over all shards therefore does it to the census as a whole (`groups_swept`):

* `run_prune` — the groups with a low count go, wherever they lie, and are counted.
* `clear_cases` — clearing stops at the first shard with somebody inside.
* `run_clear` — what is left is a census that has counted nothing (`Sound.fresh_cleared`).
-/

namespace Muster.Census

variable {c d : Census}

/-! ## From shard to shard -/

theorem mem_slots {i : Nat} : i ∈ c.slots ↔ i < c.shards.size := List.mem_range

/-- The shards before a shard, that shard, and the shards behind it. -/
theorem exists_slots_eq (c : Census) {i : Nat} (hi : i < c.shards.size) :
    ∃ js, c.slots = List.range i ++ i :: js := by
  have hlt : i < c.slots.length := by simpa [slots] using hi
  have htake : c.slots.take i = List.range i := by
    rw [slots, List.take_range, Nat.min_eq_left (Nat.le_of_lt hi)]
  have hdrop : c.slots.drop i = i :: c.slots.drop (i + 1) := by
    rw [List.drop_eq_getElem_cons hlt]
    simp [slots]
  refine ⟨c.slots.drop (i + 1), ?_⟩
  rw [← htake, ← hdrop, List.take_append_drop]

section Sweep

variable {f : Shard → Shard} {g : Census → Nat → Census}

/-- **After a pass each shard that was visited is changed**, once or more often. -/
theorem shard_foldl (hf : ∀ s, f (f s) = f s)
    (hg : ∀ c i j, (g c i).shard j = if i = j then f (c.shard j) else c.shard j) (is : List Nat)
    (c : Census) (j : Nat) :
    (is.foldl g c).shard j = if j ∈ is then f (c.shard j) else c.shard j := by
  induction is generalizing c with
  | nil => simp
  | cons i is ih =>
    rw [List.foldl_cons, ih, hg]
    by_cases hij : i = j
    · simp [hij, hf]
    · simp [hij, Ne.symm hij]

/-- **A change of every shard**, read in the list of all groups. -/
theorem groups_swept (hs : d.shards.size = c.shards.size)
    (h : ∀ i, i < c.shards.size → d.shard i = f (c.shard i)) :
    d.groups = c.slots.flatMap fun i => (f (c.shard i)).groups := by
  rw [groups, toList_shards, List.flatMap_map, slots, hs]
  refine List.flatMap_congr fun i hi => ?_
  rw [h i (mem_slots.1 hi)]

end Sweep

/-- A change of a shard that leaves a shard without groups as it is. -/
theorem shard_modifyShard_of_default {f : Shard → Shard} (hf : f default = default) (c : Census)
    (i j : Nat) : (c.modifyShard i f).shard j = if i = j then f (c.shard j) else c.shard j := by
  by_cases hi : i < c.shards.size
  · exact shard_modifyShard c hi f j
  · rw [modifyShard_of_le (Nat.not_lt.1 hi)]
    split
    · rename_i hij
      subst hij
      rw [shard_of_le (Nat.not_lt.1 hi), hf]
    · rfl

/-! ## Pruning -/

/-- The census after some shards have been pruned, one after the other. -/
def prunedOver (c : Census) (threshold : Nat) (is : List Nat) : Census :=
  is.foldl (fun c i => c.prunedAt threshold i) c

/-- **The census after a pass of pruning**, without the groups whose count is below a threshold. A
sealed census keeps them. -/
def pruned (c : Census) (threshold : Nat) : Census :=
  if c.sealed then c else c.prunedOver threshold c.slots

/-- How many keys go in a pass of pruning. -/
def rare (c : Census) (threshold : Nat) : Nat :=
  if c.sealed then 0 else c.groups.countP fun g => g.count < threshold

/-- Pruning changes the shards and their number of keys, and nothing else. -/
theorem prunedOver_eq (c : Census) (threshold : Nat) (is : List Nat) :
    ∃ shards distinct h, c.prunedOver threshold is =
      { c with shards, distinct, shards_pos := h } := by
  induction is generalizing c with
  | nil => exact ⟨_, _, c.shards_pos, rfl⟩
  | cons i is ih =>
    obtain ⟨shards, distinct, h, heq⟩ := ih (c.prunedAt threshold i)
    exact ⟨shards, distinct, h, heq⟩

theorem Sound.prunedOver (hc : c.Sound) (threshold : Nat) (is : List Nat) :
    (c.prunedOver threshold is).Sound := by
  induction is generalizing c with
  | nil => exact hc
  | cons i is ih => exact ih (hc.prunedAt threshold i)

theorem Healthy.prunedOver (hh : c.Healthy) (threshold : Nat) (is : List Nat) :
    (c.prunedOver threshold is).Healthy := by
  induction is generalizing c with
  | nil => exact hh
  | cons i is ih => exact ih (hh.prunedAt threshold i)

theorem size_prunedOver (c : Census) (threshold : Nat) (is : List Nat) :
    (c.prunedOver threshold is).shards.size = c.shards.size := by
  induction is generalizing c with
  | nil => rfl
  | cons i is ih => exact (ih (c.prunedAt threshold i)).trans (size_modifyShard ..)

theorem shard_prunedOver (c : Census) (threshold : Nat) (is : List Nat) (j : Nat) :
    (c.prunedOver threshold is).shard j =
      if j ∈ is then (c.shard j).prune threshold else c.shard j := by
  have hg : ∀ (c : Census) (i j : Nat), (c.prunedAt threshold i).shard j =
      if i = j then (c.shard j).prune threshold else c.shard j := fun c i j =>
    shard_modifyShard_of_default (f := fun s => s.prune threshold) rfl c i j
  exact shard_foldl (f := fun s => s.prune threshold) (fun s => by simp [Shard.prune]) hg is c j

/-- Pruning a shard takes as many groups as the shard loses. -/
theorem length_groups_prunedAt (c : Census) (threshold i : Nat) :
    (c.prunedAt threshold i).groups.length +
      ((c.shard i).groups.length - ((c.shard i).prune threshold).groups.length) =
        c.groups.length := by
  have hle : ((c.shard i).prune threshold).groups.length ≤ (c.shard i).groups.length :=
    List.length_filter_le _ _
  have hmod : (c.prunedAt threshold i).groups =
      (c.modifyShard i fun s => s.prune threshold).groups := rfl
  by_cases hi : i < c.shards.size
  · have hlen := length_groups_modifyShard hi fun s => s.prune threshold
    rw [hmod]
    omega
  · rw [hmod, modifyShard_of_le (Nat.not_lt.1 hi), groups_shard_of_le (Nat.not_lt.1 hi)]
    simp

theorem length_groups_prunedOver_le (c : Census) (threshold : Nat) (is : List Nat) :
    (c.prunedOver threshold is).groups.length ≤ c.groups.length := by
  induction is generalizing c with
  | nil => exact Nat.le_refl _
  | cons i is ih =>
    have hat := length_groups_prunedAt c threshold i
    have hrest := ih (c.prunedAt threshold i)
    show ((c.prunedAt threshold i).prunedOver threshold is).groups.length ≤ _
    omega

/-- **A pass over all shards takes the groups whose count is below the threshold.** -/
theorem groups_prunedOver_slots (c : Census) (threshold : Nat) :
    (c.prunedOver threshold c.slots).groups = c.groups.filter fun g => threshold ≤ g.count := by
  have hshard : ∀ i, i < c.shards.size →
      (c.prunedOver threshold c.slots).shard i = (c.shard i).prune threshold := fun i hi => by
    rw [shard_prunedOver, if_pos (mem_slots.2 hi)]
  rw [groups_swept (f := fun s => s.prune threshold) (size_prunedOver ..) hshard, groups,
    toList_shards, List.flatMap_map, List.filter_flatMap]
  rfl

/-- A pass of pruning changes the shards and their number of keys, and nothing else. -/
theorem pruned_eq (c : Census) (threshold : Nat) :
    ∃ shards distinct h, c.pruned threshold = { c with shards, distinct, shards_pos := h } := by
  unfold pruned
  split
  · exact ⟨_, _, c.shards_pos, rfl⟩
  · exact c.prunedOver_eq threshold c.slots

theorem Sound.pruned (hc : c.Sound) (threshold : Nat) : (c.pruned threshold).Sound := by
  unfold Census.pruned
  split
  · exact hc
  · exact hc.prunedOver threshold c.slots

theorem Healthy.pruned (hh : c.Healthy) (threshold : Nat) : (c.pruned threshold).Healthy := by
  unfold Census.pruned
  split
  · exact hh
  · exact hh.prunedOver threshold c.slots

/-- **A pass of pruning takes the groups with a low count from an open census.** -/
theorem groups_pruned (ho : c.sealed = false) (threshold : Nat) :
    (c.pruned threshold).groups = c.groups.filter fun g => threshold ≤ g.count := by
  rw [pruned, ho]
  exact c.groups_prunedOver_slots threshold

/-- **A pass of pruning forgets the keys with a low count.** -/
theorem find?_pruned (hc : c.Sound) (ho : c.sealed = false) (threshold : Nat) (k : Key) :
    (c.pruned threshold).find? k = (c.find? k).filter fun g => threshold ≤ g.count := by
  rw [(hc.pruned threshold).find?_eq, groups_pruned ho, hc.differ.find?_filter, ← hc.find?_eq]

/-- Pruning an open census from shard to shard. -/
theorem run_pruneFrom (threshold : Nat) : ∀ (is : List Nat) (removed : Nat) {c : Census},
    c.Healthy → c.sealed = false → (pruneFrom threshold is removed).run c =
      ⟨.ok (removed + (c.groups.length - (c.prunedOver threshold is).groups.length)),
        c.prunedOver threshold is, []⟩
  | [], removed, c, _, _ => by simp [pruneFrom, prunedOver]
  | i :: is, removed, c, hh, ho => by
    have hat := length_groups_prunedAt c threshold i
    have hrest := length_groups_prunedOver_le (c.prunedAt threshold i) threshold is
    have hrun := run_pruneFrom threshold is
      (removed + ((c.shard i).groups.length - ((c.shard i).prune threshold).groups.length))
      (hh.prunedAt threshold i) ho
    have hover : c.prunedOver threshold (i :: is) =
        (c.prunedAt threshold i).prunedOver threshold is := rfl
    rw [pruneFrom, Call.run_bind, run_pruneShard, hh.shard, ho]
    simp only [Bool.false_eq_true, if_false]
    rw [hrun, hover]
    refine Outcome.ext (congrArg Except.ok ?_) rfl rfl
    omega

/-- A sealed census ends a pass of pruning before it has taken anything. -/
theorem run_pruneFrom_of_sealed (hh : c.Healthy) (hs : c.sealed = true) (threshold : Nat) :
    ∀ (is : List Nat) (removed : Nat),
      (pruneFrom threshold is removed).run c = ⟨.ok removed, c, []⟩
  | [], _ => rfl
  | i :: _, removed => by simp [pruneFrom, Call.run_bind, run_pruneShard, hh.shard, hs]

/-- A poisoned shard among those to visit ends a pass of pruning, when the shards before it have
been pruned. -/
theorem run_pruneFrom_of_poisoned (threshold : Nat) {i : Nat} : ∀ (is : List Nat) (removed : Nat)
    {c : Census}, c.sealed = false → i ∈ is → (c.shard i).poisoned = true →
      ((pruneFrom threshold is removed).run c).result = .error .poisoned
  | j :: is, removed, c, ho, hi, hp => by
    rw [pruneFrom, Call.run_bind, run_pruneShard, ho]
    by_cases hj : (c.shard j).poisoned = true
    · rw [if_pos hj]
    · have his : i ∈ is := (List.mem_cons.1 hi).resolve_left fun hij => hj (hij ▸ hp)
      have hp' : ((c.prunedAt threshold j).shard i).poisoned = true := by
        have hshard := c.shard_prunedOver threshold [j] i
        rw [show (c.prunedAt threshold j).shard i = _ from hshard]
        split <;> exact hp
      simp only [hj, Bool.false_eq_true, if_false]
      exact run_pruneFrom_of_poisoned threshold is _ ho his hp'

/-- **A poisoned shard breaks off the pruning of an open census.** -/
theorem run_prune_of_poisoned (ho : c.sealed = false) {i : Nat} (hi : (c.shard i).poisoned = true)
    (threshold : Nat) : ((prune threshold).run c).result = .error .poisoned := by
  have hstop := run_pruneFrom_of_poisoned threshold c.slots 0 ho
    (mem_slots.2 (lt_of_poisoned hi)) hi
  rcases hrun : (pruneFrom threshold c.slots 0).run c with ⟨r, d, ns⟩
  rw [hrun] at hstop
  obtain rfl : r = .error .poisoned := hstop
  rw [prune, Call.run_bind_ok (Call.run_gets _ _), Call.run_bind_error hrun]

/-- **A pass of pruning takes the groups with a low count from an open census, and counts them.** -/
theorem run_prune (hh : c.Healthy) (threshold : Nat) :
    (prune threshold).run c =
      ⟨.ok (c.rare threshold), (c.pruned threshold).reported (c.rare threshold),
        [.pruned (c.rare threshold) threshold (c.pruned threshold).size]⟩ := by
  have hfrom : (pruneFrom threshold c.slots 0).run c =
      ⟨.ok (c.rare threshold), c.pruned threshold, []⟩ := by
    cases ho : c.sealed with
    | true =>
      rw [run_pruneFrom_of_sealed hh ho, pruned, rare, ho]
      rfl
    | false =>
      have hrare : c.groups.length - (c.groups.filter fun g => threshold ≤ g.count).length =
          c.groups.countP fun g => g.count < threshold := by
        have hsplit := c.groups.length_eq_countP_add_countP fun g => threshold ≤ g.count
        rw [← List.countP_eq_length_filter]
        simp only [decide_eq_true_eq, Nat.not_le] at hsplit
        omega
      rw [run_pruneFrom threshold c.slots 0 hh ho, groups_prunedOver_slots, hrare, pruned, rare, ho,
        Nat.zero_add]
      rfl
  rw [prune, Call.run_bind_ok (Call.run_gets _ _), Call.run_bind_ok hfrom,
    Call.run_bind_ok (run_reportPrune ..)]
  rfl

/-! ## Clearing -/

/-- The census after some shards have been emptied. -/
def emptied (c : Census) (is : List Nat) : Census :=
  is.foldl (fun c i => c.modifyShard i Shard.clear) c

/-- **The census after it has been cleared.** -/
def cleared (c : Census) : Census :=
  { c.emptied c.slots with distinct := 0, processed := 0, handOff := none, sealed := false }

theorem shard_emptied (c : Census) (is : List Nat) (j : Nat) :
    (c.emptied is).shard j = if j ∈ is then (c.shard j).clear else c.shard j :=
  shard_foldl (f := Shard.clear) (fun _ => rfl)
    (fun c i j => shard_modifyShard_of_default (f := Shard.clear) rfl c i j) is c j

theorem size_emptied (c : Census) (is : List Nat) :
    (c.emptied is).shards.size = c.shards.size := by
  induction is generalizing c with
  | nil => rfl
  | cons i is ih => exact (ih (c.modifyShard i Shard.clear)).trans (size_modifyShard ..)

/-- Emptying shards changes nothing else. -/
theorem emptied_eq (c : Census) (is : List Nat) :
    ∃ shards h, c.emptied is = { c with shards, shards_pos := h } := by
  induction is generalizing c with
  | nil => exact ⟨_, c.shards_pos, rfl⟩
  | cons i is ih =>
    obtain ⟨shards, h, heq⟩ := ih (c.modifyShard i Shard.clear)
    exact ⟨shards, h, heq⟩

/-- Emptying shards takes nobody out of a shard. -/
theorem held_emptied (c : Census) (is : List Nat) (i : Nat) :
    ((c.emptied is).shard i).held = (c.shard i).held := by
  rw [shard_emptied]
  split <;> rfl

/-- Emptying shards in which nobody is inside. -/
theorem run_forEach_clearShard (is : List Nat) {c : Census}
    (hfree : ∀ i ∈ is, (c.shard i).held = false) :
    (Call.forEach clearShard is).run c = ⟨.ok (), c.emptied is, []⟩ := by
  induction is generalizing c with
  | nil => rfl
  | cons i is ih =>
    have hclear : (clearShard i).run c = ⟨.ok (), c.modifyShard i Shard.clear, []⟩ := by
      rw [run_clearShard, hfree i List.mem_cons_self]
      rfl
    have hrest := ih (c := c.modifyShard i Shard.clear) fun j hj =>
      (c.held_emptied [i] j).trans (hfree j (List.mem_cons_of_mem i hj))
    rw [Call.forEach, Call.run_bind_ok hclear, hrest]
    rfl

/-- **A shard with somebody inside ends the pass**, when the shards before it have been emptied. -/
theorem run_forEach_clearShard_of_held (is js : List Nat) {i : Nat}
    (hfree : ∀ j ∈ is, (c.shard j).held = false) (hi : (c.shard i).held = true) :
    (Call.forEach clearShard (is ++ i :: js)).run c = ⟨.error .censusInUse, c.emptied is, []⟩ := by
  have hstop : (clearShard i).run (c.emptied is) = ⟨.error .censusInUse, c.emptied is, []⟩ := by
    rw [run_clearShard, held_emptied, hi]
    rfl
  rw [Call.forEach_append, Call.run_bind_ok (run_forEach_clearShard is hfree), Call.forEach,
    Call.run_bind_error hstop]
  rfl

/-- Nobody is inside, or there is a first shard with somebody inside. -/
theorem free_or_first_held (c : Census) : (∀ i, (c.shard i).held = false) ∨
    ∃ i < c.shards.size, (c.shard i).held = true ∧ ∀ j < i, (c.shard j).held = false := by
  cases hfind : c.slots.find? fun i => (c.shard i).held with
  | none =>
    refine .inl fun i => ?_
    by_cases hi : i < c.shards.size
    · simpa using List.find?_range_eq_none.1 hfind i hi
    · rw [shard_of_le (Nat.not_lt.1 hi)]
      rfl
  | some i =>
    obtain ⟨hi, hmem, hbefore⟩ := List.find?_range_eq_some.1 hfind
    exact .inr ⟨i, List.mem_range.1 hmem, hi, by simpa using hbefore⟩

theorem run_clear_of_free (hlock : c.sealPoisoned = false) (hfree : ∀ i, (c.shard i).held = false) :
    clear.run c = ⟨.ok (), c.cleared, []⟩ := by
  have hall := run_forEach_clearShard c.slots fun i _ => hfree i
  simp [clear, run_underSeal, Call.run_bind, hlock, hall, startOver, cleared]

theorem run_clear_of_held (hlock : c.sealPoisoned = false) {i : Nat} (hlt : i < c.shards.size)
    (hi : (c.shard i).held = true) (hbefore : ∀ j < i, (c.shard j).held = false) :
    clear.run c =
      ⟨.error .censusInUse, { c.emptied (List.range i) with sealPoisoned := true }, []⟩ := by
  obtain ⟨js, hslots⟩ := c.exists_slots_eq hlt
  have hstop := run_forEach_clearShard_of_held (List.range i) js
    (fun j hj => hbefore j (List.mem_range.1 hj)) hi
  simp [clear, run_underSeal, Call.run_bind, hlock, hslots, hstop]

/-- **What clearing can come to.** It breaks off at the lock of the seal, or at the first shard with
somebody inside; otherwise the census is cleared. -/
theorem clear_cases (c : Census) :
    (c.sealPoisoned = true ∧ clear.run c = ⟨.error .poisoned, c, []⟩) ∨
    (c.sealPoisoned = false ∧ (∀ i, (c.shard i).held = false) ∧
      clear.run c = ⟨.ok (), c.cleared, []⟩) ∨
    ∃ i, (c.shard i).held = true ∧ (∀ j < i, (c.shard j).held = false) ∧
      c.sealPoisoned = false ∧ clear.run c =
        ⟨.error .censusInUse, { c.emptied (List.range i) with sealPoisoned := true }, []⟩ := by
  cases hlock : c.sealPoisoned with
  | true =>
    refine .inl ⟨rfl, ?_⟩
    rw [clear, run_underSeal, hlock]
    rfl
  | false =>
    obtain hfree | ⟨i, hlt, hi, hbefore⟩ := c.free_or_first_held
    · exact .inr (.inl ⟨rfl, hfree, run_clear_of_free hlock hfree⟩)
    · exact .inr (.inr ⟨i, hi, hbefore, rfl, run_clear_of_held hlock hlt hi hbefore⟩)

/-- **A census in which nobody is inside is cleared.** -/
theorem run_clear (hc : c.Sound) (hh : c.Healthy) : clear.run c = ⟨.ok (), c.cleared, []⟩ :=
  run_clear_of_free hh.lock fun i => (hc.shard i).free

/-- **Clearing empties every shard**, and leaves it as it is otherwise. -/
theorem shard_cleared (c : Census) (i : Nat) : c.cleared.shard i = (c.shard i).clear := by
  show (c.emptied c.slots).shard i = _
  by_cases hi : i < c.shards.size
  · rw [shard_emptied, if_pos (mem_slots.2 hi)]
  · rw [shard_emptied, if_neg (mt mem_slots.1 hi), shard_of_le (Nat.not_lt.1 hi)]
    rfl

theorem size_cleared (c : Census) : c.cleared.shards.size = c.shards.size := c.size_emptied c.slots

/-- Besides the shards, clearing changes the two counters, the hand-off and the mark. -/
theorem cleared_eq (c : Census) : ∃ shards h, c.cleared =
    { c with
      shards, distinct := 0, processed := 0, handOff := none, sealed := false,
      shards_pos := h } := by
  obtain ⟨shards, h, heq⟩ := c.emptied_eq c.slots
  exact ⟨shards, h, by rw [cleared, heq]⟩

/-- What the meters show is not cleared. -/
theorem meters_cleared (c : Census) : c.cleared.meters = c.meters := by
  obtain ⟨_, _, heq⟩ := c.cleared_eq
  rw [heq]

/-- **What is left has counted nothing**, and is as bounded and as often sealed as before. -/
theorem Sound.fresh_cleared (hc : c.Sound) (hh : c.Healthy) :
    c.cleared.Fresh ∧ c.cleared.limits = c.limits ∧ c.cleared.seals = c.seals := by
  obtain ⟨shards, h, heq⟩ := c.cleared_eq
  refine ⟨⟨fun i => ?_, rfl, rfl, rfl, rfl, ?_⟩, ?_, ?_⟩
  · rw [shard_cleared]
    show Shard.mk [] (c.shard i).poisoned (c.shard i).held = {}
    rw [hh.shard, (hc.shard i).free]
  · rw [heq]
    exact hh.lock
  · rw [heq]
  · rw [heq]

end Muster.Census
