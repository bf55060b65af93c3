import Muster.Census.Calls
import Muster.Proofs.Sameness

/-!
# Proofs/Census/Sound — a census is one list of groups

A census is sound when each key lies in the shard of its fingerprint, no key stands twice, and the
number of keys kept beside the shards is right (`Census.Sound`). The shards are then a detail:
looking a key up in its shard is looking it up in the list of all groups (`Sound.find?_eq`), in
which all keys differ (`Sound.differ`).

A key is the same as another when only their floats are written differently, so keys are compared
by sameness throughout, never by equality.
-/

namespace Muster

/-! ## Lists of groups -/

/-- **No key stands twice** in a list of groups. -/
def KeysDiffer (gs : List Group) : Prop := gs.Pairwise fun g h => g.key.same h.key = false

namespace Group

/-- The group after one more occurrence of a key, if it is the group of that key. -/
def bumpIf (k : Key) (g : Group) : Group :=
  if g.key.same k then { g with count := g.count + 1 } else g

@[simp] theorem key_bumpIf (k : Key) (g : Group) : (g.bumpIf k).key = g.key := by
  unfold bumpIf
  split <;> rfl

@[simp] theorem retained_bumpIf (k : Key) (g : Group) : (g.bumpIf k).retained = g.retained := by
  unfold bumpIf
  split <;> rfl

theorem count_bumpIf (k : Key) (g : Group) :
    (g.bumpIf k).count = if g.key.same k then g.count + 1 else g.count := by
  unfold bumpIf
  split <;> rfl

theorem bumpIf_of_not_same {k : Key} {g : Group} (h : g.key.same k = false) : g.bumpIf k = g := by
  simp [bumpIf, h]

/-- Where no group is that of a key, one more occurrence of the key changes nothing. -/
theorem map_bumpIf_eq_self {gs : List Group} {k : Key} (h : ∀ g ∈ gs, g.key.same k = false) :
    gs.map (bumpIf k) = gs :=
  (List.map_congr_left fun g hg => bumpIf_of_not_same (h g hg)).trans gs.map_id

end Group

namespace KeysDiffer

/-- Behind the group of a key there is no other of it. -/
theorem not_same_behind {g : Group} {gs : List Group} {k : Key} (h : KeysDiffer (g :: gs))
    (hk : g.key.same k = true) : ∀ x ∈ gs, x.key.same k = false := fun x hx => by
  have hgx := (List.pairwise_cons.1 h).1 x hx
  rwa [Key.same_congr hk, Key.same_comm] at hgx

theorem map_bumpIf {gs : List Group} (h : KeysDiffer gs) (k : Key) :
    KeysDiffer (gs.map (Group.bumpIf k)) := by
  refine List.pairwise_map.2 (h.imp fun hgh => ?_)
  rwa [Group.key_bumpIf, Group.key_bumpIf]

/-- **Where no key stands twice, one more occurrence changes the group of the key alone.** -/
theorem bumped_eq_map : ∀ {gs : List Group}, KeysDiffer gs → ∀ k : Key,
    Shard.bumped k gs = gs.map (Group.bumpIf k)
  | [], _, _ => rfl
  | g :: gs, h, k => by
    rw [Shard.bumped, List.map_cons]
    by_cases hk : g.key.same k = true
    · rw [if_pos hk, Group.map_bumpIf_eq_self (h.not_same_behind hk), Group.bumpIf, if_pos hk]
    · rw [if_neg hk, bumped_eq_map (List.pairwise_cons.1 h).2 k, Group.bumpIf, if_neg hk]

/-- **A key is found among some of the groups** if its group is one of them. -/
theorem find?_filter {gs : List Group} (h : KeysDiffer gs) (p : Group → Bool) (k : Key) :
    (gs.filter p).find? (·.key.same k) = (gs.find? (·.key.same k)).filter p := by
  induction gs with
  | nil => rfl
  | cons g gs ih =>
    rw [List.find?_cons, List.filter_cons]
    cases hk : g.key.same k with
    | false =>
      rw [← ih (List.pairwise_cons.1 h).2]
      split
      · rw [List.find?_cons, hk]
      · rfl
    | true =>
      split
      · rw [List.find?_cons, hk, Option.filter_some, if_pos ‹_›]
      · have hnone : ∀ x ∈ gs.filter p, ¬x.key.same k = true := fun x hx => by
          simp [h.not_same_behind hk x (List.mem_filter.1 hx).1]
        rw [Option.filter_some, if_neg ‹_›, List.find?_eq_none.2 hnone]

/-- **The order of the groups does not matter** to a look-up. -/
theorem find?_perm {gs hs : List Group} (h : KeysDiffer gs) (hp : gs.Perm hs) (k : Key) :
    gs.find? (·.key.same k) = hs.find? (·.key.same k) := by
  induction hp with
  | nil => rfl
  | cons g _ ih => rw [List.find?_cons, List.find?_cons, ih (List.pairwise_cons.1 h).2]
  | swap g g' gs =>
    simp only [List.find?_cons]
    cases hg : g'.key.same k with
    | false => cases g.key.same k <;> rfl
    | true => rw [h.not_same_behind hg g List.mem_cons_self]
  | trans hp _ ih ih' =>
    rw [ih h, ih' ((hp.pairwise_iff fun hkl => (Key.same_comm _ _).trans hkl).1 h)]

/-- **Every group is found by its key.** -/
theorem find?_of_mem {gs : List Group} (h : KeysDiffer gs) {g : Group} (hg : g ∈ gs) :
    gs.find? (·.key.same g.key) = some g := by
  obtain ⟨before, behind, rfl⟩ := List.append_of_mem hg
  have hbefore : ∀ x ∈ before, ¬x.key.same g.key = true := fun x hx => by
    simp [(List.pairwise_append.1 h).2.2 x hx g List.mem_cons_self]
  rw [List.find?_append, List.find?_eq_none.2 hbefore, Option.none_or, List.find?_cons,
    g.key.same_refl]

end KeysDiffer

theorem find?_map_bumpIf (gs : List Group) (k l : Key) :
    (gs.map (Group.bumpIf k)).find? (fun g => g.key.same l) =
      (gs.find? fun g => g.key.same l).map (Group.bumpIf k) := by
  rw [List.find?_map]
  refine congrArg (fun p => Option.map _ (List.find? p gs)) (funext fun g => ?_)
  simp

/-! ## Sound shards -/

/-- **A shard in order**: no key stands twice, each was counted, and nobody is inside. -/
structure Shard.Sound (s : Shard) : Prop where
  differ : KeysDiffer s.groups
  counted : ∀ g ∈ s.groups, 0 < g.count
  free : s.held = false

namespace Shard

variable {s : Shard}

theorem sound_empty {s : Shard} (hs : s.groups = []) (hf : s.held = false) : s.Sound :=
  ⟨by rw [hs]; exact List.Pairwise.nil, by simp [hs], hf⟩

theorem groups_bump (h : s.Sound) (k : Key) :
    (s.bump k).groups = s.groups.map (Group.bumpIf k) := h.differ.bumped_eq_map k

theorem Sound.bump (h : s.Sound) (k : Key) : (s.bump k).Sound where
  differ := by
    rw [groups_bump h]
    exact h.differ.map_bumpIf k
  counted g hg := by
    rw [groups_bump h] at hg
    obtain ⟨x, hx, rfl⟩ := List.mem_map.1 hg
    have hpos := h.counted x hx
    rw [Group.count_bumpIf]
    split <;> omega
  free := h.free

theorem Sound.insert (h : s.Sound) {k : Key} (hk : s.find? k = none) (r : Option Record) :
    (s.insert k r).Sound where
  differ := by
    refine List.pairwise_cons.2 ⟨fun g hg => ?_, h.differ⟩
    have hgk := List.find?_eq_none.1 hk g hg
    rw [Key.same_comm]
    simpa using hgk
  counted g hg := by
    rcases List.mem_cons.1 hg with rfl | hg
    · exact Nat.one_pos
    · exact h.counted g hg
  free := h.free

theorem Sound.prune (h : s.Sound) (threshold : Nat) : (s.prune threshold).Sound where
  differ := h.differ.filter _
  counted g hg := h.counted g (List.mem_filter.1 hg).1
  free := h.free

end Shard

/-! ## The shards of a census as one list -/

namespace Census

variable {c : Census}

theorem shard_eq_getElem {i : Nat} (hi : i < c.shards.size) : c.shard i = c.shards[i] := by
  simp [shard, hi]

/-- Beyond the last index every shard reads like one without groups. -/
theorem shard_of_le {i : Nat} (hi : c.shards.size ≤ i) : c.shard i = default := by
  simp [shard, hi]

/-- Only a shard that there is can be poisoned. -/
theorem lt_of_poisoned {i : Nat} (hi : (c.shard i).poisoned = true) : i < c.shards.size := by
  refine Nat.not_le.1 fun hle => ?_
  rw [shard_of_le hle] at hi
  exact Bool.false_ne_true hi

theorem groups_shard_of_le {i : Nat} (hi : c.shards.size ≤ i) : (c.shard i).groups = [] := by
  rw [shard_of_le hi]
  rfl

theorem modifyShard_of_le {i : Nat} (hi : c.shards.size ≤ i) (f : Shard → Shard) :
    c.modifyShard i f = c := by
  have h : c.shards.modify i f = c.shards := by
    refine Array.ext (by simp) fun j hj _ => ?_
    rw [Array.getElem_modify, if_neg (by simp at hj; omega)]
  simp only [modifyShard, h]

theorem mem_groups {g : Group} : g ∈ c.groups ↔ ∃ i, g ∈ (c.shard i).groups := by
  constructor
  · intro hg
    obtain ⟨s, hs, hgs⟩ := List.mem_flatMap.1 hg
    obtain ⟨i, hi, rfl⟩ := List.getElem_of_mem hs
    exact ⟨i, by rwa [shard_eq_getElem (by simpa using hi)]⟩
  · rintro ⟨i, hg⟩
    by_cases hi : i < c.shards.size
    · rw [shard_eq_getElem hi] at hg
      exact List.mem_flatMap.2 ⟨_, by simp, hg⟩
    · rw [groups_shard_of_le (Nat.not_lt.1 hi)] at hg
      exact absurd hg (List.not_mem_nil)

/-- **The list of all groups around one shard**: whatever is done to the shard, what stands before
and behind its groups stays. -/
theorem groups_around (c : Census) {i : Nat} (hi : i < c.shards.size) :
    ∃ before behind : List Group, c.groups = before ++ (c.shard i).groups ++ behind ∧
      (∀ f, (c.modifyShard i f).groups = before ++ (f (c.shard i)).groups ++ behind) ∧
      ∀ g, g ∈ before ∨ g ∈ behind → ∃ j, j ≠ i ∧ g ∈ (c.shard j).groups := by
  have hl : i < c.shards.toList.length := by simpa using hi
  refine ⟨(c.shards.toList.take i).flatMap Shard.groups,
    (c.shards.toList.drop (i + 1)).flatMap Shard.groups, ?_, fun f => ?_, ?_⟩
  · have hsplit := congrArg (List.flatMap Shard.groups) (List.take_append_drop i c.shards.toList)
    rw [groups, ← hsplit, List.drop_eq_getElem_cons hl, shard_eq_getElem hi]
    simp
  · rw [groups, modifyShard, Array.toList_modify, List.modify_eq_take_cons_drop hl,
      shard_eq_getElem hi]
    simp
  · rintro g (hg | hg)
    · obtain ⟨s, hs, hgs⟩ := List.mem_flatMap.1 hg
      obtain ⟨j, hj, rfl⟩ := List.mem_take_iff_getElem.1 hs
      rw [Array.length_toList] at hj
      exact ⟨j, by omega, by rw [shard_eq_getElem (by omega)]; simpa using hgs⟩
    · obtain ⟨s, hs, hgs⟩ := List.mem_flatMap.1 hg
      obtain ⟨j, hj, rfl⟩ := List.mem_drop_iff_getElem.1 hs
      rw [Array.length_toList] at hj
      exact ⟨i + 1 + j, by omega, by rw [shard_eq_getElem (by omega)]; simpa using hgs⟩

/-! ## Sound censuses -/

/-- **A census in order**: its shards are, each key lies in the shard of its fingerprint, and the
number of keys kept beside the shards is theirs. -/
structure Sound (c : Census) : Prop where
  shard (i : Nat) : (c.shard i).Sound
  placed (i : Nat) (g : Group) : g ∈ (c.shard i).groups → c.slot g.key = i
  distinct_eq : c.distinct = c.groups.length

/-- Soundness concerns the shards and their number of keys only. -/
theorem Sound.congr {d : Census} (h : c.Sound) (hs : d.shards = c.shards)
    (hd : d.distinct = c.distinct) : d.Sound := by
  have hshard : ∀ i, d.shard i = c.shard i := fun i => by rw [Census.shard, hs]; rfl
  refine ⟨fun i => by rw [hshard]; exact h.shard i, fun i g hg => ?_, ?_⟩
  · rw [hshard] at hg
    rw [slot, hs]
    exact h.placed i g hg
  · rw [hd, groups, hs]
    exact h.distinct_eq

namespace Sound

theorem slot_eq_of_same {k l : Key} (h : k.same l = true) : c.slot k = c.slot l := by
  rw [slot, slot, Key.fingerprint_eq_of_same h]

/-- A key of one shard is no key of another. -/
theorem not_same_of_mem (h : c.Sound) {k : Key} {j : Nat} (hj : j ≠ c.slot k) {g : Group}
    (hg : g ∈ (c.shard j).groups) : g.key.same k = false := by
  rw [Bool.eq_false_iff]
  intro hk
  exact hj (by rw [← slot_eq_of_same hk, h.placed j g hg])

/-- **No key stands twice** in a sound census. -/
theorem differ (h : c.Sound) : KeysDiffer c.groups := by
  refine List.pairwise_flatMap.2 ⟨fun s hs => ?_, ?_⟩
  · obtain ⟨i, hi, rfl⟩ := List.getElem_of_mem hs
    have hi' : i < c.shards.size := by simpa using hi
    have := (h.shard i).differ
    rwa [shard_eq_getElem hi'] at this
  · refine List.pairwise_iff_getElem.2 fun i j hi hj hij x hx y hy => ?_
    have hx' : x ∈ (c.shard i).groups := by
      rw [shard_eq_getElem (by simpa using hi)]
      simpa using hx
    have hy' : y ∈ (c.shard j).groups := by
      rw [shard_eq_getElem (by simpa using hj)]
      simpa using hy
    refine h.not_same_of_mem ?_ hx'
    rw [h.placed j y hy']
    omega

/-- **Looking a key up in its shard is looking it up in the whole census.** -/
theorem find?_eq (h : c.Sound) (k : Key) :
    c.find? k = c.groups.find? fun g => g.key.same k := by
  obtain ⟨before, behind, hgroups, -, haround⟩ := c.groups_around (c.slot_lt k)
  have hnone : ∀ gs : List Group, (∀ g ∈ gs, g ∈ before ∨ g ∈ behind) →
      gs.find? (fun g => g.key.same k) = none := fun gs hgs => by
    refine List.find?_eq_none.2 fun g hg => ?_
    obtain ⟨j, hj, hgj⟩ := haround g (hgs g hg)
    simp [h.not_same_of_mem hj hgj]
  rw [hgroups, List.find?_append, List.find?_append, hnone before fun g hg => Or.inl hg,
    hnone behind fun g hg => Or.inr hg, Option.none_or, Option.or_none]
  rfl

/-- Only keys of the census are found in it. -/
theorem mem_of_find? (h : c.Sound) {k : Key} {g : Group} (hg : c.find? k = some g) :
    g ∈ c.groups ∧ g.key.same k = true := by
  rw [h.find?_eq] at hg
  exact ⟨List.mem_of_find?_eq_some hg, by simpa using List.find?_some hg⟩

/-- **Every group is found by its key.** -/
theorem find?_of_mem (h : c.Sound) {g : Group} (hg : g ∈ c.groups) : c.find? g.key = some g :=
  (h.find?_eq g.key).trans (h.differ.find?_of_mem hg)

theorem find?_congr {k l : Key} (h : c.Sound) (hkl : k.same l = true) :
    c.find? k = c.find? l := by
  rw [h.find?_eq, h.find?_eq]
  refine congrArg (fun p => List.find? p c.groups) (funext fun g => ?_)
  rw [Key.same_comm, Key.same_congr hkl, Key.same_comm]

/-- What is found was counted. -/
theorem count_pos (h : c.Sound) {k : Key} {g : Group} (hg : c.find? k = some g) :
    0 < g.count := by
  obtain ⟨i, hi⟩ := mem_groups.1 (h.mem_of_find? hg).1
  exact (h.shard i).counted g hi

end Sound

end Census

end Muster
