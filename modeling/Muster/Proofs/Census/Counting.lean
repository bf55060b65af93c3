import Muster.Proofs.Census.Sweeping

/-!
# Proofs/Census/Counting — an increment from beginning to end

An open census takes an increment in (`Census.grown`) and then looks whether it is time to check the
cap, and whether the cap is exceeded (`Census.exceeded`); if so, a pass of pruning follows
(`Census.checked`).

* `run_count_telling` — an increment on its own; a payload is asked for exactly if the key is new.
* `run_count` — without a cap the increment is taken in, and that is all.
* `run_count_failing` — a payload that gives up poisons the shard of the key, and nobody gets at the
  keys of that shard any more (`barred_of_poisoned`).
-/

namespace Muster.Census

variable {c : Census}

/-! ## Checking the cap -/

/-- **The cap, if it is time to check it and it is exceeded.** -/
def exceeded (c : Census) : Option Nat :=
  if c.processed % c.limits.interval = 0 then c.limits.cap.filter (· < c.size) else none

/-- The census after the cap has been checked. -/
def checked (c : Census) : Census :=
  match c.exceeded with
  | none => c
  | some _ => (c.pruned c.limits.threshold).reported (c.rare c.limits.threshold)

/-- What is said when the cap is checked. -/
def warnings (c : Census) : List Notice :=
  match c.exceeded with
  | none => []
  | some cap =>
    .pruned (c.rare c.limits.threshold) c.limits.threshold (c.pruned c.limits.threshold).size ::
      if cap < (c.pruned c.limits.threshold).size then
        [.overLimit (c.pruned c.limits.threshold).size c.limits.threshold cap]
      else []

theorem exceeded_eq_none (hcap : c.limits.cap = none) : c.exceeded = none := by
  simp [exceeded, hcap]

theorem Sound.checked (hc : c.Sound) : c.checked.Sound := by
  unfold Census.checked
  split
  · exact hc
  · exact (hc.pruned _).congr rfl rfl

theorem Healthy.checked (hh : c.Healthy) : c.checked.Healthy := by
  unfold Census.checked
  split
  · exact hh
  · exact (hh.pruned _).congr rfl rfl

/-- Checking the cap changes the shards, their number of keys and meters, and nothing else. -/
theorem checked_eq (c : Census) : ∃ shards distinct h meters,
    c.checked = { c with shards, distinct, meters, shards_pos := h } := by
  unfold checked
  split
  · exact ⟨_, _, c.shards_pos, _, rfl⟩
  · obtain ⟨shards, distinct, h, heq⟩ := c.pruned_eq c.limits.threshold
    exact ⟨shards, distinct, h, _, by rw [heq]; rfl⟩

theorem Open.checked (h : c.Open) : c.checked.Open := by
  obtain ⟨shards, distinct, hpos, meters, heq⟩ := c.checked_eq
  have hsound := h.sound.checked
  rw [heq] at hsound ⊢
  exact ⟨hsound, h.mark, h.handOff⟩

@[simp] theorem limits_checked (c : Census) : c.checked.limits = c.limits := by
  obtain ⟨_, _, _, _, h⟩ := c.checked_eq
  rw [h]

@[simp] theorem processed_checked (c : Census) : c.checked.processed = c.processed := by
  obtain ⟨_, _, _, _, h⟩ := c.checked_eq
  rw [h]

/-- **After an accepted increment the cap is checked.** -/
theorem run_checkpoint (hh : c.Healthy) :
    checkpoint.run c = ⟨.ok (), c.accounted.checked, c.accounted.warnings⟩ := by
  have hh' : c.accounted.Healthy := hh.congr rfl rfl
  have hlimits : c.accounted.limits = c.limits := rfl
  have hex : c.accounted.exceeded = if (c.processed + 1) % c.limits.interval = 0 then
      c.limits.cap.filter (· < c.accounted.size) else none := rfl
  rw [checkpoint, Call.run_bind, run_account]
  by_cases hdue : (c.processed + 1) % c.limits.interval = 0
  · rw [if_pos hdue] at hex
    cases hcap : c.limits.cap with
    | none => simp [hdue, Call.run_bind, hlimits, hcap, checked, warnings, hex]
    | some cap =>
      rw [hcap, Option.filter_some] at hex
      by_cases hover : cap < c.accounted.size
      · have hleft : ∀ n, ((c.accounted.pruned c.limits.threshold).reported n).size =
            (c.accounted.pruned c.limits.threshold).size := fun _ => rfl
        by_cases hleft' : cap < (c.accounted.pruned c.limits.threshold).size <;>
          simp [hdue, Call.run_bind, hlimits, hcap, hover, run_prune hh', checked, warnings, hex,
            hleft, hleft']
      · simp [hdue, Call.run_bind, hlimits, hcap, hover, checked, warnings, hex]
  · rw [if_neg hdue] at hex
    simp [hdue, checked, warnings, hex]

/-! ## Taking an increment in -/

/-- The census after an increment has been accepted: the key is counted, or entered with what is
retained. -/
def grown (c : Census) (k : Key) (r : Option Record) : Census :=
  if (c.find? k).isSome then (c.bumped k).accounted else (c.inserted k r).accounted

/-- Taking an increment in changes the shards, the two counters and meters, and nothing else. -/
theorem grown_eq (c : Census) (k : Key) (r : Option Record) : ∃ shards distinct h meters,
    c.grown k r =
      { c with shards, distinct, processed := c.processed + 1, meters, shards_pos := h } := by
  unfold grown
  split
  · exact ⟨_, _, (c.bumped k).shards_pos, _, rfl⟩
  · exact ⟨_, _, (c.inserted k r).shards_pos, _, rfl⟩

@[simp] theorem limits_grown (c : Census) (k : Key) (r : Option Record) :
    (c.grown k r).limits = c.limits := by
  obtain ⟨_, _, _, _, h⟩ := c.grown_eq k r
  rw [h]

@[simp] theorem processed_grown (c : Census) (k : Key) (r : Option Record) :
    (c.grown k r).processed = c.processed + 1 := by
  obtain ⟨_, _, _, _, h⟩ := c.grown_eq k r
  rw [h]

@[simp] theorem sealed_grown (c : Census) (k : Key) (r : Option Record) :
    (c.grown k r).sealed = c.sealed := by
  obtain ⟨_, _, _, _, h⟩ := c.grown_eq k r
  rw [h]

@[simp] theorem handOff_grown (c : Census) (k : Key) (r : Option Record) :
    (c.grown k r).handOff = c.handOff := by
  obtain ⟨_, _, _, _, h⟩ := c.grown_eq k r
  rw [h]

/-- The meters show one more increment. -/
@[simp] theorem meters_grown (c : Census) (k : Key) (r : Option Record) : (c.grown k r).meters =
    { c.meters with recordsProcessed := c.meters.recordsProcessed + 1 } := by
  unfold grown
  split <;> rfl

theorem Sound.grown (hc : c.Sound) (k : Key) (r : Option Record) : (c.grown k r).Sound := by
  unfold Census.grown
  cases hk : c.find? k with
  | some g => exact (hc.bumped k).congr rfl rfl
  | none => exact (hc.inserted hk r).congr rfl rfl

theorem Healthy.grown (hh : c.Healthy) (k : Key) (r : Option Record) : (c.grown k r).Healthy := by
  unfold Census.grown
  split
  · exact (hh.bumped k).congr rfl rfl
  · exact (hh.inserted k r).congr rfl rfl

theorem Open.grown (h : c.Open) (k : Key) (r : Option Record) : (c.grown k r).Open := by
  obtain ⟨shards, distinct, hpos, meters, heq⟩ := c.grown_eq k r
  have hsound := h.sound.grown k r
  rw [heq] at hsound ⊢
  exact ⟨hsound, h.mark, h.handOff⟩

/-- **The groups after an increment**: that of the key counts one more, or is new. -/
theorem Sound.groups_grown (hc : c.Sound) (k : Key) (r : Option Record) :
    (c.grown k r).groups.Perm
      (if (c.find? k).isSome then c.groups.map (Group.bumpIf k)
      else { key := k, retained := r } :: c.groups) := by
  unfold Census.grown
  split
  · exact List.Perm.of_eq (hc.groups_bumped k)
  · exact groups_inserted_perm c k r

/-- **An increment**: a sealed census refuses it; an open one takes it in and has its cap checked.
The payload is asked for exactly if the key is new. -/
theorem run_count_telling (hc : c.Sound) (hh : c.Healthy) (k : Key) (r : Option Record)
    (said : List Notice) :
    (count k (.telling (.ok r) said)).run c =
      if c.sealed then ⟨.ok false, c.refused, []⟩
      else ⟨.ok (c.find? k).isNone, (c.grown k r).checked,
        (if (c.find? k).isNone then said else []) ++ (c.grown k r).warnings⟩ := by
  rw [count, Call.run_bind, run_probe, hh.shard]
  cases ho : c.sealed with
  | true => simp
  | false =>
    cases hk : c.find? k with
    | some g =>
      have hcheck := run_checkpoint (hh.bumped k)
      simp [grown, hk, hcheck, Except.map]
    | none =>
      have hcheck := run_checkpoint (hh.inserted k r)
      simp [grown, hk, Call.run_bind, run_enter_telling (hc.shard _).free, hh.shard, ho, hcheck,
        Except.map]

/-- **An increment whose payload gives up** breaks off and poisons the shard of the key. Nothing
else changes. -/
theorem run_count_failing {k : Key} (hp : (c.shard (c.slot k)).poisoned = false)
    (hfree : (c.shard (c.slot k)).held = false) (ho : c.sealed = false) (hk : c.find? k = none)
    (e : Fault) (said : List Notice) :
    (count k (.telling (.error e) said)).run c = ⟨.error e, c.poisonedAt (c.slot k), said⟩ := by
  simp [count, Call.run_bind, run_probe, run_enter_telling hfree, hp, ho, hk]

/-! ## Counting without a cap -/

/-- **An increment of an open census without a cap.** -/
theorem run_count (hc : c.Sound) (hh : c.Healthy) (ho : c.sealed = false)
    (hcap : c.limits.cap = none) (k : Key) (r : Option Record) :
    (count k (.answering (.ok r))).run c = ⟨.ok (c.find? k).isNone, c.grown k r, []⟩ := by
  have hex : (c.grown k r).exceeded = none := by
    unfold grown
    split <;> exact exceeded_eq_none hcap
  rw [Payload.answering_eq, run_count_telling hc hh, ho]
  simp [checked, warnings, hex]

/-! ## Keys out of reach -/

/-- Did somebody break off inside this shard? -/
def Poisoned (c : Census) (i : Nat) : Prop := (c.shard i).poisoned = true

/-- **A key that nobody gets at**: to count it or to look it up breaks off, and changes nothing. -/
structure Barred (c : Census) (k : Key) : Prop where
  count (payload : Payload) : (Census.count k payload).run c = ⟨.error .poisoned, c, []⟩
  countOf : (Census.countOf k).run c = ⟨.error .poisoned, c, []⟩
  retained : (Census.retained k).run c = ⟨.error .poisoned, c, []⟩

/-- **Nobody gets at the keys of a poisoned shard.** -/
theorem barred_of_poisoned {k : Key} (h : c.Poisoned (c.slot k)) : c.Barred k where
  count payload := by
    rw [Poisoned] at h
    rw [Census.count, Call.run_bind, run_probe, if_pos h]
  countOf := by
    rw [Poisoned] at h
    rw [run_countOf, if_pos h]
  retained := by
    rw [Poisoned] at h
    rw [run_retained, if_pos h]

/-- A census of two shards: in one a key was counted, in the other somebody broke off. -/
def spoilt (limits : Limits) (k l : Key) : Census :=
  ((count l (.raising "payload failed")).run ((count k .nothing).run (pair limits)).state).state

end Muster.Census
