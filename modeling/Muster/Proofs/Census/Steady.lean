import Muster.Proofs.Calls
import Muster.Proofs.Census.Sections

/-!
# Proofs/Census/Steady — what counting and pruning leave alone

Counting and pruning touch the shards and the meters, and nothing else; and on a sealed census they
do not touch the shards either (`Census.Steady`). This is the frame in which hand-offs stay what
they were.

* `keeps_probe` and its kin — each section stays within the frame, even where it breaks off.
* `works_count` — while nobody has broken off inside a lock, an increment answers.
-/

namespace Muster.Census

variable {c d e : Census}

/-! ## The frame -/

/-- **A census after some counting and pruning**: the cycle stands where it stood; a sealed census
keeps its groups, and an open one refuses nothing. -/
structure Steady (c d : Census) : Prop where
  sound : d.Sound
  size : d.shards.size = c.shards.size
  limits : d.limits = c.limits
  mark : d.sealed = c.sealed
  handOff : d.handOff = c.handOff
  seals : d.seals = c.seals
  lock : d.sealPoisoned = c.sealPoisoned
  frozen : c.sealed = true → d.shards = c.shards ∧ d.distinct = c.distinct
  punctual : c.sealed = false → d.meters.lateRecords = c.meters.lateRecords

theorem Steady.refl (h : c.Sound) : c.Steady c :=
  ⟨h, rfl, rfl, rfl, rfl, rfl, rfl, fun _ => ⟨rfl, rfl⟩, fun _ => rfl⟩

theorem Steady.trans (h : c.Steady d) (h' : d.Steady e) : c.Steady e where
  sound := h'.sound
  size := h'.size.trans h.size
  limits := h'.limits.trans h.limits
  mark := h'.mark.trans h.mark
  handOff := h'.handOff.trans h.handOff
  seals := h'.seals.trans h.seals
  lock := h'.lock.trans h.lock
  frozen hs := by
    obtain ⟨hsh, hd⟩ := h.frozen hs
    obtain ⟨hsh', hd'⟩ := h'.frozen (h.mark.trans hs)
    exact ⟨hsh'.trans hsh, hd'.trans hd⟩
  punctual hs := (h'.punctual (h.mark.trans hs)).trans (h.punctual hs)

/-- A change to the shards of an open census. -/
theorem Steady.of_open (ho : c.sealed = false) (hd : d.Sound)
    (hsize : d.shards.size = c.shards.size)
    (hrest : ∃ shards distinct h, d = { c with shards, distinct, shards_pos := h }) :
    c.Steady d := by
  obtain ⟨shards, distinct, h, rfl⟩ := hrest
  exact ⟨hd, hsize, rfl, rfl, rfl, rfl, rfl, fun hs => by simp [ho] at hs, fun _ => rfl⟩

theorem Sound.steady_bumped (h : c.Sound) (ho : c.sealed = false) (k : Key) :
    c.Steady (c.bumped k) :=
  .of_open ho (h.bumped k) (size_modifyShard ..) ⟨_, c.distinct, _, rfl⟩

theorem Sound.steady_inserted (h : c.Sound) (ho : c.sealed = false) {k : Key}
    (hk : c.find? k = none) (r : Option Record) : c.Steady (c.inserted k r) :=
  .of_open ho (h.inserted hk r) (size_modifyShard ..) ⟨_, _, _, rfl⟩

theorem Sound.steady_prunedAt (h : c.Sound) (ho : c.sealed = false) (threshold i : Nat) :
    c.Steady (c.prunedAt threshold i) :=
  .of_open ho (h.prunedAt threshold i) (size_modifyShard ..) ⟨_, _, _, rfl⟩

theorem Sound.steady_poisonedAt (h : c.Sound) (ho : c.sealed = false) (k : Key) :
    c.Steady (c.poisonedAt (c.slot k)) :=
  .of_open ho (h.poisonedAt (c.slot_lt k)) (size_modifyShard ..) ⟨_, c.distinct, _, rfl⟩

/-- An increment that comes too late leaves everything but a meter. -/
theorem Sound.steady_refused (h : c.Sound) (hs : c.sealed = true) : c.Steady c.refused :=
  ⟨h.congr rfl rfl, rfl, rfl, rfl, rfl, rfl, rfl, fun _ => ⟨rfl, rfl⟩,
    fun ho => by simp [hs] at ho⟩

theorem Sound.steady_accounted (h : c.Sound) : c.Steady c.accounted :=
  ⟨h.congr rfl rfl, rfl, rfl, rfl, rfl, rfl, rfl, fun _ => ⟨rfl, rfl⟩, fun _ => rfl⟩

theorem Sound.steady_reported (h : c.Sound) (removed : Nat) : c.Steady (c.reported removed) :=
  ⟨h.congr rfl rfl, rfl, rfl, rfl, rfl, rfl, rfl, fun _ => ⟨rfl, rfl⟩, fun _ => rfl⟩

/-! ## Calls within the frame -/

/-- Sound censuses stay within the frame. -/
def Tends (c d : Census) : Prop := c.Sound → c.Steady d

theorem Tends.refl (c : Census) : c.Tends c := Steady.refl

theorem Tends.trans (h : c.Tends d) (h' : d.Tends e) : c.Tends e := fun hc =>
  (h hc).trans (h' (h hc).sound)

/-- Calls that stay within the frame compose. -/
theorem keeps_bind {α β : Type} {call : Call Census α} {f : α → Call Census β}
    (h : call.Keeps Tends) (hf : ∀ a, (f a).Keeps Tends) : (call >>= f).Keeps Tends :=
  Call.Keeps.bind (R := Tends) (fun _ _ _ => Tends.trans) h hf

theorem keeps_pure {α : Type} (a : α) : (pure a : Call Census α).Keeps Tends := Tends.refl

theorem keeps_gets {α : Type} (f : Census → α) : (Call.gets f).Keeps Tends := Tends.refl

theorem keeps_note (n : Notice) : (Call.note n : Call Census Unit).Keeps Tends := Tends.refl

theorem keeps_probe (k : Key) : (probe k).Keeps Tends := by
  intro c hc
  rw [run_probe]
  split
  · exact .refl hc
  split
  · exact hc.steady_refused ‹_›
  split
  · exact hc.steady_bumped (by simpa using ‹¬c.sealed = true›) k
  · exact .refl hc

theorem keeps_enter (k : Key) (answer : Except Fault (Option Record)) :
    (enter k (.answering answer)).Keeps Tends := by
  intro c hc
  rw [run_enter hc]
  split
  · exact .refl hc
  split
  · exact hc.steady_refused ‹_›
  have ho : c.sealed = false := by simpa using ‹¬c.sealed = true›
  split
  · exact hc.steady_bumped ho k
  have hk : c.find? k = none := by simpa using ‹¬(c.find? k).isSome = true›
  cases answer with
  | ok r => exact hc.steady_inserted ho hk r
  | error e => exact hc.steady_poisonedAt ho k

theorem keeps_account : account.Keeps Tends := fun _ hc => hc.steady_accounted

theorem keeps_pruneShard (threshold i : Nat) : (pruneShard threshold i).Keeps Tends := by
  intro c hc
  rw [run_pruneShard]
  split
  · exact .refl hc
  split
  · exact .refl hc
  · exact hc.steady_prunedAt (by simpa using ‹¬c.sealed = true›) threshold i

theorem keeps_reportPrune (threshold removed : Nat) : (reportPrune threshold removed).Keeps Tends :=
  fun _ hc => hc.steady_reported removed

/-! ## Calls that answer -/

/-- Whether locks are poisoned depends on the shards and the lock of the seal only. -/
theorem Healthy.congr (h : c.Healthy) (hs : d.shards = c.shards)
    (hl : d.sealPoisoned = c.sealPoisoned) : d.Healthy :=
  ⟨fun i => by rw [Census.shard, hs]; exact h.shard i, hl.trans h.lock⟩

/-- A change of a shard that does not poison it. -/
theorem Healthy.modifyShard (h : c.Healthy) {i : Nat} (hi : i < c.shards.size) {f : Shard → Shard}
    (hf : (f (c.shard i)).poisoned = false) : (c.modifyShard i f).Healthy where
  shard j := by
    rw [shard_modifyShard c hi]
    split
    · rename_i hij
      exact hij ▸ hf
    · exact h.shard j
  lock := h.lock

theorem Healthy.bumped (h : c.Healthy) (k : Key) : (c.bumped k).Healthy :=
  h.modifyShard (c.slot_lt k) (h.shard _)

theorem Healthy.inserted (h : c.Healthy) (k : Key) (r : Option Record) : (c.inserted k r).Healthy :=
  (h.modifyShard (f := fun s => s.insert k r) (c.slot_lt k) (h.shard _)).congr rfl rfl

theorem Healthy.prunedAt (h : c.Healthy) (threshold i : Nat) :
    (c.prunedAt threshold i).Healthy := by
  by_cases hi : i < c.shards.size
  · exact (h.modifyShard (f := fun s => s.prune threshold) hi (h.shard _)).congr rfl rfl
  · have hs : (c.modifyShard i fun s => s.prune threshold).shards = c.shards := by
      rw [modifyShard_of_le (Nat.not_lt.1 hi)]
    exact h.congr hs rfl

/-- **A census that some calls have left in working order.** -/
structure Working (c d : Census) : Prop where
  steady : c.Steady d
  healthy : d.Healthy

/-- A call that answers on every census in working order, and leaves it so. -/
def Works {α : Type} (call : Call Census α) : Prop :=
  ∀ c : Census, call.Yields c.Working fun _ => c.Working

theorem works_of_keeps {α : Type} {call : Call Census α} (hk : call.Keeps Tends)
    (h : ∀ c, c.Sound → c.Healthy → ∃ a d ns, call.run c = ⟨.ok a, d, ns⟩ ∧ d.Healthy) :
    Works call := by
  intro c d hd
  have hs := hk d hd.steady.sound
  obtain ⟨a, e, ns, hrun, he⟩ := h d hd.steady.sound hd.healthy
  rw [hrun] at hs ⊢
  exact ⟨a, rfl, hd.steady.trans hs, he⟩

theorem works_bind {α β : Type} {call : Call Census α} {f : α → Call Census β} (h : Works call)
    (hf : ∀ a, Works (f a)) : Works (call >>= f) := fun c => (h c).bind fun a => hf a c

theorem works_pure {α : Type} (a : α) : Works (pure a) := fun _ => Call.yields_pure fun _ hc => hc

theorem works_gets {α : Type} (f : Census → α) : Works (Call.gets f) :=
  fun _ c hc => ⟨f c, rfl, hc⟩

theorem works_note (n : Notice) : Works (Call.note n) := fun _ _ hc => ⟨(), rfl, hc⟩

theorem works_probe (k : Key) : Works (probe k) := by
  refine works_of_keeps (keeps_probe k) fun c hc hh => ?_
  rw [run_probe, hh.shard]
  simp only [Bool.false_eq_true, if_false]
  split
  · exact ⟨_, _, _, rfl, hh.congr rfl rfl⟩
  split
  · exact ⟨_, _, _, rfl, hh.bumped k⟩
  · exact ⟨_, _, _, rfl, hh⟩

theorem works_enter (k : Key) (r : Option Record) : Works (enter k (.answering (.ok r))) := by
  refine works_of_keeps (keeps_enter k (.ok r)) fun c hc hh => ?_
  rw [run_enter hc, hh.shard]
  simp only [Bool.false_eq_true, if_false]
  split
  · exact ⟨_, _, _, rfl, hh.congr rfl rfl⟩
  split
  · exact ⟨_, _, _, rfl, hh.bumped k⟩
  · exact ⟨_, _, _, rfl, hh.inserted k r⟩

theorem works_account : Works account :=
  works_of_keeps keeps_account fun _ _ hh => ⟨_, _, _, rfl, hh.congr rfl rfl⟩

theorem works_pruneShard (threshold i : Nat) : Works (pruneShard threshold i) := by
  refine works_of_keeps (keeps_pruneShard threshold i) fun c _ hh => ?_
  rw [run_pruneShard, hh.shard]
  simp only [Bool.false_eq_true, if_false]
  split
  · exact ⟨_, _, _, rfl, hh⟩
  · exact ⟨_, _, _, rfl, hh.prunedAt threshold i⟩

theorem works_reportPrune (threshold removed : Nat) : Works (reportPrune threshold removed) :=
  works_of_keeps (keeps_reportPrune threshold removed) fun _ _ hh =>
    ⟨_, _, _, rfl, hh.congr rfl rfl⟩

theorem works_pruneFrom (threshold : Nat) : ∀ (left : List Nat) (removed : Nat),
    Works (pruneFrom threshold left removed)
  | [], removed => works_pure removed
  | i :: left, removed => works_bind (works_pruneShard threshold i) fun n => by
    cases n with
    | none => exact works_pure removed
    | some n => exact works_pruneFrom threshold left (removed + n)

theorem works_prune (threshold : Nat) : Works (prune threshold) := by
  refine works_bind (works_gets _) fun left => ?_
  refine works_bind (works_pruneFrom threshold left 0) fun removed => ?_
  exact works_bind (works_reportPrune threshold removed) fun _ => works_pure removed

theorem works_checkpoint : Works checkpoint := by
  refine works_bind works_account fun due => ?_
  split
  · refine works_bind (works_gets _) fun limits => ?_
    split
    · exact works_pure ()
    · refine works_bind (works_gets _) fun size => ?_
      split
      · refine works_bind (works_prune _) fun _ => works_bind (works_gets _) fun left => ?_
        split
        · exact works_note _
        · exact works_pure ()
      · exact works_pure ()
  · exact works_pure ()

/-- **On a census in working order an increment answers**, within the frame. -/
theorem works_count (k : Key) (r : Option Record) : Works (count k (.answering (.ok r))) := by
  refine works_bind (works_probe k) fun found => ?_
  cases found with
  | late => exact works_pure false
  | counted => exact works_bind works_checkpoint fun _ => works_pure false
  | absent =>
    refine works_bind (works_enter k r) fun entry => ?_
    cases entry with
    | late => exact works_pure false
    | counted => exact works_bind works_checkpoint fun _ => works_pure false
    | created => exact works_bind works_checkpoint fun _ => works_pure true

end Muster.Census
