import Muster.Proofs.Census.Changes

/-!
# Proofs/Census/Sections — what each critical section does

One equation for each section of a census: on which locks it breaks off, how it treats a census
that is marked as sealed, and which change it makes otherwise (`Proofs/Census/Changes`). After these
equations no proof opens a section.

* `Census.Healthy` — nobody broke off while holding a lock, so that no section breaks off.
-/

namespace Muster.Census

variable {c : Census}

/-- **Nobody broke off while holding a lock.** -/
structure Healthy (c : Census) : Prop where
  shard (i : Nat) : (c.shard i).poisoned = false
  lock : c.sealPoisoned = false

/-- What a payload answers, or the fault with which it gives up, after it has left some notices, as
a payload. It leaves the census alone. -/
def Payload.telling (answer : Except Fault (Option Record)) (said : List Notice) : Payload :=
  fun c => ⟨answer, c, said⟩

/-- What a payload answers, or the fault with which it gives up, as a payload. -/
def Payload.answering (answer : Except Fault (Option Record)) : Payload := Call.ofExcept answer

theorem Payload.run_telling (answer : Except Fault (Option Record)) (said : List Notice)
    (c : Census) : (Payload.telling answer said).run c = ⟨answer, c, said⟩ := rfl

theorem Payload.answering_eq (answer : Except Fault (Option Record)) :
    Payload.answering answer = Payload.telling answer [] := rfl

theorem Payload.record_eq (r : Record) : Payload.record r = Payload.answering (.ok (some r)) := rfl

theorem Payload.nothing_eq : Payload.nothing = Payload.answering (.ok none) := rfl

/-! ## Shards -/

theorem run_lockShard (i : Nat) (c : Census) :
    (lockShard i).run c =
      if (c.shard i).poisoned then ⟨.error .poisoned, c, []⟩ else ⟨.ok (c.shard i), c, []⟩ := by
  unfold lockShard
  split <;> rename_i h <;> simp [Call.run_bind, h, Except.map]

/-- **Whoever holds a shard and answers leaves it as it was; whoever breaks off poisons it.** -/
theorem run_holding {i : Nat} (hfree : (c.shard i).held = false)
    (answer : Except Fault (Option Record)) (said : List Notice) :
    (holding i (Payload.telling answer said)).run c =
      match answer with
      | .ok r => ⟨.ok r, c, said⟩
      | .error e => ⟨.error e, c.poisonedAt i, said⟩ := by
  have hback : (c.modifyShard i fun s => { s with held := true }).modifyShard i
      (fun s => { s with held := false }) = c := by
    rw [modifyShard_modifyShard]
    refine modifyShard_eq_self ?_
    show { c.shard i with held := false } = c.shard i
    rw [← hfree]
  cases answer with
  | ok r => simp [holding, Payload.run_telling, Call.run_bind, hback, Except.map]
  | error e => simp [holding, Payload.run_telling, Call.run_bind, hback, poisonedAt]

/-! ## The lock of the seal -/

section Guarded

variable {α β : Type}

/-- **A call while the lock of the seal is held.** If it breaks off, that lock is poisoned. -/
def guarded (call : Call Census α) : Call Census α := do
  match ← call.caught with
  | .ok a => return a
  | .error e => do
    Call.change fun c => { c with sealPoisoned := true }
    Call.fail e

theorem underSeal_eq (call : Call Census α) :
    underSeal call = (do
      if ← Call.gets Census.sealPoisoned then Call.fail .poisoned else guarded call) := by
  refine bind_congr fun poisoned => ?_
  cases poisoned <;> rfl

theorem run_guarded (call : Call Census α) (c : Census) :
    (guarded call).run c =
      match call.run c with
      | ⟨.ok a, d, ns⟩ => ⟨.ok a, d, ns⟩
      | ⟨.error e, d, ns⟩ => ⟨.error e, { d with sealPoisoned := true }, ns⟩ := by
  unfold guarded
  rw [Call.run_bind, Call.run_caught]
  rcases call.run c with ⟨⟨e⟩ | ⟨a⟩, d, ns⟩ <;> simp [Call.run_bind]

@[simp] theorem guarded_pure (a : α) : guarded (pure a) = pure a := rfl

/-- **Calls under the lock can be cut**: the lock is poisoned by whichever part breaks off. -/
theorem guarded_bind (call : Call Census α) (f : α → Call Census β) :
    guarded (call >>= f) = guarded call >>= fun a => guarded (f a) := by
  funext c
  show (guarded (call >>= f)).run c = (guarded call >>= fun a => guarded (f a)).run c
  rw [run_guarded, Call.run_bind, Call.run_bind, run_guarded]
  rcases call.run c with ⟨⟨e⟩ | ⟨a⟩, d, ns⟩
  · rfl
  · simp only [run_guarded]
    rcases (f a).run d with ⟨⟨e⟩ | ⟨b⟩, d', ns'⟩ <;> rfl

/-- **A call under the lock of the seal**: whoever finds it poisoned breaks off, and whoever breaks
off poisons it. -/
theorem run_underSeal (call : Call Census α) (c : Census) :
    (underSeal call).run c =
      if c.sealPoisoned then ⟨.error .poisoned, c, []⟩
      else match call.run c with
        | ⟨.ok a, d, ns⟩ => ⟨.ok a, d, ns⟩
        | ⟨.error e, d, ns⟩ => ⟨.error e, { d with sealPoisoned := true }, ns⟩ := by
  rw [underSeal_eq, Call.run_bind_ok (Call.run_gets _ c), Call.run_ite, run_guarded]
  split
  · rfl
  · rcases call.run c with ⟨⟨e⟩ | ⟨a⟩, d, ns⟩ <;> rfl

end Guarded

/-! ## Counting -/

/-- **The shared section**: a key that is there is counted, and nothing else happens to a census
that is open. -/
theorem run_probe (k : Key) (c : Census) :
    (probe k).run c =
      if (c.shard (c.slot k)).poisoned then ⟨.error .poisoned, c, []⟩
      else if c.sealed then ⟨.ok .late, c.refused, []⟩
      else if (c.find? k).isSome then ⟨.ok .counted, c.bumped k, []⟩
      else ⟨.ok .absent, c, []⟩ := by
  unfold probe
  by_cases hp : (c.shard (c.slot k)).poisoned = true
  · simp [Call.run_bind, run_lockShard, hp]
  · by_cases hs : c.sealed = true
    · simp [Call.run_bind, run_lockShard, hp, hs, refuseLate, refused, Except.map]
    · cases hf : (c.shard (c.slot k)).find? k <;>
        simp [Call.run_bind, run_lockShard, hp, hs, hf, find?, bumped, Except.map]

/-- **The exclusive section**: a key that is still absent is entered with what the payload
answers; for no other key is the payload asked. -/
theorem run_enter_telling {k : Key} (hfree : (c.shard (c.slot k)).held = false)
    (answer : Except Fault (Option Record)) (said : List Notice) :
    (enter k (Payload.telling answer said)).run c =
      if (c.shard (c.slot k)).poisoned then ⟨.error .poisoned, c, []⟩
      else if c.sealed then ⟨.ok .late, c.refused, []⟩
      else if (c.find? k).isSome then ⟨.ok .counted, c.bumped k, []⟩
      else match answer with
        | .ok r => ⟨.ok .created, c.inserted k r, said⟩
        | .error e => ⟨.error e, c.poisonedAt (c.slot k), said⟩ := by
  unfold enter
  by_cases hp : (c.shard (c.slot k)).poisoned = true
  · simp [Call.run_bind, run_lockShard, hp]
  · by_cases hs : c.sealed = true
    · simp [Call.run_bind, run_lockShard, hp, hs, refuseLate, refused, Except.map]
    · cases hf : (c.shard (c.slot k)).find? k with
      | some g => simp [Call.run_bind, run_lockShard, hp, hs, hf, find?, bumped, Except.map]
      | none =>
        cases answer <;>
          simp [Call.run_bind, run_lockShard, run_holding hfree, hp, hs, hf, find?, inserted,
            modifyShard, Except.map]

theorem run_enter (h : c.Sound) (k : Key) (answer : Except Fault (Option Record)) :
    (enter k (Payload.answering answer)).run c =
      if (c.shard (c.slot k)).poisoned then ⟨.error .poisoned, c, []⟩
      else if c.sealed then ⟨.ok .late, c.refused, []⟩
      else if (c.find? k).isSome then ⟨.ok .counted, c.bumped k, []⟩
      else match answer with
        | .ok r => ⟨.ok .created, c.inserted k r, []⟩
        | .error e => ⟨.error e, c.poisonedAt (c.slot k), []⟩ :=
  run_enter_telling (h.shard _).free answer []

theorem run_account (c : Census) :
    account.run c =
      ⟨.ok (decide ((c.processed + 1) % c.limits.interval = 0)), c.accounted, []⟩ := rfl

/-! ## Pruning -/

theorem run_pruneShard (threshold i : Nat) (c : Census) :
    (pruneShard threshold i).run c =
      if (c.shard i).poisoned then ⟨.error .poisoned, c, []⟩
      else if c.sealed then ⟨.ok none, c, []⟩
      else ⟨.ok (some ((c.shard i).groups.length - ((c.shard i).prune threshold).groups.length)),
        c.prunedAt threshold i, []⟩ := by
  unfold pruneShard
  by_cases hp : (c.shard i).poisoned = true
  · simp [Call.run_bind, run_lockShard, hp]
  · by_cases hs : c.sealed = true <;>
      simp [Call.run_bind, run_lockShard, hp, hs, prunedAt, Except.map, modifyShard]

theorem run_reportPrune (threshold removed : Nat) (c : Census) :
    (reportPrune threshold removed).run c =
      ⟨.ok (), c.reported removed, [.pruned removed threshold c.size]⟩ := rfl

/-! ## Sealing -/

theorem run_raiseMark (c : Census) : raiseMark.run c = ⟨.ok (), c.marked, []⟩ := rfl

theorem run_snapshotShard (i : Nat) (c : Census) :
    (snapshotShard i).run c =
      if (c.shard i).poisoned then ⟨.error .poisoned, c, []⟩
      else ⟨.ok (c.shard i).keys, c, []⟩ := by
  unfold snapshotShard
  by_cases hp : (c.shard i).poisoned = true <;> simp [run_lockShard, hp, Except.map]

theorem run_publish (keys : List Key) (c : Census) :
    (publish keys).run c = ⟨.ok (), c.published keys, [.sealed keys.length]⟩ := rfl

/-! ## Clearing -/

theorem run_clearShard (i : Nat) (c : Census) :
    (clearShard i).run c =
      if (c.shard i).held then ⟨.error .censusInUse, c, []⟩
      else ⟨.ok (), c.modifyShard i Shard.clear, []⟩ := by
  unfold clearShard
  by_cases hh : (c.shard i).held = true <;> simp [Call.run_bind, hh]

/-! ## Reading -/

theorem run_countOf (k : Key) (c : Census) :
    (countOf k).run c =
      if (c.shard (c.slot k)).poisoned then ⟨.error .poisoned, c, []⟩
      else ⟨.ok ((c.find? k).map Group.count), c, []⟩ := by
  unfold countOf
  by_cases hp : (c.shard (c.slot k)).poisoned = true <;>
    simp [Call.run_bind, run_lockShard, hp, find?, Except.map]

theorem run_retained (k : Key) (c : Census) :
    (retained k).run c =
      if (c.shard (c.slot k)).poisoned then ⟨.error .poisoned, c, []⟩
      else ⟨.ok ((c.find? k).bind Group.retained), c, []⟩ := by
  unfold retained
  by_cases hp : (c.shard (c.slot k)).poisoned = true <;>
    simp [Call.run_bind, run_lockShard, hp, find?, Except.map]

/-! ## Taking -/

/-- The census after a key has been taken from its hand-off. -/
def claimed (c : Census) (h : HandOff) : Census := { c with handOff := some h.take.2 }

/-- **A key is taken from the hand-off if there is one.** -/
theorem run_take (c : Census) :
    take.run c =
      match c.handOff with
      | none =>
        if c.sealPoisoned then ⟨.error .poisoned, c, []⟩ else ⟨.ok .waiting, c, []⟩
      | some h =>
        ⟨.ok (match h.take.1 with | none => .exhausted | some k => .item k), c.claimed h, []⟩ := by
  obtain ⟨shards, limits, distinct, processed, mark, handOff, sealPoisoned⟩ := c
  cases handOff with
  | none => cases sealPoisoned <;> rfl
  | some h =>
    rcases ht : h.take with ⟨_ | k, h'⟩ <;>
      simp [take, Call.run_bind, claimed, ht, Except.map]

end Muster.Census
