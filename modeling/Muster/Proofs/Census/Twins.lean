import Muster.Proofs.Calls
import Muster.Proofs.Census.Operation

/-!
# Proofs/Census/Twins — two censuses that are alike outside of some shards

Two censuses are twins when they differ at most in some shards that are left alone, in how often
they were sealed before they are compared, and in their meters. No call that keeps to the other
shards tells twins apart, but for the number of seals.

* `Twins` — the relation, with what stays as it was.
* `matches_probe` and its kin — no section that keeps to the other shards tells twins apart.
* `Operation.Within` — the operations that keep to the other shards.
* `Twins.perform`, `Twins.performAll` — on twins they answer alike.
-/

namespace Muster.Census

/-! ## The relation -/

/-- **Two censuses that are alike outside of the shards that are `away`**, the second of which comes
from `base` and has left those shards as they were. It has been sealed more often than the first by
`before`. -/
structure Twins (base : Census) (away : Nat → Prop) (before : Nat) (c d : Census) : Prop where
  size_left : c.shards.size = base.shards.size
  size_right : d.shards.size = base.shards.size
  limits_left : c.limits = base.limits
  limits_right : d.limits = base.limits
  shard (i : Nat) : ¬away i → d.shard i = c.shard i
  aside (i : Nat) : away i → d.shard i = base.shard i
  distinct : d.distinct = c.distinct
  processed : d.processed = c.processed
  mark : d.sealed = c.sealed
  handOff : d.handOff = c.handOff
  lock : d.sealPoisoned = c.sealPoisoned
  seals : d.seals = before + c.seals

variable {base c d : Census} {away : Nat → Prop} {before i : Nat} {k : Key}

namespace Twins

/-- Twins keep a key in the same shard. -/
theorem slot_eq (h : Twins base away before c d) (k : Key) :
    c.slot k = base.slot k ∧ d.slot k = base.slot k := by
  rw [slot, slot, slot, h.size_left, h.size_right]
  exact ⟨rfl, rfl⟩

theorem slots_eq (h : Twins base away before c d) :
    c.slots = base.slots ∧ d.slots = base.slots := by
  rw [slots, slots, slots, h.size_left, h.size_right]
  exact ⟨rfl, rfl⟩

/-- **A change of a shard that is not away** is made to both. -/
theorem modifyShard (h : Twins base away before c d) (hi : ¬away i) (f : Shard → Shard) :
    Twins base away before (c.modifyShard i f) (d.modifyShard i f) := by
  by_cases hlt : i < base.shards.size
  · have hc := shard_modifyShard c (h.size_left ▸ hlt) f
    have hd := shard_modifyShard d (h.size_right ▸ hlt) f
    refine { h with
      size_left := (size_modifyShard ..).trans h.size_left
      size_right := (size_modifyShard ..).trans h.size_right
      shard := fun j hj => ?_
      aside := fun j hj => ?_ }
    · rw [hc, hd, h.shard j hj]
    · have hij : i ≠ j := fun hij => hi (hij ▸ hj)
      rw [hd, if_neg hij, h.aside j hj]
  · rw [modifyShard_of_le (h.size_left ▸ Nat.not_lt.1 hlt),
      modifyShard_of_le (h.size_right ▸ Nat.not_lt.1 hlt)]
    exact h

end Twins

/-! ## Sections on twins -/

theorem matches_lockShard (hi : ¬away i) : (lockShard i).Matches (Twins base away before) := by
  intro c d h
  rw [run_lockShard, run_lockShard, h.shard i hi]
  split <;> exact ⟨rfl, rfl, h⟩

theorem matches_modifyShard (hi : ¬away i) (f : Shard → Shard) :
    (Call.change fun c => c.modifyShard i f).Matches (Twins base away before) :=
  Call.matches_change fun _ _ h => h.modifyShard hi f

/-- Whatever is done while holding a shard: if twins are not told apart by that, they are not told
apart. -/
theorem matches_holding {α : Type} (hi : ¬away i) {call : Call Census α}
    (hcall : call.Matches (Twins base away before)) :
    (holding i call).Matches (Twins base away before) := by
  refine (matches_modifyShard hi _).bind fun _ => hcall.caught.bind fun r => ?_
  refine (matches_modifyShard hi _).bind fun _ => ?_
  cases r with
  | ok a => exact Call.matches_pure a
  | error e => exact (matches_modifyShard hi _).bind fun _ => Call.matches_fail e

theorem matches_underSeal {α : Type} {call : Call Census α}
    (hcall : call.Matches (Twins base away before)) :
    (underSeal call).Matches (Twins base away before) := by
  intro c d h
  obtain ⟨hresult, hnotices, hstate⟩ := hcall c d h
  rw [run_underSeal, run_underSeal, h.lock]
  split
  · exact ⟨rfl, rfl, h⟩
  rcases hc : call.run c with ⟨r, c', ns⟩
  rcases hd : call.run d with ⟨r', d', ns'⟩
  rw [hc, hd] at hresult hnotices hstate
  obtain rfl : r' = r := hresult
  obtain rfl : ns' = ns := hnotices
  cases r' with
  | ok a => exact ⟨rfl, rfl, hstate⟩
  | error e => exact ⟨rfl, rfl, { hstate with lock := rfl }⟩

theorem matches_refuseLate : refuseLate.Matches (Twins base away before) :=
  Call.matches_change fun _ _ h => { h with }

theorem matches_sealed : (Call.gets Census.sealed).Matches (Twins base away before) :=
  Call.matches_gets fun _ _ h => h.mark

theorem matches_size : (Call.gets Census.size).Matches (Twins base away before) :=
  Call.matches_gets fun _ _ h => h.distinct

theorem matches_probe (hk : ¬away (base.slot k)) :
    (probe k).Matches (Twins base away before) := by
  refine .gets_bind (fun _ _ h => h.slot_eq k) ((matches_lockShard hk).bind fun s => ?_)
  refine matches_sealed.bind fun mark => ?_
  split
  · exact matches_refuseLate.bind fun _ => Call.matches_pure _
  split
  · exact Call.matches_pure _
  · exact (matches_modifyShard hk _).bind fun _ => Call.matches_pure _

theorem matches_enter (hk : ¬away (base.slot k)) {payload : Payload}
    (hp : payload.Matches (Twins base away before)) :
    (enter k payload).Matches (Twins base away before) := by
  refine .gets_bind (fun _ _ h => h.slot_eq k) ((matches_lockShard hk).bind fun s => ?_)
  refine matches_sealed.bind fun mark => ?_
  split
  · exact matches_refuseLate.bind fun _ => Call.matches_pure _
  split
  · exact (matches_modifyShard hk _).bind fun _ => Call.matches_pure _
  · refine (matches_holding hk hp).bind fun retained => ?_
    refine (matches_modifyShard hk _).bind fun _ => ?_
    refine (Call.matches_change fun _ _ h => ?_).bind fun _ => Call.matches_pure _
    exact { h with distinct := congrArg (· + 1) h.distinct }

theorem matches_account : account.Matches (Twins base away before) := by
  refine (Call.matches_change fun _ _ h => ?_).bind fun _ => Call.matches_gets fun _ _ h => ?_
  · exact { h with processed := congrArg (· + 1) h.processed }
  · rw [h.processed, h.limits_left, h.limits_right]

theorem matches_pruneShard (hi : ¬away i) (threshold : Nat) :
    (pruneShard threshold i).Matches (Twins base away before) := by
  refine (matches_lockShard hi).bind fun s => matches_sealed.bind fun mark => ?_
  split
  · exact Call.matches_pure _
  · refine (matches_modifyShard hi _).bind fun _ => ?_
    refine (Call.matches_change fun _ _ h => ?_).bind fun _ => Call.matches_pure _
    exact { h with distinct := congrArg (· - _) h.distinct }

theorem matches_reportPrune (threshold removed : Nat) :
    (reportPrune threshold removed).Matches (Twins base away before) := by
  refine (Call.matches_change fun _ _ h => ?_).bind fun _ => matches_size.bind fun size =>
    Call.matches_note _
  exact { h with }

theorem matches_raiseMark : raiseMark.Matches (Twins base away before) :=
  Call.matches_change fun _ _ h => { h with mark := rfl }

theorem matches_snapshotShard (hi : ¬away i) :
    (snapshotShard i).Matches (Twins base away before) :=
  (matches_lockShard hi).bind fun _ => Call.matches_pure _

theorem matches_publish (keys : List Key) : (publish keys).Matches (Twins base away before) := by
  refine (Call.matches_note _).bind fun _ => Call.matches_change fun _ _ h => ?_
  exact { h with handOff := rfl, seals := congrArg (· + 1) h.seals }

theorem matches_clearShard (hi : ¬away i) :
    (clearShard i).Matches (Twins base away before) := by
  intro c d h
  rw [run_clearShard, run_clearShard, h.shard i hi]
  split
  · exact ⟨rfl, rfl, h⟩
  · exact ⟨rfl, rfl, h.modifyShard hi _⟩

theorem matches_startOver : startOver.Matches (Twins base away before) :=
  Call.matches_change fun _ _ h =>
    { h with distinct := rfl, processed := rfl, handOff := rfl, mark := rfl }

/-! ## Calls on twins -/

theorem matches_pruneFrom (threshold : Nat) : ∀ (is : List Nat) (removed : Nat),
    (∀ i ∈ is, ¬away i) → (pruneFrom threshold is removed).Matches (Twins base away before)
  | [], removed, _ => Call.matches_pure removed
  | i :: is, removed, his => by
    refine (matches_pruneShard (his i List.mem_cons_self) threshold).bind fun n => ?_
    cases n with
    | none => exact Call.matches_pure removed
    | some n =>
      exact matches_pruneFrom threshold is _ fun j hj => his j (List.mem_cons_of_mem i hj)

theorem matches_prune (hall : ∀ i, ¬away i) (threshold : Nat) :
    (prune threshold).Matches (Twins base away before) := by
  refine .gets_bind (fun _ _ h => h.slots_eq) ?_
  refine (matches_pruneFrom threshold _ 0 fun i _ => hall i).bind fun removed => ?_
  exact (matches_reportPrune threshold removed).bind fun _ => Call.matches_pure _

/-- **Only a census without a cap can leave shards alone when it is time to check the cap.** -/
theorem matches_checkpoint (hcap : base.limits.cap = none ∨ ∀ i, ¬away i) :
    checkpoint.Matches (Twins base away before) := by
  refine matches_account.bind fun due => ?_
  split
  · refine .gets_bind (fun _ _ h => ⟨h.limits_left, h.limits_right⟩) ?_
    split
    · exact Call.matches_pure _
    · rename_i cap hsome
      have hall := hcap.resolve_left (by simp [hsome])
      refine matches_size.bind fun size => ?_
      split
      · refine (matches_prune hall _).bind fun _ => matches_size.bind fun size => ?_
        split
        · exact Call.matches_note _
        · exact Call.matches_pure _
      · exact Call.matches_pure _
  · exact Call.matches_pure _

theorem matches_count (hk : ¬away (base.slot k)) (hcap : base.limits.cap = none ∨ ∀ i, ¬away i)
    {payload : Payload} (hp : payload.Matches (Twins base away before)) :
    (count k payload).Matches (Twins base away before) := by
  refine (matches_probe hk).bind fun found => ?_
  cases found with
  | late => exact Call.matches_pure _
  | counted => exact (matches_checkpoint hcap).bind fun _ => Call.matches_pure _
  | absent =>
    refine (matches_enter hk hp).bind fun entry => ?_
    cases entry with
    | late => exact Call.matches_pure _
    | counted => exact (matches_checkpoint hcap).bind fun _ => Call.matches_pure _
    | created => exact (matches_checkpoint hcap).bind fun _ => Call.matches_pure _

theorem matches_countOf (hk : ¬away (base.slot k)) :
    (countOf k).Matches (Twins base away before) :=
  .gets_bind (fun _ _ h => h.slot_eq k) ((matches_lockShard hk).bind fun _ => Call.matches_pure _)

theorem matches_retained (hk : ¬away (base.slot k)) :
    (retained k).Matches (Twins base away before) :=
  .gets_bind (fun _ _ h => h.slot_eq k) ((matches_lockShard hk).bind fun _ => Call.matches_pure _)

theorem matches_snapshotFrom : ∀ is : List Nat, (∀ i ∈ is, ¬away i) →
    (snapshotFrom is).Matches (Twins base away before)
  | [], _ => Call.matches_pure _
  | i :: is, his => by
    refine (matches_snapshotShard (his i List.mem_cons_self)).bind fun keys => ?_
    refine (matches_snapshotFrom is fun j hj => his j (List.mem_cons_of_mem i hj)).bind fun _ => ?_
    exact Call.matches_pure _

theorem matches_trySeal (hall : ∀ i, ¬away i) : trySeal.Matches (Twins base away before) := by
  refine matches_underSeal ((Call.matches_gets fun _ _ h => ?_).bind fun handedOff => ?_)
  · rw [h.handOff]
  split
  · exact Call.matches_pure _
  · refine matches_raiseMark.bind fun _ => .gets_bind (fun _ _ h => h.slots_eq) ?_
    refine (matches_snapshotFrom _ fun i _ => hall i).bind fun keys => ?_
    exact (matches_publish keys).bind fun _ => Call.matches_pure _

theorem matches_take : take.Matches (Twins base away before) := by
  intro c d h
  rw [run_take, run_take, h.handOff, h.lock]
  split
  · split <;> exact ⟨rfl, rfl, h⟩
  · exact ⟨rfl, rfl, { h with handOff := rfl }⟩

theorem matches_forEach_clearShard : ∀ is : List Nat, (∀ i ∈ is, ¬away i) →
    (Call.forEach clearShard is).Matches (Twins base away before)
  | [], _ => Call.matches_pure _
  | i :: is, his => (matches_clearShard (his i List.mem_cons_self)).bind fun _ =>
    matches_forEach_clearShard is fun j hj => his j (List.mem_cons_of_mem i hj)

theorem matches_clear (hall : ∀ i, ¬away i) : clear.Matches (Twins base away before) := by
  refine matches_underSeal (.gets_bind (fun _ _ h => h.slots_eq) ?_)
  exact (matches_forEach_clearShard _ fun i _ => hall i).bind fun _ => matches_startOver

/-! ## Operations on twins -/

/-- **Operations that keep to the shards that are not away.** Pruning, sealing and clearing visit
all shards, and so does an increment when the cap is exceeded. -/
def Operation.Within (base : Census) (away : Nat → Prop) : Operation → Prop
  | .increment k _ => ¬away (base.slot k) ∧ (base.limits.cap = none ∨ ∀ i, ¬away i)
  | .countOf k | .retained k => ¬away (base.slot k)
  | .prune _ | .trySeal | .clear => ∀ i, ¬away i
  | .size | .processed | .seals | .isSealed | .remaining | .take => True

/-- Where no shard is away, all operations keep to the others. -/
theorem Operation.within_of_none (op : Operation) (hall : ∀ i, ¬away i) : op.Within base away := by
  cases op with
  | increment k deposit => exact ⟨hall _, .inr hall⟩
  | countOf k => exact hall _
  | retained k => exact hall _
  | prune threshold => exact hall
  | trySeal => exact hall
  | clear => exact hall
  | _ => trivial

/-- **The same reply, of a census that had been sealed more often** before. -/
def Reply.later (before : Nat) : Operation → Reply → Reply
  | .seals, .number n => .number (before + n)
  | _, r => r

theorem Reply.later_of_ne {op : Operation} (hop : op ≠ .seals) (before : Nat) :
    Reply.later before op = id := by
  funext r
  cases op with
  | seals => exact absurd rfl hop
  | _ => rfl

/-- Where nothing was sealed before, nothing is later. -/
theorem Reply.later_zero (op : Operation) : Reply.later 0 op = id := by
  funext r
  cases op with
  | seals => cases r <;> simp [later]
  | _ => rfl

theorem matches_perform {op : Operation} (hop : op.Within base away) (hs : op ≠ .seals) :
    (perform op).Matches (Twins base away before) := by
  cases op with
  | increment k deposit =>
    have hp : (Payload.ofDeposit deposit).Matches (Twins base away before) := by
      rw [Payload.ofDeposit_eq]
      exact fun _ _ h => ⟨rfl, rfl, h⟩
    exact (matches_count hop.1 hop.2 hp).map _
  | countOf k => exact (matches_countOf hop).map _
  | retained k => exact (matches_retained hop).map _
  | prune threshold => exact (matches_prune hop threshold).map _
  | size => exact matches_size.map _
  | processed => exact (Call.matches_gets fun _ _ h => h.processed).map _
  | trySeal => exact (matches_trySeal hop).map _
  | seals => exact absurd rfl hs
  | isSealed => exact matches_sealed.map _
  | remaining =>
    exact (Call.matches_gets fun _ _ h => congrArg (Option.map HandOff.remaining) h.handOff).map _
  | take => exact matches_take.map _
  | clear => exact (matches_clear hop).map _

namespace Twins

/-- **Twins answer alike**, but for the number of seals. -/
theorem perform (h : Twins base away before c d) {op : Operation} (hop : op.Within base away) :
    ((perform op).run d).result = ((perform op).run c).result.map (Reply.later before op) ∧
      ((perform op).run d).notices = ((perform op).run c).notices ∧
        Twins base away before ((perform op).run c).state ((perform op).run d).state := by
  by_cases hs : op = .seals
  · subst hs
    refine ⟨?_, rfl, h⟩
    show Except.ok (Reply.number d.seals) = .ok (.number (before + c.seals))
    rw [h.seals]
  · obtain ⟨hresult, hnotices, hstate⟩ := matches_perform hop hs c d h
    rw [Reply.later_of_ne hs, Except.map_id]
    exact ⟨hresult, hnotices, hstate⟩

/-- **So they do to any number of calls.** -/
theorem performAll (h : Twins base away before c d) {ops : List Operation}
    (hops : ∀ op ∈ ops, op.Within base away) :
    ((performAll ops).run d).result =
        ((performAll ops).run c).result.map (List.zipWith (Reply.later before) ops) ∧
      ((performAll ops).run d).notices = ((performAll ops).run c).notices ∧
        Twins base away before ((performAll ops).run c).state ((performAll ops).run d).state := by
  induction ops generalizing c d with
  | nil => exact ⟨rfl, rfl, h⟩
  | cons op ops ih =>
    obtain ⟨hresult, hnotices, hstate⟩ := h.perform (hops op List.mem_cons_self)
    rcases hc : (Census.perform op).run c with ⟨r, c', ns⟩
    rcases hd : (Census.perform op).run d with ⟨r', d', ns'⟩
    rw [hc, hd] at hresult hnotices hstate
    obtain rfl : r' = r.map (Reply.later before op) := hresult
    obtain rfl : ns' = ns := hnotices
    cases r with
    | error e =>
      rw [Census.performAll, Call.run_bind_error hc, Call.run_bind_error hd]
      exact ⟨rfl, rfl, hstate⟩
    | ok reply =>
      obtain ⟨hresult, hnotices, hstate⟩ :=
        ih hstate fun op' hop' => hops op' (List.mem_cons_of_mem op hop')
      rw [Census.performAll, Call.run_bind_ok hc, Call.run_bind_ok hd]
      simp only [bind_pure_comp, Call.run_map, hresult, hnotices]
      refine ⟨?_, trivial, hstate⟩
      cases ((Census.performAll ops).run c').result <;> rfl

/-- Where calls on the first twin are answered, they are answered on the second. -/
theorem run_performAll (h : Twins base away before c d) {ops : List Operation}
    (hops : ∀ op ∈ ops, op.Within base away) {replies : List Reply} {c' : Census}
    {ns : List Notice} (hc : (Census.performAll ops).run c = ⟨.ok replies, c', ns⟩) :
    ∃ d', (Census.performAll ops).run d =
        ⟨.ok (List.zipWith (Reply.later before) ops replies), d', ns⟩ ∧
      Twins base away before c' d' := by
  obtain ⟨hresult, hnotices, hstate⟩ := h.performAll hops
  rw [hc] at hresult hnotices hstate
  exact ⟨_, Outcome.ext hresult rfl hnotices, hstate⟩

/-- **Nobody gets at a key that was poisoned and left alone.** -/
theorem barred (h : Twins base away before c d) (hk : away (base.slot k))
    (hp : base.Poisoned (base.slot k)) : d.Barred k := by
  refine barred_of_poisoned ?_
  rwa [Poisoned, (h.slot_eq k).2, h.aside _ hk]

end Twins

end Muster.Census
