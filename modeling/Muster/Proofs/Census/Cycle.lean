import Muster.Proofs.Census.HandOff
import Muster.Proofs.Census.Steady

/-!
# Proofs/Census/Cycle — sealing a census

What a seal does when nobody comes between its sections: the first one publishes the keys that are
there, any other changes nothing (`run_trySeal`). A seal that meets a poisoned lock breaks off
(`trySeal_cases`).
-/

namespace Muster.Census

variable {c : Census}

/-! ## Sealing -/

theorem run_snapshotFrom (hh : c.Healthy) : ∀ is : List Nat,
    (snapshotFrom is).run c = ⟨.ok (is.flatMap fun i => (c.shard i).keys), c, []⟩
  | [] => rfl
  | i :: is => by
    rw [snapshotFrom, Call.run_bind, run_snapshotShard, hh.shard]
    simp [run_snapshotFrom hh is, Except.map]

/-- A poisoned shard among those to visit ends a seal, whatever was read before. -/
theorem run_snapshotFrom_of_poisoned {i : Nat} (hp : (c.shard i).poisoned = true) :
    ∀ is : List Nat, i ∈ is → (snapshotFrom is).run c = ⟨.error .poisoned, c, []⟩
  | j :: is, hi => by
    rw [snapshotFrom, Call.run_bind, run_snapshotShard]
    by_cases hj : (c.shard j).poisoned = true
    · rw [if_pos hj]
    · have his : i ∈ is := (List.mem_cons.1 hi).resolve_left fun hij => hj (hij ▸ hp)
      simp [hj, run_snapshotFrom_of_poisoned hp is his, Except.map]

/-- The census after a seal: marked, and with a hand-off of the keys that were there. -/
def sealOff (c : Census) : Census := c.marked.published c.keys

/-- **The first seal publishes the keys that are there**; any other changes nothing. -/
theorem run_trySeal (hh : c.Healthy) :
    trySeal.run c =
      if c.handOff.isSome then ⟨.ok false, c, []⟩
      else ⟨.ok true, c.sealOff, [.sealed c.keys.length]⟩ := by
  have hmarked : c.marked.Healthy := hh.congr rfl rfl
  have hkeys : (c.marked.slots.flatMap fun i => (c.marked.shard i).keys) = c.keys := rfl
  by_cases ho : c.handOff.isSome = true
  · simp [trySeal, run_underSeal, Call.run_bind, hh.lock, ho]
  · simp [trySeal, run_underSeal, Call.run_bind, hh.lock, ho, run_raiseMark,
      run_snapshotFrom hmarked, hkeys, run_publish, sealOff, Except.map]

/-- **A poisoned shard breaks the first seal off**, when the mark has been raised. -/
theorem run_trySeal_of_poisoned (hlock : c.sealPoisoned = false) (ho : c.handOff = none) {i : Nat}
    (hi : (c.shard i).poisoned = true) :
    trySeal.run c = ⟨.error .poisoned, { c.marked with sealPoisoned := true }, []⟩ := by
  have hstop : (snapshotFrom c.marked.slots).run c.marked = ⟨.error .poisoned, c.marked, []⟩ :=
    run_snapshotFrom_of_poisoned (c := c.marked) hi _ (List.mem_range.2 (lt_of_poisoned hi))
  simp [trySeal, run_underSeal, Call.run_bind, hlock, ho, run_raiseMark, hstop]

/-- **What sealing can come to.** It breaks off at the lock of the seal and at a poisoned shard. -/
theorem trySeal_cases (c : Census) :
    (c.sealPoisoned = true ∧ trySeal.run c = ⟨.error .poisoned, c, []⟩) ∨
    (c.sealPoisoned = false ∧ c.handOff = none ∧ (∃ i, (c.shard i).poisoned = true) ∧
      trySeal.run c = ⟨.error .poisoned, { c.marked with sealPoisoned := true }, []⟩) ∨
    ∃ new d ns, trySeal.run c = ⟨.ok new, d, ns⟩ := by
  cases hlock : c.sealPoisoned with
  | true =>
    refine .inl ⟨rfl, ?_⟩
    rw [trySeal, run_underSeal, hlock]
    rfl
  | false =>
    cases ho : c.handOff with
    | some h =>
      exact .inr (.inr ⟨false, c, [], by simp [trySeal, run_underSeal, Call.run_bind, hlock, ho]⟩)
    | none =>
      by_cases hp : ∃ i, (c.shard i).poisoned = true
      · exact .inr (.inl ⟨rfl, rfl, hp, run_trySeal_of_poisoned hlock ho hp.choose_spec⟩)
      · have hh : c.Healthy := ⟨fun i => Bool.not_eq_true _ ▸ not_exists.1 hp i, hlock⟩
        refine .inr (.inr ⟨true, c.sealOff, [.sealed c.keys.length], ?_⟩)
        rw [run_trySeal hh, ho]
        rfl

/-- **What a seal publishes is final.** -/
theorem final_sealOff (c : Census) : c.sealOff.Final { keys := c.keys.toArray } := ⟨rfl, rfl⟩

theorem run_awaitSeal (hh : c.Healthy) :
    awaitSeal.run c = ⟨.ok c.handOff.isSome, c, []⟩ := by
  by_cases ho : c.handOff.isSome = true <;>
    simp [awaitSeal, run_underSeal, Call.run_bind, hh.lock, ho]

end Muster.Census
