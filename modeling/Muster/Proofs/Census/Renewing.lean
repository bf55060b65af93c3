import Muster.Proofs.Census.Cycle
import Muster.Proofs.Census.Ledger
import Muster.Proofs.Census.Twins

/-!
# Proofs/Census/Renewing — what clearing renews

Clearing empties every shard, those too in which somebody broke off, but it does not heal them.
What is left is a twin of a new census outside of its poisoned shards (`Fresh.twins_cleared`), and
there it answers like a new one. In a poisoned shard no key can be counted any more, and no seal
gets past it: a census is renewed exactly if no shard is poisoned (`clear_renews`).
-/

namespace Muster.Census

variable {c d e : Census} {before : Nat} {ns : List Notice}

/-- **The second census answers to all sequences of calls like the first one**, and says the same;
but it had been sealed before, so many times. -/
def AnswersLike (before : Nat) (e d : Census) : Prop :=
  ∀ ops : List Operation, ∃ replies e' d' ns, (performAll ops).run e = ⟨.ok replies, e', ns⟩ ∧
    (performAll ops).run d = ⟨.ok (List.zipWith (Reply.later before) ops replies), d', ns⟩

/-- **A call that clears a census has found nobody inside.** -/
theorem cleared_of_run (h : clear.run c = ⟨.ok (), d, ns⟩) :
    d = c.cleared ∧ c.sealPoisoned = false ∧ ∀ i, (c.shard i).held = false := by
  obtain ⟨-, hrun⟩ | ⟨hlock, hfree, hrun⟩ | ⟨i, -, -, -, hrun⟩ := c.clear_cases
  · exact absurd (congrArg Outcome.result (h.symm.trans hrun)) (by simp)
  · exact ⟨congrArg Outcome.state (h.symm.trans hrun), hlock, hfree⟩
  · exact absurd (congrArg Outcome.result (h.symm.trans hrun)) (by simp)

theorem slot_cleared (c : Census) (k : Key) : c.cleared.slot k = c.slot k := by
  rw [slot, slot, size_cleared]

/-- **Clearing heals no shard.** -/
theorem poisoned_cleared (c : Census) (i : Nat) : c.cleared.Poisoned i ↔ c.Poisoned i := by
  rw [Poisoned, Poisoned, shard_cleared]
  rfl

/-- **What has been cleared is a twin of what is new**, outside of its poisoned shards. -/
theorem Fresh.twins_cleared (he : e.Fresh) (hlimits : e.limits = c.limits)
    (hsize : e.shards.size = c.shards.size) (hseals : e.seals = 0) (hlock : c.sealPoisoned = false)
    (hfree : ∀ i, (c.shard i).held = false) : Twins c.cleared c.Poisoned c.seals e c.cleared := by
  obtain ⟨shards, hpos, heq⟩ := c.cleared_eq
  refine
    { size_left := hsize.trans c.size_cleared.symm
      size_right := rfl
      limits_left := ?_
      limits_right := rfl
      shard := fun i hi => ?_
      aside := fun _ _ => rfl
      distinct := he.distinct.symm
      processed := he.processed.symm
      mark := he.mark.symm
      handOff := he.handOff.symm
      lock := ?_
      seals := ?_ }
  · rw [hlimits, heq]
  · rw [shard_cleared, he.shard]
    show Shard.mk [] (c.shard i).poisoned (c.shard i).held = {}
    rw [hfree, eq_false_of_ne_true hi]
  · rw [he.lock, heq, hlock]
  · rw [hseals, heq]
    rfl

/-- **What has been cleared answers like what is new** to all calls that keep to the shards that are
not poisoned; the keys of the others stay out of reach. -/
theorem Fresh.answers_cleared (he : e.Fresh)
    (h : Twins c.cleared c.Poisoned before e c.cleared) {ops : List Operation}
    (hops : ∀ op ∈ ops, op.Within c.cleared c.Poisoned) :
    ∃ replies e' d' ns, (performAll ops).run e = ⟨.ok replies, e', ns⟩ ∧
      (performAll ops).run c.cleared =
        ⟨.ok (List.zipWith (Reply.later before) ops replies), d', ns⟩ ∧
      ∀ k, c.Poisoned (c.slot k) → d'.Barred k := by
  obtain ⟨replies, e', ns, -, hrun, -⟩ := he.mirrors.performAll ops
  obtain ⟨d', hrun', htwins⟩ := h.run_performAll hops hrun
  refine ⟨replies, e', d', ns, hrun, hrun', fun k hk => ?_⟩
  rw [← slot_cleared] at hk
  exact htwins.barred hk ((c.poisoned_cleared _).2 hk)

/-- **After clearing a poisoned shard stops the next seal.** -/
theorem run_trySeal_cleared (hlock : c.sealPoisoned = false) {i : Nat} (hi : c.Poisoned i) :
    trySeal.run c.cleared =
      ⟨.error .poisoned, { c.cleared.marked with sealPoisoned := true }, []⟩ := by
  obtain ⟨shards, hpos, heq⟩ := c.cleared_eq
  have hlock' : c.cleared.sealPoisoned = false := by rw [heq, hlock]
  exact run_trySeal_of_poisoned hlock' rfl ((c.poisoned_cleared i).2 hi)

/-- **Clearing renews a census exactly if no shard is poisoned.** Whatever has happened to the
census, if clearing it answers, then the following holds for each new census of as many shards and
with the same bounds. To all sequences of calls the cleared census answers like the new one, but for
the seals that it had before, if and only if nobody broke off inside one of its shards. Otherwise it
still answers so to all calls that keep to the other shards; but nobody gets at a key of a poisoned
shard, and pruning and sealing break off. -/
theorem clear_renews (h : clear.run c = ⟨.ok (), d, ns⟩) (he : e.Fresh)
    (hlimits : e.limits = c.limits) (hsize : e.shards.size = c.shards.size) (hseals : e.seals = 0) :
    (AnswersLike c.seals e d ↔ ∀ i, ¬c.Poisoned i) ∧
    (∀ ops : List Operation, (∀ op ∈ ops, op.Within d c.Poisoned) →
      ∃ replies e' d' ns, (performAll ops).run e = ⟨.ok replies, e', ns⟩ ∧
        (performAll ops).run d = ⟨.ok (List.zipWith (Reply.later c.seals) ops replies), d', ns⟩ ∧
        ∀ k, c.Poisoned (c.slot k) → d'.Barred k) ∧
    ((∃ i, c.Poisoned i) → (trySeal.run d).result = .error .poisoned ∧
      ∀ threshold, ((prune threshold).run d).result = .error .poisoned) := by
  obtain ⟨rfl, hlock, hfree⟩ := cleared_of_run h
  have htwins := he.twins_cleared hlimits hsize hseals hlock hfree
  refine ⟨⟨fun hlike i hi => ?_, fun hnone ops => ?_⟩, fun ops => he.answers_cleared htwins,
    fun ⟨i, hi⟩ => ⟨?_, ?_⟩⟩
  · -- what is new answers a seal
    obtain ⟨replies, e', d', ns, -, hrun⟩ := hlike [.trySeal]
    have hstop : (perform .trySeal).run c.cleared =
        ⟨.error .poisoned, { c.cleared.marked with sealPoisoned := true }, []⟩ := by
      rw [perform, Call.run_map, run_trySeal_cleared hlock hi]
      rfl
    rw [performAll, Call.run_bind_error hstop] at hrun
    exact absurd (congrArg Outcome.result hrun) (by simp)
  · obtain ⟨replies, e', d', ns, hrun, hrun', -⟩ :=
      he.answers_cleared htwins fun op (_ : op ∈ ops) => op.within_of_none hnone
    exact ⟨replies, e', d', ns, hrun, hrun'⟩
  · rw [run_trySeal_cleared hlock hi]
  · exact run_prune_of_poisoned rfl ((c.poisoned_cleared i).2 hi)

/-- The key in the shard that was spared is counted again, that in the other shard is not. -/
theorem clear_renews_spoilt :
    let k := Key.ofRecord (.field "id" (.int 7) .empty)
    let l := Key.ofRecord (.field "id" (.int 1) .empty)
    let c := spoilt {} k l
    let ops := [.increment k none, .increment k none, .countOf k, .size, .take]
    ∃ d, clear.run c = ⟨.ok (), d, []⟩ ∧ ¬AnswersLike 0 (pair c.limits) d ∧
      ∃ replies e' d' ns, (performAll ops).run (pair c.limits) = ⟨.ok replies, e', ns⟩ ∧
        (performAll ops).run d = ⟨.ok (List.zipWith (Reply.later 0) ops replies), d', ns⟩ ∧
        d'.Barred l := by
  intro k l c ops
  have hrun : clear.run c = ⟨.ok (), (clear.run c).state, []⟩ :=
    Outcome.ext (by decide +kernel) rfl (by decide +kernel)
  have hsize : (pair c.limits).shards.size = c.shards.size := by decide +kernel
  have hseals : c.seals = 0 := by decide +kernel
  have hcap : (clear.run c).state.limits.cap = none := by decide +kernel
  have hl : c.Poisoned (c.slot l) := by
    unfold Poisoned
    decide +kernel
  have hk : ¬c.Poisoned ((clear.run c).state.slot k) := by
    unfold Poisoned
    decide +kernel
  have hrenews := clear_renews hrun (fresh_pair c.limits) rfl hsize rfl
  rw [hseals] at hrenews
  obtain ⟨hlike, hwithin, -⟩ := hrenews
  obtain ⟨replies, e', d', ns, hnew, hold, hbarred⟩ := hwithin ops fun op hop => by
    simp only [ops, List.mem_cons, List.not_mem_nil, or_false] at hop
    obtain rfl | rfl | rfl | rfl | rfl := hop
    · exact ⟨hk, .inl hcap⟩
    · exact ⟨hk, .inl hcap⟩
    · exact hk
    · trivial
    · trivial
  exact ⟨_, hrun, fun h => hlike.1 h _ hl, replies, e', d', ns, hnew, hold, hbarred l hl⟩

/-- A key that could not be entered cannot be entered after clearing either. -/
theorem clear_leaves_poison :
    let k := Key.ofRecord (.field "x" (.int 1) .empty)
    let c := ((count k (.raising "payload failed")).run (single {})).state
    ∃ d, clear.run c = ⟨.ok (), d, []⟩ ∧
      ((count k .nothing).run (single {})).result = .ok true ∧
      ((count k .nothing).run d).result = .error .poisoned := by
  intro k c
  refine ⟨(clear.run c).state, Outcome.ext ?_ rfl ?_, ?_, ?_⟩ <;> decide +kernel

end Muster.Census
