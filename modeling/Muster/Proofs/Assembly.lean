import Mathlib.Data.Finset.Card
import Muster.Barrier

/-!
# Proofs/Assembly — whom a barrier counts

A barrier knows its parties by their number alone. An assembly knows them by name: who is
registered, in which phase each of them arrived last, and which phase is in progress. Parties that
do only what is theirs to do (`Assembly.Allows`) find in the barrier a true count of the assembly,
whatever they do and in whatever order: nobody is counted twice, and an arrival that was made in an
earlier phase, or has been discarded, is not counted at all.

* `Assembly.moved`, `Assembly.Completes` — what a move does to the parties, and whether that ends
  the phase.
* `Barrier.Counts.run_call` — one move, on the barrier and in the assembly.
* `Barrier.counts_assembly` — any number of moves.
-/

namespace Muster

namespace Assembly

variable {ι : Type}

/-! ## Moves -/

/-- **What a party can do at a barrier**, and that the arrivals are discarded. -/
inductive Move (ι : Type)
  | register (p : ι)
  | arrive (p : ι)
  /-- leaves without having arrived in the phase in progress -/
  | leave (p : ι)
  /-- leaves, and says in which phase it arrived last -/
  | deregister (p : ι) (phase : Nat)
  | reset
  deriving DecidableEq

/-- **What a move is answered.** -/
inductive Reply
  | done
  | arrived (a : Arrival)
  | left (completed : Bool)
  deriving DecidableEq

/-- Does the answer say that the phase is complete? -/
def Reply.completed : Reply → Bool
  | done => false
  | arrived a => a.last
  | left completed => completed

/-- **The call that a move is.** The barrier is not told who makes it. -/
def Move.call : Move ι → Call Barrier Reply
  | register _ => do
    Barrier.register
    return .done
  | arrive _ => .arrived <$> Barrier.arrive
  | leave _ => .left <$> Barrier.leave
  | deregister _ phase => .left <$> Barrier.deregister phase
  | reset => do
    Barrier.reset
    return .done

end Assembly

/-! ## Assemblies -/

variable {ι : Type}

/-- **An assembly**: the parties that are registered, the phase in which a party arrived last, if it
has arrived, and the phase in progress. -/
structure Assembly (ι : Type) where
  parties : Finset ι
  latest : ι → Option Nat := fun _ => none
  phase : Nat := 0

namespace Assembly

variable {a : Assembly ι} {p : ι}

/-- An assembly in its first phase, of parties that have not arrived. -/
def ofNames (names : Finset ι) : Assembly ι := { parties := names }

/-- **Those who have arrived in the phase in progress.** -/
def arrivals (a : Assembly ι) : Finset ι := a.parties.filter fun p => a.latest p = some a.phase

/-- **Has everybody arrived in the phase in progress?** -/
def Complete (a : Assembly ι) : Prop := ∀ p ∈ a.parties, a.latest p = some a.phase

instance : Decidable a.Complete :=
  inferInstanceAs (Decidable (∀ p ∈ a.parties, a.latest p = some a.phase))

theorem mem_arrivals : p ∈ a.arrivals ↔ p ∈ a.parties ∧ a.latest p = some a.phase :=
  Finset.mem_filter

/-- **Everybody has arrived exactly if no fewer have arrived than are registered.** -/
theorem complete_iff : a.Complete ↔ a.parties.card ≤ a.arrivals.card := by
  rw [Complete, ← Finset.filter_eq_self]
  exact ⟨fun h => (congrArg Finset.card h).ge,
    Finset.eq_of_subset_of_card_le (Finset.filter_subset _ _)⟩

variable [DecidableEq ι] {m : Move ι}

/-! ## Moves in an assembly -/

/-- **Is a move somebody's to make?** Whoever registers is new; whoever arrives or leaves without an
arrival has not arrived in the phase in progress; and whoever leaves after an arrival names the
phase of its latest one. -/
def Allows (a : Assembly ι) : Move ι → Prop
  | .register p => p ∉ a.parties
  | .arrive p | .leave p => p ∈ a.parties ∧ a.latest p ≠ some a.phase
  | .deregister p phase => p ∈ a.parties ∧ a.latest p = some phase
  | .reset => True

instance : Decidable (a.Allows m) :=
  match m with
  | .register p => inferInstanceAs (Decidable (p ∉ a.parties))
  | .arrive _ | .leave _ | .deregister .. => inferInstanceAs (Decidable (_ ∧ _))
  | .reset => .isTrue trivial

/-- **What a move does to the parties**, before the phase moves on. Nobody registers while somebody
has arrived, nor when the barrier is full. -/
def moved (a : Assembly ι) : Move ι → Assembly ι
  | .register p =>
    if a.arrivals.Nonempty ∨ Barrier.maxParties ≤ a.parties.card then a
    else { a with parties := insert p a.parties, latest := Function.update a.latest p none }
  | .arrive p => { a with latest := Function.update a.latest p (some a.phase) }
  | .leave p | .deregister p _ => { a with parties := a.parties.erase p }
  | .reset => if a.arrivals.Nonempty then { a with phase := a.phase + 1 } else a

/-- **Does a move complete the phase?** Whoever arrives or leaves does, if everybody who is then
left has arrived, and if there is an arrival at all or the party leaves without one. -/
def Completes (a : Assembly ι) : Move ι → Prop
  | .register _ | .reset => False
  | .arrive p => (a.moved (.arrive p)).Complete ∧ (a.moved (.arrive p)).arrivals.Nonempty
  | .leave p => (a.moved (.leave p)).Complete
  | .deregister p phase =>
    (a.moved (.deregister p phase)).Complete ∧ (a.moved (.deregister p phase)).arrivals.Nonempty

instance : Decidable (a.Completes m) :=
  match m with
  | .register _ | .reset => .isFalse id
  | .arrive _ | .deregister .. => inferInstanceAs (Decidable (_ ∧ _))
  | .leave _ => inferInstanceAs (Decidable (Complete _))

/-- **The assembly after a move.** -/
def next (a : Assembly ι) (m : Move ι) : Assembly ι :=
  if a.Completes m then { a.moved m with phase := a.phase + 1 } else a.moved m

/-- The assembly after some moves. -/
def after (a : Assembly ι) (moves : List (Move ι)) : Assembly ι := moves.foldl next a

/-- **Is every move somebody's to make**, when it is made? -/
def AllowsAll (a : Assembly ι) : List (Move ι) → Prop
  | [] => True
  | m :: moves => a.Allows m ∧ (a.next m).AllowsAll moves

/-- **The answer that an assembly expects** to a move that is made. -/
def reply (a : Assembly ι) : Move ι → Reply
  | .register _ | .reset => .done
  | .arrive p => .arrived { phase := a.phase, last := decide (a.Completes (.arrive p)) }
  | .leave p => .left (decide (a.Completes (.leave p)))
  | .deregister p phase => .left (decide (a.Completes (.deregister p phase)))

instance decidableAllowsAll :
    (a : Assembly ι) → (moves : List (Move ι)) → Decidable (a.AllowsAll moves)
  | _, [] => .isTrue trivial
  | a, m :: moves =>
    letI := decidableAllowsAll (a.next m) moves
    inferInstanceAs (Decidable (_ ∧ _))

/-! ## Who has arrived -/

/-- One more has arrived. -/
theorem arrivals_arrive (hp : p ∈ a.parties) :
    (a.moved (.arrive p)).arrivals = insert p a.arrivals := by
  ext q
  rw [mem_arrivals, Finset.mem_insert, mem_arrivals]
  by_cases hq : q = p
  · subst hq
    simp [moved, hp]
  · simp [moved, hq]

/-- Whoever leaves takes its arrival along. -/
theorem arrivals_leave (a : Assembly ι) (p : ι) :
    (a.moved (.leave p)).arrivals = a.arrivals.erase p := Finset.filter_erase _ _ _

/-- Whoever is new has not arrived. -/
theorem arrivals_insert (hp : p ∉ a.parties) :
    Assembly.arrivals { a with
      parties := insert p a.parties, latest := Function.update a.latest p none } = a.arrivals := by
  ext q
  rw [mem_arrivals, mem_arrivals, Finset.mem_insert]
  by_cases hq : q = p
  · subst hq
    simp [hp]
  · simp [hq]

end Assembly

/-! ## Counting -/

namespace Barrier

open Assembly

variable {a : Assembly ι} {b : Barrier}

/-- **The numbers of a barrier are those of an assembly**, in which nobody has arrived in a phase to
come. -/
structure Tallies (b : Barrier) (a : Assembly ι) : Prop where
  parties : b.parties = a.parties.card
  arrived : b.arrived = a.arrivals.card
  phase : b.phase = a.phase
  past (p : ι) (phase : Nat) : a.latest p = some phase → phase ≤ a.phase

/-- **A barrier counts an assembly**: it has its numbers, and the phase in progress is not
complete unless nobody has arrived. -/
structure Counts (b : Barrier) (a : Assembly ι) : Prop extends b.Tallies a where
  missing : b.arrived = 0 ∨ b.arrived < b.parties

namespace Tallies

theorem lt_iff (h : b.Tallies a) : b.arrived < b.parties ↔ ¬a.Complete := by
  rw [complete_iff, h.arrived, h.parties, Nat.not_le]

theorem arrivals_nonempty (h : b.Tallies a) : a.arrivals.Nonempty ↔ 0 < b.arrived := by
  rw [← Finset.card_pos, h.arrived]

/-- Where somebody is registered, the barrier has a party. -/
theorem parties_ne_zero (h : b.Tallies a) {p : ι} (hp : p ∈ a.parties) : b.parties ≠ 0 := by
  rw [h.parties]
  exact Finset.card_ne_zero_of_mem hp

/-- **In the next phase nobody has arrived.** -/
theorem completed (h : b.Tallies a) :
    Counts { b with arrived := 0, phase := b.phase + 1 } { a with phase := a.phase + 1 } where
  parties := h.parties
  arrived := by
    refine (Finset.card_eq_zero.2 (Finset.filter_eq_empty_iff.2 fun p _ hp => ?_)).symm
    exact absurd (h.past p _ hp) (Nat.not_succ_le_self _)
  phase := congrArg (· + 1) h.phase
  past p phase hp := Nat.le_succ_of_le (h.past p phase hp)
  missing := Or.inl rfl

/-- **Looking whether everybody has arrived** ends the phase if so. -/
theorem run_tryAdvance (h : b.Tallies a) :
    ∃ c ns, tryAdvance.run b = ⟨.ok (decide a.Complete), c, ns⟩ ∧
      c.Counts (if a.Complete then { a with phase := a.phase + 1 } else a) := by
  rw [Barrier.run_tryAdvance]
  by_cases hall : a.Complete
  · have hnone : ¬b.arrived < b.parties := fun hlt => h.lt_iff.1 hlt hall
    rw [if_neg hnone, if_pos hall, decide_eq_true hall]
    exact ⟨_, _, rfl, h.completed⟩
  · have hlt := h.lt_iff.2 hall
    rw [if_pos hlt, if_neg hall, decide_eq_false hall]
    exact ⟨_, _, rfl, h, Or.inr hlt⟩

end Tallies

/-- At first nobody has arrived. -/
theorem Counts.ofNames (names : Finset ι) : (ofParties names.card).Counts (.ofNames names) where
  parties := rfl
  arrived := by
    refine (Finset.card_eq_zero.2 (Finset.filter_eq_empty_iff.2 fun p _ hp => ?_)).symm
    cases hp
  phase := rfl
  past p phase hp := by cases hp
  missing := Or.inl rfl

/-- Somebody new comes to a barrier that has as many parties as there are numbers. -/
theorem run_register_full {names : Finset ι} (hfull : names.card = maxParties) (p : ι) :
    (Move.register p).call.run (ofParties names.card) =
      ⟨.error .overflow, ofParties names.card, []⟩ := by
  have hnone : ¬0 < (ofParties names.card).arrived := Nat.lt_irrefl 0
  have hroom : maxParties ≤ (ofParties names.card).parties := hfull.ge
  have hrun := Barrier.run_register (ofParties names.card)
  rw [if_neg hnone, if_pos hroom] at hrun
  exact Call.run_bind_error hrun

variable [DecidableEq ι] {m : Move ι} {p : ι}

/-- **An arrival is counted**, and ends the phase if nobody is missing any more. -/
theorem Counts.run_arrive (h : b.Counts a) (hp : p ∈ a.parties) (hn : a.latest p ≠ some a.phase) :
    ∃ c ns, (Move.arrive p).call.run b = ⟨.ok (a.reply (.arrive p)), c, ns⟩ ∧
      c.Counts (a.next (.arrive p)) := by
  have hnew : p ∉ a.arrivals := fun hmem => hn (mem_arrivals.1 hmem).2
  have hlt : b.arrived < b.parties :=
    h.lt_iff.2 fun hall => hn (hall p hp)
  have hcard := Finset.card_insert_of_notMem hnew
  rw [← arrivals_arrive hp, ← h.arrived] at hcard
  have htallies : Tallies { b with arrived := b.arrived + 1 } (a.moved (.arrive p)) := by
    refine ⟨h.parties, hcard.symm, h.phase, fun q phase hq => ?_⟩
    by_cases hqp : q = p
    · subst hqp
      have hphase : some a.phase = some phase := by simpa [moved] using hq
      exact (Option.some.inj hphase).ge
    · exact h.past q phase (by simpa [moved, hqp] using hq)
  have hsome : (a.moved (.arrive p)).arrivals.Nonempty := by
    rw [arrivals_arrive hp]
    exact Finset.insert_nonempty p _
  have hcompletes : a.Completes (.arrive p) ↔ (a.moved (.arrive p)).Complete :=
    and_iff_left hsome
  obtain ⟨c, ns, hrun, hc⟩ := htallies.run_tryAdvance
  have harrive : Barrier.arrive.run b =
      ⟨.ok { phase := b.phase, last := decide (a.moved (.arrive p)).Complete }, c, ns⟩ := by
    rw [Barrier.arrive, Call.run_bind_ok (Call.run_read b), if_neg (Nat.not_le.2 hlt)]
    simp [Call.run_bind, hrun, Except.map]
  refine ⟨c, ns, ?_, ?_⟩
  · rw [Move.call, Call.run_map, harrive, reply, h.phase]
    simp only [Except.map, hcompletes]
  · rw [next]
    simp only [hcompletes]
    exact hc

/-- The numbers once a party has gone, and its arrival with it. -/
theorem Tallies.gone (h : b.Tallies a) (hp : p ∈ a.parties) {arrived : Nat}
    (harrived : (a.arrivals.erase p).card = arrived) :
    Tallies { b with parties := b.parties - 1, arrived := arrived } (a.moved (.leave p)) where
  parties := by
    rw [h.parties]
    exact (Finset.card_erase_of_mem hp).symm
  arrived := by
    rw [arrivals_leave]
    exact harrived.symm
  phase := h.phase
  past := h.past

/-- **Whoever leaves without an arrival** ends the phase if the others only waited for it. -/
theorem Counts.run_leave (h : b.Counts a) (hp : p ∈ a.parties) (hn : a.latest p ≠ some a.phase) :
    ∃ c ns, (Move.leave p).call.run b = ⟨.ok (a.reply (.leave p)), c, ns⟩ ∧
      c.Counts (a.next (.leave p)) := by
  have hnot : p ∉ a.arrivals := fun hmem => hn (mem_arrivals.1 hmem).2
  have harrived : (a.arrivals.erase p).card = b.arrived := by
    rw [Finset.erase_eq_of_notMem hnot, h.arrived]
  obtain ⟨c, ns, hrun, hc⟩ := (h.gone hp harrived).run_tryAdvance
  refine ⟨c, ns, ?_, hc⟩
  rw [Move.call, Call.run_map, Barrier.run_leave, if_neg (h.parties_ne_zero hp), hrun]
  rfl

/-- **Whoever leaves after an arrival in the phase in progress** takes it back; the phase is then
not complete. -/
theorem Counts.run_deregister_current (h : b.Counts a) (hp : p ∈ a.parties)
    (hl : a.latest p = some b.phase) :
    ¬a.Completes (.deregister p b.phase) ∧
    ∃ c ns, (Move.deregister p b.phase).call.run b = ⟨.ok (.left false), c, ns⟩ ∧
      c.Counts (a.next (.deregister p b.phase)) := by
  have hmem : p ∈ a.arrivals := mem_arrivals.2 ⟨hp, by rw [hl, h.phase]⟩
  have hpos : 0 < b.arrived := h.arrived ▸ Finset.card_pos.2 ⟨p, hmem⟩
  have hlt : b.arrived < b.parties := h.missing.resolve_left (Nat.ne_of_gt hpos)
  have htallies := h.gone hp (by rw [Finset.card_erase_of_mem hmem, ← h.arrived])
  have hlt' : b.arrived - 1 < b.parties - 1 := by omega
  have hnot : ¬a.Completes (.deregister p b.phase) := fun hall => htallies.lt_iff.1 hlt' hall.1
  refine ⟨hnot, { b with parties := b.parties - 1, arrived := b.arrived - 1 }, [], ?_, ?_⟩
  · rw [Move.call, Call.run_map, Barrier.run_deregister, if_neg (h.parties_ne_zero hp), if_pos rfl]
    rfl
  · rw [next, if_neg hnot]
    exact ⟨htallies, Or.inr hlt'⟩

/-- **Whoever leaves after an arrival in an earlier phase** ends the phase if all the others have
arrived, and there are some. -/
theorem Counts.run_deregister_past (h : b.Counts a) {phase : Nat} (hp : p ∈ a.parties)
    (hl : a.latest p = some phase) (hphase : b.phase ≠ phase) :
    ∃ c ns, (Move.deregister p phase).call.run b = ⟨.ok (a.reply (.deregister p phase)), c, ns⟩ ∧
      c.Counts (a.next (.deregister p phase)) := by
  have hnot : p ∉ a.arrivals := fun hmem => hphase <| by
    rw [h.phase]
    exact Option.some.inj ((mem_arrivals.1 hmem).2.symm.trans hl)
  have hkept : (a.moved (.deregister p phase)).arrivals = a.arrivals :=
    (arrivals_leave a p).trans (Finset.erase_eq_of_notMem hnot)
  have htallies : Tallies { b with parties := b.parties - 1 } (a.moved (.deregister p phase)) :=
    h.gone hp (by rw [Finset.erase_eq_of_notMem hnot, h.arrived])
  have hany : (a.moved (.deregister p phase)).arrivals.Nonempty ↔ b.arrived ≠ 0 := by
    rw [hkept, ← Finset.card_pos, ← h.arrived, Nat.pos_iff_ne_zero]
  have hrun := Barrier.run_deregister b phase
  rw [if_neg (h.parties_ne_zero hp), if_neg hphase] at hrun
  by_cases hnone : b.arrived = 0
  · -- nobody has arrived, so that there is nothing to complete
    have hcompletes : ¬a.Completes (.deregister p phase) := fun hall => hany.1 hall.2 hnone
    rw [if_pos hnone] at hrun
    refine ⟨{ b with parties := b.parties - 1 }, [], ?_, ?_⟩
    · rw [Move.call, Call.run_map, hrun, reply, decide_eq_false hcompletes]
      rfl
    · rw [next, if_neg hcompletes]
      exact ⟨htallies, Or.inl hnone⟩
  · have hcompletes : a.Completes (.deregister p phase) ↔
        (a.moved (.deregister p phase)).Complete := and_iff_left (hany.2 hnone)
    obtain ⟨c, ns, hadvance, hc⟩ := htallies.run_tryAdvance
    rw [if_neg hnone, hadvance] at hrun
    refine ⟨c, ns, ?_, ?_⟩
    · rw [Move.call, Call.run_map, hrun, reply]
      simp only [Except.map, hcompletes]
    · rw [next]
      simp only [hcompletes]
      exact hc

/-- **Discarding the arrivals** begins a phase if there are any. -/
theorem Counts.run_reset (h : b.Counts a) :
    ∃ c ns, (Move.reset : Move ι).call.run b = ⟨.ok (a.reply .reset), c, ns⟩ ∧
      c.Counts (a.next .reset) := by
  have hany := h.arrivals_nonempty
  have hnext : a.next .reset = a.moved .reset := if_neg id
  refine ⟨_, _, Call.run_bind_ok (Barrier.run_reset b), ?_⟩
  rw [hnext, moved]
  by_cases hsome : 0 < b.arrived
  · rw [if_pos (hany.2 hsome)]
    simpa [hsome] using h.completed
  · rw [if_neg (mt hany.1 hsome)]
    simpa [hsome] using h

/-- **A party registers**, unless somebody has arrived or the barrier is full. -/
theorem Counts.run_register (h : b.Counts a) (hp : p ∉ a.parties) :
    ((0 < b.arrived ∨ maxParties ≤ b.parties) ∧ a.next (.register p) = a ∧
      (Move.register p).call.run b =
        ⟨.error (if 0 < b.arrived then .registeredMidPhase b.phase b.arrived b.parties
          else .overflow), b, []⟩) ∨
    (¬(0 < b.arrived ∨ maxParties ≤ b.parties) ∧
      ∃ c ns, (Move.register p).call.run b = ⟨.ok (a.reply (.register p)), c, ns⟩ ∧
        c.Counts (a.next (.register p))) := by
  have hclosed : (a.arrivals.Nonempty ∨ maxParties ≤ a.parties.card) ↔
      (0 < b.arrived ∨ maxParties ≤ b.parties) := by
    rw [h.arrivals_nonempty, h.parties]
  have hnext : a.next (.register p) = a.moved (.register p) := if_neg id
  rw [hnext, moved]
  simp only [hclosed, Move.call, Call.run_bind, Barrier.run_register]
  by_cases harrived : 0 < b.arrived
  · exact Or.inl ⟨Or.inl harrived, by simp [harrived], by simp [harrived]⟩
  · by_cases hfull : maxParties ≤ b.parties
    · exact Or.inl ⟨Or.inr hfull, by simp [hfull], by simp [harrived, hfull]⟩
    · refine Or.inr ⟨by simp [harrived, hfull], { b with parties := b.parties + 1 }, [],
        by simp [harrived, hfull, reply], ?_⟩
      rw [if_neg (by simp [harrived, hfull])]
      have hcard := Finset.card_insert_of_notMem hp
      refine ⟨⟨?_, ?_, h.phase, fun q phase hq => ?_⟩, Or.inl (Nat.eq_zero_of_not_pos harrived)⟩
      · rw [hcard, h.parties]
      · rw [arrivals_insert hp]
        exact h.arrived
      · by_cases hqp : q = p
        · subst hqp
          simp at hq
        · exact h.past q phase (by simpa [hqp] using hq)

/-! ## Any number of moves -/

/-- **Is the barrier closed to newcomers?** Somebody has arrived in the phase in progress, or there
is no number for one more. -/
def Closed (b : Barrier) : Prop := 0 < b.arrived ∨ maxParties ≤ b.parties

/-- **A move is refused, or made as the assembly expects.** Refused is whoever registers at a
barrier that is closed; then nothing changes. -/
theorem Counts.run_call (h : b.Counts a) (hm : a.Allows m) :
    (((∃ p, m = .register p) ∧ b.Closed) ∧ a.next m = a ∧ m.call.run b =
      ⟨.error (if 0 < b.arrived then .registeredMidPhase b.phase b.arrived b.parties
        else .overflow), b, []⟩) ∨
    (¬((∃ p, m = .register p) ∧ b.Closed) ∧
      ∃ c ns, m.call.run b = ⟨.ok (a.reply m), c, ns⟩ ∧ c.Counts (a.next m)) := by
  cases m with
  | register p =>
    obtain ⟨hclosed, hnext, hrun⟩ | ⟨hopen, hrun⟩ := h.run_register hm
    · exact Or.inl ⟨⟨⟨p, rfl⟩, hclosed⟩, hnext, hrun⟩
    · exact Or.inr ⟨fun hclosed => hopen hclosed.2, hrun⟩
  | arrive p => exact Or.inr ⟨by simp, h.run_arrive hm.1 hm.2⟩
  | leave p => exact Or.inr ⟨by simp, h.run_leave hm.1 hm.2⟩
  | deregister p phase =>
    refine Or.inr ⟨by simp, ?_⟩
    by_cases hphase : b.phase = phase
    · subst hphase
      obtain ⟨hnot, c, ns, hrun, hc⟩ := h.run_deregister_current hm.1 hm.2
      refine ⟨c, ns, ?_, hc⟩
      rw [hrun, reply, decide_eq_false hnot]
    · exact h.run_deregister_past hm.1 hm.2 hphase
  | reset => exact Or.inr ⟨by simp, h.run_reset⟩

/-- The barrier after some moves. -/
def after (b : Barrier) (moves : List (Move ι)) : Barrier :=
  moves.foldl (fun b m => (m.call.run b).state) b

/-- **The phases that are completed** while some moves are made, as those who make them are told. -/
def completions (b : Barrier) : List (Move ι) → List Nat
  | [] => []
  | m :: moves =>
    let o := m.call.run b
    let told := match o.result with
      | .ok r => if r.completed then [b.phase] else []
      | .error _ => []
    told ++ o.state.completions moves

end Barrier

namespace Assembly

variable [DecidableEq ι] {a : Assembly ι}

/-- **The phase moves on by one** with a move that completes it, and with a reset that discards an
arrival. -/
theorem phase_next (a : Assembly ι) (m : Move ι) :
    (a.next m).phase =
      a.phase + if a.Completes m ∨ (m = .reset ∧ a.arrivals.Nonempty) then 1 else 0 := by
  have hmoved : (a.moved m).phase =
      a.phase + if m = .reset ∧ a.arrivals.Nonempty then 1 else 0 := by
    cases m with
    | register p =>
      rw [moved]
      split <;> simp
    | reset =>
      rw [moved]
      split <;> simp [*]
    | arrive | leave | deregister => simp [moved]
  rw [next]
  split
  · simp [*]
  · simp [*]

theorem completed_reply (a : Assembly ι) (m : Move ι) :
    (a.reply m).completed = decide (a.Completes m) := by
  cases m <;> rfl

end Assembly

namespace Barrier

open Assembly

variable [DecidableEq ι] {a : Assembly ι} {b : Barrier} {m : Move ι}

/-- **What a barrier does with a move**, as an assembly sees it. -/
structure Handles (b : Barrier) (a : Assembly ι) (m : Move ι) : Prop where
  /-- only who registers at a closed barrier breaks off -/
  breaksOff : (∃ e, (m.call.run b).result = .error e) ↔ (∃ p, m = .register p) ∧ b.Closed
  /-- and then nothing changes -/
  unchanged (e : Fault) : (m.call.run b).result = .error e → (m.call.run b).state = b ∧
    e = if 0 < b.arrived then .registeredMidPhase b.phase b.arrived b.parties else .overflow
  /-- the answer says whether the move completes the phase, and in which phase an arrival counts -/
  answers (r : Reply) : (m.call.run b).result = .ok r →
    r = a.reply m ∧ (r.completed = true ↔ a.Completes m)
  /-- whoever takes an arrival back completes nothing -/
  takesBack (p : ι) : m = .deregister p b.phase → (m.call.run b).result = .ok (.left false)
  /-- the phase moves on where it is complete, and where arrivals are discarded -/
  phase : (m.call.run b).state.phase =
    b.phase + if a.Completes m ∨ (m = .reset ∧ 0 < b.arrived) then 1 else 0

namespace Counts

theorem handles (h : b.Counts a) (hm : a.Allows m) : b.Handles a m := by
  have hphase := a.phase_next m
  simp only [h.arrivals_nonempty] at hphase
  obtain ⟨hrefused, hnext, hrun⟩ | ⟨hmade, c, ns, hrun, hc⟩ := h.run_call hm
  · obtain ⟨⟨p, rfl⟩, -⟩ := id hrefused
    refine ⟨?_, ?_, ?_, by simp, ?_⟩
    · rw [hrun]
      simpa using hrefused.2
    · rw [hrun]
      rintro e ⟨⟩
      exact ⟨rfl, rfl⟩
    · rw [hrun]
      nofun
    · rw [hrun, h.phase, ← hphase, hnext]
  · refine ⟨?_, ?_, ?_, ?_, ?_⟩
    · rw [hrun]
      simpa using hmade
    · rw [hrun]
      nofun
    · rw [hrun]
      rintro r ⟨⟩
      exact ⟨rfl, by rw [completed_reply, decide_eq_true_iff]⟩
    · rintro p rfl
      obtain ⟨-, d, ms, hrun', -⟩ := h.run_deregister_current hm.1 hm.2
      rw [hrun']
    · rw [hrun, h.phase, ← hphase]
      exact hc.phase

/-- **A barrier goes on counting** whatever move is made. -/
theorem call (h : b.Counts a) (hm : a.Allows m) : (m.call.run b).state.Counts (a.next m) := by
  obtain ⟨-, hnext, hrun⟩ | ⟨-, c, ns, hrun, hc⟩ := h.run_call hm
  · rw [hrun, hnext]
    exact h
  · rw [hrun]
    exact hc

theorem after {moves : List (Move ι)} (h : b.Counts a) (hmoves : a.AllowsAll moves) :
    (b.after moves).Counts (a.after moves) := by
  induction moves generalizing a b with
  | nil => exact h
  | cons m moves ih => exact ih (h.call hmoves.1) hmoves.2

/-- **Phases are completed one after the other.** -/
theorem completions {moves : List (Move ι)} (h : b.Counts a) (hmoves : a.AllowsAll moves) :
    (b.completions moves).Pairwise (· < ·) ∧ ∀ phase ∈ b.completions moves, b.phase ≤ phase := by
  induction moves generalizing a b with
  | nil => exact ⟨.nil, by simp [Barrier.completions]⟩
  | cons m moves ih =>
    obtain ⟨hm, hrest⟩ := hmoves
    obtain ⟨hpairwise, hle⟩ := ih (h.call hm) hrest
    have hhandles := h.handles hm
    -- whoever is told of a completed phase leaves the barrier in the next one
    have hnow : ∀ r, (m.call.run b).result = .ok r → r.completed = true →
        (m.call.run b).state.phase = b.phase + 1 := by
      intro r hr hcompleted
      rw [hhandles.phase, if_pos (Or.inl ((hhandles.answers r hr).2.1 hcompleted))]
    have hlater : b.phase ≤ (m.call.run b).state.phase := hhandles.phase ▸ Nat.le_add_right _ _
    rw [Barrier.completions]
    split
    · split
      · rename_i r hr hcompleted
        rw [hnow r hr hcompleted] at hle
        refine ⟨List.pairwise_cons.2 ⟨hle, hpairwise⟩, fun phase hphase => ?_⟩
        obtain rfl | hphase := List.mem_cons.1 hphase
        · exact Nat.le_refl _
        · exact Nat.le_of_succ_le (hle phase hphase)
      · exact ⟨hpairwise, fun phase hphase => hlater.trans (hle phase hphase)⟩
    · exact ⟨hpairwise, fun phase hphase => hlater.trans (hle phase hphase)⟩

end Counts

/-- **A barrier counts its parties truly**, whatever they do that is theirs to do, and in whatever
order. It has a party for everybody who is registered and an arrival for everybody who has arrived
in the phase in progress; while there is an arrival, somebody is missing. Nobody breaks off but who
registers while somebody has arrived or the barrier is full, and that changes nothing. Whoever
arrives or leaves is told truly whether this completes the phase, and no phase is completed twice.
The phase moves on by one where it is completed or arrivals are discarded, and at no other time. -/
theorem counts_assembly (names : Finset ι) (moves : List (Move ι))
    (hmoves : (Assembly.ofNames names).AllowsAll moves) :
    let a := (Assembly.ofNames names).after moves
    let b := (ofParties names.card).after moves
    b.parties = a.parties.card ∧ b.arrived = a.arrivals.card ∧ b.phase = a.phase ∧
      (b.arrived = 0 ∨ b.arrived < b.parties) ∧
      ((ofParties names.card).completions moves).Pairwise (· < ·) ∧
      ∀ m, a.Allows m → b.Handles a m := by
  have hstart := Counts.ofNames names
  have hcounts := hstart.after hmoves
  exact ⟨hcounts.parties, hcounts.arrived, hcounts.phase, hcounts.missing,
    (hstart.completions hmoves).1, fun m hm => hcounts.handles hm⟩

/-- Three parties: two arrive and the third leaves; one arrives again and the other one leaves; then
somebody new comes in, and the one that is left arrives and takes that back. -/
theorem counts_assembly_deserted :
    let moves : List (Move Nat) := [.arrive 0, .arrive 1, .leave 2, .arrive 0, .deregister 1 0,
      .register 3, .arrive 0]
    let a := (Assembly.ofNames {0, 1, 2}).after moves
    let b := (ofParties 3).after moves
    (Assembly.ofNames {0, 1, 2}).AllowsAll moves ∧ (ofParties 3).completions moves = [0, 1] ∧
      b.parties = a.parties.card ∧ b.arrived = 1 ∧ a.Allows (.register 1) ∧
      b.Handles a (.register 1) ∧ b.Handles a (.deregister 0 2) := by
  intro moves a b
  have hmoves : (Assembly.ofNames {0, 1, 2}).AllowsAll moves := by decide +kernel
  have hregister : a.Allows (.register 1) := by decide +kernel
  have hderegister : a.Allows (.deregister 0 2) := by decide +kernel
  obtain ⟨hparties, -, -, -, -, hhandles⟩ := counts_assembly {0, 1, 2} moves hmoves
  exact ⟨hmoves, by decide +kernel, hparties, by decide +kernel, hregister,
    hhandles _ hregister, hhandles _ hderegister⟩

/-- **A barrier that is full turns newcomers away** although nobody has arrived: with as many
parties as there are numbers, one more breaks off. -/
theorem register_full :
    let names := Finset.range maxParties
    let b := ofParties names.card
    (Assembly.ofNames names).Allows (.register maxParties) ∧ b.arrived = 0 ∧
      (Move.register maxParties).call.run b = ⟨.error .overflow, b, []⟩ := by
  intro names b
  have hrun := run_register_full (Finset.card_range maxParties) maxParties
  exact ⟨Finset.notMem_range_self, rfl, hrun⟩

end Barrier

end Muster
