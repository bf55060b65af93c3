import Muster.Proofs.Grouper.Groups
import Muster.Proofs.Squad.Basic

/-!
# Proofs/Squad/Seats — what the steps of a member do

One equation for each step of a seat and of a team, on a census in working order: what becomes of
the census, the barrier and the member's books. After these equations no proof opens a step.
-/

namespace Muster

variable {t : Team} {m : Member}

/-- The increment that counting a record is. -/
def Team.increment (t : Team) (r : Record) : Call Census Bool :=
  Census.count (t.grouper.keyOf r) (t.grouper.payload r)

namespace Seat

/-- **Counting a record** is an increment of its key. -/
theorem run_absorb {r : Record} {new : Bool} {c : Census} {ns : List Notice}
    (h : (t.increment r).run t.census = ⟨.ok new, c, ns⟩) :
    ∃ ns', (absorb r).run ⟨t, m⟩ = ⟨.ok (), ⟨t.withCensus c, m⟩, ns'⟩ := by
  have hcount : (onTeam (Team.onGrouper (Grouper.count r))).run ⟨t, m⟩ =
      ⟨.ok new, ⟨t.withCensus c, m⟩, [] ++ ns⟩ := by
    simp only [onTeam, Team.onGrouper, Grouper.count, Call.run_within, Call.run_bind, Call.run_read]
    rw [Grouper.run_onCensus, show (Census.count _ _).run t.grouper.census = _ from h]
    rfl
  exact ⟨_, Call.run_bind_ok hcount⟩

theorem run_enter (t : Team) (m : Member) (records : Nat) :
    (enter records).run ⟨t, m⟩ =
      ⟨.ok (), ⟨t, { m with consumed := m.consumed + records }⟩, []⟩ := rfl

theorem run_exhaust (t : Team) (m : Member) :
    exhaust.run ⟨t, m⟩ =
      ⟨.ok (), ⟨t, { m with localSize := t.census.size, progress := .exhausted }⟩, []⟩ := rfl

/-- **Arriving** is arriving at the barrier. -/
theorem run_arrive {a : Arrival} {b : Barrier} {ns : List Notice}
    (h : Barrier.arrive.run t.barrier = ⟨.ok a, b, ns⟩) :
    ∃ ns', arrive.run ⟨t, m⟩ =
      ⟨.ok a.last, ⟨t.withBarrier b, { m with arrival := some a.phase }⟩, ns'⟩ := by
  have harrive : (onTeam (Team.onBarrier Barrier.arrive)).run ⟨t, m⟩ =
      ⟨.ok a, ⟨t.withBarrier b, m⟩, ns⟩ := by
    simp only [onTeam, Team.onBarrier, Call.run_within, h]
    rfl
  exact ⟨_, Call.run_bind_ok harrive⟩

/-- **Asking for a group** is asking the grouper; a member that learns that none is left is done. -/
theorem run_take_eq {answer : Taken Record} {g : Grouper}
    (h : Grouper.next.run t.grouper = ⟨.ok answer, g, []⟩) :
    take.run ⟨t, m⟩ =
      ⟨.ok answer, ⟨{ t with grouper := g },
        { m with progress := if answer.isExhausted then .done else m.progress }⟩, []⟩ := by
  have hnext : (onTeam (Team.onGrouper Grouper.next)).run ⟨t, m⟩ =
      ⟨.ok answer, ⟨{ t with grouper := g }, m⟩, []⟩ := by
    simp only [onTeam, Team.onGrouper, Call.run_within, h]
  rw [take, Call.run_bind_ok hnext]
  cases answer <;> rfl

theorem run_take {answer : Taken Record} {g : Grouper}
    (h : Grouper.next.run t.grouper = ⟨.ok answer, g, []⟩) :
    ∃ p, take.run ⟨t, m⟩ =
      ⟨.ok answer, ⟨{ t with grouper := g }, { m with progress := p }⟩, []⟩ ∧
        (p = m.progress ∨ p = .done) := by
  refine ⟨_, run_take_eq h, ?_⟩
  split
  · exact Or.inr rfl
  · exact Or.inl rfl

end Seat

namespace Team

/-- The census after somebody has sealed it on behalf of a completed phase. -/
def concluded (c : Census) (completed : Bool) : Census := if completed then c.sealOff else c

/-- **Whoever completed the phase seals the census**, which nobody has sealed before. -/
theorem run_conclude (hh : t.census.Healthy) {completed : Bool}
    (hn : completed = true → t.census.handOff = none) :
    ∃ ns, (conclude completed).run t =
      ⟨.ok (), t.withCensus (concluded t.census completed), ns⟩ := by
  cases completed with
  | false => exact ⟨[], rfl⟩
  | true =>
    have hfinish : (onGrouper Grouper.finish).run t =
        ⟨.ok true, t.withCensus t.census.sealOff, [.sealed t.census.keys.length]⟩ := by
      rw [onGrouper, Call.run_within, Grouper.run_finish hh (hn rfl)]
      rfl
    exact ⟨_, Call.run_bind_ok hfinish⟩

theorem run_withdraw (arrival : Option Nat) {completed : Bool} {b : Barrier} {ns : List Notice}
    (h : (match arrival with
      | some phase => Barrier.deregister phase
      | none => Barrier.leave).run t.barrier = ⟨.ok completed, b, ns⟩) :
    (withdraw arrival).run t = ⟨.ok completed, t.withBarrier b, ns⟩ := by
  cases arrival <;>
    · simp only [withdraw, onBarrier, Call.run_within]
      rw [h]
      rfl

end Team

/-- **Going on to hand out groups**, after sealing the census if that falls to the member. -/
theorem Seat.run_finish (hh : t.census.Healthy) {last : Bool}
    (hn : last = true → t.census.handOff = none) :
    ∃ ns, (Seat.finish last).run ⟨t, m⟩ =
      ⟨.ok (), ⟨t.withCensus (Team.concluded t.census last), { m with progress := .draining }⟩,
        ns⟩ := by
  obtain ⟨ns, hrun⟩ := Team.run_conclude hh hn
  have hconclude : (onTeam (Team.conclude last)).run ⟨t, m⟩ =
      ⟨.ok (), ⟨t.withCensus (Team.concluded t.census last), m⟩, ns⟩ := by
    simp only [onTeam, Call.run_within, hrun]
  exact ⟨_, Call.run_bind_ok hconclude⟩

/-! ## Steps in any order

The equations above are those of a pass, in which nobody seals twice and the barrier is told once of
everybody. The ones below hold whenever the census is in working order and somebody is at the
barrier. -/

namespace Barrier

/-- The barrier after it has been looked at whether everybody has arrived, and the answer. -/
def advanced (b : Barrier) : Bool × Barrier :=
  if b.arrived < b.parties then (false, b)
  else (true, { b with arrived := 0, phase := b.phase + 1 })

/-- The barrier after a party has left, given when it arrived, and whether this completed the
phase. -/
def relieved (b : Barrier) : (arrival : Option Nat) → Bool × Barrier
  | none => advanced { b with parties := b.parties - 1 }
  | some phase =>
    if b.phase = phase then (false, { b with parties := b.parties - 1, arrived := b.arrived - 1 })
    else if b.arrived = 0 then (false, { b with parties := b.parties - 1 })
    else advanced { b with parties := b.parties - 1 }

/-- The barrier after the arrivals have been discarded. -/
def wiped (b : Barrier) : Barrier :=
  if 0 < b.arrived then { b with arrived := 0, phase := b.phase + 1 } else b

@[simp] theorem parties_advanced (b : Barrier) : b.advanced.2.parties = b.parties := by
  unfold advanced
  split <;> rfl

@[simp] theorem parties_relieved (b : Barrier) (arrival : Option Nat) :
    (b.relieved arrival).2.parties = b.parties - 1 := by
  unfold relieved
  split
  · exact parties_advanced _
  · split
    · rfl
    · split
      · rfl
      · exact parties_advanced _

@[simp] theorem arrived_wiped (b : Barrier) : b.wiped.arrived = 0 := by
  unfold wiped
  split
  · rfl
  · exact Nat.eq_zero_of_not_pos ‹_›

/-- **A party that leaves takes back its arrival, if it was in the phase in progress**; otherwise
the phase is complete if everybody else has arrived. -/
theorem relieved_cases (b : Barrier) {arrival : Option Nat}
    (hcounted : arrival = some b.phase → 0 < b.arrived) :
    (∃ n, n + (arrival == some b.phase).toNat = b.arrived ∧
      b.relieved arrival = (false, { b with parties := b.parties - 1, arrived := n })) ∨
    ((arrival == some b.phase) = false ∧ b.parties - 1 ≤ b.arrived ∧
      b.relieved arrival =
        (true, { parties := b.parties - 1, arrived := 0, phase := b.phase + 1 })) := by
  have hadvanced : (∃ n, n = b.arrived ∧ { b with parties := b.parties - 1 }.advanced =
        (false, { b with parties := b.parties - 1, arrived := n })) ∨
      (b.parties - 1 ≤ b.arrived ∧ { b with parties := b.parties - 1 }.advanced =
        (true, { parties := b.parties - 1, arrived := 0, phase := b.phase + 1 })) := by
    unfold advanced
    dsimp only
    split
    · exact Or.inl ⟨_, rfl, rfl⟩
    · exact Or.inr ⟨Nat.not_lt.1 ‹_›, rfl⟩
  cases arrival with
  | none => exact hadvanced.imp (fun ⟨n, hn, h⟩ => ⟨n, hn, h⟩) fun ⟨hle, h⟩ => ⟨rfl, hle, h⟩
  | some phase =>
    unfold relieved
    dsimp only
    by_cases hphase : b.phase = phase
    · have hpos := hcounted (congrArg some hphase.symm)
      rw [if_pos hphase, hphase, beq_self_eq_true]
      exact Or.inl ⟨b.arrived - 1, Nat.sub_add_cancel hpos, rfl⟩
    · have hne : (some phase == some b.phase) = false := by
        rw [beq_eq_false_iff_ne, Ne, Option.some_inj]
        exact Ne.symm hphase
      rw [if_neg hphase, hne]
      split
      · exact Or.inl ⟨b.arrived, rfl, rfl⟩
      · exact hadvanced.imp (fun ⟨n, hn, h⟩ => ⟨n, hn, h⟩) fun ⟨hle, h⟩ => ⟨rfl, hle, h⟩

theorem run_tryAdvance_eq (b : Barrier) :
    ∃ ns, tryAdvance.run b = ⟨.ok b.advanced.1, b.advanced.2, ns⟩ := by
  rw [run_tryAdvance, advanced]
  split <;> exact ⟨_, rfl⟩

end Barrier

namespace Team

/-- **A party leaves the barrier**, if there is one. -/
theorem run_withdraw_relieved (arrival : Option Nat) (hp : 0 < t.barrier.parties) :
    ∃ ns, (withdraw arrival).run t =
      ⟨.ok (t.barrier.relieved arrival).1, t.withBarrier (t.barrier.relieved arrival).2, ns⟩ := by
  have hsome : ¬t.barrier.parties = 0 := Nat.ne_of_gt hp
  cases arrival with
  | none =>
    obtain ⟨ns, hadvance⟩ :=
      Barrier.run_tryAdvance_eq { t.barrier with parties := t.barrier.parties - 1 }
    exact ⟨ns, run_withdraw none (by rw [Barrier.run_leave, if_neg hsome, hadvance]; rfl)⟩
  | some phase =>
    have hrun := Barrier.run_deregister t.barrier phase
    rw [if_neg hsome] at hrun
    unfold Barrier.relieved
    dsimp only
    split at hrun
    · rw [if_pos ‹_›]
      exact ⟨_, run_withdraw (some phase) hrun⟩
    · rw [if_neg ‹_›]
      split at hrun
      · rw [if_pos ‹_›]
        exact ⟨_, run_withdraw (some phase) hrun⟩
      · rw [if_neg ‹_›]
        obtain ⟨ns, hadvance⟩ :=
          Barrier.run_tryAdvance_eq { t.barrier with parties := t.barrier.parties - 1 }
        exact ⟨ns, run_withdraw (some phase) (hrun.trans hadvance)⟩

/-- The census after somebody has concluded on behalf of a phase: if the phase is complete, it is
sealed, by this or before. -/
def closed (c : Census) (completed : Bool) : Census :=
  if completed && c.handOff.isNone then c.sealOff else c

/-- **Whoever completed a phase seals the census**, unless somebody has done so. -/
theorem run_conclude_closed (hh : t.census.Healthy) (completed : Bool) :
    ∃ ns, (conclude completed).run t =
      ⟨.ok (), t.withCensus (closed t.census completed), ns⟩ := by
  cases completed with
  | false => exact ⟨[], rfl⟩
  | true =>
    cases hn : t.census.handOff with
    | none =>
      have hopen : true = true → t.census.handOff = none := fun _ => hn
      obtain ⟨ns, hrun⟩ := run_conclude hh hopen
      rw [closed, hn]
      exact ⟨ns, hrun⟩
    | some ho =>
      have hseal := Census.run_trySeal hh
      rw [hn, Option.isSome_some, if_pos rfl] at hseal
      have hfinish : (onGrouper Grouper.finish).run t = ⟨.ok false, t, []⟩ := by
        rw [onGrouper, Call.run_within, Grouper.finish, Grouper.run_onCensus,
          show Census.trySeal.run t.grouper.census = _ from hseal]
        rfl
      rw [closed, hn]
      exact ⟨_, Call.run_bind_ok hfinish⟩

/-- The team after a member has left it, given when that one arrived. -/
def departed (t : Team) (arrival : Option Nat) : Team :=
  (t.withBarrier (t.barrier.relieved arrival).2).withCensus
    (closed t.census (t.barrier.relieved arrival).1)

/-- **A member leaves.** -/
theorem run_depart (hh : t.census.Healthy) (arrival : Option Nat) (hp : 0 < t.barrier.parties) :
    ∃ ns, (depart arrival).run t = ⟨.ok (), t.departed arrival, ns⟩ := by
  obtain ⟨ns, hwithdraw⟩ := run_withdraw_relieved arrival hp
  obtain ⟨ns', hconclude⟩ := run_conclude_closed
    (t := t.withBarrier (t.barrier.relieved arrival).2) hh (t.barrier.relieved arrival).1
  refine ⟨ns ++ ns', ?_⟩
  rw [depart, Call.run_bind_ok hwithdraw, hconclude]
  rfl

end Team

namespace Seat

theorem run_finish_closed (hh : t.census.Healthy) (m : Member) (last : Bool) :
    ∃ ns, (finish last).run ⟨t, m⟩ =
      ⟨.ok (), ⟨t.withCensus (Team.closed t.census last), { m with progress := .draining }⟩,
        ns⟩ := by
  obtain ⟨ns, hrun⟩ := Team.run_conclude_closed hh last
  have hconclude : (onTeam (Team.conclude last)).run ⟨t, m⟩ =
      ⟨.ok (), ⟨t.withCensus (Team.closed t.census last), m⟩, ns⟩ := by
    simp only [onTeam, Call.run_within, hrun]
  exact ⟨_, Call.run_bind_ok hconclude⟩

/-- **Going back to the start of a pass** clears the census, discards the arrivals and begins the
member's books anew. -/
theorem run_rewind (hc : t.census.Sound) (hh : t.census.Healthy) (m : Member) :
    rewind.run ⟨t, m⟩ =
      ⟨.ok (), ⟨(t.withCensus t.census.cleared).withBarrier t.barrier.wiped,
        { scope := m.scope }⟩, []⟩ := by
  have hclear : (onTeam (Team.onGrouper Grouper.reset)).run ⟨t, m⟩ =
      ⟨.ok (), ⟨t.withCensus t.census.cleared, m⟩, []⟩ := by
    simp only [onTeam, Team.onGrouper, Grouper.reset, Call.run_within, Grouper.run_onCensus]
    rw [show Census.clear.run t.grouper.census = _ from Census.run_clear hc hh]
    rfl
  rw [rewind, Call.run_bind_ok hclear]
  rfl

end Seat

end Muster
