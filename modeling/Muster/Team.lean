import Muster.Barrier
import Muster.Grouper.Basic

/-!
# Team — replicas that share a grouper

The replicas of a stage form a team: they count into one grouper and meet at one barrier. Whoever
completes a phase of the barrier, by arriving last or by leaving, seals the grouper; then every
member hands out groups. The books of one member, together with its team, are a `Seat`.

Each step here is one that other members' steps may come between. In particular arriving
(`Seat.arrive`) and sealing (`Seat.finish`) are two steps, and so are withdrawing
(`Team.withdraw`) and sealing (`Team.conclude`).

The books count without a bound, as the census does: a word of 64 bits holds as many records as any
supply delivers.
-/

namespace Muster

/-! ## Teams -/

/-- **A team**: the grouper its members count into and the barrier they meet at. -/
structure Team where
  grouper : Grouper
  barrier : Barrier
  deriving Inhabited

namespace Team

/-- A team with a new grouper, for some parties. -/
def ofConfig (g : Config) (parties : Nat) : Except Fault Team := do
  return { grouper := ← Grouper.ofConfig g, barrier := .ofParties parties }

/-- A team of one with a new grouper of the same configuration. -/
def isolated (t : Team) : Except Fault Team := do
  return { grouper := ← t.grouper.isolated, barrier := .ofParties 1 }

/-- The census of a team. -/
def census (t : Team) : Census := t.grouper.census

/-- A call on the grouper of a team. -/
def onGrouper {α : Type} (call : Call Grouper α) : Call Team α :=
  call.within Team.grouper fun g t => { t with grouper := g }

/-- A call on the barrier of a team. -/
def onBarrier {α : Type} (call : Call Barrier α) : Call Team α :=
  call.within Team.barrier fun b t => { t with barrier := b }

/-- **Seals the grouper** on behalf of the member that completed a phase, if it did. -/
def conclude (completed : Bool) : Call Team Unit := do
  if completed then
    let _ ← onGrouper Grouper.finish

/-- **Takes a member off the barrier**, given the phase in which it arrived during this pass, if it
did; says whether that completes a phase. -/
def withdraw : (arrival : Option Nat) → Call Team Bool
  | some phase => onBarrier (Barrier.deregister phase)
  | none => onBarrier Barrier.leave

/-- **A member leaves**, and seals the grouper if the others were only waiting for it. -/
def depart (arrival : Option Nat) : Call Team Unit := do
  conclude (← withdraw arrival)

end Team

/-! ## Members -/

/-- Whom a replica shares its grouper with. -/
inductive Scope
  /-- its counterparts in the other workers -/
  | outer
  /-- nobody but its own replicas -/
  | nested
  deriving DecidableEq, Inhabited, Repr

/-- **How far a replica has come in a pass.** -/
inductive Progress
  /-- it counts the records of its supply -/
  | accumulating
  /-- its supply has ended; it has not arrived at the barrier -/
  | exhausted
  /-- it hands out groups, once the grouper is sealed -/
  | draining
  /-- all groups have been handed out -/
  | done
  deriving DecidableEq, Inhabited, Repr

/-- **The books of one replica**: among them the phase in which it arrived during this pass, if it
did. -/
structure Member where
  scope : Scope
  progress : Progress := .accumulating
  arrival : Option Nat := none
  /-- the number of groups when its supply ended -/
  localSize : Nat := 0
  /-- the records pulled in this pass, as far as they have been entered -/
  consumed : Nat := 0
  deriving DecidableEq, Inhabited, Repr

/-- **A member with its team.** -/
structure Seat where
  team : Team
  member : Member

namespace Seat

/-- A call on the team. -/
def onTeam {α : Type} (call : Call Team α) : Call Seat α :=
  call.within Seat.team fun t s => { s with team := t }

/-- Changes the member's books. -/
def book (f : Member → Member) : Call Seat Unit :=
  Call.change fun s => { s with member := f s.member }

/-- **Counts a record** that was pulled. The books are left for later. -/
def absorb (r : Record) : Call Seat Unit := do
  let _ ← onTeam (Team.onGrouper (Grouper.count r))

/-- **Enters in the books** that a call has counted so many records. -/
def enter (records : Nat) : Call Seat Unit :=
  book fun m => { m with consumed := m.consumed + records }

/-- Notes that the supply has ended. -/
def exhaust : Call Seat Unit := do
  let s ← Call.read
  book fun m => { m with localSize := s.team.census.size, progress := .exhausted }

/-- **Arrives at the barrier**; says whether every other member was there already. -/
def arrive : Call Seat Bool := do
  let a ← onTeam (Team.onBarrier Barrier.arrive)
  book fun m => { m with arrival := some a.phase }
  return a.last

/-- **Seals the grouper if the arrival was the last**, and begins to hand out groups. -/
def finish (last : Bool) : Call Seat Unit := do
  onTeam (Team.conclude last)
  book fun m => { m with progress := .draining }

/-- **Takes a group.** -/
def take : Call Seat (Taken Record) := do
  let a ← onTeam (Team.onGrouper Grouper.next)
  match a with
  | .exhausted => do
    book fun m => { m with progress := .done }
    return a
  | _ => return a

/-- **Back to the start of a pass**, together with the team. -/
def rewind : Call Seat Unit := do
  onTeam (Team.onGrouper Grouper.reset)
  onTeam (Team.onBarrier Barrier.reset)
  book fun m => { scope := m.scope }

end Seat

end Muster
