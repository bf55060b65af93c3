import Muster.Supply.Watched

/-!
# Replica/Basic — a grouping stage on its supply

A replica counts its whole supply into the grouper of its team, arrives at the barrier, and then
hands out groups together with the other members. It is itself a supply, so that stages can be
stacked.

* `Replica.next` — one group, or why there is none.
* `Replica.rewind` — another pass.
* `Replica.release` — a replica that goes away does not leave its siblings waiting.
-/

namespace Muster

/-- **Why a replica gives no group.** -/
inductive StageError
  /-- its supply failed -/
  | supplyFailed (message : String)
  /-- everybody has been told to stop -/
  | killed
  deriving DecidableEq, Inhabited, Repr

namespace StageError

/-- The wording of an error; that of a failed supply is passed on as it is. -/
def message : StageError → String
  | supplyFailed message => message
  | killed => "grouping stage was killed"

end StageError

/-- **What asking a replica for a group answers.** -/
inductive Answer
  | group (r : Record)
  | ended
  | error (e : StageError)
  /-- it has to wait, for its siblings or for its supply -/
  | waiting
  deriving Inhabited

/-- How an answer looks to a stage that has the replica for its supply. -/
def Answer.toPull : Answer → Pull
  | group r => .record r
  | ended => .ended
  | error e => .failed e.message
  | waiting => .blocked

/-- **A replica**: which team of the site it belongs to, its books, and its supply. -/
structure Replica (σ : Type) where
  team : Nat
  member : Member
  supply : σ
  /-- how many records the call has counted that has asked for one more and has no answer yet, if
  there is such a call; the books do not include them -/
  pending : Option Nat := none

namespace Replica

variable {σ α : Type}

/-- A call on the supply. -/
def onSupply (call : Call (Onsite σ) α) : Call (Onsite (Replica σ)) α :=
  Onsite.onPart Replica.supply (fun u r => { r with supply := u }) call

/-- A call on the replica's seat. -/
def onSeat (call : Call Seat α) : Call (Onsite (Replica σ)) α :=
  call.within (fun p => ⟨p.site.team p.self.team, p.self.member⟩) fun s p =>
    ⟨p.site.withTeam p.self.team s.team, { p.self with member := s.member }⟩

/-! ## A pass -/

/-- Goes on pulling records, unless everybody has been told to stop. -/
def unlessStopped (counted : Nat) (call : Call (Onsite (Replica σ)) (Option Answer × Nat)) :
    Call (Onsite (Replica σ)) (Option Answer × Nat) := do
  if (← Call.read).site.killed then return (some (.error .killed), counted)
  call

/-- **Pulls records and counts them** until the supply answers something else; at most `fuel` of
them. With what ended it comes the number of records that the call has counted by then, `counted`
of them before. The supply's end is the answer `none`. Before each further record the call looks
whether to stop. -/
def pullRecords [Supply σ] : (fuel counted : Nat) →
    Call (Onsite (Replica σ)) (Option Answer × Nat)
  | 0, counted => return (some .waiting, counted)
  | fuel + 1, counted => do
    match ← onSupply Supply.pull with
    | .record r => do
      onSeat (Seat.absorb r)
      unlessStopped (counted + 1) (pullRecords fuel (counted + 1))
    | .ended => return (none, counted)
    | .failed message => return (some (.error (.supplyFailed message)), counted)
    | .blocked => return (some .waiting, counted)

/-- The number of the call that had to wait is taken up again, if there is such a call. Whoever
breaks off from here on leaves no trace of it. -/
def takeUp : Call (Onsite (Replica σ)) (Option Nat) := do
  let p ← Call.read
  Call.write { p with self := { p.self with pending := none } }
  return p.self.pending

/-- **The call pulls no more**: if it has to wait it keeps the number of records for when it goes
on, and otherwise it enters the number in the books, once for all of them. -/
def leaveOff (answer : Option Answer) (counted : Nat) : Call (Onsite (Replica σ)) Unit :=
  match answer with
  | some .waiting => Onsite.update fun r => { r with pending := some counted }
  | _ => onSeat (Seat.enter counted)

/-- **The loop of a call**: one that had to wait for an answer goes on waiting for it, whether it
has been told to stop or not, and a new one looks first. -/
def resume [Supply σ] (fuel : Nat) : Option Nat → Call (Onsite (Replica σ)) (Option Answer × Nat)
  | some counted => pullRecords fuel counted
  | none => unlessStopped 0 (pullRecords fuel 0)

/-- **Counts the supply**, for at most `fuel` records; the supply's end is the answer `none`. -/
def accumulate [Supply σ] (fuel : Nat) : Call (Onsite (Replica σ)) (Option Answer) := do
  let (answer, counted) ← resume fuel (← takeUp)
  leaveOff answer counted
  return answer

/-- **Hands out a group** of the sealed grouper. -/
def handOut : Call (Onsite (Replica σ)) Answer := do
  if (← Call.read).site.killed then return .error .killed
  match ← onSeat Seat.take with
  | .waiting => return .waiting
  | .exhausted => return .ended
  | .item r => return .group r

/-- Arrives at the barrier, and goes on to hand out groups. -/
def arrive : Call (Onsite (Replica σ)) Answer := do
  let last ← onSeat Seat.arrive
  onSeat (Seat.finish last)
  handOut

/-- **The next group.** The first call of a pass counts the whole supply. -/
def next [Supply σ] : Call (Onsite (Replica σ)) Answer := do
  let p ← Call.read
  match p.self.member.progress with
  | .accumulating => do
    match ← accumulate (Supply.ahead p.site p.self.supply + 1) with
    | some answer => return answer
    | none => do
      onSeat Seat.exhaust
      arrive
  | .exhausted => arrive
  | .draining => handOut
  | .done => return .ended

/-- The groups that are left, until something else is answered; at most `fuel` of them. -/
def nextRest [Supply σ] : (fuel : Nat) → Call (Onsite (Replica σ)) (List Record × Answer)
  | 0 => return ([], .ended)
  | fuel + 1 => do
    match ← next with
    | .group r => do
      let (rs, answer) ← nextRest fuel
      return (r :: rs, answer)
    | answer => return ([], answer)

/-- A bound on the groups that a replica can hand out. -/
def ahead [Supply σ] (s : Site) (r : Replica σ) : Nat :=
  let c := (s.team r.team).census
  c.size + c.remaining.getD 0 + Supply.ahead s r.supply

/-- **All groups that are left**, and what was answered after them, which is never a group. -/
def drain [Supply σ] : Call (Onsite (Replica σ)) (List Record × Answer) := do
  let p ← Call.read
  nextRest (p.self.ahead p.site + 1)

/-- **Another pass**, if the supply can start over. -/
def rewind [Supply σ] : Call (Onsite (Replica σ)) Bool := do
  if ← onSupply Supply.rewind then
    onSeat Seat.rewind
    return true
  else return false

/-- **A replica goes away**, and its supply with it. -/
def release [Supply σ] (r : Replica σ) : Call Site Unit := do
  Site.onTeam r.team (Team.depart r.member.arrival)
  Supply.release r.supply

/-- **A replica as the supply of another stage.** The names of its fields are not declared. -/
instance [Supply σ] : Supply (Replica σ) where
  pull := Answer.toPull <$> next
  schema _ := none
  rewind := rewind
  ahead s r := r.ahead s
  release := release

/-! ## Being told to stop -/

/-- A call during which everybody is told to stop, or may be. -/
def stopping {τ : Type} (call : Call (Onsite τ) α) : Call (Onsite τ) α :=
  call.within id fun q p => { q with site.killed := p.site.killed }

/-- **The next group, with a stop on the way**: before anything is done, if `after` is zero or there
is nothing to count any more, or else after so many records have been pulled, at the latest when
the supply ends. -/
def nextStopped [Supply σ] (after : Nat) : Call (Onsite (Replica σ)) Answer :=
  stopping do
    let p ← Call.read
    if after = 0 ∨ p.self.member.progress ≠ .accumulating then
      Onsite.onSite Site.kill
      next
    else
      Onsite.onPart (fun r : Replica σ => { r with supply := (⟨r.supply, after⟩ : Alarmed σ) })
        (fun q _ => { q with supply := q.supply.supply }) next

end Replica

end Muster
