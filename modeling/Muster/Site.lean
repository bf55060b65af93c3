import Muster.Team

/-!
# Site — what the replicas of a program have in common

A site holds the teams, the channels that records come through, and whether everybody has been
told to stop. Inside a crew it also holds the crew's numbering of stages (`Numbering`), by which
workers that build the same pipeline find the team that their counterparts have made.
-/

namespace Muster

/-! ## Channels -/

/-- **A channel**: the records on their way, and whether more can be sent. -/
structure Channel where
  queue : List Record := []
  closed : Bool := false
  deriving Inhabited

namespace Channel

/-- Sends a record, unless the channel is closed; says whether it was sent. -/
def send (r : Record) (c : Channel) : Bool × Channel :=
  if c.closed then (false, c) else (true, { c with queue := c.queue ++ [r] })

end Channel

/-! ## Numbering -/

/-- **A crew's numbering of stages.** Each worker numbers the stages it builds; stages with the same
number share a team. -/
structure Numbering where
  workers : Nat
  /-- the next number of each worker -/
  next : Array Nat
  /-- the team of each number that some worker has come to -/
  teams : List (Nat × Nat) := []

namespace Numbering

/-- The bytes that the next number of a worker takes. -/
def width : Nat := 8

/-- **The numbering of a crew before anything is built.** A crew needs at least one worker, and room
for a number of each. -/
def ofWorkers (n : Nat) : Except Fault Numbering := do
  if n = 0 then throw (.zero (some "a runtime needs at least one worker"))
  Room.reserve n width
  return { workers := n, next := Array.replicate n 0 }

/-- **Draws the next number** of a worker. -/
def draw (worker : Nat) : Call Numbering Nat := do
  let n ← Call.read
  let i := n.next[worker]?.getD 0
  Call.write { n with next := n.next.setIfInBounds worker (i + 1) }
  return i

/-- Draws several numbers. -/
def drawTimes (worker : Nat) : (times : Nat) → Call Numbering (List Nat)
  | 0 => return []
  | times + 1 => do
    let i ← draw worker
    return i :: (← drawTimes worker times)

/-- The team of a number. -/
def team? (n : Numbering) (i : Nat) : Option Nat := n.teams.lookup i

/-- The numbering with a team for a number. -/
def withTeam (n : Numbering) (i team : Nat) : Numbering :=
  { n with teams := n.teams ++ [(i, team)] }

end Numbering

/-! ## Sites -/

/-- **A site.** -/
structure Site where
  teams : Array Team := #[]
  channels : Array Channel := #[]
  /-- the numbering of stages, inside a crew -/
  crew : Option Numbering := none
  /-- whether everybody has been told to stop -/
  killed : Bool := false
  deriving Inhabited

namespace Site

/-- The team at an index. -/
def team (s : Site) (i : Nat) : Team := s.teams[i]?.getD default

/-- The site with another team at an index. -/
def withTeam (s : Site) (i : Nat) (t : Team) : Site :=
  { s with teams := s.teams.setIfInBounds i t }

/-- **A change of one team leaves the others as they are.** -/
theorem team_withTeam_of_ne (s : Site) {i j : Nat} (t : Team) (h : i ≠ j) :
    (s.withTeam i t).team j = s.team j := by
  simp [team, withTeam, h]

theorem team_withTeam_self (s : Site) {i : Nat} (t : Team) (h : i < s.teams.size) :
    (s.withTeam i t).team i = t := by
  simp [team, withTeam, h]

/-- The channel at an index. -/
def channel (s : Site) (i : Nat) : Channel := s.channels[i]?.getD default

/-- The site with another channel at an index. -/
def withChannel (s : Site) (i : Nat) (c : Channel) : Site :=
  { s with channels := s.channels.setIfInBounds i c }

/-- **Founds a team**; the answer is its index. -/
def found (t : Except Fault Team) : Call Site Nat := do
  let t ← Call.ofExcept t
  let s ← Call.read
  Call.write { s with teams := s.teams.push t }
  return s.teams.size

/-- A call on a team. -/
def onTeam {α : Type} (i : Nat) (call : Call Team α) : Call Site α :=
  call.within (fun s => s.team i) fun t s => s.withTeam i t

/-- Tells everybody to stop. -/
def kill : Call Site Unit := Call.change fun s => { s with killed := true }

end Site

end Muster
