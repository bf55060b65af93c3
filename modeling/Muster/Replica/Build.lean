import Muster.Replica.Basic

/-!
# Replica/Build — how replicas come to be

Outside a crew a new stage is checked and then founds a team of its own. Inside a crew the workers
build the same stages in the same order; a stage belongs to the team of its number, which the
first worker to get there founds. A stage that may not be built leaves the barrier, so that its
siblings do not wait for it.

* `Replica.build` — a new stage.
* `Replica.replicate`, `Replica.nest` — replicas made from others.
-/

namespace Muster.Replica

variable {σ : Type}

/-- A replica that has not pulled anything. -/
def fresh (team : Nat) (scope : Scope) (supply : σ) : Replica σ :=
  { team := team, member := { scope := scope }, supply := supply }

/-! ## Outside a crew -/

/-- **A new stage on its own.** -/
def buildAlone [Supply σ] (g : Config) (supply : σ) :
    Call Site (Except ConfigError (Replica σ)) := do
  match g.validate (Supply.schema supply) with
  | .error e => return .error e
  | .ok () => do
    let team ← Site.found (Team.ofConfig g 1)
    return .ok (fresh team .outer supply)

/-! ## Inside a crew -/

/-- A call on the numbering of the crew. -/
def onNumbering {α : Type} (n : Numbering) (call : Call Numbering α) : Call Site α :=
  call.within (fun s => s.crew.getD n) fun n s => { s with crew := some n }

/-- **The team of a number**, founded for all workers of the crew by the first one that asks. -/
def teamOf (g : Config) (n : Numbering) (number : Nat) : Call Site Nat := do
  match n.team? number with
  | some team => return team
  | none => do
    let team ← Site.found (Team.ofConfig g n.workers)
    onNumbering n (Call.change fun n => n.withTeam number team)
    return team

/-- Is a stage valid, and configured like the team it joins? -/
def admission (g : Config) (schema : Option (List String)) (t : Team) :
    Except ConfigError Unit := do
  g.validate schema
  if t.grouper.config = g then return () else throw .mismatchedReplica

/-- **A new stage of a worker's pipeline.** -/
def buildInCrew [Supply σ] (n : Numbering) (worker : Nat) (g : Config) (supply : σ) :
    Call Site (Except ConfigError (Replica σ)) := do
  let number ← onNumbering n (Numbering.draw worker)
  let team ← teamOf g n number
  let s ← Call.read
  match admission g (Supply.schema supply) (s.team team) with
  | .error e => do
    Site.onTeam team (Team.depart none)
    return .error e
  | .ok () => return .ok (fresh team .outer supply)

/-! ## Everywhere -/

/-- A call that uses up a supply: if it breaks off or is refused, the supply goes away. -/
def consuming [Supply σ] {ε α : Type} (supply : σ) (call : Call Site (Except ε α)) :
    Call Site (Except ε α) := do
  match ← call.caught with
  | .ok (.ok a) => return .ok a
  | .ok (.error e) => do
    Supply.release supply
    return .error e
  | .error e => do
    Supply.release supply
    Call.fail e

/-- **A new stage**, in a crew if the site has one. -/
def build [Supply σ] (worker : Nat) (g : Config) (supply : σ) :
    Call Site (Except ConfigError (Replica σ)) :=
  consuming supply do
    match (← Call.read).crew with
    | none => buildAlone g supply
    | some n => buildInCrew n worker g supply

/-- **A sibling on another supply**, in the same team. Nobody of the team may have arrived yet. -/
def replicate {τ : Type} [Supply τ] (r : Replica σ) (supply : τ) : Call Site (Replica τ) := do
  match ← (Site.onTeam r.team (Team.onBarrier Barrier.register)).caught with
  | .ok () => return fresh r.team r.member.scope supply
  | .error e => do
    Supply.release supply
    Call.fail e

/-- **A replica for a pipeline inside a pipeline**: a team of its own with the same
configuration. -/
def nest {τ : Type} (r : Replica σ) (supply : τ) : Call Site (Replica τ) := do
  let s ← Call.read
  let team ← Site.found (s.team r.team).isolated
  return fresh team .nested supply

end Muster.Replica
