import Muster.Inlet

/-!
# Roster — a family of replicas on one site

Replicas are numbered in the order in which they were made, and keep their numbers when others go
away. What a replica does shows in the others only through the team they share.
-/

namespace Muster

/-- **Replicas and their site.** A replica that has gone away leaves its place empty. -/
structure Roster (σ : Type) where
  site : Site
  replicas : Array (Option (Replica σ)) := #[]

namespace Roster

variable {σ α : Type}

/-- The replica of a number, if it is there. -/
def replica? (t : Roster σ) (i : Nat) : Option (Replica σ) := (t.replicas[i]?).join

/-- The team of a replica. -/
def team (t : Roster σ) (r : Replica σ) : Team := t.site.team r.team

/-- **Do two replicas count into the same grouper?** -/
def shared (r q : Replica σ) : Bool := r.team = q.team

/-- A call on the site. -/
def onSite (call : Call Site α) : Call (Roster σ) α :=
  call.within Roster.site fun s t => { t with site := s }

/-- Gives a replica the next number. -/
def enter (r : Replica σ) : Call (Roster σ) Nat := do
  let t ← Call.read
  Call.write { t with replicas := t.replicas.push (some r) }
  return t.replicas.size

/-- **A call of a replica.** -/
def act (i : Nat) (r : Replica σ) (call : Call (Onsite (Replica σ)) α) : Call (Roster σ) α :=
  call.within (fun t => ⟨t.site, r⟩) fun p t =>
    { site := p.site, replicas := t.replicas.setIfInBounds i (some p.self) }

/-! ## Joining and leaving -/

/-- **A new stage**; the answer is its number, or why it is refused. -/
def build [Supply σ] (g : Config) (supply : σ) : Call (Roster σ) (Except ConfigError Nat) := do
  match ← onSite (Replica.build 0 g supply) with
  | .error e => return .error e
  | .ok r => return .ok (← enter r)

/-- **A sibling of a replica**; the answer is its number. -/
def replicate [Supply σ] (r : Replica σ) (supply : σ) : Call (Roster σ) Nat := do
  enter (← onSite (r.replicate supply))

/-- **A replica for a pipeline inside the pipeline** of another; the answer is its number. -/
def nest (r : Replica σ) (supply : σ) : Call (Roster σ) Nat := do
  enter (← onSite (r.nest supply))

/-- **A replica goes away.** -/
def dismiss [Supply σ] (i : Nat) (r : Replica σ) : Call (Roster σ) Unit := do
  onSite r.release
  Call.change fun t => { t with replicas := t.replicas.setIfInBounds i none }

end Roster

end Muster
