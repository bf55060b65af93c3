import Muster.Crew.Crash
import Muster.Inlet

/-!
# Crew/Basic — workers and what they do in a turn

A crew is a number of workers on one site. Each builds its own replica of a stage and drains it. A
worker acts in turns (`Crew.turn`): it goes on until it has to wait for the others or has come to
the end of a pass. A worker that is refused, fails or breaks off gives up its replica at once.
-/

namespace Muster

/-! ## Workers -/

/-- When a worker is to break off. -/
inductive Moment
  | start
  | built
  /-- when its supply is about to deliver its record of this number, counted from one -/
  | record (number : Nat)
  deriving DecidableEq, Repr

/-- **What a worker is to do.** -/
structure Duty where
  inlet : Inlet.Blueprint
  config : Config
  /-- it never builds anything -/
  absent : Bool := false
  /-- when it breaks off and with what text, if it does -/
  flaw : Option (Moment × Option String) := none

namespace Duty

/-- When a worker with this duty is to break off. -/
def moment? (d : Duty) : Option Moment := d.flaw.map Prod.fst

/-- Does a worker with this duty get to build anything? -/
def builds (d : Duty) : Bool := !d.absent && d.moment? != some .start

/-- The supply made of an inlet: it breaks off at a record if the duty says so. -/
def supply (d : Duty) (s : Inlet) : Fragile Inlet :=
  match d.flaw with
  | some (.record number, message) => ⟨s, some (number, message)⟩
  | _ => ⟨s, none⟩

end Duty

/-- **The last that is seen of a replica** before it goes away. -/
structure Final where
  /-- why it was given up, if it did not come to its end -/
  error : Option StageError
  /-- the records of all passes -/
  consumed : Nat
  progress : Progress
  scope : Scope
  seals : Nat

/-- **A worker.** -/
inductive Worker
  /-- it has built nothing -/
  | idle
  | refused (e : ConfigError)
  | crashed
  /-- it has a replica and `earlier` records of earlier passes, and is between passes or not -/
  | working (r : Replica (Fragile Inlet)) (earlier : Nat) (resting : Bool)
  | finished (f : Final)

/-! ## Crews -/

/-- **A crew.** -/
structure Crew where
  site : Site
  duties : Array Duty
  workers : Array Worker
  /-- what has broken off, in order -/
  crashes : List Crash := []
  /-- the groups handed out in this pass -/
  groups : List Record := []

namespace Crew

/-- **A new crew**, with a worker for each duty. -/
def ofDuties (site : Site) (duties : Array Duty) : Except Fault Crew := do
  return {
    site := { site with crew := some (← Numbering.ofWorkers duties.size) }
    duties := duties
    workers := duties.map fun _ => .idle }

/-- A worker of a crew. -/
def worker (c : Crew) (w : Nat) : Worker := c.workers[w]?.getD .idle

/-- The crew with a worker that has changed. -/
def withWorker (c : Crew) (w : Nat) (worker : Worker) : Crew :=
  { c with workers := c.workers.setIfInBounds w worker }

/-- The crew after a worker has ended by breaking off. -/
def crash (c : Crew) (w : Nat) (message : Option String) : Crew :=
  { c.withWorker w .crashed with crashes := c.crashes ++ [{ worker := w, message := message }] }

/-- The crew after a replica has gone away. -/
def released (c : Crew) (r : Replica (Fragile Inlet)) : Crew :=
  { c with site := (r.release.run c.site).state }

/-- The crew after a replica has been given up, for a reason or at its end. -/
def giveUp (c : Crew) (w : Nat) (r : Replica (Fragile Inlet)) (earlier : Nat)
    (error : Option StageError) : Crew :=
  let final : Final := {
    error := error
    consumed := earlier + r.member.consumed
    progress := r.member.progress
    scope := r.member.scope
    seals := (c.site.team r.team).census.seals }
  (c.withWorker w (.finished final)).released r

/-! ## Building -/

/-- Builds the pipeline of a worker. -/
def pipeline (w : Nat) (d : Duty) : Call Site (Except ConfigError (Replica (Fragile Inlet))) := do
  match ← Inlet.build w d.inlet with
  | .error e => return .error e
  | .ok s => Replica.build w d.config (d.supply s)

/-- **A worker builds its pipeline**, or breaks off before or after that. -/
def build (c : Crew) (w : Nat) : Crew :=
  match c.worker w, c.duties[w]? with
  | .idle, some d =>
    let text := (d.flaw.map Prod.snd).join
    if d.absent then c
    else if d.moment? = some .start then c.crash w text
    else
      let o := (pipeline w d).run c.site
      let c := { c with site := o.state }
      match o.result with
      | .error e => c.crash w e.message
      | .ok (.error e) => c.withWorker w (.refused e)
      | .ok (.ok r) =>
        if d.moment? = some .built then (c.crash w text).released r
        else c.withWorker w (.working r 0 true)
  | _, _ => c

/-! ## Turns -/

/-- **A worker's turn**: it hands out groups until it has to wait or comes to the end of the
pass. -/
def turn (c : Crew) (w : Nat) : Crew :=
  match c.worker w with
  | .working r earlier false =>
    let o := Replica.drain.run ⟨c.site, r⟩
    let c := { c with site := o.state.site }
    let r := o.state.self
    match o.result with
    | .error e => (c.crash w e.message).released r
    | .ok (groups, answer) =>
      let c := { c with groups := c.groups ++ groups }
      match answer with
      | .error e => c.giveUp w r earlier (some e)
      | .ended => c.withWorker w (.working r earlier true)
      | _ => c.withWorker w (.working r earlier false)
  | _ => c

/-- A worker starts over, between two passes. -/
def rewind (c : Crew) (w : Nat) : Crew :=
  match c.worker w with
  | .working r earlier true =>
    let earlier := earlier + r.member.consumed
    let o := Replica.rewind.run ⟨c.site, r⟩
    let c := { c with site := o.state.site }
    let r := o.state.self
    match o.result with
    | .error e => (c.crash w e.message).released r
    | .ok _ => c.withWorker w (.working r earlier true)
  | _ => c

/-- A worker sets out on a pass. -/
def setOut (c : Crew) (w : Nat) : Crew :=
  match c.worker w with
  | .working r earlier true => c.withWorker w (.working r earlier false)
  | _ => c

/-- A worker leaves, once there is no pass to come. -/
def leave (c : Crew) (w : Nat) : Crew :=
  match c.worker w with
  | .working r earlier true => c.giveUp w r earlier none
  | _ => c

/-- Has a worker not come to the end of the pass? -/
def busy (c : Crew) : Bool :=
  c.workers.any fun
    | .working _ _ resting => !resting
    | _ => false

end Crew

end Muster
