import Muster.Crew.Basic

/-!
# Crew/Run — a crew at work

The workers build one after the other. Then, in every pass, they take turns until each of them has
come to its end; the turns decide which worker hands out which group. A crew may be told to stop
once nobody can go on any more; that ends those that still wait.
-/

namespace Muster

/-- **What a crew is to do.** -/
structure Plan where
  duties : Array Duty
  /-- the workers in the order in which they build -/
  order : List Nat
  passes : Nat := 1
  /-- whether the crew is told to stop when nobody can go on -/
  kill : Bool := false

namespace Plan

/-- The workers that build, by number. -/
def numericalOrder (duties : Array Duty) : List Nat :=
  (List.range duties.size).filter fun w => duties[w]?.any Duty.builds

/-- A bound on the rounds in which somebody can go on: everybody waits at most once on each
stage. -/
def rounds (p : Plan) : Nat :=
  p.duties.foldl (fun n d => n + d.inlet.height + 2) 1

end Plan

/-- **What came of it**: the workers at the end, the groups of each pass, and what broke off. -/
structure Outturn where
  workers : List Worker
  groups : List (List Record)
  crashes : List Crash

namespace Crew

/-- The numbers of the workers. -/
def everyone (c : Crew) : List Nat := List.range c.workers.size

/-- Everybody has a turn. -/
def round (c : Crew) : Crew := c.everyone.foldl turn c

/-- Rounds until nobody is busy, at most so many. -/
def roundsOf : (fuel : Nat) → Crew → Crew
  | 0, c => c
  | fuel + 1, c => if c.busy then roundsOf fuel c.round else c

/-- **One pass**, on which everybody sets out together. -/
def pass (p : Plan) (c : Crew) : Crew :=
  let c := roundsOf p.rounds { c.everyone.foldl setOut c with groups := [] }
  if p.kill && c.busy then round { c with site := { c.site with killed := true } } else c

/-- **Several passes**, with the groups of each. -/
def passes (p : Plan) : (more : Nat) → Crew → Crew × List (List Record)
  | 0, c => (c, [])
  | 1, c =>
    let c := c.pass p
    (c, [c.groups])
  | more + 1, c =>
    let c := c.pass p
    let (d, groups) := passes p more (c.everyone.foldl rewind c)
    (d, c.groups :: groups)

/-- Those who break off at the start do so; then the others build in order. -/
def assemble (p : Plan) (c : Crew) : Crew :=
  let starters := c.everyone.filter fun w => p.duties[w]?.any fun d => d.moment? = some .start
  p.order.foldl build (starters.foldl build c)

/-- **Runs a crew.** -/
def run (site : Site) (p : Plan) : Except Fault Outturn := do
  let c ← ofDuties site p.duties
  let (c, groups) := (c.assemble p).passes p p.passes
  let c := c.everyone.foldl leave c
  return { workers := c.workers.toList, groups := groups, crashes := c.crashes }

end Crew

end Muster
