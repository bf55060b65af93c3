import Muster.Site

/-!
# Crew/Context — what a worker can tell about where it runs
-/

namespace Muster

/-- **Where code runs**: in which worker of how many, whether it has been told to stop, whether it
is inside a crew, and some numbers drawn for its stages. -/
structure Context where
  worker : Nat := 0
  workers : Nat := 1
  killed : Bool := false
  inside : Bool := false
  numbers : List Nat := []
  deriving DecidableEq, Repr

namespace Context

/-- Outside a crew, which looks like the only worker. -/
def outside : Context := {}

/-- In a worker of a crew that draws some numbers. -/
def inWorker (s : Site) (n : Numbering) (draws worker : Nat) : Context :=
  { worker := worker
    workers := n.workers
    killed := s.killed
    inside := true
    numbers :=
      match ((Numbering.drawTimes worker draws).run n).result with
      | .ok numbers => numbers
      | .error _ => [] }

/-- **In each worker of a new crew.** -/
def ofWorkers (workers draws : Nat) : Except Fault (List Context) := do
  let n ← Numbering.ofWorkers workers
  return (List.range workers).map (inWorker { crew := some n } n draws)

end Context

end Muster
