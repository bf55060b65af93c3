/-!
# Crew/Crash — workers that break off

Everything that breaks off in a worker is recorded as it happens. A worker may go on after that,
or end by it. When all workers have ended, the crew reports those that ended by breaking off.
-/

namespace Muster

/-- **Something that broke off in a worker**: with what text, if any, and whether it ended the
worker. -/
structure Crash where
  worker : Nat
  message : Option String
  fatal : Bool := true
  deriving DecidableEq, Repr

/-- **What is reported of a worker that ended by breaking off**: a text, if one is known, and
whether anything was recorded. -/
structure Casualty where
  worker : Nat
  message : Option String
  recorded : Bool
  deriving DecidableEq, Repr

namespace Crash

/-- The workers, of so many, that ended by breaking off. -/
def casualties (workers : Nat) (crashes : List Crash) : List Nat :=
  (List.range workers).filter fun w => crashes.any fun c => c.worker = w && c.fatal

/-- **The report on a worker**: the first thing recorded of it. -/
def report (recorded : List Crash) (worker : Nat) : Casualty :=
  match recorded.find? fun c => c.worker = worker with
  | some c => { worker := worker, message := c.message, recorded := true }
  | none => { worker := worker, message := none, recorded := false }

/-- **The report of a crew**, given what happened and what of it was recorded. -/
def join (workers : Nat) (crashes recorded : List Crash) : Except (List Casualty) Unit :=
  match casualties workers crashes with
  | [] => .ok ()
  | failed => .error (failed.map (report recorded))

end Crash

namespace Casualty

/-- One casualty in a line. -/
def line (c : Casualty) : String := s!"worker {c.worker}: " ++ c.message.getD "(no message)"

/-- **The wording of a report.** -/
def summary (cs : List Casualty) : String :=
  s!"{cs.length} worker thread(s) panicked: " ++ "; ".intercalate (cs.map line)

end Casualty

end Muster
