import Muster.Replica.Build
import Muster.Supply.Feed

/-!
# Inlet — a feed with any number of stages on it

The supplies that pipelines are made of: a feed, a stage on a feed, a stage on that, and so on. A
`Blueprint` says how such an inlet is to be built.
-/

namespace Muster

/-- **A feed with so many stages on it.** -/
def Stack : Nat → Type
  | 0 => Feed
  | n + 1 => Replica (Stack n)

namespace Stack

/-- **Every stack is a supply.** -/
instance supply : (n : Nat) → Supply (Stack n)
  | 0 => inferInstanceAs (Supply Feed)
  | n + 1 =>
    letI := supply n
    inferInstanceAs (Supply (Replica (Stack n)))

end Stack

/-- **A feed with any number of stages on it.** -/
structure Inlet where
  height : Nat
  stack : Stack height

namespace Inlet

/-- A feed alone. -/
def ofFeed (f : Feed) : Inlet := ⟨0, f⟩

/-- A stage on an inlet, as an inlet. -/
def ofReplica (r : Replica Inlet) : Inlet :=
  let stage : Replica (Stack r.supply.height) :=
    { team := r.team, member := r.member, supply := r.supply.stack, pending := r.pending }
  ⟨r.supply.height + 1, stage⟩

instance : Inhabited Inlet := ⟨ofFeed default⟩

/-- A call on the stack of an inlet. -/
def onStack {α : Type} (call : (n : Nat) → Call (Onsite (Stack n)) α) :
    Call (Onsite Inlet) α := fun p =>
  let o := call p.self.height ⟨p.site, p.self.stack⟩
  ⟨o.result, ⟨o.state.site, p.self.height, o.state.self⟩, o.notices⟩

instance : Supply Inlet where
  pull := onStack fun _ => Supply.pull
  schema s := Supply.schema s.stack
  rewind := onStack fun _ => Supply.rewind
  ahead site s := Supply.ahead site s.stack
  release s := Supply.release s.stack

/-! ## Blueprints -/

/-- **How an inlet is to be built.** -/
inductive Blueprint
  | feed (f : Feed)
  | stage (g : Config) (supply : Blueprint)

/-- The number of stages. -/
def Blueprint.height : Blueprint → Nat
  | .feed _ => 0
  | .stage _ b => b.height + 1

/-- **Builds an inlet** for a worker, from the feed on. A stage that is refused refuses the
inlet. -/
def build (worker : Nat) : Blueprint → Call Site (Except ConfigError Inlet)
  | .feed f => return .ok (ofFeed f)
  | .stage g b => do
    match ← build worker b with
    | .error e => return .error e
    | .ok s => do
      match ← Replica.build worker g s with
      | .error e => return .error e
      | .ok r => return .ok (ofReplica r)

end Inlet

end Muster
