import Muster.Supply.Basic

/-!
# Supply/Watched — supplies that do something at a certain record

An `Alarmed` supply tells everybody to stop after some records; a `Fragile` one breaks off at a
certain record. Otherwise both are the supply they are built on.
-/

namespace Muster

/-! ## Alarms -/

/-- **A supply that tells everybody to stop** after some records have been pulled, or when
it ends. -/
structure Alarmed (σ : Type) where
  supply : σ
  left : Nat

namespace Alarmed

variable {σ α : Type}

/-- A call on the supply itself. -/
def onSupply (call : Call (Onsite σ) α) : Call (Onsite (Alarmed σ)) α :=
  Onsite.onPart Alarmed.supply (fun s a => { a with supply := s }) call

/-- Asks for the next record. -/
def pull [Supply σ] : Call (Onsite (Alarmed σ)) Pull := do
  let answer ← onSupply Supply.pull
  match answer with
  | .record _ => do
    Onsite.update fun a => { a with left := a.left - 1 }
    let p ← Call.read
    if p.self.left = 0 then Onsite.onSite Site.kill
  | .ended => Onsite.onSite Site.kill
  | _ => pure ()
  return answer

instance [Supply σ] : Supply (Alarmed σ) where
  pull := pull
  schema a := Supply.schema a.supply
  rewind := onSupply Supply.rewind
  ahead s a := Supply.ahead s a.supply
  release a := Supply.release a.supply

end Alarmed

/-! ## Breaking off -/

/-- **A supply that breaks off at a certain record**, which is then lost. -/
structure Fragile (σ : Type) where
  supply : σ
  /-- how many records until then, that one included, and with what text; `none` for never -/
  flaw : Option (Nat × Option String)

namespace Fragile

variable {σ α : Type}

/-- A call on the supply itself. -/
def onSupply (call : Call (Onsite σ) α) : Call (Onsite (Fragile σ)) α :=
  Onsite.onPart Fragile.supply (fun s f => { f with supply := s }) call

/-- Asks for the next record. -/
def pull [Supply σ] : Call (Onsite (Fragile σ)) Pull := do
  let answer ← onSupply Supply.pull
  match answer with
  | .record _ => do
    let p ← Call.read
    match p.self.flaw with
    | none => pure ()
    | some (left, message) => do
      if left = 1 then Call.fail (.raised message)
      Onsite.update fun f => { f with flaw := some (left - 1, message) }
  | _ => pure ()
  return answer

instance [Supply σ] : Supply (Fragile σ) where
  pull := pull
  schema f := Supply.schema f.supply
  rewind := onSupply Supply.rewind
  ahead s f := Supply.ahead s f.supply
  release f := Supply.release f.supply

end Fragile

end Muster
