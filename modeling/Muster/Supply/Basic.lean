import Muster.Site

/-!
# Supply/Basic — where a stage gets its records

A supply delivers records one at a time. It may end, fail, or have nothing yet. Some supplies can
start over, and some know the names of their fields beforehand. Whatever a supply shares with
others is on the site, so that its calls run on a state that is the site and the supply itself.
-/

namespace Muster

/-- **What asking for a record answers.** -/
inductive Pull
  | record (r : Record)
  | ended
  | failed (message : String)
  /-- there is no record yet -/
  | blocked
  deriving Inhabited

/-- **A supply, or something built on one, on its site.** -/
structure Onsite (σ : Type) where
  site : Site
  self : σ

namespace Onsite

variable {σ τ α : Type}

/-- A call on the site alone. -/
def onSite (call : Call Site α) : Call (Onsite σ) α :=
  call.within Onsite.site fun s p => { p with site := s }

/-- A call on a part, on the same site. -/
def onPart (get : σ → τ) (put : τ → σ → σ) (call : Call (Onsite τ) α) : Call (Onsite σ) α :=
  call.within (fun p => ⟨p.site, get p.self⟩) fun q p => ⟨q.site, put q.self p.self⟩

/-- Changes what is on the site. -/
def update (f : σ → σ) : Call (Onsite σ) Unit := Call.change fun p => { p with self := f p.self }

end Onsite

/-- **A supply of records.** -/
class Supply (σ : Type) where
  /-- asks for the next record -/
  pull : Call (Onsite σ) Pull
  /-- the names of the fields, if they are known beforehand -/
  schema : σ → Option (List String)
  /-- starts over; says whether that is possible -/
  rewind : Call (Onsite σ) Bool
  /-- a bound on the records that can be pulled before something else is answered -/
  ahead : Site → σ → Nat
  /-- gives up what the supply takes part in -/
  release : σ → Call Site Unit

end Muster
