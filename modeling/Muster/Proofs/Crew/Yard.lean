import Muster.Proofs.Camp.Basic
import Muster.Proofs.Crew.Building

/-!
# Proofs/Crew/Yard — workers that build at the same time

A worker that builds a stage (`Replica.build`) draws its number, comes to the team of the number,
which it founds if nobody has, is admitted or refused, and if it is refused leaves the barrier and
then seals the grouper if the others only waited for it. In a yard each of these is a move of its
own, and the other workers may come between any two of them; so may the replicas that have been
built already (`Yard.act`). A worker that nobody comes between does in its moves what the call does:
see `Proofs/Crew/Undisturbed`.

A team is founded for one party from each worker. In its roll the post of a worker is kept for the
replica that the worker is going to build: whoever is refused gives up a member that has counted
nothing.

* `Yard.build` — the next move of a worker.
* `Yard.draw_eq`, `Yard.come_found`, `Yard.come_join`, … — what the moves come to.
-/

namespace Muster

/-! ## Desks -/

/-- **A stage that is to be built.** -/
structure Order where
  config : Config
  feed : Feed

/-- **How far a worker has come with a stage.** -/
inductive Bench
  /-- it has not begun -/
  | free
  /-- it has drawn the number of the stage -/
  | drawn (number : Nat)
  /-- it has come to the team of the number -/
  | come (team : Nat)
  /-- it is not admitted, and about to leave the barrier -/
  | refused (team : Nat) (e : ConfigError)
  /-- it has left the barrier, and is about to seal the grouper if the others only waited for it -/
  | leaving (team : Nat) (e : ConfigError)
  /-- it has broken off, and does nothing any more -/
  | broken (f : Fault)

/-- How many moves there may be before a stage is where it is. -/
def Bench.steps : Bench → Nat
  | .free | .broken _ => 0
  | .drawn _ => 1
  | .come _ => 2
  | .refused .. => 3
  | .leaving .. => 4

theorem Bench.steps_le (bench : Bench) : bench.steps ≤ 4 := by
  cases bench <;> simp [steps]

/-- **What a worker is to build, and what has become of it so far.** -/
structure Desk where
  orders : List Order
  built : List (Except ConfigError (Replica Feed)) := []
  bench : Bench := .free

namespace Desk

/-- The stage that the worker is building, or about to build. -/
def order? (d : Desk) : Option Order := d.orders[d.built.length]?

/-- The worker is done with a stage. -/
def finish (d : Desk) (r : Except ConfigError (Replica Feed)) : Desk :=
  { d with built := d.built ++ [r], bench := .free }

/-- The numbers that the worker has drawn. -/
def numbers (d : Desk) : Nat :=
  match d.bench with
  | .free => d.built.length
  | _ => d.built.length + 1

/-- Has the worker built a replica in a team? -/
def staffs (d : Desk) (team : Nat) : Bool :=
  d.built.any fun
    | .ok r => r.team = team
    | .error _ => false

/-- **A worker gets on**: with the stage it is building, or to the next one; or it breaks off. -/
def Advances (d e : Desk) : Prop :=
  e.orders = d.orders ∧ (∀ f, d.bench ≠ .broken f) ∧
    ((e.built = d.built ∧ (d.bench.steps < e.bench.steps ∨ ∃ f, e.bench = .broken f)) ∨
      (e.bench = .free ∧ ∃ r, e.built = d.built ++ [r]))

theorem Advances.steps_lt {d : Desk} {bench : Bench} (h : d.Advances { d with bench := bench })
    (hb : ∀ f, bench ≠ .broken f) : d.bench.steps < bench.steps := by
  obtain ⟨-, -, ⟨-, hlt | ⟨f, hf⟩⟩ | ⟨-, r, hr⟩⟩ := h
  · exact hlt
  · exact absurd hf (hb f)
  · simp at hr

end Desk

/-- **That a worker has come to the team of a number**: with which configuration, and the team it
has founded there, if there was none. -/
structure Coming where
  worker : Nat
  number : Nat
  config : Config
  team : Nat
  founded : Option Team

/-! ## Yards -/

/-- **A yard**: a camp, the desks of the workers, and who has come to which number, one after the
other. -/
structure Yard where
  camp : Camp
  desks : List Desk
  comings : List Coming := []

/-- **What happens in a yard**: a worker goes on building, or a member of a team does something. -/
inductive Yard.Move
  | build (worker : Nat)
  | act (team member : Nat) (d : Deed)

/-- The fault with which a member has broken off, if it has. -/
def Camp.fault? (c : Camp) (k i : Nat) : Option Fault :=
  match (c.roll k).posts[i]? with
  | some (.broken f) => some f
  | _ => none

/-! ## Coming to a team -/

namespace Replica

variable {s : Site} {n m : Numbering} {number team : Nat} {g : Config}

theorem run_teamOf_here (ht : n.team? number = some team) :
    (teamOf g n number).run s = ⟨.ok team, s, []⟩ := by
  rw [teamOf, ht]
  rfl

theorem run_teamOf_new (ht : n.team? number = none) (hcrew : s.crew = some m) {c : Census}
    (hc : Census.ofConfig g = .ok c) :
    (teamOf g n number).run s =
      ⟨.ok s.teams.size, { s with
        teams := s.teams.push ⟨⟨g, c⟩, .ofParties n.workers⟩
        crew := some (m.withTeam number s.teams.size) }, []⟩ := by
  have hfound : (Site.found (Team.ofConfig g n.workers)).run s = ⟨.ok s.teams.size,
      { s with teams := s.teams.push ⟨⟨g, c⟩, .ofParties n.workers⟩ }, []⟩ := by
    rw [Team.ofConfig_ok hc]
    rfl
  rw [teamOf, ht]
  dsimp only
  rw [Call.run_bind_ok hfound]
  simp [onNumbering, hcrew, Except.map]

theorem run_teamOf_broken (ht : n.team? number = none) {f : Fault}
    (hf : Census.ofConfig g = .error f) : (teamOf g n number).run s = ⟨.error f, s, []⟩ := by
  have hfound : (Site.found (Team.ofConfig g n.workers)).run s = ⟨.error f, s, []⟩ := by
    rw [Team.ofConfig_error hf]
    rfl
  rw [teamOf, ht]
  exact Call.run_bind_error hfound

end Replica

namespace Yard

/-- The yard after a worker has gone on like this. -/
def seat (y : Yard) (w : Nat) (d : Desk) : Yard := { y with desks := y.desks.set w d }

/-- The worker draws the number of its stage. -/
def draw (y : Yard) (w : Nat) (d : Desk) (n : Numbering) : Yard :=
  let o := (Replica.onNumbering n (Numbering.draw w)).run y.camp.site
  let bench := match o.result with
    | .ok number => .drawn number
    | .error f => .broken f
  { y.seat w { d with bench := bench } with camp.site := o.state }

/-- The worker comes to the team of the number. It founds the team or finds it, and nobody comes
between. -/
def come (y : Yard) (w : Nat) (d : Desk) (n : Numbering) (g : Config) (number : Nat) : Yard :=
  let o := (Replica.teamOf g n number).run y.camp.site
  match o.result with
  | .error f => { y.seat w { d with bench := .broken f } with camp.site := o.state }
  | .ok team =>
    let founded := o.state.teams[y.camp.site.teams.size]?
    { y.seat w { d with bench := .come team } with
      camp := if founded.isSome then
          y.camp.founded o.state (List.replicate n.workers (.standing { scope := .outer }))
        else { y.camp with site := o.state }
      comings := y.comings ++ [⟨w, number, g, team, founded⟩] }

/-- The worker is admitted to the team, or not. -/
def vet (y : Yard) (w : Nat) (d : Desk) (o : Order) (team : Nat) : Yard :=
  y.seat w (match Replica.admission o.config (Supply.schema o.feed) (y.camp.site.team team) with
    | .ok () => d.finish (.ok (.fresh team .outer o.feed))
    | .error e => { d with bench := .refused team e })

/-- The worker leaves the barrier. -/
def withdraw (y : Yard) (w : Nat) (d : Desk) (team : Nat) (e : ConfigError) : Yard :=
  let c := y.camp.undergo team w (.deed .withdraw)
  let bench := match c.fault? team w with
    | some f => .broken f
    | none => .leaving team e
  { y.seat w { d with bench := bench } with camp := c }

/-- The worker seals the grouper if the others only waited for it, and is done with the stage. -/
def conclude (y : Yard) (w : Nat) (d : Desk) (team : Nat) (e : ConfigError) : Yard :=
  let c := y.camp.undergo team w (.deed .conclude)
  let desk := match c.fault? team w with
    | some f => { d with bench := .broken f }
    | none => d.finish (.error e)
  { y.seat w desk with camp := c }

/-- **A worker goes on building**, as long as there is something to build. -/
def build (y : Yard) (w : Nat) : Yard :=
  match y.desks[w]?, y.camp.site.crew with
  | some d, some n =>
    match d.order?, d.bench with
    | some _, .free => y.draw w d n
    | some o, .drawn number => y.come w d n o.config number
    | some o, .come team => y.vet w d o team
    | some _, .refused team e => y.withdraw w d team e
    | some _, .leaving team e => y.conclude w d team e
    | _, _ => y
  | _, _ => y

/-- Is there a replica at a post of a team? The first posts are the workers'; behind them are those
of replicas made from others. -/
def replicaAt (y : Yard) (team i : Nat) : Bool :=
  y.desks.length ≤ i || y.desks[i]?.any fun d => d.staffs team

/-- **A member does something**, if it has been built. -/
def act (y : Yard) (team i : Nat) (d : Deed) : Yard :=
  if y.replicaAt team i then { y with camp := y.camp.undergo team i (.deed d) } else y

/-- The yard after a move. -/
def move (y : Yard) : Move → Yard
  | .build w => y.build w
  | .act team i d => y.act team i d

/-- **The yard after some moves**, one after the other. -/
def after (y : Yard) (moves : List Move) : Yard := moves.foldl move y

/-- **A yard before anything is built**: a crew with a new numbering on a site, and what each worker
is to build. -/
def opening (site : Site) (n : Numbering) (orders : List (List Order)) : Yard where
  camp := { site := site.numbered n, rolls := List.replicate site.teams.size {} }
  desks := orders.map fun os => { orders := os }

/-- Who has come first to a number. -/
def founder? (y : Yard) (number : Nat) : Option Coming := y.comings.find? (·.number = number)

variable {y : Yard} {n : Numbering} {w i number team : Nat} {d : Desk} {g : Config}

/-! ## What the moves come to -/

theorem draw_eq (hcrew : y.camp.site.crew = some n) :
    y.draw w d n = { y.seat w { d with bench := .drawn (n.upcoming w) } with
      camp.site := y.camp.site.numbered (n.drawn w) } := by
  have hrun : (Replica.onNumbering n (Numbering.draw w)).run y.camp.site =
      ⟨.ok (n.upcoming w), y.camp.site.numbered (n.drawn w), []⟩ := by
    rw [Replica.onNumbering, Call.run_within, hcrew, Option.getD_some, Numbering.run_draw]
    rfl
  rw [draw, hrun]

/-- **A worker joins the team of the number**, if there is one. -/
theorem come_join (ht : n.team? number = some team) :
    y.come w d n g number = { y.seat w { d with bench := .come team } with
      comings := y.comings ++ [⟨w, number, g, team, none⟩] } := by
  simp [come, Replica.run_teamOf_here ht, seat]

/-- **Else it founds a team** for all workers, if it can. -/
theorem come_found (ht : n.team? number = none) (hcrew : y.camp.site.crew = some n) {c : Census}
    (hc : Census.ofConfig g = .ok c) :
    let t : Team := ⟨⟨g, c⟩, .ofParties n.workers⟩
    let size := y.camp.site.teams.size
    y.come w d n g number = { y.seat w { d with bench := .come size } with
      camp := y.camp.founded
        { y.camp.site with
          teams := y.camp.site.teams.push t, crew := some (n.withTeam number size) }
        (List.replicate n.workers (.standing { scope := .outer }))
      comings := y.comings ++ [⟨w, number, g, size, some t⟩] } := by
  intro t size
  simp [come, Replica.run_teamOf_new ht hcrew hc, seat, t, size]

/-- **Or it breaks off**, where no team can be founded. -/
theorem come_broken (ht : n.team? number = none) {f : Fault} (hf : Census.ofConfig g = .error f) :
    y.come w d n g number = y.seat w { d with bench := .broken f } := by
  simp [come, Replica.run_teamOf_broken ht hf, seat]

/-! ## Getting on -/

/-- **A worker gets on** as long as there is something to build and it has not broken off; and it
writes its own desk alone. If it comes to a number, that is its own one, with its own
configuration. -/
theorem build_cases (hcrew : y.camp.site.crew = some n) (hd : y.desks[w]? = some d) :
    (y.build w = y ∧ (d.order? = none ∨ ∃ f, d.bench = .broken f)) ∨
    ∃ o e, d.order? = some o ∧ (y.build w).desks = y.desks.set w e ∧ d.Advances e ∧
      ((y.build w).comings = y.comings ∨ ∃ c, (y.build w).comings = y.comings ++ [c] ∧
        c.worker = w ∧ d.bench = .drawn c.number ∧ c.config = o.config) := by
  unfold build
  rw [hd, hcrew]
  dsimp only
  cases ho : d.order? with
  | none => exact Or.inl ⟨rfl, Or.inl rfl⟩
  | some o =>
    cases hb : d.bench with
    | free =>
      rw [draw_eq hcrew]
      refine Or.inr ⟨o, _, rfl, rfl, ⟨rfl, by simp [hb], Or.inl ⟨rfl, Or.inl ?_⟩⟩, Or.inl rfl⟩
      rw [hb]
      exact Nat.zero_lt_one
    | drawn number =>
      dsimp only [come]
      split
      · exact Or.inr ⟨o, _, rfl, rfl, ⟨rfl, by simp [hb], Or.inl ⟨rfl, Or.inr ⟨_, rfl⟩⟩⟩,
          Or.inl rfl⟩
      · refine Or.inr ⟨o, _, rfl, rfl, ⟨rfl, by simp [hb], Or.inl ⟨rfl, Or.inl ?_⟩⟩,
          Or.inr ⟨_, rfl, rfl, rfl, rfl⟩⟩
        rw [hb]
        exact Nat.lt_succ_self 1
    | come team =>
      dsimp only [vet]
      split
      · exact Or.inr ⟨o, _, rfl, rfl, ⟨rfl, by simp [hb], Or.inr ⟨rfl, _, rfl⟩⟩, Or.inl rfl⟩
      · refine Or.inr ⟨o, _, rfl, rfl, ⟨rfl, by simp [hb], Or.inl ⟨rfl, Or.inl ?_⟩⟩, Or.inl rfl⟩
        rw [hb]
        exact Nat.lt_succ_self 2
    | refused team e =>
      dsimp only [withdraw]
      split
      · exact Or.inr ⟨o, _, rfl, rfl, ⟨rfl, by simp [hb], Or.inl ⟨rfl, Or.inr ⟨_, rfl⟩⟩⟩,
          Or.inl rfl⟩
      · refine Or.inr ⟨o, _, rfl, rfl, ⟨rfl, by simp [hb], Or.inl ⟨rfl, Or.inl ?_⟩⟩, Or.inl rfl⟩
        rw [hb]
        exact Nat.lt_succ_self 3
    | leaving team e =>
      dsimp only [conclude]
      split
      · exact Or.inr ⟨o, _, rfl, rfl, ⟨rfl, by simp [hb], Or.inl ⟨rfl, Or.inr ⟨_, rfl⟩⟩⟩,
          Or.inl rfl⟩
      · exact Or.inr ⟨o, _, rfl, rfl, ⟨rfl, by simp [hb], Or.inr ⟨rfl, _, rfl⟩⟩, Or.inl rfl⟩
    | broken f => exact Or.inl ⟨rfl, Or.inr ⟨f, rfl⟩⟩

end Yard

end Muster
