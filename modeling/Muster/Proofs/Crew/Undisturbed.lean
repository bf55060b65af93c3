import Muster.Proofs.Crew.Manning

/-!
# Proofs/Crew/Undisturbed — the moves of a worker are a call cut into pieces

Building a stage is one call (`Replica.build`), and a worker of a yard makes it in moves, between
which others may come. Each move makes the next part of the call, and leaves the rest of it
(`Yard.rest`).

* `Yard.rest_build` — what a move does, and what it leaves.
* `Yard.build_undisturbed` — the moves of a worker that nobody disturbs do what the call does.
-/

namespace Muster

namespace Yard

variable {y : Yard} {n : Numbering} {w number team : Nat} {d : Desk} {o : Order}

/-! ## What is left of a call -/

/-- What is left once the team is known. -/
def admitted (o : Order) (team : Nat) : Call Site (Except ConfigError (Replica Feed)) := do
  let s ← Call.read
  match Replica.admission o.config (Supply.schema o.feed) (s.team team) with
  | .error e => do
    Site.onTeam team (Team.depart none)
    return .error e
  | .ok () => return .ok (.fresh team .outer o.feed)

/-- **What is left to do of a stage**, given how far the worker is. Whether it is to seal the
grouper is to be read off its post. -/
def rest (y : Yard) (n : Numbering) (w : Nat) (o : Order) :
    Bench → Call Site (Except ConfigError (Replica Feed))
  | .free => Replica.build w o.config o.feed
  | .drawn number => do
    let team ← Replica.teamOf o.config n number
    admitted o team
  | .come team => admitted o team
  | .refused team e => do
    Site.onTeam team (Team.depart none)
    return .error e
  | .leaving team e => do
    Site.onTeam team (Team.conclude ((y.camp.roll team).posts[w]?.any Post.due))
    return .error e
  | .broken f => Call.fail f

/-- **What a move leaves of a call.** -/
def Leaves (y z : Yard) (n m : Numbering) (w : Nat) (o : Order) (d e : Desk) : Prop :=
  (∃ r, e = d.finish r ∧ (y.rest n w o d.bench).ends y.camp.site = (.ok r, z.camp.site)) ∨
    ∃ bench, e = { d with bench := bench } ∧
      (y.rest n w o d.bench).ends y.camp.site = (z.rest m w o bench).ends z.camp.site

/-! ## Each move -/

section Draw

/-- Whose numbering it is does not matter to a worker that comes to a team. -/
theorem teamOf_congr {s : Site} {m : Numbering} (hcrew : s.crew = some m)
    (hteams : m.teams = n.teams) (hworkers : m.workers = n.workers) (g : Config) :
    (Replica.teamOf g n number).run s = (Replica.teamOf g m number).run s := by
  have hteam? : m.team? number = n.team? number := by
    rw [Numbering.team?, hteams, Numbering.team?]
  cases ht : n.team? number with
  | some team =>
    rw [Replica.run_teamOf_here ht, Replica.run_teamOf_here (hteam?.trans ht)]
  | none =>
    have ht' := hteam?.trans ht
    cases hc : Census.ofConfig g with
    | error f => rw [Replica.run_teamOf_broken ht hc, Replica.run_teamOf_broken ht' hc]
    | ok c => rw [Replica.run_teamOf_new ht hcrew hc, Replica.run_teamOf_new ht' hcrew hc, hworkers]

theorem leaves_draw (hcrew : y.camp.site.crew = some n) (hb : d.bench = .free) :
    y.Leaves (y.draw w d n) n (n.drawn w) w o d { d with bench := .drawn (n.upcoming w) } := by
  have hdraw : (Replica.onNumbering n (Numbering.draw w)).run y.camp.site =
      ⟨.ok (n.upcoming w), y.camp.site.numbered (n.drawn w), []⟩ := by
    rw [Replica.onNumbering, Call.run_within, hcrew, Numbering.run_draw]
    rfl
  have hbuild : (Replica.build w o.config o.feed).run y.camp.site =
      (Replica.buildInCrew n w o.config o.feed).run y.camp.site := by
    rw [Replica.build, Site.consuming_feed, Call.run_bind_ok (Call.run_read _), hcrew]
    rfl
  have hdrawn : (y.camp.site.numbered (n.drawn w)).crew = some (n.drawn w) := rfl
  have hteams : (n.drawn w).teams = n.teams := rfl
  have hteam : (Replica.teamOf o.config n (n.upcoming w)).run (y.camp.site.numbered (n.drawn w)) =
      (Replica.teamOf o.config (n.drawn w) (n.upcoming w)).run (y.camp.site.numbered (n.drawn w)) :=
    teamOf_congr hdrawn hteams rfl o.config
  refine Or.inr ⟨_, rfl, ?_⟩
  rw [hb, draw_eq hcrew]
  calc (Replica.build w o.config o.feed).ends y.camp.site
      = (Replica.buildInCrew n w o.config o.feed).ends y.camp.site := by
        rw [Call.ends, hbuild, Call.ends]
    _ = (Replica.teamOf o.config n (n.upcoming w) >>= admitted o).ends
          (y.camp.site.numbered (n.drawn w)) := by
        rw [Replica.buildInCrew, Call.ends_bind, Call.ends_of_run hdraw]
        rfl
    _ = (Replica.teamOf o.config (n.drawn w) (n.upcoming w) >>= admitted o).ends
          (y.camp.site.numbered (n.drawn w)) := by
        rw [Call.ends_bind, Call.ends_bind, Call.ends, hteam, Call.ends]

end Draw

theorem leaves_come (hb : d.bench = .drawn number) (m : Numbering) :
    ∃ e, (y.come w d n o.config number).desks = y.desks.set w e ∧
      y.Leaves (y.come w d n o.config number) n m w o d e := by
  unfold come
  dsimp only
  split
  · rename_i f hf
    refine ⟨_, rfl, Or.inr ⟨_, rfl, ?_⟩⟩
    rw [hb, rest, Call.ends_bind, Call.ends, hf]
    rfl
  · rename_i team ht
    refine ⟨_, rfl, Or.inr ⟨_, rfl, ?_⟩⟩
    rw [hb, rest, Call.ends_bind, Call.ends, ht]
    dsimp only [rest]
    split <;> rfl

theorem leaves_vet (hb : d.bench = .come team) (m : Numbering) :
    ∃ e, (y.vet w d o team).desks = y.desks.set w e ∧
      y.Leaves (y.vet w d o team) n m w o d e := by
  unfold vet
  refine ⟨_, rfl, ?_⟩
  rw [Leaves, hb, rest, admitted, Call.ends_bind, Call.ends_of_run (Call.run_read _)]
  dsimp only
  cases Replica.admission o.config (Supply.schema o.feed) (y.camp.site.team team) with
  | ok u => exact Or.inl ⟨_, rfl, rfl⟩
  | error e => exact Or.inr ⟨_, rfl, rfl⟩

section Leave

variable {α : Type} {c : Camp} {k i : Nat} {e : ConfigError}

/-- **Whoever has a turn that is a call on the site** makes it, and stands where the call says. -/
theorem undergo_ofSite {x : Post} {turn : Turn} {call : Call Site α} {place : α → Post}
    (hx : (c.roll k).posts[i]? = some x)
    (hu : x.undergo k c.site turn = .ofSite c.site call place) :
    (c.undergo k i turn).site = (call.ends c.site).2 ∧
      ((c.undergo k i turn).roll k).posts[i]? =
        some (match (call.ends c.site).1 with | .ok a => place a | .error f => .broken f) := by
  obtain ⟨hi, -⟩ := List.getElem?_eq_some_iff.1 hx
  rw [Camp.roll_undergo_self hx, Roll.report, List.getElem?_append_left (by simpa using hi),
    List.getElem?_set_self hi, Camp.undergo, hx]
  simp only [hu, Upshot.ofSite, Upshot.settle, Call.ends, true_and]
  cases (call.run c.site).result <;> rfl

/-- **Leaving a team** is leaving its barrier and then sealing, if that falls to whoever leaves. -/
theorem ends_depart {s u : Site} {arrival : Option Nat} {completed : Bool}
    (hk : k < s.teams.size)
    (h : (Site.onTeam k (Team.withdraw arrival)).ends s = (.ok completed, u)) :
    (Site.onTeam k (Team.depart arrival)).ends s =
      (Site.onTeam k (Team.conclude completed)).ends u := by
  rcases hw : (Team.withdraw arrival).run (s.team k) with ⟨r, t, ns⟩
  have hends : (Site.onTeam k (Team.withdraw arrival)).ends s = (r, s.withTeam k t) := by
    rw [Call.ends, Site.onTeam, Call.run_within, hw]
  obtain ⟨rfl, rfl⟩ := Prod.mk.inj (hends.symm.trans h)
  have hteam := Site.team_withTeam_self s t hk
  rw [Call.ends, Call.ends, Site.onTeam, Site.onTeam, Call.run_within, Call.run_within, Team.depart,
    Call.run_bind_ok hw]
  simp only [hteam, Site.withTeam_withTeam]

theorem leaves_withdraw (hm : y.Matched n) (hman : y.Manned) (hd : y.desks[w]? = some d)
    (hb : d.bench = .refused team e) (m : Numbering) :
    ∃ e', (y.withdraw w d team e).desks = y.desks.set w e' ∧
      y.Leaves (y.withdraw w d team e) n m w o d e' := by
  obtain ⟨c, hc, rfl, hp, completed, hleaving⟩ := hman.posts_refused hm hd hb
  have hturn : (Post.standing { scope := .outer }).undergo c.team y.camp.site (.deed .withdraw) =
      .ofSite y.camp.site (Site.onTeam c.team (Team.withdraw none)) .leaving := rfl
  obtain ⟨hsite, hpost⟩ := undergo_ofSite hp hturn
  rw [Yard.withdraw, Manned.fault?_eq_none hleaving (by simp)]
  refine ⟨_, rfl, Or.inr ⟨_, rfl, ?_⟩⟩
  rcases hends : (Site.onTeam c.team (Team.withdraw none)).ends y.camp.site with ⟨⟨f⟩ | ⟨b⟩, u⟩
  · rw [hleaving, hends] at hpost
    cases hpost
  · rw [hleaving, hends] at hpost
    obtain rfl : completed = b := Post.leaving.inj (Option.some.inj hpost)
    rw [hends] at hsite
    rw [hb, rest, rest, Call.ends_bind, Call.ends_bind, ends_depart (hm.founds _ c hc).there hends]
    simp only [hleaving, hsite, Option.any_some, Post.due]

theorem leaves_conclude (hm : y.Matched n) (hman : y.Manned) (hd : y.desks[w]? = some d)
    (hb : d.bench = .leaving team e) (m : Numbering) :
    ∃ e', (y.conclude w d team e).desks = y.desks.set w e' ∧
      y.Leaves (y.conclude w d team e) n m w o d e' := by
  obtain ⟨c, completed, hc, rfl, hp, hgone⟩ := hman.posts_leaving hm hd hb
  have hturn : (Post.leaving completed).undergo c.team y.camp.site (.deed .conclude) =
      .ofSite y.camp.site (Site.onTeam c.team (Team.conclude completed)) fun _ => .gone := rfl
  obtain ⟨hsite, hpost⟩ := undergo_ofSite hp hturn
  rw [Yard.conclude, Manned.fault?_eq_none hgone (by simp)]
  refine ⟨_, rfl, Or.inl ⟨_, rfl, ?_⟩⟩
  rcases hends : (Site.onTeam c.team (Team.conclude completed)).ends y.camp.site with ⟨⟨f⟩ | ⟨b⟩, u⟩
  · rw [hgone, hends] at hpost
    cases hpost
  · rw [hends] at hsite
    rw [hb, rest, hp, Option.any_some, Post.due, Call.ends_bind, hends, hsite]
    rfl

end Leave

/-! ## Undisturbed -/

/-- **A move makes the next part of the call**, and leaves the rest of it. -/
theorem rest_build (hm : y.Matched n) (hman : y.Manned) (hd : y.desks[w]? = some d)
    (ho : d.order? = some o) (hb : ∀ f, d.bench ≠ .broken f) {m : Numbering}
    (hcrew : (y.build w).camp.site.crew = some m) :
    ∃ e, (y.build w).desks = y.desks.set w e ∧ y.Leaves (y.build w) n m w o d e := by
  cases hbench : d.bench with
  | free =>
    have hbuild : y.build w = y.draw w d n := by simp [build, hd, hm.crew, ho, hbench]
    rw [hbuild] at hcrew ⊢
    have hdraw := draw_eq (d := d) (w := w) hm.crew
    obtain rfl : n.drawn w = m := by
      rw [hdraw] at hcrew
      exact Option.some.inj hcrew
    exact ⟨_, congrArg Yard.desks hdraw, leaves_draw hm.crew hbench⟩
  | drawn number =>
    have hbuild : y.build w = y.come w d n o.config number := by
      simp [build, hd, hm.crew, ho, hbench]
    exact hbuild.symm ▸ leaves_come hbench m
  | come team =>
    have hbuild : y.build w = y.vet w d o team := by simp [build, hd, hm.crew, ho, hbench]
    exact hbuild.symm ▸ leaves_vet hbench m
  | refused team e =>
    have hbuild : y.build w = y.withdraw w d team e := by simp [build, hd, hm.crew, ho, hbench]
    exact hbuild.symm ▸ leaves_withdraw hm hman hd hbench m
  | leaving team e =>
    have hbuild : y.build w = y.conclude w d team e := by simp [build, hd, hm.crew, ho, hbench]
    exact hbuild.symm ▸ leaves_conclude hm hman hd hbench m
  | broken f => exact absurd hbench (hb f)

/-- **A worker that nobody disturbs finishes what is left of its call**, or breaks off where the
call does. -/
theorem rest_undisturbed (hm : y.Matched n) (hman : y.Manned) (hd : y.desks[w]? = some d)
    (ho : d.order? = some o) (hb : ∀ f, d.bench ≠ .broken f) :
    ∃ k e, k + d.bench.steps ≤ 5 ∧
      let z := y.after (List.replicate k (.build w))
      z.desks = y.desks.set w e ∧
        ((∃ r, e = d.finish r ∧
            (y.rest n w o d.bench).ends y.camp.site = (.ok r, z.camp.site)) ∨
          ∃ f, e = { d with bench := .broken f } ∧
            (y.rest n w o d.bench).ends y.camp.site = (.error f, z.camp.site)) := by
  obtain ⟨hw, -⟩ := List.getElem?_eq_some_iff.1 hd
  induction hsteps : 5 - d.bench.steps using Nat.strongRecOn generalizing y n d with
  | ind left ih =>
    obtain ⟨m, -, hm'⟩ := hm.build w
    obtain ⟨e, hdesks, hleaves⟩ := rest_build hm hman hd ho hb hm'.crew
    have hle := d.bench.steps_le
    obtain ⟨r, rfl, hends⟩ | ⟨bench, rfl, hends⟩ := hleaves
    · exact ⟨1, _, by omega, hdesks, Or.inl ⟨r, rfl, hends⟩⟩
    · have he : (y.build w).desks[w]? = some { d with bench := bench } := by
        rw [hdesks, List.getElem?_set_self hw]
      by_cases hbroken : ∃ f, bench = .broken f
      · obtain ⟨f, rfl⟩ := hbroken
        exact ⟨1, _, by omega, hdesks, Or.inr ⟨f, rfl, hends⟩⟩
      · have hadvances : d.Advances { d with bench := bench } := by
          obtain ⟨-, hnone | ⟨f, hf⟩⟩ | ⟨o', e, -, heq, hadvances, -⟩ := build_cases hm.crew hd
          · rw [ho] at hnone
            cases hnone
          · exact absurd hf (hb f)
          · rw [heq, List.getElem?_set_self hw] at he
            exact Option.some.inj he ▸ hadvances
        have hlt := hadvances.steps_lt fun f hf => hbroken ⟨f, hf⟩
        have hman' := hman.build hm w
        have hw' : w < (y.build w).desks.length := by rwa [hdesks, List.length_set]
        obtain ⟨k, e, hk, hdesks', hres⟩ := ih (5 - bench.steps) (by omega) hm' hman' he ho
          (fun f hf => hbroken ⟨f, hf⟩) hw' rfl
        refine ⟨k + 1, e, by dsimp only at hk; omega, ?_, ?_⟩
        · refine hdesks'.trans ?_
          rw [hdesks, List.set_set]
        · rw [hends]
          exact hres

/-- **A worker that nobody disturbs** builds its stage in five moves at most, and leaves the site as
the call does that builds a stage; it is done with the stage, or has broken off, as the call says.
-/
theorem build_undisturbed (hm : y.Matched n) (hman : y.Manned) (hd : y.desks[w]? = some d)
    (ho : d.order? = some o) (hb : d.bench = .free) :
    let p := (Replica.build w o.config o.feed).ends y.camp.site
    ∃ k ≤ 5, let z := y.after (List.replicate k (.build w))
      z.camp.site = p.2 ∧ z.desks = y.desks.set w (match p.1 with
        | .ok r => d.finish r
        | .error f => { d with bench := .broken f }) := by
  obtain ⟨k, e, hk, hdesks, hres⟩ := rest_undisturbed hm hman hd ho (by simp [hb])
  rw [hb, rest] at hres
  intro p
  refine ⟨k, by omega, ?_⟩
  obtain ⟨r, rfl, hends⟩ | ⟨f, rfl, hends⟩ := hres
  · rw [show p = _ from hends]
    exact ⟨rfl, hdesks⟩
  · rw [show p = _ from hends]
    exact ⟨rfl, hdesks⟩

end Yard

end Muster
