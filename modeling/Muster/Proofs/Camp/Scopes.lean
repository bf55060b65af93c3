import Muster.Proofs.Camp.Basic

/-!
# Proofs/Camp/Scopes — pipelines inside pipelines

A replica for a pipeline inside a pipeline founds a team of its own, of which it is the only member;
of the team it comes from it reads the configuration, and nothing else. Its team is a scope: it may
be replicated there, and have replicas inside its own pipeline in turn.

* `Camp.step` — a turn of a member, or a replica nested in another.
* `Camp.Uniform.nest_eq` — a new scope begins alike, whatever has happened before.
* `Camp.squad_after` — of a run a scope notices its own steps.
* `Camp.scopes_apart` — what this says of a family and all that is nested in it.
-/

namespace Muster

/-! ## Steps -/

/-- **A replica alone in a scope of its own**, for a pipeline inside a pipeline. -/
def Squad.nested (g : Config) : Except Fault Squad := do
  return { team := ← Team.ofConfig g 1, posts := [.standing { scope := .nested }] }

/-- **Nesting a replica founds a team** with the configuration of its own team. -/
theorem Replica.run_nest {σ τ : Type} [Supply τ] (r : Replica σ) (supply : τ) (site : Site) :
    (r.nest supply).run site =
      match (site.team r.team).isolated with
      | .ok t => ⟨.ok (fresh site.teams.size .nested supply),
          { site with teams := site.teams.push t }, []⟩
      | .error e => ⟨.error e, site, []⟩ := by
  rw [nest, Call.run_bind_ok (Call.run_read site), Site.found, Call.run_bind, Call.run_bind,
    Call.run_ofExcept]
  cases (site.team r.team).isolated <;> rfl

namespace Camp

/-- **What happens in a camp**: a member of a scope has its turn, or a replica is nested in it. -/
inductive Step
  | turn (scope member : Nat) (turn : Turn)
  | nest (scope member : Nat)

namespace Step

/-- The scope whose member does something. -/
def scope : Step → Nat
  | turn scope .. | nest scope _ => scope

/-- The turn that a step is in a scope, if it is one. -/
def turnIn (k : Nat) : Step → Option (Nat × Turn)
  | turn scope i t => if scope = k then some (i, t) else none
  | nest .. => none

/-- Steps of other scopes are no turns in this one. -/
theorem filterMap_turnIn_filter (k : Nat) (steps : List Step) :
    (steps.filter (·.scope = k)).filterMap (turnIn k) = steps.filterMap (turnIn k) := by
  rw [List.filterMap_filter]
  refine List.filterMap_congr fun step _ => ?_
  cases step with
  | turn scope i t => by_cases h : scope = k <;> simp [Step.scope, turnIn, h]
  | nest scope i => simp [turnIn]

end Step

/-- **A replica is nested** in a member that is not in the middle of something. -/
def nest (c : Camp) (k i : Nat) : Camp :=
  match (c.roll k).posts[i]? with
  | some (.standing m) =>
    let o := ((Replica.ofMember k m).nest (Feed.ofList [] none)).run c.site
    match o.result with
    | .ok r => c.founded o.state [.standing r.member]
    | .error _ => { c with site := o.state }
  | _ => c

/-- The camp after a step. -/
def step (c : Camp) : Step → Camp
  | .turn k i t => c.undergo k i t
  | .nest k i => c.nest k i

/-- **The camp after a run**, which says who does what, time after time. -/
def after (c : Camp) (steps : List Step) : Camp := steps.foldl step c

/-- **A camp with a squad** on a site, next to whatever else is there. -/
def opening (site : Site) (s : Squad) : Camp where
  site := { site with teams := site.teams.push s.team }
  rolls := List.replicate site.teams.size {} ++ [⟨s.posts, s.counted, s.answers⟩]

variable {c : Camp} {g : Config} {i k : Nat}

/-! ## New scopes -/

/-- **What becomes of a camp when a replica is nested**: there is one more team, or nothing
changes. -/
theorem nest_cases (c : Camp) (k i : Nat) :
    c.nest k i = c ∨ ∃ s t, s.teams = c.site.teams.push t ∧
      c.nest k i = c.founded s [.standing { scope := .nested }] := by
  unfold nest
  split
  · rename_i m hm
    rw [Replica.run_nest]
    dsimp only
    cases (c.site.team (Replica.ofMember k m).team).isolated with
    | ok t => exact Or.inr ⟨_, t, rfl, rfl⟩
    | error e => exact Or.inl rfl
  · exact Or.inl rfl

/-! ## A step -/

theorem Listed.step (h : c.Listed) (step : Step) : (c.step step).Listed := by
  cases step with
  | turn k i t => exact h.undergo k i t
  | nest k i =>
    show (c.nest k i).Listed
    obtain heq | ⟨s, t, hs, heq⟩ := c.nest_cases k i
    · rw [heq]
      exact h
    · rw [heq]
      exact h.founded hs _

theorem length_rolls_step (c : Camp) (step : Step) :
    c.rolls.length ≤ (c.step step).rolls.length := by
  cases step with
  | turn k i t => exact Nat.le_of_eq (length_rolls_undergo c k i t).symm
  | nest k i =>
    obtain heq | ⟨s, t, -, heq⟩ := c.nest_cases k i
    · exact Nat.le_of_eq (congrArg (·.rolls.length) heq.symm)
    · rw [Camp.step, heq, founded, List.length_append]
      exact Nat.le_add_right _ _

/-- **Of a step a scope notices no more than the turn that it is there.** -/
theorem squad_step (hc : c.Listed) (hk : k < c.rolls.length) (step : Step) :
    (c.step step).squad k = (c.squad k).through (step.turnIn k).toList := by
  cases step with
  | turn scope i t =>
    by_cases h : scope = k
    · subst h
      rw [Step.turnIn, if_pos rfl]
      exact squad_undergo_self hc scope i t
    · rw [Step.turnIn, if_neg h]
      exact squad_undergo_of_ne h i t
  | nest scope i =>
    obtain heq | ⟨s, t, hs, heq⟩ := c.nest_cases scope i
    · exact congrArg (·.squad k) heq
    · rw [Camp.step, heq]
      exact squad_founded hc hs hk _

/-! ## A run -/

/-- **Of a run a scope notices its own turns.** -/
theorem squad_after (hc : c.Listed) (hk : k < c.rolls.length) (steps : List Step) :
    (c.after steps).squad k = (c.squad k).through (steps.filterMap (Step.turnIn k)) := by
  induction steps generalizing c with
  | nil => rfl
  | cons step steps ih =>
    have hrest := ih (hc.step step) (Nat.lt_of_lt_of_le hk (c.length_rolls_step step))
    refine hrest.trans ?_
    rw [squad_step hc hk]
    cases h : step.turnIn k with
    | none => rw [List.filterMap_cons_none h]; rfl
    | some turn => rw [List.filterMap_cons_some h]; rfl

/-- **The invariant of a camp that starts with one family**: all its members are in teams with one
configuration. -/
structure Uniform (g : Config) (c : Camp) : Prop where
  listed : c.Listed
  config (k : Nat) : (c.roll k).posts ≠ [] → (c.site.team k).config = g

namespace Uniform

theorem undergo (h : c.Uniform g) (k i : Nat) (turn : Turn) : (c.undergo k i turn).Uniform g where
  listed := h.listed.undergo k i turn
  config j hj := by
    rw [config_undergo]
    refine h.config j fun hnil => hj ?_
    by_cases hjk : k = j
    · subst hjk
      unfold Camp.undergo
      rw [hnil]
      exact hnil
    · have hroll := congrArg Squad.posts (squad_undergo_of_ne (c := c) hjk i turn)
      exact hroll.trans hnil

/-- **A replica that is nested begins a scope of its own**, always in the same way. -/
theorem nest_eq (h : c.Uniform g) {q : Squad} (hq : Squad.nested g = .ok q) {m : Member}
    (hm : (c.roll k).posts[i]? = some (.standing m)) :
    ∃ s t, s.teams = c.site.teams.push t ∧ t.config = g ∧
      c.nest k i = c.founded s [.standing { scope := .nested }] ∧
        q = { team := t, posts := [.standing { scope := .nested }] } := by
  have hconfig : (c.site.team k).grouper.config = g :=
    h.config k (List.ne_nil_of_mem (List.mem_of_getElem? hm))
  have hisolated : (c.site.team (Replica.ofMember k m).team).isolated = Team.ofConfig g 1 := by
    rw [Team.isolated, Grouper.isolated, show (Replica.ofMember k m).team = k from rfl, hconfig]
    rfl
  cases ht : Team.ofConfig g 1 with
  | error e =>
    rw [Squad.nested, ht] at hq
    cases hq
  | ok t =>
    rw [Squad.nested, ht] at hq
    refine ⟨{ c.site with teams := c.site.teams.push t }, t, rfl, Team.config_of_ofConfig ht, ?_,
      (Except.ok.inj hq).symm⟩
    unfold nest
    rw [hm]
    dsimp only
    rw [Replica.run_nest, hisolated, ht]
    rfl

theorem founded (h : c.Uniform g) {s : Site} {t : Team} (hs : s.teams = c.site.teams.push t)
    (ht : t.config = g) (posts : List Post) : (c.founded s posts).Uniform g where
  listed := h.listed.founded hs posts
  config j hj := by
    obtain hlt | rfl | hgt := Nat.lt_trichotomy j c.rolls.length
    · have hsquad := squad_founded h.listed hs hlt posts
      have hteam := congrArg Squad.team hsquad
      have hposts := congrArg Squad.posts hsquad
      exact (congrArg Team.config hteam).trans (h.config j fun hnil => hj (hposts.trans hnil))
    · exact (congrArg (Team.config ∘ Squad.team) (squad_founded_new h.listed hs posts)).trans ht
    · refine absurd ?_ hj
      rw [roll, Camp.founded, List.getElem?_eq_none]
      · rfl
      · rw [List.length_append]
        exact hgt

theorem step (h : c.Uniform g) {q : Squad} (hq : Squad.nested g = .ok q) (step : Step) :
    (c.step step).Uniform g := by
  cases step with
  | turn k i t => exact h.undergo k i t
  | nest k i =>
    show (c.nest k i).Uniform g
    by_cases hm : ∃ m, (c.roll k).posts[i]? = some (.standing m)
    · obtain ⟨m, hm⟩ := hm
      obtain ⟨s, t, hs, ht, heq, -⟩ := h.nest_eq hq hm
      rw [heq]
      exact h.founded hs ht _
    · unfold nest
      split
      · exact absurd ⟨_, ‹_›⟩ hm
      · exact h

theorem after (h : c.Uniform g) {q : Squad} (hq : Squad.nested g = .ok q) (steps : List Step) :
    (c.after steps).Uniform g := by
  induction steps generalizing c with
  | nil => exact h
  | cons step steps ih => exact ih (h.step hq step)

end Uniform

/-! ## A family and all that is nested in it -/

/-- The squad that a camp starts with. -/
theorem squad_opening (site : Site) (s : Squad) : (opening site s).squad site.teams.size = s := by
  simp [opening, squad, roll, Roll.squad, Site.team]

theorem uniform_opening (site : Site) {s : Squad} (hs : s.team.config = g) :
    (opening site s).Uniform g where
  listed := by simp [Listed, opening]
  config k hk := by
    obtain hlt | rfl | hgt := Nat.lt_trichotomy k site.teams.size
    · refine absurd ?_ hk
      simp [roll, opening, List.getElem?_append, hlt]
    · exact (congrArg (Team.config ∘ Squad.team) (squad_opening site s)).trans hs
    · refine absurd ?_ hk
      rw [roll, opening, List.getElem?_eq_none]
      · rfl
      · simp only [List.length_append, List.length_replicate, List.length_singleton]
        exact hgt

/-- **Scopes do not notice each other.** Let there be a family, next to whatever else is on its
site, and let anything have happened: turns of its members, replicas nested in them and replicas
nested in those, and turns of all of them. Whatever then happens, to each scope it is as if nothing
had happened but its own steps; it is what would become of its squad if there were no other. At the
beginning the only scope is the family; and whoever does not stand in the middle of something can
have a replica nested in it, whose scope begins like any other. -/
theorem scopes_apart {siblings : Nat} {s : Squad} (h : Squad.family g siblings = .ok s)
    (site : Site) (before steps : List Step) :
    let start := opening site s
    let c := start.after before
    let d := c.after steps
    (∀ k, k < c.rolls.length →
      d.squad k = (c.after (steps.filter (·.scope = k))).squad k ∧
      d.squad k = (c.squad k).through (steps.filterMap (Step.turnIn k))) ∧
    (start.rolls.length = site.teams.size + 1 ∧ start.squad site.teams.size = s) ∧
    ∃ q, Squad.nested g = .ok q ∧ ∀ k i m, (c.roll k).posts[i]? = some (.standing m) →
      (c.step (.nest k i)).rolls.length = c.rolls.length + 1 ∧
        (c.step (.nest k i)).squad c.rolls.length = q := by
  intro start c d
  obtain ⟨census, hcensus, hs⟩ := Squad.family_eq h
  have hconfig : s.team.config = g := by rw [hs]; rfl
  have hnested : Squad.nested g = .ok {
      team := { grouper := { config := g, census := census }, barrier := .ofParties 1 }
      posts := [.standing { scope := .nested }] } := by
    rw [Squad.nested, Team.ofConfig, Grouper.ofConfig, hcensus]
    rfl
  have hc : c.Uniform g := (uniform_opening site hconfig).after hnested before
  refine ⟨fun k hk => ?_, ⟨?_, squad_opening site s⟩, _, hnested, fun k i m hm => ?_⟩
  · have hown := squad_after hc.listed hk (steps.filter (·.scope = k))
    rw [Step.filterMap_turnIn_filter] at hown
    have hall : d.squad k = _ := squad_after hc.listed hk steps
    exact ⟨hall.trans hown.symm, hall⟩
  · simp [start, opening]
  · obtain ⟨u, t, hu, -, heq, hq⟩ := hc.nest_eq hnested hm
    show (c.nest k i).rolls.length = _ ∧ (c.nest k i).squad _ = _
    rw [heq, hq]
    exact ⟨by simp [Camp.founded], squad_founded_new hc.listed hu _⟩

/-- A family of two: one member has a replica nested in it, which has a sibling, and a replica
nested in it in turn. The scope of the two counts a record and is sealed, whatever happens in the
other scopes meanwhile. -/
theorem scopes_apart_nested :
    ∃ s, Squad.family { keyFields := ["id"], shards := 2 } 1 = .ok s ∧
      let c := (opening {} s).after [.nest 0 1, .turn 1 0 .replicate, .nest 1 0]
      let d := c.after [.turn 1 1 (.deed (.count (.field "id" (.int 1) .empty))),
        .turn 1 0 (.deed .exhaust), .turn 0 0 (.deed .exhaust), .turn 1 1 (.deed (.enter 1)),
        .turn 1 1 (.deed .exhaust), .turn 1 0 (.deed .arrive), .turn 2 0 .dismiss,
        .turn 1 1 (.deed .arrive), .turn 0 0 .rewind, .turn 1 1 (.deed .finish)]
      d.squad 1 = (c.squad 1).through [(1, .deed (.count (.field "id" (.int 1) .empty))),
        (0, .deed .exhaust), (1, .deed (.enter 1)), (1, .deed .exhaust), (0, .deed .arrive),
        (1, .deed .arrive), (1, .deed .finish)] ∧
      (d.squad 1).team.census.seals = 1 ∧ (d.squad 0).team.census.seals = 0 := by
  have h : Squad.family { keyFields := ["id"], shards := 2 } 1 = .ok _ := rfl
  refine ⟨_, h, ?_, ?_⟩
  · have hapart := (scopes_apart h {}
      [.nest 0 1, .turn 1 0 .replicate, .nest 1 0]
      [.turn 1 1 (.deed (.count (.field "id" (.int 1) .empty))), .turn 1 0 (.deed .exhaust),
        .turn 0 0 (.deed .exhaust), .turn 1 1 (.deed (.enter 1)), .turn 1 1 (.deed .exhaust),
        .turn 1 0 (.deed .arrive), .turn 2 0 .dismiss, .turn 1 1 (.deed .arrive),
        .turn 0 0 .rewind, .turn 1 1 (.deed .finish)]).1 1
    exact (hapart (by decide +kernel)).2
  · decide +kernel

end Camp

end Muster
