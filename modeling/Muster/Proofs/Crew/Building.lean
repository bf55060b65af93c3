import Muster.Proofs.Replacing
import Muster.Proofs.Squad.Seats
import Muster.Replica.Build
import Muster.Supply.Feed

/-!
# Proofs/Crew/Building — workers that build their stages

Every worker of a crew numbers the stages it builds, and the first one that comes to a number founds
the team of that number for all workers. So the barrier of a team has a party for each worker that
has not come to its number yet (`Site.Staffed`), and a worker that is refused when it comes there
has a party to take off.

* `Team.departed_released` — somebody who has not arrived leaves a team.
* `Site.run_teamOf` — a worker comes to a number.
* `Site.Staffed.built` — the invariant, after any number of stages that workers have built.
-/

namespace Muster

/-! ## Numbers -/

namespace Numbering

variable {n : Numbering} {worker number team : Nat}

/-- **The number that a worker comes to next.** -/
def upcoming (n : Numbering) (worker : Nat) : Nat := n.next[worker]?.getD 0

/-- The numbering after a worker has drawn its next number. -/
def drawn (n : Numbering) (worker : Nat) : Numbering :=
  { n with next := n.next.setIfInBounds worker (n.upcoming worker + 1) }

/-- **How many workers have not come to a number yet.** -/
def awaited (n : Numbering) (number : Nat) : Nat := n.next.toList.countP (· ≤ number)

theorem run_draw (n : Numbering) (worker : Nat) :
    (draw worker).run n = ⟨.ok (n.upcoming worker), n.drawn worker, []⟩ := rfl

/-- **Whoever draws a number has come to it**, and to no other. -/
theorem awaited_drawn (hw : worker < n.next.size) (number : Nat) :
    (n.drawn worker).awaited number + (if number = n.upcoming worker then 1 else 0) =
      n.awaited number := by
  have hx : n.next.toList[worker]? = some (n.upcoming worker) := by
    simp [upcoming, hw]
  have hset := countP_set_add hx (n.upcoming worker + 1) fun i => decide (i ≤ number)
  have hlist : (n.drawn worker).next.toList = n.next.toList.set worker (n.upcoming worker + 1) :=
    Array.toList_setIfInBounds
  rw [awaited, awaited, hlist]
  by_cases hnumber : number = n.upcoming worker
  · have hle : decide (n.upcoming worker ≤ number) = true := by simp [hnumber]
    have hlt : decide (n.upcoming worker + 1 ≤ number) = false := by simp [hnumber]
    rw [hle, hlt, Bool.toNat_true, Bool.toNat_false] at hset
    rw [if_pos hnumber]
    exact hset
  · have heq : decide (n.upcoming worker ≤ number) = decide (n.upcoming worker + 1 ≤ number) := by
      rw [decide_eq_decide]
      omega
    rw [heq] at hset
    rw [if_neg hnumber]
    exact Nat.add_right_cancel hset

theorem awaited_le (n : Numbering) (number : Nat) : n.awaited number ≤ n.next.size := by
  rw [← Array.length_toList]
  exact List.countP_le_length

theorem team?_withTeam (n : Numbering) (number team i : Nat) :
    (n.withTeam number team).team? i =
      (n.team? i).or (if i = number then some team else none) := by
  rw [withTeam, team?, List.lookup_append]
  refine congrArg (Option.or _) ?_
  by_cases h : i = number
  · rw [if_pos h, h, List.lookup_cons_self]
  · rw [if_neg h, List.lookup_cons, beq_false_of_ne h]
    rfl

/-- **The numbering of a new crew**: nobody has come to any number. -/
theorem ofWorkers_eq {workers : Nat} (h : ofWorkers workers = .ok n) :
    n = { workers := workers, next := Array.replicate workers 0 } := by
  unfold ofWorkers at h
  split at h
  · cases h
  · cases hroom : Room.reserve workers width with
    | error e =>
      rw [hroom] at h
      cases h
    | ok u =>
      rw [hroom] at h
      exact (Except.ok.inj h).symm

/-- A crew has a worker. -/
theorem pos_of_ofWorkers {workers : Nat} (h : ofWorkers workers = .ok n) : 0 < workers := by
  refine Nat.pos_of_ne_zero ?_
  rintro rfl
  cases h

end Numbering

/-! ## Leaving a team -/

namespace Team

variable {t : Team}

/-- **Whoever has not arrived takes one party off.** -/
theorem parties_departed (t : Team) (arrival : Option Nat) :
    (t.departed arrival).barrier.parties = t.barrier.parties - 1 :=
  Barrier.parties_relieved _ _

/-- **Whoever leaves without having arrived keeps nobody waiting**: somebody else is still missing,
or the grouper is sealed. -/
theorem departed_released (t : Team) :
    (t.departed none).barrier.arrived < (t.departed none).barrier.parties ∨
      (t.departed none).census.handOff.isSome = true := by
  unfold departed Barrier.relieved Barrier.advanced
  dsimp only
  split
  · exact Or.inl ‹_›
  · refine Or.inr ?_
    rw [census_withCensus, closed, Bool.true_and]
    cases hn : t.census.handOff with
    | none => rfl
    | some ho =>
      rw [Option.isNone_some, if_neg Bool.false_ne_true, hn]
      rfl

theorem healthy_departed (hh : t.census.Healthy) (arrival : Option Nat) :
    (t.departed arrival).census.Healthy := by
  rw [departed, census_withCensus, closed]
  split
  · exact hh.congr rfl rfl
  · exact hh

end Team

/-! ## Crews that build -/

namespace Site

variable {s : Site} {n : Numbering} {worker number team : Nat}

/-- The site with another numbering. -/
def numbered (s : Site) (n : Numbering) : Site := { s with crew := some n }

/-- **The invariant of a crew that builds**: the team of a number is there and in working order, no
team has two numbers, and each has a party for every worker that has not come to its number. -/
structure Staffed (n : Numbering) (s : Site) : Prop where
  crew : s.crew = some n
  size : n.next.size = n.workers
  there (number team : Nat) : n.team? number = some team → team < s.teams.size
  healthy (number team : Nat) : n.team? number = some team → (s.team team).census.Healthy
  apart (i j team : Nat) : n.team? i = some team → n.team? j = some team → i = j
  parties (number team : Nat) : n.team? number = some team →
    n.awaited number ≤ (s.team team).barrier.parties

namespace Staffed

/-- **A new crew** has no team yet. -/
theorem ofWorkers {workers : Nat} (h : Numbering.ofWorkers workers = .ok n) (s : Site) :
    (s.numbered n).Staffed n := by
  obtain rfl := Numbering.ofWorkers_eq h
  refine ⟨rfl, Array.size_replicate, ?_, ?_, ?_, ?_⟩ <;> nofun

/-- **A worker draws a number**, and is awaited there no more. -/
theorem drawn (h : s.Staffed n) (hw : worker < n.workers) :
    (s.numbered (n.drawn worker)).Staffed (n.drawn worker) where
  crew := rfl
  size := Array.size_setIfInBounds.trans h.size
  there := h.there
  healthy := h.healthy
  apart := h.apart
  parties number team ht := by
    have hle := h.parties number team ht
    have hdrawn := Numbering.awaited_drawn (h.size.symm ▸ hw) number
    exact Nat.le_trans (Nat.le.intro hdrawn) hle

/-- **A team is founded** for a number that has none. -/
theorem founded (h : s.Staffed n) (hn : n.team? number = none) {t : Team}
    (hh : t.census.Healthy) (hp : n.awaited number ≤ t.barrier.parties) :
    Staffed (n.withTeam number s.teams.size) { s with
      teams := s.teams.push t, crew := some (n.withTeam number s.teams.size) } := by
  have hcases : ∀ {i team}, (n.withTeam number s.teams.size).team? i = some team →
      (n.team? i = some team ∧ i ≠ number) ∨ (i = number ∧ team = s.teams.size) := by
    intro i team ht
    rw [Numbering.team?_withTeam] at ht
    by_cases hi : i = number
    · rw [hi, hn, if_pos rfl] at ht
      exact Or.inr ⟨hi, (Option.some.inj ht).symm⟩
    · rw [if_neg hi, Option.or_none] at ht
      exact Or.inl ⟨ht, hi⟩
  have hold : ∀ {team}, team < s.teams.size →
      Site.team { s with teams := s.teams.push t, crew := some (n.withTeam number s.teams.size) }
        team = s.team team := by
    intro team ht
    simp [Site.team, Array.getElem?_push, Nat.ne_of_lt ht]
  have hnew :
      Site.team { s with teams := s.teams.push t, crew := some (n.withTeam number s.teams.size) }
        s.teams.size = t := by
    simp [Site.team]
  refine ⟨rfl, h.size, fun i team ht => ?_, fun i team ht => ?_, fun i j team hi hj => ?_,
    fun i team ht => ?_⟩
  · rw [Array.size_push]
    obtain ⟨ht, -⟩ | ⟨-, rfl⟩ := hcases ht
    · exact Nat.lt_succ_of_lt (h.there i team ht)
    · exact Nat.lt_succ_self _
  · obtain ⟨ht, -⟩ | ⟨-, rfl⟩ := hcases ht
    · rw [hold (h.there i team ht)]
      exact h.healthy i team ht
    · rw [hnew]
      exact hh
  · obtain ⟨hi, -⟩ | ⟨rfl, rfl⟩ := hcases hi
    · obtain ⟨hj, -⟩ | ⟨-, rfl⟩ := hcases hj
      · exact h.apart i j team hi hj
      · exact absurd (h.there i _ hi) (Nat.lt_irrefl _)
    · obtain ⟨hj, -⟩ | ⟨rfl, -⟩ := hcases hj
      · exact absurd (h.there j _ hj) (Nat.lt_irrefl _)
      · rfl
  · obtain ⟨ht, -⟩ | ⟨rfl, rfl⟩ := hcases ht
    · rw [hold (h.there i team ht)]
      exact h.parties i team ht
    · rw [hnew]
      exact hp

/-- **A worker that has come to a number leaves the team** of that number. -/
theorem departed (h : s.Staffed n) (ht : n.team? number = some team)
    (hlt : n.awaited number < (s.team team).barrier.parties) :
    (s.withTeam team ((s.team team).departed none)).Staffed n := by
  have hself := team_withTeam_self s ((s.team team).departed none) (h.there number team ht)
  refine ⟨h.crew, h.size, fun i other hi => ?_, fun i other hi => ?_, h.apart, fun i other hi => ?_⟩
  · exact Array.size_setIfInBounds.symm ▸ h.there i other hi
  · by_cases hother : team = other
    · subst hother
      rw [hself]
      exact Team.healthy_departed (h.healthy number team ht) none
    · rw [team_withTeam_of_ne s _ hother]
      exact h.healthy i other hi
  · by_cases hother : team = other
    · subst hother
      obtain rfl := h.apart i number team hi ht
      rw [hself, Team.parties_departed]
      exact Nat.le_sub_one_of_lt hlt
    · rw [team_withTeam_of_ne s _ hother]
      exact h.parties i other hi

end Staffed

/-! ## Coming to a number -/

/-- **The parties that await a worker at a number**: those of its team, or one for each worker if
nobody has founded it. -/
def partiesAt (s : Site) (n : Numbering) (number : Nat) : Nat :=
  match n.team? number with
  | some team => (s.team team).barrier.parties
  | none => n.workers

/-- **What a worker finds that has come to a number**: a team, with a party for it. -/
structure Reached (s : Site) (n : Numbering) (number : Nat) (u : Site) (m : Numbering)
    (team : Nat) : Prop where
  staffed : u.Staffed m
  workers : m.workers = n.workers
  here : m.team? number = some team
  awaited : m.awaited number < (u.team team).barrier.parties
  parties : (u.team team).barrier.parties = s.partiesAt n number
  others (i : Nat) : i ≠ team → u.team i = s.team i

/-- **A worker comes to the team of a number**, which it founds if nobody has; only that can
fail. -/
theorem Staffed.run_teamOf (h : s.Staffed n) (hw : worker < n.workers) (g : Config) :
    (n.team? (n.upcoming worker) = none ∧ ∃ e, Census.ofConfig g = .error e ∧
      (Replica.teamOf g n (n.upcoming worker)).run (s.numbered (n.drawn worker)) =
        ⟨.error e, s.numbered (n.drawn worker), []⟩) ∨
    (((n.team? (n.upcoming worker)).isSome ∨ ∃ c, Census.ofConfig g = .ok c) ∧ ∃ u m team,
      (Replica.teamOf g n (n.upcoming worker)).run (s.numbered (n.drawn worker)) =
        ⟨.ok team, u, []⟩ ∧ s.Reached n (n.upcoming worker) u m team) := by
  have hawaited := Numbering.awaited_drawn (h.size.symm ▸ hw) (n.upcoming worker)
  rw [if_pos rfl] at hawaited
  cases ht : n.team? (n.upcoming worker) with
  | some team =>
    refine Or.inr ⟨Or.inl rfl, _, _, team, ?_, h.drawn hw, rfl, ht, ?_, ?_, fun _ _ => rfl⟩
    · rw [Replica.teamOf, ht]
      rfl
    · have hle := h.parties _ team ht
      show _ < (s.team team).barrier.parties
      omega
    · rw [partiesAt, ht]
      rfl
  | none =>
    cases hc : Census.ofConfig g with
    | error e =>
      refine Or.inl ⟨rfl, e, rfl, ?_⟩
      rw [Replica.teamOf, ht]
      have hfound : (found (Team.ofConfig g n.workers)).run (s.numbered (n.drawn worker)) =
          ⟨.error e, s.numbered (n.drawn worker), []⟩ := by
        rw [Team.ofConfig_error hc]
        rfl
      exact Call.run_bind_error hfound
    | ok c =>
      have hle := n.awaited_le (n.upcoming worker)
      rw [h.size] at hle
      have hlt : (n.drawn worker).awaited (n.upcoming worker) < n.workers := by omega
      refine Or.inr ⟨Or.inr ⟨c, rfl⟩, _, _, s.teams.size, ?_,
        (h.drawn hw).founded (t := ⟨⟨g, c⟩, .ofParties n.workers⟩) ht
          (Census.fresh_of_ofConfig hc).healthy (Nat.le_of_lt hlt), rfl, ?_, ?_, ?_, fun i hi => ?_⟩
      · rw [Replica.teamOf, ht]
        have hfound : (found (Team.ofConfig g n.workers)).run (s.numbered (n.drawn worker)) =
            ⟨.ok s.teams.size, { s.numbered (n.drawn worker) with
              teams := s.teams.push ⟨⟨g, c⟩, .ofParties n.workers⟩ }, []⟩ := by
          rw [Team.ofConfig_ok hc]
          rfl
        rw [Call.run_bind_ok hfound]
        rfl
      · rw [Numbering.team?_withTeam, if_pos rfl]
        show (n.team? _).or _ = _
        rw [ht]
        rfl
      · show (n.drawn worker).awaited _ < (Site.team _ _).barrier.parties
        simpa [Site.team, numbered, Barrier.ofParties] using hlt
      · rw [partiesAt, ht]
        simp [Site.team, numbered, Barrier.ofParties]
      · simp [Site.team, numbered, Array.getElem?_push, hi]

/-! ## Building -/

/-- **A feed that is used up leaves nothing behind.** -/
theorem consuming_feed {ε α : Type} (feed : Feed) (call : Call Site (Except ε α)) :
    Replica.consuming feed call = call := by
  funext s
  show (Replica.consuming feed call).run s = call.run s
  rw [Replica.consuming, Call.run_bind, Call.run_caught]
  have hrelease : (Supply.release feed).run = fun s : Site => ⟨.ok (), s, []⟩ := rfl
  rcases call.run s with ⟨⟨e⟩ | ⟨⟨e⟩ | ⟨a⟩⟩, t, ns⟩ <;> simp [Call.run_bind, hrelease, Except.map]

/-- **A worker builds a stage on a feed**: it breaks off where it cannot found a team, and else is
admitted to the team of its number, or leaves it again. -/
theorem Staffed.run_build (h : s.Staffed n) (hw : worker < n.workers) (g : Config) (feed : Feed) :
    (n.team? (n.upcoming worker) = none ∧ ∃ e, Census.ofConfig g = .error e ∧
      (Replica.build worker g feed).run s = ⟨.error e, s.numbered (n.drawn worker), []⟩) ∨
    (((n.team? (n.upcoming worker)).isSome ∨ ∃ c, Census.ofConfig g = .ok c) ∧ ∃ u m team ns,
      s.Reached n (n.upcoming worker) u m team ∧
        (Replica.build worker g feed).run s =
          match Replica.admission g (Supply.schema feed) (u.team team) with
          | .error e => ⟨.ok (.error e), u.withTeam team ((u.team team).departed none), ns⟩
          | .ok () => ⟨.ok (.ok (.fresh team .outer feed)), u, ns⟩) := by
  have hbuild : (Replica.build worker g feed).run s =
      (Replica.buildInCrew n worker g feed).run s := by
    rw [Replica.build, consuming_feed, Call.run_bind_ok (Call.run_read s), h.crew]
    rfl
  have hdraw : (Replica.onNumbering n (Numbering.draw worker)).run s =
      ⟨.ok (n.upcoming worker), s.numbered (n.drawn worker), []⟩ := by
    rw [Replica.onNumbering, Call.run_within, h.crew, Numbering.run_draw]
    rfl
  rw [hbuild, Replica.buildInCrew, Call.run_bind_ok hdraw]
  obtain ⟨hnone, e, he, hrun⟩ | ⟨hsome, u, m, team, hrun, hreached⟩ := h.run_teamOf hw g
  · refine Or.inl ⟨hnone, e, he, ?_⟩
    rw [Call.run_bind_error hrun]
    rfl
  · refine Or.inr ⟨hsome, u, m, team, ?_⟩
    rw [Call.run_bind_ok hrun, Call.run_bind_ok (Call.run_read u)]
    cases Replica.admission g (Supply.schema feed) (u.team team) with
    | ok _ => exact ⟨[], hreached, rfl⟩
    | error e =>
      obtain ⟨ns, hdepart⟩ := Team.run_depart (hreached.staffed.healthy _ _ hreached.here) none
        (Nat.zero_lt_of_lt hreached.awaited)
      have hleave : (onTeam team (Team.depart none)).run u =
          ⟨.ok (), u.withTeam team ((u.team team).departed none), ns⟩ := by
        rw [onTeam, Call.run_within, hdepart]
      refine ⟨ns, hreached, ?_⟩
      rw [Call.run_bind_ok hleave]
      simp

/-- **A stage that a worker builds**, on a feed. -/
structure Commission where
  worker : Nat
  config : Config
  feed : Feed

/-- **The site after some stages have been built**, one after the other, whatever has become of
them. -/
def built (s : Site) (stages : List Commission) : Site :=
  stages.foldl (fun s c => ((Replica.build c.worker c.config c.feed).run s).state) s

namespace Staffed

/-- **However building a stage ends, the teams stay staffed.** -/
theorem build (h : s.Staffed n) (hw : worker < n.workers) (g : Config) (feed : Feed) :
    ∃ m, m.workers = n.workers ∧ ((Replica.build worker g feed).run s).state.Staffed m := by
  obtain ⟨-, e, -, hrun⟩ | ⟨-, u, m, team, ns, hreached, hrun⟩ := h.run_build hw g feed
  · rw [hrun]
    exact ⟨n.drawn worker, rfl, h.drawn hw⟩
  · refine ⟨m, hreached.workers, ?_⟩
    rw [hrun]
    split
    · exact hreached.staffed.departed hreached.here hreached.awaited
    · exact hreached.staffed

theorem built {stages : List Commission} (h : s.Staffed n)
    (hw : ∀ c ∈ stages, c.worker < n.workers) :
    ∃ m, m.workers = n.workers ∧ (s.built stages).Staffed m := by
  induction stages generalizing s n with
  | nil => exact ⟨n, rfl, h⟩
  | cons c stages ih =>
    obtain ⟨m, hm, hbuilt⟩ := h.build (hw c List.mem_cons_self) c.config c.feed
    obtain ⟨k, hk, hrest⟩ := ih hbuilt fun d hd => hm.symm ▸ hw d (List.mem_cons_of_mem c hd)
    exact ⟨k, hk.trans hm, hrest⟩

end Staffed

end Site

end Muster
