import Muster.Proofs.Crew.Building

/-!
# Proofs/Crew/Refusal — a configuration that is refused

Outside a crew a configuration is checked before anything else happens. Inside a crew a worker first
comes to the team of its number, and founds it if nobody has; then its configuration is checked, and
a worker that is refused leaves the team again. So the same error is reported in both places, except
where there is no team and none can be founded with the configuration (`Config.Foundable`): there
the worker breaks off.

* `Site.refused_alike` — what becomes of a stage with a configuration that is not valid.
* `Site.broken_off` — a configuration that is refused outside and breaks a worker off inside.
-/

namespace Muster

/-! ## Founding a team -/

/-- **Can a team be founded with a configuration?** There must be a shard and room for all of them,
and an interval between checks. -/
def Config.Foundable (g : Config) : Prop :=
  0 < g.shards.toNat ∧ 0 < g.checkpointInterval.toNat ∧
    g.shards.toNat * Shard.width < Room.bound

/-- **A census can be made of a configuration exactly if a team can be founded with it.** -/
theorem Census.exists_ofConfig_iff_foundable {g : Config} :
    (∃ c, ofConfig g = .ok c) ↔ g.Foundable := by
  by_cases hs : 0 < g.shards.toNat
  · by_cases hi : 0 < g.checkpointInterval.toNat
    · rw [exists_ofConfig_iff hs hi]
      exact ⟨fun h => ⟨hs, hi, h⟩, fun h => h.2.2⟩
    · refine iff_of_false ?_ fun h => hi h.2.1
      rintro ⟨c, hc⟩
      rw [ofConfig] at hc
      cases hshards : ofShards g.shards.toNat with
      | error e =>
        rw [hshards] at hc
        cases hc
      | ok d =>
        rw [hshards] at hc
        change (d.withCap _ _).withInterval _ = _ at hc
        rw [withInterval, dif_neg hi] at hc
        cases hc
  · refine iff_of_false ?_ fun h => hs h.1
    rintro ⟨c, hc⟩
    rw [ofConfig, ofShards, dif_neg hs] at hc
    cases hc

namespace Site

variable {s u : Site} {n : Numbering} {worker number team : Nat}

/-! ## Refusal -/

/-- **A worker has been refused at a number, and nobody waits for it**: the team of the number has
one party fewer than awaited the worker; somebody else is still missing there, or the grouper is
sealed; and the other teams are as they were. -/
def Relieved (s : Site) (n : Numbering) (number : Nat) (u : Site) : Prop :=
  ∃ m team, u.crew = some m ∧ m.team? number = some team ∧
    (u.team team).barrier.parties + 1 = s.partiesAt n number ∧
    ((u.team team).barrier.arrived < (u.team team).barrier.parties ∨
      (u.team team).census.handOff.isSome = true) ∧
    ∀ i, i ≠ team → u.team i = s.team i

theorem Reached.relieved {m : Numbering} (h : s.Reached n number u m team) :
    s.Relieved n number (u.withTeam team ((u.team team).departed none)) := by
  have hself := team_withTeam_self u ((u.team team).departed none)
    (h.staffed.there number team h.here)
  refine ⟨m, team, h.staffed.crew, h.here, ?_, ?_, fun i hi => ?_⟩
  · rw [hself, Team.parties_departed, ← h.parties]
    exact Nat.succ_pred_eq_of_pos (Nat.zero_lt_of_lt h.awaited)
  · rw [hself]
    exact Team.departed_released _
  · rw [team_withTeam_of_ne u _ (Ne.symm hi)]
    exact h.others i hi

/-- **A refused configuration is reported alike inside and outside a crew.** Let a configuration not
be valid for a feed. Outside a crew a stage on it is refused for that reason, and nothing changes.
Inside a crew, whatever stages its workers have built before and however that ended, a worker that
builds it is refused for the same reason exactly if the team of its number is there or can be
founded; and then nobody waits for it. -/
theorem refused_alike {workers : Nat} {start : Numbering}
    (hstart : Numbering.ofWorkers workers = .ok start) (site : Site) (stages : List Commission)
    (hstages : ∀ c ∈ stages, c.worker < workers) (hw : worker < workers) {g : Config} {feed : Feed}
    {e : ConfigError} (he : g.validate (Supply.schema feed) = .error e) :
    (∀ s : Site, s.crew = none → (Replica.build worker g feed).run s = ⟨.ok (.error e), s, []⟩) ∧
    let s := (site.numbered start).built stages
    let o := (Replica.build worker g feed).run s
    ∃ n, s.crew = some n ∧ n.workers = workers ∧
      (o.result = .ok (.error e) ↔ (n.team? (n.upcoming worker)).isSome ∨ g.Foundable) ∧
      (o.result = .ok (.error e) → s.Relieved n (n.upcoming worker) o.state) := by
  have hadmission : ∀ t, Replica.admission g (Supply.schema feed) t = .error e := by
    intro t
    rw [Replica.admission, he]
    rfl
  refine ⟨fun s hs => ?_, ?_⟩
  · rw [Replica.build, consuming_feed, Call.run_bind_ok (Call.run_read s), hs]
    show (⟨_, _, [] ++ _⟩ : Outcome _ _) = _
    rw [Replica.buildAlone, he]
    rfl
  · intro s o
    have hworkers : start.workers = workers := by rw [Numbering.ofWorkers_eq hstart]
    obtain ⟨n, hn, hs⟩ := (Staffed.ofWorkers hstart site).built (hworkers.symm ▸ hstages)
    have hw' : worker < n.workers := by rwa [hn, hworkers]
    refine ⟨n, hs.crew, hn.trans hworkers, ?_⟩
    rw [← Census.exists_ofConfig_iff_foundable]
    obtain ⟨hnone, fault, hfault, hrun⟩ | ⟨hsome, u, m, team, ns, hreached, hrun⟩ :=
      hs.run_build hw' g feed
    · have hresult : o.result = .error fault := congrArg Outcome.result hrun
      rw [hresult, hnone, hfault]
      simp
    · rw [hadmission] at hrun
      have hresult : o.result = .ok (.error e) := congrArg Outcome.result hrun
      have hstate : o.state = u.withTeam team ((u.team team).departed none) :=
        congrArg Outcome.state hrun
      rw [hstate]
      exact ⟨iff_of_true hresult hsome, fun _ => hreached.relieved⟩

/-- Two workers; one has built its stage, and the feed of the other lacks the key field. -/
theorem refused_alike_unknown :
    let g : Config := { keyFields := ["k"], shards := 2 }
    let feed : Feed := .ofList [] (some ["x"])
    ∃ start, Numbering.ofWorkers 2 = .ok start ∧
      let s := (({} : Site).numbered start).built [⟨1, g, .ofList [] none⟩]
      let o := (Replica.build 0 g feed).run s
      o.result = .ok (.error (.unknownKeyField "k" ["x"])) ∧
        ∃ n, s.crew = some n ∧ s.Relieved n (n.upcoming 0) o.state := by
  intro g feed
  have he : g.validate (Supply.schema feed) = .error (.unknownKeyField "k" ["x"]) := by
    decide +kernel
  refine ⟨_, rfl, ?_⟩
  have hstart : Numbering.ofWorkers 2 = .ok _ := rfl
  obtain ⟨-, n, hn, -, hiff, hrelieved⟩ := refused_alike hstart {} [⟨1, g, .ofList [] none⟩]
    (by decide) (show 0 < 2 by decide) he
  have hresult := hiff.2 (Or.inr ⟨by decide, by decide, by decide⟩)
  exact ⟨hresult, n, hn, hrelieved hresult⟩

/-- **Where no team can be founded, a worker breaks off**: without shards a configuration is refused
outside a crew, but the first worker that builds a stage with it has no census to found a team
with. -/
theorem broken_off :
    let g : Config := { keyFields := ["k"], shards := 0 }
    let feed : Feed := .ofList [] none
    let e : ConfigError := .invalidParameter "shards" "must be greater than 0"
    g.validate (Supply.schema feed) = .error e ∧
      ((Replica.build 0 g feed).run {}).result = .ok (.error e) ∧
      ∃ start, Numbering.ofWorkers 1 = .ok start ∧
        ((Replica.build 0 g feed).run (({} : Site).numbered start)).result =
          .error (.zero (some "a grouping map needs at least one shard")) :=
  ⟨by decide +kernel, rfl, _, rfl, rfl⟩

end Site

end Muster
