import Muster.Proofs.Crew.Stages
import Muster.Proofs.Validation

/-!
# Proofs/Crew/Stranding — a worker that is refused strands nobody

All workers of a crew build a stage with the same configuration, each on a feed of its own. A feed
may lack a key field; then its worker is refused, and gives up the post that the team has kept for
it, perhaps when the others have arrived already. That may be the last they have waited for; then it
is the refused worker that seals the grouper.

* `Yard.replicas` — the posts of the replicas that have been built.
* `Yard.strands_nobody` — the barrier counts them alone, and once all of them have arrived or been
  given up, the grouper has been sealed.
-/

namespace Muster

/-- **A stage is judged by its own configuration alone** if that is the configuration of whoever
came first. -/
theorem Order.verdict_self (o : Order) :
    o.verdict o.config = o.config.validate (Supply.schema o.feed) := by
  rw [verdict, if_pos rfl]
  cases o.config.validate (Supply.schema o.feed) <;> rfl

namespace Yard

variable {y : Yard} {n : Numbering} {w i k : Nat} {d : Desk} {c : Coming} {g : Config}

/-- **Where all agree on the configuration**, a stage is refused if it is not valid for its feed. -/
theorem Matched.refused_iff (h : y.Matched n) (hd : y.desks[w]? = some d)
    {out : Except ConfigError (Replica Feed)} (hout : d.built[i]? = some out)
    (hsame : ∀ o c, d.orders[i]? = some o → y.founder? i = some c → c.config = o.config)
    {e : ConfigError} : ∃ o, d.orders[i]? = some o ∧
      (out = .error e ↔ o.config.validate (Supply.schema o.feed) = .error e) := by
  obtain ⟨o, c, ho, hc, rfl⟩ := h.outcome hd hout
  refine ⟨o, ho, ?_⟩
  rw [hsame o c ho hc, o.verdict_self]
  cases o.config.validate (Supply.schema o.feed) <;> simp [Except.map]

/-! ## Replicas -/

/-- **The posts of the replicas of a team** that have been built. -/
def replicas (y : Yard) (team : Nat) : List Post :=
  ((y.camp.roll team).posts.zipIdx.filter fun p => y.replicaAt team p.2).map Prod.fst

theorem mem_replicas {post : Post} : post ∈ y.replicas k ↔
    ∃ i, (y.camp.roll k).posts[i]? = some post ∧ y.replicaAt k i = true := by
  rw [replicas, List.mem_map]
  constructor
  · rintro ⟨⟨p, i⟩, hp, rfl⟩
    obtain ⟨hp, hi⟩ := List.mem_filter.1 hp
    exact ⟨i, List.mk_mem_zipIdx_iff_getElem?.1 hp, hi⟩
  · rintro ⟨i, hp, hi⟩
    exact ⟨(post, i), List.mem_filter.2 ⟨List.mk_mem_zipIdx_iff_getElem?.2 hp, hi⟩, rfl⟩

/-- **What only replicas are, is counted among the replicas.** -/
theorem countP_replicas {p : Post → Bool}
    (h : ∀ (i : Nat) (post : Post), (y.camp.roll k).posts[i]? = some post → p post = true →
      y.replicaAt k i = true) :
    (y.replicas k).countP p = (y.camp.roll k).posts.countP p := by
  have hfilter : ∀ x ∈ (y.camp.roll k).posts.zipIdx,
      (p x.1 && y.replicaAt k x.2) = true ↔ p x.1 = true := by
    rintro ⟨post, i⟩ hx
    rw [Bool.and_eq_true, and_iff_left_iff_imp]
    exact h i post (List.mk_mem_zipIdx_iff_getElem?.1 hx)
  calc (y.replicas k).countP p
      = (y.camp.roll k).posts.zipIdx.countP fun x => p x.1 && y.replicaAt k x.2 := by
        rw [replicas, List.countP_map, List.countP_filter]
        rfl
    _ = (y.camp.roll k).posts.zipIdx.countP (p ∘ Prod.fst) := List.countP_congr hfilter
    _ = (y.camp.roll k).posts.countP p := by
        rw [← List.countP_map, List.zipIdx_map_fst]

/-- **Where all workers are done, whoever is no replica is gone.** -/
theorem Manned.gone_of_done (h : y.Manned) (hm : y.Matched n) (hc : y.founder? i = some c)
    (hdone : ∀ d ∈ y.desks, i < d.built.length) {post : Post}
    (hpost : (y.camp.roll c.team).posts[w]? = some post) :
    y.replicaAt c.team w = true ∨ post = .gone := by
  cases hd : y.desks[w]? with
  | none =>
    have hle := List.getElem?_eq_none_iff.1 hd
    exact Or.inl (by simp [replicaAt, hle])
  | some d =>
    obtain ⟨p, hp, hexpects⟩ := h.post i w c d hc hd
    obtain rfl := Option.some.inj (hp.symm.trans hpost)
    obtain ⟨out, hout⟩ : ∃ out, d.built[i]? = some out :=
      ⟨_, List.getElem?_eq_getElem (hdone d (List.mem_of_getElem? hd))⟩
    rw [Desk.Expects, hout] at hexpects
    cases out with
    | error e => exact Or.inr hexpects
    | ok r =>
      obtain ⟨c', hc', hteam⟩ := hm.team_of_built hd hout
      obtain rfl := Option.some.inj (hc.symm.trans hc')
      have hstaffs : d.staffs c.team = true := Desk.staffs_iff.2 ⟨i, r, hout, hteam⟩
      refine Or.inl ?_
      rw [replicaAt, hd, Option.any_some, hstaffs, Bool.or_true]

/-- **Where all workers are done, the barrier counts the replicas** that are still there. -/
theorem Manned.parties_eq (h : y.Manned) (hm : y.Matched n) (hc : y.founder? i = some c)
    (hdone : ∀ d ∈ y.desks, i < d.built.length) :
    (y.camp.site.team c.team).barrier.parties = (y.replicas c.team).countP Post.present := by
  obtain ⟨hparties, -⟩ := (h.running i c hc).stage
  rw [countP_replicas fun w post hpost hp => ?_]
  · exact hparties
  · refine (h.gone_of_done hm hc hdone hpost).resolve_right ?_
    rintro rfl
    cases hp

/-- **Once they all have arrived or been given up**, and none of them has the seal still to do, the
grouper has been sealed, and only once. -/
theorem Manned.released (h : y.Manned) (hm : y.Matched n) (hc : y.founder? i = some c)
    (hdone : ∀ d ∈ y.desks, i < d.built.length)
    (hall : ∀ post ∈ y.replicas c.team,
      (post.present = true → post.hasArrived = true) ∧ post.due = false) :
    (y.camp.site.team c.team).census.sealed = true ∧
      (y.camp.site.team c.team).census.seals = 1 := by
  have hposts : ∀ post ∈ (y.camp.squad c.team).posts,
      (post.present = true → post.hasArrived = true) ∧ post.due = false := by
    intro post hpost
    obtain ⟨w, hw⟩ := List.mem_iff_getElem?.1 hpost
    obtain hreplica | rfl := h.gone_of_done hm hc hdone hw
    · exact hall post (mem_replicas.2 ⟨w, hw, hreplica⟩)
    · exact ⟨fun hp => (by cases hp), rfl⟩
  have hrunning := h.running i c hc
  have hs := hrunning.sealed_of_arrived (fun post hpost => (hposts post hpost).1)
    fun post hpost => (hposts post hpost).2
  refine ⟨hs, hrunning.census.seals_eq.trans ?_⟩
  rw [hs]
  rfl

/-! ## One stage on many feeds -/

/-- **What the workers are to build**: each of them one stage, with the same configuration, on a
feed of its own. -/
def shared (g : Config) (feeds : List Feed) : List (List Order) := feeds.map fun feed => [⟨g, feed⟩]

section Shared

variable {workers : Nat} {start : Numbering} {feeds : List Feed}

/-- Whoever has come anywhere has come with that configuration. -/
theorem config_of_shared (hstart : Numbering.ofWorkers workers = .ok start) (site : Site)
    (hfeeds : feeds.length = workers) {moves : List Move}
    (hc : c ∈ ((Yard.opening site start (shared g feeds)).after moves).comings) :
    c.config = g := by
  have horders : (shared g feeds).length = workers := List.length_map _ |>.trans hfeeds
  have hopening := Matched.opening hstart site horders
  obtain ⟨d, o, hd, ho, hconfig⟩ :=
    (Honest.opening site start (shared g feeds)).after hopening moves c hc
  have hos := orders_of_desk hstart site horders hd
  rw [shared, List.getElem?_map, Option.map_eq_some_iff] at hos
  obtain ⟨feed, -, hfeed⟩ := hos
  have hmem := List.mem_of_getElem? ho
  rw [← hfeed, List.mem_singleton] at hmem
  rw [← hconfig, hmem]

/-- **Once a worker is done, somebody has come to its number.** -/
theorem exists_founder (hstart : Numbering.ofWorkers workers = .ok start) (site : Site)
    {orders : List (List Order)} (horders : orders.length = workers) (moves : List Move)
    (hdone : ∀ d ∈ ((Yard.opening site start orders).after moves).desks, i < d.built.length) :
    ∃ c, ((Yard.opening site start orders).after moves).founder? i = some c := by
  obtain ⟨m, hworkers, hm⟩ := (Matched.opening hstart site horders).after moves
  have hstaff : 0 < ((Yard.opening site start orders).after moves).desks.length := by
    rw [hm.staff, hworkers, Numbering.ofWorkers_eq hstart]
    exact Numbering.pos_of_ofWorkers hstart
  obtain ⟨-, c, -, hc, -⟩ := hm.outcome (List.getElem?_eq_getElem hstaff)
    (List.getElem?_eq_getElem (hdone _ (List.getElem_mem hstaff)))
  exact ⟨c, hc⟩

/-- **A worker that is refused strands nobody.** Let each worker of a crew build one stage, all with
the same configuration, which is accepted where no schema is known; and let them come between each
other as they may, and the replicas that have been built do what they may. A stage is refused
exactly if its feed lacks a key field, and the first one that it lacks is reported; and a worker
that gets on is done in the end, unless there is no room for a team. No record is late. Once all
workers are done, the barrier of their team counts the replicas that are still there; and once these
have all arrived, and none has the seal still to do, the grouper has been sealed exactly once. -/
theorem strands_nobody (hstart : Numbering.ofWorkers workers = .ok start) (site : Site)
    (hg : g.validate none = .ok ()) (hfeeds : feeds.length = workers) (moves : List Move) :
    let y := (Yard.opening site start (shared g feeds)).after moves
    (∀ w feed, feeds[w]? = some feed → ∃ d : Desk, y.desks[w]? = some d ∧
      (∀ out, d.built[0]? = some out → ∀ e, out = .error e ↔
        ∃ names field, Supply.schema feed = some names ∧
          g.keyFields.find? (· ∉ names) = some field ∧ e = .unknownKeyField field names) ∧
      (5 ≤ moves.countP (Move.isBuild w) → d.built.length = 1 ∨ ∃ f, d.bench = .broken f) ∧
      ∀ f, d.bench = .broken f → ¬g.Foundable) ∧
    (∀ c, y.founder? 0 = some c → (y.camp.site.team c.team).census.meters.lateRecords = 0) ∧
    ((∀ d ∈ y.desks, d.built.length = 1) → ∃ c, y.founder? 0 = some c ∧
      (∀ d ∈ y.desks, ∀ r : Replica Feed, d.built[0]? = some (.ok r) → r.team = c.team) ∧
      (y.camp.site.team c.team).barrier.parties = (y.replicas c.team).countP Post.present ∧
      ((∀ post ∈ y.replicas c.team,
          (post.present = true → post.hasArrived = true) ∧ post.due = false) →
        (y.camp.site.team c.team).census.sealed = true ∧
          (y.camp.site.team c.team).census.seals = 1)) := by
  intro y
  have horders : (shared g feeds).length = workers := List.length_map _ |>.trans hfeeds
  have hopening := Matched.opening hstart site horders
  obtain ⟨m, hworkers, hm⟩ := hopening.after moves
  have hmanned := (Manned.opening site start (shared g feeds)).after hopening moves
  refine ⟨fun w feed hfeed => ?_, fun c hc => (hmanned.running 0 c hc).census.punctual,
    fun hdone => ?_⟩
  · have hos : (shared g feeds)[w]? = some [⟨g, feed⟩] := by
      rw [shared, List.getElem?_map, hfeed]
      rfl
    obtain ⟨d, hd, horder, hleft⟩ := exists_desk_opened hstart site horders hos moves
    have hone : d.orders.length = 1 := congrArg List.length horder
    refine ⟨d, hd, fun out hout e => ?_, fun hcount => ?_, fun f hf => ?_⟩
    · obtain ⟨o, ho, hiff⟩ := hm.refused_iff hd hout fun o c ho hc => by
        rw [horder] at ho
        obtain rfl := Option.some.inj ho
        exact config_of_shared hstart site hfeeds (List.mem_of_find?_eq_some hc)
      rw [horder] at ho
      obtain rfl := Option.some.inj ho
      rw [hiff, Config.validate_eq_error_iff hg]
    · rw [← horder] at hleft
      exact hone ▸ (hm.desk w d hd).1.done_of_left (by omega)
    · obtain ⟨o, ho, hnot⟩ := hmanned.not_foundable hd hf
      have hmem := List.mem_of_getElem? ho
      rw [horder, List.mem_singleton] at hmem
      rwa [hmem] at hnot
  · have hlt : ∀ d ∈ y.desks, 0 < d.built.length := fun d hd => by
      rw [hdone d hd]
      exact Nat.zero_lt_one
    obtain ⟨c, hc⟩ := exists_founder hstart site horders moves hlt
    refine ⟨c, hc, fun d hd r hr => ?_, hmanned.parties_eq hm hc hlt, hmanned.released hm hc hlt⟩
    obtain ⟨w, hw⟩ := List.mem_iff_getElem?.1 hd
    obtain ⟨c', hc', hteam⟩ := hm.team_of_built hw hr
    rw [hteam, Option.some.inj (hc'.symm.trans hc)]

/-- Two workers, the feed of one of which lacks the key field. It is refused when the other has
counted a record and waits for it; so the refused one seals the grouper. -/
theorem strands_nobody_waiting :
    let g : Config := { keyFields := ["k"], shards := 2 }
    let feeds : List Feed := [.ofList [] (some ["x"]), .ofList [] none]
    let start : Numbering := { workers := 2, next := #[0, 0] }
    let moves : List Move := [.build 1, .build 0, .build 1, .build 1, .build 0,
      .act 0 1 (.count (.field "k" (.int 1) .empty)), .build 0, .act 0 1 (.enter 1),
      .act 0 1 .exhaust, .act 0 1 .arrive, .act 0 1 .finish, .build 0, .build 0]
    let y := (Yard.opening {} start (shared g feeds)).after moves
    Numbering.ofWorkers 2 = .ok start ∧ g.validate none = .ok () ∧
      (∃ d, y.desks[0]? = some d ∧ d.built[0]? = some (.error (.unknownKeyField "k" ["x"]))) ∧
      ∃ c, y.founder? 0 = some c ∧ (y.camp.site.team c.team).barrier.parties = 1 ∧
        (y.camp.site.team c.team).census.sealed = true ∧
        (y.camp.site.team c.team).census.seals = 1 ∧
        (y.camp.site.team c.team).census.meters.lateRecords = 0 := by
  intro g feeds start moves y
  have hg : g.validate none = .ok () := by decide +kernel
  have hstart : Numbering.ofWorkers 2 = .ok start := rfl
  have hfeeds : feeds.length = 2 := rfl
  obtain ⟨hdesks, hlate, hdone⟩ := strands_nobody hstart {} hg hfeeds moves
  have hlengths : ∀ d ∈ y.desks, d.built.length = 1 := by decide +kernel
  refine ⟨hstart, hg, ?_, ?_⟩
  · obtain ⟨d, hd, hout, -⟩ := hdesks 0 _ rfl
    have hlength := hlengths d (List.mem_of_getElem? hd)
    have hlast := List.getElem?_eq_getElem (Nat.lt_of_lt_of_eq Nat.zero_lt_one hlength.symm)
    have hrefused := (hout _ hlast (.unknownKeyField "k" ["x"])).2
      ⟨["x"], "k", rfl, by decide +kernel, rfl⟩
    exact ⟨d, hd, hlast.trans (congrArg some hrefused)⟩
  · obtain ⟨c, hc, -, hparties, hreleased⟩ := hdone hlengths
    have hteam : (y.founder? 0).map Coming.team = some 0 := by decide +kernel
    have hzero : c.team = 0 :=
      Option.some.inj ((congrArg (Option.map Coming.team) hc).symm.trans hteam)
    have hone : (y.replicas 0).countP Post.present = 1 := by decide +kernel
    have harrived : ∀ post ∈ y.replicas 0,
        (post.present = true → post.hasArrived = true) ∧ post.due = false := by decide +kernel
    rw [hzero] at hparties hreleased
    obtain ⟨hsealed, hseals⟩ := hreleased harrived
    have hpunctual := hlate c hc
    refine ⟨c, hc, ?_⟩
    unfold y at hone ⊢
    rw [hzero] at hpunctual ⊢
    exact ⟨hparties.trans hone, hsealed, hseals, hpunctual⟩

/-- **Where there is no room for the shards, no schema is looked at**: the feed lacks the key field,
but the worker breaks off before it is refused. -/
theorem unrefused_without_room :
    let g : Config := { keyFields := ["k"], shards := 1152921504606846976 }
    let feed : Feed := .ofList [] (some ["x"])
    let start : Numbering := { workers := 1, next := #[0] }
    let y := (Yard.opening {} start (shared g [feed])).after (List.replicate 5 (.build 0))
    Numbering.ofWorkers 1 = .ok start ∧ g.validate none = .ok () ∧
      g.keyFields.find? (· ∉ ["x"]) = some "k" ∧
      y.desks[0]? = some { orders := [⟨g, feed⟩], bench := .broken .noRoom } :=
  ⟨rfl, by decide +kernel, by decide +kernel, rfl⟩

end Shared

end Yard

end Muster
