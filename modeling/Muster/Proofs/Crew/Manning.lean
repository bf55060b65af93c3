import Muster.Proofs.Crew.Matching
import Muster.Proofs.Squad.Once

/-!
# Proofs/Crew/Manning — the posts that a team keeps for the workers

A team of a crew starts as a family does: with a post for each worker, at which a member stands that
has counted nothing. A worker that is admitted takes its post over; one that is refused gives it up,
as any member can be given up that has counted nothing. So whatever the workers and their replicas
do, each team is a squad in its first pass (`Squad.Running`), and where a worker is with its stage
can be read off its post (`Desk.Expects`).

* `Yard.Manned` — the invariant.
* `Yard.Manned.after` — it holds however the moves interleave.
-/

namespace Muster

/-! ## What is to be found at a post -/

/-- Has the worker left the barrier, without having sealed? -/
def Bench.isLeaving : Bench → Bool
  | leaving .. => true
  | _ => false

namespace Desk

variable {d : Desk} {i k : Nat} {post : Post}

/-- **Where the post of a worker stands** in the team of a number, given how far the worker is. -/
def Expects (d : Desk) (i : Nat) (post : Post) : Prop :=
  match d.built[i]? with
  | some (.ok _) => True
  | some (.error _) => post = .gone
  | none =>
    if i = d.built.length ∧ d.bench.isLeaving = true then ∃ completed, post = .leaving completed
    else post = .standing { scope := .outer }

theorem staffs_iff : d.staffs k = true ↔
    ∃ (i : Nat) (r : Replica Feed), d.built[i]? = some (.ok r) ∧ r.team = k := by
  rw [staffs, List.any_eq_true]
  constructor
  · rintro ⟨r, hr, hk⟩
    obtain ⟨i, hi⟩ := List.mem_iff_getElem?.1 hr
    cases r with
    | ok r => exact ⟨i, r, hi, of_decide_eq_true hk⟩
    | error e => cases hk
  · rintro ⟨i, r, hi, hk⟩
    exact ⟨.ok r, List.mem_of_getElem? hi, decide_eq_true hk⟩

theorem expects_of_awaited (hi : d.built.length ≤ i)
    (hl : i = d.built.length → d.bench.isLeaving = false) :
    d.Expects i post ↔ post = .standing { scope := .outer } := by
  have hnot : ¬(i = d.built.length ∧ d.bench.isLeaving = true) := fun h => by
    rw [hl h.1] at h
    cases h.2
  rw [Expects, List.getElem?_eq_none hi]
  dsimp only
  rw [if_neg hnot]

theorem expects_of_leaving (hl : d.bench.isLeaving = true) :
    d.Expects d.built.length post ↔ ∃ completed, post = .leaving completed := by
  rw [Expects, List.getElem?_eq_none (Nat.le_refl _)]
  dsimp only
  rw [if_pos ⟨rfl, hl⟩]

theorem expects_reseat {bench : Bench} (hl : d.bench.isLeaving = false)
    (hb : bench.isLeaving = false) :
    Expects { d with bench := bench } i post ↔ d.Expects i post := by
  rw [Expects, Expects, hl, hb]

/-- What is to be found at the posts of other numbers does not depend on the bench. -/
theorem expects_reseat_of_ne {bench : Bench} (hi : i ≠ d.built.length) :
    Expects { d with bench := bench } i post ↔ d.Expects i post := by
  simp only [Expects, hi, false_and, if_false]

theorem expects_finish_of_ne (hi : i ≠ d.built.length) (r : Except ConfigError (Replica Feed)) :
    (d.finish r).Expects i post ↔ d.Expects i post := by
  obtain hlt | hle := Nat.lt_or_ge i d.built.length
  · rw [Expects, Expects, finish, List.getElem?_append_left hlt]
    rw [List.getElem?_eq_getElem hlt]
    cases d.built[i] <;> exact Iff.rfl
  · have hge : (d.finish r).built.length ≤ i := by
      rw [finish, List.length_append]
      exact Nat.lt_of_le_of_ne hle (Ne.symm hi)
    rw [expects_of_awaited hge fun _ => rfl, expects_of_awaited hle fun h => absurd h hi]

theorem expects_finish_self (r : Except ConfigError (Replica Feed)) :
    (d.finish r).Expects d.built.length post ↔
      match r with
      | .ok _ => True
      | .error _ => post = .gone := by
  rw [Expects, finish, List.getElem?_append_right (Nat.le_refl _), Nat.sub_self]
  cases r <;> rfl

end Desk

/-! ## Giving up a member -/

namespace Squad

variable {s : Squad} {i phase seals late : Nat}

/-- **Whoever leaves the barrier in a pass** is then about to seal, if that is due. -/
theorem Running.posts_withdraw (h : s.Running phase seals late) {m : Member}
    (hm : s.posts[i]? = some (.standing m)) :
    ∃ completed, (s.act i .withdraw).posts[i]? = some (.leaving completed) := by
  obtain ⟨hi, -⟩ := List.getElem?_eq_some_iff.1 hm
  have hact : s.act i .withdraw = s.aside i (Team.withdraw m.arrival) .leaving := by
    unfold Squad.act
    rw [hm]
  have hsane := (h.act i .withdraw).sane i
  rw [hact] at hsane ⊢
  rcases hrun : (Team.withdraw m.arrival).run s.team with ⟨⟨f⟩ | ⟨completed⟩, t, ns⟩
  · have hbroken : (s.aside i (Team.withdraw m.arrival) .leaving).posts[i]? = some (.broken f) := by
      simp only [aside, hrun, Except.map]
      exact List.getElem?_set_self hi
    exact absurd (hsane _ hbroken) id
  · rw [aside_eq hrun]
    exact ⟨completed, List.getElem?_set_self hi⟩

/-- **And then it is gone.** -/
theorem Running.posts_conclude (h : s.Running phase seals late) {completed : Bool}
    (hx : s.posts[i]? = some (.leaving completed)) :
    (s.act i .conclude).posts[i]? = some .gone := by
  obtain ⟨hi, -⟩ := List.getElem?_eq_some_iff.1 hx
  have hact : s.act i .conclude = s.aside i (Team.conclude completed) fun _ => .gone := by
    unfold Squad.act
    rw [hx]
  rw [hact, h.aside_conclude hx]
  exact List.getElem?_set_self hi

end Squad

/-! ## Manning -/

namespace Yard

variable {y : Yard} {n : Numbering} {w i k number team : Nat} {d e : Desk} {g : Config} {o : Order}

/-- **The invariant of the posts**: the team of each number is in its first pass, the post of each
worker there is where it should be, and nobody breaks off but who can found no team. -/
structure Manned (y : Yard) : Prop where
  running (i : Nat) (c : Coming) : y.founder? i = some c → (y.camp.squad c.team).Running 0 0 0
  post (i w : Nat) (c : Coming) (d : Desk) : y.founder? i = some c → y.desks[w]? = some d →
    ∃ p, (y.camp.roll c.team).posts[w]? = some p ∧ d.Expects i p
  unbroken (w : Nat) (d : Desk) (f : Fault) : y.desks[w]? = some d → d.bench = .broken f →
    ∃ o, d.order? = some o ∧ Census.ofConfig o.config = .error f

namespace Manned

/-- **Whoever has broken off** can found no team. -/
theorem not_foundable (h : y.Manned) (hd : y.desks[w]? = some d) {f : Fault}
    (hb : d.bench = .broken f) : ∃ o, d.order? = some o ∧ ¬o.config.Foundable := by
  obtain ⟨o, ho, hc⟩ := h.unbroken w d f hd hb
  refine ⟨o, ho, fun hfoundable => ?_⟩
  obtain ⟨census, hok⟩ := Census.exists_ofConfig_iff_foundable.2 hfoundable
  rw [hok] at hc
  cases hc

/-- The worker gets on with its stage, and its posts are none the worse for it. -/
theorem seat (h : y.Manned) (hd : y.desks[w]? = some d)
    (he : ∀ i post, d.Expects i post → e.Expects i post)
    (hf : ∀ f, e.bench = .broken f → ∃ o, e.order? = some o ∧ Census.ofConfig o.config = .error f) :
    (y.seat w e).Manned where
  running := h.running
  post i v c d' hc hd' := by
    obtain ⟨rfl, rfl⟩ | ⟨-, hd'⟩ := getElem?_set_cases hd hd'
    · obtain ⟨p, hp, hexpects⟩ := h.post i v c d hc hd
      exact ⟨p, hp, he i p hexpects⟩
    · exact h.post i v c d' hc hd'
  unbroken v d' f hd' hb := by
    obtain ⟨rfl, rfl⟩ | ⟨-, hd'⟩ := getElem?_set_cases hd hd'
    · exact hf f hb
    · exact h.unbroken v d' f hd' hb

theorem draw (h : y.Manned) (hm : y.Matched n) (hd : y.desks[w]? = some d)
    (hb : d.bench = .free) : (y.draw w d n).Manned := by
  have hseat := h.seat (e := { d with bench := .drawn (n.upcoming w) }) hd
    (fun i post => (Desk.expects_reseat (by rw [hb]; rfl) rfl).2) (by simp)
  rw [draw_eq hm.crew]
  exact ⟨hseat.running, hseat.post, hseat.unbroken⟩

theorem joined (h : y.Manned) {c first : Coming} (hfirst : y.founder? c.number = some first) :
    Manned { y with comings := y.comings ++ [c] } := by
  have hsame := founder?_joined (z := { y with comings := y.comings ++ [c] }) rfl hfirst
  refine ⟨?_, ?_, h.unbroken⟩
  · rw [hsame]
    exact h.running
  · rw [hsame]
    exact h.post

/-- **A new team is a squad at the start of a pass**, if there is a worker at all. -/
theorem running_new {t : Team} {c : Census} (hc : Census.ofConfig g = .ok c) {workers : Nat}
    (hw : 0 < workers) (ht : t = ⟨⟨g, c⟩, .ofParties workers⟩) :
    Squad.Running 0 0 0
      { team := t, posts := List.replicate workers (.standing { scope := .outer }) } := by
  have hpresent : (List.replicate workers (Post.standing { scope := .outer })).countP
      Post.present = workers := by
    rw [List.countP_replicate]
    rfl
  have hfresh := Census.fresh_of_ofConfig hc
  have hopening : Squad.Opening
      { team := t, posts := List.replicate workers (.standing { scope := .outer }) } := by
    subst ht
    refine ⟨hfresh, fun post hpost => Or.inr ?_, ?_, ?_, rfl⟩
    · exact ⟨_, (List.mem_replicate.1 hpost).2, rfl, rfl⟩
    · rw [hpresent]
      exact hw
    · rw [hpresent]
      rfl
  have hrunning := hopening.running
  obtain ⟨hseals, hmeters⟩ := Census.unused_of_ofConfig hc
  subst ht
  have hcensus : Team.census ⟨⟨g, c⟩, .ofParties workers⟩ = c := rfl
  rw [hcensus, hseals, hmeters] at hrunning
  exact hrunning

/-- **At a number that nobody has come to**, all workers are awaited. -/
theorem awaited_of_none (hm : y.Matched n) (hnone : y.founder? i = none)
    (hd : y.desks[w]? = some d) : d.Expects i (.standing { scope := .outer }) := by
  obtain ⟨hs, -⟩ := hm.desk w d hd
  have hle : d.built.length ≤ i := by
    by_contra hlt
    have hlt : i < d.built.length := Nat.lt_of_not_le hlt
    obtain ⟨-, c, -, hc, -⟩ := hm.outcome hd (List.getElem?_eq_getElem hlt)
    rw [hnone] at hc
    cases hc
  refine (Desk.expects_of_awaited hle fun hi => ?_).2 rfl
  cases hb : d.bench with
  | leaving team e =>
    obtain ⟨c, -, hc, -⟩ := hs.of_refused (Or.inr hb)
    rw [← hi, hnone] at hc
    cases hc
  | free | drawn | come | refused | broken => rfl

theorem founded (h : y.Manned) (hm : y.Matched n) (hw : 0 < n.workers) {c : Coming}
    {census : Census} {u : Site} {t : Team} (hnone : y.founder? c.number = none)
    (hu : u.teams = y.camp.site.teams.push t) (hteam : c.team = y.camp.site.teams.size)
    (hc : Census.ofConfig g = .ok census) (ht : t = ⟨⟨g, census⟩, .ofParties n.workers⟩) :
    Manned { y with
      camp := y.camp.founded u (List.replicate n.workers (.standing { scope := .outer }))
      comings := y.comings ++ [c] } := by
  have hteam' : c.team = y.camp.rolls.length := hteam.trans (Eq.symm hm.listed)
  have hold : ∀ {i c'}, y.founder? i = some c' →
      (y.camp.founded u (List.replicate n.workers (.standing { scope := .outer }))).squad c'.team =
        y.camp.squad c'.team := fun hc' =>
    Camp.squad_founded hm.listed hu (hm.listed ▸ (hm.founds _ _ hc').there) _
  have hnew := Camp.squad_founded_new hm.listed hu
    (List.replicate n.workers (.standing { scope := .outer }))
  refine ⟨fun i c' hc' => ?_, fun i v c' d' hc' hd' => ?_, h.unbroken⟩
  · obtain hc' | ⟨rfl, rfl⟩ := founder?_cases rfl hc'
    · exact (hold hc').symm ▸ h.running i c' hc'
    · rw [hteam']
      exact hnew.symm ▸ running_new hc hw ht
  · obtain hc' | ⟨rfl, rfl⟩ := founder?_cases rfl hc'
    · obtain ⟨p, hp, hexpects⟩ := h.post i v c' d' hc' hd'
      exact ⟨p, (congrArg (·.posts[v]?) (hold hc')).trans hp, hexpects⟩
    · refine ⟨_, ?_, awaited_of_none hm hnone hd'⟩
      rw [hteam']
      refine (congrArg (·.posts[v]?) hnew).trans ?_
      exact List.getElem?_replicate_of_lt (hm.lt hd')

/-! A member of a team does something: one that has been built, or one that a worker gives up. -/

section Undergo

variable {c : Coming} {a : Deed}

theorem running_undergo (h : y.Manned) (hm : y.Matched n) (k i : Nat) (a : Deed)
    (hc : y.founder? number = some c) :
    ((y.camp.undergo k i (.deed a)).squad c.team).Running 0 0 0 := by
  by_cases hk : k = c.team
  · subst hk
    rw [Camp.squad_undergo_self hm.listed, Squad.undergo_deed]
    exact (h.running number c hc).act i a
  · rw [Camp.squad_undergo_of_ne hk]
    exact h.running number c hc

theorem undergo (h : y.Manned) (hm : y.Matched n) (hi : y.replicaAt k i = true) (a : Deed) :
    Manned { y with camp := y.camp.undergo k i (.deed a) } where
  running j c hc := h.running_undergo hm k i a hc
  post j v c d hc hd := by
    obtain ⟨p, hp, hexpects⟩ := h.post j v c d hc hd
    by_cases hk : k = c.team
    · subst hk
      by_cases hv : i = v
      · -- a worker's post that has been taken over may stand anywhere
        subst hv
        obtain ⟨q, hq⟩ := Camp.exists_posts_undergo hp i (.deed a)
        refine ⟨q, hq, ?_⟩
        obtain ⟨hlt, -⟩ := List.getElem?_eq_some_iff.1 hd
        rw [replicaAt, decide_eq_false (Nat.not_le_of_lt hlt), Bool.false_or, hd] at hi
        obtain ⟨j', r, hr, hteam⟩ := Desk.staffs_iff.1 hi
        obtain ⟨c', hc', hteam'⟩ := hm.team_of_built hd hr
        obtain rfl := hm.apart j' j c' c hc' hc (hteam'.symm.trans hteam)
        rw [Desk.Expects, hr]
        trivial
      · exact ⟨p, Camp.posts_undergo_of_ne hp hv _, hexpects⟩
    · exact ⟨p, by rw [Camp.roll_undergo_of_ne hk]; exact hp, hexpects⟩
  unbroken := h.unbroken

theorem abandon (h : y.Manned) (hm : y.Matched n) (hc : y.founder? d.built.length = some c)
    (hd : y.desks[w]? = some d) {p : Post}
    (hp : ((y.camp.undergo c.team w (.deed a)).roll c.team).posts[w]? = some p)
    (hself : e.Expects d.built.length p)
    (hne : ∀ i post, i ≠ d.built.length → d.Expects i post → e.Expects i post)
    (hf : ∀ f, e.bench ≠ .broken f) :
    Manned { y.seat w e with camp := y.camp.undergo c.team w (.deed a) } where
  running j c' hc' := h.running_undergo hm c.team w a hc'
  post j v c' d' hc' hd' := by
    by_cases hteam : c.team = c'.team
    · obtain rfl := hm.apart _ j c c' hc hc' hteam
      rw [← hteam]
      obtain ⟨rfl, rfl⟩ | ⟨hv, hd'⟩ := getElem?_set_cases hd hd'
      · exact ⟨p, hp, hself⟩
      · obtain ⟨q, hq, hexpects⟩ := h.post _ v c d' hc hd'
        exact ⟨q, Camp.posts_undergo_of_ne hq (Ne.symm hv) _, hexpects⟩
    · have hj : j ≠ d.built.length := by
        rintro rfl
        exact hteam (congrArg Coming.team (Option.some.inj (hc.symm.trans hc')))
      rw [Camp.roll_undergo_of_ne hteam]
      obtain ⟨rfl, rfl⟩ | ⟨hv, hd'⟩ := getElem?_set_cases hd hd'
      · obtain ⟨q, hq, hexpects⟩ := h.post j v c' d hc' hd
        exact ⟨q, hq, hne j q hj hexpects⟩
      · exact h.post j v c' d' hc' hd'
  unbroken v d' f hd' hb := by
    obtain ⟨rfl, rfl⟩ | ⟨-, hd'⟩ := getElem?_set_cases hd hd'
    · exact absurd hb (hf f)
    · exact h.unbroken v d' f hd' hb

end Undergo

/-! Now the moves of a worker. -/

theorem fault?_eq_none {c : Camp} {p : Post} (hp : (c.roll k).posts[i]? = some p)
    (hb : ∀ f, p ≠ .broken f) : c.fault? k i = none := by
  rw [Camp.fault?, hp]
  cases p with
  | broken f => exact absurd rfl (hb f)
  | standing | arrived | leaving | gone => rfl

/-- **A worker that is refused stands at its post**, and can leave the barrier. -/
theorem posts_refused (h : y.Manned) (hm : y.Matched n) (hd : y.desks[w]? = some d)
    {e : ConfigError} (hb : d.bench = .refused team e) :
    ∃ c, y.founder? d.built.length = some c ∧ c.team = team ∧
      (y.camp.roll team).posts[w]? = some (.standing { scope := .outer }) ∧
      ∃ completed, ((y.camp.undergo team w (.deed .withdraw)).roll team).posts[w]? =
        some (.leaving completed) := by
  obtain ⟨c, -, hc, rfl, -⟩ := (hm.desk w d hd).1.of_refused (Or.inl hb)
  obtain ⟨p, hp, hexpects⟩ := h.post _ w c d hc hd
  obtain rfl := (Desk.expects_of_awaited (Nat.le_refl _) fun _ => by rw [hb]; rfl).1 hexpects
  obtain ⟨completed, hleaving⟩ := (h.running _ c hc).posts_withdraw (i := w) hp
  rw [← Squad.undergo_deed, ← Camp.squad_undergo_self hm.listed] at hleaving
  exact ⟨c, hc, rfl, hp, completed, hleaving⟩

/-- **And a worker that has left it** can go. -/
theorem posts_leaving (h : y.Manned) (hm : y.Matched n) (hd : y.desks[w]? = some d)
    {e : ConfigError} (hb : d.bench = .leaving team e) :
    ∃ c completed, y.founder? d.built.length = some c ∧ c.team = team ∧
      (y.camp.roll team).posts[w]? = some (.leaving completed) ∧
      ((y.camp.undergo team w (.deed .conclude)).roll team).posts[w]? = some .gone := by
  obtain ⟨c, -, hc, rfl, -⟩ := (hm.desk w d hd).1.of_refused (Or.inr hb)
  obtain ⟨p, hp, hexpects⟩ := h.post _ w c d hc hd
  obtain ⟨completed, rfl⟩ := (Desk.expects_of_leaving (by rw [hb]; rfl)).1 hexpects
  have hgone := (h.running _ c hc).posts_conclude (i := w) hp
  rw [← Squad.undergo_deed, ← Camp.squad_undergo_self hm.listed] at hgone
  exact ⟨c, completed, hc, rfl, hp, hgone⟩

theorem withdraw (h : y.Manned) (hm : y.Matched n) (hd : y.desks[w]? = some d) {e : ConfigError}
    (hb : d.bench = .refused team e) : (y.withdraw w d team e).Manned := by
  obtain ⟨c, hc, rfl, -, completed, hleaving⟩ := h.posts_refused hm hd hb
  rw [Yard.withdraw, fault?_eq_none hleaving (by simp)]
  refine h.abandon hm hc hd hleaving ?_ ?_ (by simp)
  · exact (Desk.expects_of_leaving (d := { d with bench := .leaving c.team e }) rfl).2 ⟨_, rfl⟩
  · exact fun i post hi => (Desk.expects_reseat_of_ne hi).2

theorem conclude (h : y.Manned) (hm : y.Matched n) (hd : y.desks[w]? = some d) {e : ConfigError}
    (hb : d.bench = .leaving team e) : (y.conclude w d team e).Manned := by
  obtain ⟨c, completed, hc, rfl, -, hgone⟩ := h.posts_leaving hm hd hb
  rw [Yard.conclude, fault?_eq_none hgone (by simp)]
  refine h.abandon hm hc hd hgone ((Desk.expects_finish_self _).2 rfl) ?_ (by simp [Desk.finish])
  exact fun i post hi => (Desk.expects_finish_of_ne hi _).2

theorem vet (h : y.Manned) (hd : y.desks[w]? = some d) (hb : d.bench = .come team) :
    (y.vet w d o team).Manned := by
  have hcalm : d.bench.isLeaving = false := by rw [hb]; rfl
  rw [Yard.vet]
  split
  · refine h.seat hd (fun i post hexpects => ?_) (by simp [Desk.finish])
    by_cases hi : i = d.built.length
    · subst hi
      exact (Desk.expects_finish_self _).2 trivial
    · exact (Desk.expects_finish_of_ne hi _).2 hexpects
  · exact h.seat hd (fun i post => (Desk.expects_reseat hcalm rfl).2) (by simp)

theorem come (h : y.Manned) (hm : y.Matched n) (hd : y.desks[w]? = some d) (ho : d.order? = some o)
    (hb : d.bench = .drawn number) : (y.come w d n o.config number).Manned := by
  have hcalm : d.bench.isLeaving = false := by rw [hb]; rfl
  cases hfounder : y.founder? number with
  | some c =>
    have ht : n.team? number = some c.team := by rw [hm.team?_eq, hfounder]; rfl
    rw [come_join ht]
    have hjoined := h.joined (c := ⟨w, number, o.config, c.team, none⟩) hfounder
    exact hjoined.seat hd (fun i post => (Desk.expects_reseat hcalm rfl).2) (by simp)
  | none =>
    have ht : n.team? number = none := by rw [hm.team?_eq, hfounder]; rfl
    cases hc : Census.ofConfig o.config with
    | error f =>
      rw [come_broken ht hc]
      refine h.seat hd (fun i post => (Desk.expects_reseat hcalm rfl).2) fun f' hf' => ?_
      exact ⟨o, ho, Bench.broken.inj hf' ▸ hc⟩
    | ok census =>
      rw [come_found ht hm.crew hc]
      let t : Team := ⟨⟨o.config, census⟩, .ofParties n.workers⟩
      let size := y.camp.site.teams.size
      let u : Site := { y.camp.site with
        teams := y.camp.site.teams.push t, crew := some (n.withTeam number size) }
      have hfounded := h.founded hm (Nat.zero_lt_of_lt (hm.lt hd)) (u := u)
        (c := ⟨w, number, o.config, size, some t⟩) hfounder rfl rfl hc rfl
      exact hfounded.seat hd (fun i post => (Desk.expects_reseat hcalm rfl).2) (by simp)

/-- **Whatever move a worker makes, the teams stay manned.** -/
theorem build (h : y.Manned) (hm : y.Matched n) (w : Nat) : (y.build w).Manned := by
  unfold Yard.build
  split
  · rename_i d m hd hcrew
    obtain rfl : n = m := Option.some.inj (hm.crew.symm.trans hcrew)
    split
    · exact h.draw hm hd ‹_›
    · exact h.come hm hd ‹_› ‹_›
    · exact h.vet hd ‹_›
    · exact h.withdraw hm hd ‹_›
    · exact h.conclude hm hd ‹_›
    · exact h
  · exact h

theorem act (h : y.Manned) (hm : y.Matched n) (k i : Nat) (a : Deed) : (y.act k i a).Manned := by
  unfold Yard.act
  split
  · exact h.undergo hm ‹_› a
  · exact h

theorem after (h : y.Manned) (hm : y.Matched n) (moves : List Move) : (y.after moves).Manned := by
  induction moves generalizing y n with
  | nil => exact h
  | cons move moves ih =>
    cases move with
    | build w =>
      obtain ⟨m, -, hbuilt⟩ := hm.build w
      exact ih (h.build hm w) hbuilt
    | act k i a => exact ih (h.act hm k i a) (hm.act k i a)

theorem opening (site : Site) (n : Numbering) (orders : List (List Order)) :
    (Yard.opening site n orders).Manned := by
  refine ⟨?_, ?_, fun w d f hd hb => ?_⟩
  · intro i c hc
    cases hc
  · intro i w c d hc
    cases hc
  · rw [Yard.opening, List.getElem?_map, Option.map_eq_some_iff] at hd
    obtain ⟨os, -, rfl⟩ := hd
    cases hb

end Manned

end Yard

end Muster
