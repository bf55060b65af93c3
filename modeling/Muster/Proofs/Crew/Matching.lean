import Muster.Proofs.Crew.Refusal
import Muster.Proofs.Crew.Yard
import Muster.Roster

/-!
# Proofs/Crew/Matching — stages with the same number share a team

Whatever the other workers do meanwhile, the stages that a worker builds are numbered in order, also
those that are refused. So whoever comes first to a number founds its team, and all the others find
it; teams of different numbers are different. And whether a stage is admitted depends on the stage
and on the configuration of whoever came first (`Order.verdict`).

* `Yard.Matched` — the invariant, one lemma for each kind of change.
* `Yard.Matched.after` — it holds however the moves of the workers and their replicas interleave.
-/

namespace Muster

/-! ## Verdicts -/

/-- **What becomes of a stage** at a number that was founded with a configuration. -/
def Order.verdict (o : Order) (g : Config) : Except ConfigError Unit := do
  o.config.validate (Supply.schema o.feed)
  if g = o.config then return () else throw .mismatchedReplica

theorem Order.admission_eq (o : Order) (t : Team) :
    Replica.admission o.config (Supply.schema o.feed) t = o.verdict t.config := rfl

theorem Order.verdict_eq_ok_iff {o : Order} {g : Config} : o.verdict g = .ok () ↔
    o.config.validate (Supply.schema o.feed) = .ok () ∧ o.config = g := by
  rw [verdict]
  cases o.config.validate (Supply.schema o.feed) with
  | error e => simp [bind, Except.bind]
  | ok u =>
    by_cases h : g = o.config
    · simp [h, bind, Except.bind, pure, Except.pure]
    · have h' : ¬o.config = g := fun heq => h heq.symm
      simp [h, h', bind, Except.bind, throw, throwThe, MonadExceptOf.throw]

/-! ## Sound desks -/

namespace Desk

/-- What the bench of a worker says, given who has come first to which number. -/
def Bears (f : Nat → Option Coming) (d : Desk) : Prop :=
  match d.bench with
  | .drawn number => number = d.built.length
  | .come team => ∃ c, f d.built.length = some c ∧ c.team = team
  | .refused team e | .leaving team e => ∃ c o, f d.built.length = some c ∧ c.team = team ∧
      d.order? = some o ∧ o.verdict c.config = .error e
  | .free | .broken _ => True

/-- **A desk is in order**: the stages that are done have become what the first comers to their
numbers make of them. -/
structure Sound (f : Nat → Option Coming) (d : Desk) : Prop where
  le : d.numbers ≤ d.orders.length
  bears : d.Bears f
  built (i : Nat) (o : Order) (r : Except ConfigError (Replica Feed)) :
    d.orders[i]? = some o → d.built[i]? = some r → ∃ c, f i = some c ∧
      r = (o.verdict c.config).map fun _ => Replica.fresh c.team .outer o.feed

section Sound

variable {f f' : Nat → Option Coming} {d : Desk} {bench : Bench} {o : Order}

theorem built_le_numbers (d : Desk) : d.built.length ≤ d.numbers := by
  unfold numbers
  split
  · exact Nat.le_refl _
  · exact Nat.le_succ _

/-- A stage that has been begun has its number. -/
theorem numbers_of_busy (h : d.bench ≠ .free) : d.numbers = d.built.length + 1 := by
  unfold numbers
  split
  · exact absurd ‹_› h
  · rfl

theorem numbers_finish (d : Desk) (r : Except ConfigError (Replica Feed)) :
    (d.finish r).numbers = d.built.length + 1 := List.length_append

theorem Bears.mono (h : d.Bears f) (hf : ∀ i c, f i = some c → f' i = some c) : d.Bears f' := by
  obtain ⟨orders, built, bench⟩ := d
  cases bench with
  | drawn number => exact h
  | come team =>
    obtain ⟨c, hc, ht⟩ := h
    exact ⟨c, hf _ c hc, ht⟩
  | refused team e | leaving team e =>
    obtain ⟨c, o, hc, hrest⟩ := h
    exact ⟨c, o, hf _ c hc, hrest⟩
  | free | broken => trivial

namespace Sound

/-- First comers remain first comers. -/
theorem mono (h : d.Sound f) (hf : ∀ i c, f i = some c → f' i = some c) : d.Sound f' where
  le := h.le
  bears := h.bears.mono hf
  built i o r ho hr := by
    obtain ⟨c, hc, heq⟩ := h.built i o r ho hr
    exact ⟨c, hf i c hc, heq⟩

theorem built_le (h : d.Sound f) : d.built.length ≤ d.orders.length :=
  Nat.le_trans d.built_le_numbers h.le

/-! What the bench says, in each case. -/

theorem number_eq (h : d.Sound f) {number : Nat} (hb : d.bench = .drawn number) :
    number = d.built.length := by
  have hbears := h.bears
  simpa only [Bears, hb] using hbears

theorem of_come (h : d.Sound f) {team : Nat} (hb : d.bench = .come team) :
    ∃ c, f d.built.length = some c ∧ c.team = team := by
  have hbears := h.bears
  simpa only [Bears, hb] using hbears

theorem of_refused (h : d.Sound f) {team : Nat} {e : ConfigError}
    (hb : d.bench = .refused team e ∨ d.bench = .leaving team e) :
    ∃ c o, f d.built.length = some c ∧ c.team = team ∧ d.order? = some o ∧
      o.verdict c.config = .error e := by
  have hbears := h.bears
  obtain hb | hb := hb <;> simpa only [Bears, hb] using hbears

/-- A worker is done with a stage. -/
theorem finish (h : d.Sound f) (ho : d.order? = some o) {c : Coming}
    (hc : f d.built.length = some c) :
    (d.finish ((o.verdict c.config).map fun _ => .fresh c.team .outer o.feed)).Sound f where
  le := by
    obtain ⟨hlt, -⟩ := List.getElem?_eq_some_iff.1 ho
    rw [numbers_finish]
    exact hlt
  bears := trivial
  built i o' r ho' hr := by
    rw [Desk.finish, List.getElem?_append] at hr
    split at hr
    · exact h.built i o' r ho' hr
    · obtain ⟨hi, rfl⟩ := List.getElem?_eq_some_iff.1 hr
      rw [List.length_singleton] at hi
      obtain rfl : i = d.built.length := by omega
      obtain rfl : o = o' := Option.some.inj (ho.symm.trans ho')
      exact ⟨c, hc, by simp⟩

end Sound

end Sound

end Desk

/-! ## Matching -/

/-- **A first comer has founded the team** of its number, for all workers, and the team has kept its
configuration. -/
structure Coming.Founds (workers : Nat) (s : Site) (c : Coming) : Prop where
  there : c.team < s.teams.size
  config : (s.team c.team).config = c.config
  founded : ∃ census, Census.ofConfig c.config = .ok census ∧
    c.founded = some ⟨⟨c.config, census⟩, .ofParties workers⟩

theorem Numbering.upcoming_drawn {n : Numbering} {w : Nat} (hw : w < n.next.size) (v : Nat) :
    (n.drawn w).upcoming v = if v = w then n.upcoming w + 1 else n.upcoming v := by
  by_cases h : v = w
  · subst h
    simp [upcoming, drawn, hw]
  · simp [upcoming, drawn, Array.getElem?_setIfInBounds_ne (Ne.symm h), h]

namespace Yard

variable {y : Yard} {n : Numbering} {w i k number team : Nat} {d e : Desk} {g : Config} {o : Order}

section Comings

variable {z : Yard} {c c' first : Coming} (hz : z.comings = y.comings ++ [c])
include hz

theorem founder?_append (i : Nat) :
    z.founder? i = (y.founder? i).or (if c.number = i then some c else none) := by
  rw [founder?, founder?, hz, List.find?_append, List.find?_singleton]
  simp

/-- Whoever comes later is not the first one. -/
theorem founder?_joined (hfirst : y.founder? c.number = some first) :
    z.founder? = y.founder? := by
  funext i
  rw [founder?_append hz]
  by_cases hi : c.number = i
  · rw [← hi, hfirst]
    rfl
  · rw [if_neg hi, Option.or_none]

/-- Whoever is the first one somewhere was so before, or is the newcomer. -/
theorem founder?_cases (hc' : z.founder? i = some c') :
    y.founder? i = some c' ∨ (i = c.number ∧ c' = c) := by
  rw [founder?_append hz] at hc'
  cases hi : y.founder? i with
  | some b =>
    rw [hi] at hc'
    exact Or.inl hc'
  | none =>
    rw [hi, Option.none_or] at hc'
    split at hc'
    · rename_i heq
      exact Or.inr ⟨heq.symm, (Option.some.inj hc').symm⟩
    · cases hc'

/-- Whoever has come first to a number remains the first one there. -/
theorem founder?_mono (i : Nat) (c' : Coming) (hc' : y.founder? i = some c') :
    z.founder? i = some c' := by
  rw [founder?_append hz, hc']
  rfl

end Comings

/-- **The invariant of a yard**: the numbering goes with the desks and with the comings; each number
that somebody has come to has been founded once, by whoever came first, and has a team of its
own. -/
structure Matched (n : Numbering) (y : Yard) : Prop where
  listed : y.camp.Listed
  crew : y.camp.site.crew = some n
  size : n.next.size = n.workers
  staff : y.desks.length = n.workers
  desk (w : Nat) (d : Desk) : y.desks[w]? = some d → d.Sound y.founder? ∧ n.upcoming w = d.numbers
  team?_eq (i : Nat) : n.team? i = (y.founder? i).map Coming.team
  founds (i : Nat) (c : Coming) : y.founder? i = some c → c.Founds n.workers y.camp.site
  apart (i j : Nat) (c c' : Coming) :
    y.founder? i = some c → y.founder? j = some c' → c.team = c'.team → i = j
  once : y.comings.Pairwise fun c c' => c.number = c'.number → c'.founded = none

namespace Matched

theorem lt (h : y.Matched n) (hd : y.desks[w]? = some d) : w < n.workers := by
  obtain ⟨hw, -⟩ := List.getElem?_eq_some_iff.1 hd
  exact h.staff ▸ hw

/-- **What has become of a stage that is done.** -/
theorem outcome (h : y.Matched n) (hd : y.desks[w]? = some d)
    {r : Except ConfigError (Replica Feed)} (hr : d.built[i]? = some r) :
    ∃ o c, d.orders[i]? = some o ∧ y.founder? i = some c ∧
      r = (o.verdict c.config).map fun _ => Replica.fresh c.team .outer o.feed := by
  obtain ⟨hs, -⟩ := h.desk w d hd
  obtain ⟨hi, -⟩ := List.getElem?_eq_some_iff.1 hr
  have ho := List.getElem?_eq_getElem (Nat.lt_of_lt_of_le hi hs.built_le)
  obtain ⟨c, hc, heq⟩ := hs.built i _ r ho hr
  exact ⟨_, c, ho, hc, heq⟩

/-- **A replica that has been built** is in the team of its number. -/
theorem team_of_built (h : y.Matched n) (hd : y.desks[w]? = some d) {r : Replica Feed}
    (hr : d.built[i]? = some (.ok r)) : ∃ c, y.founder? i = some c ∧ r.team = c.team := by
  obtain ⟨o, c, -, hc, heq⟩ := h.outcome hd hr
  cases hv : o.verdict c.config with
  | error e =>
    rw [hv] at heq
    cases heq
  | ok u =>
    rw [hv] at heq
    exact ⟨c, hc, congrArg Replica.team (Except.ok.inj heq)⟩

/-! Each kind of change keeps the invariant: a desk is written anew, a member of a team has a turn,
a number is drawn, somebody joins a team, somebody founds one. -/

theorem seat (h : y.Matched n) (hd : y.desks[w]? = some d) (he : e.Sound y.founder?)
    (hn : e.numbers = d.numbers) : (y.seat w e).Matched n where
  listed := h.listed
  crew := h.crew
  size := h.size
  staff := List.length_set.trans h.staff
  desk v d' hd' := by
    obtain ⟨rfl, rfl⟩ | ⟨-, hd'⟩ := getElem?_set_cases hd hd'
    · exact ⟨he, (h.desk v d hd).2.trans hn.symm⟩
    · exact h.desk v d' hd'
  team?_eq := h.team?_eq
  founds := h.founds
  apart := h.apart
  once := h.once

/-- A worker gets on with the stage it has begun. -/
theorem reseat (h : y.Matched n) (hd : y.desks[w]? = some d) {bench : Bench}
    (hb : Desk.Bears y.founder? { d with bench := bench }) (hbusy : d.bench ≠ .free)
    (hbusy' : bench ≠ .free) : (y.seat w { d with bench := bench }).Matched n := by
  obtain ⟨hs, -⟩ := h.desk w d hd
  have hnumbers : Desk.numbers { d with bench := bench } = d.numbers :=
    (Desk.numbers_of_busy hbusy').trans (Desk.numbers_of_busy hbusy).symm
  exact h.seat hd ⟨hnumbers ▸ hs.le, hb, hs.built⟩ hnumbers

theorem undergo (h : y.Matched n) (k i : Nat) (turn : Turn) :
    Matched n { y with camp := y.camp.undergo k i turn } where
  listed := h.listed.undergo k i turn
  crew := (Camp.crew_undergo y.camp k i turn).trans h.crew
  size := h.size
  staff := h.staff
  desk := h.desk
  team?_eq := h.team?_eq
  founds i c hc := by
    obtain ⟨hthere, hconfig, hfounded⟩ := h.founds i c hc
    refine ⟨?_, ?_, hfounded⟩
    · exact (Camp.size_undergo y.camp k _ turn).symm ▸ hthere
    · exact (Camp.config_undergo y.camp k _ turn c.team).trans hconfig
  apart := h.apart
  once := h.once

theorem draw (h : y.Matched n) (hd : y.desks[w]? = some d) (ho : d.order? = some o)
    (hb : d.bench = .free) : (y.draw w d n).Matched (n.drawn w) := by
  obtain ⟨hs, hn⟩ := h.desk w d hd
  have hupcoming : n.upcoming w = d.built.length := by rw [hn, Desk.numbers, hb]
  rw [draw_eq h.crew]
  refine ⟨h.listed, rfl, ?_, List.length_set.trans h.staff, fun v d' hd' => ?_, h.team?_eq,
    fun i c hc => ?_, h.apart, h.once⟩
  · exact Array.size_setIfInBounds.trans h.size
  · rw [Numbering.upcoming_drawn (h.size ▸ h.lt hd)]
    obtain ⟨rfl, rfl⟩ | ⟨hne, hd'⟩ := getElem?_set_cases hd hd'
    · rw [if_pos rfl]
      refine ⟨⟨?_, hupcoming, hs.built⟩, ?_⟩
      · obtain ⟨hlt, -⟩ := List.getElem?_eq_some_iff.1 ho
        exact hlt
      · rw [hupcoming]
        rfl
    · rw [if_neg hne]
      exact h.desk v d' hd'
  · obtain ⟨hthere, hconfig, hfounded⟩ := h.founds i c hc
    exact ⟨hthere, hconfig, hfounded⟩

theorem joined (h : y.Matched n) {c first : Coming} (hfirst : y.founder? c.number = some first)
    (hc : c.founded = none) : Matched n { y with comings := y.comings ++ [c] } := by
  have hsame := founder?_joined (z := { y with comings := y.comings ++ [c] }) rfl hfirst
  refine ⟨h.listed, h.crew, h.size, h.staff, ?_, ?_, ?_, ?_, ?_⟩
  · rw [hsame]
    exact h.desk
  · rw [hsame]
    exact h.team?_eq
  · rw [hsame]
    exact h.founds
  · rw [hsame]
    exact h.apart
  · refine List.pairwise_append.2 ⟨h.once, List.pairwise_singleton _ _, fun b _ c' hc' _ => ?_⟩
    rw [List.mem_singleton.1 hc']
    exact hc

/-- The teams that are there are as before when there is one more. -/
theorem team_of_push {s u : Site} {t : Team} (hu : u.teams = s.teams.push t) {k : Nat} :
    u.team k = if k = s.teams.size then t else s.team k := by
  by_cases hk : k = s.teams.size <;> simp [Site.team, hu, Array.getElem?_push, hk]

theorem founded (h : y.Matched n) {c : Coming} {u : Site} {t : Team}
    (hnone : n.team? c.number = none) (hu : u.teams = y.camp.site.teams.push t)
    (hcrew : u.crew = some (n.withTeam c.number c.team)) (hc : c.Founds n.workers u)
    (hteam : c.team = y.camp.site.teams.size) (posts : List Post) :
    Matched (n.withTeam c.number c.team)
      { y with camp := y.camp.founded u posts, comings := y.comings ++ [c] } := by
  have hfounder : y.founder? c.number = none := by
    rw [h.team?_eq] at hnone
    exact Option.map_eq_none_iff.1 hnone
  have hcases : ∀ {i c'}, founder? { y with
      camp := y.camp.founded u posts, comings := y.comings ++ [c] } i = some c' →
      (y.founder? i = some c' ∧ c'.team < y.camp.site.teams.size) ∨ (i = c.number ∧ c' = c) :=
    fun hc' => (founder?_cases rfl hc').imp_left fun hold => ⟨hold, (h.founds _ _ hold).there⟩
  refine ⟨h.listed.founded hu posts, hcrew, h.size, h.staff, fun v d' hd' => ?_, fun i => ?_,
    fun i c' hc' => ?_, fun i j c' c'' hc' hc'' heq => ?_, ?_⟩
  · obtain ⟨hs, hn⟩ := h.desk v d' hd'
    exact ⟨hs.mono (founder?_mono rfl), hn⟩
  · refine Eq.trans ?_ (congrArg (Option.map Coming.team) (founder?_append rfl i)).symm
    rw [Numbering.team?_withTeam, h.team?_eq]
    by_cases hi : c.number = i
    · rw [if_pos hi.symm, if_pos hi, ← hi, hfounder]
      rfl
    · rw [if_neg (Ne.symm hi), if_neg hi, Option.or_none, Option.or_none]
  · obtain ⟨hold, hlt⟩ | ⟨-, rfl⟩ := hcases hc'
    · obtain ⟨-, hconfig, hfounded⟩ := h.founds i c' hold
      refine ⟨?_, ?_, hfounded⟩
      · show _ < u.teams.size
        rw [hu, Array.size_push]
        exact Nat.lt_succ_of_lt hlt
      · show (u.team _).config = _
        rw [team_of_push hu, if_neg (Nat.ne_of_lt hlt)]
        exact hconfig
    · exact hc
  · obtain ⟨hold, hlt⟩ | ⟨rfl, rfl⟩ := hcases hc' <;>
      obtain ⟨hold', hlt'⟩ | ⟨rfl, rfl⟩ := hcases hc''
    · exact h.apart i j c' c'' hold hold' heq
    · exact absurd (heq.trans hteam) (Nat.ne_of_lt hlt)
    · exact absurd (heq.symm.trans hteam) (Nat.ne_of_lt hlt')
    · rfl
  · refine List.pairwise_append.2 ⟨h.once, List.pairwise_singleton _ _, fun b hb c' hc' heq => ?_⟩
    obtain rfl := List.mem_singleton.1 hc'
    have hno := List.find?_eq_none.1 hfounder b hb
    simp [heq] at hno

/-! Now the moves of a worker. -/

theorem come (h : y.Matched n) (hd : y.desks[w]? = some d) (hb : d.bench = .drawn number) :
    ∃ m, m.workers = n.workers ∧ (y.come w d n g number).Matched m := by
  obtain ⟨hs, hn⟩ := h.desk w d hd
  have hnumber := hs.number_eq hb
  have hbusy : d.bench ≠ .free := by simp [hb]
  cases hfounder : y.founder? number with
  | some c =>
    have ht : n.team? number = some c.team := by rw [h.team?_eq, hfounder]; rfl
    rw [come_join ht]
    have hjoined := h.joined (c := ⟨w, number, g, c.team, none⟩) hfounder rfl
    refine ⟨n, rfl, hjoined.reseat hd ⟨c, ?_, rfl⟩ hbusy (by simp)⟩
    exact founder?_mono rfl _ c (hnumber ▸ hfounder)
  | none =>
    have ht : n.team? number = none := by rw [h.team?_eq, hfounder]; rfl
    cases hc : Census.ofConfig g with
    | error f =>
      rw [come_broken ht hc]
      exact ⟨n, rfl, h.reseat hd trivial hbusy (by simp)⟩
    | ok c =>
      rw [come_found ht h.crew hc]
      let t : Team := ⟨⟨g, c⟩, .ofParties n.workers⟩
      let size := y.camp.site.teams.size
      let u : Site := { y.camp.site with
        teams := y.camp.site.teams.push t, crew := some (n.withTeam number size) }
      let first : Coming := ⟨w, number, g, size, some t⟩
      have hfounds : first.Founds n.workers u :=
        ⟨by simp [u, first, size], by rw [team_of_push (t := t) rfl, if_pos rfl]; rfl, c, hc, rfl⟩
      have hfounded := h.founded (c := first) ht rfl rfl hfounds rfl
        (List.replicate n.workers (.standing { scope := .outer }))
      refine ⟨n.withTeam number size, rfl, hfounded.reseat hd ⟨first, ?_, rfl⟩ hbusy (by simp)⟩
      refine (founder?_append rfl _).trans ?_
      rw [← hnumber, hfounder]
      exact if_pos rfl

theorem vet (h : y.Matched n) (hd : y.desks[w]? = some d) (ho : d.order? = some o)
    (hb : d.bench = .come team) : (y.vet w d o team).Matched n := by
  obtain ⟨hs, hn⟩ := h.desk w d hd
  obtain ⟨c, hc, rfl⟩ := hs.of_come hb
  have hnumbers : d.numbers = d.built.length + 1 := Desk.numbers_of_busy (by simp [hb])
  have hfinish := hs.finish ho hc
  rw [Yard.vet, Order.admission_eq, (h.founds _ c hc).config]
  cases hv : o.verdict c.config with
  | ok u =>
    rw [hv] at hfinish
    exact h.seat hd hfinish ((Desk.numbers_finish d _).trans hnumbers.symm)
  | error e =>
    exact h.reseat hd ⟨c, o, hc, rfl, ho, hv⟩ (by simp [hb]) (by simp)

theorem withdraw (h : y.Matched n) (hd : y.desks[w]? = some d) {e : ConfigError}
    (hb : d.bench = .refused team e) : (y.withdraw w d team e).Matched n := by
  obtain ⟨hs, hn⟩ := h.desk w d hd
  have hbears := hs.of_refused (Or.inl hb)
  have hcamp := h.undergo team w (.deed .withdraw)
  rw [Yard.withdraw]
  cases (y.camp.undergo team w (.deed .withdraw)).fault? team w with
  | some f =>
    exact hcamp.reseat hd trivial (by simp [hb]) (by simp)
  | none =>
    exact hcamp.reseat hd hbears (by simp [hb]) (by simp)

theorem conclude (h : y.Matched n) (hd : y.desks[w]? = some d) {e : ConfigError}
    (hb : d.bench = .leaving team e) : (y.conclude w d team e).Matched n := by
  obtain ⟨hs, hn⟩ := h.desk w d hd
  obtain ⟨c, o, hc, -, ho, hv⟩ := hs.of_refused (Or.inr hb)
  have hcamp := h.undergo team w (.deed .conclude)
  have hnumbers : d.numbers = d.built.length + 1 := Desk.numbers_of_busy (by simp [hb])
  have hfinish := hs.finish ho hc
  rw [hv] at hfinish
  rw [Yard.conclude]
  cases (y.camp.undergo team w (.deed .conclude)).fault? team w with
  | some f =>
    exact hcamp.reseat hd trivial (by simp [hb]) (by simp)
  | none =>
    exact hcamp.seat hd hfinish ((Desk.numbers_finish d _).trans hnumbers.symm)

/-- **Whatever move a worker makes, the yard stays matched.** -/
theorem build (h : y.Matched n) (w : Nat) :
    ∃ m, m.workers = n.workers ∧ (y.build w).Matched m := by
  unfold Yard.build
  split
  · rename_i d m hd hcrew
    obtain rfl : n = m := Option.some.inj (h.crew.symm.trans hcrew)
    split
    · exact ⟨n.drawn w, rfl, h.draw hd ‹_› ‹_›⟩
    · exact h.come hd ‹_›
    · exact ⟨n, rfl, h.vet hd ‹_› ‹_›⟩
    · exact ⟨n, rfl, h.withdraw hd ‹_›⟩
    · exact ⟨n, rfl, h.conclude hd ‹_›⟩
    · exact ⟨n, rfl, h⟩
  · exact ⟨n, rfl, h⟩

theorem act (h : y.Matched n) (k i : Nat) (a : Deed) : (y.act k i a).Matched n := by
  unfold Yard.act
  split
  · exact h.undergo k i (.deed a)
  · exact h

theorem after (h : y.Matched n) (moves : List Move) :
    ∃ m, m.workers = n.workers ∧ (y.after moves).Matched m := by
  induction moves generalizing y n with
  | nil => exact ⟨n, rfl, h⟩
  | cons move moves ih =>
    cases move with
    | build w =>
      obtain ⟨m, hm, hbuilt⟩ := h.build w
      obtain ⟨k, hk, hrest⟩ := ih hbuilt
      exact ⟨k, hk.trans hm, hrest⟩
    | act k i a => exact ih (h.act k i a)

theorem opening {workers : Nat} (hstart : Numbering.ofWorkers workers = .ok n) (site : Site)
    {orders : List (List Order)} (horders : orders.length = workers) :
    (Yard.opening site n orders).Matched n := by
  obtain rfl := Numbering.ofWorkers_eq hstart
  refine ⟨List.length_replicate, rfl, Array.size_replicate, ?_, fun w d hd => ?_, fun i => rfl, ?_,
    ?_, .nil⟩
  · exact (List.length_map _).trans horders
  · rw [Yard.opening, List.getElem?_map, Option.map_eq_some_iff] at hd
    obtain ⟨os, hos, rfl⟩ := hd
    obtain ⟨hw, -⟩ := List.getElem?_eq_some_iff.1 hos
    refine ⟨⟨Nat.zero_le _, trivial, fun i o r _ hr => by cases hr⟩, ?_⟩
    rw [horders] at hw
    simp [Numbering.upcoming, Desk.numbers, hw]
  · intro i c hc
    cases hc
  · intro i j c c' hc
    cases hc

end Matched

end Yard

end Muster
