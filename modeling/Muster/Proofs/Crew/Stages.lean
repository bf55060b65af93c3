import Muster.Proofs.Crew.Manning

/-!
# Proofs/Crew/Stages — workers that build the same pipeline

Each worker of a crew builds its stages one after the other, and some of them may be refused. A
worker is never more than five moves from being done with the next stage, and it breaks off only
where it should found a team and cannot (`Config.Foundable`).

* `Yard.exists_desk_after` — a worker that gets on is done in the end.
* `Yard.Honest` — who has come to a number has come with the stage of that number.
* `Yard.stages_matched` — stages of different workers share a team if they have the same number.
-/

namespace Muster

/-! ## Getting done -/

namespace Desk

variable {d e : Desk} {f : Nat → Option Coming}

/-- **A bound on the moves of a worker** until it is done with everything or has broken off. -/
def left (d : Desk) : Nat :=
  match d.bench with
  | .broken _ => 0
  | bench => 5 * (d.orders.length - d.built.length) - bench.steps

theorem left_le (d : Desk) :
    d.left ≤ 5 * (d.orders.length - d.built.length) - d.bench.steps := by
  unfold left
  split
  · exact Nat.zero_le _
  · exact Nat.le_refl _

theorem left_of_unbroken (hb : ∀ f, d.bench ≠ .broken f) :
    d.left = 5 * (d.orders.length - d.built.length) - d.bench.steps := by
  unfold left
  split
  · exact absurd ‹_› (hb _)
  · rfl

/-- **Each move is one move less.** -/
theorem Advances.left_le (h : d.Advances e) (hlt : d.built.length < d.orders.length) :
    e.left ≤ d.left - 1 := by
  have hle := e.left_le
  have hsteps := d.bench.steps_le
  rw [left_of_unbroken h.2.1]
  rw [h.1] at hle
  obtain ⟨-, -, ⟨hbuilt, hs | ⟨f, hf⟩⟩ | ⟨hfree, r, hbuilt⟩⟩ := h
  · rw [hbuilt] at hle
    omega
  · rw [left, hf]
    exact Nat.zero_le _
  · rw [hbuilt, List.length_append, List.length_singleton] at hle
    omega

/-- **Whoever has nothing left to do** is done with everything or has broken off. -/
theorem Sound.done_of_left (h : d.Sound f) (hl : d.left = 0) :
    d.built.length = d.orders.length ∨ ∃ f, d.bench = .broken f := by
  by_cases hb : ∃ f, d.bench = .broken f
  · exact Or.inr hb
  · have hle := h.le
    have hbuilt := h.built_le
    have hsteps := d.bench.steps_le
    rw [left_of_unbroken fun f hf => hb ⟨f, hf⟩] at hl
    by_cases hfree : d.bench = .free
    · rw [hfree, Bench.steps] at hl
      exact Or.inl (by omega)
    · rw [numbers_of_busy hfree] at hle
      omega

end Desk

namespace Yard

variable {y : Yard} {n : Numbering} {v w : Nat} {d : Desk}

/-- Is the move one of this worker? -/
def Move.isBuild (w : Nat) : Move → Bool
  | .build v => v = w
  | .act .. => false

/-- **A worker writes its own desk alone.** -/
theorem desk_build_of_ne (y : Yard) (hv : v ≠ w) : (y.build v).desks[w]? = y.desks[w]? := by
  cases hd : y.desks[v]? with
  | none =>
    unfold build
    rw [hd]
  | some d =>
    cases hn : y.camp.site.crew with
    | none =>
      unfold build
      rw [hd, hn]
    | some n =>
      obtain ⟨heq, -⟩ | ⟨o, e, -, heq, -⟩ := build_cases hn hd
      · rw [heq]
      · rw [heq, List.getElem?_set_ne hv]

theorem exists_desk_build (hm : y.Matched n) (hd : y.desks[w]? = some d) :
    ∃ e, (y.build w).desks[w]? = some e ∧ e.orders = d.orders ∧ e.left ≤ d.left - 1 := by
  obtain ⟨hw, -⟩ := List.getElem?_eq_some_iff.1 hd
  obtain ⟨heq, hnone | ⟨f, hf⟩⟩ | ⟨o, e, ho, heq, hadvances, -⟩ := build_cases hm.crew hd
  · refine ⟨d, heq.symm ▸ hd, rfl, ?_⟩
    have hle := d.left_le
    have hbuilt := List.getElem?_eq_none_iff.1 hnone
    omega
  · refine ⟨d, heq.symm ▸ hd, rfl, Nat.le_of_eq ?_⟩
    simp [Desk.left, hf]
  · obtain ⟨hlt, -⟩ := List.getElem?_eq_some_iff.1 ho
    exact ⟨e, by rw [heq, List.getElem?_set_self hw], hadvances.1, hadvances.left_le hlt⟩

/-- **A worker that gets on is done in the end**, whatever the others do meanwhile. -/
theorem exists_desk_after (hm : y.Matched n) (hd : y.desks[w]? = some d) (moves : List Move) :
    ∃ e, (y.after moves).desks[w]? = some e ∧ e.orders = d.orders ∧
      e.left ≤ d.left - moves.countP (Move.isBuild w) := by
  induction moves generalizing y n d with
  | nil => exact ⟨d, hd, rfl, Nat.le_refl _⟩
  | cons move moves ih =>
    cases move with
    | build v =>
      obtain ⟨m, -, hbuilt⟩ := hm.build v
      by_cases hv : v = w
      · subst hv
        obtain ⟨d', hd', horders, hleft⟩ := exists_desk_build hm hd
        obtain ⟨e, he, horders', hleft'⟩ := ih hbuilt hd'
        refine ⟨e, he, horders'.trans horders, ?_⟩
        rw [List.countP_cons_of_pos (by simp [Move.isBuild])]
        omega
      · obtain ⟨e, he, horders, hleft⟩ := ih hbuilt ((desk_build_of_ne y hv).trans hd)
        refine ⟨e, he, horders, ?_⟩
        rw [List.countP_cons_of_neg (by simpa [Move.isBuild] using hv)]
        exact hleft
    | act k i a =>
      have hsame : (y.act k i a).desks = y.desks := by
        unfold act
        split <;> rfl
      obtain ⟨e, he, horders, hleft⟩ := ih (hm.act k i a) (hsame ▸ hd)
      refine ⟨e, he, horders, ?_⟩
      rw [List.countP_cons_of_neg (by simp [Move.isBuild])]
      exact hleft

/-! ## Who has come -/

/-- **Whoever has come to a number** has come with the stage that it builds under that number. -/
def Honest (y : Yard) : Prop :=
  ∀ c ∈ y.comings, ∃ d o, y.desks[c.worker]? = some d ∧ d.orders[c.number]? = some o ∧
    o.config = c.config

namespace Honest

theorem act (h : y.Honest) (k i : Nat) (a : Deed) : (y.act k i a).Honest := by
  unfold Yard.act
  split <;> exact h

theorem build (h : y.Honest) (hm : y.Matched n) (w : Nat) : (y.build w).Honest := by
  cases hd : y.desks[w]? with
  | none =>
    unfold Yard.build
    rw [hd]
    exact h
  | some d =>
    obtain ⟨heq, -⟩ | ⟨o, e, ho, heq, hadvances, hcomings⟩ := build_cases hm.crew hd
    · exact heq.symm ▸ h
    · -- the desks are as before, but for what the worker has built
      have hdesks : ∀ (v : Nat) (d' : Desk), y.desks[v]? = some d' →
          ∃ d'' : Desk, (y.build w).desks[v]? = some d'' ∧ d''.orders = d'.orders := by
        intro v d' hd'
        by_cases hv : w = v
        · subst hv
          obtain rfl := Option.some.inj (hd.symm.trans hd')
          obtain ⟨hw, -⟩ := List.getElem?_eq_some_iff.1 hd
          exact ⟨e, by rw [heq, List.getElem?_set_self hw], hadvances.1⟩
        · exact ⟨d', by rw [heq, List.getElem?_set_ne hv, hd'], rfl⟩
      have hold : ∀ c ∈ y.comings, ∃ d o, (y.build w).desks[c.worker]? = some d ∧
          d.orders[c.number]? = some o ∧ o.config = c.config := by
        intro c hc
        obtain ⟨d', o', hd', ho', hconfig⟩ := h c hc
        obtain ⟨d'', hd'', horders⟩ := hdesks _ _ hd'
        exact ⟨d'', o', hd'', horders.symm ▸ ho', hconfig⟩
      obtain hsame | ⟨c, hmore, hworker, hb, hconfig⟩ := hcomings
      · rw [Honest, hsame]
        exact hold
      · rw [Honest, hmore]
        intro c' hc'
        obtain hc' | hc' := List.mem_append.1 hc'
        · exact hold c' hc'
        · obtain rfl := List.mem_singleton.1 hc'
          have hnumber := (hm.desk w d hd).1.number_eq hb
          obtain ⟨d'', hd'', horders⟩ := hdesks _ _ hd
          exact ⟨d'', o, hworker.symm ▸ hd'', by rw [horders, hnumber]; exact ho, hconfig.symm⟩

theorem after (h : y.Honest) (hm : y.Matched n) (moves : List Move) : (y.after moves).Honest := by
  induction moves generalizing y n with
  | nil => exact h
  | cons move moves ih =>
    cases move with
    | build w =>
      obtain ⟨m, -, hbuilt⟩ := hm.build w
      exact ih (h.build hm w) hbuilt
    | act k i a => exact ih (h.act k i a) (hm.act k i a)

end Honest

/-! ## Matching -/

/-- Who has come to a number, one after the other. -/
def comingsTo (y : Yard) (number : Nat) : List Coming := y.comings.filter (·.number = number)

variable {number i j : Nat} {c : Coming} {e : Desk} {r q : Replica Feed}

theorem founder?_eq_some_iff :
    y.founder? number = some c ↔ ∃ rest, y.comingsTo number = c :: rest := by
  rw [founder?, ← List.head?_filter, ← comingsTo, List.head?_eq_some_iff]

namespace Matched

/-- **Whoever comes to a number later** founds no team there. -/
theorem founded_once (h : y.Matched n) {rest : List Coming}
    (hc : y.comingsTo number = c :: rest) : ∀ c' ∈ rest, c'.founded = none := by
  have honce : (y.comingsTo number).Pairwise fun c c' => c.number = c'.number → c'.founded = none :=
    List.Pairwise.filter _ h.once
  have hnumber : ∀ c' ∈ y.comingsTo number, c'.number = number := fun c' hc' =>
    of_decide_eq_true (List.mem_filter.1 hc').2
  rw [hc] at honce hnumber
  intro c' hc'
  refine List.rel_of_pairwise_cons honce hc' ?_
  rw [hnumber c List.mem_cons_self, hnumber c' (List.mem_cons_of_mem c hc')]

/-- **Replicas count into the same grouper** exactly if they have the same number. -/
theorem shared_iff (h : y.Matched n) (hd : y.desks[v]? = some d) (he : y.desks[w]? = some e)
    (hr : d.built[i]? = some (.ok r)) (hq : e.built[j]? = some (.ok q)) :
    Roster.shared r q = true ↔ i = j := by
  obtain ⟨c, hc, hteam⟩ := h.team_of_built hd hr
  obtain ⟨c', hc', hteam'⟩ := h.team_of_built he hq
  rw [Roster.shared, decide_eq_true_iff, hteam, hteam']
  constructor
  · exact h.apart i j c c' hc hc'
  · rintro rfl
    exact congrArg Coming.team (Option.some.inj (hc.symm.trans hc'))

/-- **A stage that is done has been built** exactly if its configuration is valid for its own feed
and is that of whoever came first to its number. -/
theorem built_iff (h : y.Matched n) (hd : y.desks[w]? = some d)
    {out : Except ConfigError (Replica Feed)} (hout : d.built[i]? = some out) :
    ∃ o c rest, d.orders[i]? = some o ∧ y.comingsTo i = c :: rest ∧
      ((∃ r, out = .ok r) ↔
        o.config.validate (Supply.schema o.feed) = .ok () ∧ o.config = c.config) := by
  obtain ⟨o, c, ho, hc, rfl⟩ := h.outcome hd hout
  obtain ⟨rest, hrest⟩ := founder?_eq_some_iff.1 hc
  refine ⟨o, c, rest, ho, hrest, ?_⟩
  rw [← Order.verdict_eq_ok_iff]
  cases o.verdict c.config with
  | ok u => exact iff_of_true ⟨_, rfl⟩ rfl
  | error e => exact iff_of_false (by simp [Except.map]) (by simp)

end Matched

section Opening

variable {workers : Nat} {start : Numbering} {orders : List (List Order)} {os : List Order}

theorem Honest.opening (site : Site) (start : Numbering) (orders : List (List Order)) :
    (Yard.opening site start orders).Honest :=
  fun _ hc => absurd hc List.not_mem_nil

/-- **The desk of a worker** after some moves: a move of its own is one move less. -/
theorem exists_desk_opened (hstart : Numbering.ofWorkers workers = .ok start) (site : Site)
    (horders : orders.length = workers) (hos : orders[w]? = some os) (moves : List Move) :
    ∃ d, ((Yard.opening site start orders).after moves).desks[w]? = some d ∧ d.orders = os ∧
      d.left ≤ 5 * os.length - moves.countP (Move.isBuild w) := by
  have hd : (Yard.opening site start orders).desks[w]? = some { orders := os } := by
    rw [Yard.opening, List.getElem?_map, hos]
    rfl
  exact exists_desk_after (Matched.opening hstart site horders) hd moves

/-- **Each desk is that of a worker**, with what the worker is to build. -/
theorem orders_of_desk (hstart : Numbering.ofWorkers workers = .ok start) (site : Site)
    (horders : orders.length = workers) {moves : List Move}
    (hd : ((Yard.opening site start orders).after moves).desks[w]? = some d) :
    orders[w]? = some d.orders := by
  obtain ⟨m, hworkers, hm⟩ := (Matched.opening hstart site horders).after moves
  have hw : w < orders.length := by
    rw [horders]
    refine Nat.lt_of_lt_of_eq (hm.lt hd) (hworkers.trans ?_)
    rw [Numbering.ofWorkers_eq hstart]
  have hos := List.getElem?_eq_getElem hw
  obtain ⟨e, he, heq, -⟩ := exists_desk_opened hstart site horders hos moves
  obtain rfl := Option.some.inj (he.symm.trans hd)
  rw [hos, heq]

/-- **Stages of different workers share a team if they have the same number.** Let each worker of a
crew build its stages, one after the other, while the replicas that have been built do what they
may. The team of a number is founded once, by whoever comes there first, with a party for each
worker. Two stages count into the same grouper if they have the same number, and not otherwise. A
stage that is done has been built if its configuration is valid for its own feed and is that of
whoever came first to its number, and else refused. A worker that gets on is done with all its
stages in the end, or breaks off where it is to found a team with a configuration with which none
can be founded. -/
theorem stages_matched (hstart : Numbering.ofWorkers workers = .ok start) (site : Site)
    (horders : orders.length = workers) (moves : List Move) :
    let y := (Yard.opening site start orders).after moves
    (∀ number c rest, y.comingsTo number = c :: rest →
      (∃ os o, orders[c.worker]? = some os ∧ os[number]? = some o ∧ o.config = c.config) ∧
      (∃ census, Census.ofConfig c.config = .ok census ∧
        c.founded = some ⟨⟨c.config, census⟩, .ofParties workers⟩) ∧
      ∀ c' ∈ rest, c'.founded = none) ∧
    (∀ (u v i j : Nat) (d e : Desk) (r q : Replica Feed), y.desks[u]? = some d →
      y.desks[v]? = some e → d.built[i]? = some (.ok r) → e.built[j]? = some (.ok q) →
      (Roster.shared r q = true ↔ i = j)) ∧
    ∀ w os, orders[w]? = some os → ∃ d : Desk, y.desks[w]? = some d ∧
      (∀ i out, d.built[i]? = some out → ∃ o c rest, os[i]? = some o ∧
        y.comingsTo i = c :: rest ∧
        ((∃ r, out = .ok r) ↔
          o.config.validate (Supply.schema o.feed) = .ok () ∧ o.config = c.config)) ∧
      (5 * os.length ≤ moves.countP (Move.isBuild w) →
        d.built.length = os.length ∨ ∃ f, d.bench = .broken f) ∧
      ∀ f, d.bench = .broken f →
        ∃ o, os[d.built.length]? = some o ∧ ¬o.config.Foundable := by
  intro y
  have hopening := Matched.opening hstart site horders
  obtain ⟨m, hworkers, hm⟩ := hopening.after moves
  have hmanned := (Manned.opening site start orders).after hopening moves
  have hhonest := (Honest.opening site start orders).after hopening moves
  refine ⟨fun number c rest hc => ⟨?_, ?_, hm.founded_once hc⟩, fun u v i j d e r q hd he hr hq =>
    hm.shared_iff hd he hr hq, fun w os hos => ?_⟩
  · have hmem : c ∈ y.comingsTo number := hc ▸ List.mem_cons_self
    obtain ⟨hcoming, hnumber⟩ := List.mem_filter.1 hmem
    obtain rfl := of_decide_eq_true hnumber
    obtain ⟨d, o, hd, ho, hconfig⟩ := hhonest c hcoming
    exact ⟨d.orders, o, orders_of_desk hstart site horders hd, ho, hconfig⟩
  · have hfirst := founder?_eq_some_iff.2 ⟨rest, hc⟩
    have hall : m.workers = workers := by rw [hworkers, Numbering.ofWorkers_eq hstart]
    exact hall ▸ (hm.founds number c hfirst).founded
  · obtain ⟨d, hd, rfl, hleft⟩ := exists_desk_opened hstart site horders hos moves
    refine ⟨d, hd, fun i out hout => hm.built_iff hd hout, fun hcount => ?_, fun f hf =>
      hmanned.not_foundable hd hf⟩
    exact (hm.desk w d hd).1.done_of_left (by omega)

/-- Two workers with two stages each: the feed of the first one lacks the key field, so that one is
refused at number 0; then it founds the team of number 1, where the other one comes with other
shards. -/
theorem stages_matched_otherwise :
    let g : Config := { keyFields := ["k"], shards := 2 }
    let feed : Feed := .ofList [] none
    let start : Numbering := { workers := 2, next := #[0, 0] }
    let orders : List (List Order) :=
      [[⟨g, .ofList [] (some ["x"])⟩, ⟨g, feed⟩], [⟨g, feed⟩, ⟨{ g with shards := 4 }, feed⟩]]
    let moves : List Move := [.build 1, .build 0, .build 0, .build 1, .build 0, .build 0, .build 1,
      .build 0, .build 0, .build 1, .build 0, .build 1, .build 1, .build 0, .build 1, .build 1]
    let y := (Yard.opening {} start orders).after moves
    Numbering.ofWorkers 2 = .ok start ∧ orders.length = 2 ∧
      (∃ c rest, y.comingsTo 1 = c :: rest ∧ c.worker = 0 ∧ c.config = g ∧
        c.founded.isSome = true ∧ ∀ c' ∈ rest, c'.founded = none) ∧
      ∃ d out, y.desks[1]? = some d ∧ d.built[1]? = some out ∧ ¬∃ r, out = .ok r := by
  intro g feed start orders moves y
  have hstart : Numbering.ofWorkers 2 = .ok start := rfl
  have horders : orders.length = 2 := rfl
  obtain ⟨hcomings, -, hdesks⟩ := stages_matched hstart {} horders moves
  have hto : (y.comingsTo 1).map (fun c => (c.worker, c.config)) =
      [(0, g), (1, { g with shards := 4 })] := by decide +kernel
  have hlengths : ∀ d ∈ y.desks, d.built.length = 2 := by decide +kernel
  obtain ⟨first, rest, hc, hfirst, -⟩ := List.map_eq_cons_iff.1 hto
  obtain ⟨hworker, hconfig⟩ := Prod.mk.inj hfirst
  obtain ⟨-, ⟨census, -, hfounded⟩, hrest⟩ := hcomings 1 first rest hc
  refine ⟨hstart, horders, ⟨first, rest, hc, hworker, hconfig, ?_, hrest⟩, ?_⟩
  · rw [hfounded]
    rfl
  · obtain ⟨d, hd, hout, -⟩ := hdesks 1 _ rfl
    have hlt : 1 < d.built.length := by
      rw [hlengths d (List.mem_of_getElem? hd)]
      exact Nat.lt_succ_self 1
    obtain ⟨o, c, rest', ho, hc', hiff⟩ := hout 1 _ (List.getElem?_eq_getElem hlt)
    refine ⟨d, _, hd, List.getElem?_eq_getElem hlt, fun hok => ?_⟩
    obtain rfl := Option.some.inj ho
    obtain ⟨rfl, -⟩ := List.cons.inj (hc.symm.trans hc')
    obtain ⟨-, heq⟩ := hiff.1 hok
    exact absurd (heq.trans hconfig) (by decide)

/-- **Where there is no room for the shards, no team is founded**: the configuration is valid, but
the worker that comes to the number breaks off, and there is no team. -/
theorem unfounded_without_room :
    let g : Config := { keyFields := ["k"], shards := 1152921504606846976 }
    let feed : Feed := .ofList [] none
    let start : Numbering := { workers := 1, next := #[0] }
    let y := (Yard.opening {} start [[⟨g, feed⟩]]).after (List.replicate 5 (.build 0))
    Numbering.ofWorkers 1 = .ok start ∧ 0 < g.shards.toNat ∧ 0 < g.checkpointInterval.toNat ∧
      g.validate (Supply.schema feed) = .ok () ∧ y.comingsTo 0 = [] ∧
      y.camp.site.teams.size = 0 ∧
      y.desks[0]? = some { orders := [⟨g, feed⟩], bench := .broken .noRoom } :=
  ⟨rfl, by decide, by decide, by decide +kernel, rfl, rfl, rfl⟩

end Opening

end Yard

end Muster
