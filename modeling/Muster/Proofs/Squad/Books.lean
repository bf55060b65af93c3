import Muster.Proofs.Squad.Turns

/-!
# Proofs/Squad/Books — the barrier keeps the books of a squad

In whatever order the members of a squad do things, are replicated, start over and are given up, the
barrier knows how many members there are, and how many of them have arrived in the phase in progress
(`Squad.Books`). An arrival in an earlier phase is not among these: the barrier has forgotten it,
whether or not the member has started over since.

* `Squad.Books.undergo` — each turn keeps the books.
* `Squad.Books.of_family` — so they are right after any history of a family.
* `Squad.barrier_right` — hence the barrier never breaks off, and takes back no arrival that it has
  not counted.
-/

namespace Muster

/-! ## Counting posts -/

namespace Post

/-- Is there a member that has arrived in a phase? -/
def arrivedIn (phase : Nat) : Post → Bool
  | standing m => m.arrival == some phase
  | arrived m _ => m.arrival == some phase
  | _ => false

/-- **What a member's books say of its progress**, given the phase in progress. -/
def Kept (phase : Nat) : Post → Prop
  | standing m =>
    (m.arrival = none ∧ (m.progress = .accumulating ∨ m.progress = .exhausted)) ∨
      ((∃ p, p ≤ phase ∧ m.arrival = some p) ∧ (m.progress = .draining ∨ m.progress = .done))
  | arrived m _ => ∃ p, p ≤ phase ∧ m.arrival = some p
  | broken _ => False
  | _ => True

variable {phase later : Nat} {post : Post}

section Missing

variable {m : Member} (ha : m.arrival = none)
include ha

theorem hasArrived_of_missing : (standing m).hasArrived = false := by
  rw [hasArrived, ha]
  rfl

theorem arrivedIn_of_missing (phase : Nat) : (standing m).arrivedIn phase = false := by
  rw [arrivedIn, ha]
  rfl

end Missing

theorem Kept.mono (h : post.Kept phase) (hle : phase ≤ later) : post.Kept later := by
  cases post with
  | standing m =>
    obtain h | ⟨⟨p, hp, ha⟩, hd⟩ := h
    · exact Or.inl h
    · exact Or.inr ⟨⟨p, Nat.le_trans hp hle, ha⟩, hd⟩
  | arrived m last =>
    obtain ⟨p, hp, ha⟩ := h
    exact ⟨p, Nat.le_trans hp hle, ha⟩
  | leaving | gone => trivial
  | broken => exact h

/-- **Nobody has arrived in a phase to come.** -/
theorem Kept.arrivedIn_eq_false (h : post.Kept phase) (hlt : phase < later) :
    post.arrivedIn later = false := by
  have hne : ∀ p, p ≤ phase → (some p == some later) = false := by
    intro p hp
    rw [beq_eq_false_iff_ne, Ne, Option.some_inj]
    omega
  cases post with
  | standing m =>
    obtain ⟨ha, -⟩ | ⟨⟨p, hp, ha⟩, -⟩ := h
    · exact arrivedIn_of_missing ha later
    · rw [arrivedIn, ha]
      exact hne p hp
  | arrived m last =>
    obtain ⟨p, hp, ha⟩ := h
    rw [arrivedIn, ha]
    exact hne p hp
  | leaving | gone | broken => rfl

theorem hasArrived_of_arrivedIn (h : post.arrivedIn phase = true) : post.hasArrived = true := by
  cases post with
  | standing m =>
    rw [hasArrived, beq_iff_eq.1 h]
    rfl
  | arrived => rfl
  | leaving | gone | broken => cases h

theorem present_of_hasArrived (h : post.hasArrived = true) : post.present = true := by
  cases post with
  | standing | arrived => rfl
  | leaving | gone | broken => cases h

end Post

namespace Squad

variable {s : Squad} {i : Nat}

/-! ## The books -/

/-- **The books of a squad**: its census is in working order, no member has broken off, and the
barrier knows how many members there are and how many have arrived in the phase in progress. -/
structure Books (s : Squad) : Prop where
  census : ∃ seals late, s.team.census.Regular seals late
  kept (j : Nat) (post : Post) : s.posts[j]? = some post → post.Kept s.team.barrier.phase
  parties : s.team.barrier.parties = s.posts.countP Post.present
  arrived : s.team.barrier.arrived = s.posts.countP (Post.arrivedIn s.team.barrier.phase)

namespace Books

/-- **At the start of a pass the books are right.** -/
theorem of_opening (h : s.Opening) : s.Books where
  census := ⟨_, _, h.census.regular⟩
  kept j post hj := by
    obtain rfl | ⟨m, rfl, hp, ha⟩ := h.posts post (List.mem_of_getElem? hj)
    · trivial
    · exact Or.inl ⟨ha, Or.inl hp⟩
  parties := h.parties
  arrived := by
    rw [h.arrived, eq_comm, List.countP_eq_zero]
    intro post hpost
    obtain rfl | ⟨m, rfl, -, ha⟩ := h.posts post hpost
    · exact Bool.false_ne_true
    · rw [Post.arrivedIn_of_missing ha]
      exact Bool.false_ne_true

theorem healthy (h : s.Books) : s.team.census.Healthy := by
  obtain ⟨_, _, hc⟩ := h.census
  exact hc.healthy

/-- Where there is a member, the barrier has a party. -/
theorem parties_pos (h : s.Books) {post : Post} (hx : s.posts[i]? = some post)
    (hp : post.present = true) : 0 < s.team.barrier.parties := by
  rw [h.parties]
  exact List.countP_pos_iff.2 ⟨post, List.mem_of_getElem? hx, hp⟩

/-- Whoever has arrived in the phase in progress is counted. -/
theorem arrived_pos (h : s.Books) {m : Member} (hm : s.posts[i]? = some (.standing m))
    (ha : m.arrival = some s.team.barrier.phase) : 0 < s.team.barrier.arrived := by
  rw [h.arrived]
  refine List.countP_pos_iff.2 ⟨_, List.mem_of_getElem? hm, ?_⟩
  rw [Post.arrivedIn, ha, beq_self_eq_true]

/-- While a member has not arrived in the phase in progress, somebody is missing. -/
theorem arrived_lt (h : s.Books) {post : Post} (hx : s.posts[i]? = some post)
    (hp : post.present = true) (ha : post.arrivedIn s.team.barrier.phase = false) :
    s.team.barrier.arrived < s.team.barrier.parties := by
  have hpresent := countP_set_add hx .gone Post.present
  have harrived := countP_set_add hx .gone (Post.arrivedIn s.team.barrier.phase)
  have hle : (s.posts.set i .gone).countP (Post.arrivedIn s.team.barrier.phase) ≤
      (s.posts.set i .gone).countP Post.present :=
    List.countP_mono_left fun post _ hpost =>
      Post.present_of_hasArrived (Post.hasArrived_of_arrivedIn hpost)
  have hgone : Post.gone.present = false := rfl
  have hgone' : Post.gone.arrivedIn s.team.barrier.phase = false := rfl
  rw [hp, hgone, Bool.toNat_true, Bool.toNat_false] at hpresent
  rw [ha, hgone', Bool.toNat_false] at harrived
  rw [h.parties, h.arrived]
  omega

/-- One more post whose books are right. -/
theorem kept_set (h : s.Books) {x y : Post} (hx : s.posts[i]? = some x)
    (hy : y.Kept s.team.barrier.phase) {j : Nat} {post : Post}
    (hpost : (s.posts.set i y)[j]? = some post) : post.Kept s.team.barrier.phase := by
  obtain ⟨-, rfl⟩ | ⟨-, hpost'⟩ := getElem?_set_cases hx hpost
  · exact hy
  · exact h.kept j post hpost'

/-- The barrier knows how many members there are after a step that tells it. -/
theorem parties_set (h : s.Books) {x y : Post} {n : Nat} (hx : s.posts[i]? = some x)
    (hn : n + x.present.toNat = s.team.barrier.parties + y.present.toNat) :
    n = (s.posts.set i y).countP Post.present := by
  have hset := countP_set_add hx y Post.present
  rw [← h.parties] at hset
  exact Nat.add_right_cancel (hn.trans hset.symm)

/-- **The books after a step in the same phase.** -/
theorem settle (h : s.Books) {x y : Post} {t : Team} (hx : s.posts[i]? = some x)
    (hc : ∃ seals late, t.census.Regular seals late) (hy : y.Kept s.team.barrier.phase)
    (hphase : t.barrier.phase = s.team.barrier.phase)
    (hparties : t.barrier.parties + x.present.toNat = s.team.barrier.parties + y.present.toNat)
    (harrived : t.barrier.arrived + (x.arrivedIn s.team.barrier.phase).toNat =
      s.team.barrier.arrived + (y.arrivedIn s.team.barrier.phase).toNat) :
    (s.settle i t (.ok y)).Books where
  census := hc
  kept j post hpost := by
    show post.Kept t.barrier.phase
    rw [hphase]
    exact h.kept_set hx hy hpost
  parties := h.parties_set hx hparties
  arrived := by
    have hset := countP_set_add hx y (Post.arrivedIn s.team.barrier.phase)
    rw [← h.arrived] at hset
    show _ = (s.posts.set i y).countP (Post.arrivedIn t.barrier.phase)
    rw [hphase]
    exact Nat.add_right_cancel (harrived.trans hset.symm)

/-- **The books after a step that completes the phase**, in which nobody has arrived in the next
one. -/
theorem settle_advanced (h : s.Books) {x y : Post} {t : Team} (hx : s.posts[i]? = some x)
    (hc : ∃ seals late, t.census.Regular seals late) (hy : y.Kept s.team.barrier.phase)
    (hphase : t.barrier.phase = s.team.barrier.phase + 1) (harrived : t.barrier.arrived = 0)
    (hparties : t.barrier.parties + x.present.toNat = s.team.barrier.parties + y.present.toNat) :
    (s.settle i t (.ok y)).Books := by
  refine ⟨hc, fun j post hpost => (h.kept_set hx hy hpost).mono ?_, h.parties_set hx hparties, ?_⟩
  · show _ ≤ t.barrier.phase
    omega
  · refine harrived.trans (List.countP_eq_zero.2 fun post hpost => ?_).symm
    obtain ⟨j, hj⟩ := List.mem_iff_getElem?.1 hpost
    rw [Bool.not_eq_true]
    refine (h.kept_set hx hy hj).arrivedIn_eq_false ?_
    show _ < t.barrier.phase
    omega

/-! ## What each step comes to -/

/-- A member that counts or has counted has not arrived. -/
theorem arrival_eq_none (h : s.Books) {m : Member} (hm : s.posts[i]? = some (.standing m))
    (hp : m.progress = .accumulating ∨ m.progress = .exhausted) : m.arrival = none := by
  obtain ⟨ha, -⟩ | ⟨-, hd⟩ := h.kept i _ hm
  · exact ha
  · rcases hp with hp | hp <;> rw [hp] at hd <;> rcases hd with hd | hd <;> cases hd

/-- **Counting a record** changes the census alone; an open one counts it in time, and stays
open. -/
theorem seat_count (h : s.Books) (m : Member) (r : Record) :
    ∃ c, (s.seat i m (Seat.absorb r) fun _ m => .standing m) =
        s.settle i (s.team.withCensus c) (.ok (.standing m)) ∧
      (∃ seals late, c.Regular seals late) ∧ c.sealed = s.team.census.sealed ∧
      (s.team.census.sealed = false →
        c.meters.lateRecords = s.team.census.meters.lateRecords) := by
  obtain ⟨seals, late, hc⟩ := h.census
  obtain ⟨new, hnew, hw⟩ := Census.works_count (s.team.grouper.keyOf r) _ s.team.census
    s.team.census ⟨.refl hc.sound, hc.healthy⟩
  rcases hrun : (s.team.increment r).run s.team.census with ⟨res, d, ns⟩
  rw [Team.increment, Grouper.payload_eq] at hrun
  rw [hrun] at hnew hw
  obtain rfl : res = .ok new := hnew
  rw [← Grouper.payload_eq] at hrun
  obtain ⟨ns', habsorb⟩ := Seat.run_absorb hrun
  exact ⟨d, seat_eq habsorb, ⟨seals, _, hc.worked hw⟩, hw.steady.mark, hw.steady.punctual⟩

/-- **Asking for a group** changes what has been handed out alone. -/
theorem seat_take (h : s.Books) (m : Member) :
    ∃ g p, (s.seat i m Seat.take fun _ m => .standing m) =
        s.settle i { s.team with grouper := g } (.ok (.standing { m with progress := p })) ∧
      (p = m.progress ∨ p = .done) ∧ (∃ seals late, g.census.Regular seals late) ∧
      g.census.sealed = s.team.census.sealed ∧
      g.census.meters.lateRecords = s.team.census.meters.lateRecords := by
  obtain ⟨seals, late, hc⟩ := h.census
  obtain ⟨answer, g, hnext, hg, hserved⟩ := Grouper.run_next hc
  obtain ⟨p, hrun, hp⟩ := Seat.run_take (m := m) hnext
  exact ⟨g, p, seat_eq hrun, hp, ⟨seals, late, hg⟩, hserved.mark,
    hg.punctual.trans hc.punctual.symm⟩

/-- What somebody who concludes leaves behind is in working order. -/
theorem regular_closed (h : s.Books) (completed : Bool) :
    ∃ seals late, (Team.closed s.team.census completed).Regular seals late := by
  obtain ⟨seals, late, hc⟩ := h.census
  refine ⟨seals, late, ?_⟩
  unfold Team.closed
  split
  · rename_i hn
    refine hc.sealOff ?_
    rw [Bool.and_eq_true] at hn
    rw [hc.mark, Option.isSome_eq_false_iff]
    exact hn.2
  · exact hc

/-- **Whoever arrived goes on**, and seals the census if that is due and nobody has. -/
theorem seat_finish (h : s.Books) (m : Member) (last : Bool) :
    (s.seat i m (Seat.finish last) fun _ m => .standing m) =
      s.settle i (s.team.withCensus (Team.closed s.team.census last))
        (.ok (.standing { m with progress := .draining })) := by
  obtain ⟨ns, hrun⟩ := Seat.run_finish_closed h.healthy m last
  exact seat_eq hrun

/-- **Whoever was given up is gone**, and seals the census if that is due and nobody has. -/
theorem aside_conclude (h : s.Books) (completed : Bool) :
    (s.aside i (Team.conclude completed) fun _ => .gone) =
      s.settle i (s.team.withCensus (Team.closed s.team.census completed)) (.ok .gone) := by
  obtain ⟨ns, hrun⟩ := Team.run_conclude_closed h.healthy completed
  exact aside_eq hrun

/-- **Going back to the start of a pass** clears the census and discards the arrivals. -/
theorem seat_rewind (h : s.Books) (m : Member) :
    (s.seat i m Seat.rewind fun _ m => .standing m) =
      s.settle i ((s.team.withCensus s.team.census.cleared).withBarrier s.team.barrier.wiped)
        (.ok (.standing { scope := m.scope })) := by
  obtain ⟨seals, late, hc⟩ := h.census
  exact seat_eq (Seat.run_rewind hc.sound hc.healthy m)

/-- **Arriving** counts at the barrier, or completes the phase if nobody else is missing. -/
theorem seat_arrive (h : s.Books) {m : Member} (hm : s.posts[i]? = some (.standing m))
    (ha : m.arrival = none) :
    (s.seat i m Seat.arrive fun last m => .arrived m last) =
      let b := s.team.barrier
      if b.arrived + 1 < b.parties then
        s.settle i (s.team.withBarrier { b with arrived := b.arrived + 1 })
          (.ok (.arrived { m with arrival := some b.phase } false))
      else
        s.settle i (s.team.withBarrier { b with arrived := 0, phase := b.phase + 1 })
          (.ok (.arrived { m with arrival := some b.phase } true)) := by
  have hlt := h.arrived_lt hm rfl (Post.arrivedIn_of_missing ha _)
  have hbarrier := Barrier.run_arrive s.team.barrier
  rw [if_neg (Nat.not_le.2 hlt)] at hbarrier
  dsimp only
  split at hbarrier
  · obtain ⟨ns, hrun⟩ := Seat.run_arrive (m := m) hbarrier
    rw [if_pos ‹_›, seat_eq hrun]
  · obtain ⟨ns, hrun⟩ := Seat.run_arrive (m := m) hbarrier
    rw [if_neg ‹_›, seat_eq hrun]

/-- **Leaving the barrier** takes a party off, and an arrival if it was in the phase in progress; it
completes the phase if everybody else has arrived. -/
theorem aside_withdraw (h : s.Books) {m : Member} (hm : s.posts[i]? = some (.standing m)) :
    let b := s.team.barrier
    (∃ n, n + (m.arrival == some b.phase).toNat = b.arrived ∧
      s.aside i (Team.withdraw m.arrival) .leaving =
        s.settle i (s.team.withBarrier { b with parties := b.parties - 1, arrived := n })
          (.ok (.leaving false))) ∨
    ((m.arrival == some b.phase) = false ∧ b.parties - 1 ≤ b.arrived ∧
      s.aside i (Team.withdraw m.arrival) .leaving =
        s.settle i (s.team.withBarrier
            { parties := b.parties - 1, arrived := 0, phase := b.phase + 1 })
          (.ok (.leaving true))) := by
  intro b
  obtain ⟨ns, hrun⟩ := Team.run_withdraw_relieved m.arrival (h.parties_pos hm rfl)
  rw [aside_eq hrun]
  refine (b.relieved_cases (h.arrived_pos hm)).imp ?_ ?_
  · rintro ⟨n, hn, hrelieved⟩
    exact ⟨n, hn, by rw [hrelieved]⟩
  · rintro ⟨hne, hle, hrelieved⟩
    exact ⟨hne, hle, by rw [hrelieved]⟩

/-! ## Each turn keeps the books -/

theorem count (h : s.Books) {m : Member} (hm : s.posts[i]? = some (.standing m)) (r : Record) :
    (s.seat i m (Seat.absorb r) fun _ m => .standing m).Books := by
  obtain ⟨c, heq, hc, -⟩ := h.seat_count (i := i) m r
  have hkept := h.kept i _ hm
  rw [heq]
  exact h.settle hm hc hkept rfl rfl rfl

theorem enter (h : s.Books) {m : Member} (hm : s.posts[i]? = some (.standing m)) (records : Nat) :
    (s.seat i m (Seat.enter records) fun _ m => .standing m).Books := by
  have hkept := h.kept i _ hm
  rw [seat_eq (Seat.run_enter s.team m records)]
  exact h.settle hm h.census hkept rfl rfl rfl

theorem exhaust (h : s.Books) {m : Member} (hm : s.posts[i]? = some (.standing m))
    (hp : m.progress = .accumulating) :
    (s.seat i m Seat.exhaust fun _ m => .standing m).Books := by
  have ha := h.arrival_eq_none hm (Or.inl hp)
  rw [seat_eq (Seat.run_exhaust s.team m)]
  exact h.settle hm h.census (Or.inl ⟨ha, Or.inr rfl⟩) rfl rfl rfl

theorem arrive (h : s.Books) {m : Member} (hm : s.posts[i]? = some (.standing m))
    (hp : m.progress = .exhausted) :
    (s.seat i m Seat.arrive fun last m => .arrived m last).Books := by
  have ha := h.arrival_eq_none hm (Or.inr hp)
  rw [h.seat_arrive hm ha]
  dsimp only
  split
  · refine h.settle hm h.census ⟨_, Nat.le_refl _, rfl⟩ rfl rfl ?_
    rw [Post.arrivedIn_of_missing ha, Post.arrivedIn, beq_self_eq_true]
    rfl
  · exact h.settle_advanced hm h.census ⟨_, Nat.le_refl _, rfl⟩ rfl rfl rfl

theorem finish (h : s.Books) {m : Member} {last : Bool}
    (hm : s.posts[i]? = some (.arrived m last)) :
    (s.seat i m (Seat.finish last) fun _ m => .standing m).Books := by
  rw [h.seat_finish]
  exact h.settle hm (h.regular_closed last) (Or.inr ⟨h.kept i _ hm, Or.inl rfl⟩) rfl rfl rfl

theorem take (h : s.Books) {m : Member} (hm : s.posts[i]? = some (.standing m))
    (hp : m.progress = .draining) :
    (s.seat i m Seat.take fun _ m => .standing m).Books := by
  obtain ⟨g, p, heq, hp', hg, -⟩ := h.seat_take (i := i) m
  rw [heq]
  refine h.settle hm hg (Or.inr ⟨?_, ?_⟩) rfl rfl rfl
  · obtain ⟨-, hd⟩ | ⟨ha, -⟩ := h.kept i _ hm
    · rw [hp] at hd
      rcases hd with hd | hd <;> cases hd
    · exact ha
  · rwa [hp] at hp'

theorem withdraw (h : s.Books) {m : Member} (hm : s.posts[i]? = some (.standing m)) :
    (s.aside i (Team.withdraw m.arrival) .leaving).Books := by
  have hpos := h.parties_pos hm rfl
  obtain ⟨n, hn, heq⟩ | ⟨-, -, heq⟩ := h.aside_withdraw hm
  · rw [heq]
    exact h.settle hm h.census trivial rfl (Nat.sub_add_cancel hpos) hn
  · rw [heq]
    exact h.settle_advanced hm h.census trivial rfl rfl (Nat.sub_add_cancel hpos)

theorem conclude (h : s.Books) {completed : Bool}
    (hx : s.posts[i]? = some (.leaving completed)) :
    (s.aside i (Team.conclude completed) fun _ => .gone).Books := by
  rw [h.aside_conclude]
  exact h.settle hx (h.regular_closed completed) trivial rfl rfl rfl

theorem extend (h : s.Books) (m : Member) : (s.extend m).Books := by
  rw [extend_eq]
  split
  · exact h
  · refine ⟨h.census, fun j post hpost => ?_, ?_, ?_⟩
    · rw [List.getElem?_append] at hpost
      split at hpost
      · exact h.kept j post hpost
      · obtain rfl := List.mem_singleton.1 (List.mem_of_getElem? hpost)
        exact Or.inl ⟨rfl, Or.inl rfl⟩
    · rw [List.countP_append, ← h.parties]
      rfl
    · rw [List.countP_append]
      exact h.arrived

theorem rewind (h : s.Books) {m : Member} (hm : s.posts[i]? = some (.standing m)) :
    (s.seat i m Seat.rewind fun _ m => .standing m).Books := by
  obtain ⟨seals, late, hc⟩ := h.census
  obtain ⟨hfresh, -, -⟩ := hc.sound.fresh_cleared hc.healthy
  rw [h.seat_rewind]
  by_cases hsome : 0 < s.team.barrier.arrived
  · have hwiped : s.team.barrier.wiped =
        { s.team.barrier with arrived := 0, phase := s.team.barrier.phase + 1 } := if_pos hsome
    rw [hwiped]
    exact h.settle_advanced hm ⟨_, _, hfresh.regular⟩ (Or.inl ⟨rfl, Or.inl rfl⟩) rfl rfl rfl
  · have hwiped : s.team.barrier.wiped = s.team.barrier := if_neg hsome
    have hold : (Post.standing m).arrivedIn s.team.barrier.phase = false :=
      Bool.eq_false_iff.2 fun ha => hsome (h.arrived_pos hm (beq_iff_eq.1 ha))
    rw [hwiped]
    refine h.settle hm ⟨_, _, hfresh.regular⟩ (Or.inl ⟨rfl, Or.inl rfl⟩) rfl rfl ?_
    rw [hold]
    rfl

/-- What a squad has counted and answered is no matter of the books. -/
theorem congr (h : s.Books) (counted : List Record) (answers : List (Nat × Taken Record)) :
    Books { s with counted, answers } := ⟨h.census, h.kept, h.parties, h.arrived⟩

/-- **Whatever a member does, the books are right.** -/
theorem act (h : s.Books) (i : Nat) (d : Deed) : (s.act i d).Books := by
  unfold Squad.act
  split
  · split
    · exact h.extend _
    · exact h
  · split
    · exact (h.count ‹_› _).congr _ _
    · exact h
  · split
    · exact h.enter ‹_› _
    · exact h
  · split
    · exact h.exhaust ‹_› ‹_›
    · exact h
  · split
    · exact h.arrive ‹_› ‹_›
    · exact h
  · exact h.finish ‹_›
  · split
    · exact (h.take ‹_› ‹_›).congr _ _
    · exact h
  · exact h.withdraw ‹_›
  · exact h.conclude ‹_›
  · exact h

/-- **Whatever happens to a member, the books are right.** -/
theorem undergo (h : s.Books) (i : Nat) (turn : Turn) : (s.undergo i turn).Books := by
  obtain ⟨d, rfl⟩ | heq | ⟨m, hm, rfl | rfl | rfl⟩ := s.undergo_cases i turn
  · rw [undergo_deed]
    exact h.act i d
  · rw [heq]
    exact h
  · rw [undergo_replicate hm]
    exact h.extend m
  · rw [undergo_rewind hm]
    exact h.rewind hm
  · rw [dismiss_eq hm]
    exact (h.act i .withdraw).act i .conclude

theorem through (h : s.Books) (turns : List (Nat × Turn)) : (s.through turns).Books := by
  induction turns generalizing s with
  | nil => exact h
  | cons turn turns ih => exact ih (h.undergo turn.1 turn.2)

/-- **The books of a family are right**, whatever happens to it. -/
theorem of_family {g : Config} {siblings : Nat} (h : family g siblings = .ok s)
    (turns : List (Nat × Turn)) : (s.through turns).Books :=
  (of_opening (opening_of_family h)).through turns

/-! ## What the barrier answers -/

variable {m : Member}

/-- **A member hands out groups, or has handed out all, if it has an arrival on record.** -/
theorem arrival_isSome_iff (h : s.Books) (hm : s.posts[i]? = some (.standing m)) :
    m.arrival.isSome = true ↔ m.progress = .draining ∨ m.progress = .done := by
  obtain ⟨ha, hp⟩ | ⟨⟨p, -, ha⟩, hd⟩ := h.kept i _ hm
  · rw [ha]
    rcases hp with hp | hp <;> simp [hp]
  · simp [ha, hd]

/-- **Nobody arrives in vain.** -/
theorem result_arrive (h : s.Books) (hm : s.posts[i]? = some (.standing m))
    (ha : m.arrival = none) : ∃ a, (Barrier.arrive.run s.team.barrier).result = .ok a := by
  have hlt := h.arrived_lt hm rfl (Post.arrivedIn_of_missing ha _)
  rw [Barrier.run_arrive, if_neg (Nat.not_le.2 hlt)]
  split <;> exact ⟨_, rfl⟩

/-- **Nobody leaves in vain**, whether or not the member has arrived. -/
theorem result_withdraw (h : s.Books) (hm : s.posts[i]? = some (.standing m)) :
    ∃ completed, ((match m.arrival with
      | some phase => Barrier.deregister phase
      | none => Barrier.leave).run s.team.barrier).result = .ok completed := by
  obtain ⟨ns, hrun⟩ := Team.run_withdraw_relieved m.arrival (h.parties_pos hm rfl)
  refine ⟨(s.team.barrier.relieved m.arrival).1, ?_⟩
  have hresult := congrArg Outcome.result hrun
  cases ha : m.arrival <;> rw [ha] at hresult <;> exact hresult

/-- **Whoever has arrived goes on to hand out groups**, and its arrival stays on record. -/
theorem finish_arrived (h : s.Books) {last : Bool} (hm : s.posts[i]? = some (.arrived m last)) :
    (s.act i .finish).posts[i]? = some (.standing { m with progress := .draining }) ∧
      m.arrival.isSome = true := by
  obtain ⟨hi, -⟩ := List.getElem?_eq_some_iff.1 hm
  obtain ⟨p, -, ha⟩ := h.kept i _ hm
  have hact : s.act i .finish = s.seat i m (Seat.finish last) fun _ m => .standing m := by
    unfold Squad.act
    simp only [hm]
  rw [hact, h.seat_finish]
  exact ⟨List.getElem?_set_self hi, by rw [ha]; rfl⟩

end Books

/-- **The barrier keeps the books of a family whatever happens to it**, in any order, also where
some members start over and run again while others do not. The parties are the members that there
are, and the arrivals those whose recorded arrival is in the phase in progress. A member hands out
groups, or has handed out all, if it has an arrival on record; one that is between arriving and
handing out has one as well. Nobody has broken off: neither arriving nor leaving, with an arrival on
record or without, ever does; and whoever leaves with an arrival in the phase in progress is counted
there. -/
theorem barrier_right {g : Config} {siblings : Nat} (h : family g siblings = .ok s)
    (turns : List (Nat × Turn)) :
    let t := s.through turns
    let b := t.team.barrier
    b.parties = t.posts.countP Post.present ∧
    b.arrived = t.posts.countP (Post.arrivedIn b.phase) ∧
    (∀ (i : Nat) (m : Member), t.posts[i]? = some (.standing m) →
      (m.arrival.isSome = true ↔ m.progress = .draining ∨ m.progress = .done) ∧
      (m.progress = .exhausted → ∃ a, (Barrier.arrive.run b).result = .ok a) ∧
      (m.arrival = none → ∃ completed, (Barrier.leave.run b).result = .ok completed) ∧
      ∀ phase, m.arrival = some phase →
        (∃ completed, ((Barrier.deregister phase).run b).result = .ok completed) ∧
        (phase = b.phase → 0 < b.arrived)) ∧
    (∀ (i : Nat) (m : Member) (last : Bool), t.posts[i]? = some (.arrived m last) →
      (t.act i .finish).posts[i]? = some (.standing { m with progress := .draining }) ∧
        m.arrival.isSome = true) ∧
    ∀ (i : Nat) (e : Fault), t.posts[i]? ≠ some (.broken e) := by
  intro t b
  have hbooks : t.Books := .of_family h turns
  refine ⟨hbooks.parties, hbooks.arrived, fun i m hm => ?_, fun i m last hm =>
    hbooks.finish_arrived hm, fun i e hx => hbooks.kept i _ hx⟩
  have hleave := hbooks.result_withdraw hm
  refine ⟨hbooks.arrival_isSome_iff hm, fun hp => ?_, fun ha => ?_, fun phase ha => ⟨?_, ?_⟩⟩
  · exact hbooks.result_arrive hm (hbooks.arrival_eq_none hm (.inr hp))
  · rwa [ha] at hleave
  · rwa [ha] at hleave
  · rintro rfl
    exact hbooks.arrived_pos hm ha

/-- Of two members that have handed out groups one starts over and arrives again; what the other has
on record is then an arrival in the phase before, with which it can still leave. -/
theorem barrier_right_stale :
    let turns : List (Nat × Turn) := [(0, .deed .exhaust), (0, .deed .arrive), (0, .deed .finish),
      (1, .deed .exhaust), (1, .deed .arrive), (1, .deed .finish), (0, .rewind),
      (0, .deed .exhaust), (0, .deed .arrive), (0, .deed .finish)]
    ∃ s m, family { keyFields := ["id"], shards := 2 } 1 = .ok s ∧
      (s.through turns).posts[1]? = some (.standing m) ∧ m.arrival = some 0 ∧
      (s.through turns).team.barrier = { parties := 2, arrived := 1, phase := 1 } ∧
      (s.through turns).posts.countP (Post.arrivedIn 1) = 1 ∧
      ∃ completed,
        ((Barrier.deregister 0).run (s.through turns).team.barrier).result = .ok completed := by
  intro turns
  have hrun : ((family { keyFields := ["id"], shards := 2 } 1).map fun s =>
      let t := s.through turns
      (t.team.barrier, t.posts[1]?.bind fun post => match post with
        | .standing m => m.arrival
        | .arrived .. => none
        | _ => none)).toOption =
      some ({ parties := 2, arrived := 1, phase := 1 }, some 0) := by decide +kernel
  cases h : family { keyFields := ["id"], shards := 2 } 1 with
  | error e =>
    rw [h] at hrun
    cases hrun
  | ok s =>
    rw [h] at hrun
    obtain ⟨hbarrier, hstale⟩ := Prod.mk.inj (Option.some.inj hrun)
    obtain ⟨post, hpost, harrival⟩ := Option.bind_eq_some_iff.1 hstale
    cases post with
    | standing m =>
      obtain ⟨-, harrived, hstanding, -⟩ := barrier_right h turns
      rw [hbarrier] at harrived
      exact ⟨s, m, rfl, hpost, harrival, hbarrier, harrived.symm,
        ((hstanding 1 m hpost).2.2.2 0 harrival).1⟩
    | arrived m last => cases harrival
    | leaving completed => cases harrival
    | gone => cases harrival
    | broken e => cases harrival

end Squad

end Muster
