import Muster.Proofs.Census.Regular
import Muster.Proofs.Replacing
import Muster.Proofs.Squad.Seats

/-!
# Proofs/Squad/Once — a squad seals its census once

In a pass a squad is in one of two stages (`Squad.Stage`). While it gathers, somebody has not
arrived, and the barrier counts those who have. It closes when the barrier moves on: then everybody
who is left has arrived, and either one post has the seal still to do, or the census is sealed. An
arrival that is taken back and a departure without arrival keep a squad in its stage or bring it
from the first to the second.

* `Squad.Running` — the invariant of a pass.
* `Squad.sealed_once` — what it says of any schedule.
-/

namespace Muster

/-! ## The census of a pass -/

/-- A seal that is due keeps an open census regular. -/
theorem Census.Regular.concluded {c : Census} {seals late : Nat} (h : c.Regular seals late)
    {completed : Bool} (ho : completed = true → c.sealed = false) :
    (Team.concluded c completed).Regular seals late := by
  cases completed with
  | false => exact h
  | true => exact h.sealOff (ho rfl)

/-! ## Stages -/

/-- What a member's books say of its progress, given the phase of the pass. -/
def Post.Sane (phase : Nat) : Post → Prop
  | .standing m =>
    (m.arrival = none ∧ (m.progress = .accumulating ∨ m.progress = .exhausted)) ∨
      (m.arrival = some phase ∧ (m.progress = .draining ∨ m.progress = .done))
  | .arrived m _ => m.arrival = some phase
  | .broken _ => False
  | _ => True

namespace Squad

variable {s : Squad} {i phase seals late : Nat}

/-- **The stage of a pass**, given the barrier, whether the census is sealed, and how many members
there are, how many have arrived, and how many posts have the seal to do. -/
def Stage (phase : Nat) (b : Barrier) (mark : Bool) (present arrived due : Nat) : Prop :=
  b.parties = present ∧
    ((b.phase = phase ∧ b.arrived = arrived ∧ arrived < present ∧ due = 0 ∧ mark.toNat = 0) ∨
      (b.phase = phase + 1 ∧ b.arrived = 0 ∧ arrived = present ∧ due + mark.toNat = 1))

theorem Stage.gathers {b : Barrier} {mark : Bool} {present arrived due : Nat}
    (hparties : b.parties = present) (hphase : b.phase = phase) (harrived : b.arrived = arrived)
    (hlt : arrived < present) (hdue : due = 0) (hm : mark = false) :
    Stage phase b mark present arrived due := by
  refine ⟨hparties, Or.inl ⟨hphase, harrived, hlt, hdue, ?_⟩⟩
  rw [hm]
  rfl

theorem Stage.closes {b : Barrier} {mark : Bool} {present arrived due : Nat}
    (hparties : b.parties = present) (hphase : b.phase = phase + 1) (hnone : b.arrived = 0)
    (harrived : arrived = present) (hdue : due + mark.toNat = 1) :
    Stage phase b mark present arrived due :=
  ⟨hparties, Or.inr ⟨hphase, hnone, harrived, hdue⟩⟩

/-- The stage of a squad. -/
def AtStage (phase : Nat) (t : Team) (posts : List Post) : Prop :=
  Stage phase t.barrier t.census.sealed (posts.countP Post.present) (posts.countP Post.hasArrived)
    (posts.countP Post.due)

/-- **The invariant of a pass.** -/
structure Running (phase seals late : Nat) (s : Squad) : Prop where
  census : s.team.census.Regular seals late
  sane (j : Nat) (post : Post) : s.posts[j]? = some post → post.Sane phase
  stage : AtStage phase s.team s.posts

theorem Opening.running (h : s.Opening) :
    s.Running s.team.barrier.phase s.team.census.seals s.team.census.meters.lateRecords := by
  have hposts : ∀ post ∈ s.posts, post.hasArrived = false ∧ post.due = false := by
    intro post hpost
    obtain rfl | ⟨m, rfl, -, ha⟩ := h.posts post hpost
    · exact ⟨rfl, rfl⟩
    · refine ⟨?_, rfl⟩
      rw [Post.hasArrived, ha]
      rfl
  have harrived : s.posts.countP Post.hasArrived = 0 :=
    List.countP_eq_zero.2 fun post hpost => by simp [(hposts post hpost).1]
  have hdue : s.posts.countP Post.due = 0 :=
    List.countP_eq_zero.2 fun post hpost => by simp [(hposts post hpost).2]
  refine ⟨h.census.regular, fun j post hpost => ?_, h.parties, Or.inl ⟨rfl, ?_, ?_, hdue, ?_⟩⟩
  · obtain rfl | ⟨m, rfl, hp, ha⟩ := h.posts post (List.mem_of_getElem? hpost)
    · trivial
    · exact Or.inl ⟨ha, Or.inl hp⟩
  · rw [harrived, h.arrived]
  · rw [harrived]
    exact h.present
  · rw [h.census.mark]
    rfl

/-- Only members arrive. -/
theorem countP_hasArrived_le (posts : List Post) :
    posts.countP Post.hasArrived ≤ posts.countP Post.present := by
  refine List.countP_mono_left fun post _ hpost => ?_
  cases post with
  | standing | arrived => rfl
  | leaving | gone | broken => cases hpost

/-- **While a member has not arrived, the squad gathers.** -/
theorem Running.gathering (h : s.Running phase seals late) {m : Member}
    (hm : s.posts[i]? = some (.standing m)) (ha : m.arrival = none) :
    s.team.barrier.phase = phase ∧ s.team.barrier.arrived = s.posts.countP Post.hasArrived ∧
      s.posts.countP Post.hasArrived < s.posts.countP Post.present ∧
        s.posts.countP Post.due = 0 ∧ s.team.census.sealed = false := by
  have hpresent := countP_set_add hm .gone Post.present
  have harrived := countP_set_add hm .gone Post.hasArrived
  have hle := countP_hasArrived_le (s.posts.set i .gone)
  simp only [Post.present, Post.hasArrived, ha, Bool.toNat_true, Bool.toNat_false,
    Option.isSome_none] at hpresent harrived
  obtain ⟨-, ⟨hphase, harr, hlt, hdue, hmark⟩ | ⟨-, -, heq, -⟩⟩ := h.stage
  · refine ⟨hphase, harr, hlt, hdue, ?_⟩
    cases hs : s.team.census.sealed with
    | false => rfl
    | true =>
      rw [hs] at hmark
      cases hmark
  · omega

/-- **Whoever has the seal to do finds the census open.** -/
theorem Running.open_of_due (h : s.Running phase seals late) {post : Post}
    (hpost : s.posts[i]? = some post) (hd : post.due = true) : s.team.census.sealed = false := by
  have hpos : 0 < s.posts.countP Post.due :=
    List.countP_pos_iff.2 ⟨post, List.mem_of_getElem? hpost, hd⟩
  obtain ⟨-, ⟨-, -, -, hdue, -⟩ | ⟨-, -, -, hdue⟩⟩ := h.stage
  · omega
  · cases hs : s.team.census.sealed with
    | false => rfl
    | true =>
      rw [hs, Bool.toNat_true] at hdue
      omega

/-! ## Steps -/

theorem seat_eq {α : Type} {m m' : Member} {call : Call Seat α} {place : α → Member → Post}
    {a : α} {t : Team} {ns : List Notice} (h : call.run ⟨s.team, m⟩ = ⟨.ok a, ⟨t, m'⟩, ns⟩) :
    s.seat i m call place = s.settle i t (.ok (place a m')) := by
  simp only [seat, h]
  rfl

theorem aside_eq {α : Type} {call : Call Team α} {place : α → Post} {a : α} {t : Team}
    {ns : List Notice} (h : call.run s.team = ⟨.ok a, t, ns⟩) :
    s.aside i call place = s.settle i t (.ok (place a)) := by
  simp only [aside, h]
  rfl

/-- **The invariant after a step**, given what the step did. -/
theorem Running.settle (h : s.Running phase seals late) {x y : Post} {t : Team}
    (hx : s.posts[i]? = some x) (hc : t.census.Regular seals late) (hy : y.Sane phase)
    (hs : ∀ present arrived due,
      present + x.present.toNat = s.posts.countP Post.present + y.present.toNat →
      arrived + x.hasArrived.toNat = s.posts.countP Post.hasArrived + y.hasArrived.toNat →
      due + x.due.toNat = s.posts.countP Post.due + y.due.toNat →
      Stage phase t.barrier t.census.sealed present arrived due) :
    (s.settle i t (.ok y)).Running phase seals late where
  census := hc
  sane j post hpost := by
    obtain ⟨-, rfl⟩ | ⟨-, hpost'⟩ := getElem?_set_cases hx hpost
    · exact hy
    · exact h.sane j post hpost'
  stage := hs _ _ _ (countP_set_add hx y _) (countP_set_add hx y _) (countP_set_add hx y _)

/-- A step that changes nothing of the stage. -/
theorem Running.settle_aside (h : s.Running phase seals late) {x y : Post} {t : Team}
    (hx : s.posts[i]? = some x) (hc : t.census.Regular seals late) (hy : y.Sane phase)
    (hb : t.barrier = s.team.barrier) (hm : t.census.sealed = s.team.census.sealed)
    (hpresent : y.present = x.present) (harrived : y.hasArrived = x.hasArrived)
    (hdue : y.due = x.due) : (s.settle i t (.ok y)).Running phase seals late := by
  refine h.settle hx hc hy fun present arrived due hp ha hd => ?_
  rw [hpresent] at hp
  rw [harrived] at ha
  rw [hdue] at hd
  rw [hb, hm, Nat.add_right_cancel hp, Nat.add_right_cancel ha, Nat.add_right_cancel hd]
  exact h.stage

/-- Whoever has not handed anything out yet has not arrived. -/
theorem Running.arrival_eq_none (h : s.Running phase seals late) {m : Member}
    (hm : s.posts[i]? = some (.standing m))
    (hp : m.progress = .accumulating ∨ m.progress = .exhausted) : m.arrival = none := by
  obtain ⟨ha, -⟩ | ⟨-, hd⟩ := h.sane i _ hm
  · exact ha
  · rcases hp with hp | hp <;> rw [hp] at hd <;> rcases hd with hd | hd <;> cases hd

/-- **Being replicated** adds a member while the squad gathers, or nobody. -/
theorem Running.extend (h : s.Running phase seals late) {m : Member}
    (hm : s.posts[i]? = some (.standing m)) (ha : m.arrival = none) :
    (s.extend m).Running phase seals late := by
  obtain ⟨hphase, harrived, hlt, hdue, ho⟩ := h.gathering hm ha
  have hparties := h.stage.1
  have hregister := Barrier.run_register s.team.barrier
  have hextend : ∀ {b : Barrier} {r : Except Fault Unit} {ns : List Notice},
      Barrier.register.run s.team.barrier = ⟨r, b, ns⟩ →
        s.extend m = { s with team := s.team.withBarrier b, posts := s.posts ++ sibling m r } := by
    intro b r ns hr
    simp only [Squad.extend, Team.onBarrier, Call.run_within, hr]
    rfl
  split at hregister
  · rw [hextend hregister]
    simp only [sibling, List.append_nil]
    exact ⟨h.census, h.sane, h.stage⟩
  split at hregister
  · rw [hextend hregister]
    simp only [sibling, List.append_nil]
    exact ⟨h.census, h.sane, h.stage⟩
  · rw [hextend hregister]
    refine ⟨h.census, fun j post hpost => ?_, ?_⟩
    · rw [List.getElem?_append] at hpost
      split at hpost
      · exact h.sane j post hpost
      · obtain rfl := List.mem_singleton.1 (List.mem_of_getElem? hpost)
        exact Or.inl ⟨rfl, Or.inl rfl⟩
    · have hnew : Post.hasArrived (.standing { scope := m.scope }) = false := rfl
      simp only [AtStage, Stage, sibling, List.countP_append, List.countP_singleton, Post.present,
        hnew, Post.due, Team.barrier_withBarrier, Team.census_withBarrier, ho, Bool.toNat_false,
        if_true, Bool.false_eq_true, if_false]
      exact ⟨by omega, Or.inl ⟨hphase, by omega, by omega, by omega, trivial⟩⟩

/-- Whoever hands groups out has arrived. -/
theorem Running.arrival_eq_some (h : s.Running phase seals late) {m : Member}
    (hm : s.posts[i]? = some (.standing m)) (hp : m.progress = .draining) :
    m.arrival = some phase := by
  obtain ⟨-, hd⟩ | ⟨ha, -⟩ := h.sane i _ hm
  · rw [hp] at hd
    rcases hd with hd | hd <;> cases hd
  · exact ha

/-- **Counting** happens while the squad gathers, so that it is never late. -/
theorem Running.count (h : s.Running phase seals late) {m : Member}
    (hm : s.posts[i]? = some (.standing m)) (hp : m.progress = .accumulating) (r : Record) :
    (s.seat i m (Seat.absorb r) fun _ m => .standing m).Running phase seals late := by
  have ha := h.arrival_eq_none hm (Or.inl hp)
  obtain ⟨-, -, -, -, ho⟩ := h.gathering hm ha
  obtain ⟨new, hnew, hw⟩ := Census.works_count (s.team.grouper.keyOf r) _ s.team.census
    s.team.census ⟨.refl h.census.sound, h.census.healthy⟩
  rcases hrun : (s.team.increment r).run s.team.census with ⟨res, d, ns⟩
  rw [Team.increment, Grouper.payload_eq] at hrun
  rw [hrun] at hnew hw
  obtain rfl : res = .ok new := hnew
  rw [← Grouper.payload_eq] at hrun
  obtain ⟨ns', habsorb⟩ := Seat.run_absorb hrun
  rw [seat_eq habsorb]
  refine h.settle_aside hm (h.census.working ho hw) (Or.inl ⟨ha, Or.inl hp⟩) rfl hw.steady.mark rfl
    rfl rfl

theorem Running.enter (h : s.Running phase seals late) {m : Member}
    (hm : s.posts[i]? = some (.standing m)) (hp : m.progress = .accumulating) (records : Nat) :
    (s.seat i m (Seat.enter records) fun _ m => .standing m).Running phase seals late := by
  have ha := h.arrival_eq_none hm (Or.inl hp)
  rw [seat_eq (Seat.run_enter s.team m records)]
  exact h.settle_aside hm h.census (Or.inl ⟨ha, Or.inl hp⟩) rfl rfl rfl rfl rfl

theorem Running.exhaust (h : s.Running phase seals late) {m : Member}
    (hm : s.posts[i]? = some (.standing m)) (hp : m.progress = .accumulating) :
    (s.seat i m Seat.exhaust fun _ m => .standing m).Running phase seals late := by
  have ha := h.arrival_eq_none hm (Or.inl hp)
  rw [seat_eq (Seat.run_exhaust s.team m)]
  exact h.settle_aside hm h.census (Or.inl ⟨ha, Or.inr rfl⟩) rfl rfl rfl rfl rfl

/-- The invariant after a member has arrived, given the stage. -/
theorem Running.settle_arrived (h : s.Running phase seals late) {m m' : Member} {b : Barrier}
    {last : Bool} (hm : s.posts[i]? = some (.standing m)) (ha : m.arrival = none)
    (ha' : m'.arrival = some phase)
    (hs : Stage phase b s.team.census.sealed (s.posts.countP Post.present)
      (s.posts.countP Post.hasArrived + 1) (s.posts.countP Post.due + last.toNat)) :
    (s.settle i (s.team.withBarrier b) (.ok (.arrived m' last))).Running phase seals late := by
  refine h.settle hm h.census ha' fun present arrived due hp harrived hd => ?_
  simp only [Post.hasArrived, Post.due, ha, Option.isSome_none, Bool.toNat_true, Bool.toNat_false,
    Nat.add_zero] at harrived hd
  rw [Nat.add_right_cancel hp, harrived, hd]
  exact hs

/-- **Arriving** counts at the barrier, or brings the squad to close. -/
theorem Running.arrive (h : s.Running phase seals late) {m : Member}
    (hm : s.posts[i]? = some (.standing m)) (hp : m.progress = .exhausted) :
    (s.seat i m Seat.arrive fun last m => .arrived m last).Running phase seals late := by
  have ha := h.arrival_eq_none hm (Or.inr hp)
  obtain ⟨hphase, harrived, hlt, hdue, ho⟩ := h.gathering hm ha
  have hparties := h.stage.1
  have hbarrier := Barrier.run_arrive s.team.barrier
  have hroom : ¬s.team.barrier.parties ≤ s.team.barrier.arrived := by omega
  rw [if_neg hroom, hphase] at hbarrier
  split at hbarrier <;> rename_i hmissing
  · -- somebody else is missing
    obtain ⟨ns, hrun⟩ := Seat.run_arrive (m := m) hbarrier
    rw [seat_eq hrun]
    refine h.settle_arrived hm ha rfl (.gathers hparties rfl ?_ ?_ hdue ho)
    · exact congrArg (· + 1) harrived
    · omega
  · -- the phase is complete, and the seal falls to this member
    obtain ⟨ns, hrun⟩ := Seat.run_arrive (m := m) hbarrier
    rw [seat_eq hrun]
    refine h.settle_arrived hm ha rfl (.closes hparties rfl rfl ?_ ?_)
    · omega
    · rw [hdue, ho]
      rfl

/-- The stage once the seal that was due has been done. -/
theorem Running.stage_concluded (h : s.Running phase seals late) {x : Post}
    (hx : s.posts[i]? = some x) {present arrived due : Nat}
    (hpresent : present + x.present.toNat = s.posts.countP Post.present + x.present.toNat)
    (harrived : arrived + x.hasArrived.toNat =
      s.posts.countP Post.hasArrived + x.hasArrived.toNat)
    (hdue : due + x.due.toNat = s.posts.countP Post.due) :
    Stage phase s.team.barrier (Team.concluded s.team.census x.due).sealed present arrived due := by
  have hopen := h.open_of_due hx
  have hs := h.stage
  cases hd : x.due with
  | false =>
    rw [hd, Bool.toNat_false, Nat.add_zero] at hdue
    rw [Nat.add_right_cancel hpresent, Nat.add_right_cancel harrived, hdue]
    exact hs
  | true =>
    rw [hd] at hdue
    simp only [AtStage, Stage, hopen hd, Bool.toNat_true, Bool.toNat_false] at hs hdue
    have hmark : (Team.concluded s.team.census true).sealed = true := rfl
    simp only [Stage, hmark, Bool.toNat_true]
    omega

/-- What going on does, and what being gone does: the seal that was due is done. -/
theorem Running.seat_finish (h : s.Running phase seals late) {m : Member} {last : Bool}
    (hm : s.posts[i]? = some (.arrived m last)) :
    (s.seat i m (Seat.finish last) fun _ m => .standing m) =
      s.settle i (s.team.withCensus (Team.concluded s.team.census last))
        (.ok (.standing { m with progress := .draining })) := by
  have hopen : last = true → s.team.census.sealed = false := h.open_of_due hm
  obtain ⟨ns, hrun⟩ := Seat.run_finish (m := m) h.census.healthy fun hl =>
    h.census.handOff_eq_none (hopen hl)
  exact seat_eq hrun

theorem Running.aside_conclude (h : s.Running phase seals late) {completed : Bool}
    (hx : s.posts[i]? = some (.leaving completed)) :
    (s.aside i (Team.conclude completed) fun _ => .gone) =
      s.settle i (s.team.withCensus (Team.concluded s.team.census completed)) (.ok .gone) := by
  have hopen : completed = true → s.team.census.sealed = false := h.open_of_due hx
  obtain ⟨ns, hrun⟩ := Team.run_conclude h.census.healthy fun hl =>
    h.census.handOff_eq_none (hopen hl)
  exact aside_eq hrun

/-- **Whoever arrived goes on**, after sealing the census if that was due. -/
theorem Running.finish (h : s.Running phase seals late) {m : Member} {last : Bool}
    (hm : s.posts[i]? = some (.arrived m last)) :
    (s.seat i m (Seat.finish last) fun _ m => .standing m).Running phase seals late := by
  have ha : m.arrival = some phase := h.sane i _ hm
  rw [h.seat_finish hm]
  refine h.settle hm (h.census.concluded (h.open_of_due hm)) (Or.inr ⟨ha, Or.inl rfl⟩)
    fun present arrived due hp ha' hd => ?_
  simp only [Post.hasArrived, ha, Option.isSome_some] at ha'
  exact h.stage_concluded hm hp ha' hd

/-- **Whoever was given up is gone**, after sealing the census if that was due. -/
theorem Running.conclude (h : s.Running phase seals late) {completed : Bool}
    (hx : s.posts[i]? = some (.leaving completed)) :
    (s.aside i (Team.conclude completed) fun _ => .gone).Running phase seals late := by
  rw [h.aside_conclude hx]
  exact h.settle hx (h.census.concluded (h.open_of_due hx)) trivial fun _ _ _ hp ha hd =>
    h.stage_concluded hx hp ha hd

/-- The invariant after a member has left the barrier, given the stage. -/
theorem Running.settle_leaving (h : s.Running phase seals late) {m : Member} {b : Barrier}
    {completed : Bool} (hm : s.posts[i]? = some (.standing m))
    (hs : ∀ present arrived, present + 1 = s.posts.countP Post.present →
      arrived + m.arrival.isSome.toNat = s.posts.countP Post.hasArrived →
      Stage phase b s.team.census.sealed present arrived
        (s.posts.countP Post.due + completed.toNat)) :
    (s.settle i (s.team.withBarrier b) (.ok (.leaving completed))).Running phase seals late := by
  refine h.settle hm h.census trivial fun present arrived due hp ha hd => ?_
  simp only [Post.present, Post.hasArrived, Post.due, Bool.toNat_true, Bool.toNat_false,
    Nat.add_zero] at hp ha hd
  rw [hd]
  exact hs present arrived hp ha

/-- **Being given up before arriving** brings the squad to close if the others only waited. -/
theorem Running.withdraw_early (h : s.Running phase seals late) {m : Member}
    (hm : s.posts[i]? = some (.standing m)) (ha : m.arrival = none) :
    (s.aside i (Team.withdraw none) .leaving).Running phase seals late := by
  obtain ⟨hphase, harrived, hlt, hdue, ho⟩ := h.gathering hm ha
  have hparties := h.stage.1
  have hbarrier := Barrier.run_leave s.team.barrier
  rw [if_neg (by omega), Barrier.run_tryAdvance] at hbarrier
  split at hbarrier <;> rename_i hmissing <;> dsimp only at hmissing
  · -- somebody else is missing
    rw [aside_eq (Team.run_withdraw none hbarrier)]
    refine h.settle_leaving hm fun present arrived hp ha' => ?_
    rw [ha, Option.isSome_none, Bool.toNat_false] at ha'
    have hleft : s.team.barrier.parties - 1 = present := by omega
    have hhere : s.team.barrier.arrived = arrived := by omega
    exact .gathers hleft hphase hhere (by omega) hdue ho
  · -- the others only waited
    rw [aside_eq (Team.run_withdraw none hbarrier)]
    refine h.settle_leaving hm fun present arrived hp ha' => ?_
    rw [ha, Option.isSome_none, Bool.toNat_false] at ha'
    have hleft : s.team.barrier.parties - 1 = present := by omega
    have hall : arrived = present := by omega
    refine .closes hleft (congrArg (· + 1) hphase) rfl hall ?_
    rw [hdue, ho]
    rfl

/-- **Being given up after arriving** takes the arrival back, unless the squad has closed. -/
theorem Running.withdraw_arrived (h : s.Running phase seals late) {m : Member}
    (hm : s.posts[i]? = some (.standing m)) (ha : m.arrival = some phase) :
    (s.aside i (Team.withdraw (some phase)) .leaving).Running phase seals late := by
  have hmember : 0 < s.posts.countP Post.present :=
    List.countP_pos_iff.2 ⟨_, List.mem_of_getElem? hm, rfl⟩
  have hparties := h.stage.1
  have hbarrier := Barrier.run_deregister s.team.barrier phase
  rw [if_neg (by omega)] at hbarrier
  obtain ⟨-, ⟨hphase, harrived, hlt, hdue, hmark⟩ | ⟨hphase, harrived, heq, hdue⟩⟩ := h.stage
  · rw [if_pos hphase] at hbarrier
    rw [aside_eq (Team.run_withdraw (some phase) hbarrier)]
    refine h.settle_leaving hm fun present arrived hp ha' => ?_
    rw [ha, Option.isSome_some, Bool.toNat_true] at ha'
    have hleft : s.team.barrier.parties - 1 = present := by omega
    have hhere : s.team.barrier.arrived - 1 = arrived := by omega
    exact .gathers hleft hphase hhere (by omega) hdue (Bool.toNat_eq_zero.1 hmark)
  · rw [if_neg (by omega), if_pos harrived] at hbarrier
    rw [aside_eq (Team.run_withdraw (some phase) hbarrier)]
    refine h.settle_leaving hm fun present arrived hp ha' => ?_
    rw [ha, Option.isSome_some, Bool.toNat_true] at ha'
    have hleft : s.team.barrier.parties - 1 = present := by omega
    exact .closes hleft hphase harrived (by omega) hdue

/-- **Being given up** takes a member off the barrier, whether or not it has arrived. -/
theorem Running.withdraw (h : s.Running phase seals late) {m : Member}
    (hm : s.posts[i]? = some (.standing m)) :
    (s.aside i (Team.withdraw m.arrival) .leaving).Running phase seals late := by
  obtain ⟨ha, -⟩ | ⟨ha, -⟩ := h.sane i _ hm
  · rw [ha]
    exact h.withdraw_early hm ha
  · rw [ha]
    exact h.withdraw_arrived hm ha

/-- **Asking for a group** changes what has been handed out alone. -/
theorem Running.ask (h : s.Running phase seals late) {m : Member}
    (hm : s.posts[i]? = some (.standing m)) (hp : m.progress = .draining) :
    (s.seat i m Seat.take fun _ m => .standing m).Running phase seals late := by
  have ha := h.arrival_eq_some hm hp
  obtain ⟨answer, g, hnext, hg, hserved⟩ := Grouper.run_next h.census
  obtain ⟨p, hrun, hp'⟩ := Seat.run_take (m := m) hnext
  rw [seat_eq hrun]
  have hprogress : p = .draining ∨ p = .done := by rwa [hp] at hp'
  exact h.settle_aside hm hg (Or.inr ⟨ha, hprogress⟩) rfl hserved.mark rfl rfl rfl

/-- **Whatever a member does, the invariant of the pass holds.** -/
theorem Running.act (h : s.Running phase seals late) (i : Nat) (d : Deed) :
    (s.act i d).Running phase seals late := by
  unfold Squad.act
  split
  · split
    · exact h.extend ‹_› ‹_›
    · exact h
  · rename_i m r hm
    split
    · have hr := h.count hm ‹_› r
      exact ⟨hr.census, hr.sane, hr.stage⟩
    · exact h
  · split
    · exact h.enter ‹_› ‹_› _
    · exact h
  · split
    · exact h.exhaust ‹_› ‹_›
    · exact h
  · split
    · exact h.arrive ‹_› ‹_›
    · exact h
  · exact h.finish ‹_›
  · split
    · have hr := h.ask ‹_› ‹_›
      exact ⟨hr.census, hr.sane, hr.stage⟩
    · exact h
  · exact h.withdraw ‹_›
  · exact h.conclude ‹_›
  · exact h

theorem Running.after (h : s.Running phase seals late) (schedule : List (Nat × Deed)) :
    (s.after schedule).Running phase seals late := by
  induction schedule generalizing s with
  | nil => exact h
  | cons d schedule ih => exact ih (h.act d.1 d.2)

/-! ## What holds of a pass -/

/-- **A pass of a squad, at any time**: the seal takes effect at most once, and not while a member
has not arrived; no increment is late, and nobody breaks off; and once every member has arrived or
been given up and nobody has the seal still to do, the census is sealed, so that nobody who asks for
a group has to wait. -/
structure SealedOnce (s t : Squad) : Prop where
  seals : t.team.census.seals = s.team.census.seals + t.team.census.sealed.toNat
  all_arrived : t.team.census.sealed = true →
    ∀ post ∈ t.posts, post.present = true → post.hasArrived = true
  punctual : t.team.census.meters.lateRecords = s.team.census.meters.lateRecords
  unbroken (e : Fault) : .broken e ∉ t.posts
  released : (∀ post ∈ t.posts, post.present = true → post.hasArrived = true) →
    (∀ post ∈ t.posts, post.due = false) →
    t.team.census.sealed = true ∧
      Grouper.awaitFinish.run t.team.grouper = ⟨.ok true, t.team.grouper, []⟩ ∧
      ∀ a, (Grouper.next.run t.team.grouper).result = .ok a → a ≠ .waiting

/-- **Once every member has arrived or been given up and nobody has the seal still to do**, the
census is sealed. -/
theorem Running.sealed_of_arrived (h : s.Running phase seals late)
    (harrived : ∀ post ∈ s.posts, post.present = true → post.hasArrived = true)
    (hdue : ∀ post ∈ s.posts, post.due = false) : s.team.census.sealed = true := by
  have hcount : s.posts.countP Post.present ≤ s.posts.countP Post.hasArrived :=
    List.countP_mono_left harrived
  have hnone : s.posts.countP Post.due = 0 :=
    List.countP_eq_zero.2 fun post hpost => by simp [hdue post hpost]
  cases hs : s.team.census.sealed with
  | true => rfl
  | false =>
    have hstage := h.stage
    simp only [AtStage, Stage, hs, hnone, Bool.toNat_false] at hstage
    omega

theorem Running.sealedOnce {t : Squad}
    (h : t.Running phase s.team.census.seals s.team.census.meters.lateRecords) :
    s.SealedOnce t where
  seals := h.census.seals_eq
  all_arrived hs post hpost hp := by
    obtain ⟨j, hj⟩ := List.mem_iff_getElem?.1 hpost
    cases post with
    | standing m =>
      cases ha : m.arrival with
      | some p =>
        rw [Post.hasArrived, ha]
        rfl
      | none =>
        obtain ⟨-, -, -, -, ho⟩ := h.gathering hj ha
        exact absurd (hs.symm.trans ho) (by simp)
    | arrived m last => rfl
    | leaving | gone | broken => cases hp
  punctual := h.census.punctual
  unbroken e he := by
    obtain ⟨j, hj⟩ := List.mem_iff_getElem?.1 he
    exact h.sane j _ hj
  released harrived hdue := by
    have hs := h.sealed_of_arrived harrived hdue
    have hsome : t.team.census.handOff.isSome = true := h.census.mark.symm.trans hs
    refine ⟨hs, ?_, fun a ha => ?_⟩
    · have hwait : Census.awaitSeal.run t.team.grouper.census =
          ⟨.ok true, t.team.grouper.census, []⟩ := by
        rw [← hsome]
        exact Census.run_awaitSeal h.census.healthy
      rw [Grouper.awaitFinish, Grouper.run_onCensus, hwait]
    · obtain ⟨answer, g, hnext, -, hserved⟩ := Grouper.run_next h.census
      rw [hnext] at ha
      rintro rfl
      obtain rfl := Except.ok.inj ha
      have hnone : t.team.census.remaining = none := hserved.leaves.1
      rw [Census.remaining, Option.map_eq_none_iff] at hnone
      rw [hnone] at hsome
      cases hsome

/-- **A squad seals its census exactly once in a pass**, whatever its members do and in whatever
order, and however many of them are given up on the way. -/
theorem sealed_once (h : s.Opening) (schedule : List (Nat × Deed)) :
    s.SealedOnce (s.after schedule) := (h.running.after schedule).sealedOnce

/-- A family of two, and one who is replicated from it: one is given up while it waits for the
others, and one while they wait for it. -/
theorem sealed_once_deserted :
    ∃ s, family { keyFields := ["id"], shards := 2 } 1 = .ok s ∧
      s.SealedOnce (s.after [(0, .replicate), (0, .count (.field "id" (.int 1) .empty)),
        (1, .exhaust), (1, .arrive), (1, .finish), (0, .enter 1), (0, .exhaust), (1, .withdraw),
        (0, .arrive), (0, .finish), (0, .take), (2, .withdraw), (2, .conclude), (1, .conclude),
        (0, .take), (0, .take)]) := by
  cases h : family { keyFields := ["id"], shards := 2 } 1 with
  | ok s => exact ⟨s, rfl, sealed_once (opening_of_family h) _⟩
  | error e =>
    have hok : (family { keyFields := ["id"], shards := 2 } 1).toBool = true := by decide +kernel
    rw [h] at hok
    cases hok

end Squad

end Muster
