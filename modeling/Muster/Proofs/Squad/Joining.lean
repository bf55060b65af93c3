import Muster.Proofs.Squad.Books

/-!
# Proofs/Squad/Joining — when a squad can be joined

A member that is replicated brings in another one, unless somebody has arrived in the phase in
progress (`Squad.Refuses`). While a pass gathers this keeps the squad closed to newcomers once a
member has arrived. But the last arrival moves the barrier on to the next phase, in which nobody has
arrived; from then on the squad can be joined again, although all its members hand out groups, and
what a newcomer counts is late (`Squad.joined_late`).

Where nobody is replicated in that moment, and nobody starts over between the completion of a phase
and its seal (`Squad.Timely`), no record is ever late: once the seal is due or done, every member
has arrived (`Squad.Gathered`).
-/

namespace Muster.Squad

variable {s : Squad} {i : Nat}

/-! ## Refusing and admitting -/

/-- **The squad cannot be joined**: replicating a member changes nothing, and a replica of its team
that is replicated breaks off. -/
def Refuses (s : Squad) : Prop :=
  (∀ i, s.undergo i .replicate = s) ∧
  ∀ (r : Replica Feed) (feed : Feed) (site : Site), site.team r.team = s.team →
    (r.replicate feed).run site =
      ⟨.error (.registeredMidPhase s.team.barrier.phase s.team.barrier.arrived
        s.team.barrier.parties), site, []⟩

/-- **The squad can be joined**: a member that is replicated brings in one that has counted nothing,
and the barrier knows of it. -/
def Admits (s : Squad) : Prop :=
  ∀ i m, s.posts[i]? = some (.standing m) → s.undergo i .replicate = { s with
    team := s.team.withBarrier { s.team.barrier with parties := s.team.barrier.parties + 1 }
    posts := s.posts ++ [.standing { scope := m.scope }] }

theorem refuses_of_arrived (h : 0 < s.team.barrier.arrived) : s.Refuses := by
  refine ⟨fun i => ?_, fun r feed site hteam => ?_⟩
  · obtain ⟨d, hd⟩ | heq | ⟨m, hm, -⟩ := s.undergo_cases i .replicate
    · cases hd
    · exact heq
    · rw [undergo_replicate hm, extend_eq, if_pos (Or.inl h)]
  · have hself := Site.withTeam_self site r.team
    rw [hteam] at hself
    rw [Replica.run_replicate, hteam, Barrier.run_register, if_pos h]
    show (⟨_, site.withTeam r.team s.team, _⟩ : Outcome _ _) = _
    rw [hself]
    rfl

theorem admits_of_none (h : s.team.barrier.arrived = 0)
    (hroom : s.team.barrier.parties < Barrier.maxParties) : s.Admits := by
  intro i m hm
  have hfree : ¬(0 < s.team.barrier.arrived ∨ Barrier.maxParties ≤ s.team.barrier.parties) := by
    omega
  rw [undergo_replicate hm, extend_eq, if_neg hfree]

/-- **While a pass gathers**, the squad cannot be joined once a member has arrived. -/
theorem Running.refuses {phase seals late : Nat} (h : s.Running phase seals late)
    (harrived : ∃ post ∈ s.posts, post.hasArrived = true)
    (hmissing : ∃ post ∈ s.posts, post.present = true ∧ post.hasArrived = false) : s.Refuses := by
  obtain ⟨post, hpost, hp, ha⟩ := hmissing
  obtain ⟨j, hj⟩ := List.mem_iff_getElem?.1 hpost
  cases post with
  | standing m =>
    have hnone : m.arrival = none := Option.isNone_iff_eq_none.1 (by
      rw [← Option.not_isSome, show m.arrival.isSome = false from ha]
      rfl)
    obtain ⟨-, hcount, -⟩ := h.gathering hj hnone
    refine refuses_of_arrived ?_
    rw [hcount]
    exact List.countP_pos_iff.2 harrived
  | arrived => cases ha
  | leaving | gone | broken => cases hp

/-! ## Once the seal is due, everybody has arrived -/

/-- **Once the seal is due or done, every member has arrived.** -/
def Gathered (s : Squad) : Prop :=
  0 < s.posts.countP Post.due + s.team.census.sealed.toNat →
    s.posts.countP Post.hasArrived = s.posts.countP Post.present

namespace Gathered

/-- A step that brings nobody in who has not arrived, and is not itself the reason for a seal. -/
theorem settle (h : s.Gathered) {x y : Post} {t : Team} (hx : s.posts[i]? = some x)
    (hgap : y.present.toNat + x.hasArrived.toNat ≤ x.present.toNat + y.hasArrived.toNat)
    (hseal : y.due.toNat + t.census.sealed.toNat ≤ x.due.toNat + s.team.census.sealed.toNat) :
    (s.settle i t (.ok y)).Gathered := by
  have hpresent := countP_set_add hx y Post.present
  have harrived := countP_set_add hx y Post.hasArrived
  have hdue := countP_set_add hx y Post.due
  have hle := countP_hasArrived_le (s.posts.set i y)
  intro hpos
  have hpos' : 0 < (s.posts.set i y).countP Post.due + t.census.sealed.toNat := hpos
  have heq := h (by omega)
  show (s.posts.set i y).countP Post.hasArrived = (s.posts.set i y).countP Post.present
  omega

/-- A step after which no seal is due or done. -/
theorem of_open (hdue : s.posts.countP Post.due = 0) (ho : s.team.census.sealed = false) :
    s.Gathered := by
  intro hpos
  rw [hdue, ho] at hpos
  cases hpos

/-- **While a member has not arrived**, no seal is due or done. -/
theorem open_of_missing (h : s.Gathered) {post : Post} (hx : s.posts[i]? = some post)
    (hp : post.present = true) (ha : post.hasArrived = false) :
    s.posts.countP Post.due = 0 ∧ s.team.census.sealed = false := by
  have hpresent := countP_set_add hx .gone Post.present
  have harrived := countP_set_add hx .gone Post.hasArrived
  have hle := countP_hasArrived_le (s.posts.set i .gone)
  have hgone : Post.gone.present = false := rfl
  have hgone' : Post.gone.hasArrived = false := rfl
  rw [hp, hgone, Bool.toNat_true, Bool.toNat_false] at hpresent
  rw [ha, hgone', Bool.toNat_false] at harrived
  have hnot : ¬0 < s.posts.countP Post.due + s.team.census.sealed.toNat := fun hpos => by
    have heq := h hpos
    omega
  refine ⟨by omega, ?_⟩
  cases hs : s.team.census.sealed with
  | false => rfl
  | true =>
    rw [hs, Bool.toNat_true] at hnot
    omega

/-- A step after which everybody who is left has arrived in the phase. -/
theorem of_complete (h : s.Books) {x y : Post} {t : Team} (hx : s.posts[i]? = some x)
    (hall : s.team.barrier.parties + y.present.toNat +
        (x.arrivedIn s.team.barrier.phase).toNat ≤
      s.team.barrier.arrived + (y.arrivedIn s.team.barrier.phase).toNat + x.present.toNat) :
    (s.settle i t (.ok y)).Gathered := by
  have hpresent := countP_set_add hx y Post.present
  have harrived := countP_set_add hx y (Post.arrivedIn s.team.barrier.phase)
  rw [← h.parties] at hpresent
  rw [← h.arrived] at harrived
  have hphase : (s.posts.set i y).countP (Post.arrivedIn s.team.barrier.phase) ≤
      (s.posts.set i y).countP Post.hasArrived :=
    List.countP_mono_left fun _ _ => Post.hasArrived_of_arrivedIn
  have hle : (s.posts.set i y).countP Post.present ≤ (s.posts.set i y).countP Post.hasArrived := by
    omega
  exact fun _ => Nat.le_antisymm (countP_hasArrived_le _) hle

end Gathered

/-- Concluding seals at most once. -/
theorem sealed_closed_le (c : Census) (completed : Bool) :
    (Team.closed c completed).sealed.toNat ≤ completed.toNat + c.sealed.toNat := by
  unfold Team.closed
  split
  · rename_i hn
    rw [Bool.and_eq_true] at hn
    rw [hn.1]
    exact Nat.le_add_right 1 _
  · exact Nat.le_add_left _ _

theorem late_closed (c : Census) (completed : Bool) :
    (Team.closed c completed).meters.lateRecords = c.meters.lateRecords := by
  unfold Team.closed
  split <;> rfl

/-! ## Nothing is late -/

/-- **A squad in which nothing has been late**, given what had been late before. -/
structure Punctual (late : Nat) (s : Squad) : Prop where
  books : s.Books
  gathered : s.Gathered
  late_eq : s.team.census.meters.lateRecords = late

namespace Punctual

variable {late : Nat}

theorem of_opening (h : s.Opening) : s.Punctual s.team.census.meters.lateRecords where
  books := .of_opening h
  gathered := by
    refine .of_open (List.countP_eq_zero.2 fun post hpost => ?_) h.census.mark
    obtain rfl | ⟨m, rfl, -, -⟩ := h.posts post hpost <;> exact Bool.false_ne_true
  late_eq := rfl

/-- A step that brings nobody in, is not itself the reason for a seal, and counts nothing late. -/
theorem settle (h : s.Punctual late) {x y : Post} {t : Team} (hx : s.posts[i]? = some x)
    (hb : (s.settle i t (.ok y)).Books)
    (hgap : y.present.toNat + x.hasArrived.toNat ≤ x.present.toNat + y.hasArrived.toNat)
    (hseal : y.due.toNat + t.census.sealed.toNat ≤ x.due.toNat + s.team.census.sealed.toNat)
    (hl : t.census.meters.lateRecords = s.team.census.meters.lateRecords) :
    (s.settle i t (.ok y)).Punctual late :=
  ⟨hb, h.gathered.settle hx hgap hseal, hl.trans h.late_eq⟩

/-- **Counting** is up to somebody who has not arrived, so that it is not late. -/
theorem count (h : s.Punctual late) {m : Member} (hm : s.posts[i]? = some (.standing m))
    (hp : m.progress = .accumulating) (r : Record) :
    (s.seat i m (Seat.absorb r) fun _ m => .standing m).Punctual late := by
  have ha := h.books.arrival_eq_none hm (Or.inl hp)
  obtain ⟨-, ho⟩ := h.gathered.open_of_missing hm rfl (Post.hasArrived_of_missing ha)
  have hb := h.books.count hm r
  obtain ⟨c, heq, -, hs, hl⟩ := h.books.seat_count (i := i) m r
  rw [heq] at hb ⊢
  refine h.settle hm hb (Nat.le_refl _) (Nat.le_of_eq ?_) (hl ho)
  rw [Team.census_withCensus, hs]

/-- **Arriving** makes the seal due only where everybody has arrived. -/
theorem arrive (h : s.Punctual late) {m : Member} (hm : s.posts[i]? = some (.standing m))
    (hp : m.progress = .exhausted) :
    (s.seat i m Seat.arrive fun last m => .arrived m last).Punctual late := by
  have ha := h.books.arrival_eq_none hm (Or.inr hp)
  have hb := h.books.arrive hm hp
  rw [h.books.seat_arrive hm ha] at hb ⊢
  dsimp only at hb ⊢
  split
  · rw [if_pos ‹_›] at hb
    refine h.settle hm hb ?_ (Nat.le_refl _) rfl
    rw [Post.hasArrived_of_missing ha]
    exact Nat.le_succ 1
  · rename_i hall
    rw [if_neg hall] at hb
    refine ⟨hb, .of_complete h.books hm ?_, h.late_eq⟩
    rw [Post.arrivedIn_of_missing ha, Post.arrivedIn, beq_self_eq_true]
    simp only [Post.present, Bool.toNat_true, Bool.toNat_false]
    omega

/-- **Leaving the barrier** makes the seal due only where everybody else has arrived. -/
theorem withdraw (h : s.Punctual late) {m : Member} (hm : s.posts[i]? = some (.standing m)) :
    (s.aside i (Team.withdraw m.arrival) .leaving).Punctual late := by
  have hb := h.books.withdraw hm
  obtain ⟨n, -, heq⟩ | ⟨hne, hall, heq⟩ := h.books.aside_withdraw hm
  · rw [heq] at hb ⊢
    refine h.settle hm hb ?_ (Nat.le_refl _) rfl
    have hle := Bool.toNat_le (Post.standing m).hasArrived
    simp only [Post.present, Bool.toNat_true, Bool.toNat_false]
    omega
  · rw [heq] at hb ⊢
    refine ⟨hb, .of_complete h.books hm ?_, h.late_eq⟩
    rw [Post.arrivedIn, hne]
    simp only [Post.present, Post.arrivedIn, Bool.toNat_true, Bool.toNat_false]
    omega

/-- What a squad has counted and answered is no matter. -/
theorem congr (h : s.Punctual late) (counted : List Record)
    (answers : List (Nat × Taken Record)) : Punctual late { s with counted, answers } :=
  ⟨h.books.congr counted answers, h.gathered, h.late_eq⟩

/-- **Being replicated** brings somebody in only while a member has not arrived. -/
theorem extend (h : s.Punctual late) (m : Member)
    (hm : 0 < s.team.barrier.arrived ∨
      ∃ post ∈ s.posts, post.present = true ∧ post.hasArrived = false) :
    (s.extend m).Punctual late := by
  have hb := h.books.extend m
  rw [extend_eq] at hb ⊢
  split
  · exact h
  · rename_i hfree
    rw [if_neg hfree] at hb
    obtain harrived | ⟨post, hpost, hp, ha⟩ := hm
    · exact absurd (Or.inl harrived) hfree
    · obtain ⟨j, hj⟩ := List.mem_iff_getElem?.1 hpost
      obtain ⟨hdue, ho⟩ := h.gathered.open_of_missing hj hp ha
      refine ⟨hb, .of_open ?_ ho, h.late_eq⟩
      rw [List.countP_append, hdue]
      rfl

/-- **Whatever a member does, nothing is late.** -/
theorem act (h : s.Punctual late) (i : Nat) (d : Deed) : (s.act i d).Punctual late := by
  unfold Squad.act
  split
  · split
    · rename_i m hm hnone
      exact h.extend m
        (Or.inr ⟨_, List.mem_of_getElem? hm, rfl, Post.hasArrived_of_missing hnone⟩)
    · exact h
  · split
    · exact (h.count ‹_› ‹_› _).congr _ _
    · exact h
  · rename_i m records hm
    split
    · have hb := h.books.enter hm records
      rw [seat_eq (Seat.run_enter s.team m records)] at hb ⊢
      exact h.settle hm hb (Nat.le_refl _) (Nat.le_refl _) rfl
    · exact h
  · rename_i m hm
    split
    · have hb := h.books.exhaust hm ‹_›
      rw [seat_eq (Seat.run_exhaust s.team m)] at hb ⊢
      exact h.settle hm hb (Nat.le_refl _) (Nat.le_refl _) rfl
    · exact h
  · split
    · exact h.arrive ‹_› ‹_›
    · exact h
  · rename_i m last hm
    have hb := h.books.finish hm
    have hgone : m.arrival.isSome = true := by
      obtain ⟨p, -, ha⟩ := h.books.kept i _ hm
      rw [ha]
      rfl
    rw [h.books.seat_finish] at hb ⊢
    refine h.settle hm hb ?_ ?_ (late_closed _ _)
    · simp only [Post.present, Post.hasArrived, hgone]
      exact Nat.le_refl _
    · exact Nat.le_trans (Nat.le_of_eq (Nat.zero_add _)) (sealed_closed_le _ last)
  · rename_i m hm
    split
    · have hb := h.books.take hm ‹_›
      obtain ⟨g, p, heq, -, -, hs, hl⟩ := h.books.seat_take (i := i) m
      refine congr (s := s.seat i m Seat.take fun _ m => .standing m) ?_ _ _
      rw [heq] at hb ⊢
      refine h.settle hm hb (Nat.le_refl _) ?_ hl
      show _ + g.census.sealed.toNat ≤ _
      rw [hs]
      exact Nat.le_refl _
    · exact h
  · exact h.withdraw ‹_›
  · rename_i completed hx
    have hb := h.books.conclude hx
    rw [h.books.aside_conclude] at hb ⊢
    refine h.settle hx hb (Nat.le_refl _) ?_ (late_closed _ _)
    exact Nat.le_trans (Nat.le_of_eq (Nat.zero_add _)) (sealed_closed_le _ completed)
  · exact h

/-- **Starting over** clears the census, after which no seal is due where none was. -/
theorem rewind (h : s.Punctual late) {m : Member} (hm : s.posts[i]? = some (.standing m))
    (hdue : ∀ post ∈ s.posts, post.due = false) :
    (s.seat i m Seat.rewind fun _ m => .standing m).Punctual late := by
  have hb := h.books.rewind hm
  rw [h.books.seat_rewind] at hb ⊢
  refine ⟨hb, .of_open ?_ rfl, ?_⟩
  · have hset := countP_set_add hm (.standing { scope := m.scope }) Post.due
    have hnone : s.posts.countP Post.due = 0 :=
      List.countP_eq_zero.2 fun post hpost => by simp [hdue post hpost]
    rw [hnone] at hset
    exact hset
  · exact (congrArg Meters.lateRecords s.team.census.meters_cleared).trans h.late_eq

end Punctual

/-- **Is a turn taken in time?** A member is replicated only while somebody has not arrived, if that
is not refused anyway; and nobody starts over while a seal is due. -/
def InTime (s : Squad) : Turn → Prop
  | .replicate => 0 < s.team.barrier.arrived ∨
    ∃ post ∈ s.posts, post.present = true ∧ post.hasArrived = false
  | .rewind => ∀ post ∈ s.posts, post.due = false
  | _ => True

/-- **Are all turns of a history taken in time?** -/
def Timely (s : Squad) : List (Nat × Turn) → Prop
  | [] => True
  | turn :: turns => s.InTime turn.2 ∧ (s.undergo turn.1 turn.2).Timely turns

namespace Punctual

variable {late : Nat}

theorem undergo (h : s.Punctual late) (i : Nat) {turn : Turn} (ht : s.InTime turn) :
    (s.undergo i turn).Punctual late := by
  obtain ⟨d, rfl⟩ | heq | ⟨m, hm, rfl | rfl | rfl⟩ := s.undergo_cases i turn
  · rw [undergo_deed]
    exact h.act i d
  · rw [heq]
    exact h
  · rw [undergo_replicate hm]
    exact h.extend m ht
  · rw [undergo_rewind hm]
    exact h.rewind hm ht
  · rw [dismiss_eq hm]
    exact (h.act i .withdraw).act i .conclude

/-- **In a history whose turns are taken in time, nothing is late.** -/
theorem through (h : s.Punctual late) {turns : List (Nat × Turn)} (ht : s.Timely turns) :
    (s.through turns).Punctual late := by
  induction turns generalizing s with
  | nil => exact h
  | cons turn turns ih => exact ih (h.undergo turn.1 ht.1) ht.2

end Punctual

/-! ## When a squad can be joined -/

/-- **A squad can be joined unless a member has arrived in the phase in progress.** Whatever has
happened to a family, in any order: if a member that is there has arrived in this phase, replicating
any of them breaks off and changes nothing; if none has, and the barrier is not full, it adds one.
In a pass that all members have started together, this means that nobody joins from the first
arrival to the last. And in a history in which nobody joins after the last arrival, and nobody
starts over between it and the seal, no record is late. -/
theorem joined_in_time {g : Config} {siblings : Nat} (h : family g siblings = .ok s)
    (turns : List (Nat × Turn)) :
    let t := s.through turns
    ((∃ post ∈ t.posts, post.arrivedIn t.team.barrier.phase = true) → t.Refuses) ∧
    ((∀ post ∈ t.posts, post.arrivedIn t.team.barrier.phase = false) →
      t.team.barrier.parties < Barrier.maxParties → t.Admits) ∧
    (t.Opening → ∀ schedule, let u := t.after schedule
      (∃ post ∈ u.posts, post.hasArrived = true) →
      (∃ post ∈ u.posts, post.present = true ∧ post.hasArrived = false) → u.Refuses) ∧
    (s.Timely turns →
      t.team.census.meters.lateRecords = s.team.census.meters.lateRecords) := by
  intro t
  have hbooks : t.Books := .of_family h turns
  refine ⟨fun harrived => ?_, fun hnone hroom => ?_, fun ht schedule => ?_, fun htimely => ?_⟩
  · refine refuses_of_arrived ?_
    rw [hbooks.arrived]
    exact List.countP_pos_iff.2 harrived
  · refine admits_of_none ?_ hroom
    rw [hbooks.arrived]
    exact List.countP_eq_zero.2 fun post hpost => by simp [hnone post hpost]
  · exact (ht.running.after schedule).refuses
  · exact ((Punctual.of_opening (opening_of_family h)).through htimely).late_eq

/-- One of two members has arrived and waits for the other. -/
theorem joined_in_time_waiting :
    ∃ s, family { keyFields := ["id"], shards := 2 } 1 = .ok s ∧
      let t := s.through [(0, .deed .exhaust), (0, .deed .arrive), (0, .deed .finish)]
      t.Refuses ∧ t.team.census.meters.lateRecords = s.team.census.meters.lateRecords := by
  have hrun : ((family { keyFields := ["id"], shards := 2 } 1).map fun s =>
      let t := s.through [(0, .deed .exhaust), (0, .deed .arrive), (0, .deed .finish)]
      t.posts.any (Post.arrivedIn t.team.barrier.phase)).toOption = some true := by decide +kernel
  cases h : family { keyFields := ["id"], shards := 2 } 1 with
  | error e =>
    rw [h] at hrun
    cases hrun
  | ok s =>
    rw [h] at hrun
    obtain ⟨hrefuses, -, -, hlate⟩ := joined_in_time h
      [(0, .deed .exhaust), (0, .deed .arrive), (0, .deed .finish)]
    exact ⟨s, rfl, hrefuses (List.any_eq_true.1 (Option.some.inj hrun)),
      hlate ⟨trivial, trivial, trivial, trivial⟩⟩

/-- **After the last arrival a squad can be joined**, although all its members hand out groups: what
the newcomer counts is late. -/
theorem joined_late :
    ∃ s, family { keyFields := ["id"], shards := 2 } 0 = .ok s ∧
      let t := s.after [(0, .exhaust), (0, .arrive), (0, .finish)]
      let u := t.undergo 0 .replicate
      (∃ m, t.posts = [.standing m] ∧ m.progress = .draining) ∧ u.posts.length = 2 ∧
        (u.act 1 (.count (.field "id" (.int 1) .empty))).team.census.meters.lateRecords = 1 := by
  refine ⟨_, rfl, ⟨_, rfl, rfl⟩, ?_, ?_⟩ <;> decide +kernel

end Muster.Squad
