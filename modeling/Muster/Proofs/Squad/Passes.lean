import Muster.Proofs.Squad.Books
import Muster.Proofs.Squad.Reckoning

/-!
# Proofs/Squad/Passes — one pass after the other

A pass may be played to its end or broken off anywhere. Then all members that are left start over,
one after the other and in any order, and some may be given up in between (`Squad.Closes`). The
first one to start over clears the census and discards the arrivals; from then on nobody arrives, so
that no phase is completed and nothing is sealed (`Squad.Closing`), until the next pass begins where
a family begins.

* `Squad.Poised.leg` — after a pass has been closed, the squad is poised for the next one.
* `Squad.passes_alike` — every pass of a history is like the first pass of a new family.
-/

namespace Muster.Squad

variable {s t : Squad} {g : Config} {limits : Limits} {i j seals : Nat}

deriving instance DecidableEq for Post

/-! ## Closing a pass -/

/-- **All members that are left start over**, one after the other, and some may be given up in
between. Before the first of them starts over, nobody is in the middle of a step; and somebody is
left in the end. -/
structure Closes (s : Squad) (close : List (Nat × Turn)) : Prop where
  calm (post : Post) : post ∈ s.posts → post = .gone ∨ ∃ m, post = .standing m
  first : ∃ i m rest, close = (i, .rewind) :: rest ∧ s.posts[i]? = some (.standing m)
  only (turn : Nat × Turn) : turn ∈ close → turn.2 = .rewind ∨ turn.2 = .dismiss
  everyone (i : Nat) (m : Member) :
    (s.through close).posts[i]? = some (.standing m) → (i, .rewind) ∈ close
  left : 0 < (s.through close).posts.countP Post.present

/-- **Being given up** takes a member off the barrier, and leaves its post empty. -/
theorem Books.dismissed (h : s.Books) {m : Member} (hm : s.posts[i]? = some (.standing m)) :
    s.undergo i .dismiss = s.settle i (s.team.departed m.arrival) (.ok .gone) := by
  obtain ⟨ns, hrun⟩ := Team.run_depart h.healthy m.arrival (h.parties_pos hm rfl)
  rw [undergo_dismiss hm]
  exact aside_eq hrun

/-- **Starting over** clears the census, discards the arrivals, and begins the member's books
anew. -/
theorem Books.rewound (h : s.Books) {m : Member} (hm : s.posts[i]? = some (.standing m)) :
    s.undergo i .rewind =
      s.settle i ((s.team.withCensus s.team.census.cleared).withBarrier s.team.barrier.wiped)
        (.ok (.standing { scope := m.scope })) := by
  rw [undergo_rewind hm, h.seat_rewind]

/-- **Starting over and being given up** change one post: the member has counted nothing any more,
or is gone. -/
theorem Books.undergo_closing (h : s.Books) {turn : Turn}
    (hturn : turn = .rewind ∨ turn = .dismiss) :
    s.undergo j turn = s ∨ ∃ m team y, s.posts[j]? = some (.standing m) ∧
      s.undergo j turn = s.settle j team (.ok y) ∧
        (y = .gone ∨ y = .standing { scope := m.scope }) := by
  obtain ⟨d, rfl⟩ | heq | ⟨m, hm, -⟩ := s.undergo_cases j turn
  · rcases hturn with hturn | hturn <;> cases hturn
  · exact Or.inl heq
  · refine Or.inr ?_
    obtain rfl | rfl := hturn
    · exact ⟨m, _, _, hm, h.rewound hm, Or.inr rfl⟩
    · exact ⟨m, _, _, hm, h.dismissed hm, Or.inl rfl⟩

section Round

variable {close : List (Nat × Turn)}
  (hclose : ∀ turn ∈ close, turn.2 = .rewind ∨ turn.2 = .dismiss)
include hclose

/-- While a pass is closed, nobody comes in. -/
theorem Books.present_through_le (h : s.Books) :
    (s.through close).posts.countP Post.present ≤ s.posts.countP Post.present := by
  induction close generalizing s with
  | nil => exact Nat.le_refl _
  | cons turn close ih =>
    have hrest := ih (fun u hu => hclose u (List.mem_cons_of_mem _ hu)) (h.undergo turn.1 turn.2)
    refine Nat.le_trans hrest ?_
    obtain heq | ⟨m, team, y, hm, heq, hy⟩ :=
      h.undergo_closing (j := turn.1) (hclose turn List.mem_cons_self)
    · exact Nat.le_of_eq (by rw [heq])
    · have hset := countP_set_add hm y Post.present
      have hle := Bool.toNat_le y.present
      rw [heq]
      rw [Post.present, Bool.toNat_true] at hset
      show (s.posts.set turn.1 y).countP Post.present ≤ _
      omega

/-- **A member that has started over stays at the start** while the others start over. -/
theorem Books.restarted_through (h : s.Books)
    (hi : ∀ m, s.posts[i]? = some (.standing m) → m.progress = .accumulating ∧ m.arrival = none)
    {m : Member} (hm : (s.through close).posts[i]? = some (.standing m)) :
    m.progress = .accumulating ∧ m.arrival = none := by
  induction close generalizing s with
  | nil => exact hi m hm
  | cons turn close ih =>
    refine ih (fun u hu => hclose u (List.mem_cons_of_mem _ hu)) (h.undergo turn.1 turn.2)
      (fun m hm => ?_) hm
    obtain heq | ⟨m', team, y, hm', heq, hy⟩ :=
      h.undergo_closing (j := turn.1) (hclose turn List.mem_cons_self)
    · rw [heq] at hm
      exact hi m hm
    · rw [heq] at hm
      obtain ⟨-, hpost⟩ | ⟨-, hpost⟩ := getElem?_set_cases hm' hm
      · obtain rfl | rfl := hy
        · cases hpost
        · cases hpost
          exact ⟨rfl, rfl⟩
      · exact hi m hpost

/-- **Whoever has had its turn to start over is at the start in the end**, if it is still there. -/
theorem Books.restarted (h : s.Books) (hi : (i, .rewind) ∈ close) {m : Member}
    (hm : (s.through close).posts[i]? = some (.standing m)) :
    m.progress = .accumulating ∧ m.arrival = none := by
  induction close generalizing s with
  | nil => cases hi
  | cons turn close ih =>
    have hrest : ∀ u ∈ close, u.2 = .rewind ∨ u.2 = .dismiss := fun u hu =>
      hclose u (List.mem_cons_of_mem _ hu)
    rcases List.mem_cons.1 hi with rfl | hi
    · refine (h.undergo i .rewind).restarted_through hrest (fun m hm => ?_) hm
      have hstood : ∃ m', s.posts[i]? = some (.standing m') := by
        obtain ⟨d, hd⟩ | heq | ⟨m', hm', -⟩ := s.undergo_cases i .rewind
        · cases hd
        · exact ⟨m, by rwa [heq] at hm⟩
        · exact ⟨m', hm'⟩
      obtain ⟨m', hm'⟩ := hstood
      rw [h.rewound hm'] at hm
      obtain ⟨-, hpost⟩ | ⟨hne, -⟩ := getElem?_set_cases hm' hm
      · cases hpost
        exact ⟨rfl, rfl⟩
      · exact absurd rfl hne
    · exact ih hrest (h.undergo turn.1 turn.2) hi hm

end Round

/-! ## While members start over -/

/-- **A squad some of whose members have started over**: nobody is in the middle of a step, the
census has counted nothing, and nobody has arrived. -/
structure Closing (g : Config) (limits : Limits) (seals : Nat) (s : Squad) : Prop where
  books : s.Books
  calm (post : Post) : post ∈ s.posts → post = .gone ∨ ∃ m, post = .standing m
  fresh : s.team.census.Fresh
  arrived : s.team.barrier.arrived = 0
  config : s.team.grouper.config = g
  bounds : s.team.census.limits = limits
  seals_eq : s.team.census.seals = seals

/-- One more member that is at the start or gone leaves a squad calm. -/
theorem calm_set {posts : List Post} {y : Post}
    (h : ∀ post ∈ posts, post = .gone ∨ ∃ m, post = .standing m)
    (hy : y = .gone ∨ ∃ m, y = .standing m) (i : Nat) :
    ∀ post ∈ posts.set i y, post = .gone ∨ ∃ m, post = .standing m := by
  intro post hpost
  rcases List.mem_or_eq_of_mem_set hpost with hpost | rfl
  · exact h post hpost
  · exact hy

/-- **Whoever starts over leaves the squad closing**, whether or not somebody did so before. -/
theorem Closing.of_rewind (h : s.Books)
    (hcalm : ∀ post ∈ s.posts, post = .gone ∨ ∃ m, post = .standing m)
    {m : Member} (hm : s.posts[i]? = some (.standing m)) :
    (s.undergo i .rewind).Closing s.team.grouper.config s.team.census.limits
      s.team.census.seals := by
  have hb := h.undergo i .rewind
  obtain ⟨_, _, hc⟩ := h.census
  obtain ⟨hfresh, hlimits, hseals⟩ := hc.sound.fresh_cleared hc.healthy
  rw [h.rewound hm] at hb ⊢
  exact ⟨hb, calm_set hcalm (Or.inr ⟨_, rfl⟩) i, hfresh, Barrier.arrived_wiped _, rfl, hlimits,
    hseals⟩

/-- **Whoever is given up while others start over** completes no phase, as long as somebody is
left. -/
theorem Closing.dismiss (h : s.Closing g limits seals) {m : Member}
    (hm : s.posts[i]? = some (.standing m))
    (hleft : 0 < (s.undergo i .dismiss).posts.countP Post.present) :
    (s.undergo i .dismiss).Closing g limits seals := by
  have hb := h.books.undergo i .dismiss
  have hset := countP_set_add hm .gone Post.present
  rw [← h.books.parties] at hset
  rw [h.books.dismissed hm] at hb hleft ⊢
  have hleft' : 0 < (s.posts.set i .gone).countP Post.present := hleft
  simp only [Post.present, Bool.toNat_true, Bool.toNat_false] at hset
  obtain ⟨n, hn, hrelieved⟩ | ⟨-, hall, -⟩ := s.team.barrier.relieved_cases (h.books.arrived_pos hm)
  · have hdeparted : s.team.departed m.arrival = s.team.withBarrier
        { s.team.barrier with parties := s.team.barrier.parties - 1, arrived := n } := by
      rw [Team.departed, hrelieved]
      rfl
    have hnone : n = 0 := by
      have := h.arrived
      omega
    rw [hdeparted] at hb ⊢
    exact ⟨hb, calm_set h.calm (Or.inl rfl) i, h.fresh, hnone, h.config, h.bounds, h.seals_eq⟩
  · rw [h.arrived] at hall
    omega

/-- **While members start over or are given up**, the squad is closing, as long as somebody is
left. -/
theorem Closing.through (h : s.Closing g limits seals) {close : List (Nat × Turn)}
    (hclose : ∀ turn ∈ close, turn.2 = .rewind ∨ turn.2 = .dismiss)
    (hleft : 0 < (s.through close).posts.countP Post.present) :
    (s.through close).Closing g limits seals := by
  induction close generalizing s with
  | nil => exact h
  | cons turn close ih =>
    have hrest : ∀ u ∈ close, u.2 = .rewind ∨ u.2 = .dismiss := fun u hu =>
      hclose u (List.mem_cons_of_mem _ hu)
    refine ih ?_ hrest hleft
    obtain ⟨i, turn⟩ := turn
    obtain ⟨d, rfl⟩ | heq | ⟨m, hm, -⟩ := s.undergo_cases i turn
    · rcases hclose _ List.mem_cons_self with hd | hd <;> cases hd
    · show (s.undergo i turn).Closing g limits seals
      rw [heq]
      exact h
    · obtain rfl | rfl := hclose _ List.mem_cons_self
      · have hrewound := Closing.of_rewind h.books h.calm hm
        rwa [h.config, h.bounds, h.seals_eq] at hrewound
      · have hle := (h.books.undergo i .dismiss).present_through_le hrest
        exact h.dismiss hm (Nat.lt_of_lt_of_le hleft hle)

/-! ## From one pass to the next -/

/-- **A squad that is poised for a pass**, and has nothing on its accounts. -/
structure Poised (g : Config) (limits : Limits) (s : Squad) : Prop where
  opening : s.Opening
  config : s.team.grouper.config = g
  bounds : s.team.census.limits = limits
  counted : s.counted = []
  answers : s.answers = []

theorem Poised.of_family {siblings : Nat} {c : Census} (h : family g siblings = .ok s)
    (hc : Census.ofConfig g = .ok c) : s.Poised g c.limits := by
  have ho := opening_of_family h
  obtain ⟨d, hd, rfl⟩ := family_eq h
  obtain rfl : c = d := Except.ok.inj (hc.symm.trans hd)
  exact ⟨ho, rfl, rfl, rfl, rfl⟩

theorem Poised.reckons (h : s.Poised g limits) (play : List (Nat × Deed)) :
    (s.after play).Reckons g limits := by
  have hreckons := Reckons.of_opening h.opening h.counted h.answers
  rw [h.config, h.bounds] at hreckons
  exact hreckons.after h.opening.running play

/-- **A pass and what follows it**: what the members do, and how they start over. -/
structure Leg where
  play : List (Nat × Deed)
  close : List (Nat × Turn)

/-- The squad after a pass has been played and closed. What it has counted and answered in that pass
is of no account any more. -/
def afterLeg (s : Squad) (leg : Leg) : Squad :=
  { (s.after leg.play).through leg.close with counted := [], answers := [] }

/-- The squad after some passes. -/
def afterLegs (s : Squad) (legs : List Leg) : Squad := legs.foldl afterLeg s

/-- **Is every pass of a history closed** before the next one begins? -/
def Orderly (s : Squad) : List Leg → Prop
  | [] => True
  | leg :: legs => (s.after leg.play).Closes leg.close ∧ (s.afterLeg leg).Orderly legs

/-- **After a pass has been closed, the squad is poised for the next one**, and closing it has
sealed nothing. -/
theorem Poised.leg (h : s.Poised g limits) {leg : Leg}
    (hclose : (s.after leg.play).Closes leg.close) :
    (s.afterLeg leg).Poised g limits ∧
      (s.afterLeg leg).team.census.seals = (s.after leg.play).team.census.seals := by
  have hbooks : (s.after leg.play).Books := by
    rw [after_eq_through]
    exact (Books.of_opening h.opening).through _
  have hreckons := h.reckons leg.play
  obtain ⟨i, m, rest, hfirst, hm⟩ := hclose.first
  have hrest : ∀ turn ∈ rest, turn.2 = .rewind ∨ turn.2 = .dismiss := fun turn hturn =>
    hclose.only turn (hfirst ▸ List.mem_cons_of_mem _ hturn)
  have hclosing : ((s.after leg.play).through leg.close).Closing g limits
      (s.after leg.play).team.census.seals := by
    have hleft := hclose.left
    have hrewound := Closing.of_rewind hbooks hclose.calm hm
    rw [hreckons.config, hreckons.bounds] at hrewound
    rw [hfirst] at hleft ⊢
    exact hrewound.through hrest hleft
  refine ⟨⟨⟨hclosing.fresh, fun post hpost => ?_, hclose.left, hclosing.books.parties,
    hclosing.arrived⟩, hclosing.config, hclosing.bounds, rfl, rfl⟩, hclosing.seals_eq⟩
  obtain rfl | ⟨m, rfl⟩ := hclosing.calm post hpost
  · exact Or.inl rfl
  · obtain ⟨j, hj⟩ := List.mem_iff_getElem?.1 hpost
    obtain ⟨hp, ha⟩ := hbooks.restarted hclose.only (hclose.everyone j m hj) hj
    exact Or.inr ⟨m, rfl, hp, ha⟩

theorem Poised.legs (h : s.Poised g limits) {legs : List Leg} (hlegs : s.Orderly legs) :
    (s.afterLegs legs).Poised g limits := by
  induction legs generalizing s with
  | nil => exact h
  | cons leg legs ih => exact ih (h.leg hlegs.1).1 hlegs.2

/-- **Every pass is like the first pass of a new family.** Let a family play passes, to their end or
not, and let each of them be closed before the next one begins. Then the next pass begins with an
open census that has counted nothing, and nobody has arrived. If in this pass a member is told that
there is nothing left, the census has been sealed once more, and the members have been given the
same records, up to order, as those of any new family that has counted the same records in the same
order and has come to its end: what a ledger shows of them. If not, it has been sealed at most once
more; and closing the pass seals nothing. -/
theorem passes_alike {siblings : Nat} (h : family g siblings = .ok s) {legs : List Leg}
    (hlegs : s.Orderly legs) :
    let t := s.afterLegs legs
    t.Opening ∧ t.team.census.size = 0 ∧ t.team.census.processed = 0 ∧
      t.team.census.sealed = false ∧ t.team.barrier.arrived = 0 ∧
    ∀ play, let u := t.after play
      (u.told = true → u.team.census.seals = t.team.census.seals + 1 ∧
        u.returned.Perm ((Ledger.reckoned g t.team.census.limits u.counted).shown g) ∧
        ∀ siblings' s' schedule, family g siblings' = .ok s' →
          (s'.after schedule).told = true → (s'.after schedule).counted = u.counted →
          u.returned.Perm (s'.after schedule).returned) ∧
      u.team.census.seals ≤ t.team.census.seals + 1 ∧
      ∀ close, u.Closes close →
        (t.afterLeg ⟨play, close⟩).team.census.seals = u.team.census.seals := by
  intro t
  obtain ⟨c, hc, -⟩ := family_eq h
  have ht : t.Poised g c.limits := (Poised.of_family h hc).legs hlegs
  have hfresh := ht.opening.census
  refine ⟨ht.opening, hfresh.distinct, hfresh.processed, hfresh.mark, ht.opening.arrived,
    fun play => ?_⟩
  intro u
  have hrunning := ht.opening.running.after play
  have hseals : u.team.census.seals = t.team.census.seals + u.team.census.sealed.toNat :=
    hrunning.census.seals_eq
  refine ⟨fun hend => ?_, ?_, fun close hclose => ?_⟩
  · obtain ⟨hreturned, hs⟩ := (ht.reckons play).returned_perm hrunning hend
    refine ⟨?_, ?_, fun siblings' s' schedule h' hend' hcounted => ?_⟩
    · rw [hseals, hs]
      rfl
    · rw [ht.bounds]
      exact hreturned
    · have hs' : s'.Poised g c.limits := .of_family h' hc
      obtain ⟨hreturned', -⟩ := (hs'.reckons schedule).returned_perm
        (hs'.opening.running.after schedule) hend'
      rw [hcounted] at hreturned'
      exact hreturned.trans hreturned'.symm
  · rw [hseals]
    exact Nat.add_le_add_left (Bool.toNat_le _) _
  · exact (Poised.leg ht hclose).2

/-- One of two members counts and arrives, and the pass is broken off. It starts over, the other one
is given up, and it plays the second pass alone. -/
theorem passes_alike_twice :
    ∃ s, family { keyFields := ["id"], shards := 2 } 1 = .ok s ∧
      let t := s.afterLeg
        ⟨[(0, .count (.field "id" (.int 1) .empty)), (0, .enter 1), (0, .exhaust), (0, .arrive),
          (0, .finish)], [(0, .rewind), (1, .dismiss)]⟩
      let u := t.after [(0, .count (.field "id" (.int 2) .empty)), (0, .enter 1), (0, .exhaust),
        (0, .arrive), (0, .finish), (0, .take), (0, .take)]
      t.team.census.size = 0 ∧ u.told = true ∧
        u.team.census.seals = t.team.census.seals + 1 := by
  let leg : Leg :=
    ⟨[(0, .count (.field "id" (.int 1) .empty)), (0, .enter 1), (0, .exhaust), (0, .arrive),
      (0, .finish)], [(0, .rewind), (1, .dismiss)]⟩
  have hrun : ∃ s, family { keyFields := ["id"], shards := 2 } 1 = .ok s ∧
      (s.after leg.play).posts =
        [.standing ⟨.outer, .draining, some 0, 1, 1⟩, .standing { scope := .outer }] ∧
      ((s.after leg.play).through leg.close).posts =
        [.standing { scope := .outer }, .gone] ∧
      ((s.afterLeg leg).after
        [(0, .count (.field "id" (.int 2) .empty)), (0, .enter 1), (0, .exhaust), (0, .arrive),
          (0, .finish), (0, .take), (0, .take)]).told = true := by
    refine ⟨_, rfl, ?_, ?_, ?_⟩ <;> decide +kernel
  obtain ⟨s, h, hplayed, hclosed, htold⟩ := hrun
  have hcloses : (s.after leg.play).Closes leg.close := by
    refine ⟨?_, ⟨0, _, _, rfl, by rw [hplayed]; rfl⟩, by simp [leg], fun i m hm => ?_, ?_⟩
    · rw [hplayed]
      simp
    · rw [hclosed] at hm
      match i with
      | 0 => exact List.mem_cons_self
      | 1 => cases hm
      | i + 2 => cases hm
    · rw [hclosed]
      decide
  have hlegs : s.Orderly [leg] := ⟨hcloses, trivial⟩
  obtain ⟨-, hsize, -, -, -, hpass⟩ := passes_alike h hlegs
  exact ⟨s, h, hsize, htold, ((hpass _).1 htold).1⟩

end Muster.Squad
