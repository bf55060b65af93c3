import Muster.Proofs.Squad.Once
import Muster.Replica.Build
import Muster.Supply.Feed

/-!
# Proofs/Squad/Turns — whatever may happen to a squad, in any order

Besides what members do in a pass (`Deed`), they are replicated, go back to the start of a pass and
are given up, whatever they have done before (`Turn`). A history names, one after the other, a
member and its turn (`Squad.through`). Here is what each turn comes to on a census in working order.

* `Squad.after_eq_through` — a pass is a part of a history.
* `Squad.dismiss_eq` — giving a member up is withdrawing it and concluding, at once.
* `Replica.run_replicate`, `Replica.run_rewind` — what a replica does that is replicated, or starts
  over.
-/

namespace Muster

/-! ## Replicas -/

/-- A site with one of its teams put back is the site. -/
theorem Site.withTeam_self (s : Site) (i : Nat) : s.withTeam i (s.team i) = s := by
  have hset : s.teams.setIfInBounds i (s.team i) = s.teams := by
    apply Array.ext
    · exact Array.size_setIfInBounds
    · intro j hj hj'
      rw [Array.getElem_setIfInBounds hj']
      split
      · subst i
        simp [Site.team, hj']
      · rfl
  rw [Site.withTeam, hset]

/-- The last team that is put in a place counts. -/
theorem Site.withTeam_withTeam (s : Site) (i : Nat) (t u : Team) :
    (s.withTeam i t).withTeam i u = s.withTeam i u := by
  simp [Site.withTeam]

/-- **Replicating a replica** on a feed adds a party to the barrier of its team, or breaks off as
that does. -/
theorem Replica.run_replicate {σ : Type} (r : Replica σ) (feed : Feed) (site : Site) :
    (r.replicate feed).run site =
      let o := Barrier.register.run (site.team r.team).barrier
      ⟨o.result.map fun _ => .fresh r.team r.member.scope feed,
        site.withTeam r.team ((site.team r.team).withBarrier o.state), o.notices⟩ := by
  have hregister : (Site.onTeam r.team (Team.onBarrier Barrier.register)).run site =
      let o := Barrier.register.run (site.team r.team).barrier
      ⟨o.result, site.withTeam r.team ((site.team r.team).withBarrier o.state), o.notices⟩ := rfl
  have hrelease : (Supply.release feed).run = fun s : Site => ⟨.ok (), s, []⟩ := rfl
  rw [Replica.replicate, Call.run_bind, Call.run_caught, hregister]
  rcases Barrier.register.run (site.team r.team).barrier with ⟨⟨e⟩ | ⟨u⟩, b, ns⟩
  · simp [Call.run_bind, hrelease, Except.map]
  · simp [Except.map]

/-- **A replica that reads a list starts over**: the list is read from its beginning again, and the
replica's seat goes back to the start of a pass. -/
theorem Replica.run_rewind (r : Replica Feed) {records left : List Record}
    {schema : Option (List String)} (hr : r.supply = .list records left schema) (site : Site) :
    Replica.rewind.run ⟨site, r⟩ =
      let o := Seat.rewind.run ⟨site.team r.team, r.member⟩
      ⟨o.result.map fun _ => true, ⟨site.withTeam r.team o.state.team,
        { r with member := o.state.member, supply := .ofList records schema }⟩, o.notices⟩ := by
  have hsupply : (Replica.onSupply Supply.rewind).run ⟨site, r⟩ =
      ⟨.ok true, ⟨site, { r with supply := .ofList records schema }⟩, []⟩ := by
    rw [Replica.onSupply, Onsite.onPart, Call.run_within, hr]
    rfl
  rw [Replica.rewind, Call.run_bind_ok hsupply, if_pos rfl, Call.run_bind, Replica.onSeat,
    Call.run_within]
  rcases Seat.rewind.run ⟨site.team r.team, r.member⟩ with ⟨⟨e⟩ | ⟨u⟩, q, ns⟩ <;>
    simp [Except.map]

/-! ## Turns -/

/-- **What may happen to a member.** -/
inductive Turn
  /-- it does something, as in a pass -/
  | deed (d : Deed)
  /-- it is replicated, whether or not it has arrived -/
  | replicate
  /-- it goes back to the start of a pass -/
  | rewind
  /-- it is given up, and nobody comes between the steps of that -/
  | dismiss

namespace Squad

variable {s : Squad} {i : Nat}

/-- **A member has its turn**, if it stands where it can have it. -/
def undergo (s : Squad) (i : Nat) (turn : Turn) : Squad :=
  match s.posts[i]?, turn with
  | _, .deed d => s.act i d
  | some (.standing m), .replicate => s.extend m
  | some (.standing m), .rewind => s.seat i m Seat.rewind fun _ m => .standing m
  | some (.standing m), .dismiss => s.aside i (Team.depart m.arrival) fun _ => .gone
  | _, _ => s

/-- **The squad after a history.** -/
def through (s : Squad) (turns : List (Nat × Turn)) : Squad :=
  turns.foldl (fun s turn => s.undergo turn.1 turn.2) s

@[simp] theorem through_cons (s : Squad) (turn : Nat × Turn) (turns : List (Nat × Turn)) :
    s.through (turn :: turns) = (s.undergo turn.1 turn.2).through turns := rfl

theorem undergo_deed (s : Squad) (i : Nat) (d : Deed) : s.undergo i (.deed d) = s.act i d := by
  unfold undergo
  split <;> simp_all

/-- **A pass is a history** in which members do things and nothing else happens. -/
theorem after_eq_through (s : Squad) (schedule : List (Nat × Deed)) :
    s.after schedule = s.through (schedule.map fun d => (d.1, .deed d.2)) := by
  induction schedule generalizing s with
  | nil => rfl
  | cons d schedule ih =>
    rw [List.map_cons, through_cons, undergo_deed]
    exact ih (s.act d.1 d.2)

section Standing

variable {m : Member} (hm : s.posts[i]? = some (.standing m))
include hm

theorem undergo_replicate : s.undergo i .replicate = s.extend m := by
  unfold undergo
  simp only [hm]

theorem undergo_rewind :
    s.undergo i .rewind = s.seat i m Seat.rewind fun _ m => .standing m := by
  unfold undergo
  simp only [hm]

theorem undergo_dismiss :
    s.undergo i .dismiss = s.aside i (Team.depart m.arrival) fun _ => .gone := by
  unfold undergo
  simp only [hm]

/-- **Giving a member up is withdrawing it and concluding**, with nobody in between. -/
theorem dismiss_eq : s.undergo i .dismiss = (s.act i .withdraw).act i .conclude := by
  obtain ⟨hi, -⟩ := List.getElem?_eq_some_iff.1 hm
  have hact : s.act i .withdraw = s.aside i (Team.withdraw m.arrival) .leaving := by
    unfold act
    simp only [hm]
  rw [hact, undergo_dismiss hm]
  rcases hrun : (Team.withdraw m.arrival).run s.team with ⟨⟨e⟩ | ⟨completed⟩, t, ns⟩
  · have hdepart : (Team.depart m.arrival).run s.team = ⟨.error e, t, ns⟩ :=
      Call.run_bind_error hrun
    simp [aside, settle, act, hrun, hdepart, hi, Except.map]
  · have hdepart := Call.run_bind_ok (f := Team.conclude) hrun
    rw [aside_eq hrun, aside, show (Team.depart m.arrival).run s.team = _ from hdepart]
    simp [settle, act, aside, hi]

end Standing

/-- **What a turn can be**: a deed, no turn at all, or one of somebody who stands. -/
theorem undergo_cases (s : Squad) (i : Nat) (turn : Turn) :
    (∃ d, turn = .deed d) ∨ s.undergo i turn = s ∨ ∃ m, s.posts[i]? = some (.standing m) ∧
      (turn = .replicate ∨ turn = .rewind ∨ turn = .dismiss) := by
  cases turn with
  | deed d => exact Or.inl ⟨d, rfl⟩
  | replicate | rewind | dismiss =>
    refine Or.inr ?_
    cases hx : s.posts[i]? with
    | none =>
      left
      unfold undergo
      simp only [hx]
    | some x =>
      cases x with
      | standing m =>
        right
        exact ⟨m, rfl, by simp⟩
      | arrived | leaving | gone | broken =>
        left
        unfold undergo
        simp only [hx]

/-- **Being replicated** adds a member that has counted nothing, unless somebody has arrived in the
phase in progress or the barrier is full. -/
theorem extend_eq (s : Squad) (m : Member) :
    s.extend m =
      if 0 < s.team.barrier.arrived ∨ Barrier.maxParties ≤ s.team.barrier.parties then s
      else { s with
        team := s.team.withBarrier
          { s.team.barrier with parties := s.team.barrier.parties + 1 }
        posts := s.posts ++ [.standing { scope := m.scope }] } := by
  have hregister : (Team.onBarrier Barrier.register).run s.team =
      let o := Barrier.register.run s.team.barrier
      ⟨o.result, s.team.withBarrier o.state, o.notices⟩ := rfl
  rw [extend, hregister, Barrier.run_register]
  by_cases harrived : 0 < s.team.barrier.arrived
  · simp [harrived, sibling, Team.withBarrier]
  · by_cases hfull : Barrier.maxParties ≤ s.team.barrier.parties
    · simp [harrived, hfull, sibling, Team.withBarrier]
    · simp [harrived, hfull, sibling]

end Squad

end Muster
