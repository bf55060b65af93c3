import Muster.Proofs.Grouper.Alone
import Muster.Proofs.Squad.Once

/-!
# Proofs/Squad/Sequential — a squad hands out what one grouper would

However the records are dealt out to the members of a squad, and whenever one of them is given up,
the grouper holds the groups of all records that were counted, and what the members were given is
what it has handed out (`Squad.Accounts`). Once a member has been told that there is nothing left,
the members together have therefore been given what a grouper on its own would have handed out
(`Squad.returned_perm_alone`).
-/

namespace Muster

/-! ## Steps that leave the grouper alone -/

theorem Team.keeps_onBarrier {α : Type} (call : Call Barrier α) :
    (onBarrier call).Keeps fun t u => u.grouper = t.grouper := fun _ => rfl

theorem Team.keeps_withdraw (arrival : Option Nat) :
    (withdraw arrival).Keeps fun t u => u.grouper = t.grouper := by
  cases arrival <;> exact keeps_onBarrier _

theorem Seat.keeps_arrive : arrive.Keeps fun x y => y.team.grouper = x.team.grouper := by
  refine Call.Keeps.bind (fun _ _ _ h h' => h'.trans h) ?_ fun a => ?_
  · intro x
    exact Team.keeps_onBarrier Barrier.arrive x.team
  · intro x
    rfl

namespace Squad

variable {s t : Squad} {g : Config} {i phase seals late : Nat}

/-! ## The accounts of a squad -/

/-- **What a squad has counted, its grouper holds, and what the members were given, it has handed
out.** Whoever was told that there is nothing left was told the truth. -/
structure Accounts (g : Config) (s : Squad) : Prop where
  holds : s.team.grouper.Holds g s.counted
  returned : s.returned = s.team.grouper.delivered
  ended : s.told = true → s.team.census.remaining = some 0

namespace Accounts

/-- Nothing but the grouper matters. -/
theorem congr (h : s.Accounts g) (hg : t.team.grouper = s.team.grouper)
    (hc : t.counted = s.counted) (ha : t.answers = s.answers) : t.Accounts g where
  holds := by
    rw [hg, hc]
    exact h.holds
  returned := by
    rw [hg, ← h.returned, Squad.returned, ha]
    rfl
  ended hend := by
    rw [told, ha] at hend
    rw [Team.census, hg]
    exact h.ended hend

/-- **Before the seal nobody was given anything.** -/
theorem of_open (h : s.Accounts g) (hn : s.team.census.handOff = none)
    (ht : t.team.grouper.Holds g t.counted) (hd : t.team.grouper.delivered = [])
    (ha : t.answers = s.answers) : t.Accounts g where
  holds := ht
  returned := by
    rw [hd, Squad.returned, ha]
    exact h.returned.trans (Grouper.delivered_of_none hn)
  ended hend := by
    rw [told, ha] at hend
    have hended := h.ended hend
    rw [Census.remaining, hn] at hended
    cases hended

/-- **A record is counted.** -/
theorem count (h : s.Accounts g) (hr : s.Running phase seals late) {m : Member}
    (hm : s.posts[i]? = some (.standing m)) (hp : m.progress = .accumulating) (r : Record) :
    Accounts g { s.seat i m (Seat.absorb r) fun _ m => .standing m with
      counted := s.counted ++ [r] } := by
  obtain ⟨-, -, -, -, ho⟩ := hr.gathering hm (hr.arrival_eq_none hm (Or.inl hp))
  obtain ⟨c, hcount, -, -, hn, hholds⟩ := h.holds.count hr.census ho r
  obtain ⟨ns, habsorb⟩ := Seat.run_absorb (m := m) (t := s.team) hcount
  rw [seat_eq habsorb]
  exact h.of_open (hr.census.handOff_eq_none ho) hholds (Grouper.delivered_of_none hn) rfl

/-- **The seal**, if it is due, hands nothing out by itself. -/
theorem concluded (h : s.Accounts g) (hr : s.Running phase seals late) {x : Post}
    (hx : s.posts[i]? = some x)
    (ht : t.team = s.team.withCensus (Team.concluded s.team.census x.due))
    (hc : t.counted = s.counted) (ha : t.answers = s.answers) : t.Accounts g := by
  cases hd : x.due with
  | false =>
    rw [hd] at ht
    exact h.congr (congrArg Team.grouper ht) hc ha
  | true =>
    rw [hd] at ht
    refine h.of_open (hr.census.handOff_eq_none (hr.open_of_due hx hd)) ?_ ?_ ha
    · rw [ht, hc]
      exact h.holds.congr rfl rfl rfl
    · rw [ht]
      exact Grouper.delivered_sealOff s.team.grouper

/-- **A group is asked for**, and the answer is on the record. -/
theorem ask (h : s.Accounts g) (hr : s.Running phase seals late) (m : Member) :
    (s.ask i m).Accounts g := by
  obtain ⟨answer, d, hnext, -, hserved⟩ := Grouper.run_next hr.census
  obtain ⟨p, hrun, -⟩ := Seat.run_take (m := m) hnext
  have hask : s.ask i m =
      { s.settle i { s.team with grouper := d } (.ok (.standing { m with progress := p })) with
        answers := s.answers ++ [(i, answer)] } := by
    rw [Squad.ask, seat_eq hrun, hrun]
  rw [hask]
  refine ⟨h.holds.congr hserved.config hserved.limits hserved.shards, ?_, ?_⟩
  · show (s.answers ++ [(i, answer)]).filterMap _ = d.delivered
    rw [hserved.delivered, ← h.returned, List.filterMap_append]
    cases answer <;> rfl
  · intro htold
    have hleaves : answer.Leaves s.team.census.remaining d.census.remaining := hserved.leaves
    rw [told, List.any_append, Bool.or_eq_true] at htold
    rcases htold with htold | htold
    · rw [h.ended htold] at hleaves
      exact hleaves.eq_zero
    · cases answer with
      | exhausted => exact hleaves.2
      | waiting | item => cases htold

/-- **Whatever a member does, the accounts are right.** -/
theorem act (h : s.Accounts g) (hr : s.Running phase seals late) (i : Nat) (d : Deed) :
    (s.act i d).Accounts g := by
  unfold Squad.act
  split
  · split
    · exact h.congr (Team.keeps_onBarrier Barrier.register s.team) rfl rfl
    · exact h
  · split
    · exact h.count hr ‹_› ‹_› _
    · exact h
  · split
    · exact h.congr rfl rfl rfl
    · exact h
  · split
    · exact h.congr rfl rfl rfl
    · exact h
  · rename_i m hm
    split
    · exact h.congr (Seat.keeps_arrive ⟨s.team, m⟩) rfl rfl
    · exact h
  · rw [hr.seat_finish ‹_›]
    exact h.concluded hr ‹_› rfl rfl rfl
  · split
    · exact h.ask hr _
    · exact h
  · exact h.congr (Team.keeps_withdraw _ s.team) rfl rfl
  · rw [hr.aside_conclude ‹_›]
    exact h.concluded hr ‹_› rfl rfl rfl
  · exact h

theorem after (h : s.Accounts g) (hr : s.Running phase seals late) (schedule : List (Nat × Deed)) :
    (s.after schedule).Accounts g := by
  induction schedule generalizing s with
  | nil => exact h
  | cons d schedule ih => exact ih (h.act hr d.1 d.2) (hr.act d.1 d.2)

/-- **A family begins with nothing on its accounts.** -/
theorem of_family {siblings : Nat} (h : family g siblings = .ok s) (hg : g.maxTypes ≤ 0) :
    s.Accounts g := by
  obtain ⟨c, hc, rfl⟩ := family_eq h
  refine ⟨.ofConfig hc hg, ?_, ?_⟩
  · exact (Grouper.delivered_of_none (Census.fresh_of_ofConfig hc).handOff).symm
  · intro htold
    cases htold

end Accounts

/-! ## What the members are given -/

/-- **A squad hands out what one grouper would.** However the records are dealt out to the members
and whoever is given up on the way: once a member has been told that there is nothing left, the
members together have been given what a grouper on its own hands out after it has counted the same
records in the same order, one record for each group of them. -/
theorem returned_perm_alone {siblings : Nat} (h : family g siblings = .ok s) (hg : g.maxTypes ≤ 0)
    (schedule : List (Nat × Deed))
    (hend : (s.after schedule).told = true) :
    ∃ out, Grouper.alone g (s.after schedule).counted = .ok out ∧
      (s.after schedule).returned.Perm out ∧
        (s.after schedule).returned.Perm (Grouper.report g (s.after schedule).counted) := by
  have hrunning := (opening_of_family h).running
  have haccounts := (Accounts.of_family h hg).after hrunning schedule
  have hregular := (hrunning.after schedule).census
  have hreport :
      (s.after schedule).returned.Perm (Grouper.report g (s.after schedule).counted) := by
    rw [haccounts.returned]
    exact haccounts.holds.delivered_perm hregular (haccounts.ended hend)
  obtain ⟨c, hc, -⟩ := family_eq h
  obtain ⟨out, halone, hout⟩ := Grouper.alone_perm hc hg (s.after schedule).counted
  exact ⟨out, halone, hreport.trans hout.symm, hreport⟩

/-- Two members count records of two groups between them; one is given up as soon as it has been
given a group. -/
def sharing (r r' : Record) : List (Nat × Deed) :=
  [(0, .count r), (1, .count r'), (1, .count r), (1, .enter 2), (1, .exhaust), (1, .arrive),
    (1, .finish), (0, .enter 1), (0, .exhaust), (0, .arrive), (0, .finish), (1, .take),
    (1, .withdraw), (1, .conclude), (0, .take), (0, .take)]

theorem returned_perm_alone_sharing :
    let g : Config := { keyFields := ["id"], withCount := true, shards := 2 }
    let schedule := sharing (.field "id" (.int 1) .empty) (.field "id" (.int 2) .empty)
    ∃ s out, family g 1 = .ok s ∧ (s.after schedule).returned.length = 2 ∧
      Grouper.alone g (s.after schedule).counted = .ok out ∧
        (s.after schedule).returned.Perm out := by
  intro g schedule
  have hrun : ((family g 1).map fun s => (s.after schedule).told &&
      (s.after schedule).returned.length == 2).toOption = some true := by decide +kernel
  cases h : family g 1 with
  | error e =>
    rw [h] at hrun
    cases hrun
  | ok s =>
    rw [h] at hrun
    have hs := Option.some.inj hrun
    rw [Bool.and_eq_true] at hs
    obtain ⟨out, halone, hout, -⟩ := returned_perm_alone h (by decide) schedule hs.1
    exact ⟨s, out, rfl, beq_iff_eq.1 hs.2, halone, hout⟩

end Squad

end Muster
