import Muster.Proofs.Census.Ledger
import Muster.Proofs.Squad.Sequential

/-!
# Proofs/Squad/Reckoning — what a pass hands out, cap or no cap

With a cap, what a squad hands out depends on when which groups are pruned, and so on the order of
the records that were counted, but on nothing else: it is what a table makes of the records that
takes them in one after the other (`Ledger.reckoned`). This holds of every pass, however the records
were dealt out and whatever was in the census before (`Squad.Reckons.returned_perm`).
-/

namespace Muster

/-! ## The ledger of some records -/

namespace Ledger

/-- **A record is counted**, and the cap is checked if it is time to. -/
def taking (g : Config) (l : Ledger) (r : Record) : Ledger :=
  (l.grown (Key.project g.keyFields r) (if g.retainOthers then some r else none)).checked

/-- **The ledger of some records**, counted in this order. -/
def reckoned (g : Config) (limits : Limits) (rs : List Record) : Ledger :=
  rs.foldl (taking g) { limits }

/-- **The records that stand for the groups of a ledger.** -/
def shown (g : Config) (l : Ledger) : List Record :=
  l.groups.map fun group => Grouper.shown g group.key group

/-- Checking the cap changes the groups and nothing else. -/
theorem checked_eq (l : Ledger) : ∃ groups, l.checked = { l with groups } := by
  unfold checked
  split
  · exact ⟨_, rfl⟩
  · unfold pruned
    split <;> exact ⟨_, rfl⟩

/-- How often a ledger has been sealed does not matter when the cap is checked. -/
theorem checked_seals (l : Ledger) (n : Nat) :
    ({ l with seals := n } : Ledger).checked = { l.checked with seals := n } := by
  unfold checked
  rw [show ({ l with seals := n } : Ledger).exceeded = l.exceeded from rfl]
  cases l.exceeded with
  | none => rfl
  | some cap =>
    show ({ l with seals := n } : Ledger).pruned l.limits.threshold = _
    unfold pruned
    rw [show ({ l with seals := n } : Ledger).sealed = l.sealed from rfl]
    cases l.sealed <;> rfl

theorem reckoned_append_singleton (g : Config) (limits : Limits) (rs : List Record) (r : Record) :
    reckoned g limits (rs ++ [r]) = taking g (reckoned g limits rs) r := by
  rw [reckoned, List.foldl_append]
  rfl

/-- Counting does not change the bounds, and hands nothing out. -/
theorem reckoned_open (g : Config) (limits : Limits) (rs : List Record) :
    (reckoned g limits rs).limits = limits ∧ (reckoned g limits rs).left = none := by
  suffices h : ∀ l : Ledger, (rs.foldl (taking g) l).limits = l.limits ∧
      (rs.foldl (taking g) l).left = l.left from h { limits }
  induction rs with
  | nil => exact fun l => ⟨rfl, rfl⟩
  | cons r rs ih =>
    intro l
    obtain ⟨groups, hchecked⟩ := (l.grown (Key.project g.keyFields r)
      (if g.retainOthers then some r else none)).checked_eq
    have htaking : (taking g l r).limits = l.limits ∧ (taking g l r).left = l.left := by
      rw [taking, hchecked]
      exact ⟨rfl, rfl⟩
    obtain ⟨hlimits, hleft⟩ := ih (taking g l r)
    exact ⟨hlimits.trans htaking.1, hleft.trans htaking.2⟩

end Ledger

/-- **A census that holds the groups of a ledger** counts a record as the ledger does. -/
theorem Census.groups_taking {c : Census} {l : Ledger} {seals late : Nat}
    (hc : c.Regular seals late) (ho : c.sealed = false) (hlimits : l.limits = c.limits)
    (hleft : l.left = none) (hgroups : c.groups.Perm l.groups)
    (hprocessed : c.processed = l.processed) (g : Config) (r : Record) :
    let d := (c.grown (Key.project g.keyFields r) (if g.retainOthers then some r else none)).checked
    d.groups.Perm (l.taking g r).groups ∧ d.processed = (l.taking g r).processed := by
  intro d
  have hmirrors : c.Mirrors { l with seals := c.seals } :=
    ⟨hc.sound, hc.healthy, hc.mark, hlimits, hgroups, hprocessed.symm,
      hleft.trans (by rw [hc.handOff_eq_none ho]; rfl), rfl⟩
  have hd : d.Mirrors { l.taking g r with seals := c.seals } := by
    rw [Ledger.taking, ← Ledger.checked_seals]
    exact (hmirrors.grown _ _).checked
  exact ⟨hd.groups, hd.processed.symm⟩

namespace Squad

variable {s t : Squad} {g : Config} {limits : Limits} {i phase seals late : Nat}

/-! ## What the members were answered -/

/-- **What the members of a squad were given, its grouper has handed out**, and whoever was told
that there is nothing left was told the truth. -/
structure Answered (s : Squad) : Prop where
  returned : s.returned = s.team.grouper.delivered
  ended : s.told = true → s.team.census.remaining = some 0

namespace Answered

theorem congr (h : s.Answered) (hg : t.team.grouper = s.team.grouper)
    (ha : t.answers = s.answers) : t.Answered where
  returned := by
    rw [hg, ← h.returned, Squad.returned, ha]
    rfl
  ended hend := by
    rw [told, ha] at hend
    rw [Team.census, hg]
    exact h.ended hend

/-- **Where nobody has sealed, nobody was given anything**; and so it is as long as nothing is
handed out. -/
theorem of_open (h : s.Answered) (hn : s.team.census.handOff = none)
    (hd : t.team.grouper.delivered = []) (ha : t.answers = s.answers) : t.Answered where
  returned := by
    rw [hd, Squad.returned, ha]
    exact h.returned.trans (Grouper.delivered_of_none hn)
  ended hend := by
    rw [told, ha] at hend
    have hended := h.ended hend
    rw [Census.remaining, hn] at hended
    cases hended

/-- **A group is asked for**, and the answer is on the record. -/
theorem ask (h : s.Answered) {m : Member} {answer : Taken Record} {d : Grouper} {p : Progress}
    (hrun : Seat.take.run ⟨s.team, m⟩ =
      ⟨.ok answer, ⟨{ s.team with grouper := d }, { m with progress := p }⟩, []⟩)
    (hserved : s.team.grouper.Served answer d) : (s.ask i m).Answered := by
  have hask : s.ask i m =
      { s.settle i { s.team with grouper := d } (.ok (.standing { m with progress := p })) with
        answers := s.answers ++ [(i, answer)] } := by
    rw [Squad.ask, seat_eq hrun, hrun]
  rw [hask]
  refine ⟨?_, fun htold => ?_⟩
  · show (s.answers ++ [(i, answer)]).filterMap _ = d.delivered
    rw [hserved.delivered, ← h.returned, List.filterMap_append]
    cases answer <;> rfl
  · have hleaves : answer.Leaves s.team.census.remaining d.census.remaining := hserved.leaves
    rw [told, List.any_append, Bool.or_eq_true] at htold
    rcases htold with htold | htold
    · rw [h.ended htold] at hleaves
      exact hleaves.eq_zero
    · cases answer with
      | exhausted => exact hleaves.2
      | waiting | item => cases htold

end Answered

/-! ## The reckoning of a pass -/

/-- **A squad in a pass holds what a ledger makes of the records it has counted**, in the order in
which it counted them, and was answered accordingly. -/
structure Reckons (g : Config) (limits : Limits) (s : Squad) : Prop where
  config : s.team.grouper.config = g
  bounds : s.team.census.limits = limits
  groups : s.team.census.groups.Perm (Ledger.reckoned g limits s.counted).groups
  processed : s.team.census.sealed = false →
    s.team.census.processed = (Ledger.reckoned g limits s.counted).processed
  answered : s.Answered

namespace Reckons

/-- Nothing but the grouper matters. -/
theorem congr (h : s.Reckons g limits) (hg : t.team.grouper = s.team.grouper)
    (hc : t.counted = s.counted) (ha : t.answers = s.answers) : t.Reckons g limits where
  config := by rw [hg, h.config]
  bounds := by
    rw [Team.census, hg]
    exact h.bounds
  groups := by
    rw [Team.census, hg, hc]
    exact h.groups
  processed := by
    rw [Team.census, hg, hc]
    exact h.processed
  answered := h.answered.congr hg ha

/-- **A record is counted.** -/
theorem count (h : s.Reckons g limits) (hr : s.Running phase seals late) {m : Member}
    (hm : s.posts[i]? = some (.standing m)) (hp : m.progress = .accumulating) (r : Record) :
    Reckons g limits { s.seat i m (Seat.absorb r) fun _ m => .standing m with
      counted := s.counted ++ [r] } := by
  obtain ⟨-, -, -, -, ho⟩ := hr.gathering hm (hr.arrival_eq_none hm (Or.inl hp))
  have hrun := Census.run_count_telling hr.census.sound hr.census.healthy
    (Key.project g.keyFields r) (if g.retainOthers then some r else none) []
  have hincrement : s.team.increment r = Census.count (Key.project g.keyFields r)
      (.answering (.ok (if g.retainOthers then some r else none))) := by
    rw [Team.increment, Grouper.payload_eq, Grouper.keyOf, h.config]
  rw [ho, if_neg Bool.false_ne_true, ← Census.Payload.answering_eq, ← hincrement] at hrun
  obtain ⟨ns, habsorb⟩ := Seat.run_absorb (m := m) (t := s.team) hrun
  obtain ⟨hlimits, hleft⟩ := Ledger.reckoned_open g limits s.counted
  obtain ⟨hgroups, hprocessed⟩ := Census.groups_taking hr.census ho (hlimits.trans h.bounds.symm)
    hleft h.groups (h.processed ho) g r
  obtain ⟨shards, distinct, hpos, meters, hchecked⟩ := Census.checked_eq
    (s.team.census.grown (Key.project g.keyFields r) (if g.retainOthers then some r else none))
  obtain ⟨shards', distinct', hpos', meters', hgrown⟩ := Census.grown_eq s.team.census
    (Key.project g.keyFields r) (if g.retainOthers then some r else none)
  have hopen := hr.census.handOff_eq_none ho
  rw [seat_eq habsorb]
  refine ⟨h.config, ?_, ?_, fun _ => ?_, h.answered.of_open hopen ?_ rfl⟩
  · show (Census.checked _).limits = limits
    rw [Census.limits_checked, Census.limits_grown, h.bounds]
  · show (Census.checked _).groups.Perm (Ledger.reckoned g limits (s.counted ++ [r])).groups
    rw [Ledger.reckoned_append_singleton]
    exact hgroups
  · show (Census.checked _).processed = (Ledger.reckoned g limits (s.counted ++ [r])).processed
    rw [Ledger.reckoned_append_singleton]
    exact hprocessed
  · refine Grouper.delivered_of_none ?_
    show (Census.checked _).handOff = none
    rw [hchecked, hgrown]
    exact hopen

/-- **The seal**, if it is due, hands nothing out by itself. -/
theorem concluded (h : s.Reckons g limits) (hr : s.Running phase seals late) {x : Post}
    (hx : s.posts[i]? = some x)
    (ht : t.team = s.team.withCensus (Team.concluded s.team.census x.due))
    (hc : t.counted = s.counted) (ha : t.answers = s.answers) : t.Reckons g limits := by
  cases hd : x.due with
  | false =>
    rw [hd] at ht
    exact h.congr (congrArg Team.grouper ht) hc ha
  | true =>
    rw [hd] at ht
    have hopen := hr.census.handOff_eq_none (hr.open_of_due hx hd)
    refine ⟨?_, ?_, ?_, fun ho => ?_, h.answered.of_open hopen ?_ ha⟩
    · rw [ht]
      exact h.config
    · rw [ht]
      exact h.bounds
    · rw [ht, hc]
      exact h.groups
    · rw [ht] at ho
      cases ho
    · rw [ht]
      exact Grouper.delivered_sealOff s.team.grouper

/-- **A group is asked for.** -/
theorem ask (h : s.Reckons g limits) (hr : s.Running phase seals late) (m : Member) :
    (s.ask i m).Reckons g limits := by
  obtain ⟨answer, d, hnext, -, hserved⟩ := Grouper.run_next hr.census
  obtain ⟨p, hrun, -⟩ := Seat.run_take (m := m) hnext
  have hanswered := h.answered.ask (i := i) hrun hserved
  have hteam : (s.ask i m).team = { s.team with grouper := d } := by
    rw [Squad.ask, seat_eq hrun]
    rfl
  refine ⟨?_, ?_, ?_, fun ho => ?_, hanswered⟩
  · rw [hteam]
    exact hserved.config.trans h.config
  · rw [hteam]
    exact hserved.limits.trans h.bounds
  · rw [hteam]
    show (d.census.shards.toList.flatMap Shard.groups).Perm _
    rw [hserved.shards]
    exact h.groups
  · -- an open census has nothing to hand out
    rw [hteam] at ho ⊢
    have hopen : s.team.census.sealed = false := hserved.mark.symm.trans ho
    have hwait := Grouper.run_next_of_none hr.census.healthy (hr.census.handOff_eq_none hopen)
    rw [hnext] at hwait
    have hd : d = s.team.grouper := congrArg Outcome.state hwait
    rw [hd]
    exact h.processed hopen

/-- **Whatever a member does, the squad reckons.** -/
theorem act (h : s.Reckons g limits) (hr : s.Running phase seals late) (i : Nat) (d : Deed) :
    (s.act i d).Reckons g limits := by
  unfold Squad.act
  split
  · split
    · exact h.congr (Team.keeps_onBarrier Barrier.register s.team) rfl rfl
    · exact h
  · split
    · exact h.count hr ‹_› ‹_› _
    · exact h
  · split
    · exact h.congr rfl rfl rfl
    · exact h
  · split
    · exact h.congr rfl rfl rfl
    · exact h
  · rename_i m hm
    split
    · exact h.congr (Seat.keeps_arrive ⟨s.team, m⟩) rfl rfl
    · exact h
  · rw [hr.seat_finish ‹_›]
    exact h.concluded hr ‹_› rfl rfl rfl
  · split
    · exact h.ask hr _
    · exact h
  · exact h.congr (Team.keeps_withdraw _ s.team) rfl rfl
  · rw [hr.aside_conclude ‹_›]
    exact h.concluded hr ‹_› rfl rfl rfl
  · exact h

theorem after (h : s.Reckons g limits) (hr : s.Running phase seals late)
    (schedule : List (Nat × Deed)) : (s.after schedule).Reckons g limits := by
  induction schedule generalizing s with
  | nil => exact h
  | cons d schedule ih => exact ih (h.act hr d.1 d.2) (hr.act d.1 d.2)

/-- **At the start of a pass** there is nothing to reckon. -/
theorem of_opening (h : s.Opening) (hc : s.counted = []) (ha : s.answers = []) :
    s.Reckons s.team.grouper.config s.team.census.limits where
  config := rfl
  bounds := rfl
  groups := by
    rw [h.census.groups_eq_nil, hc]
    exact List.Perm.refl _
  processed _ := by
    rw [h.census.processed, hc]
    rfl
  answered := by
    refine ⟨?_, fun htold => ?_⟩
    · rw [Squad.returned, ha]
      exact (Grouper.delivered_of_none h.census.handOff).symm
    · rw [told, ha] at htold
      cases htold

/-- **Once a member has been told that there is nothing left**, the members have been given what the
ledger shows, and the census is sealed. -/
theorem returned_perm (h : s.Reckons g limits) (hr : s.Running phase seals late)
    (hend : s.told = true) :
    s.returned.Perm ((Ledger.reckoned g limits s.counted).shown g) ∧
      s.team.census.sealed = true := by
  obtain ⟨ho, hh, hnone⟩ := Option.map_eq_some_iff.1 (h.answered.ended hend)
  have hdelivered := Grouper.delivered_perm hr.census.sound hh (hr.census.handsOff ho hh) hnone
  rw [h.config] at hdelivered
  refine ⟨?_, ?_⟩
  · rw [h.answered.returned]
    exact hdelivered.trans (h.groups.map _)
  · rw [hr.census.mark, hh]
    rfl

end Reckons

end Squad

end Muster
