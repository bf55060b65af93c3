import Muster.Proofs.Grouper.Alone

/-!
# Proofs/Grouper/Retaining — count and retained record belong together

A grouper that retains the first record of each group is counted into and pruned, in any order. A
group that is pruned begins anew when its key comes again, and both its count and its retained
record begin with it. So at any time a group is the end of the records of its key: the one that
opened it, and all that came later (`Group.Follows`).

A check of the cap may prune the very group that the increment has opened. That does no harm, since
what is pruned only disappears (`find?_of_checked`).

* `retains_opener` — the retained record is the one with which the present count began.
-/

namespace Muster

/-! ## The records of a key -/

/-- **A group follows the records of its key**, each with whether it opened the group: it retains
the last one that did, and counts that one and those that came later. -/
def Group.Follows (own : List (Record × Bool)) (group : Group) : Prop :=
  ∃ before r later, own = before ++ (r, true) :: later ∧ (∀ a ∈ later, a.2 = false) ∧
    group.count = later.length + 1 ∧ group.retained = some r

namespace Group

variable {group : Group} {own : List (Record × Bool)}

/-- A record that opens a group is retained, and counted once. -/
theorem follows_new (own : List (Record × Bool)) (k : Key) (r : Record) :
    Group.Follows (own ++ [(r, true)]) { key := k, retained := some r } :=
  ⟨own, r, [], rfl, fun _ ha => absurd ha List.not_mem_nil, rfl, rfl⟩

/-- A record that comes to its group is counted there. -/
theorem Follows.counted (h : group.Follows own) (s : Record) :
    Group.Follows (own ++ [(s, false)]) { group with count := group.count + 1 } := by
  obtain ⟨before, r, later, rfl, hlater, hcount, hretained⟩ := h
  refine ⟨before, r, later ++ [(s, false)], by simp, fun a ha => ?_, ?_, hretained⟩
  · rcases List.mem_append.1 ha with ha | ha
    · exact hlater a ha
    · rw [List.mem_singleton.1 ha]
  · rw [hcount, List.length_append]
    rfl

/-- **Counted from the end, the retained record stands where the count says.** -/
theorem Follows.getElem? (h : group.Follows own) :
    1 ≤ group.count ∧ group.count ≤ own.length ∧ ∃ r,
      own[own.length - group.count]? = some (r, true) ∧ group.retained = some r ∧
        ∀ a ∈ own.drop (own.length - group.count + 1), a.2 = false := by
  obtain ⟨before, r, later, rfl, hlater, hcount, hretained⟩ := h
  have hlength : (before ++ (r, true) :: later).length = before.length + group.count := by
    rw [List.length_append, List.length_cons, hcount]
  have hplace : (before ++ (r, true) :: later).length - group.count = before.length := by
    rw [hlength, Nat.add_sub_cancel]
  rw [hplace]
  refine ⟨hcount ▸ Nat.succ_pos _, by omega, r, by simp, hretained, fun a ha => hlater a ?_⟩
  rw [List.append_cons, List.drop_left' (by simp)] at ha
  exact ha

end Group

namespace Census

variable {c : Census}

/-! ## What is found after an increment -/

/-- A check of the cap only takes groups away. -/
theorem find?_of_checked (h : c.Open) {k : Key} {group : Group}
    (hk : c.checked.find? k = some group) : c.find? k = some group := by
  unfold checked at hk
  split at hk
  · exact hk
  · have hpruned : (c.pruned c.limits.threshold).find? k = some group := hk
    rw [find?_pruned h.sound h.mark, Option.filter_eq_some_iff] at hpruned
    exact hpruned.1

/-- An increment leaves the groups of other keys as they are. -/
theorem find?_grown_of_not_same (hc : c.Sound) {k l : Key} (hkl : k.same l = false)
    (r : Option Record) : (c.grown k r).find? l = c.find? l := by
  unfold grown
  split
  · show (c.bumped k).find? l = _
    rw [hc.find?_bumped]
    cases hl : c.find? l with
    | none => rfl
    | some g =>
      have hgk : g.key.same k = false := by
        rw [Key.same_congr (hc.mem_of_find? hl).2, Key.same_comm, hkl]
      exact congrArg some (Group.bumpIf_of_not_same hgk)
  · show (c.inserted k r).find? l = _
    rw [find?_inserted, if_neg (hkl ▸ Bool.false_ne_true)]

/-- **An increment counts in the group of its key**, or opens one. -/
theorem find?_grown_of_same (hc : c.Sound) {k l : Key} (hkl : k.same l = true)
    (r : Option Record) : (c.grown k r).find? l =
      match c.find? l with
      | some g => some { g with count := g.count + 1 }
      | none => some { key := k, retained := r } := by
  unfold grown
  rw [hc.find?_congr hkl]
  cases hl : c.find? l with
  | some g =>
    have hgk : g.key.same k = true := by
      rw [Key.same_congr (hc.mem_of_find? hl).2, Key.same_comm, hkl]
    show (c.bumped k).find? l = _
    rw [hc.find?_bumped, hl, Option.map_some, Group.bumpIf, if_pos hgk]
  | none =>
    show (c.inserted k r).find? l = _
    rw [find?_inserted, if_pos hkl]

end Census

namespace Grouper

variable {x : Grouper} {g : Config} {log : List (Record × Bool)}

/-! ## Counting and pruning -/

/-- **What is done to an unsealed grouper**: a record is counted, or the grouper is pruned. -/
inductive Chore
  | count (r : Record)
  | prune (threshold : Nat)

/-- The record that is counted, if one is. -/
def Chore.record? : Chore → Option Record
  | count r => some r
  | prune _ => none

/-- **One chore after the other.** The answer is the records that were counted, each with whether it
opened a group. -/
def tend : List Chore → Call Grouper (List (Record × Bool))
  | [] => return []
  | .count r :: chores => do
    let new ← count r
    let log ← tend chores
    return (r, new) :: log
  | .prune threshold :: chores => do
    let _ ← prune threshold
    tend chores

/-- The records of a key, among some that were counted. -/
def ownOf (g : Config) (log : List (Record × Bool)) (k : Key) : List (Record × Bool) :=
  log.filter fun a => (Key.project g.keyFields a.1).same k

theorem ownOf_append_singleton (log : List (Record × Bool)) (a : Record × Bool) (k : Key) :
    ownOf g (log ++ [a]) k =
      if (Key.project g.keyFields a.1).same k then ownOf g log k ++ [a] else ownOf g log k := by
  rw [ownOf, List.filter_append, List.filter_singleton]
  cases (Key.project g.keyFields a.1).same k with
  | true => rfl
  | false => exact List.append_nil _

/-- **A grouper that has counted some records and may have been pruned**: each of its groups follows
the records of its key. -/
structure Retains (g : Config) (log : List (Record × Bool)) (x : Grouper) : Prop where
  config : x.config = g
  isOpen : x.census.Open
  healthy : x.census.Healthy
  follows (k : Key) (group : Group) :
    x.census.find? k = some group → group.Follows (ownOf g log k)

namespace Retains

theorem ofConfig (h : Grouper.ofConfig g = .ok x) : x.Retains g [] := by
  obtain ⟨c, hc, rfl⟩ := ofConfig_eq_ok_iff.1 h
  have hfresh := Census.fresh_of_ofConfig hc
  refine ⟨rfl, hfresh.isOpen, hfresh.healthy, fun k group hk => ?_⟩
  rw [hfresh.find?_eq_none] at hk
  cases hk

/-- **An increment opens a group, or is counted in one.** -/
theorem grown (h : x.Retains g log) (r : Record) :
    let c := x.census.grown (Key.project g.keyFields r) (some r)
    Retains g (log ++ [(r, (x.census.find? (Key.project g.keyFields r)).isNone)])
      { x with census := c } := by
  have hc := h.isOpen.sound
  refine ⟨h.config, h.isOpen.grown _ _, h.healthy.grown _ _, fun k group hk => ?_⟩
  rw [ownOf_append_singleton]
  cases hsame : (Key.project g.keyFields r).same k with
  | false =>
    rw [Census.find?_grown_of_not_same hc hsame] at hk
    exact h.follows k group hk
  | true =>
    rw [Census.find?_grown_of_same hc hsame] at hk
    rw [hc.find?_congr hsame]
    cases hfound : x.census.find? k with
    | none =>
      rw [hfound] at hk
      obtain rfl := Option.some.inj hk
      exact Group.follows_new _ _ r
    | some group' =>
      rw [hfound] at hk
      obtain rfl := Option.some.inj hk
      exact (h.follows k group' hfound).counted r

/-- **What only disappears does no harm.** -/
theorem thinned (h : x.Retains g log) {c : Census} (ho : c.Open) (hh : c.Healthy)
    (hsub : ∀ k group, c.find? k = some group → x.census.find? k = some group) :
    Retains g log { x with census := c } :=
  ⟨h.config, ho, hh, fun k group hk => h.follows k group (hsub k group hk)⟩

/-- **A record that is counted.** -/
theorem count (h : x.Retains g log) (hr : g.retainOthers = true) (r : Record) :
    ∃ new y ns, (Grouper.count r).run x = ⟨.ok new, y, ns⟩ ∧ y.Retains g (log ++ [(r, new)]) := by
  have hrun := Census.run_count_telling h.isOpen.sound h.healthy (x.keyOf r)
    (if x.config.retainOthers then some r else none) []
  rw [← Census.Payload.answering_eq, ← payload_eq, h.isOpen.mark, if_neg Bool.false_ne_true,
    h.config, hr, if_pos rfl] at hrun
  have hkey : x.keyOf r = Key.project g.keyFields r := by rw [keyOf, h.config]
  have hgrown := h.grown r
  rw [← hkey] at hgrown
  exact ⟨_, _, _, run_count_ok hrun, hgrown.thinned hgrown.isOpen.checked hgrown.healthy.checked
    fun _ _ hk => Census.find?_of_checked hgrown.isOpen hk⟩

/-- **A pass of pruning.** -/
theorem prune (h : x.Retains g log) (threshold : Nat) :
    ∃ n y ns, (Grouper.prune threshold).run x = ⟨.ok n, y, ns⟩ ∧ y.Retains g log := by
  have hc := h.isOpen
  have hopen : ((x.census.pruned threshold).reported (x.census.rare threshold)).Open := by
    have hsound := hc.sound.pruned threshold
    obtain ⟨shards, distinct, hpos, heq⟩ := x.census.pruned_eq threshold
    rw [heq] at hsound ⊢
    exact ⟨hsound.congr rfl rfl, hc.mark, hc.handOff⟩
  refine ⟨_, _, _, run_onCensus_ok (Census.run_prune h.healthy threshold),
    h.thinned hopen ((h.healthy.pruned threshold).congr rfl rfl) fun k group hk => ?_⟩
  have hpruned : (x.census.pruned threshold).find? k = some group := hk
  rw [Census.find?_pruned hc.sound hc.mark, Option.filter_eq_some_iff] at hpruned
  exact hpruned.1

/-- **One chore after the other.** -/
theorem tend (hr : g.retainOthers = true) : ∀ (chores : List Chore) {log : List (Record × Bool)}
    {x : Grouper}, x.Retains g log → ∃ more y ns, (Grouper.tend chores).run x = ⟨.ok more, y, ns⟩ ∧
      more.map Prod.fst = chores.filterMap Chore.record? ∧ y.Retains g (log ++ more)
  | [], log, x, h => ⟨[], x, [], rfl, rfl, by rwa [List.append_nil]⟩
  | .count r :: chores, log, x, h => by
    obtain ⟨new, y, ns, hcount, hy⟩ := h.count hr r
    obtain ⟨more, z, ns', hmore, hrecords, hz⟩ := Retains.tend hr chores hy
    refine ⟨(r, new) :: more, z, ns ++ ns', ?_, congrArg (r :: ·) hrecords, ?_⟩
    · rw [Grouper.tend, Call.run_bind_ok hcount, Call.run_bind_ok hmore]
      simp
    · rwa [List.append_assoc] at hz
  | .prune threshold :: chores, log, x, h => by
    obtain ⟨n, y, ns, hprune, hy⟩ := h.prune threshold
    obtain ⟨more, z, ns', hmore, hrecords, hz⟩ := Retains.tend hr chores hy
    refine ⟨more, z, ns ++ ns', ?_, hrecords, hz⟩
    rw [Grouper.tend, Call.run_bind_ok hprune, hmore]

end Retains

/-! ## Every grouper that retains records -/

/-- **The retained record is the one with which the present count began.** However a new grouper
that retains records is counted into and pruned: where a key is there with a count, the record
retained for it stands as far from the end of the records of its key as the count says; it opened
the group, and none of those that came later did. Where a key is not there, nothing is retained for
it. -/
theorem retains_opener (hr : g.retainOthers = true) (hx : ofConfig g = .ok x)
    (chores : List Chore) :
    ∃ log y ns, (tend chores).run x = ⟨.ok log, y, ns⟩ ∧
      log.map Prod.fst = chores.filterMap Chore.record? ∧
      ∀ k : Key, ∃ count retained,
        (onCensus (Census.countOf k)).run y = ⟨.ok count, y, []⟩ ∧
        (onCensus (Census.retained k)).run y = ⟨.ok retained, y, []⟩ ∧
        match count with
        | none => retained = none
        | some n =>
          let own := ownOf g log k
          1 ≤ n ∧ n ≤ own.length ∧ ∃ r, own[own.length - n]? = some (r, true) ∧
            retained = some r ∧ ∀ a ∈ own.drop (own.length - n + 1), a.2 = false := by
  obtain ⟨log, y, ns, hrun, hrecords, hy⟩ := (Retains.ofConfig hx).tend hr chores
  refine ⟨log, y, ns, hrun, hrecords, fun k => ?_⟩
  refine ⟨(y.census.find? k).map Group.count, (y.census.find? k).bind Group.retained, ?_, ?_, ?_⟩
  · rw [run_onCensus, Census.run_countOf, hy.healthy.shard]
    rfl
  · rw [run_onCensus, Census.run_retained, hy.healthy.shard]
    rfl
  · cases hk : y.census.find? k with
    | none => rfl
    | some group => exact (hy.follows k group hk).getElem?

/-- One key is pruned by the very increment that opens its group; the other begins anew with its
third record. -/
theorem retains_opener_anew :
    let g : Config := {
      keyFields := ["id"], retainOthers := true, maxTypes := 1, checkpointInterval := 3,
      shards := 1 }
    let record := fun id s => Record.field "id" (.int id) (.field "text" (.str s) .empty)
    let key := Key.project g.keyFields (record 1 "")
    let chores : List Chore := [.count (record 1 "a"), .count (record 1 "b"), .count (record 2 "x"),
      .count (record 2 "y"), .prune 3, .count (record 1 "c"), .count (record 1 "d")]
    g.retainOthers = true ∧ ∃ x log y ns, ofConfig g = .ok x ∧
      (tend chores).run x = ⟨.ok log, y, ns⟩ ∧
      log.map Prod.snd = [true, false, true, true, true, false] ∧
      (onCensus (Census.countOf key)).run y = ⟨.ok (some 2), y, []⟩ ∧
      (ownOf g log key).length = 4 ∧ ∃ r, (ownOf g log key)[4 - 2]? = some (r, true) ∧
        (onCensus (Census.retained key)).run y = ⟨.ok (some r), y, []⟩ := by
  intro g record key chores
  have hr : g.retainOthers = true := rfl
  obtain ⟨c, hc⟩ := (Census.exists_ofConfig_iff (g := g) (by decide) (by decide)).2 (by decide)
  have hx : ofConfig g = .ok { config := g, census := c } := ofConfig_eq_ok_iff.2 ⟨c, hc, rfl⟩
  obtain ⟨log, y, ns, hrun, -, hkeys⟩ := retains_opener hr hx chores
  obtain ⟨count, retained, hcount, hretained, h⟩ := hkeys key
  have hseen : ∀ x, ofConfig g = .ok x → (((tend chores).run x).result.toOption.map fun log =>
        (log.map Prod.snd, (ownOf g log key).length)) =
          some ([true, false, true, true, true, false], 4) ∧
      ((onCensus (Census.countOf key)).run ((tend chores).run x).state).result.toOption =
        some (some 2) := by
    rintro x ⟨⟩
    decide +kernel
  obtain ⟨hlog, htwo⟩ := hseen _ hx
  rw [hrun] at hlog htwo
  rw [hcount] at htwo
  obtain rfl : count = some 2 := Option.some.inj htwo
  obtain ⟨hanswers, hlength⟩ := Prod.mk.inj (Option.some.inj hlog)
  obtain ⟨-, -, r, hown, rfl, -⟩ := h
  rw [hlength] at hown
  exact ⟨hr, _, log, y, ns, hx, hrun, hanswers, hcount, hlength, r, hown, hretained⟩

end Grouper

end Muster
