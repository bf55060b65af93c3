import Muster.Proofs.Census.Fresh
import Muster.Proofs.Grouper.HandingOut
import Muster.Proofs.Traffic.Basic

/-!
# Proofs/Traffic/Frozen — a published hand-off is final

Increments, passes of pruning, seals and callers that take keys may be anywhere in their work when
a seal raises its mark. Every section on a shard looks at the mark again, so that nothing changes in
a shard after its keys have been collected, and the hand-off lists what the census holds from then
on.

* `Caller.step_cases` — what a section can do to the census.
* `Census.Onward` — what no section of any caller undoes.
* `Caller.Fits` — what a caller has found out and relies on.
* `Traffic.Orderly` — the invariant, preserved by every turn.
-/

namespace Muster

/-! ## What no section undoes -/

/-- **A census later on**: a sealed one has kept its groups, and a hand-off its keys. -/
structure Census.Onward (c d : Census) : Prop where
  sound : d.Sound
  frozen : c.sealed = true → d.sealed = true ∧ d.shards = c.shards ∧ d.distinct = c.distinct
  keys : ∀ h, c.handOff = some h → ∃ h', d.handOff = some h' ∧ h'.keys = h.keys

namespace Census

variable {c d e : Census}

theorem Onward.refl (h : c.Sound) : c.Onward c :=
  ⟨h, fun hs => ⟨hs, rfl, rfl⟩, fun h hh => ⟨h, hh, rfl⟩⟩

theorem Onward.trans (h : c.Onward d) (h' : d.Onward e) : c.Onward e where
  sound := h'.sound
  frozen hs := by
    obtain ⟨hd, hsd, hdd⟩ := h.frozen hs
    obtain ⟨he, hse, hde⟩ := h'.frozen hd
    exact ⟨he, hse.trans hsd, hde.trans hdd⟩
  keys ho hc := by
    obtain ⟨hd, hhd, hkd⟩ := h.keys ho hc
    obtain ⟨he, hhe, hke⟩ := h'.keys hd hhd
    exact ⟨he, hhe, hke.trans hkd⟩

theorem Steady.onward (h : c.Steady d) : c.Onward d where
  sound := h.sound
  frozen hs := ⟨h.mark.trans hs, h.frozen hs⟩
  keys ho hc := ⟨ho, h.handOff.trans hc, rfl⟩

theorem Sound.onward_claimed (hc : c.Sound) {h : HandOff} (hh : c.handOff = some h) :
    c.Onward (c.claimed h) where
  sound := hc.congr rfl rfl
  frozen hs := ⟨hs, rfl, rfl⟩
  keys ho hc := by
    obtain rfl : h = ho := Option.some.inj (hh.symm.trans hc)
    exact ⟨_, rfl, h.keys_take⟩

/-- Whoever seals has found no hand-off. -/
theorem Sound.onward_published (hc : c.Sound) (hh : c.handOff = none) (keys : List Key) :
    c.Onward (c.published keys) where
  sound := hc.congr rfl rfl
  frozen hs := ⟨hs, rfl, rfl⟩
  keys ho hc := by simp [hh] at hc

theorem Sound.onward_marked (hc : c.Sound) : c.Onward c.marked :=
  ⟨hc.congr rfl rfl, fun _ => ⟨rfl, rfl, rfl⟩, fun ho hc => ⟨ho, hc, rfl⟩⟩

theorem Sound.onward_locked (hc : c.Sound) : c.Onward { c with sealPoisoned := true } :=
  ⟨hc.congr rfl rfl, fun hs => ⟨hs, rfl, rfl⟩, fun ho hc => ⟨ho, hc, rfl⟩⟩

end Census

/-! ## What callers rely on -/

/-- **What a caller has found out and relies on.** Whoever seals has found no hand-off, and has
collected the keys of the shards it has visited; whoever makes a record of a group has its key from
the hand-off, and looks up what the census holds. -/
def Caller.Fits (c : Census) : Caller → Prop
  | .sealing .marking => c.handOff = none
  | .sealing (.snapshotting left keys) =>
    c.handOff = none ∧ c.sealed = true ∧
      ∃ seen, c.slots = seen ++ left ∧ keys = seen.flatMap fun i => (c.shard i).keys
  | .fetching _ (.retrieving k) => ∃ h, c.handOff = some h ∧ k ∈ h.keys
  | .fetching g (.tallying k retained) => ∃ h, c.handOff = some h ∧ k ∈ h.keys ∧
    (g.retainOthers = true → retained = (c.find? k).bind Group.retained)
  | .fetching g (.fetched (.item r)) => ∃ h, c.handOff = some h ∧ ∃ k ∈ h.keys,
    ∃ group, c.find? k = some group ∧ Grouper.output g k group.retained (some group.count) = .ok r
  | .broken (.fetching _) e => e = .poisoned
  | _ => True

namespace Caller

variable {c d : Census} {x : Caller}

/-- **What a caller relies on, the others leave alone.** -/
theorem Fits.mono (hx : x.Fits c) (hc : c.HandsOff) (hcd : c.Onward d)
    (hd : x.holds = true → c.handOff = none → d.handOff = none) : x.Fits d := by
  have hstay : ∀ {h : HandOff}, c.handOff = some h → ∃ h', d.handOff = some h' ∧ h'.keys = h.keys ∧
      ∀ k, d.find? k = c.find? k := by
    intro h hh
    obtain ⟨h', hh', hkeys⟩ := hcd.keys h hh
    have hshards := (hcd.frozen (hc h hh).mark).2.1
    exact ⟨h', hh', hkeys, fun k => Census.find?_congr_shards hshards k⟩
  unfold Fits at hx ⊢
  split at hx
  · exact hd rfl hx
  · obtain ⟨hnone, hs, seen, hseen, rfl⟩ := hx
    obtain ⟨hds, hshards, -⟩ := hcd.frozen hs
    refine ⟨hd rfl hnone, hds, seen, ?_, ?_⟩
    · rw [← hseen, Census.slots, Census.slots, hshards]
    · simp only [Census.shard, hshards]
  · obtain ⟨h, hh, hk⟩ := hx
    obtain ⟨h', hh', hkeys, -⟩ := hstay hh
    exact ⟨h', hh', hkeys ▸ hk⟩
  · obtain ⟨h, hh, hk, hr⟩ := hx
    obtain ⟨h', hh', hkeys, hfind⟩ := hstay hh
    exact ⟨h', hh', hkeys ▸ hk, fun hg => (hr hg).trans (by rw [hfind])⟩
  · obtain ⟨h, hh, k, hk, group, hgroup, hout⟩ := hx
    obtain ⟨h', hh', hkeys, hfind⟩ := hstay hh
    exact ⟨h', hh', k, hkeys ▸ hk, group, (hfind k).trans hgroup, hout⟩
  · exact hx
  · trivial

/-- **What a section of a seal does to the census**: nothing, unless its caller holds the lock. -/
theorem sealing_cases {p : Sealing} (hx : (sealing p).Fits c) :
    (p.step.run c).state = c ∨ (sealing p).holds = true ∧
      ((p.step.run c).state = c.marked ∨ (p.step.run c).state = { c with sealPoisoned := true } ∨
        c.handOff = none ∧ ∃ keys, (p.step.run c).state = c.published keys) := by
  cases p with
  | waiting =>
    refine Or.inl ?_
    rw [Sealing.run_step_waiting]
    split
    · rfl
    · split <;> rfl
  | marking => exact Or.inr ⟨rfl, Or.inl rfl⟩
  | snapshotting left keys =>
    cases left with
    | nil => exact Or.inr ⟨rfl, Or.inr (Or.inr ⟨hx.1, keys, rfl⟩)⟩
    | cons i left =>
      rw [Sealing.run_step_snapshot]
      split
      · exact Or.inr ⟨rfl, Or.inr (Or.inl rfl)⟩
      · exact Or.inl rfl
  | sealed new => exact Or.inl rfl

/-- **What a section of asking for a group does to the census**: at most it takes a key. -/
theorem fetching_cases (g : Config) (p : Fetching) (c : Census) :
    ((p.step g).run c).state = c ∨
      ∃ h, c.handOff = some h ∧ ((p.step g).run c).state = c.claimed h := by
  cases p with
  | asking =>
    rw [Fetching.run_step_asking]
    cases c.handOff with
    | none => cases c.sealPoisoned <;> exact Or.inl rfl
    | some h => exact Or.inr ⟨h, rfl, rfl⟩
  | retrieving k =>
    refine Or.inl ?_
    rw [Fetching.run_step_retrieving]
    split
    · split <;> rfl
    · rfl
  | tallying k retained =>
    refine Or.inl ?_
    rw [Fetching.run_step_tallying]
    split <;> rfl
  | fetched answer => exact Or.inl rfl

/-- **What a section does to the census.** It stays in the frame of increments and passes of
pruning, or takes a key from the hand-off; whoever holds the lock of the seal may also raise the
mark, publish a hand-off, or break off. -/
theorem step_cases (hc : c.Sound) (hx : x.Fits c) :
    c.Steady (x.step.run c).state ∨
      (∃ h, c.handOff = some h ∧ (x.step.run c).state = c.claimed h) ∨
        x.holds = true ∧ ((x.step.run c).state = c.marked ∨
          (x.step.run c).state = { c with sealPoisoned := true } ∨
            c.handOff = none ∧ ∃ keys, (x.step.run c).state = c.published keys) := by
  cases x with
  | counting k answer p =>
    rw [step, Call.run_map]
    exact Or.inl (Counting.keeps_step k answer p c hc)
  | pruning threshold p =>
    rw [step, Call.run_map]
    exact Or.inl (Sweep.keeps_step threshold p c hc)
  | sealing p =>
    rw [step, Call.run_map]
    dsimp only
    obtain h | h := sealing_cases hx
    · rw [h]
      exact Or.inl (.refl hc)
    · exact Or.inr (Or.inr h)
  | taking answer =>
    cases answer with
    | some t => exact Or.inl (.refl hc)
    | none =>
      rw [run_step_taking]
      cases c.handOff with
      | none => cases c.sealPoisoned <;> exact Or.inl (.refl hc)
      | some h => exact Or.inr (Or.inl ⟨h, rfl, rfl⟩)
  | fetching g p =>
    rw [step, Call.run_map]
    dsimp only
    obtain h | h := fetching_cases g p c
    · rw [h]
      exact Or.inl (.refl hc)
    · exact Or.inr (Or.inl h)
  | broken errand e => exact Or.inl (.refl hc)

/-- **No section undoes a hand-off.** -/
theorem onward_step (hc : c.Sound) (hx : x.Fits c) : c.Onward (x.step.run c).state := by
  obtain h | ⟨h, hh, hd⟩ | ⟨-, hd | hd | ⟨hh, keys, hd⟩⟩ := step_cases hc hx
  · exact h.onward
  · exact hd ▸ hc.onward_claimed hh
  · exact hd ▸ hc.onward_marked
  · exact hd ▸ hc.onward_locked
  · exact hd ▸ hc.onward_published hh keys

/-- **Only the holder of the lock publishes a hand-off.** -/
theorem handOff_step (hc : c.Sound) (hx : x.Fits c) (hxh : x.holds = false)
    (hh : c.handOff = none) : (x.step.run c).state.handOff = none := by
  obtain h | ⟨h, hsome, -⟩ | ⟨h, -⟩ := step_cases hc hx
  · exact h.handOff.trans hh
  · exact absurd (hh.symm.trans hsome) (by simp)
  · exact absurd h (by simp [hxh])

/-- **A hand-off is final from the section that publishes it.** -/
theorem handsOff_step (hc : c.Sound) (hho : c.HandsOff) (hx : x.Fits c) :
    (x.step.run c).state.HandsOff := by
  intro h' hh'
  have hcd := onward_step hc hx
  cases hh : c.handOff with
  | some h =>
    obtain ⟨h₂, hh₂, hkeys⟩ := hcd.keys h hh
    obtain rfl : h₂ = h' := Option.some.inj (hh₂.symm.trans hh')
    have hf := hho h hh
    obtain ⟨hs, hshards, -⟩ := hcd.frozen hf.mark
    exact hf.congr hs hshards hkeys
  | none =>
    -- the section is the one that publishes
    by_cases hxh : x.holds = true
    · unfold holds at hxh
      split at hxh
      · rw [step, Call.run_map, Sealing.run_step_marking] at hh'
        exact absurd (hh.symm.trans hh') (by simp)
      · rename_i left keys
        obtain ⟨-, hs, seen, hseen, hkeys⟩ := hx
        cases left with
        | nil =>
          rw [step, Call.run_map, Sealing.run_step_publish] at hh' ⊢
          obtain rfl := Option.some.inj hh'
          rw [List.append_nil] at hseen
          subst hseen
          exact ⟨hs, hkeys⟩
        | cons i left =>
          rw [step, Call.run_map, Sealing.run_step_snapshot] at hh'
          split at hh' <;> exact absurd (hh.symm.trans hh') (by simp)
      · cases hxh
    · have hnone := handOff_step hc hx (Bool.eq_false_iff.2 hxh) hh
      exact absurd (hnone.symm.trans hh') (by simp)

theorem errand_of_holds (h : x.holds = true) : x.errand = .sealing := by
  unfold holds at h
  split at h
  · rfl
  · rfl
  · cases h

/-- Whoever holds the lock has held it, or has waited for it. -/
theorem holds_of_holds_next (h : (x.next (x.step.run c).result).holds = true) :
    x.holds = true ∨ x.queues = true := by
  have herrand := (errand_next x c).symm.trans (errand_of_holds h)
  cases x with
  | sealing p =>
    cases p with
    | waiting => exact Or.inr rfl
    | marking => exact Or.inl rfl
    | snapshotting left keys => exact Or.inl rfl
    | sealed new => exact absurd h Bool.false_ne_true
  | broken errand e => exact absurd h Bool.false_ne_true
  | counting | pruning | taking | fetching => exact absurd herrand (by simp [errand])

theorem fits_sealing {p : Sealing} (hx : (sealing p).Fits c) :
    ((sealing p).next ((sealing p).step.run c).result).Fits ((sealing p).step.run c).state := by
  rw [step, Call.run_map]
  cases p with
  | waiting =>
    rw [Sealing.run_step_waiting]
    split
    · trivial
    split
    · trivial
    · exact Option.not_isSome_iff_eq_none.1 ‹_›
  | marking => exact ⟨hx, rfl, [], rfl, rfl⟩
  | snapshotting left keys =>
    cases left with
    | nil => trivial
    | cons i left =>
      obtain ⟨hnone, hs, seen, hseen, rfl⟩ := hx
      rw [Sealing.run_step_snapshot]
      split
      · trivial
      · refine ⟨hnone, hs, seen ++ [i], ?_, ?_⟩
        · rw [hseen, List.append_assoc, List.singleton_append]
        · rw [List.flatMap_append, List.flatMap_singleton]
  | sealed new => trivial

/-- **Whoever makes a record of a group finds it**, and makes the record that its configuration asks
for. -/
theorem fits_fetching (hc : c.Sound) (hho : c.HandsOff) {g : Config} {p : Fetching}
    (hx : (fetching g p).Fits c) :
    ((fetching g p).next ((fetching g p).step.run c).result).Fits
      ((fetching g p).step.run c).state := by
  rw [step, Call.run_map]
  cases p with
  | asking =>
    rw [Fetching.run_step_asking]
    cases hh : c.handOff with
    | none =>
      cases c.sealPoisoned with
      | true => exact rfl
      | false => trivial
    | some h =>
      show (fetching g (.asked h.take.1)).Fits (c.claimed h)
      cases hk : h.take.1 with
      | none => trivial
      | some k => exact ⟨_, rfl, by simpa using HandOff.mem_of_take hk⟩
  | retrieving k =>
    obtain ⟨h, hh, hk⟩ := hx
    rw [Fetching.run_step_retrieving]
    split
    · split
      · exact rfl
      · exact ⟨h, hh, hk, fun _ => rfl⟩
    · exact ⟨h, hh, hk, fun hr => absurd hr ‹_›⟩
  | tallying k retained =>
    obtain ⟨h, hh, hk, hr⟩ := hx
    obtain ⟨group, hgroup⟩ := (hho h hh).find?_of_mem hc hk
    rw [Fetching.run_step_tallying]
    split
    · exact rfl
    · have hout := Grouper.output_eq_shown g k group
      have hcount : (if g.withCount then (c.find? k).map Group.count else none) =
          if g.withCount then some group.count else none := by rw [hgroup]; rfl
      have hsame : g.retainOthers = true → retained = group.retained := fun hg => by
        rw [hr hg, hgroup]
        rfl
      rw [hcount, Grouper.output_congr k group.count hsame, hout]
      exact ⟨h, hh, k, hk, group, hgroup, hout⟩
  | fetched answer => exact hx

/-- **What a caller relies on after its section.** -/
theorem fits_step (hc : c.Sound) (hho : c.HandsOff) (hx : x.Fits c) :
    (x.next (x.step.run c).result).Fits (x.step.run c).state := by
  cases x with
  | counting k answer p =>
    rw [step, Call.run_map]
    cases ((p.step k (.answering answer)).run c).result <;> trivial
  | pruning threshold p =>
    rw [step, Call.run_map]
    cases ((p.step threshold).run c).result <;> trivial
  | taking answer =>
    cases answer with
    | some t => trivial
    | none =>
      rw [run_step_taking]
      cases c.handOff with
      | none => cases c.sealPoisoned <;> trivial
      | some h => trivial
  | sealing p => exact fits_sealing hx
  | fetching g p => exact fits_fetching hc hho hx
  | broken errand e => exact hx

end Caller

/-! ## The invariant -/

namespace Traffic

variable {c : Census} {s t : Traffic} {i : Nat} {x : Caller}

/-- **Traffic in order**: the census is, its hand-off is final, everybody can rely on what they have
found out, and at most one caller holds the lock of the seal. -/
structure Orderly (t : Traffic) : Prop where
  sound : t.census.Sound
  handsOff : t.census.HandsOff
  fits (j : Nat) (y : Caller) : t.callers[j]? = some y → y.Fits t.census
  one_holder (j l : Nat) (y z : Caller) : t.callers[j]? = some y → t.callers[l]? = some z →
    y.holds = true → z.holds = true → j = l

theorem orderly_ofErrands (hc : c.Open) (errands : List Errand) :
    (ofErrands c errands).Orderly := by
  have hstart : ∀ (j : Nat) (y : Caller), (ofErrands c errands).callers[j]? = some y →
      ∃ e : Errand, e.start = y := by
    intro j y hy
    obtain ⟨e, -, he⟩ := List.mem_map.1 (List.mem_of_getElem? hy)
    exact ⟨e, he⟩
  refine ⟨hc.sound, fun h hh => ?_, fun j y hy => ?_, fun j l y z hy _ hyh => ?_⟩
  · exact absurd (hc.handOff.symm.trans hh) (by simp)
  · obtain ⟨e, rfl⟩ := hstart j y hy
    cases e <;> trivial
  · obtain ⟨e, rfl⟩ := hstart j y hy
    cases e <;> cases hyh

theorem Orderly.onward_turn (h : t.Orderly) (hx : t.callers[i]? = some x) :
    t.census.Onward (t.turn i x).census := Caller.onward_step h.sound (h.fits i x hx)

/-- A caller that takes the lock of the seal finds it free. -/
theorem not_holds_of_queues {j : Nat} {y : Caller} (hb : t.blocks x = false)
    (hq : x.queues = true) (hy : t.callers[j]? = some y) : y.holds = false := by
  rw [blocks, hq, Bool.true_and, List.any_eq_false] at hb
  exact Bool.eq_false_iff.2 (hb y (List.mem_of_getElem? hy))

/-- **Every turn keeps traffic in order.** -/
theorem Orderly.turn (h : t.Orderly) (hx : t.callers[i]? = some x) (hb : t.blocks x = false) :
    (t.turn i x).Orderly where
  sound := (h.onward_turn hx).sound
  handsOff := Caller.handsOff_step h.sound h.handsOff (h.fits i x hx)
  fits j y hy := by
    obtain ⟨rfl, rfl⟩ | ⟨hji, hy⟩ := callers_turn hx hy
    · exact Caller.fits_step h.sound h.handsOff (h.fits j x hx)
    · refine (h.fits j y hy).mono h.handsOff (h.onward_turn hx) fun hyh hnone => ?_
      -- whoever holds the lock is the only one, so that nobody else publishes
      refine Caller.handOff_step h.sound (h.fits i x hx) (Bool.eq_false_iff.2 fun hxh => ?_) hnone
      exact hji (h.one_holder j i y x hy hx hyh hxh)
  one_holder j l y z hy hz hyh hzh := by
    have hnew : ∀ {m w}, m ≠ i → t.callers[m]? = some w → w.holds = true →
        (x.next (x.step.run t.census).result).holds = true → False := by
      intro m w hmi hw hwh hxh
      obtain hxh | hxq := Caller.holds_of_holds_next hxh
      · exact hmi (h.one_holder m i w x hw hx hwh hxh)
      · exact absurd hwh (by simp [not_holds_of_queues hb hxq hw])
    obtain ⟨rfl, rfl⟩ | ⟨hji, hy'⟩ := callers_turn hx hy
    · obtain ⟨rfl, rfl⟩ | ⟨hli, hz'⟩ := callers_turn hx hz
      · rfl
      · exact (hnew hli hz' hzh hyh).elim
    · obtain ⟨rfl, rfl⟩ | ⟨hli, hz'⟩ := callers_turn hx hz
      · exact (hnew hji hy' hyh hzh).elim
      · exact h.one_holder j l y z hy' hz' hyh hzh

/-- **Every schedule keeps traffic in order**, and undoes no hand-off. -/
theorem Orderly.after (h : t.Orderly) (schedule : List Nat) :
    (t.after schedule).Orderly ∧ t.census.Onward (t.after schedule).census := by
  refine after_induction (P := fun u => u.Orderly ∧ t.census.Onward u.census)
    (fun u i x hx hb hu => ?_) schedule ⟨h, .refl h.sound⟩
  exact ⟨hu.1.turn hx hb, hu.2.trans (hu.1.onward_turn hx)⟩

/-! ## Hand-offs are final -/

/-- **Traffic after a hand-off**: the keys that are handed out, the keys that are there and the
groups behind them are those of the traffic at which the hand-off was found, nobody misses a group,
and every record that is given out is made of its group as it was then. -/
structure Frozen (s : Traffic) (h : HandOff) (t : Traffic) : Prop where
  handOff : ∃ h', t.census.handOff = some h' ∧ h'.keys = h.keys
  groups (k : Key) : t.census.find? k = s.census.find? k
  listed (k : Key) : (∃ l ∈ h.keys, l.same k = true) ↔ (t.census.find? k).isSome = true
  differ : h.keys.toList.Pairwise fun k l => k.same l = false
  size : t.census.size = h.keys.size
  unbroken (g : Config) (e : Fault) : Caller.broken (.fetching g) e ∈ t.callers → e = .poisoned
  emitted (g : Config) (r : Record) : Caller.fetching g (.fetched (.item r)) ∈ t.callers →
    ∃ k ∈ h.keys, ∃ group, s.census.find? k = some group ∧
      Grouper.output g k group.retained (some group.count) = .ok r

/-- **A published hand-off is final**, however the sections of increments, passes of pruning, seals
and takers interleave, and whatever of them was under way when it was published. -/
theorem hand_off_frozen (hc : c.Open) (errands : List Errand) (before after : List Nat)
    {h : HandOff} (hh : ((ofErrands c errands).after before).census.handOff = some h) :
    ((ofErrands c errands).after before).Frozen h
      (((ofErrands c errands).after before).after after) := by
  obtain ⟨hs, -⟩ := (orderly_ofErrands hc errands).after before
  obtain ⟨ht, hst⟩ := hs.after after
  generalize (ofErrands c errands).after before = s at hh hs ht hst ⊢
  generalize s.after after = t at ht hst ⊢
  have hf := hs.handsOff h hh
  obtain ⟨h', hh', hkeys⟩ := hst.keys h hh
  obtain ⟨-, hshards, hdistinct⟩ := hst.frozen hf.mark
  have hfind := Census.find?_congr_shards hshards
  refine ⟨⟨h', hh', hkeys⟩, hfind, fun k => ?_, hf.differ hs.sound, ?_, fun g e he => ?_,
    fun g r hr => ?_⟩
  · rw [hfind]
    exact hf.mem_iff hs.sound k
  · rw [hf.size_eq hs.sound]
    exact hdistinct
  · obtain ⟨j, hj⟩ := List.mem_iff_getElem?.1 he
    exact ht.fits j _ hj
  · obtain ⟨j, hj⟩ := List.mem_iff_getElem?.1 hr
    obtain ⟨h₂, hh₂, k, hk, group, hgroup, hout⟩ := ht.fits j _ hj
    obtain rfl : h₂ = h' := Option.some.inj (hh₂.symm.trans hh')
    exact ⟨k, hkeys ▸ hk, group, (hfind k).symm.trans hgroup, hout⟩

/-- Some callers that come to a small census. -/
def rush (a b : Key) : Traffic :=
  ofErrands (Census.pair { cap := some 1, interval := 2 })
    [.counting a (.ok none), .counting a (.ok none), .counting b (.ok none), .pruning 3, .sealing,
      .fetching { keyFields := ["id"], withCount := true }]

/-- A pass of pruning and an increment are under way when the hand-off of one key is published, and
end after it. -/
theorem hand_off_frozen_underway :
    let t := rush (Key.ofRecord (.field "id" (.int 1) .empty))
      (Key.ofRecord (.field "id" (.int 2) .empty))
    let s := t.after [0, 0, 0, 1, 1, 1, 2, 3, 3, 4, 4, 3, 4, 4, 4]
    ∃ h, s.census.handOff = some h ∧ s.Frozen h (s.after [2, 5, 5, 5, 3]) := by
  have hrush : ∀ a b before after, ((rush a b).after before).census.handOff.isSome = true →
      ∃ h, ((rush a b).after before).census.handOff = some h ∧
        ((rush a b).after before).Frozen h (((rush a b).after before).after after) := by
    intro a b before after hs
    obtain ⟨h, hh⟩ := Option.isSome_iff_exists.1 hs
    exact ⟨h, hh, hand_off_frozen (Census.fresh_pair _).isOpen _ before after hh⟩
  exact hrush _ _ _ _ (by decide +kernel)

end Traffic

end Muster
