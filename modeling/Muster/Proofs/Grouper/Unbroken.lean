import Muster.Grouper.Handles
import Muster.Proofs.Census.Auditing
import Muster.Proofs.Grouper.Alone
import Muster.Proofs.Validation

/-!
# Proofs/Grouper/Unbroken — whatever is done through the handles of a grouper answers

An accepted configuration makes a grouper in working order, and so does every handle on a grouper of
its own. A grouper that one thread uses stays `Grouper.Fit`: nobody is inside a lock or has broken
off there, the number of keys is that of the groups, and a hand-off has the keys that are there.
None of the reasons for which a call breaks off can then arise (`Grouper.Safe`).

* `Handles.yields_use` — every use of a handle answers, and leaves all groupers fit.
* `Handles.always_answers` — so do all uses of all handles, one after the other.
-/

namespace Muster

/-! ## Counting, with the account of its keys -/

/-- **A census in a pass takes an increment in or refuses it**; the keys that it tells then, with
those that it has pruned, are as many as before and the new one. -/
theorem Census.Regular.run_count {c : Census} {seals late : Nat} (h : c.Regular seals late)
    (k : Key) (r : Option Record) : ∃ new d ns,
      (Census.count k (.answering (.ok r))).run c = ⟨.ok new, d, ns⟩ ∧ c.Working d ∧
      d.distinct + d.meters.prunedKeys = c.distinct + c.meters.prunedKeys + new.toNat := by
  obtain ⟨new, hnew, hworking⟩ := works_count k r c c ⟨.refl h.sound, h.healthy⟩
  have hrun := run_count_telling h.sound h.healthy k r []
  rw [← Payload.answering_eq] at hrun
  cases ho : c.sealed with
  | true =>
    rw [if_pos ho] at hrun
    rw [hrun] at hnew hworking
    obtain rfl := Except.ok.inj hnew
    exact ⟨_, _, _, hrun, hworking, rfl⟩
  | false =>
    rw [if_neg (ho ▸ Bool.false_ne_true)] at hrun
    rw [hrun] at hnew hworking
    obtain rfl := Except.ok.inj hnew
    refine ⟨_, _, _, hrun, hworking, ?_⟩
    have hgrown := h.sound.grown k r
    have hpruned := (hgrown.thinned_checked (h.healthy.grown k r)).pruned
    have hlength := (h.sound.groups_grown_tallied k r).length_eq
    rw [Group.length_tallied, ← h.sound.find?_eq] at hlength
    have hmeter : (c.grown k r).meters.prunedKeys = c.meters.prunedKeys := by rw [meters_grown]
    have hafter : (c.grown k r).checked.distinct = (c.grown k r).checked.groups.length :=
      hworking.steady.sound.distinct_eq
    have hbefore := h.sound.distinct_eq
    omega

/-! ## One grouper -/

namespace Grouper

variable {g : Config} {x y : Grouper}

/-- **A grouper in working order**, as configured. -/
structure Fit (g : Config) (x : Grouper) : Prop where
  config : x.config = g
  regular : ∃ seals late, x.census.Regular seals late
  size : x.census.shards.size = g.shards.toNat
  interval : x.census.limits.interval = g.checkpointInterval.toNat

/-- **Nothing is missing that a call relies on.** -/
structure Safe (g : Config) (x : Grouper) : Prop where
  /-- the shard of a key is a residue of a positive number, and one of the shards -/
  slot (k : Key) : 0 < g.shards.toNat ∧ x.census.slot k = k.fingerprint.toNat % g.shards.toNat ∧
    x.census.slot k < x.census.shards.size
  /-- the increments are divided by a positive number -/
  interval : 0 < x.census.limits.interval ∧
    x.census.limits.interval = g.checkpointInterval.toNat
  distinct : x.census.distinct = x.census.groups.length
  /-- the number of keys goes down by what is pruned, and by no more -/
  counts (r : Record) : ∃ new y ns, (count r).run x = ⟨.ok new, y, ns⟩ ∧
    y.census.distinct + y.census.meters.prunedKeys =
      x.census.distinct + x.census.meters.prunedKeys + new.toNat
  /-- nobody is inside a shard or has broken off there -/
  free (i : Nat) : (x.census.shard i).held = false ∧ (x.census.shard i).poisoned = false
  /-- the keys that are handed out have a count -/
  found {h : HandOff} (hh : x.census.handOff = some h) {k : Key} (hk : k ∈ h.keys) :
    ∃ n, (Census.countOf k).run x.census = ⟨.ok (some n), x.census, []⟩
  /-- whoever asks a sealed grouper for a group does not wait -/
  hands (hs : x.census.sealed = true) : ∃ answer y, next.run x = ⟨.ok answer, y, []⟩ ∧
    (answer = .exhausted ∨ ∃ r, answer = .item r)

namespace Fit

theorem ofConfig (h : Grouper.ofConfig g = .ok x) : x.Fit g := by
  obtain ⟨c, hc, rfl⟩ := ofConfig_eq_ok_iff.1 h
  obtain ⟨hsize, hinterval⟩ := Census.shape_of_ofConfig hc
  exact ⟨rfl, ⟨_, _, (Census.fresh_of_ofConfig hc).regular⟩, hsize, hinterval⟩

/-- **A grouper stays fit** while its census stays regular and keeps its shape. -/
theorem congr (h : x.Fit g) {c : Census} (hc : ∃ seals late, c.Regular seals late)
    (hsize : c.shards.size = x.census.shards.size) (hlimits : c.limits = x.census.limits) :
    Fit g { x with census := c } :=
  ⟨h.config, hc, hsize.trans h.size, (congrArg Limits.interval hlimits).trans h.interval⟩

theorem run_count (h : x.Fit g) (r : Record) : ∃ new y ns,
    (count r).run x = ⟨.ok new, y, ns⟩ ∧ y.Fit g ∧
      y.census.distinct + y.census.meters.prunedKeys =
        x.census.distinct + x.census.meters.prunedKeys + new.toNat := by
  obtain ⟨seals, late, hc⟩ := h.regular
  obtain ⟨new, c, ns, hrun, hworking, hledger⟩ :=
    hc.run_count (x.keyOf r) (if x.config.retainOthers then some r else none)
  rw [← payload_eq] at hrun
  exact ⟨new, _, ns, run_count_ok hrun,
    h.congr ⟨_, _, hc.worked hworking⟩ hworking.steady.size hworking.steady.limits, hledger⟩

theorem run_next (h : x.Fit g) : ∃ answer y, next.run x = ⟨.ok answer, y, []⟩ ∧ y.Fit g ∧
    answer.Leaves x.census.remaining y.census.remaining := by
  obtain ⟨seals, late, hc⟩ := h.regular
  obtain ⟨answer, y, hrun, hy, hserved⟩ := Grouper.run_next hc
  refine ⟨answer, y, hrun, ?_, hserved.leaves⟩
  exact ⟨hserved.config.trans h.config, ⟨_, _, hy⟩,
    (congrArg Array.size hserved.shards).trans h.size,
    (congrArg Limits.interval hserved.limits).trans h.interval⟩

/-- **A grouper in working order is safe.** -/
theorem safe (h : x.Fit g) : x.Safe g := by
  obtain ⟨seals, late, hc⟩ := h.regular
  refine ⟨fun k => ⟨h.size ▸ x.census.shards_pos, ?_, x.census.slot_lt k⟩,
    ⟨x.census.limits.interval_pos, h.interval⟩, hc.sound.distinct_eq, fun r => ?_,
    fun i => ⟨(hc.sound.shard i).free, hc.healthy.shard i⟩, fun hh k hk => ?_, fun hs => ?_⟩
  · rw [Census.slot, h.size]
  · obtain ⟨new, y, ns, hrun, -, hledger⟩ := h.run_count r
    exact ⟨new, y, ns, hrun, hledger⟩
  · obtain ⟨group, hgroup⟩ := (hc.handsOff _ hh).find?_of_mem hc.sound hk
    refine ⟨group.count, ?_⟩
    rw [Census.run_countOf, hc.healthy.shard, if_neg Bool.false_ne_true, hgroup]
    rfl
  · obtain ⟨answer, y, hrun, -, hleaves⟩ := h.run_next
    refine ⟨answer, y, hrun, ?_⟩
    cases answer with
    | waiting =>
      have hnone : x.census.handOff = none := Option.map_eq_none_iff.1 hleaves.1
      rw [hc.mark, hnone] at hs
      exact absurd hs Bool.false_ne_true
    | exhausted => exact .inl rfl
    | item r => exact .inr ⟨r, rfl⟩

end Fit

/-! ### Calls on a grouper -/

theorem yields_count (r : Record) : (count r).Yields (Fit g) fun _ => Fit g := fun x h => by
  obtain ⟨new, y, ns, hrun, hy, -⟩ := h.run_count r
  rw [hrun]
  exact ⟨new, rfl, hy⟩

theorem yields_countOf (r : Record) : (countOf r).Yields (Fit g) fun _ => Fit g := fun x h => by
  obtain ⟨seals, late, hc⟩ := h.regular
  have hrun := Census.run_countOf (x.keyOf r) x.census
  rw [hc.healthy.shard, if_neg Bool.false_ne_true] at hrun
  rw [countOf, Call.run_bind_ok (Call.run_read x), run_onCensus_ok hrun]
  exact ⟨_, rfl, h⟩

theorem yields_gets {α : Type} (f : Grouper → α) : (Call.gets f).Yields (Fit g) fun _ => Fit g :=
  fun x h => ⟨f x, rfl, h⟩

theorem yields_finish : finish.Yields (Fit g) fun _ => Fit g := fun x h => by
  obtain ⟨seals, late, hc⟩ := h.regular
  have hrun := Census.run_trySeal hc.healthy
  rw [← hc.mark] at hrun
  cases ho : x.census.sealed with
  | true =>
    rw [if_pos ho] at hrun
    rw [finish, run_onCensus_ok hrun]
    exact ⟨false, rfl, h⟩
  | false =>
    rw [if_neg (ho ▸ Bool.false_ne_true)] at hrun
    rw [finish, run_onCensus_ok hrun]
    exact ⟨true, rfl, h.congr ⟨_, _, hc.sealOff ho⟩ rfl rfl⟩

theorem yields_reset : reset.Yields (Fit g) fun _ => Fit g := fun x h => by
  obtain ⟨seals, late, hc⟩ := h.regular
  obtain ⟨hfresh, hlimits, -⟩ := hc.sound.fresh_cleared hc.healthy
  rw [reset, run_onCensus_ok (Census.run_clear hc.sound hc.healthy)]
  exact ⟨(), rfl, h.congr ⟨_, _, hfresh.regular⟩ x.census.size_cleared hlimits⟩

theorem yields_nextIfSealed : nextIfSealed.Yields (Fit g) fun _ => Fit g := fun x h => by
  rw [nextIfSealed, Call.run_bind_ok (Call.run_read x), Call.run_ite]
  split
  · obtain ⟨answer, y, hrun, hy, -⟩ := h.run_next
    rw [hrun]
    exact ⟨answer, rfl, hy⟩
  · exact ⟨.waiting, rfl, h⟩

/-- **An accepted configuration makes a grouper**, if there is room for its shards. -/
theorem exists_ofConfig (hg : g.validate none = .ok ())
    (hroom : Room.reserve g.shards.toNat Shard.width = .ok ()) : ∃ x, ofConfig g = .ok x := by
  obtain ⟨-, hshards, hinterval⟩ := Config.of_validate hg
  obtain ⟨c, hc⟩ :=
    (Census.exists_ofConfig_iff hshards hinterval).2 (Room.reserve_eq_ok_iff.1 hroom)
  exact ⟨_, ofConfig_eq_ok_iff.2 ⟨c, hc, rfl⟩⟩

end Grouper

/-! ## Handles -/

namespace Handles

variable {g : Config} {hs : Handles}

/-- **What can be done through a handle.** A grouper that is not marked as sealed is not asked for
groups. -/
inductive Use
  | count (r : Record)
  | countOf (r : Record)
  | size
  | finish
  | reset
  | next
  | replicate
  | isolate

/-- **What is answered.** -/
inductive Reply
  | flag (b : Bool)
  | number (n : Nat)
  | numberIf (n : Option Nat)
  | taken (t : Taken Record)
  | cleared
  | handle (i : Nat)

/-- **A use of a handle.** -/
def use (i : Nat) : Use → Call Handles Reply
  | .count r => .flag <$> through i (Grouper.count r)
  | .countOf r => .numberIf <$> through i (Grouper.countOf r)
  | .size => .number <$> through i (Call.gets fun x => x.census.size)
  | .finish => .flag <$> through i Grouper.finish
  | .reset => (fun _ => .cleared) <$> through i Grouper.reset
  | .next => .taken <$> through i Grouper.nextIfSealed
  | .replicate => .handle <$> Handles.replicate i
  | .isolate => .handle <$> Handles.isolate i

/-- **Some uses of handles**, one after the other. -/
def useAll : List (Nat × Use) → Call Handles (List Reply)
  | [] => return []
  | u :: us => do
    let reply ← use u.1 u.2
    let replies ← useAll us
    return reply :: replies

/-- **Handles in working order**: every handle has a grouper, and all groupers are fit. -/
structure Fit (g : Config) (hs : Handles) : Prop where
  groupers : ∀ x ∈ hs.groupers, x.Fit g
  placed (i : Nat) : hs.place i < hs.groupers.size

namespace Fit

theorem ofConfig {x : Grouper} (h : Grouper.ofConfig g = .ok x) :
    Fit g { groupers := #[x], places := #[0] } where
  groupers y hy := by
    obtain rfl := Array.mem_singleton.1 hy
    exact .ofConfig h
  placed i := by
    match i with
    | 0 | i + 1 => exact Nat.one_pos

theorem grouper_mem (h : hs.Fit g) (i : Nat) : hs.grouper i ∈ hs.groupers := by
  rw [Handles.grouper, Array.getElem?_eq_getElem (h.placed i)]
  exact Array.getElem_mem _

/-- **What is done to one of the groupers** leaves the handles in working order, if it does so with
the grouper. -/
theorem put (h : hs.Fit g) (i : Nat) {x : Grouper} (hx : x.Fit g) :
    Fit g { hs with groupers := hs.groupers.setIfInBounds (hs.place i) x } where
  groupers y hy := by
    rcases Array.mem_or_eq_of_mem_setIfInBounds hy with hy | rfl
    · exact h.groupers y hy
    · exact hx
  placed j := by
    rw [Array.size_setIfInBounds]
    exact h.placed j

/-- Another handle is in working order if it has a grouper. -/
theorem push (h : hs.Fit g) {p : Nat} (hp : p < hs.groupers.size) :
    Fit g { hs with places := hs.places.push p } where
  groupers := h.groupers
  placed i := by
    rw [place, Array.getElem?_push]
    split
    · exact hp
    · exact h.placed i

end Fit

/-! ### Uses of handles -/

theorem yields_through {α : Type} {call : Call Grouper α}
    (h : call.Yields (Grouper.Fit g) fun _ => Grouper.Fit g) (i : Nat) :
    (through i call).Yields (Fit g) fun _ => Fit g := fun hs hhs => by
  obtain ⟨a, hresult, hx⟩ := h _ (hhs.groupers _ (hhs.grouper_mem i))
  exact ⟨a, hresult, hhs.put i hx⟩

theorem yields_replicate (i : Nat) : (replicate i).Yields (Fit g) fun _ => Fit g :=
  fun hs hhs => ⟨hs.places.size, rfl, hhs.push (hhs.placed i)⟩

/-- **Another grouper can be made wherever one could.** -/
theorem yields_isolate (hg : ∃ x, Grouper.ofConfig g = .ok x) (i : Nat) :
    (isolate i).Yields (Fit g) fun _ => Fit g := fun hs hhs => by
  obtain ⟨x, hx⟩ := hg
  have hisolated : (hs.grouper i).isolated = .ok x := by
    rw [Grouper.isolated, (hhs.groupers _ (hhs.grouper_mem i)).config, hx]
  have hfit : Fit g { hs with groupers := hs.groupers.push x } :=
    { groupers := fun y hy => by
        rcases Array.mem_push.1 hy with hy | rfl
        · exact hhs.groupers y hy
        · exact .ofConfig hx
      placed := fun j => by
        rw [Array.size_push]
        exact Nat.lt_succ_of_lt (hhs.placed j) }
  simp only [isolate, Call.run_bind, Call.run_read, hisolated, Call.run_ofExcept, Call.run_write,
    Call.run_pure]
  refine ⟨_, rfl, hfit.push ?_⟩
  rw [Array.size_push]
  exact Nat.lt_succ_self _

/-- **Every use of a handle answers**, and leaves the handles in working order. -/
theorem yields_use (hg : ∃ x, Grouper.ofConfig g = .ok x) (i : Nat) :
    ∀ u : Use, (use i u).Yields (Fit g) fun _ => Fit g
  | .count r => (yields_through (Grouper.yields_count r) i).map _
  | .countOf r => (yields_through (Grouper.yields_countOf r) i).map _
  | .size => (yields_through (Grouper.yields_gets _) i).map _
  | .finish => (yields_through Grouper.yields_finish i).map _
  | .reset => (yields_through Grouper.yields_reset i).map _
  | .next => (yields_through Grouper.yields_nextIfSealed i).map _
  | .replicate => (yields_replicate i).map _
  | .isolate => (yields_isolate hg i).map _

theorem yields_useAll (hg : ∃ x, Grouper.ofConfig g = .ok x) : ∀ us : List (Nat × Use),
    (useAll us).Yields (Fit g) fun replies hs => replies.length = us.length ∧ hs.Fit g
  | [] => Call.yields_pure fun _ h => ⟨rfl, h⟩
  | u :: us => (yields_use hg u.1 u.2).bind fun _ =>
    (yields_useAll hg us).bind fun _ => Call.yields_pure fun _ h => ⟨congrArg (· + 1) h.1, h.2⟩

/-- **An accepted configuration never makes a call break off.** If there is room for its shards,
there is a handle on a new grouper; whatever is done then through this handle and all others that
are made on the way, every call answers, and after it

* every handle has a grouper;
* the shard of every key is there, and neither the residue that finds it nor the one that tells when
  the cap is checked is taken by zero;
* the number of keys is that of the groups, and goes down by exactly what is pruned;
* nobody is inside a shard, so that clearing finds none in use;
* each key that is handed out has a count, and a sealed grouper hands out without waiting. -/
theorem always_answers (hg : g.validate none = .ok ())
    (hroom : Room.reserve g.shards.toNat Shard.width = .ok ()) :
    ∃ hs, Handles.ofConfig g = .ok hs ∧ ∀ us : List (Nat × Use), ∃ replies hs' ns,
      (useAll us).run hs = ⟨.ok replies, hs', ns⟩ ∧ replies.length = us.length ∧
        ∀ i, hs'.grouper i ∈ hs'.groupers ∧ (hs'.grouper i).Safe g := by
  obtain ⟨x, hx⟩ := Grouper.exists_ofConfig hg hroom
  refine ⟨{ groupers := #[x], places := #[0] }, by rw [Handles.ofConfig, hx]; rfl, fun us => ?_⟩
  obtain ⟨replies, hresult, hlength, hfit⟩ := yields_useAll ⟨x, hx⟩ us _ (.ofConfig hx)
  refine ⟨replies, _, _, Outcome.ext hresult rfl rfl, hlength, fun i => ⟨hfit.grouper_mem i, ?_⟩⟩
  exact (hfit.groupers _ (hfit.grouper_mem i)).safe

/-- A cap of one key, and a check after every increment: the second record is counted and pruned
at once. The first group is then handed out through another handle, of which there are two. -/
theorem always_answers_pruned :
    let g : Config := { keyFields := ["id"], maxTypes := 1, checkpointInterval := 1, shards := 1 }
    let record := fun i => Record.field "id" (.int i) .empty
    let us : List (Nat × Use) :=
      [(0, .count (record 1)), (0, .count (record 1)), (0, .replicate), (1, .count (record 2)),
        (1, .isolate), (1, .finish), (1, .next), (1, .next), (2, .reset)]
    g.validate none = .ok () ∧ Room.reserve g.shards.toNat Shard.width = .ok () ∧
    ∃ hs replies hs' ns, Handles.ofConfig g = .ok hs ∧
      (useAll us).run hs = ⟨.ok replies, hs', ns⟩ ∧ replies.length = 9 ∧
        (hs'.grouper 1).census.meters.prunedKeys = 1 ∧
        ∀ i, hs'.grouper i ∈ hs'.groupers ∧ (hs'.grouper i).Safe g := by
  intro g record us
  have hg : g.validate none = .ok () := by decide
  have hroom : Room.reserve g.shards.toNat Shard.width = .ok () := by decide
  obtain ⟨hs, hofConfig, hall⟩ := always_answers hg hroom
  obtain ⟨replies, hs', ns, hrun, hlength, hsafe⟩ := hall us
  refine ⟨hg, hroom, hs, replies, hs', ns, hofConfig, hrun, hlength, ?_, hsafe⟩
  have hseen : (Handles.ofConfig g).toOption.map (fun hs =>
      (((useAll us).run hs).state.grouper 1).census.meters.prunedKeys) = some 1 := by
    decide +kernel
  rw [hofConfig] at hseen
  simpa [Except.toOption, hrun] using hseen

end Handles

end Muster
