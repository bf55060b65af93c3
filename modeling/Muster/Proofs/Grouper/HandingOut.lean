import Muster.Grouper.Basic
import Muster.Proofs.Census.Regular

/-!
# Proofs/Grouper/HandingOut — how a grouper hands out its groups

On a sealed census a grouper finds the group of every key that it is handed (`Census.Final`), so
that what it gives out is the record that its configuration makes of the group (`Grouper.shown`).

* `Grouper.run_next` — asking for a group in a pass.
* `Grouper.delivered_perm` — in the end each group has been handed out.
-/

namespace Muster

namespace Taken

variable {α : Type}

/-- What was taken. -/
def item? : Taken α → Option α
  | item a => some a
  | _ => none

/-- Is there nothing left? -/
def isExhausted : Taken α → Bool
  | exhausted => true
  | _ => false

/-- How many things there are to take before and after an answer, where that is known. -/
def Leaves : Taken α → Option Nat → Option Nat → Prop
  | waiting, before, after => before = none ∧ after = none
  | exhausted, before, after => before = some 0 ∧ after = some 0
  | item _, before, after => ∃ left, before = some (left + 1) ∧ after = some left

/-- Where nothing is left, nothing is left after an answer either. -/
theorem Leaves.eq_zero {answer : Taken α} {after : Option Nat} (h : answer.Leaves (some 0) after) :
    after = some 0 := by
  cases answer with
  | waiting => exact absurd h.1 (by simp)
  | exhausted => exact h.2
  | item a =>
    obtain ⟨left, hbefore, -⟩ := h
    exact absurd (Option.some.inj hbefore) (Nat.succ_ne_zero left).symm

end Taken

namespace Grouper

/-! ## Making a record of a group -/

/-- **The record that stands for a group.** -/
def shown (g : Config) (k : Key) (group : Group) : Record :=
  let r := if g.retainOthers then group.retained.getD k.record else k.record
  if g.withCount then r.add countField (.int (Int64.ofNat group.count)) else r

/-- **A group with a count becomes a record.** -/
theorem output_eq_shown (g : Config) (k : Key) (group : Group) :
    output g k group.retained (some group.count) = .ok (shown g k group) := by
  by_cases hc : g.withCount = true <;> simp [output, shown, hc]

/-- What the configuration does not ask for does not matter. -/
theorem output_congr {g : Config} {retained retained' : Option Record} (k : Key) (n : Nat)
    (h : g.retainOthers = true → retained = retained') :
    output g k retained (if g.withCount then some n else none) = output g k retained' (some n) := by
  unfold output
  by_cases hr : g.retainOthers = true
  · by_cases hc : g.withCount = true <;> simp [h hr, hc]
  · by_cases hc : g.withCount = true <;> simp [hr, hc]

/-! ## Asking for a group -/

variable {g : Grouper}

theorem run_onCensus {α : Type} (call : Call Census α) (g : Grouper) :
    (onCensus call).run g =
      ⟨(call.run g.census).result, { g with census := (call.run g.census).state },
        (call.run g.census).notices⟩ := rfl

theorem run_onCensus_ok {α : Type} {call : Call Census α} {a : α} {c : Census} {ns : List Notice}
    (h : call.run g.census = ⟨.ok a, c, ns⟩) :
    (onCensus call).run g = ⟨.ok a, { g with census := c }, ns⟩ := by
  rw [run_onCensus, h]

/-- **A record is counted** as the census counts its key. -/
theorem run_count_ok {r : Record} {new : Bool} {c : Census} {ns : List Notice}
    (h : (Census.count (g.keyOf r) (g.payload r)).run g.census = ⟨.ok new, c, ns⟩) :
    (count r).run g = ⟨.ok new, { g with census := c }, ns⟩ := by
  rw [count, Call.run_bind_ok (Call.run_read g), run_onCensus_ok h]
  rfl

/-- **A group that is there is shown.** -/
theorem run_render (hh : g.census.Healthy) {k : Key} {group : Group}
    (hk : g.census.find? k = some group) :
    (render k).run g = ⟨.ok (shown g.config k group), g, []⟩ := by
  have hout : output g.config k (if g.config.retainOthers then group.retained else none)
      (if g.config.withCount then some group.count else none) = .ok (shown g.config k group) := by
    rw [output_congr k group.count fun hr => if_pos hr, output_eq_shown]
  by_cases hr : g.config.retainOthers = true <;> by_cases hc : g.config.withCount = true <;>
    simp only [hr, hc, if_true, if_false, Bool.false_eq_true] at hout <;>
    simp [render, Call.run_bind, run_onCensus, Census.run_retained, Census.run_countOf, hh.shard,
      hk, hr, hc, hout]

/-- Without a hand-off there is nothing to hand out yet. -/
theorem run_next_of_none (hh : g.census.Healthy) (hn : g.census.handOff = none) :
    next.run g = ⟨.ok .waiting, g, []⟩ := by
  simp [next, Call.run_bind, run_onCensus, Census.run_take, hn, hh.lock]

/-- At the end of the hand-off there is nothing to hand out any more. -/
theorem run_next_of_exhausted {h : HandOff} (hs : g.census.handOff = some h)
    (ht : h.take.1 = none) :
    next.run g = ⟨.ok .exhausted, { g with census := g.census.claimed h }, []⟩ := by
  simp [next, Call.run_bind, run_onCensus, Census.run_take, hs, ht]

/-- Whoever asks for a group when none is left changes nothing. -/
theorem run_next_of_remaining (hr : g.census.remaining = some 0) :
    next.run g = ⟨.ok .exhausted, g, []⟩ := by
  obtain ⟨h, hs, hnone⟩ := Option.map_eq_some_iff.1 hr
  have htake : h.take = (none, h) := HandOff.take_of_le (Nat.sub_eq_zero_iff_le.1 hnone)
  have hself : g.census.claimed h = g.census := by rw [Census.claimed, htake, ← hs]
  rw [run_next_of_exhausted hs (by rw [htake]), hself]

/-- **The next group of a final hand-off is there, and is shown.** -/
theorem run_next_of_item (hc : g.census.Sound) (hh : g.census.Healthy) {h : HandOff}
    (hs : g.census.handOff = some h) (hf : g.census.Final h) {k : Key} (ht : h.take.1 = some k) :
    ∃ group, g.census.find? k = some group ∧ next.run g =
      ⟨.ok (.item (shown g.config k group)), { g with census := g.census.claimed h }, []⟩ := by
  obtain ⟨group, hgroup⟩ := hf.find?_of_mem hc (HandOff.mem_of_take ht)
  refine ⟨group, hgroup, ?_⟩
  have hclaimed : (g.census.claimed h).Healthy := hh.congr rfl rfl
  have hrender : (render k).run { g with census := g.census.claimed h } =
      ⟨.ok (shown g.config k group), { g with census := g.census.claimed h }, []⟩ :=
    run_render hclaimed hgroup
  simp [next, Call.run_bind, run_onCensus, Census.run_take, hs, ht, hrender, Except.map]

/-! ## Sealing -/

/-- **A grouper that nobody has sealed is sealed.** -/
theorem run_finish (hh : g.census.Healthy) (hn : g.census.handOff = none) :
    finish.run g =
      ⟨.ok true, { g with census := g.census.sealOff }, [.sealed g.census.keys.length]⟩ := by
  have hseal := Census.run_trySeal hh
  rw [hn] at hseal
  rw [finish, run_onCensus, hseal]
  rfl

/-! ## What has been handed out -/

/-- Before there is a hand-off nothing has been handed out. -/
theorem delivered_of_none (hn : g.census.handOff = none) : g.delivered = [] := by
  simp [delivered, Census.handedOut, hn]

/-- With a new hand-off nothing has been handed out either. -/
theorem delivered_sealOff (g : Grouper) :
    Grouper.delivered { g with census := g.census.sealOff } = [] := rfl

/-- **What has been handed out is the record of each key that was claimed.** -/
theorem delivered_eq (hc : g.census.Sound) {h : HandOff} (hs : g.census.handOff = some h)
    (hf : g.census.Final h) :
    g.delivered = h.claimed.filterMap fun k => (g.census.find? k).map (shown g.config k) := by
  rw [delivered, Census.handedOut, hs]
  refine List.filterMap_congr fun k hk => ?_
  obtain ⟨group, hgroup⟩ := hf.find?_of_mem hc (Array.mem_toList_iff.1 (List.mem_of_mem_take hk))
  simp only [hgroup, Option.bind_some, Option.map_some, output_eq_shown]

/-- **Once no key is left, each group has been handed out.** -/
theorem delivered_perm (hc : g.census.Sound) {h : HandOff} (hs : g.census.handOff = some h)
    (hf : g.census.Final h) (hr : h.remaining = 0) :
    g.delivered.Perm (g.census.groups.map fun group => shown g.config group.key group) := by
  rw [delivered_eq hc hs hf, HandOff.claimed_of_remaining hr, hf.keys_eq]
  refine (g.census.keys_perm.filterMap _).trans (List.Perm.of_eq ?_)
  rw [List.filterMap_map, ← List.filterMap_eq_map]
  refine List.filterMap_congr fun group hgroup => ?_
  rw [Function.comp_apply, hc.find?_of_mem hgroup]
  rfl

/-- **What asking for a group does to a grouper in a pass.** -/
structure Served (g : Grouper) (answer : Taken Record) (d : Grouper) : Prop where
  config : d.config = g.config
  shards : d.census.shards = g.census.shards
  limits : d.census.limits = g.census.limits
  mark : d.census.sealed = g.census.sealed
  delivered : d.delivered = g.delivered ++ answer.item?.toList
  leaves : answer.Leaves g.census.remaining d.census.remaining

/-- **Asking for a group in a pass** answers, and is on the record. -/
theorem run_next {seals late : Nat} (hc : g.census.Regular seals late) :
    ∃ answer d, next.run g = ⟨.ok answer, d, []⟩ ∧ d.census.Regular seals late ∧
      g.Served answer d := by
  cases hs : g.census.handOff with
  | none =>
    have hr : g.census.remaining = none := by rw [Census.remaining, hs]; rfl
    refine ⟨_, _, run_next_of_none hc.healthy hs, hc, rfl, rfl, rfl, rfl, ?_, hr, hr⟩
    exact (List.append_nil _).symm
  | some h =>
    have hf := hc.handsOff h hs
    have hr : g.census.remaining = some h.remaining := by rw [Census.remaining, hs]; rfl
    have hclaimed := hc.claimed hs
    have hf' := hclaimed.handsOff _ rfl
    have hdelivered : Grouper.delivered { g with census := g.census.claimed h } =
        h.take.2.claimed.filterMap fun k => (g.census.find? k).map (shown g.config k) :=
      delivered_eq hclaimed.sound rfl hf'
    cases ht : h.take.1 with
    | none =>
      obtain ⟨hself, hnone⟩ := HandOff.take_eq_self ht
      rw [hnone] at hr
      refine ⟨_, _, run_next_of_exhausted hs ht, hclaimed, rfl, rfl, rfl, rfl, ?_, hr, ?_⟩
      · rw [hdelivered, hself, ← delivered_eq hc.sound hs hf]
        exact (List.append_nil _).symm
      · rw [Census.remaining, Census.claimed, hself, ← hnone]
        rfl
    | some k =>
      obtain ⟨group, hgroup, hrun⟩ := run_next_of_item hc.sound hc.healthy hs hf ht
      obtain ⟨hnext, hless⟩ := HandOff.claimed_take ht
      rw [hless] at hr
      refine ⟨_, _, hrun, hclaimed, rfl, rfl, rfl, rfl, ?_, _, hr, rfl⟩
      rw [hdelivered, hnext, List.filterMap_append, ← delivered_eq hc.sound hs hf]
      simp only [List.filterMap_cons, List.filterMap_nil, hgroup]
      rfl

end Grouper

end Muster
