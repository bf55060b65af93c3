import Mathlib.Algebra.Order.BigOperators.Group.List
import Mathlib.Algebra.Order.Ring.Nat
import Muster.Proofs.Census.Ledger
import Muster.Proofs.Census.Tally

/-!
# Proofs/Census/Cardinality — how many keys a cap allows

A check of the cap leaves at most as many keys as the cap says, or only keys that have been counted
as often as the threshold (`checked_size_le_or`). Of those there cannot be many, since all counts
together are no more than the increments (`Bounded.total_le`). Until the next check is due an
increment may add a key.

* `size_le_allowance` — whatever calls are made, there are never more keys than that.
-/

namespace Muster

open Census

/-- **How many keys there may be** after some increments: what the last check allows, and one for
each increment since. -/
def Limits.allowance (limits : Limits) (cap processed : Nat) : Nat :=
  max cap ((processed - processed % limits.interval) / limits.threshold) +
    processed % limits.interval

/-- One more increment allows one more key, unless a check is due after it. -/
theorem Limits.allowance_succ {limits : Limits} {n : Nat} (h : (n + 1) % limits.interval ≠ 0)
    (cap : Nat) : limits.allowance cap (n + 1) = limits.allowance cap n + 1 := by
  have hdiv : (n + 1) / limits.interval = n / limits.interval :=
    Nat.succ_div_of_mod_ne_zero h
  have hn := Nat.div_add_mod n limits.interval
  have hsucc := Nat.div_add_mod (n + 1) limits.interval
  rw [hdiv] at hsucc
  have hmod : (n + 1) % limits.interval = n % limits.interval + 1 := by omega
  have hsub : n + 1 - (n % limits.interval + 1) = n - n % limits.interval := by omega
  rw [allowance, allowance, hmod, hsub, Nat.add_assoc]

/-- When a check is due, the increments until then must make up for the keys. -/
theorem Limits.allowance_of_due {limits : Limits} {n : Nat} (h : n % limits.interval = 0)
    (cap : Nat) : limits.allowance cap n = max cap (n / limits.threshold) := by
  rw [allowance, h, Nat.sub_zero, Nat.add_zero]

namespace Ledger

variable {l m : Ledger} {limits : Limits} {cap : Nat} {ops : List Operation}
  {replies : List Reply} {ns : List Notice}

/-- All counts together. -/
def total (l : Ledger) : Nat := (l.groups.map Group.count).sum

theorem total_grown_le (h : KeysDiffer l.groups) (k : Key) (r : Option Record) :
    (l.grown k r).total ≤ l.total + 1 := by
  unfold grown total
  split
  · exact (h.total_map_bumpIf k).trans_le (Nat.add_le_add_left (Bool.toNat_le _) _)
  · simp only [List.map_cons, List.sum_cons]
    omega

theorem size_grown_le (l : Ledger) (k : Key) (r : Option Record) :
    (l.grown k r).size ≤ l.size + 1 := by
  unfold grown size
  split
  · rw [List.length_map]
    exact Nat.le_succ _
  · exact Nat.le_refl _

theorem keysDiffer_grown (h : KeysDiffer l.groups) (k : Key) (r : Option Record) :
    KeysDiffer (l.grown k r).groups := by
  unfold grown find?
  split
  · exact h.map_bumpIf k
  · have hnone := Option.not_isSome_iff_eq_none.1 ‹_›
    refine List.pairwise_cons.2 ⟨fun g hg => ?_, h⟩
    rw [Key.same_comm]
    exact Bool.eq_false_iff.2 (List.find?_eq_none.1 hnone g hg)

theorem exists_groups_pruned (l : Ledger) (threshold : Nat) : ∃ groups,
    l.pruned threshold = { l with groups } ∧ groups.Sublist l.groups := by
  unfold pruned
  split
  · exact ⟨l.groups, rfl, List.Sublist.refl _⟩
  · exact ⟨_, rfl, List.filter_sublist⟩

/-- Checking the cap leaves some of the groups, and changes nothing else. -/
theorem exists_groups_checked (l : Ledger) : ∃ groups,
    l.checked = { l with groups } ∧ groups.Sublist l.groups := by
  unfold checked
  split
  · exact ⟨l.groups, rfl, List.Sublist.refl _⟩
  · exact l.exists_groups_pruned _

/-- **After a check of the cap** there are at most as many keys as it says, or all that are left
have been counted as often as the threshold. -/
theorem checked_size_le_or (hcap : l.limits.cap = some cap) (ho : l.sealed = false)
    (hdue : l.processed % l.limits.interval = 0) :
    l.checked.size ≤ cap ∨ ∀ g ∈ l.checked.groups, l.limits.threshold ≤ g.count := by
  by_cases hover : cap < l.size
  · have hex : l.exceeded = some cap := by
      rw [exceeded, if_pos hdue, hcap, Option.filter_some, if_pos (decide_eq_true hover)]
    refine Or.inr fun g hg => ?_
    rw [checked, hex] at hg
    simp only [pruned, ho, Bool.false_eq_true, if_false] at hg
    exact of_decide_eq_true (List.mem_filter.1 hg).2
  · obtain ⟨groups, heq, hsub⟩ := l.exists_groups_checked
    have hle : l.checked.size ≤ l.size := by
      rw [heq]
      exact hsub.length_le
    exact Or.inl (hle.trans (Nat.not_lt.1 hover))

/-! ## Ledgers that keep to their cap -/

/-- **A ledger whose counts are increments.** -/
structure Counted (limits : Limits) (l : Ledger) : Prop where
  limits_eq : l.limits = limits
  differ : KeysDiffer l.groups
  total_le : l.total ≤ l.processed

/-- **A ledger that keeps to its cap**, as far as the checks make it. -/
structure Bounded (limits : Limits) (cap : Nat) (l : Ledger) : Prop extends l.Counted limits where
  size_le : l.size ≤ limits.allowance cap l.processed

/-- Some of the groups are counted like all of them. -/
theorem Counted.sublist (h : l.Counted limits) {groups : List Group}
    (hs : groups.Sublist l.groups) : ({ l with groups } : Ledger).Counted limits :=
  ⟨h.limits_eq, h.differ.sublist hs,
    ((hs.map Group.count).sum_le_sum fun _ _ => Nat.zero_le _).trans h.total_le⟩

theorem Counted.grown (h : l.Counted limits) (k : Key) (r : Option Record) :
    (l.grown k r).Counted limits :=
  ⟨h.limits_eq, keysDiffer_grown h.differ k r,
    (total_grown_le h.differ k r).trans (Nat.succ_le_succ h.total_le)⟩

theorem Bounded.sublist (h : l.Bounded limits cap) {groups : List Group}
    (hs : groups.Sublist l.groups) : ({ l with groups } : Ledger).Bounded limits cap :=
  ⟨h.toCounted.sublist hs, hs.length_le.trans h.size_le⟩

/-- What is left to be handed out does not matter, nor how often the ledger has been sealed. -/
theorem Bounded.handing (h : l.Bounded limits cap) (left : Option (List Key)) (seals : Nat) :
    ({ l with left, seals } : Ledger).Bounded limits cap :=
  ⟨⟨h.limits_eq, h.differ, h.total_le⟩, h.size_le⟩

/-- An empty ledger keeps to every cap. -/
theorem bounded_empty (limits : Limits) (cap seals : Nat) :
    ({ limits, seals } : Ledger).Bounded limits cap :=
  ⟨⟨rfl, List.Pairwise.nil, Nat.le_refl 0⟩, Nat.zero_le _⟩

section Cap

variable (hcap : limits.cap = some cap) (hthreshold : 0 < limits.threshold)

include hthreshold in
/-- Where all counts are at least the threshold, the increments make up for the keys. -/
theorem Counted.size_le_div (h : l.Counted limits)
    (hall : ∀ g ∈ l.groups, limits.threshold ≤ g.count) :
    l.size ≤ l.processed / limits.threshold := by
  have hsum := List.card_nsmul_le_sum (l.groups.map Group.count) limits.threshold (by simpa)
  rw [List.length_map, Nat.nsmul_eq_mul] at hsum
  exact (Nat.le_div_iff_mul_le hthreshold).2 (hsum.trans h.total_le)

include hcap hthreshold

/-- **An increment that is taken in** adds a key at most, and is followed by a check of the cap if
it is time for one. -/
theorem Bounded.counted (h : l.Bounded limits cap) (ho : l.sealed = false) (k : Key)
    (r : Option Record) : (l.grown k r).checked.Bounded limits cap := by
  have hgrown := h.toCounted.grown k r
  have hor := checked_size_le_or (l := l.grown k r) (by rw [hgrown.limits_eq, hcap]) ho
  obtain ⟨groups, heq, hsub⟩ := (l.grown k r).exists_groups_checked
  have hchecked := hgrown.sublist hsub
  rw [heq, hgrown.limits_eq] at hor
  rw [heq]
  refine ⟨hchecked, ?_⟩
  show groups.length ≤ limits.allowance cap (l.processed + 1)
  by_cases hdue : (l.processed + 1) % limits.interval = 0
  · rw [Limits.allowance_of_due hdue]
    rcases hor hdue with hle | hall
    · exact le_max_of_le_left hle
    · exact le_max_of_le_right (hchecked.size_le_div hthreshold hall)
  · rw [Limits.allowance_succ hdue]
    exact (hsub.length_le.trans (l.size_grown_le k r)).trans (Nat.succ_le_succ h.size_le)

/-- **Every call keeps to the cap.** -/
theorem Bounded.perform (h : l.Bounded limits cap) (order : List Key) (op : Operation) :
    (l.perform order op).state.Bounded limits cap := by
  cases op with
  | increment k deposit =>
    rw [Ledger.perform, count]
    cases hs : l.sealed with
    | true => exact h
    | false => exact h.counted hcap hthreshold hs k _
  | prune threshold =>
    obtain ⟨groups, heq, hsub⟩ := l.exists_groups_pruned threshold
    show (l.pruned threshold).Bounded limits cap
    rw [heq]
    exact h.sublist hsub
  | trySeal =>
    rw [Ledger.perform]
    split
    · exact h
    · exact h.handing _ _
  | take =>
    rw [Ledger.perform, Ledger.take]
    split
    · exact h
    · exact h
    · exact h.handing _ _
  | clear =>
    show ({ limits := l.limits, seals := l.seals } : Ledger).Bounded limits cap
    rw [h.limits_eq]
    exact bounded_empty limits cap _
  | _ => exact h

/-- **So does every run.** -/
theorem Runs.bounded (h : l.Bounded limits cap) (hl : l.Runs ops replies ns m) :
    m.Bounded limits cap := by
  induction hl with
  | nil l => exact h
  | @cons l _ _ order op _ _ _ _ _ _ hop _ ih =>
    have hstep := h.perform hcap hthreshold order op
    rw [hop] at hstep
    exact ih hstep

end Cap

end Ledger

/-! ## Censuses under a cap -/

namespace Census

variable {c : Census} {l : Ledger} {limits : Limits} {cap : Nat}

/-- **An increment that is taken in when it is time for a check** leaves at most as many keys as the
cap says, or only keys that have been counted as often as the threshold. -/
theorem Mirrors.checked_size_le_or (h : c.Mirrors l) (hcap : c.limits.cap = some cap)
    (ho : c.sealed = false) (hdue : c.processed % c.limits.interval = 0) :
    c.checked.size ≤ cap ∨ ∀ k n, (countOf k).run c.checked = ⟨.ok (some n), c.checked, []⟩ →
      c.limits.threshold ≤ n := by
  have hchecked := h.checked
  rw [← h.limits] at hcap hdue ⊢
  rw [← h.processed] at hdue
  refine (Ledger.checked_size_le_or hcap (h.sealed_eq.trans ho) hdue).imp (fun hle => ?_)
    fun hall k n hn => ?_
  · rwa [← hchecked.size_eq]
  · rw [run_countOf, hchecked.healthy.shard] at hn
    obtain ⟨g, hg, rfl⟩ := Option.map_eq_some_iff.1 (Except.ok.inj (congrArg Outcome.result hn))
    rw [← hchecked.find?_eq] at hg
    exact hall g (List.mem_of_find?_eq_some hg)

/-- **A cap bounds the keys of a census.** Whatever calls are made on a new census with a cap, it
never holds more keys than the cap, or than can have been counted as often as the threshold when the
cap was last checked, and one for each increment since. An increment that is taken in when it is
time for a check leaves no more keys than the cap, or only keys that have been counted as often as
the threshold. -/
theorem size_le_allowance (hc : c.Fresh) (hcap : c.limits.cap = some cap)
    (hthreshold : 0 < c.limits.threshold) (ops : List Operation) :
    ∃ replies d ns, (Census.performAll ops).run c = ⟨.ok replies, d, ns⟩ ∧
      d.size ≤ max cap ((d.processed - d.processed % c.limits.interval) / c.limits.threshold) +
        d.processed % c.limits.interval ∧
      ∀ k deposit, d.sealed = false →
        ∃ new e ns', (Census.perform (.increment k deposit)).run d = ⟨.ok (.flag new), e, ns'⟩ ∧
          e.processed = d.processed + 1 ∧
          (e.processed % c.limits.interval = 0 →
            e.size ≤ cap ∨
              ∀ l n, (countOf l).run e = ⟨.ok (some n), e, []⟩ → c.limits.threshold ≤ n) := by
  obtain ⟨replies, d, ns, l, hrun, hl, hd⟩ := hc.mirrors.performAll ops
  have hbounded := hl.bounded hcap hthreshold (Ledger.bounded_empty c.limits cap c.seals)
  have hlimits : d.limits = c.limits := hd.limits.symm.trans hbounded.limits_eq
  refine ⟨replies, d, ns, hrun, ?_, fun k deposit ho => ?_⟩
  · have hsize := hbounded.size_le
    rwa [hd.size_eq, hd.processed] at hsize
  · have hincrement := run_perform_increment hd.sound hd.healthy k deposit
    rw [ho] at hincrement
    have hor := (hd.grown k (deposit.map Deposit.record)).checked_size_le_or
      (by rw [limits_grown, hlimits, hcap]) (by rw [sealed_grown, ho])
    rw [limits_grown, hlimits] at hor
    refine ⟨_, _, _, hincrement, by rw [processed_checked, processed_grown], fun hdue => hor ?_⟩
    rwa [processed_checked] at hdue

/-- The bound is met: two keys have made up for themselves, and a third one has come since the last
check. -/
theorem size_le_allowance_pair :
    let limits : Limits := { cap := some 1, interval := 2 }
    let key := fun i => Key.ofRecord (.field "id" (.int i) .empty)
    let ops := [1, 1, 2, 2, 3].map fun i => Operation.increment (key i) none
    ∃ replies d ns, (Census.performAll ops).run (pair limits) = ⟨.ok replies, d, ns⟩ ∧
      d.size = limits.allowance 1 d.processed ∧ d.size ≤ limits.allowance 1 d.processed ∧
      ∃ new e ns', (Census.perform (.increment (key 3) none)).run d = ⟨.ok (.flag new), e, ns'⟩ ∧
        e.processed = 6 ∧
          (e.size ≤ 1 ∨ ∀ l n, (countOf l).run e = ⟨.ok (some n), e, []⟩ → 2 ≤ n) := by
  intro limits key ops
  obtain ⟨replies, d, ns, hrun, hle, hincrement⟩ :=
    size_le_allowance (fresh_pair limits) rfl Nat.two_pos ops
  have hmet : ((Census.performAll ops).run (pair limits)).state.size = 3 ∧
      ((Census.performAll ops).run (pair limits)).state.processed = 5 ∧
      ((Census.performAll ops).run (pair limits)).state.sealed = false := by
    decide +kernel
  rw [hrun] at hmet
  obtain ⟨hsize, hprocessed, ho⟩ := hmet
  obtain ⟨new, e, ns', hrun', he, hor⟩ := hincrement (key 3) none ho
  rw [hprocessed] at he
  refine ⟨replies, d, ns, hrun, ?_, hle, new, e, ns', hrun', he, hor ?_⟩
  · rw [hsize, hprocessed]
    decide
  · rw [he]
    decide

end Census

end Muster
