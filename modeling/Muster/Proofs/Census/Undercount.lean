import Mathlib.Algebra.Order.Group.Nat
import Muster.Proofs.Census.Operation
import Muster.Proofs.Census.Tally

/-!
# Proofs/Census/Undercount — how much pruning may forget

A census whose cap is checked forgets the keys that it prunes, and counts them from the beginning
when they come again. A check forgets fewer occurrences of a key than the threshold, so however
often a key has been forgotten, its count is short by at most as much for each check that was due
(`Limits.slack`).

* `undercount_le_slack` — a count is never too high, and never short by more than that; a key that
  has occurred more often is there.
-/

namespace Muster

/-- **How many occurrences of a key may have been forgotten** after some increments. -/
def Limits.slack (limits : Limits) (processed : Nat) : Nat :=
  (limits.threshold - 1) * (processed / limits.interval)

/-- One more increment forgets nothing unless a check is due after it. -/
theorem Limits.slack_succ (limits : Limits) (n : Nat) :
    limits.slack (n + 1) =
      limits.slack n + if (n + 1) % limits.interval = 0 then limits.threshold - 1 else 0 := by
  simp only [slack, Nat.succ_div, Nat.dvd_iff_mod_eq_zero, Nat.mul_add]
  split <;> simp

namespace Census

variable {c : Census} {seen : List Key}

/-! ## What happens to a tally -/

/-- A pass of pruning forgets the keys with a low tally, and leaves the others as they are. -/
theorem tally_pruned (hc : c.Sound) (ho : c.sealed = false) (threshold : Nat) (k : Key) :
    (c.pruned threshold).tally k = if c.tally k < threshold then 0 else c.tally k := by
  rw [tally, tally, find?_pruned hc ho]
  cases c.find? k with
  | none => simp
  | some g => by_cases hg : threshold ≤ g.count <;> simp [Option.filter_some, hg]

/-- **An increment counts for its key alone.** -/
theorem tally_grown (hc : c.Sound) (k : Key) (r : Option Record) (l : Key) :
    (c.grown k r).tally l = c.tally l + (k.same l).toNat := by
  unfold grown
  cases hk : c.find? k with
  | some g => exact tally_bumped hc (by rw [hk]; rfl) l
  | none => exact tally_inserted hc hk r l

/-- **Checking the cap** adds nothing to a tally, and takes less than the threshold from it, if it
is time to check at all. -/
theorem tally_checked (hc : c.Sound) (ho : c.sealed = false) (k : Key) :
    c.checked.tally k ≤ c.tally k ∧ c.tally k ≤ c.checked.tally k +
      if c.processed % c.limits.interval = 0 then c.limits.threshold - 1 else 0 := by
  cases hex : c.exceeded with
  | none =>
    rw [checked, hex]
    exact ⟨Nat.le_refl _, Nat.le_add_right _ _⟩
  | some cap =>
    have hdue : c.processed % c.limits.interval = 0 := by
      by_contra hdue
      rw [exceeded, if_neg hdue] at hex
      cases hex
    have hchecked : c.checked.tally k = (c.pruned c.limits.threshold).tally k := by
      rw [checked, hex]
      rfl
    rw [hchecked, tally_pruned hc ho, if_pos hdue]
    split <;> omega

/-! ## Runs of increments -/

/-- **A census that has counted some keys**: a tally is at most the number of occurrences of its
key, and short of it by at most what may have been forgotten. -/
structure Follows (seen : List Key) (c : Census) : Prop where
  isOpen : c.Open
  healthy : c.Healthy
  processed : c.processed = seen.length
  le (k : Key) : c.tally k ≤ seen.countP (·.same k)
  ge (k : Key) : seen.countP (·.same k) ≤ c.tally k + c.limits.slack seen.length

theorem Fresh.follows (h : c.Fresh) : c.Follows [] where
  isOpen := h.isOpen
  healthy := h.healthy
  processed := h.processed
  le k := by rw [tally, h.find?_eq_none]; exact Nat.zero_le _
  ge k := Nat.zero_le _

/-- **One more increment.** -/
theorem Follows.counted (h : c.Follows seen) (k : Key) (r : Option Record) :
    (c.grown k r).checked.Follows (seen ++ [k]) := by
  have hgrown := h.isOpen.grown k r
  have hprocessed : (c.grown k r).processed = seen.length + 1 := by
    rw [processed_grown, h.processed]
  have htally := fun l => tally_checked hgrown.sound hgrown.mark l
  simp only [tally_grown h.isOpen.sound, limits_grown, hprocessed] at htally
  have hseen : ∀ l, (seen ++ [k]).countP (·.same l) = seen.countP (·.same l) + (k.same l).toNat :=
    fun l => by
      rw [List.countP_append, List.countP_singleton]
      cases k.same l <;> rfl
  refine ⟨hgrown.checked, (h.healthy.grown k r).checked, ?_, fun l => ?_, fun l => ?_⟩
  · rw [processed_checked, hprocessed, List.length_append, List.length_singleton]
  · have hle := h.le l
    have hat := (htally l).1
    rw [hseen]
    omega
  · have hge := h.ge l
    have hat := (htally l).2
    rw [hseen, limits_checked, limits_grown, List.length_append, List.length_singleton,
      Limits.slack_succ]
    omega

/-- The calls that count some keys, one after the other. -/
def counting (arrivals : List (Key × Option Deposit)) : List Operation :=
  arrivals.map fun a => .increment a.1 a.2

/-- How often a key occurs among some arrivals. -/
def occurrences (arrivals : List (Key × Option Deposit)) (k : Key) : Nat :=
  arrivals.countP fun a => a.1.same k

/-- **Any number of increments.** -/
theorem Follows.performAll (h : c.Follows seen) (arrivals : List (Key × Option Deposit)) :
    ∃ replies d ns, (performAll (counting arrivals)).run c = ⟨.ok replies, d, ns⟩ ∧
      d.Follows (seen ++ arrivals.map Prod.fst) ∧ d.limits = c.limits := by
  induction arrivals generalizing c seen with
  | nil => exact ⟨[], c, [], rfl, by simpa using h, rfl⟩
  | cons a arrivals ih =>
    obtain ⟨k, deposit⟩ := a
    have hrun := run_perform_increment h.isOpen.sound h.healthy k deposit
    rw [h.isOpen.mark] at hrun
    obtain ⟨replies, d, ns, hrest, hd, hlimits⟩ := ih (h.counted k (deposit.map Deposit.record))
    rw [limits_checked, limits_grown] at hlimits
    refine ⟨_, d, _, run_performAll_cons hrun hrest, ?_, hlimits⟩
    rwa [List.append_assoc] at hd

/-- **Pruning undercounts by at most `Limits.slack`.** After any increments of a new census,
whatever is supplied for new keys, the count of a key, or nothing where it is not there, is at most
the number of its occurrences, and short of it by less than the threshold for each check of the cap
that was due. A key that has occurred more often than that is there. -/
theorem undercount_le_slack (hc : c.Fresh) (arrivals : List (Key × Option Deposit)) :
    ∃ replies d ns, (Census.performAll (counting arrivals)).run c = ⟨.ok replies, d, ns⟩ ∧
      d.processed = arrivals.length ∧ ∀ k, ∃ n, (countOf k).run d = ⟨.ok n, d, []⟩ ∧
        n.getD 0 ≤ occurrences arrivals k ∧
        occurrences arrivals k ≤
          n.getD 0 + (c.limits.threshold - 1) * (arrivals.length / c.limits.interval) ∧
        ((c.limits.threshold - 1) * (arrivals.length / c.limits.interval) <
          occurrences arrivals k → n.isSome = true) := by
  obtain ⟨replies, d, ns, hrun, hd, hlimits⟩ := hc.follows.performAll arrivals
  rw [List.nil_append] at hd
  refine ⟨replies, d, ns, hrun, by rw [hd.processed, List.length_map], fun k => ?_⟩
  have hoccurs : ((arrivals.map Prod.fst).countP fun l => l.same k) = occurrences arrivals k :=
    List.countP_map
  have hle := hd.le k
  have hge := hd.ge k
  rw [hoccurs] at hle hge
  rw [hlimits, List.length_map, Limits.slack] at hge
  refine ⟨(d.find? k).map Group.count, ?_, hle, hge, fun hmore => ?_⟩
  · rw [run_countOf, hd.healthy.shard]
    rfl
  · rw [Option.isSome_map]
    by_contra hnone
    have hzero := tally_of_isSome_eq_false (Bool.not_eq_true _ ▸ hnone)
    omega

/-- A check forgets as many occurrences of a key as it may. -/
theorem undercount_le_slack_pair :
    let limits : Limits := { cap := some 1, interval := 2 }
    let k := Key.ofRecord (.field "id" (.int 1) .empty)
    let arrivals := [(k, none), (Key.ofRecord (.field "id" (.int 2) .empty), none)]
    ∃ replies d ns, (Census.performAll (counting arrivals)).run (pair limits) =
        ⟨.ok replies, d, ns⟩ ∧ occurrences arrivals k = d.tally k + limits.slack 2 ∧
      ∃ n, (countOf k).run d = ⟨.ok n, d, []⟩ ∧
        occurrences arrivals k ≤ n.getD 0 + limits.slack 2 := by
  intro limits k arrivals
  obtain ⟨replies, d, ns, hrun, -, hcount⟩ := undercount_le_slack (fresh_pair limits) arrivals
  obtain ⟨n, hn, -, hge, -⟩ := hcount k
  have htally : occurrences arrivals k =
      ((performAll (counting arrivals)).run (pair limits)).state.tally k + limits.slack 2 := by
    decide +kernel
  rw [hrun] at htally
  exact ⟨replies, d, ns, hrun, htally, n, hn, hge⟩

end Census

end Muster
