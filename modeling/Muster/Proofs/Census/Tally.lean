import Mathlib.Algebra.Order.Ring.Nat
import Muster.Proofs.Census.Changes

/-!
# Proofs/Census/Tally — how often a key has been counted

The tally of a key is its count, and nothing where the key is not there. Every occurrence that is
counted adds one to the tally of its key, whether the key was there (`tally_bumped`) or not
(`tally_inserted`), and so one to all counts together (`Group.total`).
-/

namespace Muster

/-! ## All counts -/

/-- **All counts together.** -/
def Group.total (gs : List Group) : Nat := (gs.map Group.count).sum

theorem Group.total_append (gs hs : List Group) :
    Group.total (gs ++ hs) = Group.total gs + Group.total hs := by
  rw [total, List.map_append, List.sum_append, total, total]

theorem Group.total_perm {gs hs : List Group} (h : gs.Perm hs) : Group.total gs = Group.total hs :=
  (h.map count).sum_nat

/-- **One more occurrence of a key** adds one to all counts, if the key is there. -/
theorem KeysDiffer.total_map_bumpIf {gs : List Group} (h : KeysDiffer gs) (k : Key) :
    Group.total (gs.map (Group.bumpIf k)) =
      Group.total gs + (gs.find? (·.key.same k)).isSome.toNat := by
  unfold Group.total
  induction gs with
  | nil => rfl
  | cons g gs ih =>
    rw [List.map_cons, List.map_cons, List.map_cons, List.sum_cons, List.sum_cons,
      List.find?_cons, Group.count_bumpIf]
    cases hg : g.key.same k with
    | true =>
      rw [Group.map_bumpIf_eq_self (h.not_same_behind hg), if_pos rfl]
      exact Nat.add_right_comm _ _ _
    | false =>
      rw [ih (List.pairwise_cons.1 h).2, if_neg Bool.false_ne_true]
      exact (Nat.add_assoc _ _ _).symm

namespace Census

variable {c : Census}

/-! ## One key -/

/-- How often a key has been counted. -/
def tally (c : Census) (k : Key) : Nat := ((c.find? k).map Group.count).getD 0

theorem tally_of_isSome_eq_false {k : Key} (h : (c.find? k).isSome = false) : c.tally k = 0 := by
  rw [Option.isSome_eq_false_iff, Option.isNone_iff_eq_none] at h
  rw [tally, h]
  rfl

theorem isSome_find?_bumped (hc : c.Sound) (k l : Key) :
    ((c.bumped k).find? l).isSome = (c.find? l).isSome := by
  rw [hc.find?_bumped, Option.isSome_map]

/-- **One more occurrence counts for the key alone.** -/
theorem tally_bumped (hc : c.Sound) {k : Key} (hk : (c.find? k).isSome = true) (l : Key) :
    (c.bumped k).tally l = c.tally l + (k.same l).toNat := by
  rw [tally, tally, hc.find?_bumped]
  cases hl : c.find? l with
  | none =>
    have hkl : k.same l = false := by
      rw [Bool.eq_false_iff]
      intro hkl
      rw [hc.find?_congr hkl, hl] at hk
      cases hk
    rw [hkl]
    rfl
  | some g =>
    have hgl := (hc.mem_of_find? hl).2
    have hgk : g.key.same k = k.same l := by rw [Key.same_congr hgl, Key.same_comm]
    show (g.bumpIf k).count = g.count + (k.same l).toNat
    rw [Group.count_bumpIf, hgk]
    cases k.same l <;> rfl

/-- **A key that is entered has been counted once.** -/
theorem tally_inserted (hc : c.Sound) {k : Key} (hk : c.find? k = none) (r : Option Record)
    (l : Key) : (c.inserted k r).tally l = c.tally l + (k.same l).toNat := by
  rw [tally, find?_inserted]
  by_cases hkl : k.same l = true
  · rw [if_pos hkl, tally, ← hc.find?_congr hkl, hk, hkl]
    rfl
  · rw [if_neg hkl, Bool.eq_false_iff.2 hkl]
    rfl

theorem isSome_find?_inserted (hc : c.Sound) {k : Key} (hk : c.find? k = none) (r : Option Record)
    (l : Key) : ((c.inserted k r).find? l).isSome.toNat =
      (c.find? l).isSome.toNat + (k.same l).toNat := by
  rw [find?_inserted]
  by_cases hkl : k.same l = true
  · rw [if_pos hkl, ← hc.find?_congr hkl, hk, hkl]
    rfl
  · rw [if_neg hkl, Bool.eq_false_iff.2 hkl]
    rfl

end Census

end Muster
