import Muster.Proofs.Census.Counting
import Muster.Proofs.Grouper.HandingOut

/-!
# Proofs/Grouper/Groups — the groups of a list of records

Two records are alike when their keys are the same. Which groups a list of records makes can be said
without a census: one for the first record of each kind, with the number of records that are like it
(`Grouper.grouped`). A census to which the records come one after the other holds these groups, in
some order (`Census.Sound.groups_grown_perm`).

* `Grouper.firsts_append_singleton` — a record opens a group if none before is like it.
* `Grouper.firsts_append` — the first records of the groups are those that open one.
* `Grouper.report` — the records that stand for the groups.
-/

namespace Muster

namespace Grouper

variable {g : Config} {rs : List Record} {r s : Record}

/-! ## Records that are alike -/

/-- Do two records belong to one group? -/
def alike (g : Config) (r s : Record) : Bool :=
  (Key.project g.keyFields r).same (Key.project g.keyFields s)

@[simp] theorem alike_refl (g : Config) (r : Record) : alike g r r = true := Key.same_refl _

theorem alike_comm (g : Config) (r s : Record) : alike g r s = alike g s r := Key.same_comm _ _

theorem alike_congr (h : alike g r s = true) (x : Record) : alike g r x = alike g s x :=
  Key.same_congr h _

/-- **The first record of each group**, in the order in which they come. -/
def firsts (g : Config) : List Record → List Record
  | [] => []
  | r :: rs => r :: (firsts g rs).filter fun s => !alike g r s

theorem mem_of_mem_firsts (hs : s ∈ firsts g rs) : s ∈ rs := by
  induction rs with
  | nil => exact hs
  | cons r rs ih =>
    rcases List.mem_cons.1 hs with rfl | hs
    · exact List.mem_cons_self
    · exact List.mem_cons_of_mem r (ih (List.mem_filter.1 hs).1)

/-- **Every record is like a first one.** -/
theorem any_firsts (rs : List Record) : (firsts g rs).any (alike g · r) = rs.any (alike g · r) := by
  induction rs with
  | nil => rfl
  | cons x rs ih =>
    rw [firsts, List.any_cons, List.any_cons, List.any_filter, ← ih]
    cases hx : alike g x r with
    | true => rfl
    | false =>
      -- whatever is like `r` is not like `x`, hence not filtered out
      refine congrArg (false || ·) (congrArg (List.any (firsts g rs)) (funext fun s => ?_))
      cases hs : alike g s r with
      | false => rw [Bool.and_false]
      | true =>
        rw [alike_comm, ← alike_congr hs, alike_comm] at hx
        rw [hx]
        rfl

theorem length_firsts_le (rs : List Record) : (firsts g rs).length ≤ rs.length := by
  induction rs with
  | nil => exact Nat.le_refl 0
  | cons r rs ih => exact Nat.succ_le_succ (Nat.le_trans (List.length_filter_le _ _) ih)

/-- No two of the first records are alike. -/
theorem pairwise_firsts (rs : List Record) :
    (firsts g rs).Pairwise fun r s => alike g r s = false := by
  induction rs with
  | nil => exact List.Pairwise.nil
  | cons r rs ih =>
    refine List.pairwise_cons.2 ⟨fun s hs => ?_, ih.filter _⟩
    simpa using (List.mem_filter.1 hs).2

/-- **A record opens a group if none before is like it.** -/
theorem firsts_append_singleton (r : Record) (rs : List Record) :
    firsts g (rs ++ [r]) =
      if rs.any (alike g · r) then firsts g rs else firsts g rs ++ [r] := by
  induction rs with
  | nil => rfl
  | cons x rs ih =>
    rw [List.cons_append, firsts, firsts, ih, List.any_cons]
    cases hx : alike g x r with
    | true =>
      -- the record is like `x`, so that it is filtered out if it was added
      cases rs.any (alike g · r) <;> simp [hx]
    | false => cases rs.any (alike g · r) <;> simp [hx]

/-- **Which records open a group**, after some that have come before them. -/
def opens (g : Config) : (seen rs : List Record) → List Bool
  | _, [] => []
  | seen, r :: rs => (!seen.any (alike g · r)) :: opens g (seen ++ [r]) rs

@[simp] theorem length_opens (seen rs : List Record) : (opens g seen rs).length = rs.length := by
  induction rs generalizing seen with
  | nil => rfl
  | cons r rs ih => rw [opens, List.length_cons, ih, List.length_cons]

/-- A record opens a group if none before is like it. -/
theorem getElem?_opens (seen : List Record) {rs : List Record} {i : Nat} (h : rs[i]? = some r) :
    (opens g seen rs)[i]? = some !(seen ++ rs.take i).any (alike g · r) := by
  induction rs generalizing seen i with
  | nil => cases h
  | cons x rs ih =>
    cases i with
    | zero =>
      obtain rfl := Option.some.inj h
      simp [opens]
    | succ i =>
      rw [opens, List.getElem?_cons_succ, ih _ (by simpa using h)]
      simp

/-- The records to which the answer was yes. -/
def opened (rs : List Record) (answers : List Bool) : List Record :=
  ((rs.zip answers).filter Prod.snd).map Prod.fst

/-- **The first records are those that open a group.** -/
theorem firsts_append (seen rs : List Record) :
    firsts g (seen ++ rs) = firsts g seen ++ opened rs (opens g seen rs) := by
  induction rs generalizing seen with
  | nil => simp [opened]
  | cons r rs ih =>
    rw [List.append_cons, ih, firsts_append_singleton, opens]
    cases seen.any (alike g · r) <;> simp [opened]

/-! ## Groups -/

theorem payload_eq (x : Grouper) (r : Record) :
    x.payload r = .answering (.ok (if x.config.retainOthers then some r else none)) := by
  unfold payload
  split
  · exact Census.Payload.record_eq r
  · exact Census.Payload.nothing_eq

/-- The group of a record: how many records are like it, and what is retained of it. -/
def groupOf (g : Config) (rs : List Record) (r : Record) : Group where
  key := Key.project g.keyFields r
  count := rs.countP (alike g r)
  retained := if g.retainOthers then some r else none

/-- **The groups of a list of records.** -/
def grouped (g : Config) (rs : List Record) : List Group := (firsts g rs).map (groupOf g rs)

/-- **The records that stand for the groups of a list of records.** -/
def report (g : Config) (rs : List Record) : List Record :=
  (grouped g rs).map fun group => shown g group.key group

/-- Another record is counted in the group of the records that are like it. -/
theorem groupOf_append_singleton (g : Config) (rs : List Record) (r s : Record) :
    groupOf g (rs ++ [r]) s = (groupOf g rs s).bumpIf (Key.project g.keyFields r) := by
  have hcount : (rs ++ [r]).countP (alike g s) =
      if alike g s r then rs.countP (alike g s) + 1 else rs.countP (alike g s) := by
    rw [List.countP_append, List.countP_singleton]
    split <;> rfl
  rw [groupOf, hcount]
  show _ = if alike g s r then _ else _
  split <;> rfl

/-- A record that is like none before has a group of its own. -/
theorem groupOf_new (h : rs.any (alike g · r) = false) :
    groupOf g (rs ++ [r]) r = {
      key := Key.project g.keyFields r
      retained := if g.retainOthers then some r else none } := by
  have hcount : (rs ++ [r]).countP (alike g r) = 1 := by
    have hnone : rs.countP (alike g r) = 0 := List.countP_eq_zero.2 fun s hs => by
      rw [alike_comm]
      exact List.any_eq_false.1 h s hs
    rw [List.countP_append, hnone, List.countP_singleton, if_pos (alike_refl g r)]
  rw [groupOf, hcount]

/-- **Another record is counted in its group, or opens one.** -/
theorem grouped_append_singleton (g : Config) (rs : List Record) (r : Record) :
    grouped g (rs ++ [r]) =
      if rs.any (alike g · r) then
        (grouped g rs).map (Group.bumpIf (Key.project g.keyFields r))
      else
        grouped g rs ++ [{
          key := Key.project g.keyFields r
          retained := if g.retainOthers then some r else none }] := by
  have hmap : (firsts g rs).map (groupOf g (rs ++ [r])) =
      (grouped g rs).map (Group.bumpIf (Key.project g.keyFields r)) := by
    rw [grouped, List.map_map]
    exact List.map_congr_left fun s _ => groupOf_append_singleton g rs r s
  rw [grouped, firsts_append_singleton]
  cases h : rs.any (alike g · r) with
  | true => exact hmap
  | false =>
    -- no group there is the one of the record
    have hid : (grouped g rs).map (Group.bumpIf (Key.project g.keyFields r)) = grouped g rs := by
      refine Group.map_bumpIf_eq_self fun group hgroup => ?_
      obtain ⟨s, hs, rfl⟩ := List.mem_map.1 hgroup
      exact Bool.eq_false_iff.2 (List.any_eq_false.1 h s (mem_of_mem_firsts hs))
    simp only [Bool.false_eq_true, if_false, List.map_append, List.map_cons, List.map_nil]
    rw [hmap, hid, groupOf_new h]

/-- There is a group of a key if a record has it. -/
theorem any_grouped (g : Config) (rs : List Record) (r : Record) :
    ((grouped g rs).any fun group => group.key.same (Key.project g.keyFields r)) =
      rs.any (alike g · r) := by
  rw [grouped, List.any_map, ← any_firsts]
  rfl

end Grouper

/-! ## A census to which records come -/

/-- **The key of a record is there if a record like it has come.** -/
theorem Census.Sound.isSome_find?_project {c : Census} (h : c.Sound) {g : Config} {rs : List Record}
    (hrs : c.groups.Perm (Grouper.grouped g rs)) (r : Record) :
    (c.find? (Key.project g.keyFields r)).isSome = rs.any (Grouper.alike g · r) := by
  rw [h.find?_eq, List.isSome_find?, hrs.any_eq, Grouper.any_grouped]

/-- **A census holds the groups of the records that have come to it**, in some order, if it held
those of the records before the last. -/
theorem Census.Sound.groups_grown_perm {c : Census} (h : c.Sound) {g : Config} {rs : List Record}
    (hrs : c.groups.Perm (Grouper.grouped g rs)) (r : Record) :
    (c.grown (Key.project g.keyFields r) (if g.retainOthers then some r else none)).groups.Perm
      (Grouper.grouped g (rs ++ [r])) := by
  refine (h.groups_grown _ _).trans ?_
  rw [Grouper.grouped_append_singleton, h.isSome_find?_project hrs]
  split
  · exact hrs.map _
  · exact (hrs.cons _).trans (List.perm_append_singleton _ _).symm

end Muster
