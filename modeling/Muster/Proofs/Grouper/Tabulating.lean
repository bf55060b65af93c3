import Muster.Proofs.Fields
import Muster.Proofs.Grouper.Alone
import Muster.Proofs.Validation

/-!
# Proofs/Grouper/Tabulating — a grouper tabulates its records

A new grouper without a cap that is given some records one after the other, is sealed, and is asked
for groups until there is none, hands out one record for each projection onto the key fields
(`Grouper.Tabulated`). What this record is can be said without a census (`Grouper.Row`).

* `tabulates` — every accepted configuration tabulates every list of records.
-/

namespace Muster.Grouper

variable {g : Config} {rs : List Record} {r s : Record}

/-! ## Rows -/

/-- Records belong to one group if their projections are the same. -/
theorem alike_eq (g : Config) (r s : Record) :
    alike g r s = (r.project g.keyFields).same (s.project g.keyFields) :=
  Bool.eq_iff_iff.2 Key.same_iff

/-- **The row of a record that opens a group** among some records: the record itself or its
projection, and set in it, if that is asked for, the number of the records with this projection. -/
def Row (g : Config) (rs : List Record) (r row : Record) : Prop :=
  let base := if g.retainOthers then r else r.project g.keyFields
  if g.withCount then
    ∃ n : Int64,
      n.toInt = rs.countP (fun s => (r.project g.keyFields).same (s.project g.keyFields)) ∧
        base.Sets countField (.int n) row
  else row = base

/-- **A group is shown as its row**, as long as the row can hold the number. -/
theorem row_shown (hlength : rs.length < 2 ^ 63) (r : Record) :
    Row g rs r (shown g (Key.project g.keyFields r) (groupOf g rs r)) := by
  have hbase : (if g.retainOthers then (groupOf g rs r).retained.getD (r.project g.keyFields)
      else r.project g.keyFields) = if g.retainOthers then r else r.project g.keyFields := by
    unfold groupOf
    split <;> rfl
  have hcount : (groupOf g rs r).count =
      rs.countP fun s => (r.project g.keyFields).same (s.project g.keyFields) :=
    List.countP_congr fun s _ => by rw [alike_eq]
  have hlt : (groupOf g rs r).count < 2 ^ 63 := Nat.lt_of_le_of_lt List.countP_le_length hlength
  show Row g rs r (if g.withCount then Record.add countField _ (if _ then _ else _) else _)
  rw [Row]
  split
  · refine ⟨Int64.ofNat (groupOf g rs r).count, ?_, ?_⟩
    · rw [Int64.toInt_ofNat_of_lt hlt, hcount]
    · rw [← hbase]
      exact Record.sets_add ..
  · exact hbase

/-! ## Tables -/

/-- Counts some records, seals, and asks for groups until there is none. -/
def tabulate (rs : List Record) : Call Grouper (List Bool × List Record) := do
  let answers ← countEach rs
  let _ ← finish
  let out ← drain (rs.length + 1)
  return (answers, out)

/-- **What tabulating some records must come to**: the answers are yes for the first record of each
projection, and what is handed out is the rows of these records, in one order or another. -/
structure Tabulated (g : Config) (rs : List Record) (answers : List Bool) (out : List Record) :
    Prop where
  length : answers.length = rs.length
  opens (i : Nat) (r : Record) : rs[i]? = some r → answers[i]? =
    some !(rs.take i).any fun s => (s.project g.keyFields).same (r.project g.keyFields)
  rows : ∃ rows, out.Perm rows ∧ List.Forall₂ (Row g rs) (opened rs answers) rows

theorem tabulated (hlength : rs.length < 2 ^ 63) {out : List Record} (h : out.Perm (report g rs)) :
    Tabulated g rs (opens g [] rs) out where
  length := length_opens [] rs
  opens i r hr := by
    rw [getElem?_opens [] hr, List.nil_append]
    simp only [alike_eq]
  rows := by
    refine ⟨report g rs, h, ?_⟩
    have hfirsts : firsts g rs = opened rs (Grouper.opens g [] rs) := firsts_append [] rs
    rw [← hfirsts, report, grouped, List.map_map, List.forall₂_map_right_iff]
    exact List.forall₂_same.2 fun r _ => row_shown hlength r

/-- **Tabulating ends**, whatever the records are. -/
theorem run_tabulate {c : Census} (hc : Census.ofConfig g = .ok c) (hcap : g.maxTypes ≤ 0)
    (rs : List Record) :
    ∃ out y left, (tabulate rs).run { config := g, census := c } =
        ⟨.ok (opens g [] rs, out), y, [.sealed left]⟩ ∧
      next.run y = ⟨.ok .exhausted, y, []⟩ ∧ out.Perm (report g rs) := by
  obtain ⟨x, y, left, hcount, hfinish, -, hle, hpass⟩ := run_pass hc hcap rs
  obtain ⟨out, z, hdrain, hout, hleft⟩ := hpass (rs.length + 1) (Nat.lt_succ_of_le hle)
  refine ⟨out, z, left, ?_, run_next_of_remaining hleft, hout⟩
  rw [tabulate, Call.run_bind_ok hcount, Call.run_bind_ok hfinish, Call.run_bind_ok hdrain]
  rfl

/-- **A grouper without a cap tabulates its records.** Let a configuration be accepted, and say
nothing of a cap. There is a grouper as configured if there is room for its shards. Whatever records
it is given, fewer than an integer can count, it answers yes to the first record of each projection
onto the key fields, and then hands out the rows of these records and no more. A projection lists
the key fields that the record has, in their order. -/
theorem tabulates {schema : Option (List String)} (hg : g.validate schema = .ok ())
    (hcap : g.maxTypes ≤ 0) (hlength : rs.length < 2 ^ 63) :
    ((∃ x, ofConfig g = .ok x) ↔ g.shards.toNat * Shard.width < Room.bound) ∧
    (∀ r : Record, (r.project g.keyFields).toList =
      g.keyFields.filterMap fun n => (r.get? n).map fun v => (n, v)) ∧
    ∀ x, ofConfig g = .ok x →
      ∃ answers out y ns, (tabulate rs).run x = ⟨.ok (answers, out), y, ns⟩ ∧
        next.run y = ⟨.ok .exhausted, y, []⟩ ∧ Tabulated g rs answers out := by
  obtain ⟨hnodup, hshards, hinterval⟩ := Config.of_validate hg
  refine ⟨?_, Record.toList_project hnodup, fun x hx => ?_⟩
  · rw [← Census.exists_ofConfig_iff hshards hinterval]
    simp only [ofConfig_eq_ok_iff]
    exact ⟨fun ⟨_, c, hc, _⟩ => ⟨c, hc⟩, fun ⟨c, hc⟩ => ⟨_, c, hc, rfl⟩⟩
  · obtain ⟨c, hc, rfl⟩ := ofConfig_eq_ok_iff.1 hx
    obtain ⟨out, y, left, hrun, hnext, hout⟩ := run_tabulate hc hcap rs
    exact ⟨_, out, y, _, hrun, hnext, tabulated hlength hout⟩

/-- Three records of two groups, one of which has a field in the place of the number. -/
theorem tabulates_three :
    let g : Config := { keyFields := ["id"], withCount := true, retainOthers := true, shards := 2 }
    let r := Record.field "count" (.str "?") (.field "id" (.int 1) .empty)
    let rs := [r, .field "id" (.int 2) .empty, r]
    g.validate (some ["id"]) = .ok () ∧ g.maxTypes ≤ 0 ∧ rs.length < 2 ^ 63 ∧
      ∃ x answers out y ns, ofConfig g = .ok x ∧ (tabulate rs).run x = ⟨.ok (answers, out), y, ns⟩ ∧
        answers[1]? = some true ∧ answers[2]? = some false ∧ Tabulated g rs answers out := by
  intro g r rs
  have hg : g.validate (some ["id"]) = .ok () := rfl
  have hcap : g.maxTypes ≤ 0 := by decide
  have hlength : rs.length < 2 ^ 63 := by decide
  obtain ⟨hroom, -, htabulates⟩ := tabulates hg hcap hlength
  obtain ⟨x, hx⟩ := hroom.2 (by decide)
  obtain ⟨answers, out, y, ns, hrun, -, h⟩ := htabulates x hx
  refine ⟨hg, hcap, hlength, x, answers, out, y, ns, hx, hrun, ?_, ?_, h⟩
  · rw [h.opens 1 _ rfl]
    decide +kernel
  · rw [h.opens 2 _ rfl]
    decide +kernel

end Muster.Grouper
