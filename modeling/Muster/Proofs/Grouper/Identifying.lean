import Muster.Proofs.Agreement
import Muster.Proofs.Grouper.Tabulating

/-!
# Proofs/Grouper/Identifying — what is handed out tells its group

The record that stands for a group still has the key of the group in it, so that no two of them
agree on all key fields (`outputs_identify`). This takes that the number of records does not stand
in a key field: where it does, it replaces what the group was told by (`outputs_collide`).
-/

namespace Muster.Grouper

variable {g : Config} {rs : List Record}

/-- **The number of records has a field of its own** where it is asked for. -/
def CountsApart (g : Config) : Prop := g.withCount = true → countField ∉ g.keyFields

/-- **The record that stands for a group has the key of the group in it.** -/
theorem project_shown (hcount : CountsApart g) (rs : List Record) (r : Record) :
    (shown g (Key.project g.keyFields r) (groupOf g rs r)).project g.keyFields =
      r.project g.keyFields := by
  have hbase : (if g.retainOthers then (groupOf g rs r).retained.getD (r.project g.keyFields)
      else r.project g.keyFields).project g.keyFields = r.project g.keyFields := by
    unfold groupOf
    split
    · rfl
    · exact Record.project_project g.keyFields r
  show Record.project g.keyFields (if g.withCount then Record.add countField _ (if _ then _ else _)
    else _) = _
  split
  · rename_i hc
    rw [Record.project_add_of_not_mem (hcount hc)]
    exact hbase
  · exact hbase

/-- **What stands for the groups of some records**, beside the first record of each group: the two
have the same key. -/
theorem forall₂_report (hcount : CountsApart g) (rs : List Record) :
    List.Forall₂ (fun r row => row.project g.keyFields = r.project g.keyFields) (firsts g rs)
      (report g rs) := by
  rw [report, grouped, List.map_map, List.forall₂_map_right_iff]
  exact List.forall₂_same.2 fun r _ => project_shown hcount rs r

/-- No two of the records that stand for groups agree on the key fields. -/
theorem pairwise_report (hcount : CountsApart g) (rs : List Record) :
    (report g rs).Pairwise fun r s => ¬Record.Agree g.keyFields r s := by
  rw [report, grouped, List.map_map, List.pairwise_map]
  refine (pairwise_firsts rs).imp fun {r s} hrs => ?_
  rw [Function.comp_apply, Function.comp_apply, ← Record.same_project_iff]
  show ¬Record.same (Record.project _ (shown g (Key.project _ r) (groupOf g rs r)))
    (Record.project _ (shown g (Key.project _ s) (groupOf g rs s))) = true
  rw [project_shown hcount, project_shown hcount, ← alike_eq, hrs]
  exact Bool.false_ne_true

/-- **What is handed out tells its group.** Let a configuration be accepted, say nothing of a cap
and have no key field in which the number of records would stand. There is a grouper as configured
if there is room for its shards. Whatever records it is given, it hands out one record for the first
record of each group, in one order or another, and the projections of the two onto the key fields
are equal; so no two of the records that are handed out agree on all key fields. -/
theorem outputs_identify {schema : Option (List String)} (hg : g.validate schema = .ok ())
    (hcap : g.maxTypes ≤ 0) (hcount : CountsApart g) (rs : List Record) :
    ((∃ x, ofConfig g = .ok x) ↔ g.shards.toNat * Shard.width < Room.bound) ∧
    ∀ x, ofConfig g = .ok x →
      ∃ answers out y ns, (tabulate rs).run x = ⟨.ok (answers, out), y, ns⟩ ∧
        next.run y = ⟨.ok .exhausted, y, []⟩ ∧
        (∃ rows, out.Perm rows ∧ List.Forall₂
          (fun r row => row.project g.keyFields = r.project g.keyFields) (firsts g rs) rows) ∧
        out.Pairwise fun r s => ¬Record.Agree g.keyFields r s := by
  obtain ⟨-, hshards, hinterval⟩ := Config.of_validate hg
  refine ⟨?_, fun x hx => ?_⟩
  · rw [← Census.exists_ofConfig_iff hshards hinterval]
    simp only [ofConfig_eq_ok_iff]
    exact ⟨fun ⟨_, c, hc, _⟩ => ⟨c, hc⟩, fun ⟨c, hc⟩ => ⟨_, c, hc, rfl⟩⟩
  · obtain ⟨c, hc, rfl⟩ := ofConfig_eq_ok_iff.1 hx
    obtain ⟨out, y, left, hrun, hnext, hout⟩ := run_tabulate hc hcap rs
    refine ⟨_, out, y, _, hrun, hnext, ⟨report g rs, hout, forall₂_report hcount rs⟩, ?_⟩
    exact (hout.pairwise_iff fun h hagree => h hagree.symm).2 (pairwise_report hcount rs)

/-- Three records of two groups; the number stands in a field that is retained, and is no key field.
-/
theorem outputs_identify_retained :
    let g : Config := { keyFields := ["id"], withCount := true, retainOthers := true, shards := 2 }
    let r := Record.field "count" (.str "?") (.field "id" (.int 1) .empty)
    let rs := [r, .field "id" (.int 2) .empty, r]
    g.validate (some ["id"]) = .ok () ∧ g.maxTypes ≤ 0 ∧ CountsApart g ∧
      ∃ x answers out y ns, ofConfig g = .ok x ∧ (tabulate rs).run x = ⟨.ok (answers, out), y, ns⟩ ∧
        out.length = 2 ∧ out.Pairwise fun r s => ¬Record.Agree g.keyFields r s := by
  intro g r rs
  have hg : g.validate (some ["id"]) = .ok () := rfl
  have hcap : g.maxTypes ≤ 0 := by decide
  have hcount : CountsApart g := fun _ => by decide
  obtain ⟨hroom, hidentify⟩ := outputs_identify hg hcap hcount rs
  obtain ⟨x, hx⟩ := hroom.2 (by decide)
  obtain ⟨answers, out, y, ns, hrun, -, ⟨rows, hrows, hfirsts⟩, hpairwise⟩ := hidentify x hx
  refine ⟨hg, hcap, hcount, x, answers, out, y, ns, hx, hrun, ?_, hpairwise⟩
  rw [hrows.length_eq, ← hfirsts.length_eq]
  decide +kernel

/-- **Where the number of records stands in a key field, groups cannot be told apart** by what is
handed out: the configuration is accepted, yet no record that is handed out has the key of a group
in it, and the two of them agree on all key fields. -/
theorem outputs_collide :
    let g : Config := { keyFields := ["count"], withCount := true, shards := 2 }
    let rs := [Record.field "count" (.int 5) .empty, .field "count" (.int 7) .empty]
    g.validate none = .ok () ∧ g.maxTypes ≤ 0 ∧
      ∃ x answers out y ns, ofConfig g = .ok x ∧ (tabulate rs).run x = ⟨.ok (answers, out), y, ns⟩ ∧
        (∀ row ∈ out, ∀ r ∈ rs, row.project g.keyFields ≠ r.project g.keyFields) ∧
        ¬out.Pairwise fun r s => ¬Record.Agree g.keyFields r s := by
  intro g rs
  obtain ⟨c, hc⟩ := (Census.exists_ofConfig_iff (g := g) (by decide) (by decide)).2 (by decide)
  obtain ⟨out, y, left, hrun, -, hout⟩ := run_tabulate hc (by decide) rs
  have hone : ∀ row ∈ out, row.get? "count" = some (.int 1) := by
    have hreport : (report g rs).all fun row =>
        (row.get? "count").bind Value.int? == some 1 := by decide +kernel
    intro row hrow
    have hrow' := List.all_eq_true.1 hreport row (hout.mem_iff.1 hrow)
    rw [beq_iff_eq, Option.bind_eq_some_iff] at hrow'
    obtain ⟨v, hv, hint⟩ := hrow'
    cases v <;> cases hint
    exact hv
  refine ⟨rfl, by decide, _, _, out, y, _, ofConfig_eq_ok_iff.2 ⟨c, hc, rfl⟩, hrun, ?_, ?_⟩
  · intro row hrow r hr hproject
    have hget := Record.project_eq_iff.1 hproject "count" (List.mem_singleton.2 rfl)
    rw [hone row hrow] at hget
    have hrs : ∀ r ∈ rs, (r.get? "count").bind Value.int? ≠ some 1 := by decide +kernel
    exact hrs r hr (by rw [← hget]; rfl)
  · have htwo : out.length = 2 := by
      rw [hout.length_eq]
      decide +kernel
    obtain ⟨a, b, rfl⟩ := List.length_eq_two.1 htwo
    intro hpairwise
    refine List.rel_of_pairwise_cons hpairwise (List.mem_singleton.2 rfl) fun n hn => ?_
    rw [List.mem_singleton.1 hn, hone a List.mem_cons_self, hone b (by simp)]
    exact .some rfl

end Muster.Grouper
