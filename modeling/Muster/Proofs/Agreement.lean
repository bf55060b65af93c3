import Mathlib.Data.Option.Basic
import Muster.Proofs.Fields
import Muster.Proofs.Sameness

/-!
# Proofs/Agreement — records that agree on some fields

Two records have the same projection exactly if they agree on every field that is projected,
whatever else they hold and in whatever order (`Record.same_project_iff`). Missing fields are left
out of a projection, which can confuse nothing, because a field stands in it under its name.

* `Record.project_eq_iff` — the same with plain equality of values.
* `Record.canonical_project` — canonical forms are projected like the records they stand for.
* `Key.grouped_by_fields` — two records have one key if they agree on the key fields.
-/

namespace Muster.Record

variable {names : List String} {r s : Record}

/-- **Two records agree on some fields**: each of them both lack, or both have with the same
value. -/
def Agree (names : List String) (r s : Record) : Prop :=
  ∀ n ∈ names, Option.Rel (fun v w => v.same w = true) (r.get? n) (s.get? n)

/-! ## Projections -/

theorem foldl_gather_congr (p : Record) (h : ∀ n ∈ names, r.get? n = s.get? n) :
    names.foldl r.gather p = names.foldl s.gather p := by
  induction names generalizing p with
  | nil => rfl
  | cons n names ih =>
    rw [List.foldl_cons, List.foldl_cons, gather, gather, h n List.mem_cons_self]
    exact ih _ fun m hm => h m (List.mem_cons_of_mem n hm)

/-- **A projection shows the projected fields and no others.** -/
theorem project_eq_iff : r.project names = s.project names ↔ ∀ n ∈ names, r.get? n = s.get? n := by
  constructor
  · intro h n hn
    have hget := congrArg (get? n) h
    rwa [get?_project, get?_project, if_pos hn, if_pos hn] at hget
  · exact foldl_gather_congr empty

/-- Projecting a projection changes nothing. -/
@[simp] theorem project_project (names : List String) (r : Record) :
    (r.project names).project names = r.project names :=
  project_eq_iff.2 fun n hn => by rw [get?_project, if_pos hn]

/-- A field that is not projected does not matter. -/
theorem project_add_of_not_mem {name : String} (h : name ∉ names) (v : Value) (r : Record) :
    (r.add name v).project names = r.project names :=
  project_eq_iff.2 fun n hn => by rw [get?_add, if_neg (ne_of_mem_of_not_mem hn h).symm]

/-! ## Canonical forms -/

theorem get?_canonical (name : String) :
    ∀ r : Record, r.canonical.get? name = (r.get? name).map Value.canonical
  | empty => rfl
  | field n v r => by
    rw [canonical, get?, get?]
    split
    · rfl
    · exact get?_canonical name r

theorem canonical_add (name : String) (v : Value) :
    ∀ r : Record, (r.add name v).canonical = r.canonical.add name v.canonical
  | empty => rfl
  | field n w r => by
    rw [add, canonical, add]
    split
    · rfl
    · rw [canonical, canonical_add name v r]

theorem canonical_gather (r p : Record) (name : String) :
    (r.gather p name).canonical = r.canonical.gather p.canonical name := by
  rw [gather, gather, get?_canonical]
  cases r.get? name with
  | none => rfl
  | some v => exact canonical_add name v p

theorem canonical_foldl_gather (r p : Record) (names : List String) :
    (names.foldl r.gather p).canonical = names.foldl r.canonical.gather p.canonical := by
  induction names generalizing p with
  | nil => rfl
  | cons n names ih => rw [List.foldl_cons, List.foldl_cons, ih, canonical_gather]

/-- **Canonical forms are projected** like the records they stand for. -/
theorem canonical_project (r : Record) (names : List String) :
    (r.project names).canonical = r.canonical.project names := canonical_foldl_gather r empty names

/-! ## Agreement -/

theorem map_canonical_eq_iff {v w : Option Value} :
    v.map Value.canonical = w.map Value.canonical ↔
      Option.Rel (fun v w => v.same w = true) v w := by
  cases v <;> cases w <;> simp [Value.same_iff_canonical]

/-- **Two records have the same projection if they agree on the projected fields.** -/
theorem same_project_iff :
    (r.project names).same (s.project names) = true ↔ Agree names r s := by
  rw [same_iff_canonical, canonical_project, canonical_project, project_eq_iff]
  refine forall₂_congr fun n _ => ?_
  rw [get?_canonical, get?_canonical, map_canonical_eq_iff]

theorem Agree.symm (h : Agree names r s) : Agree names s r := by
  rw [← same_project_iff, same_iff_canonical] at h ⊢
  exact h.symm

end Muster.Record

/-! ## Keys -/

namespace Muster.Key

/-- **Records are grouped by their key fields.** Two records have equal keys exactly if each key
field is missing in both or has equal values in them, whatever their other fields are and in
whatever order they come. A key lists the key fields that its record has, each once and with the
record's value, in the order in which the fields are first named; and it is its own key. -/
theorem grouped_by_fields (fields : List String) :
    (∀ r s : Record, (project fields r).same (project fields s) = true ↔
      ∀ n ∈ fields, Option.Rel (fun v w => v.same w = true) (r.get? n) (s.get? n)) ∧
    (∀ r : Record, (project fields r).record.toList =
      fields.eraseDups.filterMap fun n => (r.get? n).map (n, ·)) ∧
    ∀ r : Record, project fields (project fields r).record = project fields r := by
  refine ⟨fun r s => ?_, fun r => Record.toList_project_eraseDups r fields, fun r => ?_⟩
  · exact same_iff.trans Record.same_project_iff
  · exact congrArg ofRecord (Record.project_project fields r)

end Muster.Key
