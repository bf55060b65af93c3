import Mathlib.Data.List.Induction
import Muster.Record.Basic

/-!
# Proofs/Fields — records as lists of fields

What building a record does to the list of its fields.

* `Record.sets_add` — adding a field sets it where its name first stands, or else at the end.
* `Record.names_ofList`, `Record.get?_ofList` — of fields set one after the other, the first one
  under a name gives the place and the last one the value.
* `Record.toList_project_eraseDups` — a projection lists the fields that are there, each once, in
  the order in which they are first asked for.
-/

namespace Muster.Record

/-! ## Setting a field -/

/-- **A record with a field set**: in place where the name first stands, else behind all others. -/
def Sets (name : String) (v : Value) (r s : Record) : Prop :=
  (∃ before w behind, name ∉ before.map Prod.fst ∧
    r.toList = before ++ (name, w) :: behind ∧ s.toList = before ++ (name, v) :: behind) ∨
  name ∉ r.names ∧ s.toList = r.toList ++ [(name, v)]

/-- **Adding a field sets it.** -/
theorem sets_add (name : String) (v : Value) : ∀ r : Record, Sets name v r (r.add name v)
  | empty => Or.inr ⟨List.not_mem_nil, rfl⟩
  | field n w r => by
    by_cases hn : n = name
    · subst hn
      refine Or.inl ⟨[], w, r.toList, List.not_mem_nil, rfl, ?_⟩
      rw [add, if_pos rfl]
      rfl
    · rw [add, if_neg hn]
      obtain ⟨before, x, behind, hname, hr, hs⟩ | ⟨hname, hs⟩ := sets_add name v r
      · refine Or.inl ⟨(n, w) :: before, x, behind, ?_, ?_, ?_⟩
        · exact List.not_mem_cons_of_ne_of_not_mem (Ne.symm hn) hname
        · rw [toList, hr, List.cons_append]
        · rw [toList, hs, List.cons_append]
      · refine Or.inr ⟨List.not_mem_cons_of_ne_of_not_mem (Ne.symm hn) hname, ?_⟩
        rw [toList, hs, toList, List.cons_append]

/-- A field under a new name goes to the end. -/
theorem toList_add_of_not_mem {name : String} {r : Record} (h : name ∉ r.names) (v : Value) :
    (r.add name v).toList = r.toList ++ [(name, v)] := by
  obtain ⟨before, w, behind, -, hr, -⟩ | ⟨-, hs⟩ := sets_add name v r
  · exact absurd (by simp [names, hr]) h
  · exact hs

/-! ## Setting a list of fields -/

/-- A record is its list of fields. -/
theorem toList_injective : Function.Injective toList
  | empty, empty, _ => rfl
  | field n v r, field m w s, h => by
    rw [toList, toList, List.cons.injEq, Prod.mk.injEq] at h
    obtain ⟨⟨rfl, rfl⟩, h⟩ := h
    rw [toList_injective h]

section Listing

variable (fields : List (String × Value)) (f : String × Value) {r : Record}

/-- The last field of a list is set last. -/
theorem ofList_concat : ofList (fields ++ [f]) = (ofList fields).add f.1 f.2 := by
  rw [ofList, List.foldl_append]
  rfl

/-- **Fields set one after the other** stand in the order in which their names come first, each
once. -/
theorem names_ofList : (ofList fields).names = (fields.map Prod.fst).eraseDups := by
  induction fields using List.reverseRecOn with
  | nil => rfl
  | append_singleton fields f ih =>
    rw [ofList_concat, names_add, ih, List.map_append, List.eraseDups_append]
    by_cases hf : f.1 ∈ fields.map Prod.fst
    · simp [List.removeAll, hf]
    · simp [List.removeAll, hf, List.eraseDups_cons]

/-- **Of the values set under a name**, the last one is kept. -/
theorem get?_ofList (name : String) :
    (ofList fields).get? name = fields.reverse.lookup name := by
  induction fields using List.reverseRecOn with
  | nil => rfl
  | append_singleton fields f ih =>
    rw [ofList_concat, get?_add, ih, List.reverse_append, List.reverse_singleton,
      List.singleton_append, List.lookup_cons]
    by_cases hf : f.1 = name
    · simp [hf]
    · simp [hf, beq_false_of_ne (Ne.symm hf)]

/-- Fields under new names go to the end one by one. -/
theorem toList_foldl_add (h : (r.names ++ fields.map Prod.fst).Nodup) :
    (fields.foldl (fun r f => r.add f.1 f.2) r).toList = r.toList ++ fields := by
  induction fields generalizing r with
  | nil => exact (List.append_nil _).symm
  | cons f fields ih =>
    have hf : f.1 ∉ r.names := fun hmem =>
      (List.nodup_append.1 h).2.2 _ hmem _ List.mem_cons_self rfl
    have hadd := toList_add_of_not_mem hf f.2
    have hnames : (r.add f.1 f.2).names = r.names ++ [f.1] := by
      rw [names_add, if_neg hf]
    rw [List.foldl_cons, ih (by simpa [hnames] using h), hadd, List.append_assoc]
    rfl

/-- **A record with each name once** is built from its own fields. -/
theorem ofList_toList (h : r.names.Nodup) : ofList r.toList = r :=
  toList_injective (toList_foldl_add r.toList h)

end Listing

/-! ## Projecting -/

section Gather

variable {r : Record} {name n : String} {v : Value}

/-- **One step of a projection**: the field under a name, if there is one, is set in what has been
gathered. -/
def gather (r p : Record) (name : String) : Record :=
  match r.get? name with
  | some v => p.add name v
  | none => p

theorem project_eq_foldl (names : List String) (r : Record) :
    r.project names = names.foldl r.gather empty := rfl

theorem gather_of_none (h : r.get? name = none) (p : Record) : r.gather p name = p := by
  rw [gather, h]

theorem gather_of_some (h : r.get? name = some v) (p : Record) :
    r.gather p name = p.add name v := by
  rw [gather, h]

/-- A field that has been gathered is gathered again in its place. -/
theorem gather_field (h : r.get? name = some v) (p : Record) :
    r.gather (field name v p) name = field name v p := by
  rw [gather_of_some h, add, if_pos rfl]

/-- A field under another name is gathered behind the first one. -/
theorem gather_field_of_ne (h : n ≠ name) (r p : Record) (v : Value) :
    r.gather (field n v p) name = field n v (r.gather p name) := by
  cases hr : r.get? name with
  | none => rw [gather_of_none hr, gather_of_none hr]
  | some w => rw [gather_of_some hr, gather_of_some hr, add, if_neg h]

/-- **A name that is not there** may be left out. -/
theorem foldl_gather_of_none (h : r.get? name = none) (names : List String) (p : Record) :
    names.foldl r.gather p = (names.filter (!· == name)).foldl r.gather p := by
  induction names generalizing p with
  | nil => rfl
  | cons n names ih =>
    by_cases hn : n = name
    · subst hn
      simp [gather_of_none h, ih]
    · simp [hn, ih]

/-- **Once a field has been gathered**, its name may be left out of those that follow. -/
theorem foldl_gather_field (h : r.get? name = some v) (names : List String) (p : Record) :
    names.foldl r.gather (field name v p) =
      field name v ((names.filter (!· == name)).foldl r.gather p) := by
  induction names generalizing p with
  | nil => rfl
  | cons n names ih =>
    by_cases hn : n = name
    · subst hn
      simp [gather_field h, ih]
    · simp [hn, gather_field_of_ne (Ne.symm hn), ih]

/-- The projection onto a name and more: the field under it comes first. -/
theorem toList_project_cons (name : String) (names : List String) (r : Record) :
    (r.project (name :: names)).toList = ((r.get? name).map (name, ·)).toList ++
      (r.project (names.filter (!· == name))).toList := by
  rw [project_eq_foldl, project_eq_foldl, List.foldl_cons]
  cases h : r.get? name with
  | none =>
    rw [gather_of_none h, foldl_gather_of_none h]
    rfl
  | some v =>
    rw [gather_of_some h, add, foldl_gather_field h]
    rfl

end Gather

/-- **A projection lists the fields that are there**, each once, in the order in which their names
are first asked for. -/
theorem toList_project_eraseDups (r : Record) (names : List String) :
    (r.project names).toList = names.eraseDups.filterMap fun n => (r.get? n).map (n, ·) := by
  match names with
  | [] => rfl
  | n :: names =>
    rw [toList_project_cons, toList_project_eraseDups r (names.filter (!· == n)),
      List.eraseDups_cons, List.filterMap_cons]
    cases r.get? n <;> rfl
termination_by names.length
decreasing_by exact Nat.lt_succ_of_le (List.length_filter_le _ _)

private theorem eraseDups_eq_self {names : List String} (h : names.Nodup) :
    names.eraseDups = names := by
  induction names with
  | nil => rfl
  | cons n names ih =>
    obtain ⟨hn, hnames⟩ := List.nodup_cons.1 h
    have hkeep : names.filter (!· == n) = names := List.filter_eq_self.2 fun m hm => by
      simp [ne_of_mem_of_not_mem hm hn]
    rw [List.eraseDups_cons, hkeep, ih hnames]

/-- **A projection onto distinct names** lists the fields that are there, in the order of the
request. -/
theorem toList_project {names : List String} (h : names.Nodup) (r : Record) :
    (r.project names).toList = names.filterMap fun n => (r.get? n).map (n, ·) := by
  rw [toList_project_eraseDups, eraseDups_eq_self h]

end Muster.Record
