import Muster.Config.Basic

/-!
# Proofs/Validation — which configurations are accepted, and what is wrong with the others

* `Config.keyFault_eq_none_iff` — key fields without a fault have names, different ones, which the
  schema knows.
* `Config.validate_eq_ok_iff` — a configuration is accepted if it has key fields and none of its
  parts has a fault.
* `Config.validate_eq_error_iff` — what a schema can be at fault in.
* `Config.validate_blames` — the accepted configurations are the consistent ones; of any other the
  first fault is reported, whatever else is wrong with it.
-/

namespace Muster.Config

variable {schema : Option (List String)} {earlier fields : List String} {field : String}
  {g : Config}

/-! ## Key fields -/

/-- What is asked of a key field, given the fields before it. -/
def Allowed (schema : Option (List String)) (earlier : List String) (field : String) : Prop :=
  field ≠ "" ∧ field ∉ earlier ∧ ∀ names, schema = some names → field ∈ names

theorem fieldFault_eq_none_iff :
    fieldFault schema earlier field = none ↔ Allowed schema earlier field := by
  unfold fieldFault Allowed
  by_cases hempty : field = ""
  · simp [hempty]
  · by_cases hearlier : field ∈ earlier
    · simp [hempty, hearlier]
    · cases schema with
      | none => simp [hempty, hearlier]
      | some names => by_cases hknown : field ∈ names <;> simp [hempty, hearlier, hknown]

/-- **Key fields without a fault** are different, and each of them has a name that the schema knows.
-/
theorem keyFault_eq_none_iff : keyFault schema earlier fields = none ↔
    fields.Nodup ∧ ∀ field ∈ fields, Allowed schema earlier field := by
  induction fields generalizing earlier with
  | nil => simp [keyFault]
  | cons f fields ih =>
    have hcons : keyFault schema earlier (f :: fields) = none ↔
        Allowed schema earlier f ∧ keyFault schema (f :: earlier) fields = none := by
      rw [keyFault, ← fieldFault_eq_none_iff]
      cases fieldFault schema earlier f <;> simp
    rw [hcons, ih, List.nodup_cons, List.forall_mem_cons]
    -- whoever comes behind `f` must differ from it as from all earlier ones
    simp only [Allowed, List.mem_cons, not_or]
    constructor
    · rintro ⟨hf, hnodup, hall⟩
      exact ⟨⟨fun hmem => (hall f hmem).2.1.1 rfl, hnodup⟩, hf,
        fun x hx => ⟨(hall x hx).1, (hall x hx).2.1.2, (hall x hx).2.2⟩⟩
    · rintro ⟨⟨hmem, hnodup⟩, hf, hall⟩
      exact ⟨hf, hnodup, fun x hx =>
        ⟨(hall x hx).1, ⟨fun hxf => hmem (hxf ▸ hx), (hall x hx).2.1⟩, (hall x hx).2.2⟩⟩

/-! ## Parameters -/

theorem parameterFault_eq_none_iff : g.parameterFault = none ↔
    g.checkpointInterval ≠ 0 ∧ g.shards ≠ 0 ∧ ¬(0 < g.maxTypes ∧ g.pruneThreshold < 2) := by
  unfold parameterFault
  by_cases hinterval : g.checkpointInterval = 0
  · simp [hinterval]
  · by_cases hshards : g.shards = 0
    · simp [hinterval, hshards]
    · by_cases hprune : 0 < g.maxTypes ∧ g.pruneThreshold < 2 <;>
        simp [hinterval, hshards, hprune]

/-- **A configuration is accepted** if it has key fields and none of its parts has a fault. -/
theorem validate_eq_ok_iff : g.validate schema = .ok () ↔
    g.keyFields ≠ [] ∧ keyFault schema [] g.keyFields = none ∧ g.parameterFault = none := by
  unfold validate fault
  cases hfields : g.keyFields with
  | nil => simp
  | cons f fields =>
    cases keyFault schema [] (f :: fields) <;> cases g.parameterFault <;> simp

/-- **The key fields of an accepted configuration are different**, and neither its shards nor the
interval between its checks are none. -/
theorem of_validate (h : g.validate schema = .ok ()) :
    g.keyFields.Nodup ∧ 0 < g.shards.toNat ∧ 0 < g.checkpointInterval.toNat := by
  obtain ⟨-, hkeys, hparameters⟩ := validate_eq_ok_iff.1 h
  obtain ⟨hinterval, hshards, -⟩ := parameterFault_eq_none_iff.1 hparameters
  refine ⟨(keyFault_eq_none_iff.1 hkeys).1, ?_, ?_⟩
  · exact Nat.pos_of_ne_zero fun hzero => hshards (UInt64.toNat_inj.1 hzero)
  · exact Nat.pos_of_ne_zero fun hzero => hinterval (UInt64.toNat_inj.1 hzero)

/-! ## Schemas -/

/-- **Of key fields that are in order themselves** the first one that the schema does not know is
at fault. -/
theorem keyFault_some (h : keyFault none earlier fields = none) (names : List String) :
    keyFault (some names) earlier fields =
      (fields.find? (· ∉ names)).map (.unknownKeyField · names) := by
  induction fields generalizing earlier with
  | nil => rfl
  | cons f fields ih =>
    have hcons : fieldFault none earlier f = none ∧ keyFault none (f :: earlier) fields = none := by
      rw [keyFault] at h
      cases hf : fieldFault none earlier f with
      | none => simpa [hf] using h
      | some e => simp [hf] at h
    obtain ⟨hempty, hearlier, -⟩ := fieldFault_eq_none_iff.1 hcons.1
    have hf : fieldFault (some names) earlier f =
        if f ∈ names then none else some (.unknownKeyField f names) := by
      simp [fieldFault, hempty, hearlier]
    rw [keyFault, hf]
    by_cases hknown : f ∈ names
    · simp [hknown, ih hcons.2]
    · simp [hknown]

/-- **Where a configuration is accepted without a schema**, a schema can only be at fault in that it
lacks a key field; the first one that it lacks is reported. -/
theorem validate_eq_error_iff (h : g.validate none = .ok ()) {e : ConfigError} :
    g.validate schema = .error e ↔ ∃ names field, schema = some names ∧
      g.keyFields.find? (· ∉ names) = some field ∧ e = .unknownKeyField field names := by
  obtain ⟨hfields, hkeys, hparameters⟩ := validate_eq_ok_iff.1 h
  cases schema with
  | none => simp [h]
  | some names =>
    have hfault : g.fault (some names) =
        (g.keyFields.find? (· ∉ names)).map (.unknownKeyField · names) := by
      rw [fault, keyFault_some hkeys, hparameters, Option.or_none, if_neg]
      rwa [List.isEmpty_iff]
    simp only [validate, hfault, Option.some.injEq, exists_and_left, exists_eq_left']
    cases g.keyFields.find? (· ∉ names) with
    | none => simp
    | some field => simp [eq_comm]

/-! ## The first fault -/

/-- **The first fault among key fields** is that of a field behind some that have none. -/
theorem keyFault_eq_some_iff {e : ConfigError} : keyFault schema earlier fields = some e ↔
    ∃ before field behind, fields = before ++ field :: behind ∧
      keyFault schema earlier before = none ∧
      fieldFault schema (before.reverse ++ earlier) field = some e := by
  induction fields generalizing earlier with
  | nil => simp [keyFault]
  | cons f fields ih =>
    rw [keyFault]
    cases hf : fieldFault schema earlier f with
    | some e' =>
      constructor
      · intro h
        exact ⟨[], f, fields, rfl, rfl, hf.trans h⟩
      · rintro ⟨_ | ⟨f', before⟩, field, behind, hfields, hbefore, hfield⟩
        · obtain ⟨rfl, -⟩ := List.cons.inj hfields
          exact hf.symm.trans hfield
        · obtain ⟨rfl, -⟩ := List.cons.inj hfields
          simp [keyFault, hf] at hbefore
    | none =>
      refine ih.trans ⟨?_, ?_⟩
      · rintro ⟨before, field, behind, rfl, hbefore, hfield⟩
        exact ⟨f :: before, field, behind, rfl, by simp [keyFault, hf, hbefore],
          by simpa using hfield⟩
      · rintro ⟨_ | ⟨f', before⟩, field, behind, hfields, hbefore, hfield⟩
        · obtain ⟨rfl, -⟩ := List.cons.inj hfields
          exact absurd (hf.symm.trans hfield) nofun
        · obtain ⟨rfl, rfl⟩ := List.cons.inj hfields
          refine ⟨before, field, behind, rfl, ?_, by simpa using hfield⟩
          simpa [keyFault, hf] using hbefore

/-- **What is wrong with a key field**, given the fields before it: first of all that it has no
name, then that it is repeated, then that the schema does not know it. -/
theorem fieldFault_eq_some_iff {e : ConfigError} : fieldFault schema earlier field = some e ↔
    (field = "" ∧ e = .emptyFieldName) ∨
    (field ≠ "" ∧ field ∈ earlier ∧ e = .duplicateKeyField field) ∨
    (field ≠ "" ∧ field ∉ earlier ∧
      ∃ names, schema = some names ∧ field ∉ names ∧ e = .unknownKeyField field names) := by
  unfold fieldFault
  by_cases hempty : field = ""
  · simp [hempty, @eq_comm _ e]
  · by_cases hearlier : field ∈ earlier
    · simp [hempty, hearlier, @eq_comm _ e]
    · cases schema with
      | none => simp [hempty, hearlier]
      | some names =>
        by_cases hknown : field ∈ names <;> simp [hempty, hearlier, hknown, @eq_comm _ e]

/-- **Key fields in order**: they have names, different ones, which the schema knows if there is
one. -/
structure Orderly (schema : Option (List String)) (fields : List String) : Prop where
  named : ∀ field ∈ fields, field ≠ ""
  differ : fields.Nodup
  known : ∀ names, schema = some names → ∀ field ∈ fields, field ∈ names

theorem orderly_iff : Orderly schema fields ↔ keyFault schema [] fields = none := by
  rw [keyFault_eq_none_iff]
  constructor
  · rintro ⟨hnamed, hdiffer, hknown⟩
    exact ⟨hdiffer, fun field hfield =>
      ⟨hnamed field hfield, List.not_mem_nil, fun names hnames => hknown names hnames field hfield⟩⟩
  · rintro ⟨hdiffer, hallowed⟩
    exact ⟨fun field hfield => (hallowed field hfield).1, hdiffer,
      fun names hnames field hfield => (hallowed field hfield).2.2 names hnames⟩

/-- **A consistent configuration**: it has key fields, which are in order, and its parameters agree
with one another. -/
structure Consistent (schema : Option (List String)) (g : Config) : Prop where
  nonempty : g.keyFields ≠ []
  fields : Orderly schema g.keyFields
  interval : 0 < g.checkpointInterval
  shards : 0 < g.shards
  threshold : g.maxTypes ≤ 0 ∨ 2 ≤ g.pruneThreshold

/-- **What a configuration is to be blamed for first.** -/
inductive Blamed (schema : Option (List String)) (g : Config) : ConfigError → Prop
  | noKeyFields : g.keyFields = [] → Blamed schema g .noKeyFields
  | emptyFieldName {before behind : List String} : g.keyFields = before ++ "" :: behind →
    Orderly schema before → Blamed schema g .emptyFieldName
  | duplicateKeyField {before behind : List String} {field : String} :
    g.keyFields = before ++ field :: behind → Orderly schema before → field ≠ "" →
    field ∈ before → Blamed schema g (.duplicateKeyField field)
  | unknownKeyField {before behind names : List String} {field : String} :
    g.keyFields = before ++ field :: behind → Orderly schema before → field ≠ "" →
    field ∉ before → schema = some names → field ∉ names →
    Blamed schema g (.unknownKeyField field names)
  | checkpointInterval : g.keyFields ≠ [] → Orderly schema g.keyFields →
    g.checkpointInterval = 0 →
    Blamed schema g (.invalidParameter "checkpoint_interval" "must be greater than 0")
  | shards : g.keyFields ≠ [] → Orderly schema g.keyFields → 0 < g.checkpointInterval →
    g.shards = 0 → Blamed schema g (.invalidParameter "shards" "must be greater than 0")
  | pruneThreshold : g.keyFields ≠ [] → Orderly schema g.keyFields → 0 < g.checkpointInterval →
    0 < g.shards → 0 < g.maxTypes → g.pruneThreshold < 2 →
    Blamed schema g (.invalidParameter "prune_threshold"
      ("must be at least 2 when max_types is set, got " ++ toString g.pruneThreshold.toNat))

theorem keyFault_nil_eq_some_iff {e : ConfigError} : keyFault schema [] fields = some e ↔
    ∃ before field behind, fields = before ++ field :: behind ∧ Orderly schema before ∧
      fieldFault schema before field = some e := by
  simp only [keyFault_eq_some_iff, orderly_iff, fieldFault_eq_some_iff, List.append_nil,
    List.mem_reverse]

/-- **What is wrong with the parameters**: first of all that the interval is none, then that there
are no shards, then that the threshold prunes nothing although there is a cap. -/
theorem parameterFault_eq_some_iff {e : ConfigError} : g.parameterFault = some e ↔
    (g.checkpointInterval = 0 ∧
      e = .invalidParameter "checkpoint_interval" "must be greater than 0") ∨
    (0 < g.checkpointInterval ∧ g.shards = 0 ∧
      e = .invalidParameter "shards" "must be greater than 0") ∨
    (0 < g.checkpointInterval ∧ 0 < g.shards ∧ (0 < g.maxTypes ∧ g.pruneThreshold < 2) ∧
      e = .invalidParameter "prune_threshold"
        ("must be at least 2 when max_types is set, got " ++
          toString g.pruneThreshold.toNat)) := by
  unfold parameterFault
  simp only [UInt64.pos_iff_ne_zero]
  by_cases hinterval : g.checkpointInterval = 0
  · simp [hinterval, @eq_comm _ e]
  · by_cases hshards : g.shards = 0
    · simp [hinterval, hshards, @eq_comm _ e]
    · by_cases hprune : 0 < g.maxTypes ∧ g.pruneThreshold < 2 <;>
        simp [hinterval, hshards, hprune, @eq_comm _ e]

/-- **The fault that is found** is the one to be blamed for. -/
theorem fault_eq_some_iff {e : ConfigError} : g.fault schema = some e ↔ Blamed schema g e := by
  unfold fault
  by_cases hfields : g.keyFields = []
  · have hkeys : ∀ before field behind, g.keyFields ≠ before ++ field :: behind := by
      simp [hfields]
    rw [if_pos (List.isEmpty_iff.2 hfields)]
    constructor
    · rintro ⟨⟩
      exact .noKeyFields hfields
    · rintro (_ | h | h | h | h | h | h)
      · rfl
      · exact absurd h (hkeys _ _ _)
      · exact absurd h (hkeys _ _ _)
      · exact absurd h (hkeys _ _ _)
      all_goals exact absurd hfields h
  · rw [if_neg (mt List.isEmpty_iff.1 hfields), Option.or_eq_some_iff, keyFault_nil_eq_some_iff,
      ← orderly_iff, parameterFault_eq_some_iff]
    constructor
    · rintro (⟨before, field, behind, hkeys, hbefore, hfault⟩ | ⟨hkeys, hfault⟩)
      · obtain ⟨rfl, rfl⟩ | ⟨hnamed, hmem, rfl⟩ | ⟨hnamed, hmem, names, hnames, hunknown, rfl⟩ :=
          fieldFault_eq_some_iff.1 hfault
        · exact .emptyFieldName hkeys hbefore
        · exact .duplicateKeyField hkeys hbefore hnamed hmem
        · exact .unknownKeyField hkeys hbefore hnamed hmem hnames hunknown
      · obtain ⟨hinterval, rfl⟩ | ⟨hinterval, hshards, rfl⟩ |
          ⟨hinterval, hshards, ⟨hcap, hprune⟩, rfl⟩ := hfault
        · exact .checkpointInterval hfields hkeys hinterval
        · exact .shards hfields hkeys hinterval hshards
        · exact .pruneThreshold hfields hkeys hinterval hshards hcap hprune
    · intro h
      cases h with
      | noKeyFields h => exact absurd h hfields
      | emptyFieldName hkeys hbefore =>
        exact .inl ⟨_, _, _, hkeys, hbefore, fieldFault_eq_some_iff.2 (.inl ⟨rfl, rfl⟩)⟩
      | duplicateKeyField hkeys hbefore hnamed hmem =>
        exact .inl ⟨_, _, _, hkeys, hbefore,
          fieldFault_eq_some_iff.2 (.inr (.inl ⟨hnamed, hmem, rfl⟩))⟩
      | unknownKeyField hkeys hbefore hnamed hmem hnames hunknown =>
        exact .inl ⟨_, _, _, hkeys, hbefore,
          fieldFault_eq_some_iff.2 (.inr (.inr ⟨hnamed, hmem, _, hnames, hunknown, rfl⟩))⟩
      | checkpointInterval _ hkeys hinterval => exact .inr ⟨hkeys, .inl ⟨hinterval, rfl⟩⟩
      | shards _ hkeys hinterval hshards =>
        exact .inr ⟨hkeys, .inr (.inl ⟨hinterval, hshards, rfl⟩)⟩
      | pruneThreshold _ hkeys hinterval hshards hcap hprune =>
        exact .inr ⟨hkeys, .inr (.inr ⟨hinterval, hshards, ⟨hcap, hprune⟩, rfl⟩)⟩

/-- **The accepted configurations are the consistent ones, and any other is blamed for its first
fault**: for having no key fields; else for the first key field that has no name, is repeated, or is
unknown to the schema, in this order where it is more than one of these, whatever is wrong behind
it; else for the first parameter that does not fit. -/
theorem validate_blames (schema : Option (List String)) (g : Config) :
    (g.validate schema = .ok () ↔ Consistent schema g) ∧
    ∀ e, g.validate schema = .error e ↔ Blamed schema g e := by
  constructor
  · rw [validate_eq_ok_iff, ← orderly_iff, parameterFault_eq_none_iff]
    simp only [← UInt64.pos_iff_ne_zero, Decidable.not_and_iff_or_not, Int64.not_lt, UInt64.not_lt]
    exact ⟨fun ⟨hfields, hkeys, hinterval, hshards, hprune⟩ =>
        ⟨hfields, hkeys, hinterval, hshards, hprune⟩,
      fun ⟨hfields, hkeys, hinterval, hshards, hprune⟩ =>
        ⟨hfields, hkeys, hinterval, hshards, hprune⟩⟩
  · intro e
    rw [← fault_eq_some_iff, validate]
    cases g.fault schema <;> simp

end Muster.Config
