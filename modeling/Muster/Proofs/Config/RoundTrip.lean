import Muster.Proofs.Config.Values

/-!
# Proofs/Config/RoundTrip — configurations survive JSON in every spelling

A configuration has many texts (`Config.Text`): its fields in any order, each under its name or its
alias, without some that have their defaults, and among any other members. Two walks through such a
text show what is read.

**Each field is filled once** (`foldlM_put`). Whatever the order, after some members the draft holds
the fields that these give (`Draft.of`), and the next member may be taken.

**Whoever reads can also skip** (`noted_of_readMember`). A walk that only notes the names of the
members gets through the text as well, so that a walk that was not refused has met no field twice.

* `Config.every_spelling` — a configuration is read from each of its texts, and from no text in
  which a field comes again.
-/

namespace Muster

open Json

/-! ## Names of fields -/

namespace ConfigField

/-- The names under which a field is read. -/
def names (f : ConfigField) : List String := f.name :: f.alias?.toList

theorem mem_names {f : ConfigField} {s : String} :
    s ∈ f.names ↔ f.name = s ∨ f.alias? = some s := by
  rw [names, List.mem_cons, Option.mem_toList, eq_comm]

/-- No name stands for two fields. -/
theorem eq_of_mem_names : ∀ {f g : ConfigField}, ∀ s ∈ f.names, s ∈ g.names → f = g := by
  intro f g
  cases f <;> cases g <;> decide

theorem mem_all (f : ConfigField) : f ∈ all := by
  cases f <;> decide

/-- **A name stands for the field that has it.** -/
theorem ofName?_eq_some_iff {s : String} {f : ConfigField} :
    ofName? s = some f ↔ s ∈ f.names := by
  constructor
  · intro h
    have hname := List.find?_some h
    exact mem_names.2 (by simpa using hname)
  · intro h
    cases hs : ofName? s with
    | none =>
      have hnone := List.find?_eq_none.1 hs f f.mem_all
      exact absurd (mem_names.1 h) (by simpa using hnone)
    | some g =>
      have hname := List.find?_some hs
      rw [eq_of_mem_names s h (mem_names.2 (by simpa using hname))]

end ConfigField

namespace Config

/-! ## Texts of a configuration -/

/-- **Has the field its default?** There is none for the key fields. -/
def HasDefault (c : Config) : ConfigField → Prop
  | .keyFields => False
  | .withCount => c.withCount = false
  | .retainOthers => c.retainOthers = false
  | .maxTypes => c.maxTypes = 0
  | .pruneThreshold => c.pruneThreshold = 2
  | .checkpointInterval => c.checkpointInterval = 1000000
  | .shards => c.shards = 64

/-- The fields that some members give. A member is a name, and the field that it gives if it gives
one. -/
def given (ms : List (String × Option ConfigField)) : List ConfigField := ms.filterMap Prod.snd

/-- **Some members give a configuration**: under one of its names each, every field at most once,
and at least those that do not have their defaults. -/
structure Gives (c : Config) (ms : List (String × Option ConfigField)) : Prop where
  named : ∀ m ∈ ms, ∀ f : ConfigField, m.1 ∈ f.names ↔ m.2 = some f
  once : (given ms).Nodup
  omitted : ∀ f, f ∉ given ms → c.HasDefault f

/-- The texts of a member's value: one of the field that it gives, or any value. -/
def SpeltValue (c : Config) : Option ConfigField → List Char → Prop
  | some f, cs => c.SpeltField f cs
  | none, cs => WellFormed .value cs

/-- **The texts that list some members**, among blanks. -/
def Text (c : Config) (ms : List (String × Option ConfigField)) (text : String) : Prop :=
  ∃ b cs b', Blanks b ∧ Lists c.SpeltValue ms cs ∧ Blanks b' ∧ text.toList = b ++ (cs ++ b')

variable {c : Config} {ms : List (String × Option ConfigField)} {text : String}

/-! ## Filling a draft -/

/-- **The draft that holds some fields of a configuration.** -/
def Draft.of (c : Config) (fields : List ConfigField) : Draft where
  keyFields := if .keyFields ∈ fields then some c.keyFields else none
  withCount := if .withCount ∈ fields then some c.withCount else none
  retainOthers := if .retainOthers ∈ fields then some c.retainOthers else none
  maxTypes := if .maxTypes ∈ fields then some c.maxTypes else none
  pruneThreshold := if .pruneThreshold ∈ fields then some c.pruneThreshold else none
  checkpointInterval := if .checkpointInterval ∈ fields then some c.checkpointInterval else none
  shards := if .shards ∈ fields then some c.shards else none

namespace Draft

variable {fields : List ConfigField}

theorem has_of (f : ConfigField) : (of c fields).has f = decide (f ∈ fields) := by
  cases f <;> simp only [has, of] <;> split <;> simp [*]

theorem fill_of (f : ConfigField) : (of c fields).fill c f = of c (f :: fields) := by
  cases f <;> simp [fill, of]

/-- A field that is held, or has its default. -/
theorem getD_held {α : Type} {f : ConfigField} {x y : α} (h : f ∉ fields → x = y) :
    (if f ∈ fields then some x else none).getD y = x := by
  split
  · rfl
  · exact (h ‹_›).symm

/-- **A draft is the whole configuration** if what it does not hold has its default. -/
theorem complete_of (h : ∀ f, f ∉ fields → c.HasDefault f) (missing : Mismatch) :
    (of c fields).complete missing = .ok c := by
  have hkeys : .keyFields ∈ fields := Decidable.not_not.1 (h .keyFields)
  rw [complete, of, if_pos hkeys]
  simp only [getD_held (h .withCount), getD_held (h .retainOthers), getD_held (h .maxTypes),
    getD_held (h .pruneThreshold), getD_held (h .checkpointInterval), getD_held (h .shards)]

/-- The draft after a member, unless a field comes again. -/
def put (c : Config) (d : Draft) (m : String × Option ConfigField) : Option Draft :=
  if ConfigField.ofName? m.1 = m.2 then
    match m.2 with
    | none => some d
    | some f => if d.has f then none else some (d.fill c f)
  else none

/-- **A member is read** unless its field comes again. -/
theorem takes_readMember (c : Config) : Takes c.SpeltValue readMember (put c) := by
  intro name a d d' cs above value rest hput hcolon habove hvalue hrest
  unfold put at hput
  split at hput
  · rename_i hname
    dsimp only at hname hput
    rw [readMember, hname]
    cases a with
    | none =>
      cases hput
      simp only [hcolon, skipValue_of_wellFormed hvalue habove hrest, Except.map]
    | some f =>
      dsimp only at hput
      split at hput
      · cases hput
      · cases hput
        dsimp only
        rw [if_neg ‹_›, hcolon]
        exact readField_of_spelt hvalue d habove hrest
  · cases hput

/-- **Members that give fields one after the other.** -/
theorem foldlM_put : ∀ {ms : List (String × Option ConfigField)} {fields : List ConfigField},
    (∀ m ∈ ms, ConfigField.ofName? m.1 = m.2) → (given ms ++ fields).Nodup →
      ms.foldlM (put c) (of c fields) = some (of c ((given ms).reverse ++ fields))
  | [], fields, _, _ => rfl
  | (name, none) :: ms, fields, hnamed, honce => by
    obtain ⟨hname, hnamed⟩ := List.forall_mem_cons.1 hnamed
    rw [List.foldlM_cons, put, if_pos hname]
    exact foldlM_put hnamed honce
  | (name, some f) :: ms, fields, hnamed, honce => by
    obtain ⟨hname, hnamed⟩ := List.forall_mem_cons.1 hnamed
    have hgiven : given ((name, some f) :: ms) = f :: given ms := rfl
    rw [hgiven, List.cons_append] at honce
    obtain ⟨hf, -⟩ := List.nodup_cons.1 honce
    have hnew : f ∉ fields := fun hmem => hf (List.mem_append_right _ hmem)
    rw [List.foldlM_cons, put, if_pos hname]
    simp only [has_of, hnew, decide_false, Bool.false_eq_true, if_false, fill_of]
    rw [hgiven, List.reverse_cons, List.append_assoc, List.singleton_append]
    exact foldlM_put hnamed (List.perm_middle.nodup_iff.2 honce)

end Draft

theorem Gives.ofName?_eq (h : c.Gives ms) : ∀ m ∈ ms, ConfigField.ofName? m.1 = m.2 := by
  intro m hm
  cases hfield : m.2 with
  | some f => exact ConfigField.ofName?_eq_some_iff.2 ((h.named m hm f).2 hfield)
  | none =>
    refine Option.eq_none_iff_forall_ne_some.2 fun f hf => ?_
    have hgives := (h.named m hm f).1 (ConfigField.ofName?_eq_some_iff.1 hf)
    rw [hfield] at hgives
    cases hgives

/-- **A configuration is read** from any text that lists members which give it. -/
theorem read_of_text (h : c.Gives ms) (ht : c.Text ms text) : read text = .ok c := by
  obtain ⟨b, cs, b', hb, hlists, hb', htext⟩ := ht
  obtain ⟨tail, rfl, hmembers⟩ := members_of_takes (Draft.takes_readMember c) hlists
  have hfill : ms.foldlM (Draft.put c) {} = some (.of c ((given ms).reverse ++ [])) :=
    Draft.foldlM_put h.ofName?_eq (by rw [List.append_nil]; exact h.once)
  have hcomplete : ∀ missing, (Draft.of c ((given ms).reverse ++ [])).complete missing = .ok c :=
    Draft.complete_of fun f hf => h.omitted f fun hmem => hf (by simpa using hmem)
  rw [read, htext, skipBlank_append hb, List.cons_append, skipBlank_cons (by decide)]
  simp only [hmembers hfill, hcomplete]
  exact finish_blanks _ hb'

/-! ## The text that is written -/

theorem spelt_writeField (c : Config) (f : ConfigField) :
    c.SpeltField f (c.writeField f).toList := by
  cases f with
  | keyFields =>
    refine ⟨[], c.keyFields.map writeText, blanks_nil, ?_, ?_⟩
    · rw [List.forall₂_map_right_iff]
      exact List.forall₂_same.2 fun s _ =>
        ⟨[], _, [], blanks_nil, spelt_writeText s, blanks_nil, by simp⟩
    · simp [writeField, ConfigError.jsonText, String.toList_intercalate, Function.comp_def]
  | _ => rfl

/-- The members that are written: every field under its name, in order of declaration. -/
def writtenMembers : List (String × Option ConfigField) :=
  ConfigField.all.map fun f => (f.name, some f)

theorem gives_writtenMembers (c : Config) : c.Gives writtenMembers where
  named := by
    have hnames : ∀ f ∈ ConfigField.all, ∀ g : ConfigField, f.name ∈ g.names ↔ f = g := by
      intro f _ g
      cases f <;> cases g <;> decide
    intro m hm g
    obtain ⟨f, hf, rfl⟩ := List.mem_map.1 hm
    rw [hnames f hf g, Option.some.injEq]
  once := by decide
  omitted f hf := by cases f <;> exact absurd (by decide) hf

/-- **What is written for a configuration** is one of its texts. -/
theorem text_write (c : Config) : c.Text writtenMembers c.write := by
  refine ⟨[], _, [], blanks_nil, ⟨[], ConfigField.all.map fun f =>
    writeText f.name ++ ':' :: (c.writeField f).toList, blanks_nil, ?_, rfl⟩, blanks_nil, ?_⟩
  · rw [writtenMembers, List.forall₂_map_left_iff, List.forall₂_map_right_iff]
    exact List.forall₂_same.2 fun f _ => Member.plain (c.spelt_writeField f)
  · simp [write, ConfigError.jsonObject, ConfigError.jsonText, String.toList_intercalate,
      Function.comp_def]

/-! ## Fields that come again -/

/-- The step of a walk that notes the names of the members, the last one first, and skips their
values. -/
def noteMember (name : String) (names : List String) (cs : List Char) :
    Except Failure (List String × List Char) :=
  match colon cs with
  | .error e => .error e
  | .ok r => (skipValue r).map (name :: names, ·)

/-- Any text of a member is walked through. -/
theorem steps_noteMember (c : Config) :
    Steps c.SpeltValue noteMember fun names m => m.1 :: names := by
  intro name a names cs above value rest hcolon habove hvalue hrest
  have hskip : skipValue (above ++ (value ++ rest)) = .ok rest := by
    cases a with
    | none => exact skipValue_of_wellFormed hvalue habove hrest
    | some f => exact (skipValue_of_readField (Draft.readField_of_spelt hvalue {} habove hrest)).1
  simp only [noteMember, hcolon, hskip, Except.map]

/-- **A draft that has met some names**: it holds the fields for which these stand, and has met none
of the fields twice. -/
structure Draft.Notes (d : Draft) (names : List String) : Prop where
  has_iff (f : ConfigField) : d.has f = true ↔ f ∈ names.filterMap ConfigField.ofName?
  once : (names.filterMap ConfigField.ofName?).Nodup

/-- **Whoever reads a member can also skip it**, and has not met its field before. -/
theorem noted_of_readMember {name : String} {d d' : Draft} {names : List String}
    {cs r : List Char} (hd : d.Notes names) (h : d.readMember name cs = .ok (d', r)) :
    ∃ names', noteMember name names cs = .ok (names', r) ∧ d'.Notes names' := by
  unfold Draft.readMember at h
  unfold noteMember
  cases hcolon : colon cs with
  | error e =>
    simp only [hcolon] at h
    repeat' split at h
    all_goals cases h
  | ok r' =>
    simp only [hcolon] at h ⊢
    split at h
    case h_1 f hname =>
      split at h
      · cases h
      rename_i hnew
      obtain ⟨hskip, hhas⟩ := skipValue_of_readField h
      have hnames : (name :: names).filterMap ConfigField.ofName? =
          f :: names.filterMap ConfigField.ofName? := List.filterMap_cons_some hname
      refine ⟨name :: names, by rw [hskip, Except.map], fun g => ?_, ?_⟩
      · rw [hnames, List.mem_cons, hhas, Bool.or_eq_true, decide_eq_true_eq, hd.has_iff, or_comm]
      · rw [hnames]
        exact List.nodup_cons.2 ⟨fun hmem => hnew ((hd.has_iff f).2 hmem), hd.once⟩
    case h_2 hname =>
      obtain ⟨r'', hskip, hp⟩ := exists_of_map_eq_ok h
      obtain ⟨rfl, rfl⟩ := Prod.mk.inj hp
      have hnames : (name :: names).filterMap ConfigField.ofName? =
          names.filterMap ConfigField.ofName? := List.filterMap_cons_none hname
      refine ⟨name :: names, by rw [hskip, Except.map], fun g => ?_, ?_⟩
      · rw [hnames, hd.has_iff]
      · rw [hnames]
        exact hd.once

/-- **A text from which a configuration is read** has no field twice. -/
theorem once_of_read {c' : Config} (ht : c.Text ms text) (h : read text = .ok c') :
    (ms.filterMap fun m => ConfigField.ofName? m.1).Nodup := by
  obtain ⟨b, cs, b', hb, hlists, hb', htext⟩ := ht
  obtain ⟨tail, rfl, hnoted⟩ := members_of_lists (steps_noteMember c) hlists
  rw [read, htext, skipBlank_append hb, List.cons_append, skipBlank_cons (by decide)] at h
  have hempty : ({} : Draft).Notes [] := ⟨by rintro ⟨⟩ <;> simp [Draft.has], List.nodup_nil⟩
  cases hmembers : members Draft.readMember {} (tail ++ b') with
  | error e =>
    simp only [hmembers] at h
    cases h
  | ok p =>
    obtain ⟨d, r⟩ := p
    obtain ⟨names, hwalk, hd⟩ := membersFrom_of_membersFrom noted_of_readMember hempty hmembers
    have hnames := hnoted [] b'
    rw [members, hwalk] at hnames
    obtain ⟨rfl, -⟩ := Prod.mk.inj (Except.ok.inj hnames)
    have honce := hd.once
    rw [List.foldl_flip_cons_eq_append, List.append_nil, List.filterMap_reverse,
      (List.reverse_perm _).nodup_iff, List.filterMap_map] at honce
    exact honce

/-- **A text with a field that comes again is refused**, whatever its value is there. -/
theorem read_of_repeated {front back : List (String × Option ConfigField)} {name : String}
    {f : ConfigField} (h : c.Gives (front ++ back)) (hf : f ∈ given (front ++ back))
    (hname : name ∈ f.names) (ht : c.Text (front ++ (name, none) :: back) text) :
    ∃ e, read text = .error e := by
  cases hread : read text with
  | error e => exact ⟨e, rfl⟩
  | ok c' =>
    have honce := once_of_read ht hread
    have hfields : (front ++ (name, none) :: back).filterMap (fun m => ConfigField.ofName? m.1) =
        front.filterMap (fun m => ConfigField.ofName? m.1) ++
          f :: back.filterMap (fun m => ConfigField.ofName? m.1) := by
      simp [ConfigField.ofName?_eq_some_iff.2 hname]
    rw [hfields, List.perm_middle.nodup_iff, ← List.filterMap_append,
      List.filterMap_congr h.ofName?_eq] at honce
    exact absurd hf (List.nodup_cons.1 honce).1

/-- **Configurations survive JSON in every spelling.** A configuration is read from every text of an
object that gives its fields, in any order, each under one of its names, without any that have their
defaults, and among any other members; it is then the outcome, or the fault that is found in it.
What is written for it is one of these texts. If one of the fields that are given comes again, with
whatever value, the text is refused. -/
theorem every_spelling (c : Config) :
    (∀ ms text, c.Gives ms → c.Text ms text → read text = .ok c ∧
      parse text = (c.validate none).map fun _ => c) ∧
    (∃ ms, c.Gives ms ∧ c.Text ms c.write) ∧
    ∀ front back f name text, c.Gives (front ++ back) → f ∈ given (front ++ back) →
      name ∈ f.names → c.Text (front ++ (name, none) :: back) text →
        ∃ e, parse text = .error (.unreadable e) := by
  refine ⟨fun ms text h ht => ?_, ⟨_, c.gives_writtenMembers, c.text_write⟩,
    fun front back f name text h hf hname ht => ?_⟩
  · have hread := read_of_text h ht
    refine ⟨hread, ?_⟩
    rw [parse, hread]
    cases hvalid : c.validate none <;> simp only [hvalid] <;> rfl
  · obtain ⟨e, he⟩ := read_of_repeated h hf hname ht
    exact ⟨e, by rw [parse, he]⟩

/-- Two fields under different kinds of names, not in their order, with a member in between that is
neither; and the same text with one of the fields again, whose value is no list. -/
theorem every_spelling_aliased :
    let c : Config := { keyFields := ["a"], maxTypes := -3 }
    let ms : List (String × Option ConfigField) :=
      [("maxTypes", some .maxTypes), ("x", none), ("key_fields", some .keyFields)]
    let text := "\x7b\"maxTypes\":-3,\"x\":[1e5,null],\"key_fields\": [\"\\u0061\"]\x7d"
    let again := "\x7b\"maxTypes\":-3,\"x\":[1e5,null],\"key_fields\": [\"\\u0061\"]" ++
      ",\"keyFields\":null\x7d"
    c.Gives ms ∧ c.Text ms text ∧ c.Text (ms ++ [("keyFields", none)]) again ∧
      read text = .ok c ∧ parse text = .ok c ∧ ∃ e, parse again = .error (.unreadable e) := by
  intro c ms text again
  have hgives : c.Gives ms := by
    refine ⟨fun m hm f => ?_, by decide, fun f hf => ?_⟩
    · cases f <;> revert m <;> decide
    · cases f <;> first | rfl | exact absurd (by decide) hf
  have hfive : WellFormed .value ('1' :: ([] ++ ([] ++ ('e' :: ([] ++ ['5']))))) :=
    .number (.intro (digits_singleton rfl) (fun _ => rfl) .none
      (.some (.inl rfl) (.inl rfl) (digits_singleton rfl)))
  have hlist : WellFormed .value "[1e5,null]".toList :=
    .list (.item blanks_nil hfive blanks_nil
      (.lastItem blanks_nil (.word (w := "null") (by decide)) blanks_nil))
  have hkeys : SpeltTexts ["a"] "[\"\\u0061\"]".toList := by
    refine ⟨[], [_], blanks_nil, .cons ⟨[], _, [], blanks_nil, ⟨[['\\', 'u', '0', '0', '6', '1']],
      .cons (.code ⟨by decide, ?_⟩) .nil, rfl⟩, blanks_nil, rfl⟩ .nil, rfl⟩
    decide
  have hblank : Blanks [' '] := List.forall_mem_singleton.2 rfl
  have hthree : c.SpeltValue (some .maxTypes) "-3".toList := rfl
  have hmax : Member c.SpeltValue ("maxTypes", some .maxTypes) _ := .plain hthree
  have hother : Member c.SpeltValue ("x", none) _ := .plain hlist
  have hfields : Member c.SpeltValue ("key_fields", some .keyFields) _ :=
    .intro blanks_nil (spelt_writeText _) blanks_nil hblank hkeys blanks_nil
  have hnull : Member c.SpeltValue ("keyFields", none) _ := .plain (.word (w := "null") (by decide))
  have htext : c.Text ms text := ⟨[], _, [], blanks_nil, ⟨[], _, blanks_nil,
    .cons hmax (.cons hother (.cons hfields .nil)), rfl⟩, blanks_nil, by decide⟩
  have hagain : c.Text (ms ++ [("keyFields", none)]) again := ⟨[], _, [], blanks_nil, ⟨[], _,
    blanks_nil, .cons hmax (.cons hother (.cons hfields (.cons hnull .nil))), rfl⟩, blanks_nil,
    by decide⟩
  obtain ⟨hread, -, hrepeated⟩ := c.every_spelling
  obtain ⟨hread, hparse⟩ := hread ms text hgives htext
  exact ⟨hgives, htext, hagain, hread, hparse, hrepeated ms [] .keyFields "keyFields" again
    (by rwa [List.append_nil]) (by decide) (by decide) hagain⟩

end Config

end Muster
