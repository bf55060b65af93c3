import Muster.Proofs.Fields
import Muster.Proofs.Json.Listing
import Muster.Proofs.Record.Nesting
import Muster.Record.Json

/-!
# Proofs/Record/RoundTrip — records survive JSON

The reader takes an object however it is spelt: with blanks wherever they may stand, with any of the
escapes of a string, and with names that come again. `Value.Spelt` and `Record.Spelt` are these
texts; what is written for a value is one of them.

* `Record.read_of_spelt` — from an object, its members are read and set one after the other.
* `Record.survives_json` — what is written is read back.
-/

namespace Muster

open Json

/-! ## Texts of values -/

/-- **The JSON texts of a value** without floats, in which at most `depth` objects stand within one
another. The text of a record is that of an object with members that come to the record when they
are set one after the other, so that a name may be repeated in it. -/
def Value.Spelt : (depth : Nat) → Value → List Char → Prop
  | _, .bool b, cs => cs = (if b then "true" else "false").toList
  | _, .int i, cs => cs = (toString i.toInt).toList
  | _, .float _, _ => False
  | _, .str s, cs => SpeltText s cs
  | 0, .record _, _ => False
  | depth + 1, .record r, cs =>
    ∃ fields, r = Record.ofList fields ∧ Lists (Value.Spelt depth) fields cs

/-! ## Reading -/

namespace Value

variable {depth : Nat} {cs r rest : List Char}

theorem readNested_true (h : skipBlank cs = "true".toList ++ rest) :
    readNested depth cs = .ok (some (.bool true), rest) := by
  have hrest : literal "rue".toList ("rue".toList ++ rest) = .ok rest := literal_append _ _
  rw [readNested, h]
  exact congrArg (Except.map _) hrest

theorem readNested_false (h : skipBlank cs = "false".toList ++ rest) :
    readNested depth cs = .ok (some (.bool false), rest) := by
  have hrest : literal "alse".toList ("alse".toList ++ rest) = .ok rest := literal_append _ _
  rw [readNested, h]
  exact congrArg (Except.map _) hrest

theorem readNested_text (h : skipBlank cs = '"' :: r) :
    readNested depth cs = (readText r).map fun s => (some (.str s.1), s.2) := by
  rw [readNested, h]
  rfl

theorem readNested_minus (h : skipBlank cs = '-' :: r) :
    readNested depth cs = (readNumber true r).map fun n => (some (.ofNumber n.1), n.2) := by
  rw [readNested, h]
  rfl

theorem readNested_digit {d : Char} (hd : d.isDigit = true) (h : skipBlank cs = d :: r) :
    readNested depth cs = (readNumber false (d :: r)).map fun n => (some (.ofNumber n.1), n.2) := by
  rw [readNested, h]
  split
  case h_9 heq =>
    cases heq
    exact if_pos hd
  all_goals
    rename_i heq
    cases heq <;> exact absurd hd (by decide)

/-- The step of an object within a value: its record is none as soon as a value of it is of no kind
that a field can hold. -/
def nestedMember (depth : Nat) (name : String) (fields : Option Record) (cs : List Char) :
    Except Failure (Option Record × List Char) :=
  match colon cs with
  | .error e => .error e
  | .ok cs => (readNested depth cs).map fun v =>
      (fields.bind fun f => v.1.map fun v => f.add name v, v.2)

theorem readNested_object (h : skipBlank cs = '\x7b' :: r) :
    readNested (depth + 1) cs =
      (members (nestedMember depth) (some .empty) r).map fun f => (f.1.map .record, f.2) := by
  rw [readNested, h]
  rfl

/-! ### Integers -/

/-- **A number of the range of integers** is an integer again. -/
theorem ofNumber_wholeOf (i : Int64) :
    ofNumber (wholeOf (decide (i.toInt < 0)) i.toInt.natAbs) = .int i := by
  rw [wholeOf_natAbs i.le_toInt, ofNumber, if_pos i.toInt_lt, Int64.ofInt_toInt]

/-- **An integer is read as it is written.** -/
theorem readNested_int (i : Int64) (hrest : Stops rest)
    (h : skipBlank cs = skipBlank ((toString i.toInt).toList ++ rest)) :
    readNested depth cs = .ok (some (.int i), rest) := by
  have hfits : i.toInt.natAbs < 2 ^ 64 := by
    have hlow := i.le_toInt
    have hhigh := i.toInt_lt
    omega
  have hvalue := ofNumber_wholeOf i
  have hread := readNumber_toDigits hfits (decide (i.toInt < 0)) hrest
  rw [toList_toString_int, List.append_assoc] at h
  by_cases hneg : i.toInt < 0
  · rw [if_pos hneg, List.singleton_append, skipBlank_cons (by decide)] at h
    rw [decide_eq_true hneg] at hvalue hread
    rw [readNested_minus h, hread, Except.map, hvalue]
  · obtain ⟨d, ds, hds, hd⟩ := exists_toDigits_eq_cons i.toInt.natAbs
    rw [if_neg hneg, List.nil_append, hds, List.cons_append,
      skipBlank_cons (isBlank_of_isDigit hd)] at h
    rw [decide_eq_false hneg] at hvalue hread
    rw [hds, List.cons_append] at hread
    rw [readNested_digit hd h, hread, Except.map, hvalue]

/-! ### All values -/

/-- Setting fields in a record that is there. -/
theorem foldl_map_add (fields : List (String × Value)) (r : Record) :
    fields.foldl (fun r f => r.map (·.add f.1 f.2)) (some r) =
      some (fields.foldl (fun r f => r.add f.1 f.2) r) :=
  List.foldl_hom some fun _ _ => rfl

/-- **A value is read however it is spelt**, if nothing follows that could continue it. -/
theorem readNested_of_spelt {depth : Nat} {v : Value} {b cs rest : List Char}
    (hv : v.Spelt depth cs) (hb : Blanks b) (hrest : Stops rest) :
    readNested depth (b ++ (cs ++ rest)) = .ok (some v, rest) := by
  have hskip := skipBlank_append hb (cs ++ rest)
  match depth, v with
  | _, .bool true =>
    rw [Spelt] at hv
    subst hv
    exact readNested_true hskip
  | _, .bool false =>
    rw [Spelt] at hv
    subst hv
    exact readNested_false hskip
  | _, .int i =>
    rw [Spelt] at hv
    subst hv
    exact readNested_int i hrest hskip
  | _, .float x =>
    rw [Spelt] at hv
    exact hv.elim
  | _, .str s =>
    rw [Spelt] at hv
    obtain ⟨tail, rfl, htext⟩ := readText_of_spelt hv
    rw [readNested_text (r := tail ++ rest) hskip, htext]
    rfl
  | 0, .record r => exact hv.elim
  | depth + 1, .record r =>
    obtain ⟨fields, rfl, hlists⟩ := hv
    have hsteps : Steps (Spelt depth) (nestedMember depth) fun r f => r.map (·.add f.1 f.2) := by
      intro name v r cs above value rest hcolon habove hvalue hrest
      rw [nestedMember, hcolon]
      simp only [readNested_of_spelt hvalue habove hrest, Except.map]
      cases r <;> rfl
    obtain ⟨tail, rfl, hmembers⟩ := members_of_lists hsteps hlists
    rw [readNested_object (r := tail ++ rest) hskip, hmembers, foldl_map_add]
    rfl

end Value

namespace Record

/-! ## Texts of records -/

/-- **The JSON texts of an object with some members**, among blanks, as far as records may be read
from them. -/
def Spelt (fields : List (String × Value)) (text : String) : Prop :=
  ∃ b cs b', Blanks b ∧ Lists (Value.Spelt (depthLimit - 1)) fields cs ∧ Blanks b' ∧
    text.toList = b ++ (cs ++ b')

/-- **An object is read as its members set one after the other**, however it is spelt. -/
theorem read_of_spelt {fields : List (String × Value)} {text : String} (h : Spelt fields text) :
    Record.read text = .ok (ofList fields) := by
  obtain ⟨b, cs, b', hb, hlists, hb', htext⟩ := h
  have hsteps : Steps (Value.Spelt (depthLimit - 1)) readMember fun r f => r.add f.1 f.2 := by
    intro name v r cs above value rest hcolon habove hvalue hrest
    rw [readMember, hcolon]
    simp only [Value.readKind, Value.readNested_of_spelt hvalue habove hrest, Except.map]
  obtain ⟨tail, rfl, hmembers⟩ := members_of_lists hsteps hlists
  rw [read, htext, skipBlank_append hb, List.cons_append, skipBlank_cons (by decide)]
  simp only [hmembers]
  exact finish_blanks _ hb'

/-! ## Writing -/

/-- One member as it is written. -/
def member (f : String × Value) : List Char := writeText f.1 ++ ':' :: f.2.written

/-- **The object that lists some members**, without blanks. -/
def object (fields : List (String × Value)) : List Char :=
  '\x7b' :: (List.intercalate [','] (fields.map member) ++ ['\x7d'])

theorem writtenFields_false :
    ∀ r : Record, writtenFields false r = (r.toList.map member).flatMap (',' :: ·)
  | empty => rfl
  | field n v r => by
    rw [writtenFields, writtenFields_false r]
    simp [toList, member]

/-- **A record is written** as the object that lists its fields. -/
theorem written_eq_object (r : Record) : r.written = object r.toList := by
  cases r with
  | empty => rfl
  | field n v r =>
    rw [written, writtenFields, writtenFields_false, object, toList, List.map_cons,
      intercalate_cons]
    simp [member]

theorem lists_object {spelt : Value → List Char → Prop} {fields : List (String × Value)}
    (h : ∀ f ∈ fields, spelt f.2 f.2.written) : Lists spelt fields (object fields) := by
  refine ⟨[], _, blanks_nil, ?_, rfl⟩
  rw [List.forall₂_map_right_iff]
  exact List.forall₂_same.2 fun f hf => Member.plain (h f hf)

end Record

/-- **A value is written** in one of its texts. -/
theorem Value.spelt_written {depth : Nat} {v : Value} (hfree : v.floatFree = true)
    (hdistinct : v.distinct = true) (hlevels : v.levels ≤ depth) : v.Spelt depth v.written := by
  match depth, v with
  | _, .bool b => rw [Spelt, written]; cases b <;> rfl
  | _, .int i => rw [Spelt, written]
  | _, .float x => exact absurd hfree Bool.false_ne_true
  | _, .str s =>
    rw [Spelt, written]
    exact spelt_writeText s
  | 0, .record r => exact absurd hlevels (Nat.not_le.2 r.levels_pos)
  | depth + 1, .record r =>
    obtain ⟨hnames, hdistinct⟩ := Record.distinct_iff.1 hdistinct
    have hfree := Record.floatFree_iff.1 hfree
    have hlevels := Record.levels_le_iff.1 hlevels
    refine ⟨r.toList, (Record.ofList_toList hnames).symm, ?_⟩
    rw [written, ← Record.written, Record.written_eq_object]
    exact Record.lists_object fun f hf =>
      spelt_written (hfree f hf) (hdistinct f hf) (hlevels f hf)

namespace Record

/-- **What is written for some members** is one of the texts of their object. -/
theorem spelt_object {fields : List (String × Value)}
    (h : ∀ f ∈ fields, f.2.floatFree ∧ f.2.distinct ∧ f.2.levels < depthLimit) :
    Spelt fields (String.ofList (object fields)) := by
  have hlists : Lists (Value.Spelt (depthLimit - 1)) fields (object fields) :=
    lists_object fun f hf => by
      obtain ⟨hfree, hdistinct, hlevels⟩ := h f hf
      exact Value.spelt_written hfree hdistinct (Nat.le_sub_one_of_lt hlevels)
  exact ⟨[], _, [], blanks_nil, hlists, blanks_nil, by simp⟩

/-- **What is written for a record** is read back. -/
theorem read_write {r : Record} (hfree : r.floatFree = true) (hdistinct : r.distinct = true)
    (hlevels : r.levels ≤ depthLimit) : Record.read r.write = .ok r := by
  obtain ⟨hnames, hdistinct⟩ := distinct_iff.1 hdistinct
  have hfree := floatFree_iff.1 hfree
  have hlevels := levels_le_iff.1 hlevels
  have hspelt : Spelt r.toList r.write := by
    rw [write, written_eq_object]
    exact spelt_object fun f hf =>
      ⟨hfree f hf, hdistinct f hf, Nat.lt_of_le_pred (by decide) (hlevels f hf)⟩
  rw [read_of_spelt hspelt, ofList_toList hnames]

/-- **Records survive JSON.** Let the values of some members hold no float, with at most 127 objects
within one another in all. Whatever text lists the members as an object, and there is one, the
record read from it is the one with the members set one after the other: each name stands where it
comes first, with the value that it has last. So a record of that kind is read back from what is
written for it. -/
theorem survives_json :
    (∀ fields : List (String × Value),
      (∀ f ∈ fields, f.2.floatFree ∧ f.2.distinct ∧ f.2.levels < depthLimit) →
        Spelt fields (String.ofList (object fields)) ∧
        (∀ text, Spelt fields text → Record.read text = .ok (ofList fields)) ∧
        (ofList fields).names = (fields.map Prod.fst).eraseDups ∧
        ∀ name, (ofList fields).get? name = fields.reverse.lookup name) ∧
    ∀ r : Record, r.floatFree → r.distinct → r.levels ≤ depthLimit →
      Record.read r.write = .ok r :=
  ⟨fun fields h => ⟨spelt_object h, fun _ => read_of_spelt, names_ofList fields,
    get?_ofList fields⟩, fun _ => read_write⟩

/-- A repeated name, the least integer, a quote, a line break and a nested object. -/
theorem survives_json_repeated :
    let nested : Value := .record (.field "x" (.bool true) .empty)
    let fields : List (String × Value) :=
      [("a", .int (-9223372036854775808)), ("é\n", nested), ("a", .str "\"")]
    (∀ f ∈ fields, f.2.floatFree ∧ f.2.distinct ∧ f.2.levels < depthLimit) ∧
      String.ofList (object fields) =
        "\x7b\"a\":-9223372036854775808,\"é\\n\":\x7b\"x\":true\x7d,\"a\":\"\\\"\"\x7d" ∧
      Record.read (String.ofList (object fields)) =
        .ok (.field "a" (.str "\"") (.field "é\n" nested .empty)) := by
  intro nested fields
  have h : ∀ f ∈ fields, f.2.floatFree ∧ f.2.distinct ∧ f.2.levels < depthLimit := by decide
  obtain ⟨hspelt, hread, -⟩ := survives_json.1 fields h
  exact ⟨h, by decide, hread _ hspelt⟩

end Record

end Muster
