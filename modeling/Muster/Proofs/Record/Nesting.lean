import Muster.Record.Basic

/-!
# Proofs/Record/Nesting — what stands within a record, at any depth

`Value.all` puts a test to a value and to every value within it. Three tests are of use: that there
is no float anywhere (`floatFree`), that no record has more fields than a word can count
(`countable`), and that every record has each name once (`distinct`). `levels` is how many records
stand within one another.
-/

namespace Muster

/-! ## Tests at any depth -/

mutual

/-- **Does a value pass a test**, and every value within it too? -/
def Value.all (p : Value → Bool) : Value → Bool
  | .bool b => p (.bool b)
  | .int i => p (.int i)
  | .float x => p (.float x)
  | .str s => p (.str s)
  | .record r => p (.record r) && r.all p

/-- Does every value within a record pass a test? -/
def Record.all (p : Value → Bool) : Record → Bool
  | .empty => true
  | .field _ v r => v.all p && r.all p

end

/-- Is a value of the kind of floats? -/
def Value.isFloat : Value → Bool
  | .float _ => true
  | _ => false

namespace Value

/-- **No float** at any depth. -/
def floatFree (v : Value) : Bool := v.all fun w => !w.isFloat

/-- **No more fields than a word can count** in any record. -/
def countable (v : Value) : Bool := v.all fun w => w.record?.all fun r => r.size < 2 ^ 64

/-- **Each name once** in every record. -/
def distinct (v : Value) : Bool := v.all fun w => w.record?.all fun r => r.names.Nodup

end Value

namespace Record

/-- No float at any depth. -/
def floatFree (r : Record) : Bool := (Value.record r).floatFree

/-- No more fields than a word can count, in the record and in every record within it. -/
def countable (r : Record) : Bool := (Value.record r).countable

/-- Each name once, in the record and in every record within it. -/
def distinct (r : Record) : Bool := (Value.record r).distinct

variable {r : Record}

/-- A test at any depth is put to each field. -/
theorem all_eq_all_toList (p : Value → Bool) : ∀ r : Record, r.all p = r.toList.all (·.2.all p)
  | empty => rfl
  | field n v r => by rw [all, toList, List.all_cons, all_eq_all_toList p r]

theorem floatFree_iff : r.floatFree = true ↔ ∀ f ∈ r.toList, f.2.floatFree = true := by
  simp [floatFree, Value.floatFree, Value.all, Value.isFloat, all_eq_all_toList]

theorem countable_iff :
    r.countable = true ↔ r.size < 2 ^ 64 ∧ ∀ f ∈ r.toList, f.2.countable = true := by
  simp [countable, Value.countable, Value.all, Value.record?, all_eq_all_toList]

theorem distinct_iff :
    r.distinct = true ↔ r.names.Nodup ∧ ∀ f ∈ r.toList, f.2.distinct = true := by
  simp [distinct, Value.distinct, Value.all, Value.record?, all_eq_all_toList]

end Record

/-! ## Depth -/

mutual

/-- How many records stand within one another in a value. -/
def Value.levels : Value → Nat
  | .record r => r.levels
  | _ => 0

/-- **How many records stand within one another**, the outermost one included. -/
def Record.levels : Record → Nat
  | .empty => 1
  | .field _ v r => max (v.levels + 1) r.levels

end

theorem Record.levels_pos : ∀ r : Record, 0 < r.levels
  | .empty => Nat.one_pos
  | .field _ v _ => Nat.lt_of_lt_of_le v.levels.succ_pos (Nat.le_max_left _ _)

theorem Record.levels_le_iff {depth : Nat} :
    ∀ {r : Record}, r.levels ≤ depth + 1 ↔ ∀ f ∈ r.toList, f.2.levels ≤ depth
  | .empty => by simp [levels, toList]
  | .field n v r => by
    rw [levels, Nat.max_le, levels_le_iff, toList, List.forall_mem_cons, Nat.add_le_add_iff_right]

end Muster
