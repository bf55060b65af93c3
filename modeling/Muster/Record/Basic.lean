import Muster.Binary64.Basic

/-!
# Record/Basic — records and the values of their fields

A `Record` is an ordered list of named values; a value may itself be a record. Adding a field
under a name that is present replaces the value where it stands, so that records built by
`Record.add` have each name once, in the order of first use.

* `get?_add` — looking a name up after adding a field.
* `names_add` — adding keeps the order of the names, and a new one goes to the end.
* `get?_project` — a projection keeps exactly the requested fields.
-/

namespace Muster

mutual

/-- **A field's value.** -/
inductive Value
  | bool (b : Bool)
  | int (i : Int64)
  | float (x : Binary64)
  | str (s : String)
  | record (r : Record)

/-- **Named values in order.** -/
inductive Record
  | empty
  | field (name : String) (value : Value) (rest : Record)

end

instance : Inhabited Value := ⟨.bool false⟩

instance : Inhabited Record := ⟨.empty⟩

/-!
 ## Equality of values

Kinds never mix, and floats are compared by value (`Binary64.same`). Records are equal when they
have the same names in the same order with equal values.
-/

mutual

/-- Are two values equal? -/
def Value.same : Value → Value → Bool
  | .bool a, .bool b => a = b
  | .int a, .int b => a = b
  | .float a, .float b => a.same b
  | .str a, .str b => a = b
  | .record a, .record b => a.same b
  | _, _ => false

/-- Are two records equal? -/
def Record.same : Record → Record → Bool
  | .empty, .empty => true
  | .field n v r, .field m w s => n = m && v.same w && r.same s
  | _, _ => false

end

namespace Record

/-! ## Reading a record -/

/-- The fields in order. -/
def toList : Record → List (String × Value)
  | empty => []
  | field n v r => (n, v) :: r.toList

/-- The names in order. -/
def names (r : Record) : List String := r.toList.map Prod.fst

/-- The number of fields. -/
def size (r : Record) : Nat := r.toList.length

def isEmpty : Record → Bool
  | empty => true
  | field .. => false

/-- The value under a name. -/
def get? (name : String) : Record → Option Value
  | empty => none
  | field n v r => if n = name then some v else r.get? name

def contains (name : String) (r : Record) : Bool := (r.get? name).isSome

/-! ## Building a record -/

/-- **Sets a field**: in place if the name is present, else at the end. -/
def add (name : String) (value : Value) : Record → Record
  | empty => field name value empty
  | field n v r => if n = name then field n value r else field n v (r.add name value)

/-- The record with the given fields set one after the other. -/
def ofList (fields : List (String × Value)) : Record :=
  fields.foldl (fun r f => r.add f.1 f.2) empty

/-- **The projection onto some names**, in the order of the request: absent names are skipped, and a
name that is requested again changes nothing. -/
def project (names : List String) (r : Record) : Record :=
  names.foldl (fun p n => match r.get? n with | some v => p.add n v | none => p) empty

/-! ## Lemmas -/

@[simp] theorem get?_empty (name : String) : empty.get? name = none := rfl

/-- Looking a name up after adding a field. -/
theorem get?_add (name other : String) (v : Value) :
    ∀ r : Record, (r.add name v).get? other = if name = other then some v else r.get? other
  | empty => rfl
  | field n w r => by
    by_cases hn : n = name
    · subst hn
      by_cases ho : n = other <;> simp [add, get?, ho]
    · by_cases ho : n = other
      · subst ho
        simp [add, get?, hn, Ne.symm hn]
      · simp [add, get?, hn, ho, get?_add name other v r]

/-- **Adding keeps the order of the names**: a new name goes to the end. -/
theorem names_add (name : String) (v : Value) :
    ∀ r : Record, (r.add name v).names = if name ∈ r.names then r.names else r.names ++ [name]
  | empty => by simp [add, names, toList]
  | field n w r => by
    have ih := names_add name v r
    simp only [names] at ih
    by_cases hn : n = name
    · simp [add, names, toList, hn]
    · simp only [add, hn, if_false, names, toList, List.map_cons, List.mem_cons, Ne.symm hn,
        false_or, ih]
      split <;> simp_all

private theorem get?_projectInto (r : Record) (name : String) :
    ∀ (names : List String) (p : Record),
      (names.foldl (fun p n => match r.get? n with | some v => p.add n v | none => p) p).get? name =
        if name ∈ names then (r.get? name).or (p.get? name) else p.get? name
  | [], p => by simp
  | n :: names, p => by
    rw [List.foldl_cons, get?_projectInto r name names]
    cases hr : r.get? n with
    | none => by_cases h : name = n <;> by_cases hm : name ∈ names <;> simp_all
    | some v =>
      simp only [get?_add]
      by_cases h : n = name
      · subst h
        by_cases hm : n ∈ names <;> simp_all
      · by_cases hm : name ∈ names <;> simp_all [Ne.symm h]

/-- **A projection keeps exactly the requested fields.** -/
theorem get?_project (names : List String) (r : Record) (name : String) :
    (r.project names).get? name = if name ∈ names then r.get? name else none := by
  rw [project, get?_projectInto]
  simp

end Record

namespace Value

/-- The integer of an integer value. -/
def int? : Value → Option Int64
  | int i => some i
  | _ => none

/-- The text of a text value. -/
def str? : Value → Option String
  | str s => some s
  | _ => none

/-- The record of a nested value. -/
def record? : Value → Option Record
  | record r => some r
  | _ => none

end Value

end Muster
