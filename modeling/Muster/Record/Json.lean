import Muster.Json.Walk
import Muster.Record.Basic

/-!
# Record/Json — records as JSON

A record is an object with its fields in order. Reading takes booleans, strings, objects and
numbers: a whole number that fits 64 signed bits is an integer, any other number a float. A null
or a list is of no kind that a field can hold; that is said only after the whole value has been
read, so that an error of grammar inside the value comes first. A repeated field keeps its place
and takes the last value.

* `Record.write`, `Record.read` — the two directions.
-/

namespace Muster

open Json

/-! ## Writing -/

mutual

/-- A value in JSON. -/
def Value.written : Value → List Char
  | .bool b => if b then "true".toList else "false".toList
  | .int i => (toString i.toInt).toList
  | .float x => FloatLayout.json.write x
  | .str s => writeText s
  | .record r => '\x7b' :: (Record.writtenFields true r ++ ['\x7d'])

/-- The members of a record's object. -/
def Record.writtenFields : (first : Bool) → Record → List Char
  | _, .empty => []
  | first, .field n v r =>
    (if first then [] else [',']) ++ writeText n ++ ':' :: v.written ++ Record.writtenFields false r

end

/-- A record in JSON. -/
def Record.written (r : Record) : List Char := '\x7b' :: (Record.writtenFields true r ++ ['\x7d'])

def Value.write (v : Value) : String := String.ofList v.written

/-- **The JSON text of a record.** -/
def Record.write (r : Record) : String := String.ofList r.written

/-! ## Reading -/

/-- How many objects and lists may be open at once. -/
def depthLimit : Nat := 127

/-- The kind of a number. -/
def Value.ofNumber : Number → Value
  | .whole i => if i < 2 ^ 63 then .int (Int64.ofInt i) else .float (.ofNat i.toNat)
  | .real x => .float x

/-- **A value**, with at most `depth` levels of nesting. The answer is `none` for a well-formed
value of no kind that a field can hold. -/
def Value.readNested : (depth : Nat) → List Char → Except Failure (Option Value × List Char)
  | depth, cs =>
    let word (w : String) (v : Option Value) (r : List Char) :
        Except Failure (Option Value × List Char) :=
      (literal w.toList r).map (v, ·)
    let number (r : Except Failure (Number × List Char)) :
        Except Failure (Option Value × List Char) :=
      r.map fun n => (some (.ofNumber n.1), n.2)
    match skipBlank cs with
    | [] => .error .ended
    | 'n' :: r => word "ull" none r
    | 't' :: r => word "rue" (some (.bool true)) r
    | 'f' :: r => word "alse" (some (.bool false)) r
    | '-' :: r => number (readNumber true r)
    | '"' :: r => (readText r).map fun s => (some (.str s.1), s.2)
    | '[' :: r =>
      match depth with
      | 0 => .error .malformed
      | depth + 1 => (items (fun r => (readNested depth r).map Prod.snd) r).map (none, ·)
    | '\x7b' :: r =>
      match depth with
      | 0 => .error .malformed
      | depth + 1 =>
        let member (name : String) (fields : Option Record) (r : List Char) :
            Except Failure (Option Record × List Char) :=
          match colon r with
          | .error e => .error e
          | .ok r => (readNested depth r).map fun v =>
              (fields.bind fun f => v.1.map fun v => f.add name v, v.2)
        (members member (some .empty) r).map fun f => (f.1.map .record, f.2)
    | c :: r => if c.isDigit then number (readNumber false (c :: r)) else .error .malformed

/-- A value that has to be of some kind. -/
def Value.readKind (depth : Nat) (cs : List Char) : Except Failure (Value × List Char) :=
  match readNested depth cs with
  | .error e => .error e
  | .ok (none, _) => .error (.mismatch .noKind)
  | .ok (some v, r) => .ok (v, r)

/-- One member of the outermost object: its mismatch is found before the next member is read. -/
def Record.readMember (name : String) (fields : Record) (cs : List Char) :
    Except Failure (Record × List Char) :=
  match colon cs with
  | .error e => .error e
  | .ok r => (Value.readKind (depthLimit - 1) r).map fun v => (fields.add name v.1, v.2)

/-- **Reads a value.** -/
def Value.read (s : String) : Except Failure Value :=
  match readKind depthLimit s.toList with
  | .error e => .error e
  | .ok r => finish r

/-- **Reads a record.** -/
def Record.read (s : String) : Except Failure Record :=
  match skipBlank s.toList with
  | [] => .error .ended
  | '\x7b' :: r =>
    match members readMember .empty r with
    | .error e => .error e
    | .ok r => finish r
  | r => refuse "a map" r

end Muster
