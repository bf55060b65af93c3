import Muster.Config.Basic
import Muster.Json.Skip

/-!
# Config/Json — configurations as JSON

A configuration is read from an object, each field under its name or its alias and in any order,
or from a list that gives the fields in order of declaration. Only the key fields are required; a
field given twice is an error, and members under other names are skipped. The first failure in
reading order is reported.

* `Config.write`, `Config.read` — the two directions.
* `Config.parse` — reads and validates.
-/

namespace Muster

open Json

/-! ## Fields -/

/-- The fields of a configuration. -/
inductive ConfigField
  | keyFields | withCount | retainOthers | maxTypes | pruneThreshold | checkpointInterval | shards
  deriving DecidableEq, Repr

namespace ConfigField

/-- The fields in order of declaration. -/
def all : List ConfigField :=
  [keyFields, withCount, retainOthers, maxTypes, pruneThreshold, checkpointInterval, shards]

/-- The name under which a field is written. -/
def name : ConfigField → String
  | keyFields => "key_fields"
  | withCount => "with_count"
  | retainOthers => "retain_others"
  | maxTypes => "max_types"
  | pruneThreshold => "prune_threshold"
  | checkpointInterval => "checkpoint_interval"
  | shards => "shards"

/-- The other name that a reader accepts. -/
def alias? : ConfigField → Option String
  | keyFields => some "keyFields"
  | withCount => some "withCount"
  | retainOthers => some "retainOthers"
  | maxTypes => some "maxTypes"
  | pruneThreshold => some "pruneThreshold"
  | checkpointInterval => some "checkpointInterval"
  | shards => none

/-- The field under a name or an alias. -/
def ofName? (s : String) : Option ConfigField :=
  all.find? fun f => f.name = s || f.alias? = some s

end ConfigField

namespace Config

/-! ## Writing -/

def boolWord (b : Bool) : String := if b then "true" else "false"

/-- The JSON text of one field's value. -/
def writeField (c : Config) : ConfigField → String
  | .keyFields => "[" ++ ",".intercalate (c.keyFields.map ConfigError.jsonText) ++ "]"
  | .withCount => boolWord c.withCount
  | .retainOthers => boolWord c.retainOthers
  | .maxTypes => toString c.maxTypes.toInt
  | .pruneThreshold => toString c.pruneThreshold.toNat
  | .checkpointInterval => toString c.checkpointInterval.toNat
  | .shards => toString c.shards.toNat

/-- **The JSON text of a configuration**: every field, in order of declaration. -/
def write (c : Config) : String :=
  ConfigError.jsonObject (ConfigField.all.map fun f => (f.name, c.writeField f))

/-! ## Reading values -/

/-- A boolean. -/
def readBool (cs : List Char) : Except Failure (Bool × List Char) :=
  match skipBlank cs with
  | [] => .error .ended
  | 't' :: r => (literal "rue".toList r).map (true, ·)
  | 'f' :: r => (literal "alse".toList r).map (false, ·)
  | r => refuse "a boolean" r

/-- **A whole number between two bounds.** One that is whole but out of bounds is told apart from
one that is not whole. -/
def readWhole (expected : String) (low high : Int) (cs : List Char) :
    Except Failure (Int × List Char) :=
  let bounded (r : Except Failure (Number × List Char)) : Except Failure (Int × List Char) :=
    match r with
    | .error e => .error e
    | .ok (.real x, _) => .error (.mismatch (.wrongKind (.float x) expected))
    | .ok (.whole i, r) =>
      if low ≤ i ∧ i ≤ high then .ok (i, r) else .error (.mismatch (.outOfRange i expected))
  match skipBlank cs with
  | [] => .error .ended
  | '-' :: r => bounded (readNumber true r)
  | c :: r => if c.isDigit then bounded (readNumber false (c :: r)) else refuse expected (c :: r)

/-- A word of 64 bits. -/
def readWord (expected : String) (cs : List Char) : Except Failure (UInt64 × List Char) :=
  (readWhole expected 0 (2 ^ 64 - 1) cs).map fun r => (UInt64.ofNat r.1.toNat, r.2)

/-- A signed word of 64 bits. -/
def readSigned (cs : List Char) : Except Failure (Int64 × List Char) :=
  (readWhole "i64" (-2 ^ 63) (2 ^ 63 - 1) cs).map fun r => (Int64.ofInt r.1, r.2)

/-- One string of a list. -/
def readString (cs : List Char) : Except Failure (String × List Char) :=
  match skipBlank cs with
  | [] => .error .ended
  | '"' :: r => readText r
  | r => refuse "a string" r

/-- The strings of a list, after its opening bracket or after a string of it. -/
def readStringsFrom : (fuel : Nat) → (first : Bool) → List Char →
    Except Failure (List String × List Char)
  | 0, _, _ => .error .malformed
  | fuel + 1, first, cs =>
    let more (r : List Char) : Except Failure (List String × List Char) :=
      match readString r with
      | .error e => .error e
      | .ok (s, r) => (readStringsFrom fuel false r).map fun ss => (s :: ss.1, ss.2)
    match skipBlank cs with
    | [] => .error .ended
    | ']' :: r => .ok ([], r)
    | ',' :: r =>
      if first then more (',' :: r)
      else match skipBlank r with
        | ']' :: _ => .error .malformed
        | r => more r
    | r => if first then more r else .error .malformed

/-- A list of strings. -/
def readStrings (cs : List Char) : Except Failure (List String × List Char) :=
  match skipBlank cs with
  | [] => .error .ended
  | '[' :: r => readStringsFrom (r.length + 1) true r
  | r => refuse "a sequence" r

/-! ## Reading a configuration -/

/-- **A configuration in the making**: the fields given so far. -/
structure Draft where
  keyFields : Option (List String) := none
  withCount : Option Bool := none
  retainOthers : Option Bool := none
  maxTypes : Option Int64 := none
  pruneThreshold : Option UInt64 := none
  checkpointInterval : Option UInt64 := none
  shards : Option UInt64 := none

/-- Has the field been given? -/
def Draft.has (d : Draft) : ConfigField → Bool
  | .keyFields => d.keyFields.isSome
  | .withCount => d.withCount.isSome
  | .retainOthers => d.retainOthers.isSome
  | .maxTypes => d.maxTypes.isSome
  | .pruneThreshold => d.pruneThreshold.isSome
  | .checkpointInterval => d.checkpointInterval.isSome
  | .shards => d.shards.isSome

/-- Reads the value of a field. -/
def Draft.readField (d : Draft) (f : ConfigField) (cs : List Char) :
    Except Failure (Draft × List Char) :=
  match f with
  | .keyFields => (readStrings cs).map fun r => ({ d with keyFields := some r.1 }, r.2)
  | .withCount => (readBool cs).map fun r => ({ d with withCount := some r.1 }, r.2)
  | .retainOthers => (readBool cs).map fun r => ({ d with retainOthers := some r.1 }, r.2)
  | .maxTypes => (readSigned cs).map fun r => ({ d with maxTypes := some r.1 }, r.2)
  | .pruneThreshold => (readWord "u64" cs).map fun r => ({ d with pruneThreshold := some r.1 }, r.2)
  | .checkpointInterval =>
    (readWord "u64" cs).map fun r => ({ d with checkpointInterval := some r.1 }, r.2)
  | .shards => (readWord "usize" cs).map fun r => ({ d with shards := some r.1 }, r.2)

/-- **The configuration of a draft**: fields not given have their defaults, except the key
fields. -/
def Draft.complete (d : Draft) (missing : Mismatch) : Except Failure Config :=
  match d.keyFields with
  | none => .error (.mismatch missing)
  | some keyFields =>
    let base : Config := { keyFields }
    .ok { keyFields
          withCount := d.withCount.getD base.withCount
          retainOthers := d.retainOthers.getD base.retainOthers
          maxTypes := d.maxTypes.getD base.maxTypes
          pruneThreshold := d.pruneThreshold.getD base.pruneThreshold
          checkpointInterval := d.checkpointInterval.getD base.checkpointInterval
          shards := d.shards.getD base.shards }

/-- One member of a configuration's object. A repetition is found before the value is read. -/
def Draft.readMember (name : String) (d : Draft) (cs : List Char) :
    Except Failure (Draft × List Char) :=
  match ConfigField.ofName? name with
  | some f =>
    if d.has f then .error (.mismatch (.duplicate f.name))
    else match colon cs with
      | .error e => .error e
      | .ok r => d.readField f r
  | none =>
    match colon cs with
    | .error e => .error e
    | .ok r => (skipValue r).map (d, ·)

/-- The fields given in order of declaration, after the opening bracket or after a field. -/
def Draft.readOrdered : (first : Bool) → List ConfigField → Draft → List Char →
    Except Failure (Draft × List Char)
  | _, [], d, cs =>
    match skipBlank cs with
    | [] => .error .ended
    | ']' :: r => .ok (d, r)
    | _ => .error .malformed
  | first, f :: fields, d, cs =>
    let more (r : List Char) : Except Failure (Draft × List Char) :=
      match d.readField f r with
      | .error e => .error e
      | .ok (d, r) => readOrdered false fields d r
    match skipBlank cs with
    | [] => .error .ended
    | ']' :: r => .ok (d, r)
    | ',' :: r =>
      if first then more (',' :: r)
      else match skipBlank r with
        | [] => .error .ended
        | ']' :: _ => .error .malformed
        | r => more r
    | r => if first then more r else .error .malformed

/-- What a reader wants at the top. -/
def wanted : String := "struct GroupingConfig"

/-- **Reads a configuration**, which is not validated. -/
def read (s : String) : Except Failure Config :=
  let complete (missing : Mismatch) (r : Except Failure (Draft × List Char)) :
      Except Failure Config :=
    match r with
    | .error e => .error e
    | .ok (d, r) =>
      match d.complete missing with
      | .error e => .error e
      | .ok c => finish (c, r)
  match skipBlank s.toList with
  | [] => .error .ended
  | '\x7b' :: r => complete (.missing ConfigField.keyFields.name) (members Draft.readMember {} r)
  | '[' :: r =>
    complete (.tooShort 0 (wanted ++ " with 7 elements"))
      (Draft.readOrdered true ConfigField.all {} r)
  | r => refuse wanted r

/-- **Reads and validates a configuration.** -/
def parse (s : String) : Except ConfigError Config :=
  match read s with
  | .error e => .error (.unreadable e)
  | .ok c =>
    match c.validate none with
    | .error e => .error e
    | .ok _ => .ok c

end Config

end Muster
