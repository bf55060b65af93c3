import Muster.Json.Failure
import Muster.Json.Text

/-!
# Config/Basic — the configuration of a grouping stage and its faults

A configuration is checked before any record flows. `Config.validate` reports the first fault in a
fixed order: no key fields at all; then the first key field that is empty, repeated or unknown to
the schema; then the parameters.
-/

namespace Muster

/-- **The configuration of a grouping stage.** -/
structure Config where
  /-- the fields that make up a group's key -/
  keyFields : List String
  /-- whether groups carry their number of records -/
  withCount : Bool := false
  /-- whether a group is shown as its first record rather than its key -/
  retainOthers : Bool := false
  /-- the cap on distinct keys; zero and below stand for none -/
  maxTypes : Int64 := 0
  /-- keys with a lower count are pruned when the cap is exceeded -/
  pruneThreshold : UInt64 := 2
  /-- the cap is checked after this many increments -/
  checkpointInterval : UInt64 := 1000000
  shards : UInt64 := 64
  deriving DecidableEq, Inhabited, Repr

/-- The field of a group that carries its number of records. -/
def countField : String := "count"

/-- **Why a configuration is refused.** -/
inductive ConfigError
  | noKeyFields
  | emptyFieldName
  | duplicateKeyField (field : String)
  | unknownKeyField (field : String) (available : List String)
  | invalidParameter (parameter reason : String)
  | unreadable (cause : Json.Failure)
  | mismatchedReplica
  deriving DecidableEq, Repr

namespace Config

/-- **The cap on distinct keys**, if there is one. -/
def limit (c : Config) : Option Nat := if 0 < c.maxTypes then some c.maxTypes.toInt.toNat else none

/-! ## Validation -/

/-- The fault of one key field, given the fields before it. -/
def fieldFault (schema : Option (List String)) (earlier : List String) (field : String) :
    Option ConfigError :=
  if field.isEmpty then some .emptyFieldName
  else if field ∈ earlier then some (.duplicateKeyField field)
  else match schema with
    | none => none
    | some names => if field ∈ names then none else some (.unknownKeyField field names)

/-- The first fault among the key fields, given the fields before them. -/
def keyFault (schema : Option (List String)) : (earlier fields : List String) → Option ConfigError
  | _, [] => none
  | earlier, f :: fields =>
    match fieldFault schema earlier f with
    | some e => some e
    | none => keyFault schema (f :: earlier) fields

/-- The first fault among the parameters. -/
def parameterFault (c : Config) : Option ConfigError :=
  if c.checkpointInterval = 0 then
    some (.invalidParameter "checkpoint_interval" "must be greater than 0")
  else if c.shards = 0 then some (.invalidParameter "shards" "must be greater than 0")
  else if 0 < c.maxTypes ∧ c.pruneThreshold < 2 then
    some (.invalidParameter "prune_threshold"
      ("must be at least 2 when max_types is set, got " ++ toString c.pruneThreshold.toNat))
  else none

/-- The first fault of a configuration, with respect to the fields of its input if they are
known. -/
def fault (schema : Option (List String)) (c : Config) : Option ConfigError :=
  if c.keyFields.isEmpty then some .noKeyFields
  else (keyFault schema [] c.keyFields).or c.parameterFault

/-- **Checks a configuration.** -/
def validate (schema : Option (List String)) (c : Config) : Except ConfigError Unit :=
  match c.fault schema with
  | some e => .error e
  | none => .ok ()

end Config

namespace ConfigError

/-! ## Reports -/

/-- The stable code of an error. -/
def code : ConfigError → String
  | noKeyFields => "NoKeyFields"
  | emptyFieldName => "EmptyFieldName"
  | duplicateKeyField _ => "DuplicateKeyField"
  | unknownKeyField .. => "UnknownKeyField"
  | invalidParameter .. => "InvalidParameter"
  | unreadable _ => "ConfigParseError"
  | mismatchedReplica => "MismatchedReplica"

/-- Names in quotes, as a list. -/
def quotedList (names : List String) : String :=
  "[" ++ ", ".intercalate (names.map fun n => String.ofList (Text.Quoted.quote n)) ++ "]"

/-- The wording of an error. -/
def message : ConfigError → String
  | noKeyFields => "at least one key field must be specified"
  | emptyFieldName => "key field names must not be empty"
  | duplicateKeyField field => "key field '" ++ field ++ "' is specified more than once"
  | unknownKeyField field available =>
    "key field '" ++ field ++ "' does not exist in the upstream schema (available fields: " ++
      quotedList available ++ ")"
  | invalidParameter parameter reason => "invalid value for '" ++ parameter ++ "': " ++ reason
  | unreadable cause => "failed to parse grouping configuration: " ++ cause.message
  | mismatchedReplica =>
    "replica configuration differs from the configuration shared by its sibling replicas"

/-- A string in JSON. -/
def jsonText (s : String) : String := String.ofList (Json.writeText s)

/-- An object in JSON, its values already written. -/
def jsonObject (members : List (String × String)) : String :=
  "\x7b" ++ ",".intercalate (members.map fun m => jsonText m.1 ++ ":" ++ m.2) ++ "\x7d"

/-- **An error in JSON**: the name of its kind, with the details under it if there are any. -/
def write : ConfigError → String
  | noKeyFields => jsonText "NoKeyFields"
  | emptyFieldName => jsonText "EmptyFieldName"
  | duplicateKeyField field => jsonObject [("DuplicateKeyField", jsonText field)]
  | unknownKeyField field available =>
    jsonObject [("UnknownKeyField", jsonObject [("field", jsonText field),
      ("available", "[" ++ ",".intercalate (available.map jsonText) ++ "]")])]
  | invalidParameter parameter reason =>
    jsonObject [("InvalidParameter", jsonObject [("parameter", jsonText parameter),
      ("reason", jsonText reason)])]
  | unreadable cause => jsonObject [("Parse", jsonText cause.message)]
  | mismatchedReplica => jsonText "MismatchedReplica"

end ConfigError

end Muster
