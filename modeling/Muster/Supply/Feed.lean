import Muster.Supply.Basic

/-!
# Supply/Feed — supplies at the start of a pipeline

Records come from a list, through a channel, or as a script says. Only a list can be read again; a
script may also hold failures.
-/

namespace Muster

/-- **A line of a script**: a record or a failure, and how often it comes again. -/
structure Cue where
  answer : Except String Record
  again : Nat := 0

namespace Cue

/-- What is to be said. -/
def pull (c : Cue) : Pull :=
  match c.answer with
  | .ok r => .record r
  | .error message => .failed message

/-- What is left of a script once its first line has been said. -/
def rest (c : Cue) (left : List Cue) : List Cue :=
  match c.again with
  | 0 => left
  | n + 1 => { c with again := n } :: left

/-- A line to be said so many times. -/
def times (answer : Except String Record) : Nat → List Cue
  | 0 => []
  | n + 1 => [{ answer := answer, again := n }]

/-- How much a script has to say. -/
def total (script : List Cue) : Nat := script.foldr (·.again + 1 + ·) 0

end Cue

/-- **A supply that is not itself a stage.** -/
inductive Feed
  /-- all records, those that are left, and the names of their fields if declared -/
  | list (records left : List Record) (schema : Option (List String))
  /-- a channel of the site -/
  | channel (i : Nat)
  /-- records and failures to come, in order -/
  | script (left : List Cue)

namespace Feed

instance : Inhabited Feed := ⟨.script []⟩

/-- A feed of listed records. -/
def ofList (records : List Record) (schema : Option (List String)) : Feed :=
  .list records records schema

/-- A feed of records that then fails some times, always alike, before it ends. -/
def failing (records : List Record) (failures : Nat) (message : String) : Feed :=
  .script (records.map (fun r => { answer := .ok r }) ++ Cue.times (.error message) failures)

/-- Receives from a channel. -/
def receive (i : Nat) : Call Site Pull := do
  let s ← Call.read
  let c := s.channel i
  match c.queue with
  | [] => return if c.closed then .ended else .blocked
  | r :: rest => do
    Call.write (s.withChannel i { c with queue := rest })
    return .record r

/-- **Asks for the next record.** -/
def pull : Call (Onsite Feed) Pull := do
  let p ← Call.read
  match p.self with
  | .list _ [] _ => return .ended
  | .list records (r :: left) schema => do
    Call.write { p with self := .list records left schema }
    return .record r
  | .channel i => Onsite.onSite (receive i)
  | .script [] => return .ended
  | .script (c :: left) => do
    Call.write { p with self := .script (c.rest left) }
    return c.pull

/-- The names of the fields, if declared. -/
def schema : Feed → Option (List String)
  | .list _ _ schema => schema
  | _ => none

/-- Starts over, if the records are listed. -/
def rewind : Call (Onsite Feed) Bool := do
  let p ← Call.read
  match p.self with
  | .list records _ schema => do
    Call.write { p with self := ofList records schema }
    return true
  | _ => return false

/-- The records that are left. -/
def ahead (s : Site) : Feed → Nat
  | .list _ left _ => left.length
  | .channel i => (s.channel i).queue.length
  | .script left => Cue.total left

instance : Supply Feed where
  pull := pull
  schema := schema
  rewind := rewind
  ahead := ahead
  release _ := pure ()

end Feed

end Muster
