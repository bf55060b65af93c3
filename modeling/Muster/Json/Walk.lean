import Muster.Json.Number
import Muster.Json.Text

/-!
# Json/Walk — the items of lists and the members of objects

Readers of lists and objects differ in what they do with each item; the punctuation is the same.
`items` and `members` walk through it and hand each item to a step. A step takes the text before
its item and returns the text after it; the walk is bounded by the length of the text.
-/

namespace Muster.Json

/-- A list, after its opening bracket or after an item of it. -/
def itemsFrom (item : List Char → Except Failure (List Char)) :
    (fuel : Nat) → (first : Bool) → List Char → Except Failure (List Char)
  | 0, _, _ => .error .malformed
  | fuel + 1, first, cs =>
    match skipBlank cs with
    | [] => .error .ended
    | ']' :: r => .ok r
    | ',' :: r =>
      if first then .error .malformed
      else match item r with
        | .error e => .error e
        | .ok r => itemsFrom item fuel false r
    | r =>
      if first then
        match item r with
        | .error e => .error e
        | .ok r => itemsFrom item fuel false r
      else .error .malformed

/-- **The items of a list**, the text starting after its opening bracket. -/
def items (item : List Char → Except Failure (List Char)) (cs : List Char) :
    Except Failure (List Char) :=
  itemsFrom item (cs.length + 1) true cs

/-- The text after the colon between a member's name and its value. -/
def colon (cs : List Char) : Except Failure (List Char) :=
  match skipBlank cs with
  | [] => .error .ended
  | ':' :: r => .ok r
  | _ => .error .malformed

/-- An object, after its opening brace or after a member of it. The step gets the member's name,
what has been gathered so far, and the text before the colon. -/
def membersFrom {σ : Type} (member : String → σ → List Char → Except Failure (σ × List Char)) :
    (fuel : Nat) → (first : Bool) → σ → List Char → Except Failure (σ × List Char)
  | 0, _, _, _ => .error .malformed
  | fuel + 1, first, s, cs =>
    let named (r : List Char) : Except Failure (σ × List Char) :=
      match readText r with
      | .error e => .error e
      | .ok (name, r) =>
        match member name s r with
        | .error e => .error e
        | .ok (s, r) => membersFrom member fuel false s r
    match skipBlank cs with
    | [] => .error .ended
    | '\x7d' :: r => .ok (s, r)
    | ',' :: r =>
      if first then .error .malformed
      else match skipBlank r with
        | [] => .error .ended
        | '"' :: r => named r
        | _ => .error .malformed
    | '"' :: r => if first then named r else .error .malformed
    | _ => .error .malformed

/-- **The members of an object**, the text starting after its opening brace. -/
def members {σ : Type} (member : String → σ → List Char → Except Failure (σ × List Char)) (s : σ)
    (cs : List Char) : Except Failure (σ × List Char) :=
  membersFrom member (cs.length + 1) true s cs

/-- **Nothing but blanks may follow** a whole text. -/
def finish {α : Type} (r : α × List Char) : Except Failure α :=
  if (skipBlank r.2).isEmpty then .ok r.1 else .error .malformed

/-- **The failure when something of the wrong kind stands in the text.** A literal, number or string
is read first and may fail itself; a list or an object is not looked into. -/
def wrongKind (expected : String) (cs : List Char) : Failure :=
  let as (found : Found) : Failure := .mismatch (.wrongKind found expected)
  let number (r : Except Failure (Number × List Char)) : Failure :=
    match r with
    | .error e => e
    | .ok (.whole i, _) => as (.integer i)
    | .ok (.real x, _) => as (.float x)
  let word (w : String) (found : Found) (r : List Char) : Failure :=
    match literal w.toList r with
    | .error e => e
    | .ok _ => as found
  match cs with
  | [] => .ended
  | 'n' :: r => word "ull" .null r
  | 't' :: r => word "rue" (.bool true) r
  | 'f' :: r => word "alse" (.bool false) r
  | '-' :: r => number (readNumber true r)
  | '"' :: r =>
    match readText r with
    | .error e => e
    | .ok (s, _) => as (.text s)
  | '[' :: _ => as .list
  | '\x7b' :: _ => as .object
  | c :: r => if c.isDigit then number (readNumber false (c :: r)) else .malformed

/-- Why a text that starts with none of the expected characters is refused. -/
def refuse {α : Type} (expected : String) (cs : List Char) : Except Failure α :=
  .error (wrongKind expected cs)

end Muster.Json
