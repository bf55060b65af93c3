import Muster.Decimal.Layout
import Muster.Text.Quoted

/-!
# Json/Failure — why a JSON text is refused

A text can end too early, break the grammar of JSON, or be well formed so far and hold something
else than is wanted. Readers stop at the first of these in reading order.
-/

namespace Muster.Json

/-- **What stands in the text** where something else was wanted. -/
inductive Found
  | null
  | bool (b : Bool)
  | integer (i : Int)
  | float (x : Binary64)
  | text (s : String)
  | list
  | object
  deriving DecidableEq, Repr

/-- **A well-formed text of the wrong shape.** -/
inductive Mismatch
  /-- the value is of no kind that a field can hold -/
  | noKind
  | wrongKind (found : Found) (expected : String)
  | outOfRange (i : Int) (expected : String)
  | missing (field : String)
  | duplicate (field : String)
  | tooShort (size : Nat) (expected : String)
  deriving DecidableEq, Repr

/-- **Why a text is refused.** -/
inductive Failure
  /-- the text ended too early -/
  | ended
  /-- the text breaks the grammar -/
  | malformed
  | mismatch (m : Mismatch)
  deriving DecidableEq, Repr

/-- What was found, in words. -/
def Found.describe : Found → String
  | null => "null"
  | bool b => "boolean `" ++ (if b then "true" else "false") ++ "`"
  | integer i => "integer `" ++ toString i ++ "`"
  | float x => "floating point `" ++ String.ofList (FloatLayout.json.write x) ++ "`"
  | text s => "string " ++ String.ofList (Text.Quoted.quote s)
  | list => "sequence"
  | object => "map"

/-- The wording of a mismatch. -/
def Mismatch.message : Mismatch → String
  | noKind => "data did not match any variant of untagged enum Value"
  | wrongKind found expected => "invalid type: " ++ found.describe ++ ", expected " ++ expected
  | outOfRange i expected =>
    "invalid value: " ++ (Found.integer i).describe ++ ", expected " ++ expected
  | missing field => "missing field `" ++ field ++ "`"
  | duplicate field => "duplicate field `" ++ field ++ "`"
  | tooShort size expected => "invalid length " ++ toString size ++ ", expected " ++ expected

/-- The wording of a failure. -/
def Failure.message : Failure → String
  | ended => "the text ended too early"
  | malformed => "the text is not JSON"
  | mismatch m => m.message

end Muster.Json
