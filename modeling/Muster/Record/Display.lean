import Muster.Record.Basic
import Muster.Decimal.Layout
import Muster.Text.Quoted

/-!
# Record/Display — records shown to people

Two forms. The plain form `{a: 1, b: "x"}` leaves names bare and floats without an exponent. The
dump names the kind of every value and quotes names and texts, so that nothing in it is ambiguous.
-/

namespace Muster

open Text.Quoted (quote)

/-- An integer in decimal. -/
def Value.intText (i : Int64) : List Char := (toString i.toInt).toList

def Value.boolText (b : Bool) : List Char := if b then "true".toList else "false".toList

/-! ## The plain form -/

mutual

/-- A value in the plain form. -/
def Value.displayed : Value → List Char
  | .bool b => Value.boolText b
  | .int i => Value.intText i
  | .float x => FloatLayout.plain.write x
  | .str s => quote s
  | .record r => '\x7b' :: (Record.displayedFields true r ++ ['\x7d'])

/-- The fields of a record in the plain form, separated by commas. -/
def Record.displayedFields : (first : Bool) → Record → List Char
  | _, .empty => []
  | first, .field n v r =>
    (if first then [] else [',', ' ']) ++ n.toList ++ [':', ' '] ++ v.displayed ++
      Record.displayedFields false r

end

/-- A record in the plain form. -/
def Record.displayed (r : Record) : List Char :=
  '\x7b' :: (Record.displayedFields true r ++ ['\x7d'])

def Value.display (v : Value) : String := String.ofList v.displayed

def Record.display (r : Record) : String := String.ofList r.displayed

/-! ## The dump -/

/-- The opening of a dumped record. -/
def Record.dumpOpening : List Char := "Record \x7b fields: \x7b".toList

/-- The closing of a dumped record. -/
def Record.dumpClosing : List Char := "\x7d \x7d".toList

mutual

/-- A value with its kind. -/
def Value.dumped : Value → List Char
  | .bool b => "Bool(".toList ++ Value.boolText b ++ [')']
  | .int i => "Int(".toList ++ Value.intText i ++ [')']
  | .float x => "Float(".toList ++ FloatLayout.exact.write x ++ [')']
  | .str s => "Str(".toList ++ quote s ++ [')']
  | .record r =>
    "Record(".toList ++ Record.dumpOpening ++ Record.dumpedFields true r ++ Record.dumpClosing ++
      [')']

/-- The fields of a record with quoted names, separated by commas. -/
def Record.dumpedFields : (first : Bool) → Record → List Char
  | _, .empty => []
  | first, .field n v r =>
    (if first then [] else [',', ' ']) ++ quote n ++ [':', ' '] ++ v.dumped ++
      Record.dumpedFields false r

end

/-- A record with the kinds of its values. -/
def Record.dumped (r : Record) : List Char :=
  Record.dumpOpening ++ Record.dumpedFields true r ++ Record.dumpClosing

end Muster
