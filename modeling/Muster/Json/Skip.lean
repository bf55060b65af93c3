import Muster.Json.Walk

/-!
# Json/Skip — values that nobody wants

A skipped value is only checked for its grammar, and more loosely than one that is read: numbers
may be of any size, code point escapes may be halves of pairs, and lists and objects may be nested
to any depth. A number that the end of the text cuts short is malformed here.
-/

namespace Muster.Json

/-- The digits of an exponent, after its mark. -/
def skipExponent (cs : List Char) : Except Failure (List Char) :=
  let cs := match cs with
    | '+' :: r => r
    | '-' :: r => r
    | r => r
  if startsWithDigit cs then .ok (cs.dropWhile Char.isDigit) else .error .malformed

/-- What may follow the digits of a number that has a fraction. -/
def skipTail (cs : List Char) : Except Failure (List Char) :=
  match cs with
  | 'e' :: r => skipExponent r
  | 'E' :: r => skipExponent r
  | r => .ok r

/-- **Skips a number**, the text starting after its sign. -/
def skipNumber (cs : List Char) : Except Failure (List Char) :=
  match cs with
  | [] => .error .malformed
  | c :: r =>
    if c = '0' ∧ startsWithDigit r then .error .malformed
    else if c.isDigit then
      match cs.dropWhile Char.isDigit with
      | '.' :: r =>
        if startsWithDigit r then skipTail (r.dropWhile Char.isDigit) else .error .malformed
      | r => skipTail r
    else .error .malformed

/-- How many characters a skipped escape takes, the text starting after the backslash. -/
def skipEscape : List Char → Except Failure Nat
  | [] => .error .ended
  | 'u' :: cs => (hexUnit cs).map fun _ => 5
  | c :: _ =>
    if c ∈ ['"', '\\', '/', 'b', 'f', 'n', 'r', 't'] then .ok 1 else .error .malformed

/-- **Skips a string**, the text starting after its opening quote. -/
def skipText : List Char → Except Failure (List Char)
  | [] => .error .ended
  | '"' :: cs => .ok cs
  | '\\' :: cs =>
    match skipEscape cs with
    | .error e => .error e
    | .ok n => skipText (cs.drop n)
  | c :: cs => if c.toNat < 32 then .error .malformed else skipText cs
termination_by cs => cs.length
decreasing_by
  · simp only [List.length_drop, List.length_cons]; omega
  · simp

/-- The members of a skipped object, after its opening brace or after a member of it. -/
def skipMembers (value : List Char → Except Failure (List Char)) :
    (fuel : Nat) → (first : Bool) → List Char → Except Failure (List Char)
  | 0, _, _ => .error .malformed
  | fuel + 1, first, cs =>
    let named (r : List Char) : Except Failure (List Char) :=
      match skipText r with
      | .error e => .error e
      | .ok r =>
        match colon r with
        | .error e => .error e
        | .ok r =>
          match value r with
          | .error e => .error e
          | .ok r => skipMembers value fuel false r
    match skipBlank cs with
    | [] => .error .ended
    | '\x7d' :: r => .ok r
    | ',' :: r =>
      if first then .error .malformed
      else match skipBlank r with
        | [] => .error .ended
        | '"' :: r => named r
        | _ => .error .malformed
    | '"' :: r => if first then named r else .error .malformed
    | _ => .error .malformed

/-- A value with at most `depth` levels of nesting. -/
def skipNested : (depth : Nat) → List Char → Except Failure (List Char)
  | depth, cs =>
    match skipBlank cs with
    | [] => .error .ended
    | 'n' :: r => literal "ull".toList r
    | 't' :: r => literal "rue".toList r
    | 'f' :: r => literal "alse".toList r
    | '-' :: r => skipNumber r
    | '"' :: r => skipText r
    | '[' :: r =>
      match depth with
      | 0 => .error .malformed
      | depth + 1 => items (skipNested depth) r
    | '\x7b' :: r =>
      match depth with
      | 0 => .error .malformed
      | depth + 1 => skipMembers (skipNested depth) (r.length + 1) true r
    | c :: r => if c.isDigit then skipNumber (c :: r) else .error .malformed

/-- **Skips a value**: no text is nested deeper than it is long. -/
def skipValue (cs : List Char) : Except Failure (List Char) := skipNested cs.length cs

end Muster.Json
