import Muster.Json.Failure

/-!
# Json/Text — strings, literals and blanks

The written form of a string escapes the two quoting characters and the controls and leaves
everything else as it is. The reader accepts every escape of JSON; a code point beyond the basic
plane is written as a pair of surrogate escapes, and half a pair is an error.
-/

namespace Muster.Json

/-! ## Blanks and literals -/

/-- The four blanks of JSON. -/
def isBlank (c : Char) : Bool := c = ' ' || c = '\n' || c = '\t' || c = '\r'

/-- The text after leading blanks. -/
def skipBlank (cs : List Char) : List Char := cs.dropWhile isBlank

/-- The text after a given word. -/
def literal : (word : List Char) → List Char → Except Failure (List Char)
  | [], cs => .ok cs
  | _ :: _, [] => .error .ended
  | w :: ws, c :: cs => if c = w then literal ws cs else .error .malformed

/-! ## Writing -/

/-- The lower-case hexadecimal digit of a number below sixteen. -/
def hexDigit (n : Nat) : Char := Nat.digitChar n

/-- **One character of a string.** -/
def escaped (c : Char) : List Char :=
  match c with
  | '"' => ['\\', '"']
  | '\\' => ['\\', '\\']
  | '\x08' => ['\\', 'b']
  | '\x0c' => ['\\', 'f']
  | '\n' => ['\\', 'n']
  | '\r' => ['\\', 'r']
  | '\t' => ['\\', 't']
  | c =>
    if c.toNat < 32 then ['\\', 'u', '0', '0', hexDigit (c.toNat / 16), hexDigit (c.toNat % 16)]
    else [c]

/-- **A string in JSON.** -/
def writeText (s : String) : List Char := '"' :: (s.toList.flatMap escaped ++ ['"'])

/-! ## Reading -/

/-- The value of a hexadecimal digit. -/
def hexValue? (c : Char) : Option Nat :=
  if '0' ≤ c ∧ c ≤ '9' then some (c.toNat - '0'.toNat)
  else if 'a' ≤ c ∧ c ≤ 'f' then some (c.toNat - 'a'.toNat + 10)
  else if 'A' ≤ c ∧ c ≤ 'F' then some (c.toNat - 'A'.toNat + 10)
  else none

/-- The number of bytes of a text. -/
def byteCount (cs : List Char) : Nat := cs.foldr (·.utf8Size + ·) 0

/-- **Four hexadecimal digits.** The text has ended too early if fewer than four bytes are left,
whatever they are. -/
def hexUnit : List Char → Except Failure Nat
  | a :: b :: c :: d :: _ =>
    match hexValue? a, hexValue? b, hexValue? c, hexValue? d with
    | some a, some b, some c, some d => .ok (((a * 16 + b) * 16 + c) * 16 + d)
    | _, _, _, _ => .error .malformed
  | cs => if byteCount cs < 4 then .error .ended else .error .malformed

def isLeadingSurrogate (n : Nat) : Bool := 0xD800 ≤ n && n < 0xDC00

def isTrailingSurrogate (n : Nat) : Bool := 0xDC00 ≤ n && n < 0xE000

/-- The character of a surrogate pair. -/
def ofSurrogates (n m : Nat) : Char := Char.ofNat ((n - 0xD800) * 0x400 + (m - 0xDC00) + 0x10000)

/-- **The character of a code point escape**, and how many characters the escape takes after its
first four digits. -/
def unicodeEscape (cs : List Char) : Except Failure (Char × Nat) :=
  match hexUnit cs with
  | .error e => .error e
  | .ok n =>
    if isTrailingSurrogate n then .error .malformed
    else if isLeadingSurrogate n then
      match cs.drop 4 with
      | [] => .error .ended
      | ['\\'] => .error .ended
      | '\\' :: 'u' :: more =>
        match hexUnit more with
        | .error e => .error e
        | .ok m =>
          if isTrailingSurrogate m then .ok (ofSurrogates n m, 6) else .error .malformed
      | _ => .error .malformed
    else .ok (Char.ofNat n, 0)

/-- **The character of an escape**, the text starting after the backslash, and how many characters
the escape takes. -/
def unescape : List Char → Except Failure (Char × Nat)
  | [] => .error .ended
  | '"' :: _ => .ok ('"', 1)
  | '\\' :: _ => .ok ('\\', 1)
  | '/' :: _ => .ok ('/', 1)
  | 'b' :: _ => .ok ('\x08', 1)
  | 'f' :: _ => .ok ('\x0c', 1)
  | 'n' :: _ => .ok ('\n', 1)
  | 'r' :: _ => .ok ('\r', 1)
  | 't' :: _ => .ok ('\t', 1)
  | 'u' :: cs => (unicodeEscape cs).map fun r => (r.1, 5 + r.2)
  | _ => .error .malformed

/-- Puts a character in front of what was read. -/
def consChar (c : Char) (r : List Char × List Char) : List Char × List Char := (c :: r.1, r.2)

/-- The characters up to the closing quote, and the text after it. -/
def readChars : List Char → Except Failure (List Char × List Char)
  | [] => .error .ended
  | '"' :: cs => .ok ([], cs)
  | '\\' :: cs =>
    match unescape cs with
    | .error e => .error e
    | .ok (c, n) => (readChars (cs.drop n)).map (consChar c)
  | c :: cs => if c.toNat < 32 then .error .malformed else (readChars cs).map (consChar c)
termination_by cs => cs.length
decreasing_by
  · simp only [List.length_drop, List.length_cons]; omega
  · simp

/-- **A string**, the text starting after its opening quote. -/
def readText (cs : List Char) : Except Failure (String × List Char) :=
  (readChars cs).map fun r => (String.ofList r.1, r.2)

end Muster.Json
