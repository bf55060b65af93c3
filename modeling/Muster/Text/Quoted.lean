import Muster.Text.Extender

/-!
# Text/Quoted — text shown in quotes

A quoted text shows every character a reader could miss or mistake: quotes and backslashes are
escaped, the usual controls have their letters, and whatever has no glyph or would join the
character before it is written as its code point. The single quote stands as it is.
-/

namespace Muster.Text.Quoted

/-- The lower-case hexadecimal digits of a number. -/
def hexOf (n : Nat) : List Char := Nat.toDigits 16 n

/-- **One character inside quotes.** -/
def shown (c : Char) : List Char :=
  match c with
  | '"' => ['\\', '"']
  | '\\' => ['\\', '\\']
  | '\n' => ['\\', 'n']
  | '\r' => ['\\', 'r']
  | '\t' => ['\\', 't']
  | '\x00' => ['\\', '0']
  | c =>
    if isExtender c || isUnprintable c then '\\' :: 'u' :: '\x7b' :: (hexOf c.toNat ++ ['\x7d'])
    else [c]

/-- The characters between the quotes. -/
def inner (cs : List Char) : List Char := cs.flatMap shown

/-- **A text in quotes.** -/
def quote (s : String) : List Char := '"' :: (inner s.toList ++ ['"'])

example : quote "a\"b" = ['"', 'a', '\\', '"', 'b', '"'] := by decide +kernel

end Muster.Text.Quoted
