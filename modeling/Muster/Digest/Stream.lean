import Muster.Digest.Xxh3
import Muster.Record.Basic

/-!
# Digest/Stream — the bytes that stand for a record

What is digested is a sequence of bytes: counts, kinds and integers as eight bytes, little endian;
a boolean as one byte; a string as its UTF-8 bytes and a closing `ff`, which occurs in no UTF-8; a
record as the number of its fields and then each name and value. A float stands as a word that
depends on its value only, so that values that are equal have one sequence.
-/

namespace Muster

namespace Binary64

/-- **The word that stands for a float.** The fields of its representative are shuffled: the top bit
is set for what is not negative, the exponent is that of the significand as an integer, and a
subnormal fraction is doubled. NaN stands for itself. -/
def hashWord (x : Binary64) : UInt64 :=
  let x := x.canonical
  if x.isNaN then x.bits
  else
    let e := (x.exponentBits + 973) % 2 ^ 11
    let f := if x.exponentBits = 0 then 2 * x.fractionBits % 2 ^ 52 else x.fractionBits
    UInt64.ofNat ((if x.negative then 0 else 2 ^ 63) + e * 2 ^ 52 + f)

theorem hashWord_congr {x y : Binary64} (h : x.same y = true) : x.hashWord = y.hashWord := by
  simp only [hashWord, same_iff.mp h]

end Binary64

namespace Digest

/-- The eight bytes of a word, the lowest first. -/
def wordBytes (w : UInt64) : List UInt8 :=
  (List.range 8).map fun i => (w >>> (8 * i).toUInt64).toUInt8

/-- A string: its UTF-8 bytes and the closing byte. -/
def textBytes (s : String) : List UInt8 := s.toUTF8.toList ++ [0xff]

end Digest

open Digest

mutual

/-- The bytes of a value: its kind, then its content. -/
def Value.bytes : Value → List UInt8
  | .bool b => wordBytes 0 ++ [if b then 1 else 0]
  | .int i => wordBytes 1 ++ wordBytes i.toUInt64
  | .float x => wordBytes 2 ++ wordBytes x.hashWord
  | .str s => wordBytes 3 ++ textBytes s
  | .record r => wordBytes 4 ++ wordBytes (UInt64.ofNat r.size) ++ r.fieldBytes

/-- The bytes of a record's fields. -/
def Record.fieldBytes : Record → List UInt8
  | .empty => []
  | .field n v r => textBytes n ++ v.bytes ++ r.fieldBytes

end

/-- **The bytes of a record**: the number of its fields, then the fields. -/
def Record.bytes (r : Record) : List UInt8 := wordBytes (UInt64.ofNat r.size) ++ r.fieldBytes

/-- The digest of a sequence of bytes. -/
def Digest.ofBytes (bs : List UInt8) : UInt64 := Xxh3.digest ⟨bs.toArray⟩

/-- The digest of a string. -/
def Digest.ofText (s : String) : UInt64 := ofBytes (textBytes s)

def Value.digest (v : Value) : UInt64 := ofBytes v.bytes

/-- **The digest of a record.** -/
def Record.digest (r : Record) : UInt64 := ofBytes r.bytes

/-! ## Equal values have one sequence of bytes -/

theorem Record.size_eq_of_same : ∀ {r s : Record}, r.same s = true → r.size = s.size
  | .empty, .empty, _ => rfl
  | .empty, .field .., h => by simp [Record.same] at h
  | .field .., .empty, h => by simp [Record.same] at h
  | .field n v r, .field m w s, h => by
    simp only [Record.same, Bool.and_eq_true] at h
    have ih := Record.size_eq_of_same h.2
    simp only [Record.size, Record.toList, List.length_cons] at ih ⊢
    rw [ih]

mutual

/-- **Equal values have the same bytes.** -/
theorem Value.bytes_eq_of_same : ∀ {v w : Value}, v.same w = true → v.bytes = w.bytes
  | .bool a, .bool b, h => by simp_all [Value.same]
  | .int a, .int b, h => by simp_all [Value.same]
  | .float a, .float b, h => by
    simp only [Value.same] at h
    simp only [Value.bytes, Binary64.hashWord_congr h]
  | .str a, .str b, h => by simp_all [Value.same]
  | .record r, .record s, h => by
    simp only [Value.same] at h
    simp only [Value.bytes, Record.fieldBytes_eq_of_same h, Record.size_eq_of_same h]
  | .bool _, .int _, h | .bool _, .float _, h | .bool _, .str _, h | .bool _, .record _, h
  | .int _, .bool _, h | .int _, .float _, h | .int _, .str _, h | .int _, .record _, h
  | .float _, .bool _, h | .float _, .int _, h | .float _, .str _, h | .float _, .record _, h
  | .str _, .bool _, h | .str _, .int _, h | .str _, .float _, h | .str _, .record _, h
  | .record _, .bool _, h | .record _, .int _, h | .record _, .float _, h
  | .record _, .str _, h => by
    simp [Value.same] at h

theorem Record.fieldBytes_eq_of_same :
    ∀ {r s : Record}, r.same s = true → r.fieldBytes = s.fieldBytes
  | .empty, .empty, _ => rfl
  | .empty, .field .., h => by simp [Record.same] at h
  | .field .., .empty, h => by simp [Record.same] at h
  | .field n v r, .field m w s, h => by
    simp only [Record.same, Bool.and_eq_true, decide_eq_true_eq] at h
    simp only [Record.fieldBytes, h.1.1, Value.bytes_eq_of_same h.1.2,
      Record.fieldBytes_eq_of_same h.2]

end

/-- **Equal records have the same digest.** -/
theorem Record.digest_eq_of_same {r s : Record} (h : r.same s = true) : r.digest = s.digest := by
  simp only [Record.digest, Record.bytes, Record.size_eq_of_same h, Record.fieldBytes_eq_of_same h]

end Muster
