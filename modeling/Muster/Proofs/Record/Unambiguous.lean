import Mathlib.Data.List.Basic
import Muster.Proofs.Record.Digesting
import Muster.Proofs.Record.Nesting

/-!
# Proofs/Record/Unambiguous — the bytes of a record tell the record

No length stands in front of a string or behind a nested record, yet the bytes of a record without
floats tell where each part ends: words have eight bytes, no byte of UTF-8 is `ff`, and a record
says how many fields follow. So parts that stand in front of any bytes whatever can be split off
again (`wordBytes_append_inj`, `textBytes_append_inj`), and by induction whole values can
(`Value.bytes_append_inj`). The induction is on one of the two values; that the other is of the same
kind is read off its bytes.

* `Record.bytes_unambiguous` — other records have other bytes, and none that begin alike.

Floats are left out because the word that stands for one does not tell it. The number of fields is
a single word, which no record that fits into memory exceeds (`Record.countable`).
-/

namespace Muster

/-! ## Words -/

namespace Digest

variable {x y : List UInt8}

theorem length_wordBytes (w : UInt64) : (wordBytes w).length = 8 := by
  rw [wordBytes, List.length_map, List.length_range]

/-- The bytes of a word are its digits to the base of 256. -/
theorem map_toNat_wordBytes (w : UInt64) :
    (wordBytes w).map UInt8.toNat = (List.range 8).map fun i => w.toNat / 256 ^ i % 256 := by
  rw [wordBytes, List.map_map]
  refine List.map_congr_left fun i hi => ?_
  have hlt : 8 * i < 64 := by
    have := List.mem_range.1 hi
    omega
  have hshift : (8 * i).toUInt64.toNat % 64 = 8 * i := by
    simp only [Nat.toUInt64_eq, UInt64.toNat_ofNat']
    omega
  rw [Function.comp_apply, UInt64.toNat_toUInt8, UInt64.toNat_shiftRight, hshift,
    Nat.shiftRight_eq_div_pow, Nat.pow_mul]

/-- Numbers that are not too large are told by their digits. -/
private theorem eq_of_digits_eq : ∀ (n : Nat) {a b : Nat}, a < 256 ^ n → b < 256 ^ n →
    (∀ i, i < n → a / 256 ^ i % 256 = b / 256 ^ i % 256) → a = b
  | 0, a, b, ha, hb, _ => by
    rw [Nat.pow_zero] at ha hb
    omega
  | n + 1, a, b, ha, hb, h => by
    have hlow := h 0 n.succ_pos
    have hhigh : a / 256 = b / 256 := by
      rw [Nat.pow_succ] at ha hb
      refine eq_of_digits_eq n (by omega) (by omega) fun i hi => ?_
      rw [Nat.div_div_eq_div_mul, Nat.div_div_eq_div_mul, ← Nat.pow_succ']
      exact h (i + 1) (Nat.succ_lt_succ hi)
    rw [Nat.pow_zero, Nat.div_one, Nat.div_one] at hlow
    omega

theorem wordBytes_inj {v w : UInt64} (h : wordBytes v = wordBytes w) : v = w := by
  have hdigits := congrArg (List.map UInt8.toNat) h
  rw [map_toNat_wordBytes, map_toNat_wordBytes, List.map_inj_left] at hdigits
  exact UInt64.toNat_inj.1 <| eq_of_digits_eq 8 v.toNat_lt w.toNat_lt fun i hi =>
    hdigits i (List.mem_range.2 hi)

/-- **Words can be split off.** -/
theorem wordBytes_append_inj {v w : UInt64} (h : wordBytes v ++ x = wordBytes w ++ y) :
    v = w ∧ x = y := by
  obtain ⟨hbytes, hxy⟩ := List.append_inj h (by rw [length_wordBytes, length_wordBytes])
  exact ⟨wordBytes_inj hbytes, hxy⟩

/-! ## Strings -/

private theorem toList_loop (b : ByteArray) (i : Nat) (l : List UInt8) :
    ByteArray.toList.loop b i l = l.reverse ++ b.data.toList.drop i := by
  rw [ByteArray.toList.loop]
  split
  · rename_i h
    have hlt : i < b.data.toList.length := h
    have hget : b.get! i = b.data.toList[i] := getElem!_pos b.data i h
    rw [toList_loop b (i + 1), List.reverse_cons, List.append_assoc, hget,
      List.singleton_append, List.getElem_cons_drop]
  · rename_i h
    rw [List.drop_eq_nil_of_le (Nat.le_of_not_lt h), List.append_nil]
termination_by b.size - i

theorem toList_byteArray (b : ByteArray) : b.toList = b.data.toList := toList_loop b 0 []

/-- The bytes of a string are those of its characters. -/
theorem toList_toUTF8 (s : String) :
    s.toUTF8.toList = s.toList.flatMap String.utf8EncodeChar := by
  rw [toList_byteArray, String.toUTF8, ← String.utf8Encode_toList, List.utf8Encode,
    List.toList_data_toByteArray]

/-- **No character has the closing byte** in its UTF-8. -/
theorem closing_not_mem_utf8EncodeChar (c : Char) : 0xff ∉ String.utf8EncodeChar c := by
  have hne : ∀ n, n < 255 → (0xff : UInt8) ≠ UInt8.ofNat n := fun n hn h => by
    have hnat := congrArg UInt8.toNat h
    rw [UInt8.toNat_ofNat_of_lt' (Nat.lt_trans hn (by decide))] at hnat
    exact Nat.ne_of_gt hn hnat
  fun_cases String.utf8EncodeChar c <;>
    simp only [List.mem_cons, List.not_mem_nil, or_false, not_or]
  · exact hne _ (by omega)
  · refine ⟨hne _ ?_, hne _ ?_⟩ <;> omega
  · refine ⟨hne _ ?_, hne _ ?_, hne _ ?_⟩ <;> omega
  · refine ⟨hne _ ?_, hne _ ?_, hne _ ?_, hne _ ?_⟩ <;> omega

theorem closing_not_mem_toUTF8 (s : String) : 0xff ∉ s.toUTF8.toList := by
  rw [toList_toUTF8, List.mem_flatMap]
  rintro ⟨c, -, hc⟩
  exact closing_not_mem_utf8EncodeChar c hc

/-- What stands in front of the first occurrence of a byte can be split off. -/
private theorem append_cons_inj {m : UInt8} : ∀ {a b x y : List UInt8}, m ∉ a → m ∉ b →
    a ++ m :: x = b ++ m :: y → a = b ∧ x = y
  | [], [], _, _, _, _, h => ⟨rfl, (List.cons.inj h).2⟩
  | [], _ :: _, _, _, _, hb, h => absurd (List.cons.inj h).1 (List.ne_of_not_mem_cons hb)
  | _ :: _, [], _, _, ha, _, h => absurd (List.cons.inj h).1.symm (List.ne_of_not_mem_cons ha)
  | u :: a, v :: b, _, _, ha, hb, h => by
    obtain ⟨huv, hrest⟩ := List.cons.inj h
    obtain ⟨hab, hxy⟩ := append_cons_inj (List.not_mem_of_not_mem_cons ha)
      (List.not_mem_of_not_mem_cons hb) hrest
    exact ⟨by rw [huv, hab], hxy⟩

/-- **Strings can be split off.** -/
theorem textBytes_append_inj {s t : String} (h : textBytes s ++ x = textBytes t ++ y) :
    s = t ∧ x = y := by
  rw [textBytes, textBytes, List.append_assoc, List.append_assoc] at h
  obtain ⟨hbytes, hxy⟩ := append_cons_inj (closing_not_mem_toUTF8 s) (closing_not_mem_toUTF8 t) h
  rw [toList_byteArray, toList_byteArray] at hbytes
  exact ⟨String.toByteArray_inj.1 (ByteArray.ext (Array.toList_inj.1 hbytes)), hxy⟩

end Digest

/-! ## Values and records -/

open Digest

/-- The number of a value's kind. -/
def Value.kind : Value → UInt64
  | .bool _ => 0
  | .int _ => 1
  | .float _ => 2
  | .str _ => 3
  | .record _ => 4

/-- The bytes of a value behind its kind. -/
def Value.contentBytes : Value → List UInt8
  | .bool b => [if b then 1 else 0]
  | .int i => wordBytes i.toUInt64
  | .float x => wordBytes x.hashWord
  | .str s => textBytes s
  | .record r => r.bytes

theorem Value.bytes_eq (v : Value) : v.bytes = wordBytes v.kind ++ v.contentBytes := by
  cases v <;> simp [bytes, kind, contentBytes, Record.bytes]

theorem Record.size_field (n : String) (v : Value) (r : Record) :
    (field n v r).size = r.size + 1 := by
  simp [size, toList]

/-- **How many fields follow** can be split off, unless there are too many for a word. -/
theorem Record.size_append_inj {r s : Record} {x y : List UInt8} (hr : r.size < 2 ^ 64)
    (hs : s.size < 2 ^ 64)
    (h : wordBytes (UInt64.ofNat r.size) ++ x = wordBytes (UInt64.ofNat s.size) ++ y) :
    r.size = s.size ∧ x = y := by
  obtain ⟨hword, hxy⟩ := wordBytes_append_inj h
  have hnat := congrArg UInt64.toNat hword
  rw [UInt64.toNat_ofNat_of_lt' hr, UInt64.toNat_ofNat_of_lt' hs] at hnat
  exact ⟨hnat, hxy⟩

mutual

/-- **Values without floats can be split off.** -/
theorem Value.bytes_append_inj : ∀ {v w : Value} {x y : List UInt8}, v.floatFree = true →
    v.countable = true → w.countable = true → v.bytes ++ x = w.bytes ++ y → v = w ∧ x = y
  | v, w, x, y, hfree, hv, hw, h => by
    rw [Value.bytes_eq, Value.bytes_eq, List.append_assoc, List.append_assoc] at h
    obtain ⟨hkind, hcontent⟩ := wordBytes_append_inj h
    -- values of two kinds go with `hkind`
    cases v <;> cases w <;> simp [Value.kind] at hkind
    case bool.bool a b =>
      obtain ⟨hab, hxy⟩ := List.cons.inj hcontent
      have : a = b := by cases a <;> cases b <;> first | rfl | simp at hab
      exact ⟨congrArg Value.bool this, hxy⟩
    case int.int i j =>
      obtain ⟨hij, hxy⟩ := wordBytes_append_inj hcontent
      have := congrArg UInt64.toInt64 hij
      rw [Int64.toInt64_toUInt64, Int64.toInt64_toUInt64] at this
      exact ⟨congrArg Value.int this, hxy⟩
    case float.float => exact absurd hfree (by simp [Value.floatFree, Value.all, Value.isFloat])
    case str.str s t =>
      obtain ⟨hst, hxy⟩ := textBytes_append_inj hcontent
      exact ⟨congrArg Value.str hst, hxy⟩
    case record.record r s =>
      obtain ⟨hr, hrs⟩ := Record.countable_iff.1 hv
      obtain ⟨hs, hss⟩ := Record.countable_iff.1 hw
      simp only [Value.contentBytes, Record.bytes, List.append_assoc] at hcontent
      obtain ⟨hsize, hfields⟩ := Record.size_append_inj hr hs hcontent
      obtain ⟨heq, hxy⟩ := Record.fieldBytes_append_inj (Record.floatFree_iff.1 hfree) hrs hss
        hsize hfields
      exact ⟨congrArg Value.record heq, hxy⟩

/-- **Fields without floats can be split off** if it is known how many there are. -/
theorem Record.fieldBytes_append_inj : ∀ {r s : Record} {x y : List UInt8},
    (∀ f ∈ r.toList, f.2.floatFree = true) → (∀ f ∈ r.toList, f.2.countable = true) →
    (∀ f ∈ s.toList, f.2.countable = true) → r.size = s.size →
    r.fieldBytes ++ x = s.fieldBytes ++ y → r = s ∧ x = y
  | .empty, .empty, _, _, _, _, _, _, h => ⟨rfl, h⟩
  | .empty, .field n v s, _, _, _, _, _, hsize, _ => by
    rw [Record.size_field] at hsize
    exact absurd hsize (Nat.succ_ne_zero _).symm
  | .field n v r, .empty, _, _, _, _, _, hsize, _ => by
    rw [Record.size_field] at hsize
    exact absurd hsize (Nat.succ_ne_zero _)
  | .field n v r, .field m w s, x, y, hfree, hr, hs, hsize, h => by
    simp only [Record.toList, List.forall_mem_cons] at hfree hr hs
    simp only [Record.fieldBytes, List.append_assoc] at h
    rw [Record.size_field, Record.size_field, Nat.succ_inj] at hsize
    obtain ⟨hnm, hvalue⟩ := textBytes_append_inj h
    obtain ⟨hvw, hfields⟩ := Value.bytes_append_inj hfree.1 hr.1 hs.1 hvalue
    obtain ⟨hrs, hxy⟩ := Record.fieldBytes_append_inj hfree.2 hr.2 hs.2 hsize hfields
    exact ⟨by rw [hnm, hvw, hrs], hxy⟩

end

namespace Record

variable {r s : Record}

/-- Of two records without floats neither begins with the bytes of the other, unless they are
equal. -/
theorem eq_of_bytes_append_eq {x y : List UInt8} (hfree : r.floatFree = true)
    (hr : r.countable = true) (hs : s.countable = true) (h : r.bytes ++ x = s.bytes ++ y) :
    r = s := by
  have hrecord : (Value.record r).bytes ++ x = (Value.record s).bytes ++ y := by
    rw [Value.bytes_eq, Value.bytes_eq, List.append_assoc, List.append_assoc]
    exact congrArg (wordBytes 4 ++ ·) h
  exact Value.record.inj (Value.bytes_append_inj hfree hr hs hrecord).1

/-- **The bytes of a record without floats tell the record.** Let one of two records be without
floats, and let no record in them have more fields than a word can count. They are equal exactly if
their bytes are, and if they are not, neither has bytes that the other begins with. So if two such
records are different keys with one fingerprint, then the digest has a collision: two different
sequences of bytes that it does not tell apart. -/
theorem bytes_unambiguous (hfree : r.floatFree = true) (hr : r.countable = true)
    (hs : s.countable = true) :
    (r.bytes = s.bytes ↔ r = s) ∧ (r.same s = true ↔ r = s) ∧
    (r.bytes <+: s.bytes → r = s) ∧ (s.bytes <+: r.bytes → r = s) ∧
    ((Key.ofRecord r).same (Key.ofRecord s) = false →
      (Key.ofRecord r).fingerprint = (Key.ofRecord s).fingerprint →
      r.bytes ≠ s.bytes ∧ Digest.ofBytes r.bytes = Digest.ofBytes s.bytes) := by
  have htold : r.bytes = s.bytes → r = s := fun h =>
    eq_of_bytes_append_eq hfree hr hs (congrArg (· ++ []) h)
  have hsame : r.same s = true ↔ r = s :=
    ⟨fun h => htold (bytes_eq_of_same h), fun h => h ▸ equivalence_same.refl r⟩
  refine ⟨⟨htold, congrArg bytes⟩, hsame, ?_, ?_,
    fun hne hfingerprint => ⟨fun h => ?_, hfingerprint⟩⟩
  · rintro ⟨x, hx⟩
    exact eq_of_bytes_append_eq hfree hr hs (hx.trans (List.append_nil _).symm)
  · rintro ⟨x, hx⟩
    exact eq_of_bytes_append_eq hfree hr hs ((List.append_nil _).trans hx.symm)
  · rw [Key.same_iff.2 (hsame.2 (htold h))] at hne
    exact Bool.false_ne_true hne.symm

/-- Two records that differ only in which of two records a field stands: the one within or the one
around it. -/
theorem bytes_unambiguous_nested :
    let r := field "a" (.record (field "b" (.str "x") empty)) (field "c" (.str "") empty)
    let s := field "a" (.record (field "b" (.str "x") (field "c" (.str "") empty))) empty
    r.floatFree = true ∧ r.countable = true ∧ s.countable = true ∧
      r.bytes ≠ s.bytes ∧ ¬r.bytes <+: s.bytes ∧ ¬s.bytes <+: r.bytes := by
  intro r s
  have hfree : r.floatFree = true := by decide
  have hr : r.countable = true := by decide
  have hs : s.countable = true := by decide
  obtain ⟨hbytes, hsame, hrs, hsr, -⟩ := bytes_unambiguous hfree hr hs
  have hne : r ≠ s := fun h => absurd (hsame.2 h) (by decide)
  exact ⟨hfree, hr, hs, mt hbytes.1 hne, mt hrs hne, mt hsr hne⟩

end Record

/-- Two floats that are not equal and yet stand as one word. -/
example : (⟨1⟩ : Binary64).hashWord = (⟨0x8000000000001⟩ : Binary64).hashWord ∧
    (⟨1⟩ : Binary64).same ⟨0x8000000000001⟩ = false := by decide

end Muster
