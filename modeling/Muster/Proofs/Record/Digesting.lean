import Muster.Census.Basic
import Muster.Proofs.Sameness

/-!
# Proofs/Record/Digesting — what is equal is digested alike

Equality of records is that of their canonical forms, so it is an equivalence; the bytes of a record
are those of its canonical form, so equal records have one digest. A key can therefore be compared
by its fingerprint first and lies in one shard with all keys that are equal to it
(`Record.digested_alike`).

* `Binary64.same_iff_words` — which words of 64 bits are one number.
* `Key.sameOrShared_eq` — looking first whether two keys share their record changes no answer.
-/

namespace Muster

/-! ## Doubles -/

namespace Binary64

variable {x y : Binary64}

theorem canonical_of_isNaN (h : x.isNaN = true) : x.canonical = ⟨0x7ff8000000000000⟩ := if_pos h

/-- The representative of a number is the positive zero if the number is zero, else itself. -/
theorem canonical_of_not_isNaN (h : x.isNaN = false) :
    x.canonical = if x.isZero then ⟨0⟩ else x := by
  rw [canonical, h, if_neg Bool.false_ne_true]

theorem isNaN_canonical (x : Binary64) : x.canonical.isNaN = x.isNaN := by
  cases hnan : x.isNaN with
  | true =>
    rw [canonical_of_isNaN hnan]
    decide
  | false =>
    rw [canonical_of_not_isNaN hnan]
    split
    · decide
    · exact hnan

/-- Numbers have one representative if they are one word or both zero. -/
theorem canonical_eq_iff_of_not_isNaN (hx : x.isNaN = false) (hy : y.isNaN = false) :
    x.canonical = y.canonical ↔ x = y ∨ x.isZero = true ∧ y.isZero = true := by
  have hzero : ∀ z : Binary64, z.isZero = false → z ≠ ⟨0⟩ := by
    rintro z hz rfl
    exact absurd hz (by decide)
  have hne : x.isZero ≠ y.isZero → x ≠ y := fun h heq => h (heq ▸ rfl)
  rw [canonical_of_not_isNaN hx, canonical_of_not_isNaN hy]
  cases hzx : x.isZero <;> cases hzy : y.isZero
  · simp
  · simp [hzero x hzx, hne (by simp [hzx, hzy])]
  · simp [(hzero y hzy).symm, hne (by simp [hzx, hzy])]
  · simp

/-- **Which words are one number**: all that are not a number at all, both zeros, and else each word
only itself. -/
theorem same_iff_words : x.same y = true ↔
    x.isNaN = true ∧ y.isNaN = true ∨
      x.isNaN = false ∧ y.isNaN = false ∧ (x = y ∨ x.isZero = true ∧ y.isZero = true) := by
  rw [same_iff]
  by_cases hnan : x.isNaN = y.isNaN
  · cases hx : x.isNaN with
    | true =>
      have hy : y.isNaN = true := hnan ▸ hx
      simp [canonical_of_isNaN hx, canonical_of_isNaN hy, hy]
    | false =>
      have hy : y.isNaN = false := hnan ▸ hx
      simp [canonical_eq_iff_of_not_isNaN hx hy, hy]
  · refine iff_of_false (fun h => hnan ?_) ?_
    · rw [← isNaN_canonical x, h, isNaN_canonical]
    · rintro (⟨hx, hy⟩ | ⟨hx, hy, -⟩) <;> exact hnan (hx.trans hy.symm)

end Binary64

/-! ## Records -/

/-- **Equality of records is an equivalence.** -/
theorem Record.equivalence_same : Equivalence fun r s : Record => r.same s = true where
  refl r := (same_iff_canonical r r).2 rfl
  symm h := (same_iff_canonical _ _).2 ((same_iff_canonical _ _).1 h).symm
  trans hrs hst := (same_iff_canonical _ _).2
    (((same_iff_canonical _ _).1 hrs).trans ((same_iff_canonical _ _).1 hst))

/-- Equal records have the same bytes. -/
theorem Record.bytes_eq_of_same {r s : Record} (h : r.same s = true) : r.bytes = s.bytes := by
  rw [bytes, bytes, size_eq_of_same h, fieldBytes_eq_of_same h]

/-! ## Keys -/

namespace Key

variable {k l : Key}

/-- **Are two keys equal**, when it is known whether they share one record in memory? Only keys with
one fingerprint are looked at further, and only those that share no record field by field. -/
def sameOrShared (shared : Bool) (k l : Key) : Bool :=
  k.fingerprint = l.fingerprint && (shared || k.record.same l.record)

/-- **Sharing a record saves a comparison** and changes no answer. -/
theorem sameOrShared_eq {shared : Bool} (h : shared = true → k.record = l.record) :
    sameOrShared shared k l = k.same l := by
  cases shared with
  | false => rfl
  | true =>
    have hsame : k.record.same l.record = true := h rfl ▸ Record.equivalence_same.refl k.record
    rw [sameOrShared, same, hsame, Bool.true_or]

theorem digest_eq_of_same (h : k.same l = true) : k.digest = l.digest := by
  rw [digest, digest, fingerprint_eq_of_same h]

/-- **Equal keys lie in one shard**, however many there are. -/
theorem slot_eq_of_same (h : k.same l = true) (c : Census) : c.slot k = c.slot l := by
  rw [Census.slot, Census.slot, fingerprint_eq_of_same h]

end Key

/-- **What is equal is digested alike.** Equality of records, in which all words that are not a
number count as one, and both zeros, is an equivalence. Equal records have the same bytes and so the
same digest. Two keys, which are compared by their fingerprints first and by their records only if
they do not share one, are therefore equal exactly if their records are; and keys with equal records
have one fingerprint, are digested alike and lie in one shard, however many shards there are. -/
theorem Record.digested_alike :
    (∀ x y : Binary64, (Value.float x).same (.float y) = true ↔
      x.isNaN = true ∧ y.isNaN = true ∨
        x.isNaN = false ∧ y.isNaN = false ∧ (x = y ∨ x.isZero = true ∧ y.isZero = true)) ∧
    (Equivalence fun r s : Record => r.same s = true) ∧
    (∀ r s : Record, r.same s = true → r.bytes = s.bytes ∧ r.digest = s.digest) ∧
    (∀ (k l : Key) (shared : Bool), (shared = true → k.record = l.record) →
      (k.sameOrShared shared l = true ↔ k.record.same l.record = true)) ∧
    ∀ k l : Key, k.record.same l.record = true →
      k.fingerprint = l.fingerprint ∧ k.digest = l.digest ∧ ∀ c : Census, c.slot k = c.slot l := by
  refine ⟨fun x y => Binary64.same_iff_words, equivalence_same, fun r s h => ?_,
    fun k l shared h => ?_, fun k l h => ?_⟩
  · exact ⟨bytes_eq_of_same h, digest_eq_of_same h⟩
  · rw [Key.sameOrShared_eq h, Key.same_iff]
  · have hkl : k.same l = true := Key.same_iff.2 h
    exact ⟨Key.fingerprint_eq_of_same hkl, Key.digest_eq_of_same hkl, Key.slot_eq_of_same hkl⟩

/-- Two records that are equal although no word of theirs is: both zeros, and two words that are not
a number, one level down. -/
theorem Record.digested_alike_zeros :
    let r := field "x" (.float (.zero true))
      (field "r" (.record (field "y" (.float ⟨0x7ff0000000000001⟩) empty)) empty)
    let s := field "x" (.float (.zero false))
      (field "r" (.record (field "y" (.float ⟨0xfff8000000000000⟩) empty)) empty)
    let k := Key.ofRecord r
    let l := Key.ofRecord s
    r.same s = true ∧ r.bytes = s.bytes ∧ r.digest = s.digest ∧
      k.sameOrShared false l = true ∧ k.sameOrShared true k = true ∧
      ∀ c : Census, c.slot k = c.slot l := by
  intro r s k l
  have hsame : r.same s = true := by decide
  obtain ⟨-, hequal, hbytes, hkeys, hslots⟩ := digested_alike
  refine ⟨hsame, (hbytes r s hsame).1, (hbytes r s hsame).2, ?_, ?_, (hslots k l hsame).2.2⟩
  · exact (hkeys k l false fun h => absurd h Bool.false_ne_true).2 hsame
  · exact (hkeys k k true fun _ => rfl).2 (hequal.refl r)

end Muster
