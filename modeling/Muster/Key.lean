import Muster.Digest.Stream
import Muster.Record.Display

/-!
# Key — the identity of a group

A key is a record of key fields together with its digest, the fingerprint, which is computed once.
The fingerprint decides where a key is kept and rules most keys out when two are compared.

* `Key.same_iff` — comparing fingerprints first changes no answer.
-/

namespace Muster

/-- **The identity of a group.** -/
structure Key where
  record : Record
  fingerprint : UInt64
  /-- The fingerprint is that of the record. -/
  fingerprint_eq : fingerprint = record.digest

namespace Key

/-- A record as a key. -/
def ofRecord (r : Record) : Key := ⟨r, r.digest, rfl⟩

instance : Inhabited Key := ⟨ofRecord default⟩

/-- **The key of a record**: its projection onto the key fields, without those that it lacks. -/
def project (fields : List String) (r : Record) : Key := ofRecord (r.project fields)

/-- Are two keys equal? -/
def same (k l : Key) : Bool := k.fingerprint = l.fingerprint && k.record.same l.record

/-- **Two keys are equal when their records are.** -/
theorem same_iff {k l : Key} : k.same l = true ↔ k.record.same l.record = true := by
  constructor
  · intro h
    simp only [same, Bool.and_eq_true] at h
    exact h.2
  · intro h
    simp [same, h, k.fingerprint_eq, l.fingerprint_eq, Record.digest_eq_of_same h]

/-- The digest of a key, which covers its fingerprint alone. -/
def digest (k : Key) : UInt64 := Digest.ofBytes (Digest.wordBytes k.fingerprint)

/-- A key shown to people: its record. -/
def display (k : Key) : String := k.record.display

/-- A key with the kinds of its values. -/
def dump (k : Key) : String := "GroupKey(" ++ String.ofList k.record.dumped ++ ")"

end Key

end Muster
