import Muster.Key

/-!
# Proofs/Sameness — equality of values is equality of canonical forms

Two values are the same when they agree up to the words of their floats. Replacing each float by
the representative of its value, at any depth, therefore turns sameness into plain equality
(`Value.same_iff_canonical`, `Record.same_iff_canonical`), and that sameness is an equivalence
comes for free.

* `Key.same_congr` — keys that are the same are the same as the same keys.
-/

namespace Muster

/-! ## Canonical forms -/

mutual

/-- The value with the representative of each float in it. -/
def Value.canonical : Value → Value
  | .float x => .float x.canonical
  | .record r => .record r.canonical
  | .bool b => .bool b
  | .int i => .int i
  | .str s => .str s

/-- The record with the representative of each float in it. -/
def Record.canonical : Record → Record
  | .empty => .empty
  | .field n v r => .field n v.canonical r.canonical

end

mutual

/-- **Values are the same when their canonical forms are equal.** -/
theorem Value.same_iff_canonical : ∀ v w : Value, v.same w = true ↔ v.canonical = w.canonical
  | .bool a, .bool b => by simp [Value.same, Value.canonical]
  | .int a, .int b => by simp [Value.same, Value.canonical]
  | .float a, .float b => by simp [Value.same, Value.canonical, Binary64.same_iff]
  | .str a, .str b => by simp [Value.same, Value.canonical]
  | .record r, .record s => by
    simp [Value.same, Value.canonical, Record.same_iff_canonical r s]
  | .bool _, .int _ | .bool _, .float _ | .bool _, .str _ | .bool _, .record _
  | .int _, .bool _ | .int _, .float _ | .int _, .str _ | .int _, .record _
  | .float _, .bool _ | .float _, .int _ | .float _, .str _ | .float _, .record _
  | .str _, .bool _ | .str _, .int _ | .str _, .float _ | .str _, .record _
  | .record _, .bool _ | .record _, .int _ | .record _, .float _ | .record _, .str _ => by
    simp [Value.same, Value.canonical]

/-- **Records are the same when their canonical forms are equal.** -/
theorem Record.same_iff_canonical : ∀ r s : Record, r.same s = true ↔ r.canonical = s.canonical
  | .empty, .empty => by simp [Record.same]
  | .empty, .field .. | .field .., .empty => by simp [Record.same, Record.canonical]
  | .field n v r, .field m w s => by
    simp [Record.same, Record.canonical, Value.same_iff_canonical v w,
      Record.same_iff_canonical r s, and_assoc]

end

/-! ## Keys -/

namespace Key

/-- Keys are the same when the canonical forms of their records are equal. -/
theorem same_iff_canonical {k l : Key} :
    k.same l = true ↔ k.record.canonical = l.record.canonical :=
  same_iff.trans (Record.same_iff_canonical _ _)

@[simp] theorem same_refl (k : Key) : k.same k = true := same_iff_canonical.2 rfl

theorem same_comm (k l : Key) : k.same l = l.same k := by
  rw [Bool.eq_iff_iff, same_iff_canonical, same_iff_canonical, eq_comm]

/-- **Keys that are the same are the same as the same keys.** -/
theorem same_congr {k l : Key} (h : k.same l = true) (m : Key) : k.same m = l.same m := by
  rw [Bool.eq_iff_iff, same_iff_canonical, same_iff_canonical, same_iff_canonical.1 h]

/-- Keys that are the same lie in one shard. -/
theorem fingerprint_eq_of_same {k l : Key} (h : k.same l = true) :
    k.fingerprint = l.fingerprint := by
  simp only [same, Bool.and_eq_true, decide_eq_true_eq] at h
  exact h.1

end Key

end Muster
