import Muster.Json.Number

/-!
# Proofs/Json/Integers — integers are read as they are written

An integer has one spelling: its digits, without zeros in front, behind a sign if it is negative.
The reader gathers digits into a word as long as they fit; those of a number below `2 ^ 64` all fit,
because the number is the largest of the values that it passes through.

* `readNumber_toDigits` — the digits of a number are read as that number.
* `toList_toString_int`, `wholeOf_natAbs` — an integer is a sign and digits, and comes back from
  them.
-/

namespace Muster.Json

/-- **What cannot continue a number**: a text that starts with no digit, point or mark of an
exponent. -/
def Stops (cs : List Char) : Prop :=
  ∀ c ∈ cs.head?, c.isDigit = false ∧ c ≠ '.' ∧ c ≠ 'e' ∧ c ≠ 'E'

theorem Stops.startsWithDigit {cs : List Char} (h : Stops cs) : startsWithDigit cs = false := by
  cases cs with
  | nil => rfl
  | cons c cs => exact (h c rfl).1

/-! ## Digits -/

/-- Reading on makes a value no smaller. -/
theorem le_ofDigitChars (ds : List Char) (value : Nat) : value ≤ Nat.ofDigitChars 10 ds value := by
  rw [Nat.ofDigitChars_eq_ofDigitChars_zero]
  have : value ≤ 10 ^ ds.length * value := Nat.le_mul_of_pos_left _ (Nat.pow_pos (by decide))
  omega

/-- **Digits whose value fits into a word** are all taken. -/
theorem wordDigits_append {rest : List Char} (hrest : startsWithDigit rest = false) :
    ∀ {ds : List Char} {value : Nat} (taken : Nat), (∀ c ∈ ds, c.isDigit = true) →
      Nat.ofDigitChars 10 ds value < 2 ^ 64 →
      wordDigits value taken (ds ++ rest) =
        (Nat.ofDigitChars 10 ds value, taken + ds.length, rest)
  | [], value, taken, _, _ => by
    cases rest with
    | nil => rfl
    | cons c rest =>
      have hc : c.isDigit = false := hrest
      simp [wordDigits, hc]
  | d :: ds, value, taken, hds, hlt => by
    obtain ⟨hd, hds⟩ := List.forall_mem_cons.1 hds
    rw [Nat.ofDigitChars_cons] at hlt ⊢
    have hvalue : value * 10 + digitValue d = 10 * value + (d.toNat - '0'.toNat) := by
      rw [digitValue, Nat.mul_comm]
    have hfits : value * 10 + digitValue d < 2 ^ 64 :=
      hvalue ▸ Nat.lt_of_le_of_lt (le_ofDigitChars ds _) hlt
    rw [List.cons_append, wordDigits, if_pos ⟨hd, hfits⟩, hvalue,
      wordDigits_append hrest (taken + 1) hds hlt, List.length_cons, Nat.add_assoc, Nat.add_comm 1]

/-- No zero stands in front of the digits of a number that is not zero. -/
theorem head?_toDigits_ne_zero (n : Nat) (hn : 0 < n) : (Nat.toDigits 10 n).head? ≠ some '0' := by
  by_cases hlt : n < 10
  · rw [Nat.toDigits_of_lt_base hlt]
    have : ∀ k, k < 10 → 0 < k → [Nat.digitChar k].head? ≠ some '0' := by decide
    exact this n hlt hn
  · have hle := Nat.not_lt.1 hlt
    rw [Nat.toDigits_of_base_le (by decide) hle, List.head?_append]
    have ih := head?_toDigits_ne_zero (n / 10) (Nat.div_pos hle (by decide))
    cases hhead : (Nat.toDigits 10 (n / 10)).head? with
    | none => exact absurd (List.head?_eq_none_iff.1 hhead) Nat.toDigits_ne_nil
    | some d => rwa [hhead] at ih
termination_by n

/-- The digits of a number start with a digit. -/
theorem exists_toDigits_eq_cons (n : Nat) :
    ∃ d ds, Nat.toDigits 10 n = d :: ds ∧ d.isDigit = true := by
  obtain ⟨d, ds, hds⟩ := List.exists_cons_of_ne_nil (Nat.toDigits_ne_nil (n := n) (b := 10))
  exact ⟨d, ds, hds, Nat.isDigit_of_mem_toDigits (b := 10) (n := n) (by decide) (by decide)
    (hds ▸ List.mem_cons_self)⟩

/-- **A number with at least one digit** in front of what cannot continue it, where nothing is spilt
and no zero stands in front. -/
theorem readNumber_append {negative : Bool} {d : Char} {ds rest : List Char}
    (hzero : d = '0' → ds = []) (hds : ∀ c ∈ d :: ds, c.isDigit = true)
    (hlt : Nat.ofDigitChars 10 (d :: ds) 0 < 2 ^ 64) (hrest : Stops rest) :
    readNumber negative (d :: ds ++ rest) =
      .ok (wholeOf negative (Nat.ofDigitChars 10 (d :: ds) 0), rest) := by
  have hlead : ¬(d = '0' ∧ startsWithDigit (ds ++ rest) = true) := by
    rintro ⟨hd, hstarts⟩
    rw [hzero hd, List.nil_append, hrest.startsWithDigit] at hstarts
    exact Bool.false_ne_true hstarts
  have hword := wordDigits_append hrest.startsWithDigit 0 hds hlt
  have hkeep : rest.takeWhile Char.isDigit = [] ∧ rest.dropWhile Char.isDigit = rest := by
    cases rest with
    | nil => exact ⟨rfl, rfl⟩
    | cons c rest => simp [(hrest c rfl).1]
  rw [List.cons_append] at hword ⊢
  rw [readNumber, if_neg hlead, if_pos (hds d List.mem_cons_self), hword]
  simp only [hkeep, List.length_nil, if_true]
  split
  · exact absurd rfl (hrest '.' rfl).2.1
  · exact absurd rfl (hrest 'e' rfl).2.2.1
  · exact absurd rfl (hrest 'E' rfl).2.2.2
  · rfl

/-- **The digits of a number** that fits into a word are read as that number. -/
theorem readNumber_toDigits {n : Nat} (hn : n < 2 ^ 64) (negative : Bool) {rest : List Char}
    (hrest : Stops rest) :
    readNumber negative (Nat.toDigits 10 n ++ rest) = .ok (wholeOf negative n, rest) := by
  have hdigits : ∀ c ∈ Nat.toDigits 10 n, c.isDigit = true := fun c hc =>
    Nat.isDigit_of_mem_toDigits (by decide) (by decide) hc
  have hvalue : Nat.ofDigitChars 10 (Nat.toDigits 10 n) 0 = n := Nat.ofDigitChars_ten_toDigits
  have hlead := head?_toDigits_ne_zero n
  obtain ⟨d, ds, hds⟩ := List.exists_cons_of_ne_nil (Nat.toDigits_ne_nil (n := n) (b := 10))
  rw [hds] at hdigits hvalue hlead ⊢
  have hzero : d = '0' → ds = [] := fun hd => by
    obtain rfl : n = 0 := Nat.eq_zero_of_not_pos fun hpos => hlead hpos (by rw [hd]; rfl)
    rw [Nat.toDigits_zero] at hds
    exact (List.cons.inj hds).2.symm
  rw [readNumber_append hzero hdigits (by rwa [hvalue]) hrest, hvalue]

/-! ## Signs -/

/-- An integer in decimal. -/
theorem toList_toString_int (i : Int) :
    (toString i).toList = (if i < 0 then ['-'] else []) ++ Nat.toDigits 10 i.natAbs := by
  cases i with
  | ofNat n => simp [toString, Int.repr, Nat.repr]
  | negSucc n => simp [toString, Int.repr, Nat.repr]

/-- **An integer of the range of signed words**, or above, from its sign and its digits. -/
theorem wholeOf_natAbs {i : Int} (hlow : -2 ^ 63 ≤ i) :
    wholeOf (decide (i < 0)) i.natAbs = .whole i := by
  by_cases hneg : i < 0
  · rw [wholeOf, if_pos (decide_eq_true hneg), if_neg (by omega)]
    congr 1
    omega
  · rw [wholeOf, if_neg (by simp [hneg])]
    congr 1
    omega

end Muster.Json
