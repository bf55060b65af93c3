import Muster.Config.Json
import Muster.Proofs.Json.Skipping

/-!
# Proofs/Config/Values — the values of a configuration's fields

A field is read from any text of its value (`Draft.readField_of_spelt`). In the other direction,
whatever is read as the value of a field can be skipped as well, and then ends in the same place
(`skipValue_of_readField`): a reader that takes a value takes no more than one.
-/

namespace Muster

open Json

namespace Config

variable {cs r rest b : List Char}

/-! ## Lists of strings -/

/-- A string among blanks. -/
def Item (s : String) (m : List Char) : Prop :=
  ∃ before text behind, Blanks before ∧ SpeltText s text ∧ Blanks behind ∧
    m = before ++ (text ++ behind)

/-- **The texts of a list of strings**, each of them spelt in any way, with blanks where they may
stand. -/
def SpeltTexts (ss : List String) (cs : List Char) : Prop :=
  ∃ blanks ms, Blanks blanks ∧ List.Forall₂ Item ss ms ∧
    cs = '[' :: (blanks ++ (List.intercalate [','] ms ++ [']']))

/-- A string is read up to the blanks behind it. -/
theorem Item.read {s : String} {m : List Char} (h : Item s m) (tail : List Char) :
    ∃ r b, Blanks b ∧ skipBlank (m ++ tail) = '"' :: r ∧
      readString ('"' :: r) = .ok (s, b ++ tail) := by
  obtain ⟨before, text, behind, hbefore, htext, hbehind, rfl⟩ := h
  obtain ⟨t, rfl, ht⟩ := readText_of_spelt htext
  refine ⟨t ++ (behind ++ tail), behind, hbehind, ?_, ht _⟩
  simp only [List.append_assoc, List.cons_append]
  rw [skipBlank_append hbefore, skipBlank_cons (by decide)]

theorem Item.length_pos {s : String} {m : List Char} (h : Item s m) : 0 < m.length := by
  obtain ⟨before, text, behind, -, ⟨parts, -, rfl⟩, -, rfl⟩ := h
  simp only [List.length_append, List.length_cons]
  omega

/-- A string, and the strings behind it. -/
def stringFrom (fuel : Nat) (cs : List Char) : Except Failure (List String × List Char) :=
  match readString cs with
  | .error e => .error e
  | .ok (s, r) => (readStringsFrom fuel false r).map fun ss => (s :: ss.1, ss.2)

theorem readStringsFrom_first (fuel : Nat) (h : skipBlank cs = '"' :: r) :
    readStringsFrom (fuel + 1) true cs = stringFrom fuel ('"' :: r) := by
  rw [readStringsFrom, h]
  rfl

theorem readStringsFrom_comma (fuel : Nat) (h : skipBlank cs = ',' :: r)
    {r' : List Char} (h' : skipBlank r = '"' :: r') :
    readStringsFrom (fuel + 1) false cs = stringFrom fuel ('"' :: r') := by
  rw [readStringsFrom, h]
  simp only [Bool.false_eq_true, if_false, h']
  rfl

/-- **The strings behind the first one**, up to the closing bracket. -/
theorem readStringsFrom_rest (rest : List Char) {ss : List String} {ms : List (List Char)}
    (hms : List.Forall₂ Item ss ms) : ∀ {fuel : Nat} {b : List Char}, ss.length < fuel → Blanks b →
      readStringsFrom fuel false (b ++ (ms.flatMap (',' :: ·) ++ ']' :: rest)) =
        .ok (ss, rest) := by
  induction hms with
  | nil =>
    intro fuel b hfuel hb
    obtain ⟨fuel, rfl⟩ := Nat.exists_eq_succ_of_ne_zero (Nat.ne_of_gt hfuel)
    rw [readStringsFrom, skipBlank_append hb]
    rfl
  | @cons s m ss ms hm hms ih =>
    intro fuel b hfuel hb
    obtain ⟨fuel, rfl⟩ := Nat.exists_eq_succ_of_ne_zero (Nat.ne_of_gt (Nat.zero_lt_of_lt hfuel))
    obtain ⟨r, b', hb', hskip, hread⟩ := hm.read (ms.flatMap (',' :: ·) ++ ']' :: rest)
    have hcomma : skipBlank (b ++ ((m :: ms).flatMap (',' :: ·) ++ ']' :: rest)) =
        ',' :: (m ++ (ms.flatMap (',' :: ·) ++ ']' :: rest)) := by
      rw [skipBlank_append hb, List.flatMap_cons, List.cons_append, List.cons_append,
        skipBlank_cons (by decide), List.append_assoc]
    rw [readStringsFrom_comma fuel hcomma hskip, stringFrom, hread]
    simp only [ih (Nat.lt_of_succ_lt_succ hfuel) hb', Except.map]

/-- **A list of strings is read** however it is spelt. -/
theorem readStrings_of_spelt {ss : List String} (h : SpeltTexts ss cs) (hb : Blanks b)
    (rest : List Char) : readStrings (b ++ (cs ++ rest)) = .ok (ss, rest) := by
  obtain ⟨blanks, ms, hblanks, hms, rfl⟩ := h
  rw [readStrings, skipBlank_append hb, List.cons_append, skipBlank_cons (by decide)]
  have hlen := length_le_intercalate hms Item.length_pos
  simp only [List.append_assoc, List.singleton_append]
  cases hms with
  | nil =>
    rw [readStringsFrom, skipBlank_append hblanks]
    rfl
  | @cons s m ss ms hm hms =>
    obtain ⟨r, b', hb', hskip, hread⟩ := hm.read (ms.flatMap (',' :: ·) ++ ']' :: rest)
    rw [intercalate_cons] at hlen ⊢
    rw [List.append_assoc, readStringsFrom_first _ ((skipBlank_append hblanks _).trans hskip),
      stringFrom, hread]
    simp only [List.length_append, List.length_cons] at hlen ⊢
    rw [readStringsFrom_rest rest hms (by omega) hb']
    rfl

/-! ## Numbers and booleans -/

/-- **An integer between the bounds is read** as it is written. -/
theorem readWhole_of_spelt {expected : String} {low high i : Int} (hlow : low ≤ i)
    (hhigh : i ≤ high) (hmin : -2 ^ 63 ≤ i) (hmax : i < 2 ^ 64) (hb : Blanks b)
    (hrest : Stops rest) :
    readWhole expected low high (b ++ ((toString i).toList ++ rest)) = .ok (i, rest) := by
  have hread := readNumber_toDigits (n := i.natAbs) (by omega) (decide (i < 0)) hrest
  rw [wholeOf_natAbs hmin] at hread
  rw [readWhole, skipBlank_append hb, toList_toString_int]
  obtain ⟨d, ds, hds, hd⟩ := exists_toDigits_eq_cons i.natAbs
  by_cases hneg : i < 0
  · rw [decide_eq_true hneg] at hread
    rw [if_pos hneg, List.append_assoc, List.singleton_append, skipBlank_cons (by decide)]
    simp only [hread, hlow, hhigh, and_self, if_true]
  · rw [decide_eq_false hneg] at hread
    rw [if_neg hneg, List.nil_append]
    rw [hds, List.cons_append] at hread ⊢
    rw [skipBlank_cons (isBlank_of_isDigit hd)]
    split
    · rename_i heq
      cases heq
    · rename_i heq
      cases heq
      exact absurd hd (by decide)
    · rename_i heq
      cases heq
      simp only [hd, hread, hlow, hhigh, and_self, if_true]

theorem readWord_of_spelt (expected : String) (w : UInt64) (hb : Blanks b) (hrest : Stops rest) :
    readWord expected (b ++ ((toString w.toNat).toList ++ rest)) = .ok (w, rest) := by
  have hlt := w.toNat_lt
  have hread : readWhole expected 0 (2 ^ 64 - 1) (b ++ ((toString w.toNat).toList ++ rest)) =
      .ok ((w.toNat : Int), rest) :=
    readWhole_of_spelt (i := w.toNat) (by omega) (by omega) (by omega) (by omega) hb hrest
  rw [readWord, hread]
  simp [Except.map]

theorem readSigned_of_spelt (i : Int64) (hb : Blanks b) (hrest : Stops rest) :
    readSigned (b ++ ((toString i.toInt).toList ++ rest)) = .ok (i, rest) := by
  have hlow := i.le_toInt
  have hhigh := i.toInt_lt
  rw [readSigned, readWhole_of_spelt hlow (by omega) hlow (by omega) hb hrest]
  simp [Except.map]

theorem readBool_of_spelt (x : Bool) (hb : Blanks b) (rest : List Char) :
    readBool (b ++ ((boolWord x).toList ++ rest)) = .ok (x, rest) := by
  rw [readBool, skipBlank_append hb]
  cases x with
  | true =>
    have hrest : literal "rue".toList ("rue".toList ++ rest) = .ok rest := literal_append _ _
    exact congrArg (Except.map _) hrest
  | false =>
    have hrest : literal "alse".toList ("alse".toList ++ rest) = .ok rest := literal_append _ _
    exact congrArg (Except.map _) hrest

/-! ## Fields -/

/-- **The texts of the value of a field.** Only a list of strings has more than one. -/
def SpeltField (c : Config) : ConfigField → List Char → Prop
  | .keyFields, cs => SpeltTexts c.keyFields cs
  | f, cs => cs = (c.writeField f).toList

/-- The draft with the value of a field. -/
def Draft.fill (c : Config) (d : Draft) : ConfigField → Draft
  | .keyFields => { d with keyFields := some c.keyFields }
  | .withCount => { d with withCount := some c.withCount }
  | .retainOthers => { d with retainOthers := some c.retainOthers }
  | .maxTypes => { d with maxTypes := some c.maxTypes }
  | .pruneThreshold => { d with pruneThreshold := some c.pruneThreshold }
  | .checkpointInterval => { d with checkpointInterval := some c.checkpointInterval }
  | .shards => { d with shards := some c.shards }

/-- **A field is read** from any text of its value. -/
theorem Draft.readField_of_spelt {c : Config} {f : ConfigField} (h : c.SpeltField f cs) (d : Draft)
    (hb : Blanks b) (hrest : Stops rest) :
    d.readField f (b ++ (cs ++ rest)) = .ok (d.fill c f, rest) := by
  cases f with
  | keyFields => rw [readField, readStrings_of_spelt h hb]; rfl
  | withCount =>
    obtain rfl := h
    rw [readField, writeField, readBool_of_spelt _ hb]; rfl
  | retainOthers =>
    obtain rfl := h
    rw [readField, writeField, readBool_of_spelt _ hb]; rfl
  | maxTypes =>
    obtain rfl := h
    rw [readField, writeField, readSigned_of_spelt _ hb hrest]; rfl
  | pruneThreshold =>
    obtain rfl := h
    rw [readField, writeField, readWord_of_spelt _ _ hb hrest]; rfl
  | checkpointInterval =>
    obtain rfl := h
    rw [readField, writeField, readWord_of_spelt _ _ hb hrest]; rfl
  | shards =>
    obtain rfl := h
    rw [readField, writeField, readWord_of_spelt _ _ hb hrest]; rfl

/-! ## What is read is skipped -/

/-- What is refused is not read. -/
theorem refuse_ne_ok {α : Type} {expected : String} {a : α} :
    (refuse expected cs : Except Failure α) ≠ .ok a := by
  rw [refuse]
  exact fun h => by cases h

theorem skipNested_of_readBool {x : Bool} (h : readBool cs = .ok (x, r)) (depth : Nat) :
    skipNested depth cs = .ok r := by
  unfold readBool at h
  rw [skipNested]
  split at h
  case h_2 heq =>
    obtain ⟨r', hword, hp⟩ := exists_of_map_eq_ok h
    obtain ⟨-, rfl⟩ := Prod.mk.inj hp
    rw [heq]
    exact hword
  case h_3 heq =>
    obtain ⟨r', hword, hp⟩ := exists_of_map_eq_ok h
    obtain ⟨-, rfl⟩ := Prod.mk.inj hp
    rw [heq]
    exact hword
  case h_1 => cases h
  case h_4 => exact absurd h refuse_ne_ok

theorem skipNested_of_readWhole {expected : String} {low high i : Int}
    (h : readWhole expected low high cs = .ok (i, r)) (depth : Nat) :
    skipNested depth cs = .ok r := by
  obtain ⟨negative, ds, hread, hskip⟩ : ∃ negative ds,
      readNumber negative ds = .ok (.whole i, r) ∧ skipNested depth cs = skipNumber ds := by
    dsimp only [readWhole] at h
    repeat' split at h
    all_goals cases h
    -- a whole number was read, after a sign or from the digit there
    · rename_i heq _ _ hread
      refine ⟨true, _, hread, ?_⟩
      rw [skipNested, heq]
      rfl
    · rename_i heq hdigit _ _ hread
      exact ⟨false, _, hread, skipNested_digit hdigit heq depth⟩
  rw [hskip]
  exact skipNumber_of_readNumber hread

theorem skipNested_of_readString {s : String} (h : readString cs = .ok (s, r)) (depth : Nat) :
    skipNested depth cs = .ok r := by
  unfold readString at h
  split at h
  case h_1 => cases h
  case h_2 heq =>
    rw [skipNested, heq]
    exact skipText_of_readText h
  case h_3 => exact absurd h refuse_ne_ok

theorem stringFrom_eq_ok {fuel : Nat} {ss : List String} (h : stringFrom fuel cs = .ok (ss, r)) :
    ∃ s r' ss', readString cs = .ok (s, r') ∧ readStringsFrom fuel false r' = .ok (ss', r) := by
  unfold stringFrom at h
  split at h
  · cases h
  · rename_i s r' hread
    obtain ⟨p, hrest, hp⟩ := exists_of_map_eq_ok h
    obtain ⟨-, rfl⟩ := Prod.mk.inj hp
    exact ⟨s, r', p.1, hread, hrest⟩

/-- **Strings that are read are items that are skipped.** -/
theorem itemsFrom_of_readStringsFrom (depth : Nat) : ∀ {fuel : Nat} {first : Bool}
    {ss : List String} {cs : List Char}, readStringsFrom fuel first cs = .ok (ss, r) →
      itemsFrom (skipNested depth) fuel first cs = .ok r
  | 0, _, _, _, h => by cases h
  | fuel + 1, first, ss, cs, h => by
    have hmore : ∀ ds : List Char, stringFrom fuel ds = .ok (ss, r) →
        ∃ r', skipNested depth ds = .ok r' ∧
          itemsFrom (skipNested depth) fuel false r' = .ok r := by
      intro ds hds
      obtain ⟨s, r', ss', hread, hrest⟩ := stringFrom_eq_ok hds
      exact ⟨r', skipNested_of_readString hread depth, itemsFrom_of_readStringsFrom depth hrest⟩
    rw [readStringsFrom] at h
    split at h
    case h_1 => cases h
    case h_2 heq =>
      cases h
      rw [itemsFrom, heq]
      rfl
    case h_3 ds heq =>
      cases first with
      | true =>
        obtain ⟨r', hskip, -⟩ := hmore (',' :: ds) h
        rw [skipNested] at hskip
        cases hskip
      | false =>
        simp only [Bool.false_eq_true, if_false] at h
        split at h
        · cases h
        · obtain ⟨r', hskip, hrest⟩ := hmore _ h
          rw [skipNested_skipBlank] at hskip
          rw [itemsFrom, heq]
          simp only [Bool.false_eq_true, if_false, hskip, hrest]
    case h_4 =>
      cases first with
      | true =>
        obtain ⟨r', hskip, hrest⟩ := hmore _ h
        rw [skipNested_skipBlank] at hskip
        rw [itemsFrom_first hskip, hrest]
      | false => cases h

theorem skipValue_of_readStrings {ss : List String} (h : readStrings cs = .ok (ss, r)) :
    skipValue cs = .ok r := by
  unfold readStrings at h
  split at h
  case h_1 => cases h
  case h_2 ds heq =>
    obtain ⟨depth, hdepth⟩ : ∃ depth, cs.length = depth + 1 := by
      refine Nat.exists_eq_succ_of_ne_zero fun hnil => ?_
      rw [List.length_eq_zero_iff.1 hnil] at heq
      cases heq
    rw [skipValue, hdepth, skipNested, heq]
    exact itemsFrom_of_readStringsFrom depth h
  case h_3 => exact absurd h refuse_ne_ok

theorem skipValue_of_readWord {expected : String} {w : UInt64}
    (h : readWord expected cs = .ok (w, r)) : skipValue cs = .ok r := by
  obtain ⟨p, hread, hp⟩ := exists_of_map_eq_ok h
  obtain ⟨-, rfl⟩ := Prod.mk.inj hp
  exact skipNested_of_readWhole hread _

theorem skipValue_of_readSigned {i : Int64} (h : readSigned cs = .ok (i, r)) :
    skipValue cs = .ok r := by
  obtain ⟨p, hread, hp⟩ := exists_of_map_eq_ok h
  obtain ⟨-, rfl⟩ := Prod.mk.inj hp
  exact skipNested_of_readWhole hread _

/-- **Whatever is read as the value of a field is skipped**, and what has been read gives that field
and no other one. -/
theorem skipValue_of_readField {d d' : Draft} {f : ConfigField}
    (h : d.readField f cs = .ok (d', r)) :
    skipValue cs = .ok r ∧ ∀ f', d'.has f' = (d.has f' || decide (f' = f)) := by
  cases f <;> rw [Draft.readField] at h <;> obtain ⟨p, hread, hp⟩ := exists_of_map_eq_ok h <;>
    obtain ⟨rfl, rfl⟩ := Prod.mk.inj hp
  case keyFields => exact ⟨skipValue_of_readStrings hread, by rintro ⟨⟩ <;> simp [Draft.has]⟩
  case withCount => exact ⟨skipNested_of_readBool hread _, by rintro ⟨⟩ <;> simp [Draft.has]⟩
  case retainOthers => exact ⟨skipNested_of_readBool hread _, by rintro ⟨⟩ <;> simp [Draft.has]⟩
  case maxTypes => exact ⟨skipValue_of_readSigned hread, by rintro ⟨⟩ <;> simp [Draft.has]⟩
  all_goals exact ⟨skipValue_of_readWord hread, by rintro ⟨⟩ <;> simp [Draft.has]⟩

end Config

end Muster
