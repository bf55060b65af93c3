import Muster.Proofs.Json.Grammar

/-!
# Proofs/Json/Skipping — what is read can be skipped

A reader that wants a string or a whole number stops, if it gets that far, where a reader stops that
skips one. So whoever looks at less can walk through an object wherever another one does
(`membersFrom_of_membersFrom`).
-/

namespace Muster.Json

variable {cs r : List Char}

theorem exists_of_map_eq_ok {ε α β : Type} {x : Except ε α} {f : α → β} {b : β}
    (h : x.map f = .ok b) : ∃ a, x = .ok a ∧ f a = b := by
  cases x with
  | error e => cases h
  | ok a => exact ⟨a, rfl, Except.ok.inj h⟩

/-! ## Strings -/

/-- A code of four digits is skipped. -/
theorem skipText_unit {n : Nat} (h : hexUnit cs = .ok n) :
    skipText ('\\' :: 'u' :: cs) = skipText (cs.drop 4) := by
  simp [skipText, skipEscape, h, Except.map]

/-- **A code point escape that is read is skipped**; one that takes two codes in two steps. -/
theorem skipText_of_unicodeEscape {c : Char} {n : Nat} (h : unicodeEscape cs = .ok (c, n)) :
    skipText ('\\' :: 'u' :: cs) = skipText (cs.drop (4 + n)) := by
  unfold unicodeEscape at h
  cases hunit : hexUnit cs with
  | error e =>
    rw [hunit] at h
    cases h
  | ok m =>
    rw [hunit] at h
    rw [skipText_unit hunit]
    dsimp only at h
    split at h
    · cases h
    split at h
    · split at h
      case h_3 more hmore =>
        cases hunit' : hexUnit more with
        | error e =>
          rw [hunit'] at h
          cases h
        | ok m' =>
          rw [hunit'] at h
          dsimp only at h
          split at h
          · obtain ⟨-, rfl⟩ := Prod.mk.inj (Except.ok.inj h)
            rw [hmore, skipText_unit hunit', ← List.drop_drop, hmore]
            rfl
          · cases h
      all_goals cases h
    · obtain ⟨-, rfl⟩ := Prod.mk.inj (Except.ok.inj h)
      rfl

/-- **An escape that is read is skipped.** -/
theorem skipText_of_unescape {c : Char} {n : Nat} (h : unescape cs = .ok (c, n)) :
    skipText ('\\' :: cs) = skipText (cs.drop n) := by
  unfold unescape at h
  split at h
  case h_10 ds =>
    obtain ⟨p, hcode, hp⟩ := exists_of_map_eq_ok h
    obtain ⟨-, rfl⟩ := Prod.mk.inj hp
    rw [skipText_of_unicodeEscape hcode, show 5 + p.2 = 4 + p.2 + 1 by omega, List.drop_succ_cons]
  case h_1 => cases h
  case h_11 => cases h
  all_goals
    obtain ⟨-, rfl⟩ := Prod.mk.inj (Except.ok.inj h)
    simp [skipText, skipEscape]

/-- **A string that is read is skipped.** -/
theorem skipText_of_readChars {out : List Char} (h : readChars cs = .ok (out, r)) :
    skipText cs = .ok r := by
  fun_induction readChars cs generalizing out with
  | case1 => cases h
  | case2 cs =>
    cases h
    rw [skipText]
  | case3 cs e he => cases h
  | case4 cs c n hc ih =>
    obtain ⟨p, hrest, hp⟩ := exists_of_map_eq_ok h
    obtain ⟨-, rfl⟩ := Prod.mk.inj hp
    rw [skipText_of_unescape hc, ih hrest]
  | case5 c cs => cases h
  | case6 c cs hquote hback hlow ih =>
    obtain ⟨p, hrest, hp⟩ := exists_of_map_eq_ok h
    obtain ⟨-, rfl⟩ := Prod.mk.inj hp
    rw [skipText, if_neg hlow, ih hrest]
    · exact hquote
    · exact hback

theorem skipText_of_readText {s : String} (h : readText cs = .ok (s, r)) :
    skipText cs = .ok r := by
  obtain ⟨p, hchars, hp⟩ := exists_of_map_eq_ok h
  obtain ⟨-, rfl⟩ := Prod.mk.inj hp
  exact skipText_of_readChars hchars

/-! ## Numbers -/

/-- What is taken into a word are digits. -/
theorem dropWhile_wordDigits : ∀ (value taken : Nat) (cs : List Char),
    (wordDigits value taken cs).2.2.dropWhile Char.isDigit = cs.dropWhile Char.isDigit
  | value, taken, [] => rfl
  | value, taken, c :: cs => by
    rw [wordDigits]
    split
    · rename_i h
      rw [dropWhile_wordDigits, List.dropWhile_cons_of_pos h.1]
    · rfl

/-- **What is read is no whole number.** -/
def IsReal (x : Except Failure (Number × List Char)) : Prop := ∀ i r, x ≠ .ok (.whole i, r)

theorem isReal_error (e : Failure) : IsReal (.error e) := fun _ _ h => by cases h

theorem isReal_realOf (negative : Bool) (value : Nat) (e : Int) (cs : List Char) :
    IsReal ((realOf negative value e).map (·, cs)) := by
  unfold realOf
  cases scaled (.ofNat value) e with
  | none => exact isReal_error _
  | some x => exact fun i r h => by cases h

theorem isReal_readExponent (negative : Bool) (value : Nat) (e : Int) (cs : List Char) :
    IsReal (readExponent negative value e cs) := by
  unfold readExponent
  split
  split
  · exact isReal_error _
  · dsimp only
    split
    · split
      · split
        · exact isReal_error _
        · exact fun i r h => by cases h
      · exact isReal_realOf _ _ _ _
    · exact isReal_error _

theorem isReal_readTail (negative : Bool) (value : Nat) (e : Int) (cs : List Char) :
    IsReal (readTail negative value e cs) := by
  unfold readTail
  split
  · exact isReal_readExponent _ _ _ _
  · exact isReal_readExponent _ _ _ _
  · exact isReal_realOf _ _ _ _

theorem isReal_readFraction (negative : Bool) (value : Nat) (e : Int) (cs : List Char) :
    IsReal (readFraction negative value e cs) := by
  unfold readFraction
  split
  split
  · exact isReal_readTail _ _ _ _
  split
  · exact isReal_error _
  · exact isReal_readTail _ _ _ _

/-- **A whole number that is read is skipped.** -/
theorem skipNumber_of_readNumber {negative : Bool} {i : Int}
    (h : readNumber negative cs = .ok (.whole i, r)) : skipNumber cs = .ok r := by
  unfold readNumber at h
  split at h
  · cases h
  rename_i c ds
  rw [skipNumber]
  split at h
  · cases h
  rw [if_neg ‹_›]
  split at h
  · rw [if_pos ‹_›, ← dropWhile_wordDigits 0 0]
    dsimp only at h
    split at h
    · exact absurd h (isReal_readFraction _ _ _ _ _ _)
    · exact absurd h (isReal_readExponent _ _ _ _ _ _)
    · exact absurd h (isReal_readExponent _ _ _ _ _ _)
    · rename_i hpoint hmark hmark'
      split at h
      · obtain ⟨-, rfl⟩ := Prod.mk.inj (Except.ok.inj h)
        generalize (wordDigits 0 0 (c :: ds)).2.2.dropWhile Char.isDigit = rest at *
        split
        · exact absurd rfl (hpoint _)
        · rw [skipTail]
          · exact hmark
          · exact hmark'
      · exact absurd h (isReal_realOf _ _ _ _ _ _)
  · cases h

/-! ## Objects -/

variable {σ τ : Type} {member : String → σ → List Char → Except Failure (σ × List Char)}
  {fuel : Nat} {first : Bool} {s s' : σ}

/-- **A member begins**: the text behind its opening quote, at the first member of an object or
behind a comma. -/
def Begins : (first : Bool) → List Char → List Char → Prop
  | true, cs, ds => skipBlank cs = '"' :: ds
  | false, cs, ds => ∃ r, skipBlank cs = ',' :: r ∧ skipBlank r = '"' :: ds

/-- A member from behind the quote of its name, and the members behind it. -/
def namedFrom (member : String → σ → List Char → Except Failure (σ × List Char)) (fuel : Nat)
    (s : σ) (ds : List Char) : Except Failure (σ × List Char) :=
  match readText ds with
  | .error e => .error e
  | .ok (name, ds) =>
    match member name s ds with
    | .error e => .error e
    | .ok (s, ds) => membersFrom member fuel false s ds

theorem namedFrom_eq_ok_iff {ds : List Char} : namedFrom member fuel s ds = .ok (s', r) ↔
    ∃ name ds' t ds'', readText ds = .ok (name, ds') ∧ member name s ds' = .ok (t, ds'') ∧
      membersFrom member fuel false t ds'' = .ok (s', r) := by
  unfold namedFrom
  cases hname : readText ds with
  | error e => simp
  | ok p =>
    obtain ⟨name, ds'⟩ := p
    cases hmember : member name s ds' with
    | error e => simp [hmember]
    | ok q =>
      obtain ⟨t, ds''⟩ := q
      simp [hmember]

/-- A walk goes on where a member begins. -/
theorem membersFrom_of_begins {ds : List Char} (h : Begins first cs ds) :
    membersFrom member (fuel + 1) first s cs = namedFrom member fuel s ds := by
  rw [membersFrom]
  cases first with
  | true =>
    rw [show skipBlank cs = _ from h]
    rfl
  | false =>
    obtain ⟨r, hcomma, hquote⟩ := h
    rw [hcomma]
    simp only [hquote]
    rfl

/-- **A walk that comes to its end** does so at the closing brace, or goes on with a member. -/
theorem closes_or_begins (h : membersFrom member (fuel + 1) first s cs = .ok (s', r)) :
    skipBlank cs = '\x7d' :: r ∧ s' = s ∨
      ∃ ds, Begins first cs ds ∧ namedFrom member fuel s ds = .ok (s', r) := by
  rw [membersFrom] at h
  split at h
  case h_2 heq =>
    cases h
    exact .inl ⟨heq, rfl⟩
  case h_3 heq =>
    cases first with
    | true => cases h
    | false =>
      simp only [Bool.false_eq_true, if_false] at h
      split at h
      case h_2 hquote => exact .inr ⟨_, ⟨_, heq, hquote⟩, h⟩
      all_goals cases h
  case h_4 heq =>
    cases first with
    | true => exact .inr ⟨_, heq, h⟩
    | false => cases h
  all_goals cases h

/-- **Where one reader walks through an object, another one does**, if it goes on wherever the first
one does, to the same place, and what they have gathered stays related. -/
theorem membersFrom_of_membersFrom {other : String → τ → List Char → Except Failure (τ × List Char)}
    {R : σ → τ → Prop}
    (hstep : ∀ {name : String} {s s' : σ} {t : τ} {cs r : List Char}, R s t →
      member name s cs = .ok (s', r) → ∃ t', other name t cs = .ok (t', r) ∧ R s' t') :
    ∀ {fuel : Nat} {first : Bool} {s : σ} {t : τ} {cs : List Char}, R s t →
      membersFrom member fuel first s cs = .ok (s', r) →
        ∃ t', membersFrom other fuel first t cs = .ok (t', r) ∧ R s' t'
  | 0, _, _, _, _, _, h => by cases h
  | fuel + 1, first, s, t, cs, hR, h => by
    obtain ⟨hclose, rfl⟩ | ⟨ds, hbegins, hnamed⟩ := closes_or_begins h
    · refine ⟨t, ?_, hR⟩
      rw [membersFrom, hclose]
      rfl
    · obtain ⟨name, ds', s₁, ds'', hname, hmember, hrest⟩ := namedFrom_eq_ok_iff.1 hnamed
      obtain ⟨t₁, hother, hR₁⟩ := hstep hR hmember
      obtain ⟨t', hwalk, hR'⟩ := membersFrom_of_membersFrom hstep hR₁ hrest
      refine ⟨t', ?_, hR'⟩
      rw [membersFrom_of_begins hbegins]
      exact namedFrom_eq_ok_iff.2 ⟨name, ds', t₁, ds'', hname, hother, hwalk⟩

end Muster.Json
