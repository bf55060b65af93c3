import Muster.Json.Skip
import Muster.Proofs.Json.Listing

/-!
# Proofs/Json/Grammar — whatever is well formed is skipped

The grammar of JSON, as a relation of its own (`WellFormed`): numbers of any size, strings with any
escapes, also with halves of surrogate pairs, lists and objects within one another to any depth, and
names that come again. A reader that skips a value takes exactly the value, and nothing behind it.

The key fact is that neither the allowance for depth nor the fuel of a walk runs out: each is the
length of a text, and every bracket, comma and brace takes a character of it
(`WellFormed.skips`).

* `skipValue_of_wellFormed` — a well-formed value is skipped, whatever follows.
-/

namespace Muster.Json

/-! ## The grammar -/

/-- **Some digits**, at least one. -/
def Digits (ds : List Char) : Prop := ds ≠ [] ∧ ∀ d ∈ ds, d.isDigit = true

theorem digits_singleton {d : Char} (hd : d.isDigit = true) : Digits [d] :=
  ⟨List.cons_ne_nil d [], List.forall_mem_singleton.2 hd⟩

/-- **The fraction of a number**, if it has one. -/
inductive Fraction : List Char → Prop
  | none : Fraction []
  | some {ds : List Char} : Digits ds → Fraction ('.' :: ds)

/-- **The exponent of a number**, if it has one. -/
inductive Exponent : List Char → Prop
  | none : Exponent []
  | some {mark : Char} {sign ds : List Char} : mark = 'e' ∨ mark = 'E' →
    sign = [] ∨ sign = ['+'] ∨ sign = ['-'] → Digits ds → Exponent (mark :: (sign ++ ds))

/-- **A number without sign.** No zero stands in front of other digits. -/
inductive Unsigned : List Char → Prop
  | intro {d : Char} {ds fraction exponent : List Char} : Digits (d :: ds) → (d = '0' → ds = []) →
    Fraction fraction → Exponent exponent → Unsigned (d :: (ds ++ (fraction ++ exponent)))

/-- **A piece of a string**: a character, or an escape, which may be half of a surrogate pair. -/
inductive Piece : List Char → Prop
  | plain {c : Char} : 32 ≤ c.toNat → c ≠ '"' → c ≠ '\\' → Piece [c]
  | letter {l : Char} : l ∈ letters.map Prod.fst → Piece ['\\', l]
  | code {a b c d : Char} : (∀ x ∈ [a, b, c, d], (hexValue? x).isSome = true) →
    Piece ['\\', 'u', a, b, c, d]

/-- **A string in its quotes.** -/
def Quoted (cs : List Char) : Prop :=
  ∃ pieces : List (List Char), (∀ p ∈ pieces, Piece p) ∧ cs = '"' :: (pieces.flatten ++ ['"'])

/-- **What a text can be**: a value, or the items of a list or the members of an object with what
closes them. -/
inductive Phrase
  | value | items | members

/-- **Well-formed texts.** -/
inductive WellFormed : Phrase → List Char → Prop
  | word {w : String} : w ∈ ["null", "true", "false"] → WellFormed .value w.toList
  | number {cs : List Char} : Unsigned cs → WellFormed .value cs
  | negative {cs : List Char} : Unsigned cs → WellFormed .value ('-' :: cs)
  | text {cs : List Char} : Quoted cs → WellFormed .value cs
  | emptyList {b : List Char} : Blanks b → WellFormed .value ('[' :: (b ++ [']']))
  | list {cs : List Char} : WellFormed .items cs → WellFormed .value ('[' :: cs)
  | emptyObject {b : List Char} : Blanks b → WellFormed .value ('\x7b' :: (b ++ ['\x7d']))
  | object {cs : List Char} : WellFormed .members cs → WellFormed .value ('\x7b' :: cs)
  | lastItem {before v behind : List Char} : Blanks before → WellFormed .value v → Blanks behind →
    WellFormed .items (before ++ (v ++ (behind ++ [']'])))
  | item {before v behind cs : List Char} : Blanks before → WellFormed .value v → Blanks behind →
    WellFormed .items cs → WellFormed .items (before ++ (v ++ (behind ++ ',' :: cs)))
  | lastMember {before name between above v behind : List Char} : Blanks before → Quoted name →
    Blanks between → Blanks above → WellFormed .value v → Blanks behind →
    WellFormed .members
      (before ++ (name ++ (between ++ ':' :: (above ++ (v ++ (behind ++ ['\x7d']))))))
  | member {before name between above v behind cs : List Char} : Blanks before → Quoted name →
    Blanks between → Blanks above → WellFormed .value v → Blanks behind → WellFormed .members cs →
    WellFormed .members
      (before ++ (name ++ (between ++ ':' :: (above ++ (v ++ (behind ++ ',' :: cs))))))

/-! ## Numbers -/

variable {cs ds rest : List Char}

theorem dropWhile_digits (hrest : startsWithDigit rest = false)
    (hds : ∀ d ∈ ds, d.isDigit = true) :
    (ds ++ rest).dropWhile Char.isDigit = rest := by
  rw [List.dropWhile_append_of_pos hds]
  cases rest with
  | nil => rfl
  | cons c rest => exact List.dropWhile_cons_of_neg (ne_true_of_eq_false hrest)

theorem Digits.starts (h : Digits ds) (cs : List Char) : startsWithDigit (ds ++ cs) = true := by
  obtain ⟨hne, hall⟩ := h
  cases ds with
  | nil => exact absurd rfl hne
  | cons d ds => exact hall d List.mem_cons_self

/-- An exponent, or what cannot continue a number, starts with no digit. -/
theorem Exponent.starts (h : Exponent cs) (hrest : Stops rest) :
    startsWithDigit (cs ++ rest) = false := by
  cases h with
  | none => exact hrest.startsWithDigit
  | some hmark _ _ => obtain rfl | rfl := hmark <;> rfl

theorem Fraction.starts {fraction : List Char} (h : Fraction fraction) (hcs : Exponent cs)
    (hrest : Stops rest) : startsWithDigit (fraction ++ (cs ++ rest)) = false := by
  cases h with
  | none => exact hcs.starts hrest
  | some _ => rfl

theorem skipTail_append (h : Exponent cs) (hrest : Stops rest) :
    skipTail (cs ++ rest) = .ok rest := by
  cases h with
  | none =>
    rw [List.nil_append]
    unfold skipTail
    split
    · exact absurd rfl (hrest 'e' rfl).2.2.1
    · exact absurd rfl (hrest 'E' rfl).2.2.2
    · rfl
  | @some mark sign ds hmark hsign hds =>
    have hskip : skipExponent (sign ++ ds ++ rest) = .ok rest := by
      have hdigits := hds.starts rest
      have hdrop := dropWhile_digits hrest.startsWithDigit hds.2
      obtain rfl | rfl | rfl := hsign
      · have hsign : ∀ c r, ds ++ rest = c :: r → c.isDigit = true := fun c r heq => by
          rwa [heq] at hdigits
        rw [List.nil_append, skipExponent, if_pos hdigits, hdrop]
        · exact fun r heq => absurd (hsign _ r heq) (by decide)
        · exact fun r heq => absurd (hsign _ r heq) (by decide)
      · simp [skipExponent, hdigits, hdrop]
      · simp [skipExponent, hdigits, hdrop]
    obtain rfl | rfl := hmark <;> exact hskip

/-- **A number is skipped**, if nothing follows that could continue it. -/
theorem skipNumber_append (h : Unsigned cs) (hrest : Stops rest) :
    skipNumber (cs ++ rest) = .ok rest := by
  obtain ⟨hds, hzero, hfraction, hexponent⟩ := h
  rename_i d ds fraction exponent
  have hstarts := hfraction.starts hexponent hrest
  have hdrop := dropWhile_digits hstarts hds.2
  have hlead : ¬(d = '0' ∧ startsWithDigit (ds ++ (fraction ++ (exponent ++ rest))) = true) := by
    rintro ⟨hd, hdigit⟩
    rw [hzero hd, List.nil_append, hstarts] at hdigit
    exact Bool.false_ne_true hdigit
  simp only [List.cons_append, List.append_assoc] at hdrop ⊢
  rw [skipNumber, if_neg hlead, if_pos (hds.2 d List.mem_cons_self), hdrop]
  have htail := skipTail_append hexponent hrest
  cases hfraction with
  | none =>
    rw [List.nil_append]
    split
    · rename_i r heq
      exfalso
      cases hexponent with
      | none =>
        rw [List.nil_append] at heq
        rw [heq] at hrest
        exact (hrest '.' rfl).2.1 rfl
      | some hmark _ _ =>
        rw [List.cons_append] at heq
        obtain ⟨rfl, -⟩ := List.cons.inj heq
        exact absurd hmark (by decide)
    · exact htail
  | @some es hes =>
    have hafter := dropWhile_digits (hexponent.starts hrest) hes.2
    simp only [List.cons_append, hes.starts, if_true, hafter, htail]

/-! ## Strings -/

theorem hexUnit_of_isSome {a b c d : Char}
    (h : ∀ x ∈ [a, b, c, d], (hexValue? x).isSome = true) (cs : List Char) :
    ∃ n, hexUnit (a :: b :: c :: d :: cs) = .ok n := by
  simp only [List.mem_cons, List.not_mem_nil, or_false, forall_eq_or_imp, forall_eq,
    Option.isSome_iff_exists] at h
  obtain ⟨⟨a', ha⟩, ⟨b', hb⟩, ⟨c', hc⟩, ⟨d', hd⟩⟩ := h
  exact ⟨((a' * 16 + b') * 16 + c') * 16 + d', by simp only [hexUnit, ha, hb, hc, hd]⟩

/-- **A piece of a string is skipped**, whatever follows. -/
theorem skipText_piece (h : Piece cs) (rest : List Char) :
    skipText (cs ++ rest) = skipText rest := by
  cases h with
  | plain hlow hquote hback =>
    rw [List.singleton_append, skipText, if_neg (Nat.not_lt.2 hlow)]
    · exact hquote
    · exact hback
  | letter hl =>
    simp only [letters, List.map_cons, List.map_nil, List.mem_cons, List.not_mem_nil,
      or_false] at hl
    obtain rfl | rfl | rfl | rfl | rfl | rfl | rfl | rfl := hl <;>
      simp [skipText, skipEscape]
  | code hall =>
    obtain ⟨n, hn⟩ := hexUnit_of_isSome hall rest
    simp [skipText, skipEscape, hn, Except.map]

theorem skipText_append (h : Quoted cs) : ∃ tail, cs = '"' :: tail ∧
    ∀ rest, skipText (tail ++ rest) = .ok rest := by
  obtain ⟨pieces, hpieces, rfl⟩ := h
  refine ⟨_, rfl, fun rest => ?_⟩
  induction pieces with
  | nil =>
    rw [List.flatten_nil, List.nil_append, List.singleton_append, skipText]
  | cons p pieces ih =>
    obtain ⟨hp, hpieces⟩ := List.forall_mem_cons.1 hpieces
    rw [List.flatten_cons, List.append_assoc, List.append_assoc, skipText_piece hp,
      ← List.append_assoc]
    exact ih hpieces

/-! ## Values -/

/-- Blanks in front of a value do not matter. -/
theorem skipNested_congr (h : skipBlank cs = skipBlank ds) (depth : Nat) :
    skipNested depth cs = skipNested depth ds := by
  unfold skipNested
  rw [h]

theorem skipNested_append {b : List Char} (hb : Blanks b) (depth : Nat) (cs : List Char) :
    skipNested depth (b ++ cs) = skipNested depth cs :=
  skipNested_congr (skipBlank_append hb cs) depth

theorem skipNested_skipBlank (depth : Nat) (cs : List Char) :
    skipNested depth (skipBlank cs) = skipNested depth cs := by
  have hb : Blanks (cs.takeWhile isBlank) := fun c hc => by
    simpa using List.all_eq_true.1 (List.all_takeWhile (p := isBlank) (l := cs)) c hc
  rw [← skipNested_append hb, skipBlank, List.takeWhile_append_dropWhile]

/-- **The first item of a list**: a value starts with nothing that closes the list or goes on in
it. -/
theorem itemsFrom_first {depth : Nat} {r : List Char} (h : skipNested depth cs = .ok r)
    (fuel : Nat) :
    itemsFrom (skipNested depth) (fuel + 1) true cs =
      itemsFrom (skipNested depth) fuel false r := by
  rw [itemsFrom]
  split
  · rename_i heq
    rw [skipNested, heq] at h
    cases h
  · rename_i heq
    rw [skipNested, heq] at h
    cases h
  · rename_i heq
    rw [skipNested, heq] at h
    cases h
  · rw [if_pos rfl, skipNested_skipBlank, h]

theorem skipNested_word {w : String} (hw : w ∈ ["null", "true", "false"]) (depth : Nat)
    (rest : List Char) : skipNested depth (w.toList ++ rest) = .ok rest := by
  simp only [List.mem_cons, List.not_mem_nil, or_false] at hw
  obtain rfl | rfl | rfl := hw
  · show skipNested depth ('n' :: ("ull".toList ++ rest)) = _
    rw [skipNested]
    exact literal_append _ _
  · show skipNested depth ('t' :: ("rue".toList ++ rest)) = _
    rw [skipNested]
    exact literal_append _ _
  · show skipNested depth ('f' :: ("alse".toList ++ rest)) = _
    rw [skipNested]
    exact literal_append _ _

theorem skipNested_digit {d : Char} (hd : d.isDigit = true) (h : skipBlank cs = d :: ds)
    (depth : Nat) : skipNested depth cs = skipNumber (d :: ds) := by
  rw [skipNested, h]
  split
  case h_9 heq =>
    cases heq
    exact if_pos hd
  all_goals
    rename_i heq
    cases heq <;> exact absurd hd (by decide)

theorem skipNested_number (h : Unsigned cs) (hrest : Stops rest) (depth : Nat) :
    skipNested depth (cs ++ rest) = .ok rest := by
  have hskip := skipNumber_append h hrest
  obtain ⟨hds, -, -, -⟩ := h
  rename_i d ds fraction exponent
  have hd := hds.2 d List.mem_cons_self
  rw [List.cons_append] at hskip ⊢
  rw [skipNested_digit hd (skipBlank_cons (isBlank_of_isDigit hd) _), hskip]

/-- **What skipping a phrase comes to**, whatever follows. The items of a list and the members of an
object are skipped from the first one on, and from behind its value as long as there is fuel. -/
def Skips (depth : Nat) (rest : List Char) : Phrase → List Char → Prop
  | .value, cs => Stops rest → skipNested depth (cs ++ rest) = .ok rest
  | .items, cs => ∃ r, skipNested depth (cs ++ rest) = .ok r ∧
    ∀ fuel, cs.length ≤ fuel → itemsFrom (skipNested depth) fuel false r = .ok rest
  | .members, cs => ∃ t r r' r'', skipBlank (cs ++ rest) = '"' :: t ∧ skipText t = .ok r ∧
    colon r = .ok r' ∧ skipNested depth r' = .ok r'' ∧
    ∀ fuel, cs.length ≤ fuel → skipMembers (skipNested depth) fuel false r'' = .ok rest

/-- A member of an object is skipped up to what stands behind its value. -/
theorem skip_member {depth : Nat} {before name between above v tail : List Char}
    (hbefore : Blanks before) (hname : Quoted name) (hbetween : Blanks between)
    (habove : Blanks above) (hv : skipNested depth (v ++ tail) = .ok tail) :
    ∃ t r r',
      skipBlank (before ++ (name ++ (between ++ ':' :: (above ++ (v ++ tail))))) = '"' :: t ∧
      skipText t = .ok r ∧ colon r = .ok r' ∧ skipNested depth r' = .ok tail := by
  obtain ⟨t, rfl, htext⟩ := skipText_append hname
  refine ⟨_, _, above ++ (v ++ tail), ?_, htext _, colon_append hbetween _, ?_⟩
  · rw [skipBlank_append hbefore, List.cons_append, skipBlank_cons (by decide)]
  · rw [skipNested_append habove, hv]

theorem stops_bracket (cs : List Char) : Stops (']' :: cs) := by
  rintro d ⟨⟩
  decide

/-- **A list behind its bracket**, from its first item on. -/
theorem skipNested_list {depth : Nat} (h : Skips depth rest .items cs) :
    skipNested (depth + 1) ('[' :: cs ++ rest) = .ok rest := by
  obtain ⟨r, hfirst, hmore⟩ := h
  show items (skipNested depth) (cs ++ rest) = .ok rest
  rw [items, itemsFrom_first hfirst]
  exact hmore _ (by simp)

/-- **An object behind its brace**, from its first member on. -/
theorem skipNested_object {depth : Nat} (h : Skips depth rest .members cs) :
    skipNested (depth + 1) ('\x7b' :: cs ++ rest) = .ok rest := by
  obtain ⟨t, r, r', r'', hstart, hname, hcolon, hvalue, hmore⟩ := h
  show skipMembers (skipNested depth) ((cs ++ rest).length + 1) true (cs ++ rest) = .ok rest
  rw [skipMembers, hstart]
  simp only [if_true, hname, hcolon, hvalue]
  exact hmore _ (by simp)

/-- **Whatever is well formed is skipped**: a text is longer than anything that stands in it, so
that neither depth nor fuel runs out. -/
theorem WellFormed.skips {p : Phrase} (h : WellFormed p cs) :
    ∀ (depth : Nat) (rest : List Char), cs.length ≤ depth → Skips depth rest p cs := by
  induction h with
  | word hw => exact fun depth rest _ _ => skipNested_word hw depth rest
  | number h => exact fun depth rest _ hrest => skipNested_number h hrest depth
  | negative h =>
    intro depth rest _ hrest
    rw [List.cons_append, skipNested]
    exact skipNumber_append h hrest
  | text h =>
    intro depth rest _ _
    obtain ⟨tail, rfl, htext⟩ := skipText_append h
    rw [List.cons_append, skipNested]
    exact htext rest
  | @emptyList b hb =>
    intro depth rest hdepth _
    obtain ⟨depth, rfl⟩ := Nat.exists_eq_succ_of_ne_zero (Nat.ne_of_gt (Nat.zero_lt_of_lt hdepth))
    show items (skipNested depth) (b ++ [']'] ++ rest) = .ok rest
    rw [items, itemsFrom, List.append_assoc, skipBlank_append hb]
    rfl
  | list _ ih =>
    intro depth rest hdepth _
    obtain ⟨depth, rfl⟩ := Nat.exists_eq_succ_of_ne_zero (Nat.ne_of_gt (Nat.zero_lt_of_lt hdepth))
    exact skipNested_list (ih depth rest (Nat.le_of_succ_le_succ hdepth))
  | @emptyObject b hb =>
    intro depth rest hdepth _
    obtain ⟨depth, rfl⟩ := Nat.exists_eq_succ_of_ne_zero (Nat.ne_of_gt (Nat.zero_lt_of_lt hdepth))
    show skipMembers (skipNested depth) _ true (b ++ ['\x7d'] ++ rest) = .ok rest
    rw [skipMembers, List.append_assoc, skipBlank_append hb]
    rfl
  | object _ ih =>
    intro depth rest hdepth _
    obtain ⟨depth, rfl⟩ := Nat.exists_eq_succ_of_ne_zero (Nat.ne_of_gt (Nat.zero_lt_of_lt hdepth))
    exact skipNested_object (ih depth rest (Nat.le_of_succ_le_succ hdepth))
  | @lastItem before v behind hbefore _ hbehind ih =>
    intro depth rest hdepth
    simp only [List.length_append, List.length_cons] at hdepth
    refine ⟨behind ++ ']' :: rest, ?_, fun fuel hfuel => ?_⟩
    · have hvalue := ih depth (behind ++ ']' :: rest) (by omega)
        (hbehind.stops (stops_bracket rest))
      simpa [skipNested_append hbefore] using hvalue
    · simp only [List.length_append, List.length_cons] at hfuel
      obtain ⟨fuel, rfl⟩ : ∃ n, fuel = n + 1 := Nat.exists_eq_succ_of_ne_zero (by omega)
      rw [itemsFrom, skipBlank_append hbehind]
      rfl
  | @item before v behind cs hbefore _ hbehind _ ih ihs =>
    intro depth rest hdepth
    simp only [List.length_append, List.length_cons] at hdepth
    obtain ⟨r, hnext, hmore⟩ := ihs depth rest (by omega)
    refine ⟨behind ++ ',' :: (cs ++ rest), ?_, fun fuel hfuel => ?_⟩
    · have hvalue := ih depth (behind ++ ',' :: (cs ++ rest)) (by omega)
        (hbehind.stops (stops_comma _))
      simpa [skipNested_append hbefore] using hvalue
    · simp only [List.length_append, List.length_cons] at hfuel
      obtain ⟨fuel, rfl⟩ : ∃ n, fuel = n + 1 := Nat.exists_eq_succ_of_ne_zero (by omega)
      rw [itemsFrom, skipBlank_append hbehind, skipBlank_cons (by decide)]
      simp only [Bool.false_eq_true, if_false, hnext]
      exact hmore fuel (by omega)
  | @lastMember before name between above v behind hbefore hname hbetween habove _ hbehind ih =>
    intro depth rest hdepth
    simp only [List.length_append, List.length_cons] at hdepth
    have hvalue := ih depth (behind ++ '\x7d' :: rest) (by omega)
      (hbehind.stops (stops_brace rest))
    obtain ⟨t, r, r', hstart, hread⟩ := skip_member hbefore hname hbetween habove hvalue
    refine ⟨t, r, r', _, by simpa using hstart, hread.1, hread.2.1, hread.2.2, fun fuel hfuel => ?_⟩
    simp only [List.length_append, List.length_cons] at hfuel
    obtain ⟨fuel, rfl⟩ : ∃ n, fuel = n + 1 := Nat.exists_eq_succ_of_ne_zero (by omega)
    rw [skipMembers, skipBlank_append hbehind]
    rfl
  | @member before name between above v behind cs hbefore hname hbetween habove _ hbehind _ ih
      ihs =>
    intro depth rest hdepth
    simp only [List.length_append, List.length_cons] at hdepth
    have hvalue := ih depth (behind ++ ',' :: (cs ++ rest)) (by omega)
      (hbehind.stops (stops_comma _))
    obtain ⟨t, r, r', hstart, hread⟩ := skip_member hbefore hname hbetween habove hvalue
    refine ⟨t, r, r', _, by simpa using hstart, hread.1, hread.2.1, hread.2.2, fun fuel hfuel => ?_⟩
    simp only [List.length_append, List.length_cons] at hfuel
    obtain ⟨fuel, rfl⟩ : ∃ n, fuel = n + 1 := Nat.exists_eq_succ_of_ne_zero (by omega)
    obtain ⟨t', s, s', s'', hstart', hname', hcolon', hvalue', hmore⟩ := ihs depth rest (by omega)
    rw [skipMembers, skipBlank_append hbehind, skipBlank_cons (by decide)]
    simp only [Bool.false_eq_true, if_false, hstart', hname', hcolon', hvalue']
    exact hmore fuel (by omega)

/-- **A well-formed value is skipped**, with the blanks in front of it and nothing behind it. -/
theorem skipValue_of_wellFormed (h : WellFormed .value cs) {b : List Char} (hb : Blanks b)
    (hrest : Stops rest) : skipValue (b ++ (cs ++ rest)) = .ok rest := by
  rw [skipValue, skipNested_append hb]
  refine h.skips _ rest ?_ hrest
  simp only [List.length_append]
  omega

end Muster.Json
