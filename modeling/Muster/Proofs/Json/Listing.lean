import Muster.Json.Walk
import Muster.Proofs.Json.Integers
import Muster.Proofs.Json.Spelling

/-!
# Proofs/Json/Listing — objects are read member by member

The text of an object lists its members between commas, with blanks wherever they may stand. Reading
it hands every member to a step, in order: if the step reads the value of a member wherever nothing
follows that could continue it, the walk comes to the fold of the members.

* `members_of_lists` — for a step that takes every member.
* `members_of_takes` — for one that refuses some of them, after what it has gathered.
-/

namespace Muster.Json

variable {α σ : Type} {spelt : α → List Char → Prop}

/-! ## Texts of objects -/

/-- **The text of a member**: a name, a colon and a value, and blanks before, between and behind
them. -/
inductive Member (spelt : α → List Char → Prop) : String × α → List Char → Prop
  | intro {name : String} {a : α} {before text between above value behind : List Char} :
    Blanks before → SpeltText name text → Blanks between → Blanks above → spelt a value →
    Blanks behind →
    Member spelt (name, a) (before ++ (text ++ (between ++ ':' :: (above ++ (value ++ behind)))))

/-- **The text of an object** that lists some members in their order. -/
def Lists (spelt : α → List Char → Prop) (fields : List (String × α)) (cs : List Char) : Prop :=
  ∃ blanks members, Blanks blanks ∧ List.Forall₂ (Member spelt) fields members ∧
    cs = '\x7b' :: (blanks ++ (List.intercalate [','] members ++ ['\x7d']))

/-- A member without blanks. -/
theorem Member.plain {name : String} {a : α} {value : List Char} (h : spelt a value) :
    Member spelt (name, a) (writeText name ++ ':' :: value) := by
  have hmember : Member spelt (name, a)
      ([] ++ (writeText name ++ ([] ++ ':' :: ([] ++ (value ++ []))))) :=
    .intro blanks_nil (spelt_writeText name) blanks_nil blanks_nil h blanks_nil
  simpa using hmember

/-- Members between commas: all but the first one have a comma in front. -/
theorem intercalate_cons (m : List Char) (ms : List (List Char)) :
    List.intercalate [','] (m :: ms) = m ++ ms.flatMap (',' :: ·) := by
  induction ms generalizing m with
  | nil => simp [List.intercalate]
  | cons m' ms ih =>
    have := ih m'
    simp only [List.intercalate] at this ⊢
    simp [List.intersperse, this]

/-! ## What cannot continue a value -/

theorem Blanks.stops {b cs : List Char} (hb : Blanks b) (hcs : Stops cs) : Stops (b ++ cs) := by
  cases b with
  | nil => exact hcs
  | cons c b =>
    rintro d ⟨⟩
    have hc := hb c List.mem_cons_self
    simp only [isBlank, Bool.or_eq_true, decide_eq_true_eq] at hc
    obtain ((rfl | rfl) | rfl) | rfl := hc <;> decide

theorem stops_comma (cs : List Char) : Stops (',' :: cs) := by
  rintro d ⟨⟩
  decide

theorem stops_brace (cs : List Char) : Stops ('\x7d' :: cs) := by
  rintro d ⟨⟩
  decide

theorem stops_members (ms : List (List Char)) (cs : List Char) :
    Stops (ms.flatMap (',' :: ·) ++ '\x7d' :: cs) := by
  cases ms with
  | nil => exact stops_brace cs
  | cons m ms => exact stops_comma _

/-! ## Reading -/

theorem colon_append {b : List Char} (hb : Blanks b) (cs : List Char) :
    colon (b ++ ':' :: cs) = .ok cs := by
  rw [colon, skipBlank_append hb, skipBlank_cons (by decide)]
  rfl

/-- **A step that reads values where it may**: it sets the member and leaves what stands behind its
value, unless what has been gathered does not allow the member. -/
def Takes (spelt : α → List Char → Prop)
    (member : String → σ → List Char → Except Failure (σ × List Char))
    (set : σ → String × α → Option σ) : Prop :=
  ∀ ⦃name : String⦄ ⦃a : α⦄ ⦃s s' : σ⦄ ⦃cs above value rest : List Char⦄,
    set s (name, a) = some s' → colon cs = .ok (above ++ (value ++ rest)) → Blanks above →
      spelt a value → Stops rest → member name s cs = .ok (s', rest)

/-- **A step that reads values**: it sets the member, and leaves what stands behind its value. -/
def Steps (spelt : α → List Char → Prop)
    (member : String → σ → List Char → Except Failure (σ × List Char))
    (set : σ → String × α → σ) : Prop :=
  ∀ ⦃name : String⦄ ⦃a : α⦄ ⦃s : σ⦄ ⦃cs above value rest : List Char⦄,
    colon cs = .ok (above ++ (value ++ rest)) → Blanks above → spelt a value → Stops rest →
      member name s cs = .ok (set s (name, a), rest)

variable {member : String → σ → List Char → Except Failure (σ × List Char)}
  {set : σ → String × α → Option σ}

theorem Steps.takes {set : σ → String × α → σ} (h : Steps spelt member set) :
    Takes spelt member fun s f => some (set s f) := by
  rintro name a s _ cs above value rest ⟨⟩
  exact @h name a s cs above value rest

/-- A member is read up to the blanks behind it. -/
theorem Member.read (htakes : Takes spelt member set) {f : String × α} {m tail : List Char}
    (hm : Member spelt f m) (htail : Stops tail) :
    ∃ r r' b, Blanks b ∧ skipBlank (m ++ tail) = '"' :: r ∧ readText r = .ok (f.1, r') ∧
      ∀ s s', set s f = some s' → member f.1 s r' = .ok (s', b ++ tail) := by
  obtain ⟨hbefore, htext, hbetween, habove, hvalue, hbehind⟩ := hm
  rename_i name a before text between above value behind
  obtain ⟨t, rfl, ht⟩ := readText_of_spelt htext
  refine ⟨_, between ++ ':' :: (above ++ (value ++ (behind ++ tail))), behind, hbehind, ?_, ht _,
    fun s s' hset => ?_⟩
  · simp only [List.append_assoc, List.cons_append]
    rw [skipBlank_append hbefore, skipBlank_cons (by decide)]
  · exact htakes hset (colon_append hbetween _) habove hvalue (hbehind.stops htail)

/-- **The members behind the first one**, up to the closing brace. -/
theorem membersFrom_rest (htakes : Takes spelt member set) (rest : List Char)
    {fields : List (String × α)} {ms : List (List Char)}
    (hms : List.Forall₂ (Member spelt) fields ms) :
    ∀ {fuel : Nat} {b : List Char} {s s' : σ}, fields.foldlM set s = some s' →
      fields.length < fuel → Blanks b →
      membersFrom member fuel false s (b ++ (ms.flatMap (',' :: ·) ++ '\x7d' :: rest)) =
        .ok (s', rest) := by
  induction hms with
  | nil =>
    intro fuel b s s' hset hfuel hb
    obtain ⟨fuel, rfl⟩ := Nat.exists_eq_succ_of_ne_zero (Nat.ne_of_gt hfuel)
    obtain rfl := Option.some.inj hset
    rw [membersFrom, skipBlank_append hb]
    rfl
  | @cons f m fields ms hm hms ih =>
    intro fuel b s s' hset hfuel hb
    obtain ⟨fuel, rfl⟩ := Nat.exists_eq_succ_of_ne_zero (Nat.ne_of_gt (Nat.zero_lt_of_lt hfuel))
    obtain ⟨s₁, hfirst, hmore⟩ := Option.bind_eq_some_iff.1 hset
    obtain ⟨r, r', b', hb', hskip, hread, hmember⟩ := hm.read htakes (stops_members ms rest)
    rw [membersFrom, skipBlank_append hb, List.flatMap_cons, List.cons_append, List.cons_append,
      skipBlank_cons (by decide), List.append_assoc]
    simp only [hskip, hread, hmember s s₁ hfirst, Bool.false_eq_true, if_false]
    exact ih hmore (Nat.lt_of_succ_lt_succ hfuel) hb'

/-- **All members**, from behind the opening brace. -/
theorem membersFrom_intercalate (htakes : Takes spelt member set) (rest : List Char)
    {fields : List (String × α)} {ms : List (List Char)}
    (hms : List.Forall₂ (Member spelt) fields ms) {fuel : Nat} {b : List Char} {s s' : σ}
    (hset : fields.foldlM set s = some s') (hfuel : fields.length < fuel) (hb : Blanks b) :
    membersFrom member fuel true s (b ++ (List.intercalate [','] ms ++ '\x7d' :: rest)) =
      .ok (s', rest) := by
  obtain ⟨fuel, rfl⟩ := Nat.exists_eq_succ_of_ne_zero (Nat.ne_of_gt (Nat.zero_lt_of_lt hfuel))
  cases hms with
  | nil =>
    obtain rfl := Option.some.inj hset
    rw [membersFrom, skipBlank_append hb]
    rfl
  | @cons f m fields ms hm hms =>
    obtain ⟨s₁, hfirst, hmore⟩ := Option.bind_eq_some_iff.1 hset
    obtain ⟨r, r', b', hb', hskip, hread, hmember⟩ := hm.read htakes (stops_members ms rest)
    rw [membersFrom, skipBlank_append hb, intercalate_cons, List.append_assoc]
    simp only [hskip, hread, hmember s s₁ hfirst, if_true]
    exact membersFrom_rest htakes rest hms hmore (Nat.lt_of_succ_lt_succ hfuel) hb'

/-- A text is as long as the things that it lists are many, if none of them is empty. -/
theorem length_le_intercalate {β : Type} {spelt : β → List Char → Prop} {fields : List β}
    {ms : List (List Char)} (hms : List.Forall₂ spelt fields ms)
    (hpos : ∀ {f m}, spelt f m → 0 < m.length) :
    fields.length ≤ (List.intercalate [','] ms).length := by
  have hlen : ∀ {fields : List β} {ms : List (List Char)}, List.Forall₂ spelt fields ms →
      fields.length ≤ (ms.flatMap (',' :: ·)).length := by
    intro fields ms hms
    induction hms with
    | nil => exact Nat.zero_le _
    | cons _ _ ih =>
      rw [List.flatMap_cons, List.length_append, List.length_cons, List.length_cons]
      omega
  cases hms with
  | nil => exact Nat.zero_le _
  | @cons f m fields ms hm hms =>
    have hrest := hlen hms
    have hm := hpos hm
    rw [intercalate_cons, List.length_append, List.length_cons]
    omega

theorem Member.length_pos {f : String × α} {m : List Char} (h : Member spelt f m) :
    0 < m.length := by
  cases h
  simp only [List.length_append, List.length_cons]
  omega

/-- **An object is read member by member**, whatever follows it, if every member may be taken. -/
theorem members_of_takes (htakes : Takes spelt member set) {fields : List (String × α)}
    {cs : List Char} (h : Lists spelt fields cs) :
    ∃ tail, cs = '\x7b' :: tail ∧
      ∀ {s s' : σ}, fields.foldlM set s = some s' → ∀ rest : List Char,
        members member s (tail ++ rest) = .ok (s', rest) := by
  obtain ⟨b, ms, hb, hms, rfl⟩ := h
  refine ⟨_, rfl, fun hset rest => ?_⟩
  have hlen := length_le_intercalate hms Member.length_pos
  rw [members, List.append_assoc, List.append_assoc, List.singleton_append]
  refine membersFrom_intercalate htakes rest hms hset ?_ hb
  simp only [List.length_append, List.length_cons]
  omega

/-- **An object is read member by member**, whatever follows it. -/
theorem members_of_lists {set : σ → String × α → σ} (hsteps : Steps spelt member set)
    {fields : List (String × α)} {cs : List Char} (h : Lists spelt fields cs) :
    ∃ tail, cs = '\x7b' :: tail ∧
      ∀ (s : σ) (rest : List Char), members member s (tail ++ rest) =
        .ok (fields.foldl set s, rest) := by
  obtain ⟨tail, rfl, hmembers⟩ := members_of_takes hsteps.takes h
  exact ⟨tail, rfl, fun s => hmembers List.foldlM_pure⟩

theorem finish_blanks (a : α) {b : List Char} (hb : Blanks b) :
    finish (a, b) = .ok a := by
  have hskip : skipBlank b = [] := by
    rw [← List.append_nil b, skipBlank_append hb]
    rfl
  rw [finish, hskip]
  rfl

end Muster.Json
