import Mathlib.Data.List.Forall2
import Muster.Json.Text

/-!
# Proofs/Json/Spelling — all ways to write a string

A character of a string may stand for itself, be written by a letter behind a backslash, or by its
code in four hexadecimal digits, of which a character beyond the basic plane takes two.

* `readText_of_spelt` — however a string is spelt, it is read as itself.
* `spelt_writeText` — what is written is one of the spellings.
-/

namespace Muster.Json

/-! ## Blanks and literals -/

/-- **A text of blanks.** -/
def Blanks (cs : List Char) : Prop := ∀ c ∈ cs, isBlank c = true

theorem blanks_nil : Blanks [] := fun _ h => absurd h List.not_mem_nil

theorem skipBlank_append {b : List Char} (h : Blanks b) (cs : List Char) :
    skipBlank (b ++ cs) = skipBlank cs := List.dropWhile_append_of_pos h

theorem skipBlank_cons {c : Char} (h : isBlank c = false) (cs : List Char) :
    skipBlank (c :: cs) = c :: cs := List.dropWhile_cons_of_neg (by simp [h])

theorem isBlank_of_isDigit {d : Char} (hd : d.isDigit = true) : isBlank d = false := by
  rw [← Bool.not_eq_true]
  intro hblank
  simp only [isBlank, Bool.or_eq_true, decide_eq_true_eq] at hblank
  obtain ((rfl | rfl) | rfl) | rfl := hblank <;> exact absurd hd (by decide)

theorem literal_append (word cs : List Char) : literal word (word ++ cs) = .ok cs := by
  induction word with
  | nil => rw [List.nil_append, literal]
  | cons w word ih => rw [List.cons_append, literal, if_pos rfl, ih]

/-! ## Spellings -/

/-- **Four hexadecimal digits of a number**, each of either case. -/
def Coded (n : Nat) (ds : List Char) : Prop :=
  n < 0x10000 ∧ List.Forall₂ (fun k d => d = hexDigit k ∨ d = (hexDigit k).toUpper)
    [n / 0x1000, n / 0x100 % 16, n / 0x10 % 16, n % 16] ds

/-- The characters that have a letter, behind that letter. -/
def letters : List (Char × Char) :=
  [('"', '"'), ('\\', '\\'), ('/', '/'), ('b', '\x08'), ('f', '\x0c'), ('n', '\n'), ('r', '\r'),
    ('t', '\t')]

/-- **The spellings of a character** in a string. -/
inductive Spelt : Char → List Char → Prop
  /-- as it is, unless it is a control or one of the two quoting characters -/
  | plain {c : Char} : 32 ≤ c.toNat → c ≠ '"' → c ≠ '\\' → Spelt c [c]
  | letter {l c : Char} : (l, c) ∈ letters → Spelt c ['\\', l]
  | code {c : Char} {ds : List Char} : Coded c.toNat ds → Spelt c ('\\' :: 'u' :: ds)
  /-- by a pair of surrogates, if it is beyond the basic plane -/
  | pair {c : Char} {ds es : List Char} : 0x10000 ≤ c.toNat →
    Coded (0xD800 + (c.toNat - 0x10000) / 0x400) ds →
    Coded (0xDC00 + (c.toNat - 0x10000) % 0x400) es →
    Spelt c ('\\' :: 'u' :: (ds ++ '\\' :: 'u' :: es))

/-- **The spellings of a string**, in its quotes. -/
def SpeltText (s : String) (cs : List Char) : Prop :=
  ∃ parts, List.Forall₂ Spelt s.toList parts ∧ cs = '"' :: (parts.flatten ++ ['"'])

/-! ## Reading -/

theorem hexValue?_hexDigit : ∀ k, k < 16 →
    hexValue? (hexDigit k) = some k ∧ hexValue? (hexDigit k).toUpper = some k := by decide

/-- **Four digits of a number** are read as that number, whatever follows. -/
theorem hexUnit_of_coded {n : Nat} {ds : List Char} (h : Coded n ds) (cs : List Char) :
    hexUnit (ds ++ cs) = .ok n ∧ (ds ++ cs).drop 4 = cs := by
  obtain ⟨hn, hds⟩ := h
  have hvalue : ∀ {k d}, k < 16 → d = hexDigit k ∨ d = (hexDigit k).toUpper →
      hexValue? d = some k := by
    rintro k d hk (rfl | rfl)
    · exact (hexValue?_hexDigit k hk).1
    · exact (hexValue?_hexDigit k hk).2
  cases hds with | cons ha hds =>
  cases hds with | cons hb hds =>
  cases hds with | cons hc hds =>
  cases hds with | cons hd hds =>
  cases hds
  have hsum : ((n / 0x1000 * 16 + n / 0x100 % 16) * 16 + n / 0x10 % 16) * 16 + n % 16 = n := by
    omega
  simp only [List.cons_append, List.nil_append, hexUnit, hvalue (by omega) ha,
    hvalue (by omega) hb, hvalue (by omega) hc, hvalue (by omega) hd, hsum, List.drop_succ_cons,
    List.drop_zero, and_self]

theorem unescape_of_mem_letters {l c : Char} (h : (l, c) ∈ letters) (cs : List Char) :
    unescape (l :: cs) = .ok (c, 1) := by
  simp only [letters, List.mem_cons, Prod.mk.injEq, List.not_mem_nil, or_false] at h
  obtain ⟨rfl, rfl⟩ | ⟨rfl, rfl⟩ | ⟨rfl, rfl⟩ | ⟨rfl, rfl⟩ | ⟨rfl, rfl⟩ | ⟨rfl, rfl⟩ |
    ⟨rfl, rfl⟩ | ⟨rfl, rfl⟩ := h <;> rfl

/-- No character has the code of half a pair. -/
theorem not_surrogate (c : Char) :
    isLeadingSurrogate c.toNat = false ∧ isTrailingSurrogate c.toNat = false := by
  have hvalid : c.toNat < 0xD800 ∨ 0xDFFF < c.toNat ∧ c.toNat < 0x110000 := c.valid
  simp only [isLeadingSurrogate, isTrailingSurrogate, Bool.and_eq_false_iff,
    decide_eq_false_iff_not]
  omega

theorem unicodeEscape_of_coded {c : Char} {ds : List Char} (h : Coded c.toNat ds)
    (cs : List Char) : unicodeEscape (ds ++ cs) = .ok (c, 0) := by
  obtain ⟨hlead, htrail⟩ := not_surrogate c
  rw [unicodeEscape, (hexUnit_of_coded h cs).1]
  simp [hlead, htrail]

theorem unicodeEscape_of_pair {c : Char} {ds es : List Char} (hc : 0x10000 ≤ c.toNat)
    (hds : Coded (0xD800 + (c.toNat - 0x10000) / 0x400) ds)
    (hes : Coded (0xDC00 + (c.toNat - 0x10000) % 0x400) es) (cs : List Char) :
    unicodeEscape (ds ++ '\\' :: 'u' :: (es ++ cs)) = .ok (c, 6) := by
  have hlt : c.toNat < 0xD800 ∨ 0xDFFF < c.toNat ∧ c.toNat < 0x110000 := c.valid
  obtain ⟨hlead, hrest⟩ := hexUnit_of_coded hds ('\\' :: 'u' :: (es ++ cs))
  obtain ⟨htrail, -⟩ := hexUnit_of_coded hes cs
  -- the two halves of the pair, and the character that they make
  generalize hn : 0xD800 + (c.toNat - 0x10000) / 0x400 = n at hlead
  generalize hm : 0xDC00 + (c.toNat - 0x10000) % 0x400 = m at htrail
  have hleading : isTrailingSurrogate n = false ∧ isLeadingSurrogate n = true := by
    simp only [isLeadingSurrogate, isTrailingSurrogate, Bool.and_eq_false_iff,
      decide_eq_false_iff_not, Bool.and_eq_true, decide_eq_true_eq]
    omega
  have htrailing : isTrailingSurrogate m = true := by
    simp only [isTrailingSurrogate, Bool.and_eq_true, decide_eq_true_eq]
    omega
  have hchar : ofSurrogates n m = c := by
    rw [ofSurrogates, show (n - 0xD800) * 0x400 + (m - 0xDC00) + 0x10000 = c.toNat by omega,
      Char.ofNat_toNat]
  simp [unicodeEscape, hlead, hleading, hrest, htrail, htrailing, hchar]

theorem readChars_plain {c : Char} (hlow : 32 ≤ c.toNat) (hquote : c ≠ '"') (hback : c ≠ '\\')
    (cs : List Char) : readChars (c :: cs) = (readChars cs).map (consChar c) := by
  rw [readChars, if_neg (Nat.not_lt.2 hlow)]
  · exact hquote
  · exact hback

/-- **A spelt character** is read, whatever follows. -/
theorem readChars_of_spelt {c : Char} {cs : List Char} (h : Spelt c cs) (rest : List Char) :
    readChars (cs ++ rest) = (readChars rest).map (consChar c) := by
  cases h with
  | plain hlow hquote hback =>
    rw [List.singleton_append, readChars_plain hlow hquote hback]
  | letter hl =>
    rw [List.cons_append, readChars, List.singleton_append, unescape_of_mem_letters hl]
    rfl
  | @code _ ds hds =>
    have hrest := (hexUnit_of_coded hds rest).2
    rw [List.cons_append, readChars, List.cons_append, unescape, unicodeEscape_of_coded hds]
    simp only [Except.map, List.drop_succ_cons, hrest]
  | @pair _ ds es hc hds hes =>
    have hrest : (ds ++ '\\' :: 'u' :: (es ++ rest)).drop (4 + 6) = rest := by
      rw [← List.drop_drop, (hexUnit_of_coded hds _).2]
      exact (hexUnit_of_coded hes rest).2
    rw [List.cons_append, readChars, List.cons_append, unescape, List.append_assoc,
      List.cons_append, List.cons_append, unicodeEscape_of_pair hc hds hes]
    simp only [Except.map, List.drop_succ_cons, hrest]

theorem readChars_of_forall₂ {cs : List Char} {parts : List (List Char)}
    (h : List.Forall₂ Spelt cs parts) (rest : List Char) :
    readChars (parts.flatten ++ '"' :: rest) = .ok (cs, rest) := by
  induction h with
  | nil => rw [List.flatten_nil, List.nil_append, readChars]
  | cons hc _ ih =>
    rw [List.flatten_cons, List.append_assoc, readChars_of_spelt hc, ih]
    rfl

/-- **However a string is spelt**, it is read as itself, whatever follows. -/
theorem readText_of_spelt {s : String} {cs : List Char} (h : SpeltText s cs) :
    ∃ tail, cs = '"' :: tail ∧ ∀ rest, readText (tail ++ rest) = .ok (s, rest) := by
  obtain ⟨parts, hparts, rfl⟩ := h
  refine ⟨_, rfl, fun rest => ?_⟩
  rw [readText, List.append_assoc, List.singleton_append, readChars_of_forall₂ hparts]
  exact congrArg (fun s => Except.ok (s, rest)) String.ofList_toList

/-! ## Writing -/

/-- The code of a control is written in lower case. -/
theorem coded_of_lt {n : Nat} (h : n < 32) :
    Coded n ['0', '0', hexDigit (n / 16), hexDigit (n % 16)] := by
  refine ⟨by omega, ?_⟩
  rw [Nat.div_eq_of_lt (by omega), Nat.div_eq_of_lt (by omega),
    Nat.mod_eq_of_lt (a := n / 0x10) (by omega)]
  simp [hexDigit]

/-- **A character as it is written** is one of its spellings. -/
theorem spelt_escaped (c : Char) : Spelt c (escaped c) := by
  unfold escaped
  split
  case h_8 hquote hback _ _ _ _ _ =>
    split
    · rename_i hlow
      exact .code (coded_of_lt hlow)
    · rename_i hlow
      exact .plain (Nat.not_lt.1 hlow) hquote hback
  all_goals exact .letter (by decide)

/-- **What is written for a string** is one of its spellings. -/
theorem spelt_writeText (s : String) : SpeltText s (writeText s) := by
  refine ⟨s.toList.map escaped, ?_, by rw [writeText, List.flatMap_def]⟩
  rw [List.forall₂_map_right_iff]
  exact List.forall₂_same.2 fun c _ => spelt_escaped c

end Muster.Json
