import Muster.Census.Basic
import Muster.Proofs.Replacing

/-!
# Proofs/Traffic/Readers — readers that share a hand-off

Any number of readers take keys from one hand-off, call after call, and come between the atomic
steps of each other's calls: the look whether a key is left, the claim of an index, and the reading
of the key at it. Several readers may find the last key left, and all but one of them then claim
an index behind the end.

What carries everything is that the indices which calls have claimed are those below the next one,
each of them once (`Reading.Orderly.claims`).

* `Taking.rest_eq` — left alone, the steps are `HandOff.take`.
* `Reading.Orderly` — the invariant, preserved by every turn.
* `Reading.delivers_once` — no key goes to two calls, none is lost, and the counter stays within
  the number of keys and readers.
-/

namespace Muster

/-! ## Taking a key in steps -/

/-- **What a call that takes a key has come to**: the index that it claimed, if it claimed one, and
its answer. -/
structure Receipt where
  claim : Option Nat
  key : Option Key

/-- **How far a call that takes a key has come.** -/
inductive Taking
  /-- about to look whether a key is left -/
  | looking
  /-- one was left, and none is claimed yet -/
  | claiming
  /-- about to read the key at the index that is claimed -/
  | reading (i : Nat)

namespace Taking

/-- **One atomic step**, after which the call goes on or has come to something. -/
def step (h : HandOff) : Taking → (Taking ⊕ Receipt) × HandOff
  | looking => (if h.exhausted then .inr ⟨none, none⟩ else .inl claiming, h)
  | claiming => (.inl (reading h.claim.1), h.claim.2)
  | reading i => (.inr ⟨some i, h.key? i⟩, h)

/-- What is left of taking a key. -/
def rest (h : HandOff) : Taking → Option Key × HandOff
  | looking => h.take
  | claiming => (h.claim.2.key? h.claim.1, h.claim.2)
  | reading i => (h.key? i, h)

/-- **Taking a key is its steps.** -/
theorem rest_eq (h : HandOff) (p : Taking) :
    p.rest h =
      match p.step h with
      | (.inl q, h') => q.rest h'
      | (.inr x, h') => (x.key, h') := by
  cases p with
  | looking => by_cases hx : h.exhausted = true <;> simp [rest, step, HandOff.take, hx]
  | claiming | reading i => rfl

/-- The index that the call holds. -/
def claim? : Taking → Option Nat
  | reading i => some i
  | _ => none

/-- Is the call about to claim? -/
def isClaiming : Taking → Bool
  | claiming => true
  | _ => false

/-- **The counter moves with a claim**, and with nothing else. -/
theorem next_step (h : HandOff) (p : Taking) :
    (p.step h).2.next = h.next + p.isClaiming.toNat := by
  cases p <;> rfl

@[simp] theorem keys_step (h : HandOff) (p : Taking) : (p.step h).2.keys = h.keys := by
  cases p <;> rfl

end Taking

/-! ## Readers -/

/-- **Somebody who takes keys**: the call that is under way, and what the calls before it came
to. -/
structure Reader where
  taking : Taking := .looking
  receipts : List Receipt := []

namespace Reader

/-- The reader after a step that came to this. Whoever has an answer begins again. -/
def next (r : Reader) : Taking ⊕ Receipt → Reader
  | .inl p => { r with taking := p }
  | .inr x => { receipts := r.receipts ++ [x] }

/-- The indices that the calls of a reader have claimed, the one that is under way included. -/
def claims (r : Reader) : List Nat := r.receipts.filterMap Receipt.claim ++ r.taking.claim?.toList

/-- **A claimed index stays with its reader**, and the next index is claimed by the claim alone. -/
theorem claims_next (r : Reader) (h : HandOff) :
    (r.next (r.taking.step h).1).claims =
      r.claims ++ if r.taking.isClaiming then [h.next] else [] := by
  obtain ⟨p, receipts⟩ := r
  cases p with
  | looking =>
    by_cases hx : h.exhausted = true <;>
      simp [Taking.step, hx, next, claims, Taking.claim?, Taking.isClaiming]
  | claiming =>
    simp [Taking.step, HandOff.claim, next, claims, Taking.claim?, Taking.isClaiming]
  | reading i => simp [Taking.step, next, claims, Taking.claim?, Taking.isClaiming]

/-- **A receipt is kept**; a new one comes of the look that finds no key left, or of the reading of
a key. -/
theorem receipts_next {r : Reader} {h : HandOff} {x : Receipt}
    (hx : x ∈ (r.next (r.taking.step h).1).receipts) :
    x ∈ r.receipts ∨ (x = ⟨none, none⟩ ∧ h.keys.size ≤ h.next) ∨
      ∃ i, r.taking = .reading i ∧ x = ⟨some i, h.key? i⟩ := by
  obtain ⟨p, receipts⟩ := r
  cases p with
  | looking =>
    by_cases hs : h.exhausted = true
    · simp only [Taking.step, hs, if_true, next, List.mem_append, List.mem_singleton] at hx
      obtain hx | rfl := hx
      · exact Or.inl hx
      · exact Or.inr (Or.inl ⟨rfl, by simpa [HandOff.exhausted] using hs⟩)
    · simp only [Taking.step, hs, next] at hx
      exact Or.inl hx
  | claiming => exact Or.inl hx
  | reading i =>
    simp only [Taking.step, next, List.mem_append, List.mem_singleton] at hx
    obtain hx | rfl := hx
    · exact Or.inl hx
    · exact Or.inr (Or.inr ⟨i, rfl, rfl⟩)

/-- Whoever is about to claim after a step has just found a key left. -/
theorem exhausted_of_isClaiming_next {r : Reader} {h : HandOff}
    (hc : (r.next (r.taking.step h).1).taking.isClaiming = true) :
    h.exhausted = false ∧ r.taking.isClaiming = false := by
  obtain ⟨p, receipts⟩ := r
  cases p with
  | looking =>
    by_cases hx : h.exhausted = true
    · simp [Taking.step, hx, next, Taking.isClaiming] at hc
    · exact ⟨Bool.eq_false_iff.2 hx, rfl⟩
  | claiming | reading i => cases hc

theorem subset_receipts_next (r : Reader) (s : Taking ⊕ Receipt) :
    r.receipts ⊆ (r.next s).receipts := by
  cases s with
  | inl p => exact List.Subset.refl _
  | inr x => exact List.subset_append_left _ _

end Reader

/-! ## Reading -/

/-- **A hand-off and its readers.** -/
structure Reading where
  handOff : HandOff
  readers : List Reader

namespace Reading

/-- Readers that come to some keys. -/
def ofKeys (keys : Array Key) (n : Nat) : Reading :=
  { handOff := { keys }, readers := List.replicate n {} }

/-- The reading after a reader has made its next step. -/
def turn (t : Reading) (j : Nat) (r : Reader) : Reading :=
  { handOff := (r.taking.step t.handOff).2
    readers := t.readers.set j (r.next (r.taking.step t.handOff).1) }

/-- **A reader's turn.** -/
def act (t : Reading) (j : Nat) : Reading :=
  match t.readers[j]? with
  | none => t
  | some r => t.turn j r

/-- **The reading after a schedule**, which says whose turn it is, time after time. -/
def after (t : Reading) (schedule : List Nat) : Reading := schedule.foldl act t

/-- The indices that calls have claimed. -/
def claims (t : Reading) : List Nat := t.readers.flatMap Reader.claims

/-- What the calls that are over have come to. -/
def receipts (t : Reading) : List Receipt := t.readers.flatMap Reader.receipts

/-- How many calls are about to claim. -/
def claiming (t : Reading) : Nat := t.readers.countP (·.taking.isClaiming)

variable {t : Reading} {r : Reader} {j i n : Nat} {keys : Array Key}

theorem act_of_some (hr : t.readers[j]? = some r) : t.act j = t.turn j r := by
  rw [act, hr]

/-- **What every turn preserves holds after every schedule.** -/
theorem after_induction {P : Reading → Prop}
    (hturn : ∀ t j r, t.readers[j]? = some r → P t → P (t.turn j r)) (schedule : List Nat)
    (h : P t) : P (t.after schedule) := by
  induction schedule generalizing t with
  | nil => exact h
  | cons j schedule ih =>
    refine ih ?_
    cases hr : t.readers[j]? with
    | none => rwa [act, hr]
    | some r =>
      rw [act_of_some hr]
      exact hturn t j r hr h

/-! ## The invariant -/

/-- **Reading in order.** The last two clauses hold the counter down: whoever is about to claim has
found a key left, so that claims which are still to come are counted with those that were made. -/
structure Orderly (keys : Array Key) (n : Nat) (t : Reading) : Prop where
  keys_eq : t.handOff.keys = keys
  length : t.readers.length = n
  claims : t.claims.Perm (List.range t.handOff.next)
  answered (x : Receipt) : x ∈ t.receipts → x.key = x.claim.bind fun i => keys[i]?
  exhausted (x : Receipt) : x ∈ t.receipts → x.key = none → keys.size ≤ t.handOff.next
  idle : keys.size = 0 → t.handOff.next + t.claiming = 0
  bounded : t.handOff.next + t.claiming ≤ keys.size + n - 1

theorem orderly_ofKeys (keys : Array Key) (n : Nat) : (ofKeys keys n).Orderly keys n := by
  have hfresh : ∀ r ∈ (ofKeys keys n).readers, r = {} := fun r hr => (List.mem_replicate.1 hr).2
  have hreceipts : ∀ x, x ∉ (ofKeys keys n).receipts := fun x hx => by
    obtain ⟨r, hr, hxr⟩ := List.mem_flatMap.1 hx
    rw [hfresh r hr] at hxr
    exact List.not_mem_nil hxr
  have hclaims : (ofKeys keys n).claims = [] := List.flatMap_eq_nil_iff.2 fun r hr => by
    rw [hfresh r hr]
    rfl
  have hclaiming : (ofKeys keys n).claiming = 0 := List.countP_eq_zero.2 fun r hr => by
    rw [hfresh r hr]
    exact Bool.false_ne_true
  exact ⟨rfl, List.length_replicate, List.Perm.of_eq hclaims, fun x hx => absurd hx (hreceipts x),
    fun x hx => absurd hx (hreceipts x), fun _ => by rw [hclaiming]; rfl,
    by rw [hclaiming]; exact Nat.zero_le _⟩

/-- Whoever holds an index has claimed it. -/
theorem Orderly.lt_of_reading (h : t.Orderly keys n) (hr : t.readers[j]? = some r)
    (hi : r.taking = .reading i) : i < t.handOff.next := by
  have hclaim : i ∈ r.claims := by simp [Reader.claims, hi, Taking.claim?]
  have hmem : i ∈ t.claims := List.mem_flatMap.2 ⟨r, List.mem_of_getElem? hr, hclaim⟩
  exact List.mem_range.1 (h.claims.mem_iff.1 hmem)

/-- **Every turn keeps reading in order.** -/
theorem Orderly.turn (h : t.Orderly keys n) (hr : t.readers[j]? = some r) :
    (t.turn j r).Orderly keys n := by
  have hnext := r.taking.next_step t.handOff
  have hclaiming : (t.turn j r).claiming + r.taking.isClaiming.toNat =
      t.claiming + (r.next (r.taking.step t.handOff).1).taking.isClaiming.toNat :=
    countP_set_add hr _ fun r => r.taking.isClaiming
  have hreceipts : ∀ x ∈ (t.turn j r).receipts, x ∈ t.receipts ∨
      (x = ⟨none, none⟩ ∧ keys.size ≤ t.handOff.next) ∨
        ∃ i, r.taking = .reading i ∧ x = ⟨some i, keys[i]?⟩ := by
    intro x hx
    obtain ⟨y, hy, hxy⟩ := List.mem_flatMap.1 hx
    rw [← h.keys_eq]
    obtain rfl | hy := List.mem_or_eq_of_mem_set hy |>.symm
    · refine (Reader.receipts_next hxy).imp_left fun hx => ?_
      exact List.mem_flatMap.2 ⟨r, List.mem_of_getElem? hr, hx⟩
    · exact Or.inl (List.mem_flatMap.2 ⟨y, hy, hxy⟩)
  -- whoever finds a key left is one of `n`, and the others may all be about to claim
  have hroom : (r.next (r.taking.step t.handOff).1).taking.isClaiming = true →
      t.handOff.next < keys.size ∧ t.claiming < n := fun hc => by
    obtain ⟨hx, hr'⟩ := Reader.exhausted_of_isClaiming_next hc
    rw [HandOff.exhausted, h.keys_eq, decide_eq_false_iff_not, Nat.not_le] at hx
    refine ⟨hx, h.length ▸ Nat.lt_of_le_of_ne List.countP_le_length fun heq => ?_⟩
    have hall := List.countP_eq_length.1 heq r (List.mem_of_getElem? hr)
    rw [hr'] at hall
    cases hall
  refine ⟨(Taking.keys_step _ _).trans h.keys_eq, List.length_set.trans h.length, ?_,
    fun x hx => ?_, fun x hx hnone => ?_, fun hkeys => ?_, ?_⟩
  · show (t.turn j r).claims.Perm (List.range (r.taking.step t.handOff).2.next)
    have hset := flatMap_set_perm hr (r.next (r.taking.step t.handOff).1) Reader.claims
    rw [Reader.claims_next, List.append_assoc, List.perm_append_left_iff] at hset
    refine hset.trans ((h.claims.append_left _).trans ?_)
    rw [hnext]
    cases r.taking.isClaiming with
    | true =>
      rw [Bool.toNat_true, List.range_succ]
      exact List.perm_append_comm
    | false => rfl
  · obtain hx | ⟨rfl, -⟩ | ⟨i, -, rfl⟩ := hreceipts x hx
    · exact h.answered x hx
    · rfl
    · rfl
  · show keys.size ≤ (r.taking.step t.handOff).2.next
    rw [hnext]
    refine Nat.le_add_right_of_le ?_
    obtain hx | ⟨-, hle⟩ | ⟨i, hi, rfl⟩ := hreceipts x hx
    · exact h.exhausted x hx hnone
    · exact hle
    · exact Nat.le_trans (Array.getElem?_eq_none_iff.1 hnone) (Nat.le_of_lt (h.lt_of_reading hr hi))
  · have hidle := h.idle hkeys
    show (r.taking.step t.handOff).2.next + (t.turn j r).claiming = 0
    cases hc : (r.next (r.taking.step t.handOff).1).taking.isClaiming with
    | true => exact absurd (hroom hc).1 (by omega)
    | false =>
      rw [hc] at hclaiming
      simp only [Bool.toNat_false] at hclaiming
      omega
  · have hbounded := h.bounded
    show (r.taking.step t.handOff).2.next + (t.turn j r).claiming ≤ keys.size + n - 1
    cases hc : (r.next (r.taking.step t.handOff).1).taking.isClaiming with
    | true =>
      have hlt := hroom hc
      rw [hc] at hclaiming
      simp only [Bool.toNat_true] at hclaiming
      omega
    | false =>
      rw [hc] at hclaiming
      simp only [Bool.toNat_false] at hclaiming
      omega

/-- In somebody else's turn a reader stays as it is. -/
theorem getElem?_turn_of_ne {l : Nat} (hjl : l ≠ j) : (t.turn l r).readers[j]? = t.readers[j]? :=
  List.getElem?_set_ne hjl

theorem getElem?_turn_self (hr : t.readers[j]? = some r) :
    (t.turn j r).readers[j]? = some (r.next (r.taking.step t.handOff).1) :=
  List.getElem?_set_self (List.getElem?_eq_some_iff.1 hr).1

/-- **Every schedule keeps reading in order.** -/
theorem Orderly.after (h : t.Orderly keys n) (schedule : List Nat) :
    (t.after schedule).Orderly keys n :=
  after_induction (P := Orderly keys n) (fun _ _ _ hr hu => hu.turn hr) schedule h

/-! ## What has been claimed is handed out -/

/-- **A call has come to this**, and its reader is on record with it. -/
def Records (x : Receipt) (j : Nat) (t : Reading) : Prop :=
  ∃ r, t.readers[j]? = some r ∧ x ∈ r.receipts

theorem Records.after {x : Receipt} (h : Records x j t) (schedule : List Nat) :
    Records x j (t.after schedule) := by
  refine after_induction (P := Records x j) (fun u l s hs hu => ?_) schedule h
  obtain ⟨r, hr, hx⟩ := hu
  by_cases hjl : l = j
  · subst hjl
    obtain rfl := Option.some.inj (hs.symm.trans hr)
    exact ⟨_, getElem?_turn_self hs, s.subset_receipts_next _ hx⟩
  · exact ⟨r, (getElem?_turn_of_ne hjl).trans hr, hx⟩

/-- **A call that holds an index answers with the key at it** when its reader's turn comes. -/
theorem Orderly.records (h : t.Orderly keys n) (hr : t.readers[j]? = some r)
    (hi : r.taking = .reading i) {schedule : List Nat} (hj : j ∈ schedule) :
    Records ⟨some i, keys[i]?⟩ j (t.after schedule) := by
  induction schedule generalizing t with
  | nil => cases hj
  | cons l schedule ih =>
    by_cases hjl : l = j
    · subst hjl
      refine Records.after ?_ schedule
      rw [act_of_some hr]
      refine ⟨_, getElem?_turn_self hr, ?_⟩
      simp [hi, Taking.step, Reader.next, HandOff.key?, h.keys_eq]
    · have hj' : j ∈ schedule := (List.mem_cons.1 hj).resolve_left (Ne.symm hjl)
      cases hs : t.readers[l]? with
      | none =>
        have hstay : t.act l = t := by rw [act, hs]
        exact ih (hstay.symm ▸ h) (hstay.symm ▸ hr) hj'
      | some s =>
        have hact := act_of_some hs
        refine ih (hact.symm ▸ h.turn hs) ?_ hj'
        rw [hact, getElem?_turn_of_ne hjl, hr]

/-- **The key at an index is handed out**: a call has answered with it, or holds the index and
answers with it as soon as its reader goes on. -/
def HandsOut (keys : Array Key) (i : Nat) (t : Reading) : Prop :=
  (∃ j, Records ⟨some i, keys[i]?⟩ j t) ∨
    ∃ j r, t.readers[j]? = some r ∧ r.taking = .reading i ∧
      ∀ schedule, j ∈ schedule → Records ⟨some i, keys[i]?⟩ j (t.after schedule)

/-- **Whatever has been claimed is handed out.** -/
theorem Orderly.handsOut (h : t.Orderly keys n) (hi : i < t.handOff.next) : t.HandsOut keys i := by
  have hmem : i ∈ t.claims := h.claims.mem_iff.2 (List.mem_range.2 hi)
  obtain ⟨r, hr, hclaim⟩ := List.mem_flatMap.1 hmem
  obtain ⟨j, hj⟩ := List.mem_iff_getElem?.1 hr
  obtain hclaim | hclaim := List.mem_append.1 hclaim
  · obtain ⟨x, hx, hxi⟩ := List.mem_filterMap.1 hclaim
    have hkey := h.answered x (List.mem_flatMap.2 ⟨r, hr, hx⟩)
    rw [hxi, Option.bind_some] at hkey
    obtain ⟨claim, key⟩ := x
    obtain rfl : claim = some i := hxi
    obtain rfl : key = keys[i]? := hkey
    exact Or.inl ⟨j, r, hj, hx⟩
  · have htaking : r.taking = .reading i := by
      cases hp : r.taking with
      | looking | claiming => simp [hp, Taking.claim?] at hclaim
      | reading l =>
        obtain rfl : i = l := by simpa [hp, Taking.claim?] using hclaim
        rfl
    exact Or.inr ⟨j, r, hj, htaking, fun _ => h.records hj htaking⟩

/-- **The indices that are not claimed** are those from the next one on. -/
theorem Orderly.countP_unclaimed (h : t.Orderly keys n) (size : Nat) :
    ((List.range size).countP fun i => i ∉ t.claims) = size - t.handOff.next := by
  induction size with
  | zero => exact (Nat.zero_sub _).symm
  | succ size ih =>
    have hmem : size ∈ t.claims ↔ size < t.handOff.next :=
      h.claims.mem_iff.trans List.mem_range
    rw [List.range_succ, List.countP_append, ih, List.countP_singleton]
    by_cases hlt : size < t.handOff.next
    · simp only [hmem.2 hlt, not_true, decide_false, Bool.false_eq_true, if_false]
      omega
    · simp only [mt hmem.1 hlt, not_false_eq_true, decide_true, if_true]
      omega

/-- **A hand-off that is shared well** among some readers: no index is claimed by two calls, and a
call answers with the key at the index that it has claimed; once a call has answered without a key,
every key is handed out; the counter stays within the number of keys and readers, so that no word
that holds this number overflows, and tells which indices are not claimed. -/
structure Served (keys : Array Key) (n : Nat) (t : Reading) : Prop where
  once : t.claims.Nodup
  answered (x : Receipt) : x ∈ t.receipts → x.key = x.claim.bind fun i => keys[i]?
  complete (x : Receipt) : x ∈ t.receipts → x.key = none → ∀ i, i < keys.size → t.HandsOut keys i
  bounded : t.handOff.next ≤ keys.size + n - 1
  idle : keys.size = 0 → t.handOff.next = 0
  fits : keys.size + n ≤ UInt64.size → t.handOff.next < UInt64.size
  remaining : t.handOff.remaining = (List.range keys.size).countP fun i => i ∉ t.claims

/-- **Each key of a hand-off is delivered once**, however many readers there are, however often they
call, and however the steps of their calls interleave. -/
theorem delivers_once (keys : Array Key) (n : Nat) (schedule : List Nat) :
    ((ofKeys keys n).after schedule).Served keys n := by
  have h := (orderly_ofKeys keys n).after schedule
  generalize (ofKeys keys n).after schedule = t at h ⊢
  have hbounded := h.bounded
  have hpos : 0 < UInt64.size := by decide
  refine ⟨h.claims.nodup_iff.2 List.nodup_range, h.answered, fun x hx hnone i hi => ?_, by omega,
    fun hkeys => ?_, fun hfits => by omega, ?_⟩
  · exact h.handsOut (Nat.lt_of_lt_of_le hi (h.exhausted x hx hnone))
  · have := h.idle hkeys
    omega
  · rw [HandOff.remaining, h.keys_eq, ← h.countP_unclaimed]

/-- The bound is reached when all readers find the last key left. -/
example : ((ofKeys #[default] 3).after [0, 1, 2, 2, 0, 1, 1, 0, 2]).handOff.next = 1 + 3 - 1 := rfl

end Reading

end Muster
