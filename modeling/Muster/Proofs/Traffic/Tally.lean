import Muster.Proofs.Census.Tally
import Muster.Proofs.Traffic.Frozen

/-!
# Proofs/Traffic/Tally — increments are neither lost nor counted twice

Where no caller breaks off and nothing is pruned, what a section changes in the census is what it
changes in the books of its caller (`Balanced`): a key's count goes up with the section that accepts
an increment of it, and a key appears with the section that makes its increment its creator. Summed
over all callers, the books are the census:

* `Traffic.Tallied` — the sums, preserved by every turn.
* `Traffic.increments_linearize` — what they say once everybody is through.
-/

namespace Muster

/-! ## The books of a caller -/

/-- Whether an increment has been accepted, and if so whether it created its key. -/
def Counting.created? : Counting → Option Bool
  | .accounting created | .checking created | .pruning created .. | .rechecking created ..
  | .counted created => some created
  | _ => none

theorem Counting.created?_accounting (b : Bool) : (accounting b).created? = some b := rfl

/-- Has the increment been accounted for? -/
def Counting.accounted : Counting → Bool
  | .checking _ | .pruning .. | .rechecking .. | .counted _ => true
  | _ => false

/-- Is an increment there where it can be without a cap? -/
def Counting.capless : Counting → Bool
  | .pruning .. | .rechecking .. => false
  | _ => true

/-- An increment whose payload does not give up, or a seal. -/
def Errand.plain : Errand → Bool
  | .counting _ (.ok _) | .sealing => true
  | _ => false

namespace Caller

/-- Has the caller's increment of the key been accepted? -/
def accepts (k : Key) : Caller → Bool
  | counting l _ p => l.same k && p.created?.isSome
  | _ => false

/-- Has the caller created the key? -/
def creates (k : Key) : Caller → Bool
  | counting l _ p => l.same k && p.created? == some true
  | _ => false

/-- Has the caller's increment been accounted for? -/
def accounted : Caller → Bool
  | counting _ _ p => p.accounted
  | _ => false

/-- Has the caller's increment been refused? -/
def late : Caller → Bool
  | counting _ _ .late => true
  | _ => false

/-- Has the caller sealed the census? -/
def seals : Caller → Bool
  | sealing (.sealed new) => new
  | _ => false

/-- An increment whose payload does not give up, or a seal, which has not broken off. -/
def plain : Caller → Bool
  | counting _ (.ok _) p => p.capless
  | sealing _ => true
  | _ => false

/-- **What a caller has a share in**: the creator of a key in its group, which retains the caller's
payload, and a caller that was told that the census is sealed already in the hand-off. -/
def Owns (c : Census) : Caller → Prop
  | counting k (.ok r) p => p.created? = some true → ∃ g, c.find? k = some g ∧ g.retained = r
  | sealing (.sealed false) => c.handOff.isSome = true
  | _ => True

end Caller

/-! ## Balanced sections -/

/-- **A section that changes in the census what it changes in the books of its caller.** -/
structure Balanced (c : Census) (x : Caller) (d : Census) (y : Caller) : Prop where
  healthy : d.Healthy
  limits : d.limits = c.limits
  plain : y.plain = true
  counts (k : Key) : d.tally k + (x.accepts k).toNat = c.tally k + (y.accepts k).toNat
  creation (k : Key) : (d.find? k).isSome.toNat + (x.creates k).toNat =
    (c.find? k).isSome.toNat + (y.creates k).toNat
  retains (k : Key) (g : Group) : c.find? k = some g →
    ∃ g', d.find? k = some g' ∧ g'.retained = g.retained
  processed : d.processed + x.accounted.toNat = c.processed + y.accounted.toNat
  late : d.meters.lateRecords + x.late.toNat = c.meters.lateRecords + y.late.toNat
  seals : d.handOff.isSome.toNat + x.seals.toNat = c.handOff.isSome.toNat + y.seals.toNat
  owns : x.Owns c → y.Owns d

variable {c d : Census} {x y : Caller}

/-- A section that changes nothing but the caller's place. -/
theorem balanced_place (hc : c.Healthy) (hy : y.plain = true) (ho : x.Owns c → y.Owns c)
    (haccepts : ∀ k, x.accepts k = y.accepts k) (hcreates : ∀ k, x.creates k = y.creates k)
    (haccounted : x.accounted = y.accounted) (hlate : x.late = y.late)
    (hseals : x.seals = y.seals) : Balanced c x c y where
  healthy := hc
  limits := rfl
  plain := hy
  counts k := by rw [haccepts]
  creation k := by rw [hcreates]
  retains k g hg := ⟨g, hg, rfl⟩
  processed := by rw [haccounted]
  late := by rw [hlate]
  seals := by rw [hseals]
  owns := ho

section Counting

variable {k : Key} {r : Option Record} {p : Counting}

/-- An increment that comes too late is refused. -/
theorem balanced_refused (hh : c.Healthy) (hp : p = .probing ∨ p = .entering) :
    Balanced c (.counting k (.ok r) p) c.refused (.counting k (.ok r) .late) := by
  have hbooks : p.created? = none ∧ p.accounted = false ∧
      (Caller.counting k (.ok r) p).late = false := by
    rcases hp with rfl | rfl <;> exact ⟨rfl, rfl, rfl⟩
  obtain ⟨hcreated, haccounted, hlate⟩ := hbooks
  refine ⟨hh.congr rfl rfl, rfl, rfl, fun l => ?_, fun l => ?_, fun l g hg => ⟨g, hg, rfl⟩, ?_, ?_,
    rfl, fun _ hq => by cases hq⟩
  · simp only [Caller.accepts, hcreated]
    rfl
  · simp only [Caller.creates, hcreated]
    rfl
  · simp only [Caller.accounted, haccounted]
    rfl
  · rw [hlate]
    rfl

/-- An increment of a key that is there is accepted. -/
theorem balanced_bumped (hs : c.Sound) (hh : c.Healthy) (hk : (c.find? k).isSome = true)
    (hp : p = .probing ∨ p = .entering) :
    Balanced c (.counting k (.ok r) p) (c.bumped k) (.counting k (.ok r) (.accounting false)) := by
  have hbooks : p.created? = none ∧ p.accounted = false ∧
      (Caller.counting k (.ok r) p).late = false := by
    rcases hp with rfl | rfl <;> exact ⟨rfl, rfl, rfl⟩
  obtain ⟨hcreated, haccounted, hlate⟩ := hbooks
  refine ⟨hh.bumped k, rfl, rfl, fun l => ?_, fun l => ?_, fun l g hg => ?_, ?_, ?_, rfl,
    fun _ hq => by cases hq⟩
  · rw [Census.tally_bumped hs hk]
    simp [Caller.accepts, hcreated, Counting.created?_accounting]
  · rw [Census.isSome_find?_bumped hs]
    simp [Caller.creates, hcreated, Counting.created?_accounting]
  · rw [hs.find?_bumped, hg]
    exact ⟨_, rfl, Group.retained_bumpIf k g⟩
  · simp only [Caller.accounted, haccounted]
    rfl
  · rw [hlate]
    rfl

/-- An increment of a key that is still absent creates it. -/
theorem balanced_inserted (hs : c.Sound) (hh : c.Healthy) (hk : c.find? k = none) :
    Balanced c (.counting k (.ok r) .entering) (c.inserted k r)
      (.counting k (.ok r) (.accounting true)) := by
  refine ⟨hh.inserted k r, rfl, rfl, fun l => ?_, fun l => ?_, fun l g hg => ?_, rfl, rfl, rfl,
    fun _ _ => ?_⟩
  · rw [Census.tally_inserted hs hk]
    simp [Caller.accepts, Counting.created?]
  · rw [Census.isSome_find?_inserted hs hk]
    simp [Caller.creates, Counting.created?]
  · have hkl : ¬k.same l = true := by
      intro hkl
      rw [hs.find?_congr hkl, hg] at hk
      cases hk
    exact ⟨g, by rw [Census.find?_inserted, if_neg hkl, hg], rfl⟩
  · exact ⟨{ key := k, retained := r }, by rw [Census.find?_inserted, if_pos k.same_refl], rfl⟩

/-- An accepted increment is accounted for. -/
theorem balanced_accounted (hh : c.Healthy) {created : Bool} {q : Counting}
    (hq : q = .checking created ∨ q = .counted created) :
    Balanced c (.counting k (.ok r) (.accounting created)) c.accounted (.counting k (.ok r) q) := by
  rcases hq with rfl | rfl <;>
    exact ⟨hh.congr rfl rfl, rfl, rfl, fun _ => rfl, fun _ => rfl, fun _ g hg => ⟨g, hg, rfl⟩, rfl,
      rfl, rfl, id⟩

/-- **Every section of an increment is balanced** where there is no cap. -/
theorem balanced_counting (hs : c.Sound) (hh : c.Healthy) (hcap : c.limits.cap = none)
    (hp : p.capless = true) :
    ∃ q, ((p.step k (.answering (.ok r))).run c).result = .ok q ∧
      Balanced c (.counting k (.ok r) p) ((p.step k (.answering (.ok r))).run c).state
        (.counting k (.ok r) q) := by
  cases p with
  | probing =>
    rw [Counting.run_step_probing, hh.shard]
    simp only [Bool.false_eq_true, if_false]
    split
    · exact ⟨_, rfl, balanced_refused hh (Or.inl rfl)⟩
    split
    · exact ⟨_, rfl, balanced_bumped hs hh ‹_› (Or.inl rfl)⟩
    · exact ⟨_, rfl, balanced_place hh rfl id (fun _ => rfl) (fun _ => rfl) rfl rfl rfl⟩
  | entering =>
    rw [Counting.run_step_entering hs, hh.shard]
    simp only [Bool.false_eq_true, if_false]
    split
    · exact ⟨_, rfl, balanced_refused hh (Or.inr rfl)⟩
    split
    · exact ⟨_, rfl, balanced_bumped hs hh ‹_› (Or.inr rfl)⟩
    · have hk : c.find? k = none := by simpa using ‹¬(c.find? k).isSome = true›
      exact ⟨_, rfl, balanced_inserted hs hh hk⟩
  | accounting created =>
    rw [Counting.step, Call.run_bind, Census.run_account]
    dsimp only
    split
    · exact ⟨_, rfl, balanced_accounted hh (Or.inl rfl)⟩
    · exact ⟨_, rfl, balanced_accounted hh (Or.inr rfl)⟩
  | checking created =>
    have hrun : ((Counting.checking created).step k (.answering (.ok r))).run c =
        ⟨.ok (.counted created), c, []⟩ := by simp [Counting.step, Call.run_bind, hcap]
    rw [hrun]
    exact ⟨_, rfl, balanced_place hh rfl id (fun _ => rfl) (fun _ => rfl) rfl rfl rfl⟩
  | pruning created cap threshold p => cases hp
  | rechecking created cap threshold => cases hp
  | counted created =>
    exact ⟨_, rfl, balanced_place hh rfl id (fun _ => rfl) (fun _ => rfl) rfl rfl rfl⟩
  | late =>
    exact ⟨_, rfl, balanced_place hh rfl id (fun _ => rfl) (fun _ => rfl) rfl rfl rfl⟩

end Counting

/-- A change that concerns the seal alone. -/
theorem balanced_seal (hh : d.Healthy) {p q : Sealing} (hs : d.shards = c.shards)
    (hl : d.limits = c.limits) (hp : d.processed = c.processed)
    (hm : d.meters.lateRecords = c.meters.lateRecords)
    (hseals : d.handOff.isSome.toNat + (Caller.sealing p).seals.toNat =
      c.handOff.isSome.toNat + (Caller.sealing q).seals.toNat)
    (ho : (Caller.sealing p).Owns c → (Caller.sealing q).Owns d) :
    Balanced c (.sealing p) d (.sealing q) where
  healthy := hh
  limits := hl
  plain := rfl
  counts k := by
    rw [Census.tally, Census.find?_congr_shards hs]
    rfl
  creation k := by
    rw [Census.find?_congr_shards hs]
    rfl
  retains k g hg := ⟨g, (Census.find?_congr_shards hs k).trans hg, rfl⟩
  processed := by
    rw [hp]
    rfl
  late := by
    rw [hm]
    rfl
  seals := hseals
  owns := ho

/-- **Every section of a seal is balanced.** -/
theorem balanced_sealing (hh : c.Healthy) {p : Sealing} (hx : (Caller.sealing p).Fits c) :
    ∃ q, (p.step.run c).result = .ok q ∧
      Balanced c (.sealing p) (p.step.run c).state (.sealing q) := by
  cases p with
  | waiting =>
    rw [Sealing.run_step_waiting, hh.lock]
    simp only [Bool.false_eq_true, if_false]
    split
    · exact ⟨_, rfl, balanced_seal hh rfl rfl rfl rfl rfl fun _ => ‹_›⟩
    · exact ⟨_, rfl, balanced_seal hh rfl rfl rfl rfl rfl fun _ => trivial⟩
  | marking =>
    have hmarked : c.marked.Healthy := hh.congr rfl rfl
    exact ⟨.snapshotting c.slots [], rfl,
      balanced_seal hmarked rfl rfl rfl rfl rfl fun _ => trivial⟩
  | snapshotting left keys =>
    cases left with
    | nil =>
      have hpublished : (c.published keys).Healthy := hh.congr rfl rfl
      refine ⟨.sealed true, rfl, balanced_seal hpublished rfl rfl rfl rfl ?_ fun _ => trivial⟩
      rw [show c.handOff = none from hx.1]
      rfl
    | cons i left =>
      rw [Sealing.run_step_snapshot, hh.shard]
      exact ⟨.snapshotting left (keys ++ (c.shard i).keys), rfl,
        balanced_seal hh rfl rfl rfl rfl rfl fun _ => trivial⟩
  | sealed new => exact ⟨_, rfl, balanced_seal hh rfl rfl rfl rfl rfl id⟩

/-- **Every section of a caller is balanced** where nothing can break off and nothing is pruned. -/
theorem balanced_step (hs : c.Sound) (hh : c.Healthy) (hcap : c.limits.cap = none)
    (hx : x.Fits c) (hp : x.plain = true) :
    Balanced c x (x.step.run c).state (x.next (x.step.run c).result) := by
  unfold Caller.plain at hp
  split at hp
  · obtain ⟨q, hq, hbal⟩ := balanced_counting hs hh hcap hp
    rw [Caller.step, Call.run_map, hq]
    exact hbal
  · obtain ⟨q, hq, hbal⟩ := balanced_sealing hh hx
    rw [Caller.step, Call.run_map, hq]
    exact hbal
  · cases hp

/-- **What a caller has a share in, the others leave to it.** -/
theorem Balanced.owns_mono (h : Balanced c x d y)
    (ho : c.handOff.isSome = true → d.handOff.isSome = true) {z : Caller} (hz : z.Owns c) :
    z.Owns d := by
  unfold Caller.Owns at hz ⊢
  split at hz
  · intro hp
    obtain ⟨g, hg, hr⟩ := hz hp
    obtain ⟨g', hg', hr'⟩ := h.retains _ g hg
    exact ⟨g', hg', hr'.trans hr⟩
  · exact ho hz
  · trivial

/-! ## Sums over all callers -/

namespace Traffic

variable {t : Traffic} {i : Nat} {late : Nat}

/-- **The census is the sum of its callers' books.** -/
structure Tallied (late : Nat) (t : Traffic) : Prop where
  orderly : t.Orderly
  healthy : t.census.Healthy
  cap : t.census.limits.cap = none
  plain (j : Nat) (y : Caller) : t.callers[j]? = some y → y.plain = true
  owns (j : Nat) (y : Caller) : t.callers[j]? = some y → y.Owns t.census
  counts (k : Key) : t.census.tally k = t.callers.countP (Caller.accepts k)
  creation (k : Key) : (t.census.find? k).isSome.toNat = t.callers.countP (Caller.creates k)
  processed : t.census.processed = t.callers.countP Caller.accounted
  refusals : t.census.meters.lateRecords = late + t.callers.countP Caller.late
  seals : t.census.handOff.isSome.toNat = t.callers.countP Caller.seals

/-- **Every turn keeps the sums.** -/
theorem Tallied.turn (h : t.Tallied late) (hx : t.callers[i]? = some x)
    (hb : t.blocks x = false) : (t.turn i x).Tallied late := by
  have hbal := balanced_step h.orderly.sound h.healthy h.cap (h.orderly.fits i x hx)
    (h.plain i x hx)
  -- the books of all callers change by those of the one whose turn it is
  have hcount : ∀ {f : Caller → Bool} {m n : Nat}, n = t.callers.countP f →
      m + (f x).toNat = n + (f (x.next (x.step.run t.census).result)).toNat →
        m = (t.turn i x).callers.countP f := by
    intro f m n hn hm
    have hset : (t.turn i x).callers.countP f + (f x).toNat =
        t.callers.countP f + (f (x.next (x.step.run t.census).result)).toNat :=
      countP_set_add hx _ f
    omega
  have hown : t.census.handOff.isSome = true → (t.turn i x).census.handOff.isSome = true := by
    intro ho
    obtain ⟨ho, hh⟩ := Option.isSome_iff_exists.1 ho
    obtain ⟨h', hh', -⟩ := (h.orderly.onward_turn hx).keys ho hh
    exact Option.isSome_iff_exists.2 ⟨h', hh'⟩
  refine ⟨h.orderly.turn hx hb, hbal.healthy, ?_, fun j y hy => ?_, fun j y hy => ?_, fun k => ?_,
    fun k => ?_, ?_, ?_, ?_⟩
  · exact (congrArg Limits.cap hbal.limits).trans h.cap
  · obtain ⟨rfl, rfl⟩ | ⟨-, hy'⟩ := callers_turn hx hy
    · exact hbal.plain
    · exact h.plain j y hy'
  · obtain ⟨rfl, rfl⟩ | ⟨-, hy'⟩ := callers_turn hx hy
    · exact hbal.owns (h.owns j x hx)
    · exact hbal.owns_mono hown (h.owns j y hy')
  · exact hcount (h.counts k) (hbal.counts k)
  · exact hcount (h.creation k) (hbal.creation k)
  · exact hcount h.processed hbal.processed
  · have hsum := countP_set_add hx (x.next (x.step.run t.census).result) Caller.late
    have hlate := hbal.late
    rw [h.refusals] at hlate
    show (x.step.run t.census).state.meters.lateRecords =
      late + (t.callers.set i (x.next (x.step.run t.census).result)).countP Caller.late
    omega
  · exact hcount h.seals hbal.seals

theorem tallied_ofErrands {c : Census} (hc : c.Fresh) (hcap : c.limits.cap = none)
    {errands : List Errand} (hplain : ∀ e ∈ errands, e.plain = true) :
    (ofErrands c errands).Tallied c.meters.lateRecords := by
  have hstart : ∀ y ∈ (ofErrands c errands).callers,
      ∃ e : Errand, e.plain = true ∧ e.start = y := by
    intro y hy
    obtain ⟨e, he, hy⟩ := List.mem_map.1 hy
    exact ⟨e, hplain e he, hy⟩
  have hnone : ∀ f : Caller → Bool, (∀ e : Errand, f e.start = false) →
      (ofErrands c errands).callers.countP f = 0 := by
    intro f hf
    refine List.countP_eq_zero.2 fun y hy => ?_
    obtain ⟨e, -, rfl⟩ := hstart y hy
    simp [hf e]
  refine ⟨orderly_ofErrands hc.isOpen errands, hc.healthy, hcap, fun j y hy => ?_, fun j y hy => ?_,
    fun k => ?_, fun k => ?_, ?_, ?_, ?_⟩
  · obtain ⟨e, he, rfl⟩ := hstart y (List.mem_of_getElem? hy)
    unfold Errand.plain at he
    split at he
    · rfl
    · rfl
    · cases he
  · obtain ⟨e, he, rfl⟩ := hstart y (List.mem_of_getElem? hy)
    unfold Errand.plain at he
    split at he
    · exact fun hp => by cases hp
    · trivial
    · cases he
  · rw [hnone _ fun e => by cases e <;> simp [Errand.start, Caller.accepts, Counting.created?]]
    exact Census.tally_of_isSome_eq_false (by rw [ofErrands, hc.find?_eq_none]; rfl)
  · rw [hnone _ fun e => by cases e <;> simp [Errand.start, Caller.creates, Counting.created?]]
    rw [ofErrands, hc.find?_eq_none]
    rfl
  · rw [hnone _ fun e => by cases e <;> rfl]
    exact hc.processed
  · rw [hnone _ fun e => by cases e <;> rfl]
    rfl
  · rw [hnone _ fun e => by cases e <;> rfl, ofErrands, hc.handOff]
    rfl

theorem Tallied.after {t : Traffic} (h : t.Tallied late) (schedule : List Nat) :
    (t.after schedule).Tallied late :=
  after_induction (P := Tallied late) (fun _ _ _ hx hb hu => hu.turn hx hb) schedule h

end Traffic

/-! ## When everybody is through -/

namespace Caller

/-- Does the caller increment the key? -/
def increments (k : Key) : Caller → Bool
  | counting l _ _ => l.same k
  | _ => false

/-- Does the caller seal the census? -/
def closes : Caller → Bool
  | sealing _ => true
  | _ => false

/-- What an increment or a seal has answered. -/
def answer : Caller → Option Bool
  | counting _ _ (.counted created) => some created
  | counting _ _ .late => some false
  | sealing (.sealed new) => some new
  | _ => none

/-- **A caller that is through has answered**, unless it broke off. -/
theorem cases_of_settled (hs : x.settled = true) (hp : x.plain = true) :
    (∃ k r created, x = .counting k (.ok r) (.counted created)) ∨
      (∃ k r, x = .counting k (.ok r) .late) ∨ ∃ new, x = .sealing (.sealed new) := by
  cases x with
  | counting k answer p =>
    cases answer with
    | error e => cases hp
    | ok r =>
      cases p with
      | counted created => exact Or.inl ⟨k, r, created, rfl⟩
      | late => exact Or.inr (Or.inl ⟨k, r, rfl⟩)
      | probing | entering | accounting | checking | pruning | rechecking => cases hs
  | sealing p =>
    cases p with
    | sealed new => exact Or.inr (Or.inr ⟨new, rfl⟩)
    | waiting | marking | snapshotting => cases hs
  | pruning | taking | fetching | broken => cases hp

end Caller

namespace Traffic

/-- How many increments of the key were not refused. -/
def accepted (t : Traffic) (k : Key) : Nat :=
  t.callers.countP fun x => x.increments k && !x.late

/-- **What increments and seals have done to a census**: each key has been counted once for each
increment of it that was not refused; one of these has created it, and left its payload; each of
them has been processed; and if anybody seals, one of the seals has done it, and has published the
keys that are there. -/
structure Linearized (t : Traffic) : Prop where
  unbroken (e : Errand) (f : Fault) : Caller.broken e f ∉ t.callers
  counts (k : Key) : (Census.countOf k).run t.census =
    ⟨.ok (if t.accepted k = 0 then none else some (t.accepted k)), t.census, []⟩
  creation (k : Key) : 0 < t.accepted k →
    (t.callers.countP fun x => x.increments k && x.answer == some true) = 1 ∧
      ∃ r, (Census.retained k).run t.census = ⟨.ok r, t.census, []⟩ ∧
        ∀ l payload, .counting l payload (.counted true) ∈ t.callers → l.same k = true →
          payload = .ok r
  processed : t.census.processed = t.callers.countP fun x => !x.closes && !x.late
  seals : .sealing ∈ t.callers.map Caller.errand →
    (t.callers.countP fun x => x.closes && x.answer == some true) = 1 ∧
      ∃ h, t.census.handOff = some h ∧ (∀ k, (∃ l ∈ h.keys, l.same k = true) ↔ 0 < t.accepted k) ∧
        h.keys.toList.Pairwise fun k l => k.same l = false

variable {t : Traffic} {late : Nat}

section Through

variable (h : t.Tallied late) (hs : ∀ y ∈ t.callers, y.settled = true)

include h

theorem Tallied.plain_of_mem (hy : y ∈ t.callers) : y.plain = true := by
  obtain ⟨j, hj⟩ := List.mem_iff_getElem?.1 hy
  exact h.plain j y hj

theorem Tallied.owns_of_mem (hy : y ∈ t.callers) : y.Owns t.census := by
  obtain ⟨j, hj⟩ := List.mem_iff_getElem?.1 hy
  exact h.owns j y hj

include hs

/-- **Two counts of callers agree** if they agree on those that are through. -/
theorem Tallied.countP_congr {f g : Caller → Bool}
    (hcounted : ∀ k r created, f (.counting k (.ok r) (.counted created)) =
      g (.counting k (.ok r) (.counted created)))
    (hlate : ∀ k r, f (.counting k (.ok r) .late) = g (.counting k (.ok r) .late))
    (hseal : ∀ new, f (.sealing (.sealed new)) = g (.sealing (.sealed new))) :
    t.callers.countP f = t.callers.countP g := by
  refine List.countP_congr fun y hy => ?_
  obtain ⟨k, r, created, rfl⟩ | ⟨k, r, rfl⟩ | ⟨new, rfl⟩ :=
    Caller.cases_of_settled (hs y hy) (h.plain_of_mem hy)
  · rw [hcounted]
  · rw [hlate]
  · rw [hseal]

/-- **A key has been counted once for each increment of it** that was not refused. -/
theorem Tallied.tally_eq (k : Key) : t.census.tally k = t.accepted k := by
  rw [h.counts, accepted]
  refine h.countP_congr hs (fun _ _ _ => rfl) (fun l r => ?_) fun _ => rfl
  simp [Caller.accepts, Caller.late, Caller.increments, Counting.created?]

/-- A key is there if an increment of it was not refused. -/
theorem Tallied.isSome_find?_iff (k : Key) :
    (t.census.find? k).isSome = true ↔ 0 < t.accepted k := by
  rw [← h.tally_eq hs, Census.tally]
  cases hk : t.census.find? k with
  | none => simp
  | some g => simpa using h.orderly.sound.count_pos hk

theorem Tallied.countOf_eq (k : Key) : (t.census.find? k).map Group.count =
    if t.accepted k = 0 then none else some (t.accepted k) := by
  rw [← h.tally_eq hs, Census.tally]
  cases hg : t.census.find? k with
  | none => rfl
  | some g =>
    have hpos := h.orderly.sound.count_pos hg
    exact (if_neg (Nat.ne_of_gt hpos)).symm

/-- **As many increments of a key have answered that they created it** as there are groups of it. -/
theorem Tallied.creators (k : Key) :
    (t.callers.countP fun x => x.increments k && x.answer == some true) =
      (t.census.find? k).isSome.toNat := by
  rw [h.creation]
  exact h.countP_congr hs (fun _ _ _ => rfl) (fun _ _ => rfl) fun _ => rfl

/-- **As many seals have answered that they took effect** as there are hand-offs. -/
theorem Tallied.closers : (t.callers.countP fun x => x.closes && x.answer == some true) =
    t.census.handOff.isSome.toNat := by
  rw [h.seals]
  exact h.countP_congr hs (fun _ _ _ => rfl) (fun _ _ => rfl) fun new => by cases new <;> rfl

/-- **If anybody came to seal, there is a hand-off.** -/
theorem Tallied.exists_handOff (hseal : .sealing ∈ t.callers.map Caller.errand) :
    ∃ ho, t.census.handOff = some ho := by
  obtain ⟨y, hy, herrand⟩ := List.mem_map.1 hseal
  refine Option.isSome_iff_exists.1 ?_
  obtain ⟨k, r, created, rfl⟩ | ⟨k, r, rfl⟩ | ⟨new, rfl⟩ :=
    Caller.cases_of_settled (hs y hy) (h.plain_of_mem hy)
  · cases herrand
  · cases herrand
  · cases new with
    | false => exact h.owns_of_mem hy
    | true =>
      -- its own seal counts
      have hpos : 0 < t.callers.countP Caller.seals := List.countP_pos_iff.2 ⟨_, hy, rfl⟩
      rw [← h.seals] at hpos
      by_contra hnone
      rw [Bool.eq_false_iff.2 hnone] at hpos
      cases hpos

/-- **The sums say it all** once everybody is through. -/
theorem Tallied.linearized : t.Linearized where
  unbroken e f hbroken := by cases h.plain_of_mem hbroken
  counts k := by
    rw [Census.run_countOf, h.healthy.shard, h.countOf_eq hs]
    rfl
  creation k hk := by
    obtain ⟨g, hg⟩ := Option.isSome_iff_exists.1 ((h.isSome_find?_iff hs k).2 hk)
    refine ⟨by rw [h.creators hs, hg]; rfl, g.retained, ?_, fun l payload hl hlk => ?_⟩
    · rw [Census.run_retained, h.healthy.shard, hg]
      rfl
    · cases payload with
      | error e => cases h.plain_of_mem hl
      | ok r =>
        obtain ⟨g', hg', hr⟩ := h.owns_of_mem hl rfl
        rw [h.orderly.sound.find?_congr hlk, hg] at hg'
        obtain rfl := Option.some.inj hg'
        rw [hr]
  processed := by
    rw [h.processed]
    exact h.countP_congr hs (fun _ _ _ => rfl) (fun _ _ => rfl) fun _ => rfl
  seals hseal := by
    obtain ⟨ho, hh⟩ := h.exists_handOff hs hseal
    have hf := h.orderly.handsOff ho hh
    refine ⟨by rw [h.closers hs, hh]; rfl, ho, hh, fun k => ?_, hf.differ h.orderly.sound⟩
    rw [hf.mem_iff h.orderly.sound, h.isSome_find?_iff hs]

end Through

/-- **Increments and seals linearize**: whatever the order of their sections, once all of them have
answered it is as if each had happened at one time. -/
theorem increments_linearize {c : Census} (hc : c.Fresh) (hcap : c.limits.cap = none)
    {errands : List Errand} (hplain : ∀ e ∈ errands, e.plain = true) (schedule : List Nat)
    (hs : ∀ y ∈ ((ofErrands c errands).after schedule).callers, y.settled = true) :
    ((ofErrands c errands).after schedule).callers.map Caller.errand = errands ∧
      ((ofErrands c errands).after schedule).Linearized := by
  refine ⟨?_, ((tallied_ofErrands hc hcap hplain).after schedule).linearized hs⟩
  rw [errands_after, errands_ofErrands]

/-- Some callers that count and seal. -/
def bustle (limits : Limits) (a b : Key) (r : Record) : Traffic :=
  ofErrands (Census.pair limits)
    [.counting a (.ok (some r)), .counting a (.ok none), .counting b (.ok none), .sealing, .sealing]

/-- Two increments race for a key, a third is refused, and two callers seal. -/
theorem increments_linearize_racing :
    let r := .field "id" (.int 1) .empty
    let t := bustle {} (Key.ofRecord r) (Key.ofRecord (.field "id" (.int 2) .empty)) r
    (t.after [0, 1, 1, 0, 2, 3, 3, 2, 3, 3, 3, 0, 1, 4]).Linearized := by
  have hbustle : ∀ a b r schedule,
      ((bustle {} a b r).after schedule).callers.all Caller.settled = true →
        ((bustle {} a b r).after schedule).Linearized := by
    intro a b r schedule hs
    refine (increments_linearize (Census.fresh_pair _) rfl (fun e he => ?_) schedule
      (List.all_eq_true.1 hs)).2
    simp only [List.mem_cons, List.not_mem_nil, or_false] at he
    rcases he with rfl | rfl | rfl | rfl | rfl <;> rfl
  exact hbustle _ _ _ _ (by decide +kernel)

end Traffic

end Muster
