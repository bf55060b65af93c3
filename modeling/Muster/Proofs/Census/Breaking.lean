import Muster.Proofs.Census.Cycle
import Muster.Proofs.Census.Twins

/-!
# Proofs/Census/Breaking — what a call that breaks off leaves behind

A call that breaks off undoes nothing. What it has done by then is little:

* `breaking_off_leaves` — clearing has emptied the shards before the first one in use, and sealing
  has raised the mark; the counters and the hand-off are as they were.
* `giving_up_costs_a_shard` — a payload that gives up costs the shard of its key. To calls that keep
  to the other shards the census answers as if nothing had happened (`Twins.run_attemptAll`).
-/

namespace Muster.Census

variable {c d base : Census}

/-- **The readings that need no lock are the same**, but for the mark. -/
structure Unmoved (c d : Census) : Prop where
  size : d.size = c.size
  processed : d.processed = c.processed
  remaining : d.remaining = c.remaining
  seals : d.seals = c.seals

/-! ## Clearing and sealing -/

theorem unmoved_emptied (c : Census) (is : List Nat) :
    c.Unmoved { c.emptied is with sealPoisoned := true } := by
  obtain ⟨shards, hpos, heq⟩ := c.emptied_eq is
  rw [heq]
  exact ⟨rfl, rfl, rfl, rfl⟩

/-- **Clearing and sealing that break off leave the counters and the hand-off as they were.** Where
the lock of the seal was poisoned they leave everything. Clearing breaks off otherwise because
somebody is inside a shard: it has then emptied the shards before the first such one, and no other.
Sealing breaks off otherwise at a poisoned shard: it has then raised the mark, and no shard has
changed. -/
theorem breaking_off_leaves (c : Census) :
    (∀ e d ns, clear.run c = ⟨.error e, d, ns⟩ → c.Unmoved d ∧ d.sealed = c.sealed ∧
      ((e = .poisoned ∧ c.sealPoisoned = true ∧ ∀ j, (d.shard j).groups = (c.shard j).groups) ∨
      (e = .censusInUse ∧ ∃ i, (c.shard i).held = true ∧ (∀ j < i, (c.shard j).held = false) ∧
        ∀ j, (d.shard j).groups = if j < i then [] else (c.shard j).groups))) ∧
    (∀ e d ns, trySeal.run c = ⟨.error e, d, ns⟩ → c.Unmoved d ∧ e = .poisoned ∧
      (∀ j, (d.shard j).groups = (c.shard j).groups) ∧
      ((c.sealPoisoned = true ∧ d.sealed = c.sealed) ∨
      (c.sealPoisoned = false ∧ (∃ i, c.Poisoned i) ∧ d.sealed = true))) := by
  refine ⟨fun e d ns h => ?_, fun e d ns h => ?_⟩
  · obtain ⟨hlock, hrun⟩ | ⟨-, -, hrun⟩ | ⟨i, hi, hbefore, -, hrun⟩ := c.clear_cases
    · cases hrun.symm.trans h
      exact ⟨⟨rfl, rfl, rfl, rfl⟩, rfl, .inl ⟨rfl, hlock, fun _ => rfl⟩⟩
    · cases hrun.symm.trans h
    · cases hrun.symm.trans h
      refine ⟨c.unmoved_emptied _, ?_, .inr ⟨rfl, i, hi, hbefore, fun j => ?_⟩⟩
      · obtain ⟨shards, hpos, heq⟩ := c.emptied_eq (List.range i)
        rw [heq]
      · show ((c.emptied (List.range i)).shard j).groups = _
        rw [shard_emptied]
        simp only [List.mem_range]
        split <;> rfl
  · obtain ⟨hlock, hrun⟩ | ⟨hlock, -, hp, hrun⟩ | ⟨new, d', ns', hrun⟩ := c.trySeal_cases
    · cases hrun.symm.trans h
      exact ⟨⟨rfl, rfl, rfl, rfl⟩, rfl, fun _ => rfl, .inl ⟨hlock, rfl⟩⟩
    · cases hrun.symm.trans h
      exact ⟨⟨rfl, rfl, rfl, rfl⟩, rfl, fun _ => rfl, .inr ⟨hlock, hp, rfl⟩⟩
    · cases hrun.symm.trans h

/-- Somebody inside the second shard keeps clearing from reaching it, and somebody who broke off
there keeps sealing from publishing. -/
theorem breaking_off_leaves_spoilt :
    let k := Key.ofRecord (.field "id" (.int 7) .empty)
    let c := ((count k .nothing).run (pair {})).state.modifyShard 1 fun s => { s with held := true }
    let b := spoilt {} k (.ofRecord (.field "id" (.int 1) .empty))
    (∃ d, clear.run c = ⟨.error .censusInUse, d, []⟩ ∧ c.Unmoved d ∧
      (c.shard 0).groups.length = 1 ∧ (d.shard 0).groups = []) ∧
    ∃ d, trySeal.run b = ⟨.error .poisoned, d, []⟩ ∧ b.Unmoved d ∧
      b.sealed = false ∧ d.sealed = true ∧ ∀ j, (d.shard j).groups = (b.shard j).groups := by
  intro k c b
  have hclear : clear.run c = ⟨.error .censusInUse, (clear.run c).state, []⟩ :=
    Outcome.ext (by decide +kernel) rfl (by decide +kernel)
  have hseal : trySeal.run b = ⟨.error .poisoned, (trySeal.run b).state, []⟩ :=
    Outcome.ext (by decide +kernel) rfl (by decide +kernel)
  refine ⟨⟨_, hclear, ?_⟩, ⟨_, hseal, ?_⟩⟩
  · obtain ⟨hunmoved, -, ⟨hin, -⟩ | ⟨-, i, hi, -, hgroups⟩⟩ :=
      (breaking_off_leaves c).1 _ _ _ hclear
    · cases hin
    · have hpos : 0 < i := Nat.pos_of_ne_zero fun hzero => by
        rw [hzero] at hi
        exact absurd hi (by decide +kernel)
      refine ⟨hunmoved, by decide +kernel, ?_⟩
      rw [hgroups, if_pos hpos]
  · obtain ⟨hunmoved, -, hgroups, ⟨hlock, -⟩ | ⟨-, -, hmark⟩⟩ :=
      (breaking_off_leaves b).2 _ _ _ hseal
    · exact absurd hlock (by decide +kernel)
    · exact ⟨hunmoved, by decide +kernel, hmark, hgroups⟩

/-- A payload that clears the census it is asked by takes a key that was there; a seal that breaks
off leaves its mark. -/
theorem breaking_off_changes :
    let k := Key.ofRecord (.field "id" (.int 7) .empty)
    let l := Key.ofRecord (.field "id" (.int 1) .empty)
    let c := ((count k .nothing).run (pair {})).state
    ((count l .clearing).run c).result = .error .censusInUse ∧
      ((countOf k).run c).result = .ok (some 1) ∧
      ((countOf k).run ((count l .clearing).run c).state).result = .ok none ∧
    (trySeal.run (spoilt {} k l)).result = .error .poisoned ∧ (spoilt {} k l).sealed = false ∧
      (trySeal.run (spoilt {} k l)).state.sealed = true := by
  intro k l c
  refine ⟨?_, ?_, ?_, ?_, ?_, ?_⟩ <;> decide +kernel

/-! ## Payloads that give up -/

/-- **What a caller tries**: a call, or to count a key with a payload that gives up. -/
inductive Attempt
  | call (op : Operation)
  | failing (k : Key) (e : Fault) (said : List Notice)

/-- **An attempt.** -/
def attempt : Attempt → Call Census Reply
  | .call op => perform op
  | .failing k e said => .flag <$> count k (.telling (.error e) said)

/-- **One attempt after the other.** One that breaks off does not keep the caller from the next. -/
def attemptAll : List Attempt → Call Census (List (Except Fault Reply))
  | [] => return []
  | a :: as => do
    let result ← (attempt a).caught
    let results ← attemptAll as
    return result :: results

/-- **Attempts that leave a shard alone**, given in which shard each key is: no key of that shard is
counted or looked up, and nothing is asked for that visits all shards. -/
def Attempt.Elsewhere (slot : Key → Nat) (i : Nat) : Attempt → Prop
  | .call (.increment k _) | .call (.countOf k) | .call (.retained k) | .failing k _ _ => slot k ≠ i
  | .call (.prune _) | .call .trySeal | .call .clear => False
  | .call _ => True

theorem matches_attempt (hcap : base.limits.cap = none) {a : Attempt} {i : Nat}
    (ha : a.Elsewhere base.slot i) : (attempt a).Matches (Twins base (· = i) 0) := by
  cases a with
  | call op =>
    have hop : op.Within base (· = i) := by
      cases op with
      | increment k deposit => exact ⟨ha, .inl hcap⟩
      | countOf k => exact ha
      | retained k => exact ha
      | prune threshold => exact ha.elim
      | trySeal => exact ha.elim
      | clear => exact ha.elim
      | _ => trivial
    intro c d h
    obtain ⟨hresult, hnotices, hstate⟩ := h.perform hop
    rw [Reply.later_zero, Except.map_id] at hresult
    exact ⟨hresult, hnotices, hstate⟩
  | failing k e said =>
    have hp : (Payload.telling (.error e) said).Matches (Twins base (· = i) 0) :=
      fun _ _ h => ⟨rfl, rfl, h⟩
    refine (matches_count ?_ (.inl hcap) hp).map _
    exact ha

/-- **Twins do not tell apart what is tried elsewhere**, whether it is answered or breaks off. -/
theorem matches_attemptAll (hcap : base.limits.cap = none) {i : Nat} : ∀ {as : List Attempt},
    (∀ a ∈ as, a.Elsewhere base.slot i) → (attemptAll as).Matches (Twins base (· = i) 0)
  | [], _ => Call.matches_pure _
  | a :: as, has => by
    have hrest := matches_attemptAll hcap fun b hb => has b (List.mem_cons_of_mem a hb)
    refine (matches_attempt hcap (has a List.mem_cons_self)).caught.bind fun result => ?_
    exact hrest.bind fun results => Call.matches_pure _

/-- Whatever is tried, there are results. -/
theorem yields_attemptAll : ∀ as : List Attempt,
    (attemptAll as).Yields (fun _ => True) fun _ _ => True
  | [] => Call.yields_pure fun _ _ => trivial
  | a :: as => by
    have hcaught : (attempt a).caught.Yields (fun _ => True) fun _ _ => True :=
      fun _ _ => ⟨_, rfl, trivial⟩
    refine hcaught.bind fun result => (yields_attemptAll as).bind fun results => ?_
    exact Call.yields_pure fun _ _ => trivial

/-- **What is tried elsewhere has the same results on twins.** -/
theorem Twins.run_attemptAll {i : Nat} (h : Twins base (· = i) 0 c d)
    (hcap : base.limits.cap = none) {as : List Attempt} (has : ∀ a ∈ as, a.Elsewhere base.slot i) :
    ∃ results c' d' ns, (attemptAll as).run c = ⟨.ok results, c', ns⟩ ∧
      (attemptAll as).run d = ⟨.ok results, d', ns⟩ ∧ Twins base (· = i) 0 c' d' := by
  obtain ⟨results, hc, -⟩ := yields_attemptAll as c trivial
  obtain ⟨hresult, hnotices, hstate⟩ := matches_attemptAll hcap has c d h
  exact ⟨results, _, _, _, Outcome.ext hc rfl rfl, Outcome.ext (hresult.trans hc) rfl hnotices,
    hstate⟩

/-! ### A census in which somebody has broken off inside a shard -/

section PoisonedAt

variable (c) {i : Nat}

/-- **It is a twin of what it was before**, outside of that shard. -/
theorem twins_poisonedAt (i : Nat) : Twins (c.poisonedAt i) (· = i) 0 c (c.poisonedAt i) where
  size_left := (size_modifyShard ..).symm
  size_right := rfl
  limits_left := rfl
  limits_right := rfl
  shard _ hj := shard_modifyShard_of_ne c _ (Ne.symm hj)
  aside _ _ := rfl
  distinct := rfl
  processed := rfl
  mark := rfl
  handOff := rfl
  lock := rfl
  seals := (Nat.zero_add _).symm

theorem slot_poisonedAt (i : Nat) : (c.poisonedAt i).slot = c.slot :=
  funext fun _ => slot_modifyShard ..

/-- No shard has lost a group. -/
theorem groups_poisonedAt (hi : i < c.shards.size) (j : Nat) :
    ((c.poisonedAt i).shard j).groups = (c.shard j).groups := by
  rw [poisonedAt, shard_modifyShard c hi]
  split <;> rfl

theorem find?_poisonedAt (hi : i < c.shards.size) (k : Key) :
    (c.poisonedAt i).find? k = c.find? k := by
  rw [find?, slot_poisonedAt, Shard.find?, groups_poisonedAt c hi]
  rfl

theorem poisoned_poisonedAt (hi : i < c.shards.size) : (c.poisonedAt i).Poisoned i := by
  rw [Poisoned, poisonedAt, shard_modifyShard_self c _ hi]

end PoisonedAt

/-- **A payload that gives up costs the shard of its key, and nothing else.** Let a key be absent
from an open census without a cap, and let its shard be free and not poisoned. If the payload gives
up without touching the census, the increment breaks off likewise; all groups are as they were, and
so are the readings that need no lock. Whatever is then tried in other shards has the same results
as if the increment had never been made; but nobody gets at any key of that shard. -/
theorem giving_up_costs_a_shard {k : Key} (hp : ¬c.Poisoned (c.slot k))
    (hfree : (c.shard (c.slot k)).held = false) (ho : c.sealed = false)
    (hcap : c.limits.cap = none) (hk : c.find? k = none) (e : Fault) (said : List Notice) :
    ∃ d, (count k (.telling (.error e) said)).run c = ⟨.error e, d, said⟩ ∧
      c.Unmoved d ∧ d.sealed = c.sealed ∧ (∀ i, (d.shard i).groups = (c.shard i).groups) ∧
      d.find? k = none ∧
      ∀ as : List Attempt, (∀ a ∈ as, a.Elsewhere c.slot (c.slot k)) →
        ∃ results c' d' ns, (attemptAll as).run c = ⟨.ok results, c', ns⟩ ∧
          (attemptAll as).run d = ⟨.ok results, d', ns⟩ ∧
          ∀ l, c.slot l = c.slot k → d'.Barred l := by
  have hlt := c.slot_lt k
  refine ⟨c.poisonedAt (c.slot k), run_count_failing (eq_false_of_ne_true hp) hfree ho hk e said,
    ⟨rfl, rfl, rfl, rfl⟩, rfl, c.groups_poisonedAt hlt, (c.find?_poisonedAt hlt k).trans hk,
    fun as has => ?_⟩
  have htwins := c.twins_poisonedAt (c.slot k)
  have has' : ∀ a ∈ as, a.Elsewhere (c.poisonedAt (c.slot k)).slot (c.slot k) := by
    rwa [slot_poisonedAt]
  obtain ⟨results, c', d', ns, hc, hd, htwins'⟩ := htwins.run_attemptAll hcap has'
  refine ⟨results, c', d', ns, hc, hd, fun l hl => ?_⟩
  have hl' : (c.poisonedAt (c.slot k)).slot l = c.slot k := by rw [slot_poisonedAt, hl]
  refine htwins'.barred hl' ?_
  rw [hl']
  exact c.poisoned_poisonedAt hlt

/-- Beside a key that could not be entered, what is tried in the other shard has the same results as
without it; this goes on until somebody breaks off there, too. -/
theorem giving_up_costs_a_shard_pair :
    let key := fun i => Key.ofRecord (.field "id" (.int i) .empty)
    let c := ((count (key 7) .nothing).run (pair {})).state
    let as := [.call (.increment (key 7) none), .call (.countOf (key 7)), .call .size,
      .failing (key 8) (.raised none) [], .call (.increment (key 7) none), .call .isSealed]
    ∃ d, (count (key 1) (.raising "payload failed")).run c =
        ⟨.error (.raised (some "payload failed")), d, []⟩ ∧ d.size = 1 ∧
      ∃ results c' d' ns, (attemptAll as).run c = ⟨.ok results, c', ns⟩ ∧
        (attemptAll as).run d = ⟨.ok results, d', ns⟩ ∧ d'.Barred (key 1) := by
  intro key c as
  have hp : ¬c.Poisoned (c.slot (key 1)) := by
    unfold Poisoned
    decide +kernel
  have hk : c.find? (key 1) = none := Option.isNone_iff_eq_none.1 (by decide +kernel)
  have hcap : c.limits.cap = none := by decide +kernel
  have helse : c.slot (key 7) ≠ c.slot (key 1) ∧ c.slot (key 8) ≠ c.slot (key 1) := by
    decide +kernel
  obtain ⟨d, hrun, hunmoved, -, -, -, hrest⟩ := giving_up_costs_a_shard hp (by decide +kernel)
    (by decide +kernel) hcap hk (.raised (some "payload failed")) []
  obtain ⟨results, c', d', ns, hc, hd, hbarred⟩ := hrest as fun a ha => by
    simp only [as, List.mem_cons, List.not_mem_nil, or_false] at ha
    obtain rfl | rfl | rfl | rfl | rfl | rfl := ha
    · exact helse.1
    · exact helse.1
    · trivial
    · exact helse.2
    · exact helse.1
    · trivial
  have hsize : d.size = 1 := by
    rw [hunmoved.size]
    decide +kernel
  exact ⟨d, hrun, hsize, results, c', d', ns, hc, hd, hbarred _ rfl⟩

end Muster.Census
