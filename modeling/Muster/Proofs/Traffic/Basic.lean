import Muster.Proofs.Replacing
import Muster.Proofs.Traffic.Calls

/-!
# Proofs/Traffic/Basic — callers that share a census

Any number of callers use one census at a time. A schedule names, one after the other, the caller
that makes its next critical section, so that every interleaving of sections is the run of some
schedule (`Traffic.after`). A caller that would have to wait for the lock of the seal, and one that
is through, lets its turn pass.

* `Traffic.act_cases` — what one turn does.
* `Traffic.after_induction` — what every turn preserves holds after every schedule.
-/

namespace Muster

/-! ## Callers -/

/-- **What a caller came for.** -/
inductive Errand
  | counting (k : Key) (answer : Except Fault (Option Record))
  | pruning (threshold : Nat)
  | sealing
  | taking
  | fetching (g : Config)

/-- **A caller**: its errand, and how far it has come or the fault with which it broke off. -/
inductive Caller
  | counting (k : Key) (answer : Except Fault (Option Record)) (p : Counting)
  | pruning (threshold : Nat) (p : Sweep)
  | sealing (p : Sealing)
  | taking (answer : Option (Taken Key))
  | fetching (g : Config) (p : Fetching)
  | broken (errand : Errand) (e : Fault)

/-- A caller that has not begun. -/
def Errand.start : Errand → Caller
  | counting k answer => .counting k answer .probing
  | pruning threshold => .pruning threshold .opening
  | sealing => .sealing .waiting
  | taking => .taking none
  | fetching g => .fetching g .asking

namespace Caller

/-- What the caller came for. -/
def errand : Caller → Errand
  | counting k answer _ => .counting k answer
  | pruning threshold _ => .pruning threshold
  | sealing _ => .sealing
  | taking _ => .taking
  | fetching g _ => .fetching g
  | broken errand _ => errand

/-- **The next section of a caller.** -/
def step : Caller → Call Census Caller
  | counting k answer p => .counting k answer <$> p.step k (.answering answer)
  | pruning threshold p => .pruning threshold <$> p.step threshold
  | sealing p => .sealing <$> p.step
  | taking none => do
    match ← Census.take with
    | .waiting => return .taking none
    | t => return .taking (some t)
  | taking (some t) => return .taking (some t)
  | fetching g p => .fetching g <$> p.step g
  | broken errand e => return .broken errand e

/-- A caller that takes a key goes on asking until there is a hand-off. -/
theorem run_step_taking (c : Census) :
    (step (taking none)).run c =
      match c.handOff with
      | none => if c.sealPoisoned then ⟨.error .poisoned, c, []⟩ else ⟨.ok (taking none), c, []⟩
      | some h =>
        ⟨.ok (taking (some (match h.take.1 with | none => .exhausted | some k => .item k))),
          c.claimed h, []⟩ := by
  rw [step, Call.run_bind, Census.run_take]
  cases c.handOff with
  | none => by_cases hp : c.sealPoisoned = true <;> simp [hp]
  | some h =>
    dsimp only
    cases h.take.1 <;> rfl

/-- The caller after a section that ended like this. -/
def next (x : Caller) : Except Fault Caller → Caller
  | .ok y => y
  | .error e => .broken x.errand e

/-- Does the caller hold the lock of the seal? -/
def holds : Caller → Bool
  | sealing .marking | sealing (.snapshotting ..) => true
  | _ => false

/-- Does the caller need the lock of the seal for its next section? -/
def queues : Caller → Bool
  | sealing .waiting => true
  | _ => false

/-- **Is the caller through?** -/
def settled : Caller → Bool
  | counting _ _ (.counted _) | counting _ _ .late => true
  | pruning _ (.swept _) => true
  | sealing (.sealed _) => true
  | taking (some _) => true
  | fetching _ (.fetched _) => true
  | broken .. => true
  | _ => false

@[simp] theorem errand_start (e : Errand) : e.start.errand = e := by
  cases e <;> rfl

/-- **Nobody changes errands.** -/
theorem errand_next (x : Caller) (c : Census) :
    (x.next (x.step.run c).result).errand = x.errand := by
  have hmap : ∀ {α : Type} (f : α → Caller) (call : Call Census α), (∀ a, (f a).errand = x.errand) →
      (x.next ((f <$> call).run c).result).errand = x.errand := by
    intro α f call hf
    rw [Call.run_map]
    cases (call.run c).result with
    | error e => rfl
    | ok a => exact hf a
  cases x with
  | counting k answer p => exact hmap _ _ fun _ => rfl
  | pruning threshold p => exact hmap _ _ fun _ => rfl
  | sealing p => exact hmap _ _ fun _ => rfl
  | taking answer =>
    cases answer with
    | some t => rfl
    | none =>
      rw [run_step_taking]
      cases c.handOff with
      | none => cases c.sealPoisoned <;> rfl
      | some h => rfl
  | fetching g p => exact hmap _ _ fun _ => rfl
  | broken errand e => rfl

end Caller

/-! ## Traffic -/

/-- **A census and its callers.** -/
structure Traffic where
  census : Census
  callers : List Caller

namespace Traffic

/-- Callers that come to a census. -/
def ofErrands (c : Census) (errands : List Errand) : Traffic :=
  { census := c, callers := errands.map Errand.start }

@[simp] theorem errands_ofErrands (c : Census) (errands : List Errand) :
    (ofErrands c errands).callers.map Caller.errand = errands := by
  simp [ofErrands, Function.comp_def]

/-- Does a caller have to wait for somebody who holds the lock of the seal? -/
def blocks (t : Traffic) (x : Caller) : Bool := x.queues && t.callers.any Caller.holds

/-- The traffic after a caller has made its next section. -/
def turn (t : Traffic) (i : Nat) (x : Caller) : Traffic :=
  { census := (x.step.run t.census).state
    callers := t.callers.set i (x.next (x.step.run t.census).result) }

/-- **A caller's turn.** -/
def act (t : Traffic) (i : Nat) : Traffic :=
  match t.callers[i]? with
  | none => t
  | some x => if t.blocks x then t else t.turn i x

/-- **The traffic after a schedule**, which says whose turn it is, time after time. -/
def after (t : Traffic) (schedule : List Nat) : Traffic := schedule.foldl act t

variable {t : Traffic}

/-- **In a turn nothing happens, or a caller that need not wait makes its next section.** -/
theorem act_cases (t : Traffic) (i : Nat) :
    t.act i = t ∨ ∃ x, t.callers[i]? = some x ∧ t.blocks x = false ∧ t.act i = t.turn i x := by
  unfold act
  cases hx : t.callers[i]? with
  | none => exact Or.inl rfl
  | some x =>
    cases hb : t.blocks x with
    | true => exact Or.inl (if_pos hb)
    | false => exact Or.inr ⟨x, rfl, hb, if_neg (by simp [hb])⟩

/-- **What every turn preserves holds after every schedule.** -/
theorem after_induction {P : Traffic → Prop}
    (hturn : ∀ t i x, t.callers[i]? = some x → t.blocks x = false → P t → P (t.turn i x))
    (schedule : List Nat) (h : P t) : P (t.after schedule) := by
  induction schedule generalizing t with
  | nil => exact h
  | cons i schedule ih =>
    refine ih ?_
    obtain hi | ⟨x, hx, hb, hi⟩ := t.act_cases i
    · rwa [hi]
    · rw [hi]
      exact hturn t i x hx hb h

/-- **Whose errand is whose never changes.** -/
theorem errands_after (t : Traffic) (schedule : List Nat) :
    (t.after schedule).callers.map Caller.errand = t.callers.map Caller.errand := by
  refine after_induction (P := fun u => u.callers.map Caller.errand = t.callers.map Caller.errand)
    (fun u i x hx _ hu => ?_) schedule rfl
  rw [← hu]
  obtain ⟨hi, rfl⟩ := List.getElem?_eq_some_iff.1 hx
  refine List.ext_getElem (by simp [turn]) fun j hj _ => ?_
  simp only [turn, List.getElem_map, List.getElem_set]
  split
  · rename_i hij
    subst hij
    exact Caller.errand_next _ _
  · rfl

/-- A caller after somebody's turn is the one whose turn it was, or as before. -/
theorem callers_turn {i j : Nat} {x y : Caller} (hx : t.callers[i]? = some x)
    (hy : (t.turn i x).callers[j]? = some y) :
    (j = i ∧ y = x.next (x.step.run t.census).result) ∨ (j ≠ i ∧ t.callers[j]? = some y) :=
  getElem?_set_cases hx hy

end Traffic

end Muster
