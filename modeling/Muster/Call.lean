import Muster.Fault
import Muster.Notice

/-!
# Call — calls on a shared state

A `Call σ α` runs on a state, answers with an `α` or breaks off with a fault, and leaves a state
and some notices either way: what a call did before it broke off stays done.

* `LawfulMonad (Call σ)` — calls compose as they should.
* `Call.within` — a call on a part of the state.
* `Call.run_bind` and its kin — what a call that is written out does to a state.
-/

namespace Muster

/-- **What a call did.** -/
@[ext] structure Outcome (σ α : Type) where
  result : Except Fault α
  state : σ
  notices : List Notice

/-- **A call on a state.** -/
def Call (σ α : Type) : Type := σ → Outcome σ α

namespace Call

variable {σ τ α β : Type}

/-- What a call does to a state. -/
def run (c : Call σ α) (s : σ) : Outcome σ α := c s

/-! ## Composition -/

instance : Monad (Call σ) where
  pure a := fun s => ⟨.ok a, s, []⟩
  bind c f := fun s =>
    match c s with
    | ⟨.error e, s, ns⟩ => ⟨.error e, s, ns⟩
    | ⟨.ok a, s, ns⟩ =>
      let o := f a s
      ⟨o.result, o.state, ns ++ o.notices⟩

@[simp] theorem run_pure (a : α) (s : σ) : (pure a : Call σ α).run s = ⟨.ok a, s, []⟩ := rfl

/-- A call that follows one that broke off does nothing. -/
theorem run_bind_error {c : Call σ α} {f : α → Call σ β} {s t : σ} {e : Fault} {ns : List Notice}
    (h : c.run s = ⟨.error e, t, ns⟩) : (c >>= f).run s = ⟨.error e, t, ns⟩ := by
  show (match c s with | ⟨.error e, s, ns⟩ => _ | ⟨.ok a, s, ns⟩ => _) = _
  rw [show c s = _ from h]

/-- A call that follows an answer starts where the answer was given. -/
theorem run_bind_ok {c : Call σ α} {f : α → Call σ β} {s t : σ} {a : α} {ns : List Notice}
    (h : c.run s = ⟨.ok a, t, ns⟩) :
    (c >>= f).run s =
      ⟨((f a).run t).result, ((f a).run t).state, ns ++ ((f a).run t).notices⟩ := by
  show (match c s with | ⟨.error e, s, ns⟩ => _ | ⟨.ok a, s, ns⟩ => _) = _
  rw [show c s = _ from h]
  rfl

theorem bind_pure_id (c : Call σ α) : (c >>= fun a => pure (id a)) = c := by
  funext s
  show (c >>= fun a => pure a).run s = c.run s
  rcases h : c.run s with ⟨⟨e⟩ | ⟨a⟩, t, ns⟩
  · exact run_bind_error h
  · rw [run_bind_ok h]
    simp

theorem pure_bind_apply (a : α) (f : α → Call σ β) : pure a >>= f = f a := by
  funext s
  show (pure a >>= f).run s = (f a).run s
  rw [run_bind_ok (run_pure a s)]
  simp

theorem bind_bind (c : Call σ α) (f : α → Call σ β) (g : β → Call σ τ) :
    (c >>= f) >>= g = c >>= fun a => f a >>= g := by
  funext s
  show ((c >>= f) >>= g).run s = (c >>= fun a => f a >>= g).run s
  rcases h : c.run s with ⟨⟨e⟩ | ⟨a⟩, t, ns⟩
  · rw [run_bind_error h, run_bind_error (run_bind_error h)]
  · rw [run_bind_ok h]
    rcases h' : (f a).run t with ⟨⟨e⟩ | ⟨b⟩, u, ms⟩
    · have hab : (c >>= f).run s = ⟨.error e, u, ns ++ ms⟩ := by rw [run_bind_ok h, h']
      rw [run_bind_error h', run_bind_error hab]
    · have hab : (c >>= f).run s = ⟨.ok b, u, ns ++ ms⟩ := by rw [run_bind_ok h, h']
      rw [run_bind_ok h', run_bind_ok hab, List.append_assoc]

/-- **Calls compose as they should.** -/
instance : LawfulMonad (Call σ) := LawfulMonad.mk' (Call σ) bind_pure_id pure_bind_apply bind_bind

/-! ## Elementary calls -/

/-- The state as it is. -/
def read : Call σ σ := fun s => ⟨.ok s, s, []⟩

/-- What can be read off the state. A call that needs no more than that does not keep the state
alive, which can then be changed in place. -/
def gets (f : σ → α) : Call σ α := fun s => ⟨.ok (f s), s, []⟩

/-- Replaces the state. -/
def write (s : σ) : Call σ Unit := fun _ => ⟨.ok (), s, []⟩

/-- Changes the state. -/
def change (f : σ → σ) : Call σ Unit := fun s => ⟨.ok (), f s, []⟩

/-- Breaks off. -/
def fail (e : Fault) : Call σ α := fun s => ⟨.error e, s, []⟩

/-- An answer or a fault as a call. -/
def ofExcept (r : Except Fault α) : Call σ α := fun s => ⟨r, s, []⟩

/-- Leaves a notice. -/
def note (n : Notice) : Call σ Unit := fun s => ⟨.ok (), s, [n]⟩

/-- **A call on a part of the state.** What surrounds the part stays as it is. -/
def within (get : σ → τ) (put : τ → σ → σ) (c : Call τ α) : Call σ α := fun s =>
  let o := c (get s)
  ⟨o.result, put o.state s, o.notices⟩

/-- A call whose fault becomes part of the answer. -/
def caught (c : Call σ α) : Call σ (Except Fault α) := fun s =>
  let o := c s
  ⟨.ok o.result, o.state, o.notices⟩

/-- A call repeated for each element, in order; the first fault breaks it off. -/
def forEach (f : β → Call σ Unit) : List β → Call σ Unit
  | [] => pure ()
  | b :: bs => do
    f b
    forEach f bs

/-! ## Running

What each way of making a call does to a state. With these, `simp` runs a call that is written
out. -/

theorem run_bind (c : Call σ α) (f : α → Call σ β) (s : σ) :
    (c >>= f).run s =
      match c.run s with
      | ⟨.error e, t, ns⟩ => ⟨.error e, t, ns⟩
      | ⟨.ok a, t, ns⟩ =>
        ⟨((f a).run t).result, ((f a).run t).state, ns ++ ((f a).run t).notices⟩ := rfl

@[simp] theorem run_map (f : α → β) (c : Call σ α) (s : σ) :
    (f <$> c).run s = ⟨(c.run s).result.map f, (c.run s).state, (c.run s).notices⟩ := by
  rw [← bind_pure_comp, run_bind]
  rcases c.run s with ⟨⟨e⟩ | ⟨a⟩, t, ns⟩
  · rfl
  · simp [Except.map]

@[simp] theorem run_read (s : σ) : (read : Call σ σ).run s = ⟨.ok s, s, []⟩ := rfl

@[simp] theorem run_gets (f : σ → α) (s : σ) : (gets f).run s = ⟨.ok (f s), s, []⟩ := rfl

@[simp] theorem run_write (s t : σ) : (write t).run s = ⟨.ok (), t, []⟩ := rfl

@[simp] theorem run_change (f : σ → σ) (s : σ) : (change f).run s = ⟨.ok (), f s, []⟩ := rfl

@[simp] theorem run_fail (e : Fault) (s : σ) :
    (fail e : Call σ α).run s = ⟨.error e, s, []⟩ := rfl

@[simp] theorem run_ofExcept (r : Except Fault α) (s : σ) :
    (ofExcept r : Call σ α).run s = ⟨r, s, []⟩ := rfl

@[simp] theorem run_note (n : Notice) (s : σ) : (note n).run s = ⟨.ok (), s, [n]⟩ := rfl

@[simp] theorem run_within (get : σ → τ) (put : τ → σ → σ) (c : Call τ α) (s : σ) :
    (c.within get put).run s =
      ⟨(c.run (get s)).result, put (c.run (get s)).state s, (c.run (get s)).notices⟩ := rfl

@[simp] theorem run_caught (c : Call σ α) (s : σ) :
    c.caught.run s = ⟨.ok (c.run s).result, (c.run s).state, (c.run s).notices⟩ := rfl

@[simp] theorem run_ite {p : Prop} [Decidable p] (c d : Call σ α) (s : σ) :
    (if p then c else d).run s = if p then c.run s else d.run s :=
  apply_ite (fun c => c.run s) p c d

end Call

end Muster
