import Muster.Call

/-!
# Proofs/Calls — calls on a part of the state, how calls end, calls that keep to a relation, calls
that answer, and calls made twice

* `Call.within_bind` — calls on a part of the state compose on that part.
* `Call.ends` — the answer and the state that a call leaves, without the notices.
* `Call.Yields` — from every state of a kind a call answers, and what it answers and leaves is
  known.
* `Call.Keeps` — wherever a call starts, it ends in a state that is related to the one it found.
* `Call.Preserves` — wherever a call starts, it leaves something of the state as it is.
* `Call.Matches` — made on two states that are related, a call does not tell them apart.
-/

namespace Muster.Call

variable {σ τ α β : Type}

/-- An answer made of what a call answers. -/
theorem run_map_ok {c : Call σ α} {s t : σ} {a : α} {ns : List Notice}
    (h : c.run s = ⟨.ok a, t, ns⟩) (f : α → β) : (f <$> c).run s = ⟨.ok (f a), t, ns⟩ := by
  rw [run_map, h]
  rfl

/-! ## Calls on a part of the state -/

/-- **Calls on a part of the state compose on that part.** -/
theorem within_bind (get : σ → τ) (put : τ → σ → σ) (hget : ∀ t s, get (put t s) = t)
    (hput : ∀ t u s, put u (put t s) = put u s) (c : Call τ α) (f : α → Call τ β) :
    (c >>= f).within get put = c.within get put >>= fun a => (f a).within get put := by
  funext s
  show ((c >>= f).within get put).run s =
    (c.within get put >>= fun a => (f a).within get put).run s
  rw [run_within, run_bind, run_bind, run_within]
  rcases c.run (get s) with ⟨⟨e⟩ | ⟨a⟩, t, ns⟩
  · rfl
  · simp only [run_within, hget, hput]

theorem within_pure (get : σ → τ) (put : τ → σ → σ) (hput : ∀ s, put (get s) s = s) (a : α) :
    (pure a : Call τ α).within get put = pure a := by
  funext s
  show ((pure a : Call τ α).within get put).run s = _
  rw [run_within, run_pure, hput]
  rfl

/-! ## Calls that are repeated -/

/-- A call repeated for the elements of two lists in turn. -/
theorem forEach_append (f : β → Call σ Unit) (bs cs : List β) :
    forEach f (bs ++ cs) = forEach f bs >>= fun _ => forEach f cs := by
  induction bs with
  | nil => exact (pure_bind () fun _ => forEach f cs).symm
  | cons b bs ih => simp only [List.cons_append, forEach, ih, bind_assoc]

/-! ## How calls end -/

/-- **How a call ends**, but for the notices that it leaves. -/
def ends (c : Call σ α) (s : σ) : Except Fault α × σ := ((c.run s).result, (c.run s).state)

theorem ends_of_run {c : Call σ α} {s t : σ} {r : Except Fault α} {ns : List Notice}
    (h : c.run s = ⟨r, t, ns⟩) : c.ends s = (r, t) := by
  rw [ends, h]

theorem ends_bind (c : Call σ α) (f : α → Call σ β) (s : σ) :
    (c >>= f).ends s =
      match c.ends s with
      | (.ok a, t) => (f a).ends t
      | (.error e, t) => (.error e, t) := by
  rw [ends, run_bind, ends]
  rcases c.run s with ⟨⟨e⟩ | ⟨a⟩, t, ns⟩ <;> rfl

theorem ends_bind_ok {c : Call σ α} {f : α → Call σ β} {s t : σ} {a : α}
    (h : c.ends s = (.ok a, t)) : (c >>= f).ends s = (f a).ends t := by
  rw [ends_bind, h]

theorem ends_read_bind (f : σ → Call σ α) (s : σ) : (read >>= f).ends s = (f s).ends s :=
  ends_bind_ok (ends_of_run (run_read s))

/-! ## Calls that keep to a relation -/

/-- **Wherever the call starts, it ends in a state that is related to the one it found**, whether it
answers or breaks off. -/
def Keeps (R : σ → σ → Prop) (c : Call σ α) : Prop := ∀ s, R s (c.run s).state

section Keeps

variable {R : σ → σ → Prop}

/-- **Two calls that keep to a transitive relation do so together.** -/
theorem Keeps.bind (htrans : ∀ s t u, R s t → R t u → R s u) {c : Call σ α} {f : α → Call σ β}
    (hc : Keeps R c) (hf : ∀ a, Keeps R (f a)) : Keeps R (c >>= f) := by
  intro s
  have hs := hc s
  rw [run_bind]
  rcases h : c.run s with ⟨⟨e⟩ | ⟨a⟩, t, ns⟩
  · rw [h] at hs
    exact hs
  · rw [h] at hs
    exact htrans _ _ _ hs (hf a t)

end Keeps

/-- **Wherever the call starts, it leaves as it is what `f` shows of the state.** -/
def Preserves (f : σ → β) (call : Call σ α) : Prop := call.Keeps fun s t => f t = f s

theorem Preserves.bind {γ : Type} {f : σ → γ} {call : Call σ α} {next : α → Call σ β}
    (h : call.Preserves f) (hnext : ∀ a, (next a).Preserves f) : (call >>= next).Preserves f :=
  Keeps.bind (fun _ _ _ h h' => h'.trans h) h hnext

theorem Preserves.of_ends {f : σ → β} {call : Call σ α} {s t : σ} {r : Except Fault α}
    (h : call.Preserves f) (hends : call.ends s = (r, t)) : f t = f s :=
  (congrArg f (congrArg Prod.snd hends)).symm.trans (h s)

/-! ## Calls that answer -/

/-- **From every state with `P` the call answers**, and `Q` holds of its answer and the state it
leaves. -/
def Yields (P : σ → Prop) (c : Call σ α) (Q : α → σ → Prop) : Prop :=
  ∀ s, P s → ∃ a, (c.run s).result = .ok a ∧ Q a (c.run s).state

section Yields

variable {P : σ → Prop} {Q : α → σ → Prop}

theorem yields_pure {a : α} (h : ∀ s, P s → Q a s) : Yields P (pure a) Q :=
  fun s hs => ⟨a, rfl, h s hs⟩

/-- **Two calls of which each answers answer together.** -/
theorem Yields.bind {R : β → σ → Prop} {c : Call σ α} {f : α → Call σ β} (hc : Yields P c Q)
    (hf : ∀ a, Yields (Q a) (f a) R) : Yields P (c >>= f) R := by
  intro s hs
  obtain ⟨a, ha, hq⟩ := hc s hs
  rcases h : c.run s with ⟨r, t, ns⟩
  rw [h] at ha hq
  obtain rfl : r = .ok a := ha
  rw [run_bind_ok h]
  exact hf a t hq

/-- An answer made of what a call answers. -/
theorem Yields.map {P' : σ → Prop} {c : Call σ α} (hc : Yields P c fun _ => P') (f : α → β) :
    Yields P (f <$> c) fun _ => P' := by
  rw [← bind_pure_comp]
  exact hc.bind fun a => yields_pure fun _ h => h

end Yields

/-! ## Calls made twice

Two runs of one call, side by side: what holds of its elementary calls holds of the call. -/

/-- **Made on two states that are related, the call answers alike and says the same**, and the
states that it leaves are related again. -/
def Matches (R : σ → σ → Prop) (c : Call σ α) : Prop :=
  ∀ s t, R s t → (c.run t).result = (c.run s).result ∧ (c.run t).notices = (c.run s).notices ∧
    R (c.run s).state (c.run t).state

section Matches

variable {R : σ → σ → Prop}

theorem matches_pure (a : α) : (pure a : Call σ α).Matches R := fun _ _ h => ⟨rfl, rfl, h⟩

theorem matches_fail (e : Fault) : (fail e : Call σ α).Matches R := fun _ _ h => ⟨rfl, rfl, h⟩

theorem matches_note (n : Notice) : (note n : Call σ Unit).Matches R := fun _ _ h => ⟨rfl, rfl, h⟩

theorem matches_gets {f : σ → α} (hf : ∀ s t, R s t → f t = f s) : (gets f).Matches R :=
  fun s t h => ⟨congrArg Except.ok (hf s t h), rfl, h⟩

theorem matches_change {f : σ → σ} (hf : ∀ s t, R s t → R (f s) (f t)) : (change f).Matches R :=
  fun s t h => ⟨rfl, rfl, hf s t h⟩

/-- **Two calls of which neither tells related states apart** do not do so together. -/
theorem Matches.bind {c : Call σ α} {f : α → Call σ β} (hc : c.Matches R)
    (hf : ∀ a, (f a).Matches R) : (c >>= f).Matches R := by
  intro s t h
  obtain ⟨hresult, hnotices, hstate⟩ := hc s t h
  rcases hs : c.run s with ⟨r, s', ns⟩
  rcases ht : c.run t with ⟨r', t', ns'⟩
  rw [hs, ht] at hresult hnotices hstate
  obtain rfl : r' = r := hresult
  obtain rfl : ns' = ns := hnotices
  cases r' with
  | error e =>
    rw [run_bind_error hs, run_bind_error ht]
    exact ⟨rfl, rfl, hstate⟩
  | ok a =>
    obtain ⟨hresult, hnotices, hstate⟩ := hf a s' t' hstate
    rw [run_bind_ok hs, run_bind_ok ht]
    exact ⟨hresult, congrArg (ns' ++ ·) hnotices, hstate⟩

/-- A call that follows a reading need only match for what is read in related states. -/
theorem Matches.gets_bind {f : σ → β} {g : β → Call σ α} {b : β}
    (hf : ∀ s t, R s t → f s = b ∧ f t = b) (hg : (g b).Matches R) : (gets f >>= g).Matches R := by
  intro s t h
  obtain ⟨hs, ht⟩ := hf s t h
  rw [run_bind_ok (run_gets f s), run_bind_ok (run_gets f t), hs, ht]
  simpa using hg s t h

theorem Matches.map {c : Call σ α} (hc : c.Matches R) (f : α → β) : (f <$> c).Matches R := by
  rw [← bind_pure_comp]
  exact hc.bind fun a => matches_pure (f a)

theorem Matches.caught {c : Call σ α} (hc : c.Matches R) : c.caught.Matches R := fun s t h =>
  ⟨congrArg Except.ok (hc s t h).1, (hc s t h).2⟩

end Matches

end Muster.Call
