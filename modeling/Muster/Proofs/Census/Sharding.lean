import Muster.Proofs.Census.Ledger

/-!
# Proofs/Census/Sharding — the shards of a census do not show

A census answers like its ledger (`Mirrors.performAll`), and what the order in which a seal finds
the keys leaves open is little: which of the keys that are left is taken next (`Ledger.Runs.agree`).
By the time none is left the same keys have been taken (`Ledger.Runs.tells`).

* `sharding_invisible` — two censuses that differ in their shards alone answer alike.
-/

namespace Muster

open Census

namespace Ledger

variable {l m l' m' : Ledger} {order order' : List Key} {op : Operation} {ops : List Operation}
  {replies replies' : List Reply} {ns ns' : List Notice}

/-! ## Ledgers that differ in what is left -/

/-- **Two ledgers that differ in which keys are left**, but not in how many. -/
def Alike (l m : Ledger) : Prop :=
  ∃ left, m = { l with left } ∧ left.map List.length = l.left.map List.length

/-- What two calls did agrees, except for which key was taken and which keys are left. -/
def Agree (o o' : Outcome Ledger Reply) : Prop :=
  ∃ reply reply', o.result = .ok reply ∧ o'.result = .ok reply' ∧ reply.Alike reply' ∧
    o.notices = o'.notices ∧ o.state.Alike o'.state

namespace Alike

theorem refl (l : Ledger) : l.Alike l := ⟨l.left, rfl, rfl⟩

theorem sealed_eq (h : l.Alike m) : m.sealed = l.sealed := by
  obtain ⟨left, rfl, hlength⟩ := h
  show left.isSome = l.left.isSome
  rw [← Option.isSome_map (f := List.length), hlength, Option.isSome_map]

theorem find?_eq (h : l.Alike m) (k : Key) : m.find? k = l.find? k := by
  obtain ⟨left, rfl, -⟩ := h
  rfl

theorem size_eq (h : l.Alike m) : m.size = l.size := by
  obtain ⟨left, rfl, -⟩ := h
  rfl

theorem exceeded_eq (h : l.Alike m) : m.exceeded = l.exceeded := by
  obtain ⟨left, rfl, -⟩ := h
  rfl

theorem threshold_eq (h : l.Alike m) : m.limits.threshold = l.limits.threshold := by
  obtain ⟨left, rfl, -⟩ := h
  rfl

theorem rare_eq (h : l.Alike m) (threshold : Nat) : m.rare threshold = l.rare threshold := by
  have hs := h.sealed_eq
  obtain ⟨left, rfl, -⟩ := h
  rw [rare, hs]
  rfl

theorem grown (h : l.Alike m) (k : Key) (r : Option Record) :
    (l.grown k r).Alike (m.grown k r) := by
  obtain ⟨left, rfl, hlength⟩ := h
  exact ⟨left, rfl, hlength⟩

theorem pruned (h : l.Alike m) (threshold : Nat) :
    (l.pruned threshold).Alike (m.pruned threshold) := by
  rw [Ledger.pruned, Ledger.pruned, h.sealed_eq]
  split
  · exact h
  · obtain ⟨left, rfl, hlength⟩ := h
    exact ⟨left, rfl, hlength⟩

theorem checked (h : l.Alike m) : l.checked.Alike m.checked := by
  rw [Ledger.checked, Ledger.checked, h.exceeded_eq, h.threshold_eq]
  cases l.exceeded with
  | none => exact h
  | some cap => exact h.pruned _

theorem warnings_eq (h : l.Alike m) : m.warnings = l.warnings := by
  rw [warnings, warnings, h.exceeded_eq, h.threshold_eq]
  cases l.exceeded with
  | none => rfl
  | some cap => simp only [h.rare_eq, (h.pruned _).size_eq]

theorem count (h : l.Alike m) (k : Key) (deposit : Option Deposit) :
    Agree (l.count k deposit) (m.count k deposit) := by
  have hgrown := h.grown k (deposit.map Deposit.record)
  rw [Ledger.count, Ledger.count, h.sealed_eq]
  split
  · exact ⟨_, _, rfl, rfl, rfl, rfl, h⟩
  · refine ⟨_, _, rfl, rfl, ?_, ?_, hgrown.checked⟩
    · rw [h.find?_eq]
      rfl
    · simp only [h.find?_eq, hgrown.warnings_eq]

theorem take (h : l.Alike m) : Agree l.take m.take := by
  obtain ⟨left, rfl, hlength⟩ := h
  have hself : l.Alike { l with left } := ⟨left, rfl, hlength⟩
  rw [Ledger.take, Ledger.take]
  cases hl : l.left with
  | none =>
    rw [hl, Option.map_none, Option.map_eq_none_iff] at hlength
    subst hlength
    exact ⟨_, _, rfl, rfl, rfl, rfl, hself⟩
  | some ks =>
    rw [hl] at hlength
    obtain ⟨ks', rfl, hks⟩ := Option.map_eq_some_iff.1 hlength
    cases ks with
    | nil =>
      obtain rfl := List.length_eq_zero_iff.1 hks
      exact ⟨_, _, rfl, rfl, rfl, rfl, hself⟩
    | cons k ks =>
      obtain ⟨k', ks', rfl⟩ := List.exists_cons_of_length_eq_add_one hks
      exact ⟨_, _, rfl, rfl, trivial, rfl, some ks', rfl, congrArg some (Nat.succ.inj hks)⟩

/-- **Calls on ledgers that differ in what is left agree.** -/
theorem perform (h : l.Alike m) (ho : order.Perm l.keys) (ho' : order'.Perm m.keys)
    (op : Operation) : Agree (l.perform order op) (m.perform order' op) := by
  cases op with
  | increment k deposit => exact h.count k deposit
  | take => exact h.take
  | trySeal =>
    rw [Ledger.perform, Ledger.perform, h.sealed_eq, h.size_eq]
    split
    · exact ⟨_, _, rfl, rfl, rfl, rfl, h⟩
    · obtain ⟨left, rfl, -⟩ := h
      refine ⟨_, _, rfl, rfl, rfl, rfl, some order', rfl, ?_⟩
      exact congrArg some (ho'.trans ho.symm).length_eq
  | prune threshold =>
    refine ⟨_, _, rfl, rfl, congrArg Reply.number (h.rare_eq _).symm, ?_, h.pruned threshold⟩
    simp only [Ledger.perform, h.rare_eq, (h.pruned _).size_eq]
  | isSealed => exact ⟨_, _, rfl, rfl, congrArg Reply.flag h.sealed_eq.symm, rfl, h⟩
  | remaining =>
    obtain ⟨left, rfl, hlength⟩ := h
    exact ⟨_, _, rfl, rfl, congrArg Reply.numberIf hlength.symm, rfl, left, rfl, hlength⟩
  | clear =>
    obtain ⟨left, rfl, -⟩ := h
    exact ⟨_, _, rfl, rfl, rfl, rfl, refl _⟩
  | countOf k | retained k | size | processed | seals =>
    obtain ⟨left, rfl, hlength⟩ := h
    exact ⟨_, _, rfl, rfl, rfl, rfl, left, rfl, hlength⟩

end Alike

/-- **Two runs of one sequence of calls agree**, whatever the orders in which the seals find the
keys. -/
theorem Runs.agree (h : l.Alike m) (hl : l.Runs ops replies ns l')
    (hm : m.Runs ops replies' ns' m') :
    List.Forall₂ Reply.Alike replies replies' ∧ ns = ns' ∧ l'.Alike m' := by
  induction hl generalizing m replies' ns' with
  | nil l =>
    cases hm
    exact ⟨.nil, rfl, h⟩
  | cons ho hop _ ih =>
    obtain _ | ⟨ho', hop', hm⟩ := hm
    obtain ⟨r, r', hr, hr', halike, hns, hstate⟩ := h.perform ho ho' _
    rw [hop] at hr hns hstate
    rw [hop'] at hr' hns hstate
    obtain rfl := Except.ok.inj hr
    obtain rfl := Except.ok.inj hr'
    obtain ⟨hrest, hns', hend⟩ := ih hstate hm
    exact ⟨.cons halike hrest, congrArg₂ _ hns hns', hend⟩

/-! ## What has been handed out -/

theorem left_pruned (l : Ledger) (threshold : Nat) : (l.pruned threshold).left = l.left := by
  unfold pruned
  split <;> rfl

theorem left_checked (l : Ledger) : l.checked.left = l.left := by
  unfold checked
  split
  · rfl
  · exact l.left_pruned _

/-- A sealed ledger keeps its groups. -/
theorem pruned_of_sealed (h : l.sealed = true) (threshold : Nat) : l.pruned threshold = l :=
  if_pos h

/-- **What has been handed out and what is left** are the keys of a sealed ledger; of an open one
nothing has been handed out. -/
def Tells (ks : List Key) (l : Ledger) : Prop :=
  match l.left with
  | none => ks = []
  | some left => (ks ++ left).Perm l.keys

variable {ks : List Key} {reply : Reply}

theorem tells_of_none (h : l.left = none) : l.Tells ks ↔ ks = [] := by
  simp [Tells, h]

theorem tells_of_some {left : List Key} (h : l.left = some left) :
    l.Tells ks ↔ (ks ++ left).Perm l.keys := by
  simp [Tells, h]

theorem left_eq_none_of_not_sealed (h : ¬l.sealed = true) : l.left = none := by
  simpa [Ledger.sealed] using h

/-- **A call hands out the key that it takes, and no other**; clearing starts over. -/
theorem Tells.perform (h : l.Tells ks) (ho : order.Perm l.keys)
    (hop : l.perform order op = ⟨.ok reply, m, ns⟩) : m.Tells (reply.handing ks) := by
  have hreply := congrArg Outcome.result hop
  obtain rfl := congrArg Outcome.state hop
  cases op with
  | increment k deposit =>
    rw [Ledger.perform, Ledger.count] at hreply ⊢
    split at hreply
    · rename_i hs
      rw [if_pos hs]
      obtain rfl := Except.ok.inj hreply
      exact h
    · rename_i hs
      rw [if_neg hs]
      obtain rfl := Except.ok.inj hreply
      have hnone := left_eq_none_of_not_sealed hs
      refine (tells_of_none ?_).2 ((tells_of_none hnone).1 h)
      exact (left_checked _).trans hnone
  | prune threshold =>
    obtain rfl := Except.ok.inj hreply
    show (l.pruned threshold).Tells ks
    by_cases hs : l.sealed = true
    · rwa [pruned_of_sealed hs]
    · have hnone := left_eq_none_of_not_sealed hs
      exact (tells_of_none ((l.left_pruned _).trans hnone)).2 ((tells_of_none hnone).1 h)
  | trySeal =>
    rw [Ledger.perform] at hreply ⊢
    split at hreply
    · rename_i hs
      rw [if_pos hs]
      obtain rfl := Except.ok.inj hreply
      exact h
    · rename_i hs
      rw [if_neg hs]
      obtain rfl := Except.ok.inj hreply
      obtain rfl := (tells_of_none (left_eq_none_of_not_sealed hs)).1 h
      exact ho
  | take =>
    rw [Ledger.perform, Ledger.take] at hreply ⊢
    split at hreply
    · obtain rfl := Except.ok.inj hreply
      exact h
    · obtain rfl := Except.ok.inj hreply
      exact h
    · rename_i k left hl
      obtain rfl := Except.ok.inj hreply
      rw [tells_of_some hl] at h
      refine (tells_of_some rfl).2 ?_
      show (ks ++ [k] ++ left).Perm l.keys
      rwa [List.append_assoc]
  | clear =>
    obtain rfl := Except.ok.inj hreply
    rfl
  | _ =>
    obtain rfl := Except.ok.inj hreply
    exact h

/-- **Along a run what has been handed out stays on record.** -/
theorem Runs.tells (h : l.Tells ks) (hl : l.Runs ops replies ns m) :
    m.Tells (replies.foldl Reply.handing ks) := by
  induction hl generalizing ks with
  | nil l => exact h
  | cons ho hop _ ih => exact ih (h.perform ho hop)

theorem Alike.keys_eq (h : l.Alike m) : m.keys = l.keys := by
  obtain ⟨left, rfl, -⟩ := h
  rfl

/-- Ledgers that differ in what is left have nothing left at the same time. -/
theorem Alike.exhausted (h : l.Alike m) (hl : l.left = some []) : m.left = some [] := by
  obtain ⟨left, rfl, hlength⟩ := h
  rw [hl] at hlength
  obtain ⟨ks, hks, hnil⟩ := Option.map_eq_some_iff.1 hlength
  rwa [List.length_eq_zero_iff.1 hnil] at hks

/-- **When no key is left, all runs have handed out the same keys**, in one order or another. -/
theorem Runs.handedOver_perm (h : l.left = none) (hl : l.Runs ops replies ns l')
    (hm : l.Runs ops replies' ns' m') (hend : l'.left = some []) :
    (handedOver replies).Perm (handedOver replies') := by
  have halike := (hl.agree (.refl l) hm).2.2
  have htells := hl.tells ((tells_of_none h).2 rfl)
  have htells' := hm.tells ((tells_of_none h).2 rfl)
  rw [tells_of_some hend, List.append_nil] at htells
  rw [tells_of_some (halike.exhausted hend), List.append_nil, halike.keys_eq] at htells'
  exact htells.trans htells'.symm

end Ledger

/-! ## Censuses and their shards -/

namespace Census

variable {c : Census}

/-- **The shards of a census do not show.** However many there are, a sequence of calls on a new
census answers, leaves notices and asks for payloads as on a ledger. Two censuses that differ in
their shards alone therefore answer alike and say the same; they may take the keys of a hand-off in
different orders, but when none is left they have taken the same. -/
theorem sharding_invisible (hc : c.Fresh) (ops : List Operation) :
    (∃ replies d ns l, (performAll ops).run c = ⟨.ok replies, d, ns⟩ ∧
      Ledger.Runs { limits := c.limits, seals := c.seals } ops replies ns l) ∧
    ∀ e : Census, e.Fresh → e.limits = c.limits → e.seals = c.seals →
      ∃ replies replies' d d' ns, (performAll ops).run c = ⟨.ok replies, d, ns⟩ ∧
        (performAll ops).run e = ⟨.ok replies', d', ns⟩ ∧
        List.Forall₂ Reply.Alike replies replies' ∧
        (d.remaining = some 0 → (handedOver replies).Perm (handedOver replies')) := by
  obtain ⟨replies, d, ns, l, hrun, hl, hd⟩ := hc.mirrors.performAll ops
  refine ⟨⟨replies, d, ns, l, hrun, hl⟩, fun e he hlimits hseals => ?_⟩
  obtain ⟨replies', d', ns', l', hrun', hl', -⟩ := he.mirrors.performAll ops
  rw [hlimits, hseals] at hl'
  obtain ⟨halike, rfl, -⟩ := hl.agree (.refl _) hl'
  refine ⟨replies, replies', d, d', ns, hrun, hrun', halike, fun hnone => ?_⟩
  refine hl.handedOver_perm rfl hl' ?_
  rw [← hd.remaining_eq] at hnone
  obtain ⟨ks, hks, hnil⟩ := Option.map_eq_some_iff.1 hnone
  rwa [List.length_eq_zero_iff.1 hnil] at hks

/-- Two keys are counted until a check of the cap takes the rare one; what is left is pruned once
more, sealed and taken. -/
def rounds (k l : Key) (r : Record) : List Operation :=
  [.increment k (some { record := r, said := [.sealed 7] }), .increment l none, .increment k none,
    .increment l none, .countOf k, .retained k, .prune 1, .size, .trySeal, .increment l none,
    .prune 9, .isSealed, .take, .take, .take, .remaining]

theorem sharding_invisible_pair :
    let limits : Limits := { cap := some 1, interval := 3 }
    let r := Record.field "id" (.int 1) .empty
    let ops := rounds (.ofRecord r) (.ofRecord (.field "id" (.int 2) .empty)) r
    ∃ replies replies' d d' ns, (performAll ops).run (single limits) = ⟨.ok replies, d, ns⟩ ∧
      (performAll ops).run (pair limits) = ⟨.ok replies', d', ns⟩ ∧ d.remaining = some 0 ∧
        List.Forall₂ Reply.Alike replies replies' ∧
        (handedOver replies).Perm (handedOver replies') := by
  intro limits r ops
  obtain ⟨replies, replies', d, d', ns, hrun, hrun', halike, hperm⟩ :=
    (sharding_invisible (fresh_single limits) ops).2 (pair limits) (fresh_pair limits) rfl rfl
  have hnone : ((performAll ops).run (single limits)).state.remaining = some 0 := by decide +kernel
  rw [hrun] at hnone
  exact ⟨replies, replies', d, d', ns, hrun, hrun', hnone, halike, hperm hnone⟩

end Census

end Muster
