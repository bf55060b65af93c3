import Muster.Proofs.Census.Cycle
import Muster.Proofs.Census.Operation

/-!
# Proofs/Census/Ledger — a census is a ledger

A ledger is one table of keys, each with its count and what is retained with it. It has no shards
and no locks, and what every call does to it can be said in a line (`Ledger.perform`). Only in which
order a seal finds the keys is left open.

* `Mirrors.perform` — every call does to a census what it does to the ledger that mirrors it.
* `Mirrors.performAll` — so a sequence of calls answers on a census as it does on its ledger.
-/

namespace Muster

open Census

/-! ## The ledger -/

/-- **A table of keys**, with the keys that are left to be handed out once it is sealed. -/
structure Ledger where
  limits : Limits
  groups : List Group := []
  /-- the increments accepted since the ledger was last empty by construction or clearing -/
  processed : Nat := 0
  left : Option (List Key) := none
  /-- how often the ledger has been sealed -/
  seals : Nat := 0

namespace Ledger

variable {l m : Ledger}

/-- The group of a key. -/
def find? (l : Ledger) (k : Key) : Option Group := l.groups.find? (·.key.same k)

def keys (l : Ledger) : List Key := l.groups.map Group.key

def size (l : Ledger) : Nat := l.groups.length

def sealed (l : Ledger) : Bool := l.left.isSome

/-- The ledger after an increment: the count of the key goes up, or the key is entered. -/
def grown (l : Ledger) (k : Key) (r : Option Record) : Ledger :=
  { l with
    groups :=
      if (l.find? k).isSome then l.groups.map (Group.bumpIf k)
      else { key := k, retained := r } :: l.groups
    processed := l.processed + 1 }

/-- The ledger without the groups whose count is below a threshold, unless it is sealed. -/
def pruned (l : Ledger) (threshold : Nat) : Ledger :=
  if l.sealed then l else { l with groups := l.groups.filter fun g => threshold ≤ g.count }

/-- How many keys go when the ledger is pruned. -/
def rare (l : Ledger) (threshold : Nat) : Nat :=
  if l.sealed then 0 else l.groups.countP fun g => g.count < threshold

/-- The cap, if it is time to check it and it is exceeded. -/
def exceeded (l : Ledger) : Option Nat :=
  if l.processed % l.limits.interval = 0 then l.limits.cap.filter (· < l.size) else none

/-- The ledger after the cap has been checked. -/
def checked (l : Ledger) : Ledger :=
  match l.exceeded with
  | none => l
  | some _ => l.pruned l.limits.threshold

/-- What is said when the cap is checked. -/
def warnings (l : Ledger) : List Notice :=
  match l.exceeded with
  | none => []
  | some cap =>
    .pruned (l.rare l.limits.threshold) l.limits.threshold (l.pruned l.limits.threshold).size ::
      if cap < (l.pruned l.limits.threshold).size then
        [.overLimit (l.pruned l.limits.threshold).size l.limits.threshold cap]
      else []

/-- **Counts an occurrence of a key.** The key is new if it is not there and the ledger is not
sealed; then, and only then, something is asked for. -/
def count (l : Ledger) (k : Key) (deposit : Option Deposit) : Outcome Ledger Reply :=
  if l.sealed then ⟨.ok (.flag false), l, []⟩
  else
    let new := (l.find? k).isNone
    let grown := l.grown k (deposit.map Deposit.record)
    ⟨.ok (.flag new), grown.checked,
      (if new then Deposit.saidBy deposit else []) ++ grown.warnings⟩

/-- **Takes the next key that is left.** -/
def take (l : Ledger) : Outcome Ledger Reply :=
  match l.left with
  | none => ⟨.ok (.taken .waiting), l, []⟩
  | some [] => ⟨.ok (.taken .exhausted), l, []⟩
  | some (k :: ks) => ⟨.ok (.taken (.item k)), { l with left := some ks }, []⟩

/-- **What a call does to a ledger**, given the order in which a seal finds its keys. -/
def perform (l : Ledger) (order : List Key) : Operation → Outcome Ledger Reply
  | .increment k deposit => l.count k deposit
  | .countOf k => ⟨.ok (.numberIf ((l.find? k).map Group.count)), l, []⟩
  | .retained k => ⟨.ok (.record ((l.find? k).bind Group.retained)), l, []⟩
  | .prune threshold =>
    ⟨.ok (.number (l.rare threshold)), l.pruned threshold,
      [.pruned (l.rare threshold) threshold (l.pruned threshold).size]⟩
  | .size => ⟨.ok (.number l.size), l, []⟩
  | .processed => ⟨.ok (.number l.processed), l, []⟩
  | .trySeal =>
    if l.sealed then ⟨.ok (.flag false), l, []⟩
    else ⟨.ok (.flag true), { l with left := some order, seals := l.seals + 1 }, [.sealed l.size]⟩
  | .seals => ⟨.ok (.number l.seals), l, []⟩
  | .isSealed => ⟨.ok (.flag l.sealed), l, []⟩
  | .remaining => ⟨.ok (.numberIf (l.left.map List.length)), l, []⟩
  | .take => l.take
  | .clear => ⟨.ok .cleared, { limits := l.limits, seals := l.seals }, []⟩

/-- On a ledger every call answers. -/
theorem perform_eq_ok (l : Ledger) (order : List Key) (op : Operation) :
    ∃ reply m ns, l.perform order op = ⟨.ok reply, m, ns⟩ := by
  cases op with
  | increment k deposit =>
    rw [perform, count]
    split <;> exact ⟨_, _, _, rfl⟩
  | trySeal =>
    rw [perform]
    split <;> exact ⟨_, _, _, rfl⟩
  | take =>
    rw [perform, take]
    split <;> exact ⟨_, _, _, rfl⟩
  | _ => exact ⟨_, _, _, rfl⟩

/-- **What a sequence of calls does to a ledger**: a seal finds its keys in any order. -/
inductive Runs : Ledger → List Operation → List Reply → List Notice → Ledger → Prop
  | nil (l : Ledger) : Runs l [] [] [] l
  | cons {l m n : Ledger} {order : List Key} {op : Operation} {ops : List Operation} {reply : Reply}
      {replies : List Reply} {ns ns' : List Notice} (horder : order.Perm l.keys)
      (h : l.perform order op = ⟨.ok reply, m, ns⟩) (hs : Runs m ops replies ns' n) :
      Runs l (op :: ops) (reply :: replies) (ns ++ ns') n

end Ledger

/-! ## A census and its ledger -/

/-- The keys of a hand-off that have not been claimed, in order. -/
def HandOff.left (h : HandOff) : List Key := h.keys.toList.drop h.next

theorem HandOff.length_left (h : HandOff) : h.left.length = h.remaining := by
  simp [left, remaining]

/-- **Taking from a hand-off** takes the first key that is left. -/
theorem HandOff.take_eq (h : HandOff) :
    (h.left = [] ∧ h.take = (none, h)) ∨
      ∃ k ks, h.left = k :: ks ∧ h.take.1 = some k ∧ h.take.2.left = ks := by
  by_cases hlt : h.next < h.keys.size
  · refine Or.inr ⟨h.keys[h.next], h.keys.toList.drop (h.next + 1), ?_, ?_, ?_⟩
    · rw [left, List.drop_eq_getElem_cons (by simpa using hlt)]
      rfl
    · rw [take_of_lt hlt]
    · rw [take_of_lt hlt]
      rfl
  · exact Or.inl ⟨List.drop_of_length_le (by simpa using hlt), take_of_le (Nat.not_lt.1 hlt)⟩

namespace Census

variable {c d : Census} {l m : Ledger}

/-- **A census in working order, and a ledger that says the same.** -/
structure Mirrors (c : Census) (l : Ledger) : Prop where
  sound : c.Sound
  healthy : c.Healthy
  mark : c.sealed = c.handOff.isSome
  limits : l.limits = c.limits
  groups : c.groups.Perm l.groups
  processed : l.processed = c.processed
  left : l.left = c.handOff.map HandOff.left
  seals : l.seals = c.seals

/-- **A census that has counted nothing is an empty ledger.** -/
theorem Fresh.mirrors (h : c.Fresh) : c.Mirrors { limits := c.limits, seals := c.seals } where
  sound := h.sound
  healthy := h.healthy
  mark := by rw [h.mark, h.handOff]; rfl
  limits := rfl
  groups := List.Perm.of_eq h.groups_eq_nil
  processed := h.processed.symm
  left := by rw [h.handOff]; rfl
  seals := rfl

namespace Mirrors

/-! ### What is read off -/

theorem find?_eq (h : c.Mirrors l) (k : Key) : l.find? k = c.find? k := by
  rw [h.sound.find?_eq, h.sound.differ.find?_perm h.groups]
  rfl

theorem size_eq (h : c.Mirrors l) : l.size = c.size := by
  rw [Ledger.size, ← h.groups.length_eq, ← h.sound.distinct_eq]
  rfl

theorem sealed_eq (h : c.Mirrors l) : l.sealed = c.sealed := by
  rw [Ledger.sealed, h.left, Option.isSome_map, h.mark]

theorem keys_perm (h : c.Mirrors l) : c.keys.Perm l.keys :=
  c.keys_perm.trans (h.groups.map _)

theorem rare_eq (h : c.Mirrors l) (threshold : Nat) : l.rare threshold = c.rare threshold := by
  rw [Ledger.rare, Census.rare, h.sealed_eq, h.groups.countP_eq]

theorem exceeded_eq (h : c.Mirrors l) : l.exceeded = c.exceeded := by
  rw [Ledger.exceeded, Census.exceeded, h.limits, h.processed, h.size_eq]

theorem remaining_eq (h : c.Mirrors l) : l.left.map List.length = c.remaining := by
  rw [h.left, Option.map_map, remaining]
  exact congrArg (fun f => Option.map f c.handOff) (funext HandOff.length_left)

/-! ### What is changed -/

/-- What only meters show is no change. -/
theorem metered (h : c.Mirrors l) (meters : Meters) : ({ c with meters } : Census).Mirrors l :=
  ⟨h.sound.congr rfl rfl, h.healthy.congr rfl rfl, h.mark, h.limits, h.groups, h.processed,
    h.left, h.seals⟩

/-- **An increment** is the same in both. -/
theorem grown (h : c.Mirrors l) (k : Key) (r : Option Record) :
    (c.grown k r).Mirrors (l.grown k r) := by
  have hsound := h.sound.grown k r
  have hhealthy := h.healthy.grown k r
  have hgroups : (c.grown k r).groups.Perm (l.grown k r).groups := by
    refine (h.sound.groups_grown k r).trans ?_
    rw [Ledger.grown, h.find?_eq]
    split
    · exact h.groups.map _
    · exact h.groups.cons _
  obtain ⟨shards, distinct, hpos, meters, heq⟩ := c.grown_eq k r
  rw [heq] at hsound hhealthy hgroups ⊢
  exact ⟨hsound, hhealthy, h.mark, h.limits, hgroups, congrArg Nat.succ h.processed, h.left,
    h.seals⟩

/-- **A pass of pruning** is the same in both. -/
theorem pruned (h : c.Mirrors l) (threshold : Nat) :
    (c.pruned threshold).Mirrors (l.pruned threshold) := by
  have hs := h.sealed_eq
  cases ho : c.sealed with
  | true =>
    rw [Census.pruned, Ledger.pruned, if_pos ho, if_pos (hs.trans ho)]
    exact h
  | false =>
    have hgroups := groups_pruned ho threshold
    have hsound := h.sound.pruned threshold
    have hhealthy := h.healthy.pruned threshold
    obtain ⟨shards, distinct, hpos, heq⟩ := c.pruned_eq threshold
    rw [Ledger.pruned, if_neg (by simp [hs, ho])]
    rw [heq] at hgroups hsound hhealthy ⊢
    exact ⟨hsound, hhealthy, h.mark, h.limits, (List.Perm.of_eq hgroups).trans (h.groups.filter _),
      h.processed, h.left, h.seals⟩

theorem checked (h : c.Mirrors l) : c.checked.Mirrors l.checked := by
  rw [Census.checked, Ledger.checked, h.exceeded_eq, h.limits]
  cases c.exceeded with
  | none => exact h
  | some cap => exact (h.pruned _).metered _

theorem warnings_eq (h : c.Mirrors l) : l.warnings = c.warnings := by
  rw [Census.warnings, Ledger.warnings, h.exceeded_eq, h.limits]
  cases c.exceeded with
  | none => rfl
  | some cap => simp only [h.rare_eq, (h.pruned _).size_eq]

/-- **A seal** publishes the keys of the ledger. -/
theorem sealOff (h : c.Mirrors l) :
    c.sealOff.Mirrors { l with left := some c.keys, seals := l.seals + 1 } := by
  refine ⟨h.sound.congr rfl rfl, h.healthy.congr rfl rfl, rfl, h.limits, h.groups, h.processed, ?_,
    congrArg Nat.succ h.seals⟩
  show some c.keys = some ((c.keys.toArray.toList).drop 0)
  rfl

theorem claimed (h : c.Mirrors l) {ho : HandOff} (hh : c.handOff = some ho) :
    (c.claimed ho).Mirrors { l with left := some ho.take.2.left } :=
  ⟨h.sound.congr rfl rfl, h.healthy.congr rfl rfl, h.mark.trans (by rw [hh]; rfl), h.limits,
    h.groups, h.processed, rfl, h.seals⟩

/-- **What is left after clearing** is an empty ledger. -/
theorem cleared (h : c.Mirrors l) : c.cleared.Mirrors { limits := l.limits, seals := l.seals } := by
  obtain ⟨hfresh, hlimits, hseals⟩ := h.sound.fresh_cleared h.healthy
  rw [h.limits, h.seals, ← hlimits, ← hseals]
  exact hfresh.mirrors

/-! ### Calls -/

theorem run_increment (h : c.Mirrors l) (k : Key) (deposit : Option Deposit) :
    ∃ d, (Census.perform (.increment k deposit)).run c =
      ⟨(l.count k deposit).result, d, (l.count k deposit).notices⟩ ∧
        d.Mirrors (l.count k deposit).state := by
  have hgrown := h.grown k (deposit.map Deposit.record)
  rw [run_perform_increment h.sound h.healthy, Ledger.count, h.sealed_eq]
  cases c.sealed with
  | true => exact ⟨_, rfl, h.metered _⟩
  | false =>
    refine ⟨(c.grown k (deposit.map Deposit.record)).checked, ?_, hgrown.checked⟩
    simp only [Bool.false_eq_true, if_false, h.find?_eq, hgrown.warnings_eq]

theorem run_take (h : c.Mirrors l) :
    ∃ d, (Reply.taken <$> take).run c = ⟨l.take.result, d, l.take.notices⟩ ∧
      d.Mirrors l.take.state := by
  have hleft := h.left
  rw [Call.run_map, Census.run_take]
  cases hh : c.handOff with
  | none =>
    rw [hh, Option.map_none] at hleft
    rw [h.healthy.lock]
    refine ⟨c, ?_, ?_⟩ <;> simp only [Ledger.take, hleft]
    · rfl
    · exact h
  | some ho =>
    rw [hh, Option.map_some] at hleft
    have hclaimed := h.claimed hh
    refine ⟨c.claimed ho, ?_⟩
    obtain ⟨hnil, htake⟩ | ⟨k, ks, hcons, htake, hrest⟩ := ho.take_eq
    · have hself : c.claimed ho = c := by
        rw [Census.claimed, htake, ← hh]
      rw [hnil] at hleft
      simp only [Ledger.take, hleft, htake]
      exact ⟨rfl, hself.symm ▸ h⟩
    · rw [hcons] at hleft
      rw [hrest] at hclaimed
      simp only [Ledger.take, hleft, htake]
      exact ⟨rfl, hclaimed⟩

/-- **Every call does to a census what it does to its ledger**, where a seal finds the keys shard by
shard. -/
theorem perform (h : c.Mirrors l) (op : Operation) :
    ∃ d, (perform op).run c =
      ⟨(l.perform c.keys op).result, d, (l.perform c.keys op).notices⟩ ∧
        d.Mirrors (l.perform c.keys op).state := by
  cases op with
  | increment k deposit => exact h.run_increment k deposit
  | countOf k =>
    refine ⟨c, ?_, h⟩
    simp [Census.perform, Ledger.perform, run_countOf, h.healthy.shard, h.find?_eq, Except.map]
  | retained k =>
    refine ⟨c, ?_, h⟩
    simp [Census.perform, Ledger.perform, run_retained, h.healthy.shard, h.find?_eq, Except.map]
  | prune threshold =>
    refine ⟨(c.pruned threshold).reported (c.rare threshold), ?_, (h.pruned threshold).metered _⟩
    rw [Census.perform, Call.run_map, run_prune h.healthy, Ledger.perform, h.rare_eq,
      (h.pruned threshold).size_eq]
    rfl
  | trySeal =>
    have hmark : l.sealed = c.handOff.isSome := h.sealed_eq.trans h.mark
    rw [Census.perform, Call.run_map, run_trySeal h.healthy, Ledger.perform, hmark]
    cases c.handOff.isSome with
    | true => exact ⟨c, rfl, h⟩
    | false =>
      refine ⟨c.sealOff, ?_, h.sealOff⟩
      have hlength : c.keys.length = l.size := by rw [h.keys_perm.length_eq, Ledger.keys,
        List.length_map, Ledger.size]
      rw [hlength]
      rfl
  | take => exact h.run_take
  | clear =>
    refine ⟨c.cleared, ?_, h.cleared⟩
    rw [Census.perform, Call.run_map, run_clear h.sound h.healthy]
    rfl
  | size => exact ⟨c, by rw [Ledger.perform, h.size_eq]; rfl, h⟩
  | processed => exact ⟨c, by rw [Ledger.perform, h.processed]; rfl, h⟩
  | seals => exact ⟨c, by rw [Ledger.perform, h.seals]; rfl, h⟩
  | isSealed => exact ⟨c, by rw [Ledger.perform, h.sealed_eq]; rfl, h⟩
  | remaining => exact ⟨c, by rw [Ledger.perform, h.remaining_eq]; rfl, h⟩

/-- **So does a sequence of calls**, and every call answers. -/
theorem performAll (h : c.Mirrors l) (ops : List Operation) :
    ∃ replies d ns m, (performAll ops).run c = ⟨.ok replies, d, ns⟩ ∧
      l.Runs ops replies ns m ∧ d.Mirrors m := by
  induction ops generalizing c l with
  | nil => exact ⟨[], c, [], l, rfl, .nil l, h⟩
  | cons op ops ih =>
    obtain ⟨d, hrun, hd⟩ := h.perform op
    obtain ⟨reply, m, ns, hop⟩ := l.perform_eq_ok c.keys op
    rw [hop] at hrun hd
    obtain ⟨replies, e, ns', n, hruns, hl, he⟩ := ih hd
    exact ⟨_, e, _, n, run_performAll_cons hrun hruns, .cons h.keys_perm hop hl, he⟩

end Mirrors

end Census

end Muster
