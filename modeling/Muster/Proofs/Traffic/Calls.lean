import Muster.Grouper.Basic
import Muster.Proofs.Calls
import Muster.Proofs.Census.Steady

/-!
# Proofs/Traffic/Calls — calls cut into their critical sections

Threads that share a census come between the sections of each other's calls. Here each call of a
census is a position in it (`Counting`, `Sweep`, `Sealing`, `Fetching`), a step that makes one
section, and what is left of the call at a position. Left alone, the cut call is the call:

* `Counting.rest_eq`, `Sweep.rest_eq`, `Sealing.rest_eq`, `Fetching.run_rest` — what is left at a
  position is one step and then what is left after it.
-/

namespace Muster

/-! ## Pruning -/

/-- **How far a pass of pruning has come**: the shards to visit, and how many keys went. -/
inductive Sweep
  | opening
  | visiting (left : List Nat) (removed : Nat)
  | swept (removed : Nat)

namespace Sweep

/-- One section of a pass of pruning. A sealed census ends the pass. -/
def step (threshold : Nat) : Sweep → Call Census Sweep
  | opening => do return .visiting (← Call.gets Census.slots) 0
  | visiting [] removed => do
    Census.reportPrune threshold removed
    return .swept removed
  | visiting (i :: left) removed => do
    match ← Census.pruneShard threshold i with
    | none => return .visiting [] removed
    | some n => return .visiting left (removed + n)
  | swept removed => return .swept removed

theorem keeps_step (threshold : Nat) (p : Sweep) :
    (p.step threshold).Keeps Census.Tends := by
  cases p with
  | opening => exact Census.keeps_bind (Census.keeps_gets _) fun _ => Census.keeps_pure _
  | visiting left removed =>
    cases left with
    | nil =>
      exact Census.keeps_bind (Census.keeps_reportPrune threshold removed) fun _ =>
        Census.keeps_pure _
    | cons i left =>
      refine Census.keeps_bind (Census.keeps_pruneShard threshold i) fun n => ?_
      cases n <;> exact Census.keeps_pure _
  | swept removed => exact Census.keeps_pure _

/-- What is left of a pass of pruning. -/
def rest (threshold : Nat) : Sweep → Call Census Nat
  | opening => Census.prune threshold
  | visiting left removed => do
    let removed ← Census.pruneFrom threshold left removed
    Census.reportPrune threshold removed
    return removed
  | swept removed => return removed

/-- **A pass of pruning is its sections.** -/
theorem rest_eq (threshold : Nat) (p : Sweep) :
    p.rest threshold = p.step threshold >>= rest threshold := by
  cases p with
  | opening => simp [rest, step, Census.prune]
  | visiting left removed =>
    cases left with
    | nil => simp [rest, step, Census.pruneFrom]
    | cons i left =>
      simp only [rest, step, Census.pruneFrom, bind_assoc]
      refine bind_congr fun n => ?_
      cases n <;> simp [rest, Census.pruneFrom]
  | swept removed => simp [rest, step]

end Sweep

/-! ## Counting -/

/-- **How far an increment has come.** -/
inductive Counting
  /-- before the shared section -/
  | probing
  /-- before the exclusive section -/
  | entering
  /-- accepted, but not yet accounted for -/
  | accounting (created : Bool)
  /-- about to compare the number of keys with the cap -/
  | checking (created : Bool)
  /-- in the pass of pruning that the cap calls for -/
  | pruning (created : Bool) (cap threshold : Nat) (p : Sweep)
  /-- about to compare the number of keys with the cap once more -/
  | rechecking (created : Bool) (cap threshold : Nat)
  /-- accepted and answered -/
  | counted (created : Bool)
  /-- refused, since the census was sealed -/
  | late

namespace Counting

/-- One section of an increment. -/
def step (k : Key) (payload : Census.Payload) : Counting → Call Census Counting
  | probing => do
    match ← Census.probe k with
    | .late => return .late
    | .counted => return .accounting false
    | .absent => return .entering
  | entering => do
    match ← Census.enter k payload with
    | .late => return .late
    | .counted => return .accounting false
    | .created => return .accounting true
  | accounting created => do
    if ← Census.account then return .checking created else return .counted created
  | checking created => do
    let limits ← Call.gets Census.limits
    match limits.cap with
    | none => return .counted created
    | some cap => do
      if cap < (← Call.gets Census.size) then
        return .pruning created cap limits.threshold .opening
      else return .counted created
  | pruning created cap threshold (.swept _) => return .rechecking created cap threshold
  | pruning created cap threshold p => do
    return .pruning created cap threshold (← p.step threshold)
  | rechecking created cap threshold => do
    let size ← Call.gets Census.size
    if cap < size then Call.note (.overLimit size threshold cap)
    return .counted created
  | counted created => return .counted created
  | late => return .late

theorem run_step_probing (k : Key) (payload : Census.Payload) (c : Census) :
    (step k payload probing).run c =
      if (c.shard (c.slot k)).poisoned then ⟨.error .poisoned, c, []⟩
      else if c.sealed then ⟨.ok late, c.refused, []⟩
      else if (c.find? k).isSome then ⟨.ok (accounting false), c.bumped k, []⟩
      else ⟨.ok entering, c, []⟩ := by
  rw [step, Call.run_bind, Census.run_probe]
  by_cases hp : (c.shard (c.slot k)).poisoned = true
  · simp [hp]
  · by_cases hs : c.sealed = true
    · simp [hp, hs]
    · by_cases hf : (c.find? k).isSome = true <;> simp [hp, hs, hf]

theorem run_step_entering {c : Census} (h : c.Sound) (k : Key) (r : Option Record) :
    (step k (.answering (.ok r)) entering).run c =
      if (c.shard (c.slot k)).poisoned then ⟨.error .poisoned, c, []⟩
      else if c.sealed then ⟨.ok late, c.refused, []⟩
      else if (c.find? k).isSome then ⟨.ok (accounting false), c.bumped k, []⟩
      else ⟨.ok (accounting true), c.inserted k r, []⟩ := by
  rw [step, Call.run_bind, Census.run_enter h]
  by_cases hp : (c.shard (c.slot k)).poisoned = true
  · simp [hp]
  · by_cases hs : c.sealed = true
    · simp [hp, hs]
    · by_cases hf : (c.find? k).isSome = true <;> simp [hp, hs, hf]

/-- **No section of an increment leaves the frame.** -/
theorem keeps_step (k : Key) (answer : Except Fault (Option Record)) (p : Counting) :
    (p.step k (.answering answer)).Keeps Census.Tends := by
  cases p with
  | probing =>
    refine Census.keeps_bind (Census.keeps_probe k) fun found => ?_
    cases found <;> exact Census.keeps_pure _
  | entering =>
    refine Census.keeps_bind (Census.keeps_enter k answer) fun entry => ?_
    cases entry <;> exact Census.keeps_pure _
  | accounting created =>
    refine Census.keeps_bind Census.keeps_account fun due => ?_
    cases due <;> exact Census.keeps_pure _
  | checking created =>
    refine Census.keeps_bind (Census.keeps_gets _) fun limits => ?_
    cases limits.cap with
    | none => exact Census.keeps_pure _
    | some cap =>
      refine Census.keeps_bind (Census.keeps_gets _) fun size => ?_
      split <;> exact Census.keeps_pure _
  | pruning created cap threshold p =>
    cases p with
    | swept removed => exact Census.keeps_pure _
    | opening | visiting =>
      exact Census.keeps_bind (Sweep.keeps_step threshold _) fun _ => Census.keeps_pure _
  | rechecking created cap threshold =>
    refine Census.keeps_bind (Census.keeps_gets _) fun size => ?_
    dsimp only
    split
    · exact Census.keeps_bind (Census.keeps_note _) fun _ => Census.keeps_pure _
    · exact Census.keeps_pure _
  | counted created => exact Census.keeps_pure _
  | late => exact Census.keeps_pure _

/-- What is left of an increment. -/
def rest (k : Key) (payload : Census.Payload) : Counting → Call Census Bool
  | probing => Census.count k payload
  | entering => do
    match ← Census.enter k payload with
    | .late => return false
    | .counted => do
      Census.checkpoint
      return false
    | .created => do
      Census.checkpoint
      return true
  | accounting created => do
    Census.checkpoint
    return created
  | checking created => do
    let limits ← Call.gets Census.limits
    match limits.cap with
    | none => return created
    | some cap => do
      if cap < (← Call.gets Census.size) then
        let _ ← Census.prune limits.threshold
        let size ← Call.gets Census.size
        if cap < size then Call.note (.overLimit size limits.threshold cap)
      return created
  | pruning created cap threshold p => do
    let _ ← p.rest threshold
    let size ← Call.gets Census.size
    if cap < size then Call.note (.overLimit size threshold cap)
    return created
  | rechecking created cap threshold => do
    let size ← Call.gets Census.size
    if cap < size then Call.note (.overLimit size threshold cap)
    return created
  | counted created => return created
  | late => return false

/-- **An increment is its sections.** -/
theorem rest_eq (k : Key) (payload : Census.Payload) (p : Counting) :
    p.rest k payload = p.step k payload >>= rest k payload := by
  cases p with
  | probing =>
    simp only [rest, step, Census.count, bind_assoc]
    refine bind_congr fun found => ?_
    cases found with
    | late => rw [pure_bind, rest]
    | counted => rw [pure_bind, rest]
    | absent => rw [pure_bind]; rfl
  | entering =>
    simp only [rest, step, bind_assoc]
    refine bind_congr fun entry => ?_
    cases entry <;> rw [pure_bind, rest]
  | accounting created =>
    simp only [rest, step, Census.checkpoint, bind_assoc]
    refine bind_congr fun due => ?_
    cases due with
    | false => simp [rest]
    | true =>
      simp only [if_true, pure_bind, rest, bind_assoc]
      refine bind_congr fun limits => ?_
      cases limits.cap with
      | none => simp
      | some cap =>
        simp only [bind_assoc]
        refine bind_congr fun size => ?_
        by_cases hc : cap < size
        · simp only [hc, if_true, bind_assoc]
          refine bind_congr fun _ => bind_congr fun left => ?_
          by_cases hl : cap < left <;> simp [hl]
        · simp [hc]
  | checking created =>
    simp only [rest, step, bind_assoc]
    refine bind_congr fun limits => ?_
    cases limits.cap with
    | none => simp [rest]
    | some cap =>
      simp only [bind_assoc]
      refine bind_congr fun size => ?_
      by_cases hc : cap < size <;> simp [hc, rest, Sweep.rest]
  | pruning created cap threshold p =>
    cases p with
    | swept removed => simp [rest, step, Sweep.rest]
    | opening | visiting =>
      rw [rest, Sweep.rest_eq]
      simp [rest, step]
  | rechecking created cap threshold =>
    simp only [rest, step, bind_assoc]
    refine bind_congr fun size => ?_
    by_cases hc : cap < size <;> simp [rest, hc]
  | counted created => rw [rest, step, pure_bind, rest]
  | late => rw [rest, step, pure_bind, rest]

end Counting

/-! ## Sealing -/

/-- **How far a seal has come.** From `marking` to the answer its caller holds the lock of the
seal. -/
inductive Sealing
  | waiting
  | marking
  | snapshotting (left : List Nat) (keys : List Key)
  | sealed (new : Bool)

namespace Sealing

/-- One section of a seal. -/
def step : Sealing → Call Census Sealing
  | waiting => do
    if ← Call.gets Census.sealPoisoned then Call.fail .poisoned
    else if ← Call.gets (fun c => c.handOff.isSome) then return .sealed false
    else return .marking
  | marking => do
    Census.raiseMark
    return .snapshotting (← Call.gets Census.slots) []
  | snapshotting [] keys => do
    Census.publish keys
    return .sealed true
  | snapshotting (i :: left) keys => do
    let more ← Census.guarded (Census.snapshotShard i)
    return .snapshotting left (keys ++ more)
  | sealed new => return .sealed new

theorem run_step_waiting (c : Census) :
    (step waiting).run c =
      if c.sealPoisoned then ⟨.error .poisoned, c, []⟩
      else if c.handOff.isSome then ⟨.ok (.sealed false), c, []⟩
      else ⟨.ok marking, c, []⟩ := by
  by_cases hp : c.sealPoisoned = true
  · simp [step, Call.run_bind, hp]
  · by_cases hh : c.handOff.isSome = true <;> simp [step, Call.run_bind, hp, hh]

theorem run_step_marking (c : Census) :
    (step marking).run c = ⟨.ok (snapshotting c.slots []), c.marked, []⟩ := rfl

theorem run_step_publish (keys : List Key) (c : Census) :
    (step (snapshotting [] keys)).run c =
      ⟨.ok (.sealed true), c.published keys, [.sealed keys.length]⟩ := rfl

theorem run_step_snapshot (i : Nat) (left : List Nat) (keys : List Key) (c : Census) :
    (step (snapshotting (i :: left) keys)).run c =
      if (c.shard i).poisoned then ⟨.error .poisoned, { c with sealPoisoned := true }, []⟩
      else ⟨.ok (snapshotting left (keys ++ (c.shard i).keys)), c, []⟩ := by
  rw [step, bind_pure_comp, Call.run_map, Census.run_guarded, Census.run_snapshotShard]
  by_cases hp : (c.shard i).poisoned = true <;> simp [hp, Except.map]

/-- What is left of a seal. -/
def rest : Sealing → Call Census Bool
  | waiting => Census.trySeal
  | marking => Census.guarded do
    Census.raiseMark
    Census.publish (← Census.snapshotFrom (← Call.gets Census.slots))
    return true
  | snapshotting left keys => Census.guarded do
    let more ← Census.snapshotFrom left
    Census.publish (keys ++ more)
    return true
  | sealed new => return new

/-- **A seal is its sections.** -/
theorem rest_eq (p : Sealing) : p.rest = p.step >>= rest := by
  cases p with
  | waiting =>
    simp only [rest, step, Census.trySeal, Census.underSeal_eq, bind_assoc]
    refine bind_congr fun poisoned => ?_
    cases poisoned with
    | true => rfl
    | false =>
      simp only [Bool.false_eq_true, if_false, bind_assoc]
      rw [Census.guarded_bind]
      refine bind_congr fun handedOff => ?_
      cases handedOff <;> simp [rest]
  | marking =>
    simp only [rest, step, bind_assoc]
    rw [Census.guarded_bind]
    refine bind_congr fun _ => ?_
    rw [Census.guarded_bind]
    refine bind_congr fun slots => ?_
    simp [rest]
  | snapshotting left keys =>
    cases left with
    | nil =>
      simp only [rest, step, Census.snapshotFrom, bind_assoc, pure_bind, List.append_nil]
      rw [Census.guarded_bind]
      rfl
    | cons i left =>
      simp only [rest, step, Census.snapshotFrom, bind_assoc, pure_bind]
      rw [Census.guarded_bind]
      simp [List.append_assoc]
  | sealed new => rw [rest, step, pure_bind, rest]

end Sealing

/-! ## Handing out -/

/-- **How far a caller that asks for a group has come**: it takes a key, looks up what is retained
with it, and then its count, as far as the configuration asks for them. -/
inductive Fetching
  | asking
  | retrieving (k : Key)
  | tallying (k : Key) (retained : Option Record)
  | fetched (answer : Taken Record)

namespace Fetching

/-- One section of asking for a group. Without a hand-off the caller goes on asking. -/
def step (g : Config) : Fetching → Call Census Fetching
  | asking => do
    match ← Census.take with
    | .waiting => return .asking
    | .exhausted => return .fetched .exhausted
    | .item k => return .retrieving k
  | retrieving k => do
    let retained ← if g.retainOthers then Census.retained k else pure none
    return .tallying k retained
  | tallying k retained => do
    let count ← if g.withCount then Census.countOf k else pure none
    return .fetched (.item (← Call.ofExcept (Grouper.output g k retained count)))
  | fetched answer => return .fetched answer

/-- How a caller goes on after it has taken from a hand-off. -/
def asked : Option Key → Fetching
  | none => .fetched .exhausted
  | some k => .retrieving k

theorem run_step_asking (g : Config) (c : Census) :
    (step g asking).run c =
      match c.handOff with
      | none => if c.sealPoisoned then ⟨.error .poisoned, c, []⟩ else ⟨.ok asking, c, []⟩
      | some h => ⟨.ok (asked h.take.1), c.claimed h, []⟩ := by
  rw [step, Call.run_bind, Census.run_take]
  cases c.handOff with
  | none => by_cases hp : c.sealPoisoned = true <;> simp [hp]
  | some h =>
    dsimp only
    cases h.take.1 <;> rfl

theorem run_step_retrieving (g : Config) (k : Key) (c : Census) :
    (step g (retrieving k)).run c =
      if g.retainOthers then
        if (c.shard (c.slot k)).poisoned then ⟨.error .poisoned, c, []⟩
        else ⟨.ok (.tallying k ((c.find? k).bind Group.retained)), c, []⟩
      else ⟨.ok (.tallying k none), c, []⟩ := by
  by_cases hr : g.retainOthers = true
  · by_cases hp : (c.shard (c.slot k)).poisoned = true <;>
      simp [step, hr, Census.run_retained, hp, Except.map]
  · simp [step, hr]

theorem run_step_tallying (g : Config) (k : Key) (retained : Option Record) (c : Census) :
    (step g (tallying k retained)).run c =
      if g.withCount && (c.shard (c.slot k)).poisoned then ⟨.error .poisoned, c, []⟩
      else
        ⟨(Grouper.output g k retained
          (if g.withCount then (c.find? k).map Group.count else none)).map
            fun r => .fetched (.item r), c, []⟩ := by
  by_cases hc : g.withCount = true
  · by_cases hp : (c.shard (c.slot k)).poisoned = true <;>
      simp [step, hc, Call.run_bind, Census.run_countOf, hp, Except.map]
  · simp [step, hc]

/-- What is left once the retained record has been looked up. -/
def tally (g : Config) (k : Key) (retained : Option Record) : Call Census (Taken Record) := do
  let count ← if g.withCount then Census.countOf k else pure none
  return .item (← Call.ofExcept (Grouper.output g k retained count))

/-- What is left once a key has been taken. -/
def retrieve (g : Config) (k : Key) : Call Census (Taken Record) := do
  let retained ← if g.retainOthers then Census.retained k else pure none
  tally g k retained

/-- What is left of asking for a group. -/
def rest (g : Config) : Fetching → Call Census (Taken Record)
  | asking => do
    match ← Census.take with
    | .waiting => return .waiting
    | .exhausted => return .exhausted
    | .item k => retrieve g k
  | retrieving k => retrieve g k
  | tallying k retained => tally g k retained
  | fetched answer => return answer

/-- **Asking for a group is its sections**, once there is a hand-off. -/
theorem run_rest (g : Config) (p : Fetching) {c : Census} (h : c.handOff.isSome = true) :
    (p.rest g).run c = (p.step g >>= rest g).run c := by
  cases p with
  | asking =>
    obtain ⟨handOff, hh⟩ := Option.isSome_iff_exists.1 h
    simp only [rest, step, bind_assoc]
    rw [Call.run_bind, Call.run_bind, Census.run_take, hh]
    dsimp only
    cases handOff.take.1 <;> rfl
  | retrieving k => cases hr : g.retainOthers <;> simp [rest, step, retrieve, hr]
  | tallying k retained => cases hc : g.withCount <;> simp [rest, step, tally, hc]
  | fetched answer => rw [rest, step, pure_bind, rest]

theorem onCensus_bind {α β : Type} (call : Call Census α) (f : α → Call Census β) :
    Grouper.onCensus (call >>= f) = Grouper.onCensus call >>= fun a => Grouper.onCensus (f a) :=
  Call.within_bind Grouper.census (fun c g => { g with census := c }) (fun _ _ => rfl)
    (fun _ _ _ => rfl) call f

theorem onCensus_pure {α : Type} (a : α) : Grouper.onCensus (pure a) = pure a :=
  Call.within_pure Grouper.census (fun c g => { g with census := c }) (fun _ => rfl) a

theorem onCensus_map {α β : Type} (f : α → β) (call : Call Census α) :
    Grouper.onCensus (f <$> call) = f <$> Grouper.onCensus call := by
  rw [map_eq_pure_bind, map_eq_pure_bind, onCensus_bind]
  simp only [onCensus_pure]

/-- Making the record of a group reads its census only. -/
theorem run_render (k : Key) (g : Grouper) :
    (Taken.item <$> Grouper.render k).run g = (Grouper.onCensus (retrieve g.config k)).run g := by
  have hanswer : ∀ count retained, Grouper.onCensus (Call.ofExcept
      (Grouper.output g.config k retained count)) =
        Call.ofExcept (Grouper.output g.config k retained count) := fun _ _ => rfl
  rw [Grouper.render, map_bind, Call.run_bind, Call.run_read]
  cases hr : g.config.retainOthers <;> cases hc : g.config.withCount <;>
    simp [hr, hc, retrieve, tally, onCensus_bind, onCensus_map, hanswer]

/-- **A grouper asks its census for a group** in these sections. -/
theorem run_next (g : Grouper) :
    Grouper.next.run g = (Grouper.onCensus (rest g.config .asking)).run g := by
  rw [Grouper.next, rest, onCensus_bind, Call.run_bind, Call.run_bind]
  rcases h : (Grouper.onCensus Census.take).run g with ⟨⟨e⟩ | ⟨_ | _ | k⟩, g', ns⟩
  · rfl
  · rfl
  · rfl
  · have hg : g'.config = g.config := by
      have hs := congrArg Outcome.state h
      rw [show g' = _ from hs.symm]
      rfl
    have hk := run_render k g'
    rw [hg, map_eq_pure_bind] at hk
    dsimp only
    rw [hk]

end Fetching

end Muster
