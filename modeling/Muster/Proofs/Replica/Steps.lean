import Muster.Proofs.Replica.Failing

/-!
# Proofs/Replica/Steps — a call for a group, step by step

A call for a group looks whether it has been told to stop before it asks for a record, and again
before it takes a group. Here `Replica.next` is cut into its steps (`Stand.step`), so that something
can happen between any two of them. A stand carries the number of records that the call has counted
so far: they come into the books all at once, when the call pulls no more. What a step does to the
books, and to the number that a waiting call has put down, is said once (`Stand.Goes`), and so is
where a call begins (`Stand.Begins`).

* `Stand.next_eq`, `Stand.rest_eq` — a call is its steps, one after the other.
* `papers_of_accumulate_error` — a call that breaks off while it pulls records enters none of them.
* `Stand.exists_start`, `Stand.goes_step` — each call begins as `Stand.Begins` says, and each step
  goes as `Stand.Goes` says.
-/

namespace Muster

namespace Replica

variable {σ : Type}

/-! ## Steps of a call -/

/-- **How far a call for a group has come.** -/
inductive Stand
  /-- it is over, with this answer; with none, if it broke off or if nobody has called yet -/
  | resting (answer : Option Answer)
  /-- it is about to look whether to stop, before it asks for a record; it has counted some -/
  | looking (fuel counted : Nat)
  | pulling (fuel counted : Nat)
  /-- it has a record in hand, which it is about to count -/
  | holding (r : Record) (fuel counted : Nat)
  /-- it pulls no more, and is about to enter in the books how many records it has counted -/
  | leaving (answer : Option Answer) (counted : Nat)
  /-- its supply has ended -/
  | exhausting
  | arriving
  | finishing (last : Bool)
  /-- it is about to look whether to stop, before it takes a group -/
  | turning
  | taking

namespace Stand

/-- **A call begins** where the last one has left the replica. -/
def start [Supply σ] : Call (Onsite (Replica σ)) Stand := do
  let p ← Call.read
  match p.self.member.progress with
  | .accumulating => do
    let fuel := Supply.ahead p.site p.self.supply + 1
    match ← takeUp with
    | some counted => return .pulling fuel counted
    | none => return .looking fuel 0
  | .exhausted => return .arriving
  | .draining => return .turning
  | .done => return .resting (some .ended)

/-- Where a call goes on that pulls no more. -/
def onward : Option Answer → Stand
  | some answer => resting (some answer)
  | none => exhausting

/-- **One step of a call.** -/
def step [Supply σ] : Stand → Call (Onsite (Replica σ)) Stand
  | resting answer => return .resting answer
  | looking fuel counted => do
    if (← Call.read).site.killed then return .leaving (some (.error .killed)) counted
    return .pulling fuel counted
  | pulling 0 counted => return .leaving (some .waiting) counted
  | pulling (fuel + 1) counted => do
    match ← onSupply Supply.pull with
    | .record r => return .holding r fuel counted
    | .ended => return .leaving none counted
    | .failed message => return .leaving (some (.error (.supplyFailed message))) counted
    | .blocked => return .leaving (some .waiting) counted
  | holding r fuel counted => do
    onSeat (Seat.absorb r)
    return .looking fuel (counted + 1)
  | leaving answer counted => do
    leaveOff answer counted
    return onward answer
  | exhausting => do
    onSeat Seat.exhaust
    return .arriving
  | arriving => do
    let last ← onSeat Seat.arrive
    return .finishing last
  | finishing last => do
    onSeat (Seat.finish last)
    return .turning
  | turning => do
    if (← Call.read).site.killed then return .resting (some (.error .killed))
    return .taking
  | taking => do
    match ← onSeat Seat.take with
    | .waiting => return .resting (some .waiting)
    | .exhausted => return .resting (some .ended)
    | .item r => return .resting (some (.group r))

/-- What is left of a call that pulls no more. -/
def close (o : Option Answer × Nat) : Call (Onsite (Replica σ)) Answer := do
  leaveOff o.1 o.2
  leave o.1

/-- **What is left of a call.** -/
def rest [Supply σ] : Stand → Call (Onsite (Replica σ)) Answer
  | resting none => next
  | resting (some answer) => return answer
  | looking fuel counted => unlessStopped counted (pullRecords fuel counted) >>= close
  | pulling fuel counted => pullRecords fuel counted >>= close
  | holding r fuel counted => do
    onSeat (Seat.absorb r)
    unlessStopped (counted + 1) (pullRecords fuel (counted + 1)) >>= close
  | leaving answer counted => close (answer, counted)
  | exhausting => leave none
  | arriving => arrive
  | finishing last => do
    onSeat (Seat.finish last)
    handOut
  | turning => handOut
  | taking => do
    match ← onSeat Seat.take with
    | .waiting => return .waiting
    | .exhausted => return .ended
    | .item r => return .group r

/-- **A call is its beginning and what is left then.** -/
theorem next_eq [Supply σ] : (next : Call (Onsite (Replica σ)) Answer) = start >>= rest := by
  simp only [next, start, bind_assoc]
  refine bind_congr fun p => ?_
  cases p.self.member.progress with
  | accumulating =>
    simp only [accumulate, bind_assoc]
    refine bind_congr fun pending => ?_
    cases pending with
    | none | some =>
      simp only [pure_bind, rest]
      refine bind_congr fun o => bind_congr fun _ => ?_
      cases o.1 <;> rfl
  | exhausted | draining | done => rw [pure_bind, rest]

/-- **What is left of a call is one step and what is left after it.** -/
theorem rest_eq [Supply σ] (s : Stand) :
    (s.rest : Call (Onsite (Replica σ)) Answer) = s.step >>= rest := by
  cases s with
  | resting answer => rw [step, pure_bind]
  | looking fuel counted =>
    simp only [rest, step, unlessStopped, bind_assoc]
    refine bind_congr fun p => ?_
    by_cases hstop : p.site.killed = true
    · rw [if_pos hstop, if_pos hstop, pure_bind, pure_bind, rest]
    · rw [if_neg hstop, if_neg hstop, pure_bind, rest]
  | pulling fuel counted =>
    cases fuel with
    | zero => simp only [rest, step, pullRecords, pure_bind]
    | succ fuel =>
      simp only [rest, step, pullRecords, bind_assoc]
      refine bind_congr fun pull => ?_
      cases pull <;> simp [rest]
  | holding r fuel counted => simp [rest, step]
  | leaving answer counted =>
    cases answer <;> simp [rest, step, close, onward, leave]
  | exhausting => simp [rest, step, leave]
  | arriving => simp [rest, step, arrive]
  | finishing last => simp [rest, step]
  | turning =>
    simp only [rest, step, handOut, bind_assoc]
    refine bind_congr fun p => ?_
    by_cases hstop : p.site.killed = true
    · rw [if_pos hstop, if_pos hstop, pure_bind, rest]
    · rw [if_neg hstop, if_neg hstop, pure_bind]
      rfl
  | taking =>
    simp only [rest, step, bind_assoc]
    refine bind_congr fun taken => ?_
    cases taken <;> simp [rest]

end Stand

end Replica

/-! ## Books -/

namespace Seat

variable {α β : Type} {B : α → Member → Member → Prop}

/-- **What becomes of the books**, whatever becomes of the team: a call that breaks off leaves them
as they were, and one that answers does not do anything else to them than is said. -/
def Books (call : Call Seat α) (B : α → Member → Member → Prop) : Prop :=
  ∀ s, (∃ e, (call.run s).result = .error e ∧ (call.run s).state.member = s.member) ∨
    ∃ a, (call.run s).result = .ok a ∧ B a s.member (call.run s).state.member

/-- What is done to the team does not touch the books. -/
theorem Books.onTeam_bind {call : Call Team β} {f : β → Call Seat α} (hf : ∀ b, Books (f b) B) :
    Books (onTeam call >>= f) B := by
  intro s
  have hteam : (onTeam call).run s =
      ⟨(call.run s.team).result, { s with team := (call.run s.team).state },
        (call.run s.team).notices⟩ := rfl
  rw [Call.run_bind, hteam]
  rcases call.run s.team with ⟨⟨e⟩ | ⟨b⟩, t, ns⟩
  · exact .inl ⟨e, rfl, rfl⟩
  · exact hf b _

theorem books_absorb (r : Record) : Books (absorb r) fun _ m m' => m' = m :=
  Books.onTeam_bind fun _ _ => .inr ⟨(), rfl, rfl⟩

theorem books_enter (records : Nat) :
    Books (enter records) fun _ m m' => m' = { m with consumed := m.consumed + records } :=
  fun _ => .inr ⟨(), rfl, rfl⟩

theorem books_exhaust :
    Books exhaust fun _ m m' => ∃ size, m' = { m with localSize := size, progress := .exhausted } :=
  fun s => .inr ⟨(), rfl, s.team.census.size, rfl⟩

theorem books_arrive :
    Books arrive fun _ m m' => ∃ phase, m' = { m with arrival := some phase } :=
  Books.onTeam_bind fun a _ => .inr ⟨a.last, rfl, a.phase, rfl⟩

theorem books_finish (last : Bool) :
    Books (finish last) fun _ m m' => m' = { m with progress := .draining } :=
  Books.onTeam_bind fun _ _ => .inr ⟨(), rfl, rfl⟩

theorem books_take :
    Books take fun a m m' => m' = { m with
      progress := if a.isExhausted then .done else m.progress } :=
  Books.onTeam_bind fun a _ => .inr ⟨a, by cases a <;> exact ⟨rfl, rfl⟩⟩

theorem books_rewind : Books rewind fun _ m m' => m' = { scope := m.scope } :=
  Books.onTeam_bind fun _ => Books.onTeam_bind fun _ _ => .inr ⟨(), rfl, rfl⟩

end Seat

namespace Replica

variable {σ : Type} [Supply σ]

/-- **What a replica keeps**, besides its supply: its books, and the number of records that a call
has counted which waits for an answer. -/
structure Papers where
  member : Member
  pending : Option Nat

/-- The papers of a replica. -/
def papers (r : Replica σ) : Papers := ⟨r.member, r.pending⟩

/-- The papers after a change of the books. -/
def Papers.book (x : Papers) (f : Member → Member) : Papers := { x with member := f x.member }

omit [Supply σ] in
/-- **What a replica does on its seat** becomes of its books what becomes of the seat's, and nothing
else becomes of its papers. -/
theorem papers_onSeat {α β : Type} {call : Call Seat α} {B : α → Member → Member → Prop}
    (hcall : Seat.Books call B) (f : α → β) (p : Onsite (Replica σ)) :
    let o := (onSeat call >>= fun a => pure (f a)).ends p
    (∃ e, o.1 = .error e ∧ o.2.self.papers = p.self.papers) ∨
      ∃ a m, o.1 = .ok (f a) ∧ o.2.self.papers = ⟨m, p.self.pending⟩ ∧ B a p.self.member m := by
  rw [Call.ends_bind, Call.ends, onSeat, Call.run_within]
  obtain ⟨e, hresult, hmember⟩ | ⟨a, hresult, hbooks⟩ :=
    hcall ⟨p.site.team p.self.team, p.self.member⟩
  · rw [hresult]
    exact .inl ⟨e, rfl, congrArg (Papers.mk · p.self.pending) hmember⟩
  · rw [hresult]
    exact .inr ⟨a, _, rfl, rfl, hbooks⟩

/-! ## Breaking off -/

omit [Supply σ] in
theorem preserves_unlessStopped {counted : Nat}
    {call : Call (Onsite (Replica σ)) (Option Answer × Nat)}
    (h : call.Preserves fun p => p.self.papers) :
    (unlessStopped counted call).Preserves fun p => p.self.papers := by
  refine .bind (fun _ => rfl) fun p => ?_
  cases p.site.killed with
  | true => exact fun _ => rfl
  | false => exact h

/-- **The loop does not touch the papers**, however it ends: what it has counted is a matter of its
own until it is left. -/
theorem preserves_pullRecords (fuel counted : Nat) :
    (pullRecords fuel counted).Preserves fun p : Onsite (Replica σ) => p.self.papers := by
  induction fuel generalizing counted with
  | zero => exact fun _ => rfl
  | succ fuel ih =>
    have habsorb : ∀ r, (Seat.absorb r).Preserves Seat.member := fun r =>
      .bind (fun _ => rfl) fun _ _ => rfl
    refine .bind (fun _ => rfl) fun answer => ?_
    cases answer with
    | record r =>
      refine .bind (fun p => ?_) fun _ => preserves_unlessStopped (ih (counted + 1))
      exact congrArg (Papers.mk · p.self.pending) (habsorb r ⟨p.site.team p.self.team, _⟩)
    | ended | failed | blocked => exact fun _ => rfl

omit [Supply σ] in
/-- The number of the records is entered or kept without fail. -/
theorem exists_ends_leaveOff (answer : Option Answer) (counted : Nat) (p : Onsite (Replica σ)) :
    ∃ q, (leaveOff answer counted).ends p = (.ok (), q) := by
  unfold leaveOff
  split <;> exact ⟨_, rfl⟩

/-- **Whoever breaks off while it pulls records enters nothing**, and nothing is kept for another
call: the records that have been counted are missing from the books. -/
theorem papers_of_accumulate_error {fuel : Nat} {e : Fault} {p q : Onsite (Replica σ)}
    (h : (accumulate fuel).ends p = (.error e, q)) : q.self.papers = ⟨p.self.member, none⟩ := by
  have hloop : (resume fuel p.self.pending).Preserves
      fun p : Onsite (Replica σ) => p.self.papers := by
    cases p.self.pending with
    | none => exact preserves_unlessStopped (preserves_pullRecords fuel 0)
    | some counted => exact preserves_pullRecords fuel counted
  rw [accumulate, Call.ends_bind_ok (ends_takeUp p), Call.ends_bind] at h
  rcases hends : (resume fuel p.self.pending).ends ⟨p.site, { p.self with pending := none }⟩ with
    ⟨⟨e'⟩ | ⟨answer, counted⟩, u⟩ <;> rw [hends] at h
  · obtain ⟨-, rfl⟩ := Prod.mk.inj h
    exact hloop.of_ends hends
  · obtain ⟨v, hleave⟩ := exists_ends_leaveOff answer counted u
    have hanswer := (Call.ends_bind_ok (f := fun _ => pure answer) hleave).symm.trans h
    cases hanswer

-- The supply breaks off at its third record: two have been counted, and none is in the books.
example :
    let g : Config := { keyFields := ["k"], shards := 2 }
    let r : Record := .field "k" (.int 1) .empty
    let site : Site := { teams := #[(Team.ofConfig g 1).toOption.getD default] }
    let supply : Fragile Feed := ⟨.ofList [r, r, r] none, some (3, none)⟩
    let q := (next.ends ⟨site, fresh 0 .outer supply⟩).2
    (q.site.team 0).census.processed = 2 ∧ q.self.member.consumed = 0 := by
  decide +kernel

namespace Stand

/-- **Where a call can begin**, given the papers of the replica, and what becomes of them: a call
that counts takes up the number that has been put down, if there is one. -/
inductive Begins : Papers → Stand → Papers → Prop
  | looks {x : Papers} (fuel : Nat) (hm : x.member.progress = .accumulating)
    (hx : x.pending = none) : Begins x (looking fuel 0) x
  | goesOn {x : Papers} {counted : Nat} (fuel : Nat) (hm : x.member.progress = .accumulating)
    (hx : x.pending = some counted) : Begins x (pulling fuel counted) { x with pending := none }
  | arrives {x : Papers} (hm : x.member.progress = .exhausted) : Begins x arriving x
  | turns {x : Papers} (hm : x.member.progress = .draining) : Begins x turning x
  | rests {x : Papers} (hm : x.member.progress = .done) : Begins x (resting (some .ended)) x

/-- A call that begins does not touch the books. -/
theorem Begins.member_eq {s : Stand} {x x' : Papers} (h : Begins x s x') :
    x'.member = x.member := by
  cases h <;> rfl

/-- A call that has begun is not forgotten. -/
theorem Begins.ne_none {s : Stand} {x x' : Papers} (h : Begins x s x') : s ≠ resting none := by
  cases h <;> simp

/-- **A call begins at one of these.** -/
theorem exists_start (p : Onsite (Replica σ)) :
    ∃ s q, start.ends p = (.ok s, q) ∧ Begins p.self.papers s q.self.papers := by
  rw [start, Call.ends_read_bind]
  cases hm : p.self.member.progress with
  | accumulating =>
    dsimp only
    rw [Call.ends_bind_ok (ends_takeUp p)]
    cases hp : p.self.pending with
    | none =>
      have hpapers : (⟨p.self.member, none⟩ : Papers) = p.self.papers := by rw [papers, hp]
      exact ⟨_, _, rfl, hpapers ▸ .looks _ hm rfl⟩
    | some counted => exact ⟨_, _, rfl, .goesOn _ hm hp⟩
  | exhausted => exact ⟨_, _, rfl, .arrives hm⟩
  | draining => exact ⟨_, _, rfl, .turns hm⟩
  | done => exact ⟨_, _, rfl, .rests hm⟩

/-- **What a step can come to**, given the papers of the replica: how far the call has come then,
unless it breaks off, and the papers. -/
inductive Goes : Stand → Papers → Except Fault Stand → Papers → Prop
  | rested {answer : Option Answer} {x : Papers} :
    Goes (resting answer) x (.ok (resting answer)) x
  | stopped {fuel counted : Nat} {x : Papers} :
    Goes (looking fuel counted) x (.ok (leaving (some (.error .killed)) counted)) x
  | looked {fuel counted : Nat} {x : Papers} :
    Goes (looking fuel counted) x (.ok (pulling fuel counted)) x
  | paused {fuel counted : Nat} {x : Papers} :
    Goes (pulling fuel counted) x (.ok (leaving (some .waiting) counted)) x
  | pulled {fuel counted : Nat} {x : Papers} (r : Record) :
    Goes (pulling (fuel + 1) counted) x (.ok (holding r fuel counted)) x
  | ended {fuel counted : Nat} {x : Papers} :
    Goes (pulling fuel counted) x (.ok (leaving none counted)) x
  | failed {fuel counted : Nat} {x : Papers} (message : String) :
    Goes (pulling fuel counted) x (.ok (leaving (some (.error (.supplyFailed message))) counted)) x
  | counted {r : Record} {fuel counted : Nat} {x : Papers} :
    Goes (holding r fuel counted) x (.ok (looking fuel (counted + 1))) x
  | kept {counted : Nat} {x : Papers} :
    Goes (leaving (some .waiting) counted) x (.ok (resting (some .waiting)))
      { x with pending := some counted }
  | entered {answer : Option Answer} {counted : Nat} {x : Papers} (h : answer ≠ some .waiting) :
    Goes (leaving answer counted) x (.ok (onward answer))
      (x.book fun m => { m with consumed := m.consumed + counted })
  | exhausted {x : Papers} (size : Nat) :
    Goes exhausting x (.ok arriving)
      (x.book fun m => { m with localSize := size, progress := .exhausted })
  | arrived {x : Papers} (phase : Nat) (last : Bool) :
    Goes arriving x (.ok (finishing last)) (x.book fun m => { m with arrival := some phase })
  | finished {last : Bool} {x : Papers} :
    Goes (finishing last) x (.ok turning) (x.book fun m => { m with progress := .draining })
  | refused {x : Papers} : Goes turning x (.ok (resting (some (.error .killed)))) x
  | turned {x : Papers} : Goes turning x (.ok taking) x
  | waited {x : Papers} : Goes taking x (.ok (resting (some .waiting))) x
  | took {x : Papers} (r : Record) : Goes taking x (.ok (resting (some (.group r)))) x
  | drained {x : Papers} :
    Goes taking x (.ok (resting (some .ended))) (x.book fun m => { m with progress := .done })
  | broke {s : Stand} {x : Papers} (e : Fault) : Goes s x (.error e) x

omit [Supply σ] in
/-- A step on the seat goes as the books say. -/
theorem Goes.onSeat {α : Type} {call : Call Seat α} {B : α → Member → Member → Prop} {s : Stand}
    {f : α → Stand} (hcall : Seat.Books call B) (p : Onsite (Replica σ))
    (hgoes : ∀ a m, B a p.self.member m → Goes s p.self.papers (.ok (f a)) ⟨m, p.self.pending⟩) :
    Goes s p.self.papers ((onSeat call >>= fun a => pure (f a)).ends p).1
      ((onSeat call >>= fun a => pure (f a)).ends p).2.self.papers := by
  obtain ⟨e, hresult, hpapers⟩ | ⟨a, m, hresult, hpapers, hbooks⟩ := papers_onSeat hcall f p
  · rw [hresult, hpapers]
    exact .broke e
  · rw [hresult, hpapers]
    exact hgoes a m hbooks

/-- How many steps there are at most until the call is over. -/
def left : Stand → Nat
  | resting _ => 0
  | taking => 1
  | turning => 2
  | finishing _ => 3
  | arriving => 4
  | exhausting => 5
  | leaving .. => 6
  | pulling fuel _ => 3 * fuel + 7
  | looking fuel _ => 3 * fuel + 8
  | holding _ fuel _ => 3 * fuel + 9

/-- Each step leaves fewer of them. -/
theorem Goes.left_lt {s s' : Stand} {x x' : Papers} (h : Goes s x (.ok s') x')
    (hs : ∀ answer, s ≠ resting answer) : s'.left < s.left := by
  cases h with
  | rested => exact absurd rfl (hs _)
  | @entered answer => cases answer <;> simp [left, onward]
  | _ => simp only [left]; omega

/-- A step that does not break off does not forget the call. -/
theorem Goes.ne_none {s s' : Stand} {x x' : Papers} (h : Goes s x (.ok s') x')
    (hs : ∀ answer, s ≠ resting answer) : s' ≠ resting none := by
  cases h with
  | rested => exact absurd rfl (hs _)
  | @entered answer => cases answer <;> exact nofun
  | _ => exact nofun

/-- A step that breaks off leaves the papers as they were. -/
theorem Goes.eq_of_error {s : Stand} {x x' : Papers} {e : Fault} (h : Goes s x (.error e) x') :
    x' = x := by
  cases h
  rfl

theorem goes_pulling (fuel counted : Nat) (p : Onsite (Replica σ)) :
    Goes (pulling fuel counted) p.self.papers ((pulling fuel counted).step.ends p).1
      ((pulling fuel counted).step.ends p).2.self.papers := by
  cases fuel with
  | zero => exact .paused
  | succ fuel =>
    have hpapers : ((onSupply Supply.pull).ends p).2.self.papers = p.self.papers := rfl
    rw [step, Call.ends_bind]
    rcases h : (onSupply (σ := σ) Supply.pull).ends p with ⟨⟨e⟩ | ⟨a⟩, q⟩ <;>
      rw [h] at hpapers <;> rw [← hpapers]
    · exact .broke e
    · cases a with
      | record r => exact .pulled r
      | ended => exact .ended
      | failed message => exact .failed message
      | blocked => exact .paused

theorem goes_leaving (answer : Option Answer) (counted : Nat) (p : Onsite (Replica σ)) :
    Goes (leaving answer counted) p.self.papers ((leaving answer counted).step.ends p).1
      ((leaving answer counted).step.ends p).2.self.papers := by
  by_cases hanswer : answer = some .waiting
  · subst hanswer
    exact .kept
  · rw [step, leaveOff_of_ne hanswer]
    exact Goes.onSeat (Seat.books_enter counted) p fun _ _ hm => hm ▸ .entered hanswer

theorem goes_taking (p : Onsite (Replica σ)) :
    Goes taking p.self.papers (taking.step.ends p).1 (taking.step.ends p).2.self.papers := by
  have hstep : (taking.step : Call (Onsite (Replica σ)) Stand) =
      Replica.onSeat Seat.take >>= fun a => pure (match a with
        | .waiting => .resting (some .waiting)
        | .exhausted => .resting (some .ended)
        | .item r => .resting (some (.group r))) := by
    refine bind_congr fun a => ?_
    cases a <;> rfl
  rw [hstep]
  refine Goes.onSeat Seat.books_take p fun a m hm => ?_
  subst hm
  cases a with
  | waiting => exact .waited
  | exhausted => exact .drained
  | item r => exact .took r

/-- **A step comes to one of these.** -/
theorem goes_step (s : Stand) (p : Onsite (Replica σ)) :
    Goes s p.self.papers (s.step.ends p).1 (s.step.ends p).2.self.papers := by
  cases s with
  | resting answer => exact .rested
  | looking fuel counted =>
    rw [step, Call.ends_read_bind]
    cases p.site.killed with
    | true => exact .stopped
    | false => exact .looked
  | pulling fuel counted => exact goes_pulling fuel counted p
  | holding r fuel counted =>
    exact Goes.onSeat (Seat.books_absorb r) p fun _ _ hm => hm ▸ .counted
  | leaving answer counted => exact goes_leaving answer counted p
  | exhausting =>
    refine Goes.onSeat Seat.books_exhaust p fun _ m hm => ?_
    obtain ⟨size, rfl⟩ := hm
    exact .exhausted size
  | arriving =>
    refine Goes.onSeat Seat.books_arrive p fun last m hm => ?_
    obtain ⟨phase, rfl⟩ := hm
    exact .arrived phase last
  | finishing last =>
    exact Goes.onSeat (Seat.books_finish last) p fun _ _ hm => hm ▸ .finished
  | turning =>
    rw [step, Call.ends_read_bind]
    cases p.site.killed with
    | true => exact .refused
    | false => exact .turned
  | taking => exact goes_taking p

end Stand

end Replica

end Muster
