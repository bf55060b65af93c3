import Muster.Proofs.Replica.Steps

/-!
# Proofs/Replica/Stopping — a replica that is told to stop in the middle of a call

Between any two steps of a call the rest of the world may do as it likes with the site, and so tell
everybody to stop (`Shift.after`). What a call has pulled, counted and taken is written down beside
it. A number of records is outstanding while they have been counted and are not in the books yet,
also across calls: one that has to wait puts its number down, and goes on from it.

* `Shift.exists_next` — a call that nobody comes between is `Replica.next`.
* `Shift.InOrder` — what has been pulled has been counted, but for the record in hand, and what has
  been counted is in the books or outstanding.
* `errors_lose_nothing` — neither a supply that fails nor being told to stop costs anything.
-/

namespace Muster

namespace Replica

variable {σ : Type} [Supply σ]

/-! ## Calls that others come between -/

/-- **A replica and the call that it is in**, or was in last: where it is, how far the call has
come, and what it has done since it began. -/
structure Shift (σ : Type) where
  place : Onsite (Replica σ)
  stand : Stand := .resting none
  /-- how many records had been pulled in this pass when the call began -/
  before : Nat := 0
  pulled : List Record := []
  counted : List Record := []
  /-- the groups taken from the hand-off -/
  taken : List Record := []

/-- **What may happen.** -/
inductive Happening
  /-- the caller asks for a group, or goes on asking after it had to wait -/
  | ask
  /-- the call goes one step further -/
  | go
  /-- the replica goes back to the start of a pass -/
  | rewind
  /-- others change the site, and may tell everybody to stop -/
  | world (site : Site)

namespace Shift

/-- The books of the replica. -/
def member (w : Shift σ) : Member := w.place.self.member

/-- What the number of a call that waits would be, if there is one. -/
def pending (w : Shift σ) : Option Nat := w.place.self.pending

/-- A call begins, unless it is the one that had to wait. -/
def begun (w : Shift σ) : Shift σ :=
  match w.stand with
  | .resting (some .waiting) => w
  | _ => { w with before := w.member.consumed, pulled := [], counted := [], taken := [] }

/-- The call has come to another stand: what it has done on the way is noted. -/
def noted (w : Shift σ) (s : Stand) : Shift σ :=
  match w.stand, s with
  | .pulling .., .holding r .. => { w with stand := s, pulled := w.pulled ++ [r] }
  | .holding r .., .looking .. => { w with stand := s, counted := w.counted ++ [r] }
  | .taking, .resting (some (.group r)) => { w with stand := s, taken := w.taken ++ [r] }
  | _, _ => { w with stand := s }

/-- The shift after something that ended like this. Whoever breaks off does not answer. -/
def settle (w : Shift σ) (o : Except Fault Stand × Onsite (Replica σ)) : Shift σ :=
  { w.noted (match o.1 with | .ok s => s | .error _ => .resting none) with place := o.2 }

/-- **Something happens**, if the replica stands where it can. -/
def act (w : Shift σ) : Happening → Shift σ
  | .ask =>
    match w.stand with
    | .resting _ => w.begun.settle (Stand.start.ends w.place)
    | _ => w
  | .go =>
    match w.stand with
    | .resting _ => w
    | s => w.settle (s.step.ends w.place)
  | .rewind =>
    match w.stand with
    | .resting (some .waiting) => w
    | .resting _ => { w with place := (rewind.ends w.place).2, stand := .resting none }
    | _ => w
  | .world site => { w with place := ⟨site, w.place.self⟩ }

/-- **The shift after a history.** -/
def after (w : Shift σ) (history : List Happening) : Shift σ := history.foldl act w

end Shift

/-! ## In order -/

/-- **The arrival fits the progress**: whoever counts has not arrived, and whoever hands out groups
has. In between, a call that broke off may have left it either way. -/
def Abides (m : Member) : Prop :=
  match m.progress with
  | .accumulating => m.arrival = none
  | .exhausted => True
  | .draining | .done => m.arrival.isSome

namespace Stand

/-- **The books fit how far the call has come.** -/
def Fits : Stand → Member → Prop
  | resting (some (.error .killed)), m => m.progress = .accumulating ∨ m.progress = .draining
  | resting _, _ => True
  | looking .., m | pulling .., m | holding .., m | leaving .., m | exhausting, m =>
    m.progress = .accumulating
  | arriving, m => m.progress = .exhausted
  | finishing _, m => m.progress = .exhausted ∧ m.arrival.isSome
  | turning, m | taking, m => m.progress = .draining

/-- Has the call been told to stop? -/
def isStopped : Stand → Bool
  | resting (some (.error .killed)) => true
  | _ => false

theorem eq_of_isStopped {s : Stand} (h : s.isStopped = true) :
    s = resting (some (.error .killed)) := by
  unfold isStopped at h
  split at h
  · rfl
  · cases h

/-- The record in hand, if there is one. -/
def inHand : Stand → List Record
  | holding r .. => [r]
  | _ => []

/-- The group with which the call has ended, or is about to, if it has one. -/
def given : Stand → List Record
  | resting (some (.group r)) | leaving (some (.group r)) _ => [r]
  | _ => []

/-- How many records the call has counted that are not in the books. One that waits has put the
number down. -/
def outstanding (pending : Option Nat) : Stand → Nat
  | looking _ counted | pulling _ counted | holding _ _ counted | leaving _ counted => counted
  | resting (some .waiting) => pending.getD 0
  | _ => 0

/-- **A number is put down only where a call waits** that counts. -/
def Awaits (s : Stand) (x : Papers) : Prop :=
  x.pending = none ∨ s = resting (some .waiting) ∧ x.member.progress = .accumulating

variable {s s' : Stand} {x x' : Papers} {r : Except Fault Stand} {answer : Option Answer}

/-- Whoever is in the middle of a call has not put anything down. -/
theorem Awaits.pending_eq_none (h : s.Awaits x) (hs : s ≠ resting (some .waiting)) :
    x.pending = none :=
  h.resolve_right fun hw => hs hw.1

theorem Begins.fits (h : Begins x s x') : s.Fits x'.member := by
  cases h with
  | rests => trivial
  | looks _ hm | goesOn _ hm | arrives hm | turns hm => exact hm

theorem Begins.inHand_eq (h : Begins x s x') : s.inHand = [] := by
  cases h <;> rfl

theorem Begins.given_eq (h : Begins x s x') : s.given = [] := by
  cases h <;> rfl

/-- **A call that begins has taken up the number that was put down**, if there was one. -/
theorem Begins.takes_up (h : Begins x s x')
    (hx : x.pending = none ∨ x.member.progress = .accumulating) :
    x'.pending = none ∧ s.outstanding none = x.pending.getD 0 := by
  cases h with
  | looks _ _ hnone => exact ⟨hnone, by rw [hnone]; rfl⟩
  | goesOn _ _ hsome => exact ⟨rfl, by rw [hsome]; rfl⟩
  | arrives hm | turns hm | rests hm =>
    have hnone : x.pending = none := hx.resolve_right (by simp [hm])
    exact ⟨hnone, by rw [hnone]; rfl⟩

theorem fits_onward {m : Member} (h : m.progress = .accumulating) : (onward answer).Fits m := by
  cases answer with
  | none => exact h
  | some answer =>
    unfold onward Fits
    split <;> first | exact .inl h | trivial

theorem given_onward (answer : Option Answer) (counted : Nat) :
    (onward answer).given = (leaving answer counted).given := by
  cases answer with
  | none => rfl
  | some answer => cases answer <;> rfl

theorem inHand_onward (answer : Option Answer) : (onward answer).inHand = [] := by
  cases answer <;> rfl

/-- Whoever does not have to wait has entered everything. -/
theorem outstanding_onward (h : answer ≠ some .waiting) (pending : Option Nat) :
    (onward answer).outstanding pending = 0 := by
  cases answer with
  | none => rfl
  | some answer =>
    cases answer with
    | waiting => exact absurd rfl h
    | group | ended | error => rfl

theorem Goes.abides (h : Goes s x r x') (hs : s.Fits x.member) (hx : Abides x.member) :
    Abides x'.member := by
  cases h with
  | exhausted | arrived => simp_all [Abides, Fits, Papers.book]
  | finished => exact hs.2
  | drained =>
    rw [Abides, show x.member.progress = .draining from hs] at hx
    exact hx
  | _ => exact hx

theorem Goes.fits (h : Goes s x (.ok s') x') (hs : s.Fits x.member) : s'.Fits x'.member := by
  cases h with
  | entered => exact fits_onward hs
  | refused => exact .inr hs
  | exhausted | finished => rfl
  | arrived => exact ⟨hs, rfl⟩
  | kept | waited | took | drained => trivial
  | rested | stopped | looked | paused | pulled | ended | failed | counted | turned => exact hs

theorem Goes.awaits (h : Goes s x (.ok s') x') (hs : s.Fits x.member) (hx : x.pending = none) :
    s'.Awaits x' := by
  cases h with
  | kept => exact .inr ⟨rfl, hs⟩
  | _ => exact .inl hx

end Stand

namespace Shift

variable {w : Shift σ}

/-- **What a call has pulled has been counted**, but for the record in hand; what has been counted
is in the books, or outstanding; and no group has been taken that has not been given. -/
structure Squares (w : Shift σ) : Prop where
  pulled : w.pulled = w.counted ++ w.stand.inHand
  consumed : w.member.consumed + w.stand.outstanding w.pending = w.before + w.counted.length
  taken : w.taken = w.stand.given

/-- **A shift in order.** A call that broke off may have lost what it had in hand, and the number of
the records that it had counted. -/
structure InOrder (w : Shift σ) : Prop where
  abides : Abides w.member
  fits : w.stand.Fits w.member
  awaits : w.stand.Awaits w.place.self.papers
  squares : w.stand ≠ .resting none → w.Squares

omit [Supply σ] in
/-- **A step keeps the logs square.** -/
theorem Squares.goes (h : w.Squares) {s : Stand} {q : Onsite (Replica σ)}
    (hgoes : Stand.Goes w.stand w.place.self.papers (.ok s) q.self.papers)
    (hs : ∀ answer, w.stand ≠ .resting answer) (hw : w.pending = none) :
    (w.settle (.ok s, q)).Squares := by
  obtain ⟨⟨site, team, m, supply, pending⟩, stand, before, pulled, counted, taken⟩ := w
  obtain ⟨site', team', m', supply', pending'⟩ := q
  obtain ⟨hpulled, hconsumed, htaken⟩ := h
  obtain rfl : pending = none := hw
  dsimp only [member, Shift.pending, papers] at hgoes hs hpulled hconsumed htaken
  cases hgoes with
  | rested => exact absurd rfl (hs _)
  | pulled r =>
    -- the record comes into the hand
    have hnone : pulled = counted := hpulled.trans (List.append_nil counted)
    exact ⟨congrArg (· ++ [r]) hnone, hconsumed, htaken⟩
  | @counted r =>
    -- the record leaves the hand, and is counted
    refine ⟨hpulled.trans (List.append_nil _).symm, ?_, htaken⟩
    show _ = before + (counted ++ [r]).length
    rw [List.length_append, ← Nat.add_assoc, ← hconsumed]
    rfl
  | @entered answer counted' _ hanswer =>
    -- what was outstanding is entered, all of it at once
    refine ⟨?_, ?_, htaken.trans (Stand.given_onward answer counted').symm⟩
    · show _ = counted ++ (Stand.onward answer).inHand
      rw [Stand.inHand_onward]
      exact hpulled
    · show _ + (Stand.onward answer).outstanding _ = _
      rw [Stand.outstanding_onward hanswer]
      exact hconsumed
  | took r => exact ⟨hpulled, hconsumed, congrArg (· ++ [r]) htaken⟩
  | paused | stopped | looked | ended | failed | kept | refused | turned | waited
  | exhausted | arrived | finished | drained => exact ⟨hpulled, hconsumed, htaken⟩

omit [Supply σ] in
@[simp] theorem stand_noted (w : Shift σ) (s : Stand) : (w.noted s).stand = s := by
  unfold noted
  split <;> rfl

omit [Supply σ] in
/-- Between calls there is nothing to note. -/
theorem noted_of_resting {answer : Option Answer} (hw : w.stand = .resting answer) (s : Stand) :
    w.noted s = { w with stand := s } := by
  unfold noted
  rw [hw]

theorem InOrder.go (h : w.InOrder) (hs : ∀ answer, w.stand ≠ .resting answer) :
    (w.settle (w.stand.step.ends w.place)).InOrder := by
  have hgoes := w.stand.goes_step w.place
  have hpending : w.pending = none := h.awaits.pending_eq_none (hs _)
  rcases hends : w.stand.step.ends w.place with ⟨⟨e⟩ | ⟨s⟩, q⟩ <;> rw [hends] at hgoes
  · have hrests : (w.settle (.error e, q)).stand = .resting none := w.stand_noted _
    have hnone : q.self.pending = none := (congrArg Papers.pending hgoes.eq_of_error).trans hpending
    refine ⟨hgoes.abides h.fits h.abides, ?_, .inl hnone, fun hne => absurd hrests hne⟩
    rw [hrests]
    trivial
  · have hstand : (w.settle (.ok s, q)).stand = s := w.stand_noted s
    refine ⟨hgoes.abides h.fits h.abides, ?_, ?_,
      fun _ => (h.squares (hs none)).goes hgoes hs hpending⟩
    · rw [hstand]
      exact hgoes.fits h.fits
    · rw [hstand]
      exact hgoes.awaits h.fits hpending

omit [Supply σ] in
/-- **When a call begins its logs are empty**; when it goes on they are square. -/
theorem InOrder.begun (h : w.InOrder) {answer : Option Answer} (hw : w.stand = .resting answer) :
    w.begun.stand = .resting answer ∧ w.begun.pulled = w.begun.counted ∧
      w.member.consumed + w.pending.getD 0 = w.begun.before + w.begun.counted.length ∧
      w.begun.taken = [] := by
  by_cases hwaited : answer = some .waiting
  · subst hwaited
    have hbegun : w.begun = w := by rw [Shift.begun, hw]
    obtain ⟨hpulled, hconsumed, htaken⟩ := h.squares (by simp [hw])
    rw [hw] at hpulled hconsumed htaken
    rw [hbegun]
    exact ⟨hw, hpulled.trans (List.append_nil _), hconsumed, htaken⟩
  · have hbegun : w.begun =
        { w with before := w.member.consumed, pulled := [], counted := [], taken := [] } := by
      rw [Shift.begun, hw]
      split
      · simp_all
      · rfl
    have hpending : w.pending = none := h.awaits.pending_eq_none (by simp [hw, hwaited])
    rw [hbegun, hpending]
    exact ⟨hw, rfl, rfl, rfl⟩

theorem InOrder.ask (h : w.InOrder) {answer : Option Answer} (hw : w.stand = .resting answer) :
    (w.begun.settle (Stand.start.ends w.place)).InOrder := by
  obtain ⟨s, q, hstart, hbegins⟩ := Stand.exists_start w.place
  obtain ⟨hstand, hpulled, hconsumed, htook⟩ := h.begun hw
  obtain ⟨hpending, hcounted⟩ := hbegins.takes_up (h.awaits.imp id fun hwaits => hwaits.2)
  have hmember : q.self.member = w.member := hbegins.member_eq
  rw [hstart, settle, noted_of_resting hstand]
  refine ⟨?_, hbegins.fits, .inl hpending,
    fun _ => ⟨?_, ?_, htook.trans hbegins.given_eq.symm⟩⟩
  · exact (congrArg Abides hmember).mpr h.abides
  · show _ = _ ++ s.inHand
    rw [hbegins.inHand_eq, List.append_nil]
    exact hpulled
  · show q.self.member.consumed + s.outstanding q.self.pending = _
    rw [hmember, show q.self.pending = none from hpending, hcounted]
    exact hconsumed

/-- **Going back to the start of a pass** leaves the books alone, or begins new ones. -/
theorem abides_rewind {p : Onsite (Replica σ)} (h : Abides p.self.member) :
    ∃ m, (rewind.ends p).2.self.papers = ⟨m, p.self.pending⟩ ∧ Abides m := by
  have hsupply : ((onSupply Supply.rewind).ends p).2.self.papers = p.self.papers := rfl
  rw [Replica.rewind, Call.ends_bind]
  rcases hends : (onSupply (σ := σ) Supply.rewind).ends p with ⟨⟨e⟩ | ⟨_ | _⟩, q⟩ <;>
    rw [hends] at hsupply
  · exact ⟨_, hsupply, h⟩
  · exact ⟨_, hsupply, h⟩
  · have hpending : q.self.pending = p.self.pending := congrArg Papers.pending hsupply
    obtain ⟨e, -, hpapers⟩ | ⟨a, m, -, hpapers, hbooks⟩ :=
      papers_onSeat Seat.books_rewind (fun _ => true) q
    · exact ⟨_, hpapers.trans hsupply, h⟩
    · subst hbooks
      exact ⟨{ scope := q.self.member.scope }, hpending ▸ hpapers, rfl⟩

/-- **Whatever happens, a shift stays in order.** -/
theorem InOrder.act (h : w.InOrder) (x : Happening) : (w.act x).InOrder := by
  cases x with
  | ask =>
    rw [Shift.act]
    split
    · exact h.ask ‹_›
    · exact h
  | go =>
    rw [Shift.act]
    split
    · exact h
    · rename_i hs
      exact h.go fun answer hw => hs answer hw
  | rewind =>
    rw [Shift.act]
    split
    · exact h
    · rename_i hwaits hw
      obtain ⟨m, hpapers, hm⟩ := abides_rewind h.abides
      have hnone : w.pending = none := h.awaits.pending_eq_none fun hstand =>
        hwaits (Stand.resting.inj (hw.symm.trans hstand))
      refine ⟨?_, trivial, .inl ?_, fun hne => absurd rfl hne⟩
      · exact (congrArg (fun x => Abides x.member) hpapers).mpr hm
      · exact (congrArg Papers.pending hpapers).trans hnone
    · exact h
  | world site =>
    refine ⟨h.abides, h.fits, h.awaits, fun hne => ?_⟩
    obtain ⟨hpulled, hconsumed, htaken⟩ := h.squares hne
    exact ⟨hpulled, hconsumed, htaken⟩

theorem InOrder.after (h : w.InOrder) (history : List Happening) : (w.after history).InOrder := by
  induction history generalizing w with
  | nil => exact h
  | cons x history ih => exact ih (h.act x)

/-! ## Calls that nobody comes between -/

theorem act_go (hs : ∀ answer, w.stand ≠ .resting answer) :
    w.act .go = w.settle (w.stand.step.ends w.place) := by
  rw [act]
  split
  · exact absurd ‹_› (hs _)
  · rfl

/-- **A call that nobody comes between** goes on, step by step, to what is left of it. -/
theorem exists_go {answer : Answer} {q : Onsite (Replica σ)} (hw : w.stand ≠ .resting none)
    (h : w.stand.rest.ends w.place = (.ok answer, q)) :
    ∃ n, (w.after (List.replicate n .go)).stand = .resting (some answer) ∧
      (w.after (List.replicate n .go)).place = q := by
  induction hleft : w.stand.left using Nat.strongRecOn generalizing w with
  | ind left ih =>
    by_cases hs : ∃ given, w.stand = .resting given
    · obtain ⟨given, hs⟩ := hs
      rw [hs] at hw h
      cases given with
      | none => exact absurd rfl hw
      | some given =>
        obtain ⟨hanswer, hplace⟩ := Prod.mk.inj h
        obtain rfl := Except.ok.inj hanswer
        exact ⟨0, hs, hplace⟩
    · have hs : ∀ given, w.stand ≠ .resting given := fun given hgiven => hs ⟨given, hgiven⟩
      have hgoes := w.stand.goes_step w.place
      rw [Stand.rest_eq, Call.ends_bind] at h
      rcases hends : w.stand.step.ends w.place with ⟨⟨e⟩ | ⟨s⟩, u⟩ <;> rw [hends] at h hgoes
      · cases h
      · have hact : w.act .go = w.settle (.ok s, u) := by rw [act_go hs, hends]
        have hstand : (w.settle (.ok s, u)).stand = s := w.stand_noted s
        obtain ⟨n, hn⟩ := ih s.left (hleft ▸ hgoes.left_lt hs) (w := w.settle (.ok s, u))
          (by rw [hstand]; exact hgoes.ne_none hs) (by rw [hstand]; exact h) (by rw [hstand])
        refine ⟨n + 1, ?_⟩
        rw [List.replicate_succ, after, List.foldl_cons, hact]
        exact hn

/-- **A call that nobody comes between does what `next` does.** -/
theorem exists_next {last : Option Answer} {answer : Answer} {q : Onsite (Replica σ)}
    (hw : w.stand = .resting last) (h : next.ends w.place = (.ok answer, q)) :
    ∃ n, (w.after (.ask :: List.replicate n .go)).stand = .resting (some answer) ∧
      (w.after (.ask :: List.replicate n .go)).place = q := by
  obtain ⟨s, u, hstart, hbegins⟩ := Stand.exists_start w.place
  have hact : w.act .ask = w.begun.settle (.ok s, u) := by
    rw [act, hw, ← hstart]
  have hstand : (w.begun.settle (.ok s, u)).stand = s := w.begun.stand_noted s
  rw [Stand.next_eq, Call.ends_bind_ok hstart] at h
  obtain ⟨n, hn⟩ := exists_go (w := w.begun.settle (.ok s, u))
    (by rw [hstand]; exact hbegins.ne_none) (by rw [hstand]; exact h)
  refine ⟨n, ?_⟩
  rw [after, List.foldl_cons, hact]
  exact hn

/-! ## Calls that are told to stop -/

/-- **A call that has been told to stop has lost nothing**: no group has been taken, whatever it has
pulled has been counted and booked, and the replica still counts or hands out groups. -/
structure Stopped (w : Shift σ) : Prop where
  taken : w.taken = []
  counted : w.counted = w.pulled
  consumed : w.member.consumed = w.before + w.pulled.length
  stands : (w.member.progress = .accumulating ∧ w.member.arrival = none) ∨
    (w.member.progress = .draining ∧ w.member.arrival.isSome)

omit [Supply σ] in
theorem InOrder.stopped (h : w.InOrder) (hw : w.stand = .resting (some (.error .killed))) :
    w.Stopped := by
  obtain ⟨hpulled, hconsumed, htaken⟩ := h.squares (by simp [hw])
  have hfits := h.fits
  have habides := h.abides
  rw [hw] at hpulled hconsumed htaken hfits
  have hcounted : w.pulled = w.counted := hpulled.trans (List.append_nil _)
  refine ⟨htaken, hcounted.symm, hcounted ▸ hconsumed, ?_⟩
  obtain hm | hm := hfits <;> rw [Abides, hm] at habides
  · exact .inl ⟨hm, habides⟩
  · exact .inr ⟨hm, habides⟩

omit [Supply σ] in
/-- A replica that has just been made is in order. -/
theorem inOrder_fresh (site : Site) (team : Nat) (scope : Scope) (supply : σ) :
    ({ place := ⟨site, fresh team scope supply⟩ } : Shift σ).InOrder :=
  ⟨rfl, trivial, .inl rfl, fun hne => absurd rfl hne⟩

end Shift

/-! ## Neither costs anything -/

/-- **Errors lose nothing.** Let a stage on its own be asked again after each failure of its supply.
It answers the failures, each of them once and in order; after each of them it is in the middle of
its pass, nobody has arrived at its barrier, and its books say how many records have been pulled;
and in the end it has answered the groups that a stage on the same supply without the failures
answers, with the same books and the same team.

Let a replica be asked for groups while others change its site as they like, and tell everybody to
stop whenever they like. A call that answers that it has been told to stop has taken no group, has
counted and booked every record that it has pulled, and leaves the replica counting without an
arrival or handing out groups with one. -/
theorem errors_lose_nothing {σ τ : Type} [Supply σ] [Supply τ] :
    (∀ (g : Config) (p : Onsite (Replica σ)) (answers : List (Except String Record)), Alone g p →
      Supply.Delivers p.self.team answers (supplied p) →
        (∀ (before : List (Except String Record)) (message : String)
          (after : List (Except String Record)), answers = before ++ .error message :: after →
            ∃ q, (asked ((failuresOf before).length + 1)).ends p =
                (.ok ((failuresOf before ++ [message]).map fun e => .error (.supplyFailed e)), q) ∧
              Resumes (recordsOf before).length q) ∧
        ∀ q : Onsite (Replica τ), Alone g q →
          Supply.Delivers q.self.team ((recordsOf answers).map .ok) (supplied q) →
            ∃ (groups : List Record) (p' : Onsite (Replica σ)) (q' : Onsite (Replica τ)),
              (asked ((failuresOf answers).length + (groups.length + 1))).ends p =
                (.ok (((failuresOf answers).map fun e => .error (.supplyFailed e)) ++
                  (groups.map .group ++ [.ended])), p') ∧
              (asked (groups.length + 1)).ends q = (.ok (groups.map .group ++ [.ended]), q') ∧
              EndsAlike (recordsOf answers).length p' q') ∧
    ∀ (site : Site) (team : Nat) (scope : Scope) (supply : σ) (history : List Happening),
      let w := ({ place := ⟨site, fresh team scope supply⟩ } : Shift σ).after history
      w.stand = .resting (some (.error .killed)) → w.Stopped := by
  refine ⟨fun g p answers hp hu => ⟨?_, fun q hq hv => hp.ends_alike hq hu hv⟩, ?_⟩
  · rintro before message after rfl
    exact hp.resumes hu
  · intro site team scope supply history w hw
    exact ((Shift.inOrder_fresh site team scope supply).after history).stopped hw

/-- A stage on a supply that fails twice, and one on the same supply without the failures. Another
replica is told to stop while it has its first record in hand. -/
theorem errors_lose_nothing_twice :
    let g : Config := { keyFields := ["k"], shards := 2 }
    let r : Record := .field "k" (.int 1) .empty
    let script (answers : List (Except String Record)) : Feed :=
      .script (answers.map fun a => { answer := a })
    let before : List (Except String Record) := [.ok r, .error "a", .ok r]
    let answers := before ++ [.error "b", .ok r]
    let site : Site := { teams := #[(Team.ofConfig g 1).toOption.getD default] }
    let p : Onsite (Replica Feed) := ⟨site, fresh 0 .outer (script answers)⟩
    let q : Onsite (Replica Feed) := ⟨site, fresh 0 .outer (script [.ok r, .ok r, .ok r])⟩
    let w := ({ place := p } : Shift Feed).after
      [.ask, .go, .go, .world { site with killed := true }, .go, .go, .go]
    (∃ u, (asked 2).ends p =
        (.ok [.error (.supplyFailed "a"), .error (.supplyFailed "b")], u) ∧ Resumes 2 u) ∧
      (∃ (groups : List Record) (p' q' : Onsite (Replica Feed)),
        (asked (2 + (groups.length + 1))).ends p =
          (.ok ([.error (.supplyFailed "a"), .error (.supplyFailed "b")] ++
            (groups.map .group ++ [.ended])), p') ∧
        (asked (groups.length + 1)).ends q = (.ok (groups.map .group ++ [.ended]), q') ∧
        EndsAlike 3 p' q') ∧
      w.pulled.length = 1 ∧ w.Stopped := by
  intro g r script before answers site p q w
  have halone : ∀ answers,
      Alone g (⟨site, fresh 0 .outer (script answers)⟩ : Onsite (Replica Feed)) :=
    fun answers => ⟨{}, 0, script answers, rfl, rfl, rfl⟩
  obtain ⟨hfails, hstops⟩ := @errors_lose_nothing Feed Feed _ _
  obtain ⟨hresumes, halike⟩ :=
    hfails g p answers (halone _) (Supply.delivers_script answers site)
  have hrun : (w.stand.isStopped && w.pulled.length == 1) = true := by decide +kernel
  rw [Bool.and_eq_true] at hrun
  exact ⟨hresumes before "b" [.ok r] rfl, halike q (halone _) (Supply.delivers_script _ site),
    beq_iff_eq.1 hrun.2, hstops site 0 .outer (script answers) _ (Stand.eq_of_isStopped hrun.1)⟩

end Replica

end Muster
