import Muster.Proofs.Census.Fresh
import Muster.Proofs.Grouper.HandingOut
import Muster.Team

/-!
# Proofs/Squad/Basic — the replicas of a family, step by step

A squad is a team with the posts of its members. A schedule names, one after the other, a member
and what it does (`Deed`); what a member cannot do where it stands changes nothing. So every
interleaving of the members' steps is the run of some schedule (`Squad.after`), whatever they pull
from their supplies, and whenever one of them is replicated or given up.

* `Squad.family` — a stage and its siblings, before any of them runs.
* `Squad.Opening` — the start of a pass.
-/

namespace Muster

/-! ## Parts of a team -/

namespace Team

/-- The team with another census. -/
def withCensus (t : Team) (c : Census) : Team :=
  { t with grouper := { t.grouper with census := c } }

/-- The team with another barrier. -/
def withBarrier (t : Team) (b : Barrier) : Team := { t with barrier := b }

@[simp] theorem census_withCensus (t : Team) (c : Census) : (t.withCensus c).census = c := rfl

@[simp] theorem census_withBarrier (t : Team) (b : Barrier) :
    (t.withBarrier b).census = t.census := rfl

@[simp] theorem barrier_withBarrier (t : Team) (b : Barrier) : (t.withBarrier b).barrier = b := rfl

/-- A new team has a new census. -/
theorem ofConfig_ok {g : Config} {c : Census} (hc : Census.ofConfig g = .ok c) (parties : Nat) :
    ofConfig g parties =
      .ok { grouper := { config := g, census := c }, barrier := .ofParties parties } := by
  rw [ofConfig, Grouper.ofConfig, hc]
  rfl

theorem ofConfig_error {g : Config} {e : Fault} (he : Census.ofConfig g = .error e)
    (parties : Nat) : ofConfig g parties = .error e := by
  rw [ofConfig, Grouper.ofConfig, he]
  rfl

end Team

/-! ## Posts and deeds -/

/-- **Where a member of a squad stands.** -/
inductive Post
  | standing (m : Member)
  /-- it has arrived at the barrier, and is about to seal the grouper if it was the last -/
  | arrived (m : Member) (last : Bool)
  /-- it has been given up, and is about to seal the grouper if the others only waited for it -/
  | leaving (completed : Bool)
  | gone
  | broken (e : Fault)

/-- **What a member can do.** -/
inductive Deed
  /-- is replicated, before it has arrived itself -/
  | replicate
  /-- counts a record that it has pulled -/
  | count (r : Record)
  /-- enters in its books how many records a call has counted that pulls no more; a schedule may
  say any number, as the team does not go by it -/
  | enter (records : Nat)
  /-- notes that its supply has ended -/
  | exhaust
  | arrive
  | finish
  | take
  /-- leaves the barrier -/
  | withdraw
  | conclude

namespace Post

/-- Is there still a member? -/
def present : Post → Bool
  | standing _ | arrived .. => true
  | _ => false

/-- Has the member arrived at the barrier? -/
def hasArrived : Post → Bool
  | standing m => m.arrival.isSome
  | arrived .. => true
  | _ => false

/-- Is the seal up to this post? -/
def due : Post → Bool
  | arrived _ last => last
  | leaving completed => completed
  | _ => false

end Post

/-! ## Squads -/

/-- **A squad**: a team, the posts of its members, the records they have counted, in order, and
what they have been answered when they asked for a group. -/
structure Squad where
  team : Team
  posts : List Post
  counted : List Record := []
  answers : List (Nat × Taken Record) := []

namespace Squad

/-- The squad after a member has done something that ended like this. -/
def settle (s : Squad) (i : Nat) (t : Team) (r : Except Fault Post) : Squad :=
  { s with
    team := t
    posts := s.posts.set i (match r with | .ok post => post | .error e => .broken e) }

/-- The squad after a call on the seat of a member. -/
def seat {α : Type} (s : Squad) (i : Nat) (m : Member) (call : Call Seat α)
    (place : α → Member → Post) : Squad :=
  let o := call.run ⟨s.team, m⟩
  s.settle i o.state.team (o.result.map fun a => place a o.state.member)

/-- The squad after a call on the team of somebody who is no member any more. -/
def aside {α : Type} (s : Squad) (i : Nat) (call : Call Team α) (place : α → Post) : Squad :=
  let o := call.run s.team
  s.settle i o.state (o.result.map place)

/-- The squad after a member has asked for a group. -/
def ask (s : Squad) (i : Nat) (m : Member) : Squad :=
  let answer := match (Seat.take.run ⟨s.team, m⟩).result with
    | .ok a => [(i, a)]
    | .error _ => []
  { s.seat i m Seat.take fun _ m => .standing m with answers := s.answers ++ answer }

/-- Who is added after a member has been replicated: nobody where that broke off. -/
def sibling (m : Member) : Except Fault Unit → List Post
  | .ok () => [.standing { scope := m.scope }]
  | .error _ => []

/-- The squad after a member has been replicated. -/
def extend (s : Squad) (m : Member) : Squad :=
  let o := (Team.onBarrier Barrier.register).run s.team
  { s with team := o.state, posts := s.posts ++ sibling m o.result }

/-- **A member does something**, if it can where it stands. -/
def act (s : Squad) (i : Nat) (d : Deed) : Squad :=
  match s.posts[i]?, d with
  | some (.standing m), .replicate => if m.arrival = none then s.extend m else s
  | some (.standing m), .count r =>
    if m.progress = .accumulating then
      { s.seat i m (Seat.absorb r) fun _ m => .standing m with counted := s.counted ++ [r] }
    else s
  | some (.standing m), .enter records =>
    if m.progress = .accumulating then s.seat i m (Seat.enter records) fun _ m => .standing m else s
  | some (.standing m), .exhaust =>
    if m.progress = .accumulating then s.seat i m Seat.exhaust fun _ m => .standing m else s
  | some (.standing m), .arrive =>
    if m.progress = .exhausted then s.seat i m Seat.arrive fun last m => .arrived m last else s
  | some (.arrived m last), .finish => s.seat i m (Seat.finish last) fun _ m => .standing m
  | some (.standing m), .take => if m.progress = .draining then s.ask i m else s
  | some (.standing m), .withdraw => s.aside i (Team.withdraw m.arrival) .leaving
  | some (.leaving completed), .conclude => s.aside i (Team.conclude completed) fun _ => .gone
  | _, _ => s

/-- **The squad after a schedule**, which says who does what, time after time. -/
def after (s : Squad) (schedule : List (Nat × Deed)) : Squad :=
  schedule.foldl (fun s d => s.act d.1 d.2) s

/-- The groups that the members have been given. -/
def returned (s : Squad) : List Record := s.answers.filterMap fun a => a.2.item?

/-- Has a member been told that there is nothing left? -/
def told (s : Squad) : Bool := s.answers.any fun a => a.2.isExhausted

/-! ## Families -/

/-- **The start of a pass**: the census has counted nothing, nobody has arrived, each member that is
there counts, and the barrier knows how many they are. -/
structure Opening (s : Squad) : Prop where
  census : s.team.census.Fresh
  posts (post : Post) : post ∈ s.posts → post = .gone ∨
    ∃ m, post = .standing m ∧ m.progress = .accumulating ∧ m.arrival = none
  present : 0 < s.posts.countP Post.present
  parties : s.team.barrier.parties = s.posts.countP Post.present
  arrived : s.team.barrier.arrived = 0

/-- Siblings join a team. -/
def enlist : (siblings : Nat) → Call Team Unit
  | 0 => return ()
  | siblings + 1 => do
    Team.onBarrier Barrier.register
    enlist siblings

/-- **A stage and its siblings**: one that was made on its own, and some that were replicated from
it before anybody arrived. -/
def family (g : Config) (siblings : Nat) : Except Fault Squad := do
  let t ← Team.ofConfig g 1
  let o := (enlist siblings).run t
  match o.result with
  | .ok () =>
    return {
      team := o.state
      posts := List.replicate (siblings + 1) (.standing { scope := .outer }) }
  | .error e => .error e

/-- Siblings that join before anybody arrives are added to the parties. -/
theorem run_enlist (siblings : Nat) {t : Team} (ha : t.barrier.arrived = 0)
    (h : ((enlist siblings).run t).result = .ok ()) :
    ((enlist siblings).run t).state =
      t.withBarrier { t.barrier with parties := t.barrier.parties + siblings } := by
  induction siblings generalizing t with
  | zero => rfl
  | succ siblings ih =>
    have hregister := Barrier.run_register t.barrier
    rw [if_neg (by omega)] at hregister
    rw [enlist, Call.run_bind, Team.onBarrier, Call.run_within] at h ⊢
    by_cases hfull : Barrier.maxParties ≤ t.barrier.parties
    · rw [hregister, if_pos hfull] at h
      cases h
    · rw [if_neg hfull] at hregister
      rw [hregister] at h ⊢
      have hrest := ih (t := t.withBarrier
        { t.barrier with parties := t.barrier.parties + 1 }) ha h
      refine hrest.trans ?_
      simp only [Team.withBarrier, Nat.add_assoc, Nat.add_comm 1]

/-- **A family is made of a new census** as configured, and knows how many it is. -/
theorem family_eq {g : Config} {siblings : Nat} {s : Squad} (h : family g siblings = .ok s) :
    ∃ c, Census.ofConfig g = .ok c ∧
      s = {
        team := { grouper := { config := g, census := c }, barrier := .ofParties (siblings + 1) }
        posts := List.replicate (siblings + 1) (.standing { scope := .outer }) } := by
  unfold family at h
  cases hc : Census.ofConfig g with
  | error e =>
    rw [Team.ofConfig_error hc] at h
    cases h
  | ok c =>
    refine ⟨c, rfl, ?_⟩
    rw [Team.ofConfig_ok hc] at h
    have hrun := run_enlist siblings (t :=
      { grouper := { config := g, census := c }, barrier := .ofParties 1 }) rfl
    dsimp only [bind, Except.bind, pure, Except.pure] at h
    split at h
    · rename_i hok
      rw [hrun hok] at h
      rw [← Except.ok.inj h, Nat.add_comm siblings 1]
      rfl
    · cases h

/-- **A family is at the start of a pass.** -/
theorem opening_of_family {g : Config} {siblings : Nat} {s : Squad}
    (h : family g siblings = .ok s) : s.Opening := by
  obtain ⟨c, hc, rfl⟩ := family_eq h
  have hpresent : (List.replicate (siblings + 1) (Post.standing { scope := .outer })).countP
      Post.present = siblings + 1 := by
    rw [List.countP_replicate]
    rfl
  refine ⟨Census.fresh_of_ofConfig hc, fun post hpost => Or.inr ?_, ?_, ?_, rfl⟩
  · exact ⟨_, (List.mem_replicate.1 hpost).2, rfl, rfl⟩
  · rw [hpresent]
    exact Nat.succ_pos siblings
  · rw [hpresent]
    rfl

end Squad

end Muster
