import Muster.Proofs.Squad.Sequential
import Muster.Proofs.Squad.Turns

/-!
# Proofs/Camp/Basic — squads that share a site

A camp is a site with a roll for each of its teams: the posts of the members, and what they have
counted and been answered. Whoever has a turn (`Post.undergo`) makes the call that its replica makes
on the site. Of the site the call changes the team that the replica belongs to, and of that team
everything but the configuration (`Post.exists_withTeam`).

* `Camp.squad` — the squad of a team, as if there were no other.
* `Camp.squad_undergo_self`, `Camp.squad_undergo_of_ne` — a turn is a turn of the squad it is taken
  in, and none of any other.
-/

namespace Muster

variable {α β σ : Type}

/-! ## A team keeps its configuration -/

namespace Grouper

theorem preserves_render (k : Key) : (render k).Preserves Grouper.config := by
  refine .bind (fun _ => rfl) fun g => ?_
  dsimp only
  split <;> refine .bind (fun _ => rfl) fun _ => ?_ <;> split <;>
    exact .bind (fun _ => rfl) fun _ _ => rfl

theorem preserves_next : next.Preserves Grouper.config := by
  refine .bind (fun _ => rfl) fun a => ?_
  cases a with
  | waiting | exhausted => exact fun _ => rfl
  | item k => exact .bind (preserves_render k) fun _ _ => rfl

end Grouper

namespace Team

/-- The configuration of a team. -/
def config (t : Team) : Config := t.grouper.config

theorem config_of_ofConfig {g : Config} {parties : Nat} {t : Team}
    (h : ofConfig g parties = .ok t) : t.config = g := by
  rw [ofConfig, Grouper.ofConfig] at h
  cases hc : Census.ofConfig g with
  | error e =>
    rw [hc] at h
    cases h
  | ok c =>
    rw [hc] at h
    exact congrArg Team.config (Except.ok.inj h).symm

theorem preserves_onGrouper {call : Call Grouper α} (h : call.Preserves Grouper.config) :
    (onGrouper call).Preserves config := fun t => h t.grouper

theorem preserves_withdraw (arrival : Option Nat) : (withdraw arrival).Preserves config := fun t =>
  congrArg Grouper.config (keeps_withdraw arrival t)

theorem preserves_conclude (completed : Bool) : (conclude completed).Preserves config := by
  cases completed with
  | false => exact fun _ => rfl
  | true => exact .bind (preserves_onGrouper fun _ => rfl) fun _ _ => rfl

theorem preserves_depart (arrival : Option Nat) : (depart arrival).Preserves config :=
  .bind (preserves_withdraw arrival) preserves_conclude

end Team

namespace Seat

/-- The configuration of a seat's team. -/
def config (x : Seat) : Config := x.team.config

theorem preserves_onTeam {call : Call Team α} (h : call.Preserves Team.config) :
    (onTeam call).Preserves config := fun x => h x.team

theorem preserves_book (f : Member → Member) : (book f).Preserves config := fun _ => rfl

theorem preserves_absorb (r : Record) : (absorb r).Preserves config :=
  .bind (preserves_onTeam (Team.preserves_onGrouper fun _ => rfl)) fun _ _ => rfl

theorem preserves_arrive : arrive.Preserves config := fun x =>
  congrArg Grouper.config (keeps_arrive x)

theorem preserves_finish (last : Bool) : (finish last).Preserves config :=
  .bind (preserves_onTeam (Team.preserves_conclude last)) fun _ => preserves_book _

theorem preserves_take : take.Preserves config := by
  refine .bind (preserves_onTeam (Team.preserves_onGrouper Grouper.preserves_next)) fun a => ?_
  cases a with
  | waiting | item => exact fun _ => rfl
  | exhausted => exact .bind (preserves_book _) fun _ _ => rfl

theorem preserves_rewind : rewind.Preserves config :=
  .bind (preserves_onTeam (Team.preserves_onGrouper fun _ => rfl)) fun _ =>
    .bind (fun _ => rfl) fun _ => preserves_book _

end Seat

/-! ## The turns of a replica -/

/-- **A replica in a team of a site**, with these books. What it pulls from its supply is said by
its turns. -/
def Replica.ofMember (team : Nat) (m : Member) : Replica Feed :=
  { team := team, member := m, supply := .ofList [] none }

/-- **What has come of a turn**: the site, where the member stands now, who has joined, and what has
been counted and answered. -/
structure Upshot where
  site : Site
  post : Post
  joined : List Post := []
  counted : List Record := []
  answers : List (Taken Record) := []

namespace Upshot

/-- Nothing has come of it. -/
def stay (s : Site) (post : Post) : Upshot := { site := s, post := post }

/-- A call on the site that ended like this. -/
def settle (s : Site) (r : Except Fault Post) : Upshot :=
  { site := s, post := match r with | .ok post => post | .error e => .broken e }

@[simp] theorem site_settle (s : Site) (r : Except Fault Post) : (settle s r).site = s := rfl

/-- A call of a replica. -/
def ofReplica (s : Site) (r : Replica Feed) (call : Call (Onsite (Replica Feed)) α)
    (place : α → Member → Post) : Upshot :=
  let o := call.run ⟨s, r⟩
  settle o.state.site (o.result.map fun a => place a o.state.self.member)

/-- A call on the site. -/
def ofSite (s : Site) (call : Call Site α) (place : α → Post) : Upshot :=
  let o := call.run s
  settle o.state (o.result.map place)

/-- A replica asks for a group. -/
def ofTake (s : Site) (r : Replica Feed) : Upshot :=
  { ofReplica s r (Replica.onSeat Seat.take) fun _ m => .standing m with
    answers := match ((Replica.onSeat Seat.take).run ⟨s, r⟩).result with
      | .ok a => [a]
      | .error _ => [] }

/-- A replica is replicated on another feed. -/
def ofReplicate (s : Site) (r : Replica Feed) : Upshot :=
  let o := (r.replicate (Feed.ofList [] none)).run s
  { site := o.state
    post := .standing r.member
    joined := match o.result with
      | .ok q => [.standing q.member]
      | .error _ => [] }

end Upshot

namespace Post

/-- **A member has its turn**, if it stands where it can have it: the call that its replica makes on
the site. -/
def undergo (team : Nat) (s : Site) (post : Post) (turn : Turn) : Upshot :=
  match post, turn with
  | .standing m, .deed .replicate =>
    if m.arrival = none then .ofReplicate s (.ofMember team m) else .stay s post
  | .standing m, .deed (.count r) =>
    if m.progress = .accumulating then
      { Upshot.ofReplica s (.ofMember team m) (Replica.onSeat (Seat.absorb r))
          fun _ m => .standing m with counted := [r] }
    else .stay s post
  | .standing m, .deed (.enter records) =>
    if m.progress = .accumulating then
      .ofReplica s (.ofMember team m) (Replica.onSeat (Seat.enter records)) fun _ m => .standing m
    else .stay s post
  | .standing m, .deed .exhaust =>
    if m.progress = .accumulating then
      .ofReplica s (.ofMember team m) (Replica.onSeat Seat.exhaust) fun _ m => .standing m
    else .stay s post
  | .standing m, .deed .arrive =>
    if m.progress = .exhausted then
      .ofReplica s (.ofMember team m) (Replica.onSeat Seat.arrive) fun last m => .arrived m last
    else .stay s post
  | .arrived m last, .deed .finish =>
    .ofReplica s (.ofMember team m) (Replica.onSeat (Seat.finish last)) fun _ m => .standing m
  | .standing m, .deed .take =>
    if m.progress = .draining then .ofTake s (.ofMember team m) else .stay s post
  | .standing m, .deed .withdraw =>
    .ofSite s (Site.onTeam team (Team.withdraw m.arrival)) .leaving
  | .leaving completed, .deed .conclude =>
    .ofSite s (Site.onTeam team (Team.conclude completed)) fun _ => .gone
  | .standing m, .replicate => .ofReplicate s (.ofMember team m)
  | .standing m, .rewind =>
    .ofReplica s (.ofMember team m) Replica.rewind fun _ m => .standing m
  | .standing m, .dismiss => .ofSite s (Replica.ofMember team m).release fun _ => .gone
  | _, _ => .stay s post

end Post

/-! ## What a turn leaves alone -/

section Confined

variable {k : Nat} {s : Site} {m : Member}

/-- **Of the site nothing has changed but one team**, and that has kept its configuration. -/
def Upshot.Confined (u : Upshot) (k : Nat) (s : Site) : Prop :=
  ∃ t : Team, u.site = s.withTeam k t ∧ t.config = (s.team k).config

namespace Upshot

theorem confined_stay (s : Site) (post : Post) : (stay s post).Confined k s :=
  ⟨s.team k, (s.withTeam_self k).symm, rfl⟩

theorem confined_ofReplica {call : Call Seat α} (h : call.Preserves Seat.config)
    (place : α → Member → Post) :
    (ofReplica s (.ofMember k m) (Replica.onSeat call) place).Confined k s :=
  ⟨_, rfl, h ⟨s.team k, m⟩⟩

theorem confined_ofSite {call : Call Team α} (h : call.Preserves Team.config) (place : α → Post) :
    (ofSite s (Site.onTeam k call) place).Confined k s := ⟨_, rfl, h (s.team k)⟩

theorem confined_ofReplicate : (ofReplicate s (.ofMember k m)).Confined k s := by
  have hrun := Replica.run_replicate (.ofMember k m) (.ofList [] none) s
  exact ⟨_, congrArg Outcome.state hrun, rfl⟩

/-- A call on the seat of a replica is a call on its member's seat in the team. -/
theorem ofReplica_onSeat (s : Site) (m : Member) (call : Call Seat α) (place : α → Member → Post) :
    ofReplica s (.ofMember k m) (Replica.onSeat call) place =
      let o := call.run ⟨s.team k, m⟩
      settle (s.withTeam k o.state.team) (o.result.map fun a => place a o.state.member) := rfl

theorem ofReplica_rewind (s : Site) (m : Member) :
    ofReplica s (.ofMember k m) Replica.rewind (fun _ m => .standing m) =
      ofReplica s (.ofMember k m) (Replica.onSeat Seat.rewind) fun _ m => .standing m := by
  have hsupply : (Replica.ofMember k m).supply = .list [] [] none := rfl
  have hrun := Replica.run_rewind (.ofMember k m) hsupply s
  rw [ofReplica_onSeat, ofReplica, hrun]
  dsimp only [Replica.ofMember]
  rcases (Seat.rewind.run ⟨s.team k, m⟩).result with e | a <;> rfl

theorem ofSite_release (s : Site) (m : Member) :
    ofSite s (Replica.ofMember k m).release (fun _ => .gone) =
      ofSite s (Site.onTeam k (Team.depart m.arrival)) fun _ => .gone := by
  have hrun : (Replica.ofMember k m).release.run s =
      (Site.onTeam k (Team.depart m.arrival)).run s := by
    have hrelease : (Supply.release (Feed.ofList [] none)).run = fun s : Site => ⟨.ok (), s, []⟩ :=
      rfl
    rw [Replica.release, Call.run_bind]
    simp only [Replica.ofMember, hrelease, List.append_nil]
    rcases (Site.onTeam k (Team.depart m.arrival)).run s with ⟨⟨e⟩ | ⟨a⟩, t, ns⟩ <;> rfl
  simp only [ofSite, hrun]

end Upshot

/-- **A turn changes one team**, and not its configuration. -/
theorem Post.confined_undergo (k : Nat) (s : Site) (post : Post) (turn : Turn) :
    (post.undergo k s turn).Confined k s := by
  unfold undergo
  split
  · split
    · exact Upshot.confined_ofReplicate
    · exact Upshot.confined_stay s _
  · split
    · exact Upshot.confined_ofReplica (Seat.preserves_absorb _) fun _ m => .standing m
    · exact Upshot.confined_stay s _
  · split
    · exact Upshot.confined_ofReplica (Seat.preserves_book _) fun _ m => .standing m
    · exact Upshot.confined_stay s _
  · split
    · exact Upshot.confined_ofReplica (fun _ => rfl) _
    · exact Upshot.confined_stay s _
  · split
    · exact Upshot.confined_ofReplica Seat.preserves_arrive _
    · exact Upshot.confined_stay s _
  · exact Upshot.confined_ofReplica (Seat.preserves_finish _) _
  · split
    · exact Upshot.confined_ofReplica Seat.preserves_take fun _ m => .standing m
    · exact Upshot.confined_stay s _
  · exact Upshot.confined_ofSite (Team.preserves_withdraw _) _
  · exact Upshot.confined_ofSite (Team.preserves_conclude _) _
  · exact Upshot.confined_ofReplicate
  · rw [Upshot.ofReplica_rewind]
    exact Upshot.confined_ofReplica Seat.preserves_rewind _
  · rw [Upshot.ofSite_release]
    exact Upshot.confined_ofSite (Team.preserves_depart _) _
  · exact Upshot.confined_stay s _

end Confined

/-! ## A turn on the site is a turn of the squad -/

namespace Squad

/-- The squad after a turn that has come to this. -/
def report (q : Squad) (i : Nat) (t : Team) (u : Upshot) : Squad where
  team := t
  posts := q.posts.set i u.post ++ u.joined
  counted := q.counted ++ u.counted
  answers := q.answers ++ u.answers.map fun a => (i, a)

/-- Where there is no member, nobody has a turn. -/
theorem undergo_of_none {q : Squad} {i : Nat} (hx : q.posts[i]? = none) (turn : Turn) :
    q.undergo i turn = q := by
  unfold undergo act
  rw [hx]
  cases turn <;> rfl

section Report

variable {q : Squad} {i k : Nat} {s : Site} {m : Member} {x : Post}

theorem report_stay (hx : q.posts[i]? = some x) : q.report i q.team (.stay s x) = q := by
  obtain ⟨hi, rfl⟩ := List.getElem?_eq_some_iff.1 hx
  simp [report, Upshot.stay]

theorem report_settle (q : Squad) (i : Nat) (t : Team) (s : Site) (r : Except Fault Post) :
    q.report i t (.settle s r) = q.settle i t r := by
  cases r <;> simp [report, Upshot.settle, settle]

section Present

variable (ht : s.team k = q.team) (hk : k < s.teams.size)
include ht hk

theorem report_ofReplica (call : Call Seat α) (place : α → Member → Post) :
    q.report i ((Upshot.ofReplica s (.ofMember k m) (Replica.onSeat call) place).site.team k)
        (.ofReplica s (.ofMember k m) (Replica.onSeat call) place) =
      q.seat i m call place := by
  rw [Upshot.ofReplica_onSeat]
  dsimp only
  rw [report_settle, Upshot.site_settle, Site.team_withTeam_self s _ hk, ht]
  rfl

theorem report_ofSite (call : Call Team α) (place : α → Post) :
    q.report i ((Upshot.ofSite s (Site.onTeam k call) place).site.team k)
        (.ofSite s (Site.onTeam k call) place) =
      q.aside i call place := by
  have hrun : (Site.onTeam k call).run s =
      let o := call.run (s.team k)
      ⟨o.result, s.withTeam k o.state, o.notices⟩ := rfl
  rw [Upshot.ofSite, hrun]
  dsimp only
  rw [report_settle, Upshot.site_settle, Site.team_withTeam_self s _ hk, ht]
  rfl

theorem report_ofTake :
    q.report i ((Upshot.ofTake s (.ofMember k m)).site.team k) (.ofTake s (.ofMember k m)) =
      q.ask i m := by
  have hresult : ((Replica.onSeat Seat.take).run ⟨s, Replica.ofMember k m⟩).result =
      (Seat.take.run ⟨q.team, m⟩).result := by
    rw [← ht]
    rfl
  have hseat := report_ofReplica (i := i) (m := m) ht hk Seat.take fun _ m => .standing m
  rw [ask, ← hseat, report, Upshot.ofTake, hresult]
  rcases (Seat.take.run ⟨q.team, m⟩).result with e | a <;> rfl

theorem report_ofReplicate (hm : q.posts[i]? = some (.standing m)) :
    q.report i ((Upshot.ofReplicate s (.ofMember k m)).site.team k)
        (.ofReplicate s (.ofMember k m)) =
      q.extend m := by
  obtain ⟨hi, hget⟩ := List.getElem?_eq_some_iff.1 hm
  have hset : q.posts.set i (.standing m) = q.posts := by
    rw [← hget, List.set_getElem_self]
  have hregister : (Team.onBarrier Barrier.register).run q.team =
      let o := Barrier.register.run q.team.barrier
      ⟨o.result, q.team.withBarrier o.state, o.notices⟩ := rfl
  have hrun := Replica.run_replicate (.ofMember k m) (.ofList [] none) s
  rw [show (Replica.ofMember k m).team = k from rfl, ht] at hrun
  rw [extend, hregister, report, Upshot.ofReplicate, hrun]
  dsimp only [Replica.ofMember]
  rw [Site.team_withTeam_self s _ hk, hset]
  rcases (Barrier.register.run q.team.barrier).result with e | a <;>
    simp [sibling, Except.map, Replica.fresh]

/-- **The turn of a member on the site is its turn in the squad.** -/
theorem undergo_eq_report (hx : q.posts[i]? = some x) (turn : Turn) :
    q.undergo i turn = q.report i ((x.undergo k s turn).site.team k) (x.undergo k s turn) := by
  have hstay : q.report i ((Upshot.stay s x).site.team k) (.stay s x) = q := by
    rw [show (Upshot.stay s x).site = s from rfl, ht]
    exact report_stay hx
  unfold undergo act Post.undergo
  rw [hx]
  cases x with
  | standing m =>
    cases turn with
    | deed d =>
      cases d with
      | replicate =>
        dsimp only
        split
        · exact (report_ofReplicate ht hk hx).symm
        · exact hstay.symm
      | count r =>
        dsimp only
        split
        · have hseat := report_ofReplica (i := i) (m := m) ht hk (Seat.absorb r)
            fun _ m => .standing m
          rw [← hseat]
          rfl
        · exact hstay.symm
      | enter records =>
        dsimp only
        split
        · exact (report_ofReplica ht hk _ _).symm
        · exact hstay.symm
      | exhaust =>
        dsimp only
        split
        · exact (report_ofReplica ht hk _ _).symm
        · exact hstay.symm
      | arrive =>
        dsimp only
        split
        · exact (report_ofReplica ht hk _ _).symm
        · exact hstay.symm
      | finish => exact hstay.symm
      | take =>
        dsimp only
        split
        · exact (report_ofTake ht hk).symm
        · exact hstay.symm
      | withdraw => exact (report_ofSite ht hk _ _).symm
      | conclude => exact hstay.symm
    | replicate => exact (report_ofReplicate ht hk hx).symm
    | rewind =>
      dsimp only
      rw [Upshot.ofReplica_rewind]
      exact (report_ofReplica ht hk _ _).symm
    | dismiss =>
      dsimp only
      rw [Upshot.ofSite_release]
      exact (report_ofSite ht hk _ _).symm
  | arrived m last =>
    cases turn with
    | deed d =>
      cases d with
      | finish => exact (report_ofReplica ht hk _ _).symm
      | replicate | count | enter | exhaust | arrive | take | withdraw | conclude =>
        exact hstay.symm
    | replicate | rewind | dismiss => exact hstay.symm
  | leaving completed =>
    cases turn with
    | deed d =>
      cases d with
      | conclude => exact (report_ofSite ht hk _ _).symm
      | replicate | count | enter | exhaust | arrive | take | withdraw | finish => exact hstay.symm
    | replicate | rewind | dismiss => exact hstay.symm
  | gone | broken =>
    cases turn with
    | deed d => cases d <;> exact hstay.symm
    | replicate | rewind | dismiss => exact hstay.symm

end Present

end Report

end Squad

/-! ## Camps -/

/-- **The roll of a team**: the posts of its members, the records they have counted, in order, and
what they have been answered when they asked for a group. -/
structure Roll where
  posts : List Post := []
  counted : List Record := []
  answers : List (Nat × Taken Record) := []

namespace Roll

/-- The squad that a team makes with its roll. -/
def squad (r : Roll) (t : Team) : Squad :=
  { team := t, posts := r.posts, counted := r.counted, answers := r.answers }

/-- The roll after a turn of a member that has come to this. -/
def report (r : Roll) (i : Nat) (u : Upshot) : Roll where
  posts := r.posts.set i u.post ++ u.joined
  counted := r.counted ++ u.counted
  answers := r.answers ++ u.answers.map fun a => (i, a)

theorem squad_report (r : Roll) (i : Nat) (u : Upshot) (t t' : Team) :
    (r.report i u).squad t = (r.squad t').report i t u := rfl

end Roll

/-- **A camp**: a site, and the rolls of its teams, in the same order. -/
structure Camp where
  site : Site
  rolls : List Roll := []

namespace Camp

/-- The roll of a team. -/
def roll (c : Camp) (k : Nat) : Roll := c.rolls[k]?.getD {}

/-- **The squad of a team.** -/
def squad (c : Camp) (k : Nat) : Squad := (c.roll k).squad (c.site.team k)

/-- **A member of a team has its turn.** -/
def undergo (c : Camp) (k i : Nat) (turn : Turn) : Camp :=
  match (c.roll k).posts[i]? with
  | none => c
  | some post =>
    let u := post.undergo k c.site turn
    { site := u.site, rolls := c.rolls.modify k fun r => r.report i u }

/-- The camp with one more team: the site where it has been founded, and the posts of its
members. -/
def founded (c : Camp) (s : Site) (posts : List Post) : Camp :=
  { site := s, rolls := c.rolls ++ [{ posts := posts }] }

/-- Is there a roll for each team? -/
def Listed (c : Camp) : Prop := c.rolls.length = c.site.teams.size

section Turns

variable {c : Camp} {i j k : Nat} {turn : Turn}

theorem roll_lt {x : Post} (hx : (c.roll k).posts[i]? = some x) : k < c.rolls.length := by
  by_contra hk
  rw [roll, List.getElem?_eq_none (Nat.le_of_not_lt hk)] at hx
  cases hx

/-- **A turn changes one team of the site**, and not its configuration. -/
theorem exists_withTeam (c : Camp) (k i : Nat) (turn : Turn) :
    ∃ t : Team, (c.undergo k i turn).site = c.site.withTeam k t ∧
      t.config = (c.site.team k).config := by
  unfold undergo
  split
  · exact ⟨_, (c.site.withTeam_self k).symm, rfl⟩
  · exact Post.confined_undergo k c.site _ turn

@[simp] theorem length_rolls_undergo (c : Camp) (k i : Nat) (turn : Turn) :
    (c.undergo k i turn).rolls.length = c.rolls.length := by
  unfold undergo
  split
  · rfl
  · exact List.length_modify ..

@[simp] theorem size_undergo (c : Camp) (k i : Nat) (turn : Turn) :
    (c.undergo k i turn).site.teams.size = c.site.teams.size := by
  obtain ⟨t, ht, -⟩ := c.exists_withTeam k i turn
  rw [ht]
  exact Array.size_setIfInBounds

@[simp] theorem crew_undergo (c : Camp) (k i : Nat) (turn : Turn) :
    (c.undergo k i turn).site.crew = c.site.crew := by
  obtain ⟨t, ht, -⟩ := c.exists_withTeam k i turn
  rw [ht]
  rfl

theorem config_undergo (c : Camp) (k i : Nat) (turn : Turn) (j : Nat) :
    ((c.undergo k i turn).site.team j).config = (c.site.team j).config := by
  obtain ⟨t, ht, hconfig⟩ := c.exists_withTeam k i turn
  rw [ht]
  by_cases hj : k = j
  · subst hj
    by_cases hk : k < c.site.teams.size
    · rw [Site.team_withTeam_self _ _ hk, hconfig]
    · rw [Site.withTeam, Array.setIfInBounds]
      simp [hk]
  · rw [Site.team_withTeam_of_ne _ _ hj]

theorem Listed.undergo (h : c.Listed) (k i : Nat) (turn : Turn) : (c.undergo k i turn).Listed := by
  rw [Listed, length_rolls_undergo, size_undergo]
  exact h

theorem roll_undergo_of_ne (hj : k ≠ j) (i : Nat) (turn : Turn) :
    (c.undergo k i turn).roll j = c.roll j := by
  unfold undergo
  split
  · rfl
  · simp [roll, hj]

theorem roll_undergo_self {x : Post} (hx : (c.roll k).posts[i]? = some x) (turn : Turn) :
    (c.undergo k i turn).roll k = (c.roll k).report i (x.undergo k c.site turn) := by
  have hk : k < c.rolls.length := roll_lt hx
  unfold undergo
  rw [hx]
  simp [roll, hk]

/-- Whoever has no turn stays where it is. -/
theorem posts_undergo_of_ne {x : Post} (hj : (c.roll k).posts[j]? = some x) (hij : i ≠ j)
    (turn : Turn) : ((c.undergo k i turn).roll k).posts[j]? = some x := by
  cases hi : (c.roll k).posts[i]? with
  | none =>
    unfold undergo
    rw [hi]
    exact hj
  | some y =>
    obtain ⟨hlt, -⟩ := List.getElem?_eq_some_iff.1 hj
    rw [roll_undergo_self hi, Roll.report, List.getElem?_append_left (by simpa using hlt),
      List.getElem?_set_ne hij]
    exact hj

/-- Nobody's post goes away. -/
theorem exists_posts_undergo {x : Post} (hj : (c.roll k).posts[j]? = some x) (i : Nat)
    (turn : Turn) : ∃ y, ((c.undergo k i turn).roll k).posts[j]? = some y := by
  by_cases hij : i = j
  · subst hij
    obtain ⟨hlt, -⟩ := List.getElem?_eq_some_iff.1 hj
    refine ⟨(x.undergo k c.site turn).post, ?_⟩
    rw [roll_undergo_self hj, Roll.report, List.getElem?_append_left (by simpa using hlt),
      List.getElem?_set_self hlt]
  · exact ⟨x, posts_undergo_of_ne hj hij turn⟩

/-- **A turn is a turn of the squad it is taken in.** -/
theorem squad_undergo_self (h : c.Listed) (k i : Nat) (turn : Turn) :
    (c.undergo k i turn).squad k = (c.squad k).undergo i turn := by
  cases hx : (c.roll k).posts[i]? with
  | none =>
    unfold undergo
    rw [hx]
    exact (Squad.undergo_of_none hx turn).symm
  | some x =>
    have hk : k < c.rolls.length := roll_lt hx
    have hq : (c.squad k).posts[i]? = some x := hx
    rw [Squad.undergo_eq_report rfl (h ▸ hk) hq, squad, roll_undergo_self hx, undergo, hx]
    exact Roll.squad_report _ _ _ _ _

/-- **A turn is none of any other squad.** -/
theorem squad_undergo_of_ne (hj : k ≠ j) (i : Nat) (turn : Turn) :
    (c.undergo k i turn).squad j = c.squad j := by
  obtain ⟨t, ht, -⟩ := c.exists_withTeam k i turn
  rw [squad, squad, roll_undergo_of_ne hj, ht, Site.team_withTeam_of_ne _ _ hj]

end Turns

/-! ## New teams -/

section Founded

variable {c : Camp} {k : Nat} {s : Site} {t : Team}

theorem Listed.founded (h : c.Listed) (hs : s.teams = c.site.teams.push t) (posts : List Post) :
    (c.founded s posts).Listed := by
  rw [Listed, Camp.founded, List.length_append, hs, Array.size_push, h]
  rfl

/-- **The teams that are there notice nothing of a new one.** -/
theorem squad_founded (hc : c.Listed) (hs : s.teams = c.site.teams.push t)
    (hk : k < c.rolls.length) (posts : List Post) :
    (c.founded s posts).squad k = c.squad k := by
  have hroll : (c.founded s posts).roll k = c.roll k := by
    simp [roll, founded, List.getElem?_append, hk]
  have hne : k ≠ c.site.teams.size := Nat.ne_of_lt (hc ▸ hk)
  have hteam : s.team k = c.site.team k := by
    simp [Site.team, hs, Array.getElem?_push, hne]
  rw [squad, squad, hroll, founded, hteam]

/-- **The squad of a new team.** -/
theorem squad_founded_new (hc : c.Listed) (hs : s.teams = c.site.teams.push t)
    (posts : List Post) :
    (c.founded s posts).squad c.rolls.length = { team := t, posts := posts } := by
  have hroll : (c.founded s posts).roll c.rolls.length = { posts := posts } := by
    simp [roll, founded]
  have hteam : s.team c.rolls.length = t := by
    rw [show c.rolls.length = c.site.teams.size from hc]
    simp [Site.team, hs]
  rw [squad, hroll, founded, hteam]
  rfl

end Founded

end Camp

end Muster
