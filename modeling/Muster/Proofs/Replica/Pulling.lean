import Muster.Proofs.Squad.Turns

/-!
# Proofs/Replica/Pulling — a replica on its own counts what its supply delivers

A supply delivers some answers, each a record or a failure, and then ends (`Supply.Delivers`); what
its stage does to its own team in the meantime does not matter to it. The loop of a call moves by
one answer at a time: a record is counted into the team, and makes the number of the loop one more
(`Accumulates.record`); a failure or the end leaves the seat as it was (`Accumulates.failure`,
`Accumulates.ended`). Only then does the number come into the books (`Sits.ends_accumulate`).

The seat is all that the supply does not know. So what follows is said of a replica that sits at a
seat (`Replica.Sits`), whatever its supply and its site are otherwise.
-/

namespace Muster

/-! ## Supplies -/

/-- How an answer of a supply looks to a stage. -/
def Pull.ofAnswer : Except String Record → Pull
  | .ok r => .record r
  | .error message => .failed message

/-- The site with another team, around something that is on it. -/
def Onsite.withTeam {σ : Type} (p : Onsite σ) (i : Nat) (t : Team) : Onsite σ :=
  ⟨p.site.withTeam i t, p.self⟩

namespace Supply

variable {σ : Type} [Supply σ] {i : Nat} {p : Onsite σ}

/-- **A supply answers** without touching a team, and without telling anybody to stop. -/
structure Answers (i : Nat) (p : Onsite σ) (answer : Pull) (q : Onsite σ) : Prop where
  ends : Supply.pull.ends p = (.ok answer, q)
  team : q.site.team i = p.site.team i
  size : q.site.teams.size = p.site.teams.size
  killed : q.site.killed = p.site.killed

/-- How many records come before anything else. -/
def leading : List (Except String Record) → Nat
  | .ok _ :: answers => leading answers + 1
  | _ => 0

/-- **A supply delivers some answers and then ends**, whatever becomes of a team in the meantime. It
keeps its word on how many records are ahead. -/
def Delivers (i : Nat) : List (Except String Record) → Onsite σ → Prop
  | [], p => ∀ t, ∃ q, Answers i (p.withTeam i t) .ended q
  | a :: answers, p => ∀ t,
    leading (a :: answers) ≤ Supply.ahead (p.site.withTeam i t) p.self ∧
      ∃ q, Answers i (p.withTeam i t) (.ofAnswer a) q ∧ Delivers i answers q

namespace Delivers

theorem withTeam {answers : List (Except String Record)} (h : Delivers i answers p) (t : Team) :
    Delivers i answers (p.withTeam i t) := by
  have htwice : ∀ u, (p.withTeam i t).withTeam i u = p.withTeam i u := fun u =>
    congrArg (Onsite.mk · p.self) (p.site.withTeam_withTeam i t u)
  have hsite : ∀ u, (p.withTeam i t).site.withTeam i u = p.site.withTeam i u := fun u =>
    p.site.withTeam_withTeam i t u
  cases answers with
  | nil =>
    intro u
    rw [htwice]
    exact h u
  | cons a answers =>
    intro u
    rw [htwice, hsite]
    exact h u

theorem ended (h : Delivers i [] p) : ∃ q, Answers i p .ended q := by
  have hself := h (p.site.team i)
  rwa [Onsite.withTeam, Site.withTeam_self] at hself

theorem answered {a : Except String Record} {answers : List (Except String Record)}
    (h : Delivers i (a :: answers) p) : leading (a :: answers) ≤ Supply.ahead p.site p.self ∧
      ∃ q, Answers i p (.ofAnswer a) q ∧ Delivers i answers q := by
  have hself := h (p.site.team i)
  rwa [Onsite.withTeam, Site.withTeam_self] at hself

/-- A bound on the records that come before anything else is a bound on any of them. -/
theorem length_le_ahead {rs : List Record} {answers : List (Except String Record)}
    (h : Delivers i (rs.map .ok ++ answers) p) : rs.length ≤ Supply.ahead p.site p.self := by
  have hleading : ∀ rs : List Record, rs.length ≤ leading (rs.map .ok ++ answers) := by
    intro rs
    induction rs with
    | nil => exact Nat.zero_le _
    | cons r rs ih => exact Nat.succ_le_succ ih
  cases rs with
  | nil => exact Nat.zero_le _
  | cons r rs => exact Nat.le_trans (hleading (r :: rs)) h.answered.1

end Delivers

/-- **A script delivers its lines**, one after the other. -/
theorem delivers_script : ∀ (answers : List (Except String Record)) (site : Site),
    Delivers i answers ⟨site, Feed.script (answers.map fun a => { answer := a })⟩
  | [], site => fun t => ⟨_, ⟨rfl, rfl, rfl, rfl⟩⟩
  | a :: answers, site => fun t => by
    have hahead : ∀ answers : List (Except String Record),
        leading answers ≤ Cue.total (answers.map fun a => { answer := a }) := by
      intro answers
      induction answers with
      | nil => exact Nat.le_refl 0
      | cons a answers ih =>
        have htotal : Cue.total ((a :: answers).map fun a => { answer := a }) =
            Cue.total (answers.map fun a => { answer := a }) + 1 := Nat.add_comm 1 _
        rw [htotal]
        cases a with
        | ok r => exact Nat.succ_le_succ ih
        | error message => exact Nat.zero_le _
    refine ⟨hahead (a :: answers),
      ⟨site.withTeam i t, .script (answers.map fun a => { answer := a })⟩,
      ⟨?_, rfl, rfl, rfl⟩, delivers_script answers _⟩
    cases a <;> rfl

end Supply

/-! ## Counting -/

namespace Team

variable {t : Team} {seals late : Nat}

/-- **The team after one of its members has counted a record.** -/
def fed (t : Team) (r : Record) : Team := t.withCensus ((t.increment r).run t.census).state

@[simp] theorem barrier_foldl_fed (rs : List Record) (t : Team) :
    (rs.foldl fed t).barrier = t.barrier := by
  induction rs generalizing t with
  | nil => rfl
  | cons r rs ih => exact ih (t.fed r)

/-- **Into an open census a record is counted**, cap or not. -/
theorem run_increment_fed (hc : t.census.Regular seals late) (ho : t.census.sealed = false)
    (r : Record) : ∃ new ns, (t.increment r).run t.census = ⟨.ok new, (t.fed r).census, ns⟩ ∧
      (t.fed r).census.Regular seals late ∧ (t.fed r).census.sealed = false := by
  have hworks := Census.works_count (t.grouper.keyOf r)
    (if t.grouper.config.retainOthers then some r else none) t.census t.census
    ⟨.refl hc.sound, hc.healthy⟩
  rw [← Grouper.payload_eq] at hworks
  obtain ⟨new, hnew, hw⟩ := hworks
  exact ⟨new, _, Outcome.ext hnew rfl rfl, hc.working ho hw, hw.steady.mark.trans ho⟩

end Team

theorem Seat.ends_absorb {t : Team} {m : Member} {seals late : Nat}
    (hc : t.census.Regular seals late) (ho : t.census.sealed = false) (r : Record) :
    (absorb r).ends ⟨t, m⟩ = (.ok (), ⟨t.fed r, m⟩) := by
  obtain ⟨new, ns, hrun, -⟩ := Team.run_increment_fed hc ho r
  obtain ⟨ns', habsorb⟩ := Seat.run_absorb (m := m) hrun
  exact Call.ends_of_run habsorb

/-! ## A replica at a seat -/

namespace Replica

variable {σ α : Type} {p q : Onsite (Replica σ)} {t : Team} {m : Member}
  {answers : List (Except String Record)} {seals late : Nat}

/-- **A replica that sits at a seat**: no call waits for its supply, and it has not been told to
stop. -/
structure Sits (t : Team) (m : Member) (p : Onsite (Replica σ)) : Prop where
  there : p.self.team < p.site.teams.size
  team : p.site.team p.self.team = t
  member : p.self.member = m
  pending : p.self.pending = none
  unstopped : p.site.killed = false

/-- The replica with another seat. -/
def reseated (p : Onsite (Replica σ)) (t : Team) (m : Member) : Onsite (Replica σ) :=
  ⟨p.site.withTeam p.self.team t, { p.self with member := m }⟩

/-- The replica's supply, on its site. -/
def supplied (p : Onsite (Replica σ)) : Onsite σ := ⟨p.site, p.self.supply⟩

theorem Sits.reseated (h : Sits t m p) (t' : Team) (m' : Member) :
    Sits t' m' (reseated p t' m') where
  there := by
    show p.self.team < (p.site.teams.setIfInBounds _ _).size
    rw [Array.size_setIfInBounds]
    exact h.there
  team := Site.team_withTeam_self p.site t' h.there
  member := rfl
  pending := h.pending
  unstopped := h.unstopped

/-- **What the seat does, the replica does.** -/
theorem Sits.ends_onSeat (h : Sits t m p) {call : Call Seat α} {a : α} {t' : Team} {m' : Member}
    (hcall : call.ends ⟨t, m⟩ = (.ok a, ⟨t', m'⟩)) :
    (onSeat call).ends p = (.ok a, Replica.reseated p t' m') := by
  have hseat : (⟨p.site.team p.self.team, p.self.member⟩ : Seat) = ⟨t, m⟩ := by
    rw [h.team, h.member]
  obtain ⟨hresult, hstate⟩ := Prod.mk.inj hcall
  rw [onSeat, Call.ends, Call.run_within, hseat, hresult, hstate]
  rfl

/-- After that the replica sits where the seat says. -/
theorem Sits.exists_onSeat (h : Sits t m p) {call : Call Seat α} {a : α} {t' : Team} {m' : Member}
    {ns : List Notice} (hcall : call.run ⟨t, m⟩ = ⟨.ok a, ⟨t', m'⟩, ns⟩) :
    ∃ q, (onSeat call).ends p = (.ok a, q) ∧ Sits t' m' q :=
  ⟨_, h.ends_onSeat (Call.ends_of_run hcall), h.reseated t' m'⟩

variable [Supply σ]

/-- **A replica that accumulates on its own**: its supply delivers some answers and then ends. -/
structure Accumulates (seals late : Nat) (answers : List (Except String Record)) (t : Team)
    (m : Member) (p : Onsite (Replica σ)) : Prop extends Sits t m p where
  regular : t.census.Regular seals late
  isOpen : t.census.sealed = false
  delivers : Supply.Delivers p.self.team answers (supplied p)

omit [Supply σ] in
/-- Whoever has not been told to stop goes on pulling records. -/
theorem Sits.ends_unlessStopped (h : Sits t m p) (counted : Nat)
    (call : Call (Onsite (Replica σ)) (Option Answer × Nat)) :
    (unlessStopped counted call).ends p = call.ends p := by
  rw [unlessStopped, Call.ends_read_bind, h.unstopped]
  rfl

/-- The replica after its supply has answered. -/
theorem Sits.answered {a : Pull} {u : Onsite σ} (h : Sits t m p)
    (ha : Supply.Answers p.self.team (supplied p) a u) :
    ∃ q, (onSupply Supply.pull).ends p = (.ok a, q) ∧ Sits t m q ∧ q.self.team = p.self.team ∧
      supplied q = u := by
  obtain ⟨hresult, rfl⟩ := Prod.mk.inj ha.ends
  refine ⟨_, Prod.ext hresult rfl, ⟨?_, ?_, h.member, h.pending, ?_⟩, rfl, rfl⟩
  · exact Nat.lt_of_lt_of_eq h.there ha.size.symm
  · exact ha.team.trans h.team
  · exact ha.killed.trans h.unstopped

namespace Accumulates

/-- **A record is counted.** -/
theorem record {r : Record} (h : Accumulates seals late (.ok r :: answers) t m p)
    (fuel counted : Nat) :
    ∃ q, Accumulates seals late answers (t.fed r) m q ∧
      (pullRecords (fuel + 1) counted).ends p = (pullRecords fuel (counted + 1)).ends q := by
  obtain ⟨-, u, ha, hrest⟩ := h.delivers.answered
  obtain ⟨q, hpull, hq, hteam, rfl⟩ := h.toSits.answered ha
  obtain ⟨-, -, -, hregular, hopen⟩ := Team.run_increment_fed h.regular h.isOpen r
  have habsorb := hq.ends_onSeat (Seat.ends_absorb (m := m) h.regular h.isOpen r)
  have hsits := hq.reseated (t.fed r) m
  refine ⟨_, ⟨hsits, hregular, hopen, ?_⟩, ?_⟩
  · rw [← hteam] at hrest
    exact hrest.withTeam _
  · rw [pullRecords, Call.ends_bind_ok hpull]
    exact (Call.ends_bind_ok habsorb).trans (hsits.ends_unlessStopped _ _)

/-- **Records are counted** one after the other. -/
theorem records (rs : List Record) (h : Accumulates seals late (rs.map .ok ++ answers) t m p)
    (fuel counted : Nat) :
    ∃ q, Accumulates seals late answers (rs.foldl Team.fed t) m q ∧
      (pullRecords (rs.length + fuel) counted).ends p =
        (pullRecords fuel (counted + rs.length)).ends q := by
  induction rs generalizing t p counted with
  | nil => exact ⟨p, h, by rw [List.length_nil, Nat.zero_add, Nat.add_zero]⟩
  | cons r rs ih =>
    obtain ⟨q, hq, hends⟩ := h.record (rs.length + fuel) counted
    obtain ⟨q', hq', hends'⟩ := ih hq (counted + 1)
    refine ⟨q', hq', ?_⟩
    rw [List.length_cons, Nat.succ_add, hends, hends', Nat.add_right_comm, Nat.add_assoc]

/-- **A failure is passed on**, and leaves the seat as it was. -/
theorem failure {message : String}
    (h : Accumulates seals late (.error message :: answers) t m p) (fuel counted : Nat) :
    ∃ q, Accumulates seals late answers t m q ∧ (pullRecords (fuel + 1) counted).ends p =
      (.ok (some (.error (.supplyFailed message)), counted), q) := by
  obtain ⟨-, u, ha, hrest⟩ := h.delivers.answered
  obtain ⟨q, hpull, hq, hteam, rfl⟩ := h.toSits.answered ha
  rw [← hteam] at hrest
  refine ⟨q, ⟨hq, h.regular, h.isOpen, hrest⟩, ?_⟩
  rw [pullRecords, Call.ends_bind_ok hpull]
  rfl

/-- **At the end** the loop is left. -/
theorem ended (h : Accumulates seals late [] t m p) (fuel counted : Nat) :
    ∃ q, Sits t m q ∧ (pullRecords (fuel + 1) counted).ends p = (.ok (none, counted), q) := by
  obtain ⟨u, ha⟩ := h.delivers.ended
  obtain ⟨q, hpull, hq, -, -⟩ := h.toSits.answered ha
  refine ⟨q, hq, ?_⟩
  rw [pullRecords, Call.ends_bind_ok hpull]
  rfl

/-- Other books are no matter of the supply. -/
theorem reseated (h : Accumulates seals late answers t m p) (m' : Member) :
    Accumulates seals late answers t m' (Replica.reseated p t m') :=
  ⟨h.toSits.reseated t m', h.regular, h.isOpen, h.delivers.withTeam t⟩

end Accumulates

omit [Supply σ] in
/-- The number of a call that had to wait is taken up, if there is one. -/
theorem ends_takeUp (p : Onsite (Replica σ)) :
    takeUp.ends p = (.ok p.self.pending, ⟨p.site, { p.self with pending := none }⟩) := rfl

omit [Supply σ] in
/-- There is none where nobody had to wait. -/
theorem Sits.ends_takeUp (h : Sits t m p) : takeUp.ends p = (.ok none, p) := by
  obtain ⟨site, team, member, supply, pending⟩ := p
  obtain rfl : pending = none := h.pending
  rfl

omit [Supply σ] in
/-- Whoever does not have to wait enters the number in the books. -/
theorem leaveOff_of_ne {answer : Option Answer} {counted : Nat} (h : answer ≠ some .waiting) :
    leaveOff answer counted = onSeat (σ := σ) (Seat.enter counted) := by
  unfold leaveOff
  split
  · exact absurd rfl h
  · rfl

/-- **However the loop is left, the number of the records that it has counted is entered**, unless
the call has to wait. -/
theorem Sits.ends_accumulate {t' : Team} {answer : Option Answer} {fuel counted : Nat}
    (h : Sits t m p) (hpull : (pullRecords fuel 0).ends p = (.ok (answer, counted), q))
    (hq : Sits t' m q) (ha : answer ≠ some .waiting) :
    (accumulate fuel).ends p =
      (.ok answer, Replica.reseated q t' { m with consumed := m.consumed + counted }) := by
  have hstart : (unlessStopped 0 (pullRecords fuel 0)).ends p = (.ok (answer, counted), q) :=
    (h.ends_unlessStopped 0 _).trans hpull
  have henter := hq.ends_onSeat (Call.ends_of_run (Seat.run_enter t' m counted))
  rw [accumulate, Call.ends_bind_ok h.ends_takeUp]
  refine (Call.ends_bind_ok hstart).trans ?_
  dsimp only
  rw [leaveOff_of_ne ha, Call.ends_bind_ok henter]
  rfl

end Replica

end Muster
