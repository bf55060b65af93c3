import Muster.Proofs.Replica.Pulling

/-!
# Proofs/Replica/Failing — a supply that fails costs nothing but the failure

The caller of a stage on its own may ask again after each failure of its supply. A call counts
records up to the next failure (`Accumulates.next_failing`) or up to the end, where the stage goes
on to hand out groups (`Accumulates.next_closing`). Either way it leaves the seat as if there had
been no failure. So a stage whose supply fails comes to the same seat as one whose supply does not,
and from there on its team is all that counts (`exists_handed`).

* `Accumulates.asked_failures` — the failures are answered in order, each of them once.
* `Alone.ends_alike` — after them, the two stages answer alike.
-/

namespace Muster

/-! ## Failures -/

/-- The records among some answers of a supply. -/
def recordsOf (answers : List (Except String Record)) : List Record :=
  answers.filterMap Except.toOption

/-- The failures among some answers of a supply. -/
def failuresOf : List (Except String Record) → List String
  | [] => []
  | .ok _ :: answers => failuresOf answers
  | .error message :: answers => message :: failuresOf answers

@[simp] theorem recordsOf_append (as bs : List (Except String Record)) :
    recordsOf (as ++ bs) = recordsOf as ++ recordsOf bs := List.filterMap_append

@[simp] theorem recordsOf_map_ok (rs : List Record) : recordsOf (rs.map .ok) = rs := by
  induction rs with
  | nil => rfl
  | cons r rs ih => exact congrArg (r :: ·) ih

@[simp] theorem failuresOf_append (as bs : List (Except String Record)) :
    failuresOf (as ++ bs) = failuresOf as ++ failuresOf bs := by
  induction as with
  | nil => rfl
  | cons a as ih =>
    cases a with
    | ok r => exact ih
    | error message => exact congrArg (message :: ·) ih

@[simp] theorem failuresOf_map_ok (rs : List Record) : failuresOf (rs.map .ok) = [] := by
  induction rs with
  | nil => rfl
  | cons r rs ih => exact ih

/-- Some answers are records only, or there is a first failure among them. -/
theorem records_or_first_failure : ∀ answers : List (Except String Record),
    (∃ rs : List Record, answers = rs.map .ok) ∨
      ∃ (rs : List Record) (message : String) (rest : List (Except String Record)),
        answers = rs.map .ok ++ .error message :: rest
  | [] => .inl ⟨[], rfl⟩
  | .error message :: answers => .inr ⟨[], message, answers, rfl⟩
  | .ok r :: answers => by
    obtain ⟨rs, rfl⟩ | ⟨rs, message, rest, rfl⟩ := records_or_first_failure answers
    · exact .inl ⟨r :: rs, rfl⟩
    · exact .inr ⟨r :: rs, message, rest, rfl⟩

/-- Some answers are records only, or there is a last failure among them. -/
theorem records_or_last_failure : ∀ answers : List (Except String Record),
    (∃ rs : List Record, answers = rs.map .ok) ∨
      ∃ (before : List (Except String Record)) (message : String) (rs : List Record),
        answers = before ++ .error message :: rs.map .ok
  | [] => .inl ⟨[], rfl⟩
  | a :: answers => by
    obtain ⟨rs, rfl⟩ | ⟨before, message, rs, rfl⟩ := records_or_last_failure answers
    · cases a with
      | ok r => exact .inl ⟨r :: rs, rfl⟩
      | error message => exact .inr ⟨[], message, rs, rfl⟩
    · exact .inr ⟨a :: before, message, rs, rfl⟩

/-! ## Asking -/

namespace Replica

variable {σ τ : Type} [Supply σ] [Supply τ] {p q : Onsite (Replica σ)} {t : Team} {m : Member}
  {answers : List (Except String Record)} {seals late : Nat}

/-- What is left of a call once its loop has been left. -/
def leave : Option Answer → Call (Onsite (Replica σ)) Answer
  | some answer => return answer
  | none => do
    onSeat Seat.exhaust
    arrive

/-- **One call after the other**, whatever is answered. -/
def asked : Nat → Call (Onsite (Replica σ)) (List Answer)
  | 0 => return []
  | n + 1 => do
    let answer ← next
    let answers ← asked n
    return answer :: answers

theorem ends_asked_succ {a : Answer} {as : List Answer} {n : Nat} {r : Onsite (Replica σ)}
    (h : next.ends p = (.ok a, q)) (hs : (asked n).ends q = (.ok as, r)) :
    (asked (n + 1)).ends p = (.ok (a :: as), r) := by
  rw [asked, Call.ends_bind_ok h, Call.ends_bind_ok hs]
  rfl

theorem ends_asked_congr (h : next.ends p = next.ends q) (n : Nat) :
    (asked (n + 1)).ends p = (asked (n + 1)).ends q := by
  rw [asked, Call.ends_bind, Call.ends_bind, h]

/-- Calls can be counted in two parts. -/
theorem asked_add (n k : Nat) : (asked (n + k) : Call (Onsite (Replica σ)) (List Answer)) = (do
    let as ← asked n
    let bs ← asked k
    return as ++ bs) := by
  induction n with
  | zero => simp [asked]
  | succ n ih => simp [Nat.succ_add, asked, ih]

theorem ends_asked_add {as bs : List Answer} {n k : Nat} {r : Onsite (Replica σ)}
    (h : (asked n).ends p = (.ok as, q)) (hs : (asked k).ends q = (.ok bs, r)) :
    (asked (n + k)).ends p = (.ok (as ++ bs), r) := by
  rw [asked_add, Call.ends_bind_ok h, Call.ends_bind_ok hs]
  rfl

/-! ## While the supply delivers -/

namespace Accumulates

/-- A call in the middle of a pass counts what its supply delivers. -/
theorem ends_next (h : Accumulates seals late answers t m p) (hm : m.progress = .accumulating) :
    next.ends p =
      (accumulate (Supply.ahead p.site p.self.supply + 1) >>= leave).ends p := by
  rw [next, Call.ends_read_bind, h.member, hm]
  refine congrArg (Call.ends · p) (bind_congr fun answer => ?_)
  cases answer <;> rfl

/-- **A call answers the next failure**; the records before it are counted. -/
theorem next_failing {rs : List Record} {message : String}
    (h : Accumulates seals late (rs.map .ok ++ .error message :: answers) t m p)
    (hm : m.progress = .accumulating) :
    ∃ q, next.ends p = (.ok (.error (.supplyFailed message)), q) ∧
      Accumulates seals late answers (rs.foldl Team.fed t)
        { m with consumed := m.consumed + rs.length } q := by
  obtain ⟨fuel, hfuel⟩ := Nat.exists_eq_add_of_le h.delivers.length_le_ahead
  obtain ⟨u, hu, hpull⟩ := h.records rs (fuel + 1) 0
  obtain ⟨q, hq, hfailure⟩ := hu.failure fuel (0 + rs.length)
  rw [hfailure, ← Nat.add_assoc, ← hfuel, Nat.zero_add] at hpull
  refine ⟨_, ?_, hq.reseated _⟩
  rw [h.ends_next hm]
  exact Call.ends_bind_ok (h.toSits.ends_accumulate hpull hq.toSits nofun)

/-- **After some calls the failures so far have been answered**, in order, and the records so far
have been counted. -/
theorem asked_failures {answers : List (Except String Record)} {message : String}
    {rest : List (Except String Record)}
    (h : Accumulates seals late (answers ++ .error message :: rest) t m p)
    (hm : m.progress = .accumulating) :
    ∃ q, (asked ((failuresOf answers).length + 1)).ends p =
        (.ok ((failuresOf answers ++ [message]).map fun e => .error (.supplyFailed e)), q) ∧
      Accumulates seals late rest ((recordsOf answers).foldl Team.fed t)
        { m with consumed := m.consumed + (recordsOf answers).length } q := by
  induction hlength : answers.length using Nat.strongRecOn generalizing answers t m p with
  | ind length ih =>
    obtain ⟨rs, rfl⟩ | ⟨rs, first, answers', rfl⟩ := records_or_first_failure answers
    · obtain ⟨q, hnext, hq⟩ := h.next_failing hm
      rw [failuresOf_map_ok, recordsOf_map_ok]
      exact ⟨q, ends_asked_succ hnext rfl, hq⟩
    · rw [List.append_assoc] at h
      obtain ⟨u, hnext, hu⟩ := h.next_failing hm
      have hlt : answers'.length < length := by
        rw [← hlength, List.length_append, List.length_cons]
        omega
      obtain ⟨q, hasked, hq⟩ := ih _ hlt hu hm rfl
      refine ⟨q, ?_, ?_⟩
      · rw [failuresOf_append, failuresOf_map_ok, List.nil_append]
        exact ends_asked_succ hnext hasked
      · rw [recordsOf_append, recordsOf_map_ok, List.foldl_append, List.length_append,
          ← Nat.add_assoc]
        exact hq

/-- **Once all failures have been answered** only records are left to be counted. -/
theorem exists_asked (h : Accumulates seals late answers t m p)
    (hm : m.progress = .accumulating) :
    ∃ (rs ss : List Record) (q : Onsite (Replica σ)), rs ++ ss = recordsOf answers ∧
      (asked (failuresOf answers).length).ends p =
        (.ok ((failuresOf answers).map fun e => .error (.supplyFailed e)), q) ∧
      Accumulates seals late (ss.map .ok) (rs.foldl Team.fed t)
        { m with consumed := m.consumed + rs.length } q := by
  obtain ⟨ss, rfl⟩ | ⟨before, message, ss, rfl⟩ := records_or_last_failure answers
  · rw [failuresOf_map_ok, recordsOf_map_ok]
    exact ⟨[], ss, p, rfl, rfl, h⟩
  · obtain ⟨q, hasked, hq⟩ := h.asked_failures hm
    have hfailures : failuresOf (before ++ .error message :: ss.map .ok) =
        failuresOf before ++ [message] := by
      rw [failuresOf_append, failuresOf, failuresOf_map_ok]
    refine ⟨recordsOf before, ss, q, ?_, ?_, hq⟩
    · rw [recordsOf_append]
      exact congrArg (recordsOf before ++ ·) (recordsOf_map_ok ss).symm
    · rw [hfailures, List.length_append]
      exact hasked

end Accumulates

/-! ## After the end -/

/-- The team of a stage on its own after its supply has ended: the barrier is in its next phase, and
the census is sealed. -/
def closing (t : Team) : Team :=
  (t.withBarrier { t.barrier with arrived := 0, phase := t.barrier.phase + 1 }).withCensus
    t.census.sealOff

/-- The books of its member then. -/
def closed (t : Team) (m : Member) : Member :=
  { m with
    localSize := t.census.size
    arrival := some t.barrier.phase
    progress := .draining }

omit [Supply σ] in
/-- **At the end a stage on its own seals its census**, and goes on to hand out groups. -/
theorem Sits.ends_exhaust (h : Sits t m p) (hc : t.census.Regular seals late)
    (ho : t.census.sealed = false) (hb : t.barrier = .ofParties 1) :
    ∃ q, (leave none).ends p = handOut.ends q ∧ Sits (closing t) (closed t m) q := by
  have hbarrier := Barrier.run_arrive t.barrier
  rw [if_neg (by rw [hb]; decide), if_neg (by rw [hb]; decide)] at hbarrier
  obtain ⟨u, hexhaust, hu⟩ := h.exists_onSeat (Seat.run_exhaust t m)
  obtain ⟨ns, hrun⟩ := Seat.run_arrive
    (m := { m with localSize := t.census.size, progress := .exhausted }) hbarrier
  obtain ⟨v, harrive, hv⟩ := hu.exists_onSeat hrun
  have hopen : true = true → t.census.handOff = none := fun _ => hc.handOff_eq_none ho
  obtain ⟨ns', hrun'⟩ := Seat.run_finish
    (t := t.withBarrier { t.barrier with arrived := 0, phase := t.barrier.phase + 1 })
    (m := { closed t m with progress := .exhausted }) hc.healthy hopen
  obtain ⟨q, hfinish, hq⟩ := hv.exists_onSeat hrun'
  refine ⟨q, ?_, hq⟩
  rw [leave, Call.ends_bind_ok hexhaust, arrive, Call.ends_bind_ok harrive,
    Call.ends_bind_ok hfinish]

theorem Sits.next_draining (h : Sits t m p) (hm : m.progress = .draining) :
    next.ends p = handOut.ends p := by
  rw [next, Call.ends_read_bind, h.member, hm]

/-- **The call that finds the end** does what the next one would do, once the census is sealed. -/
theorem Accumulates.next_closing {rs : List Record}
    (h : Accumulates seals late (rs.map .ok) t m p) (hm : m.progress = .accumulating)
    (hb : t.barrier = .ofParties 1) :
    (closing (rs.foldl Team.fed t)).census.Regular seals late ∧ ∃ q, next.ends p = next.ends q ∧
      Sits (closing (rs.foldl Team.fed t))
        (closed (rs.foldl Team.fed t) { m with consumed := m.consumed + rs.length }) q := by
  rw [← List.append_nil (rs.map _)] at h
  obtain ⟨fuel, hfuel⟩ := Nat.exists_eq_add_of_le h.delivers.length_le_ahead
  obtain ⟨u, hu, hpull⟩ := h.records rs (fuel + 1) 0
  obtain ⟨v, hv, hended⟩ := hu.ended fuel (0 + rs.length)
  rw [hended, ← Nat.add_assoc, ← hfuel, Nat.zero_add] at hpull
  obtain ⟨q, hends, hq⟩ := (hv.reseated _ _).ends_exhaust hu.regular hu.isOpen
    (by rw [Team.barrier_foldl_fed, hb])
  refine ⟨hu.regular.sealOff hu.isOpen, q, ?_, hq⟩
  rw [h.ends_next hm, hq.next_draining rfl]
  exact (Call.ends_bind_ok (h.toSits.ends_accumulate hpull hv nofun)).trans hends

/-! ## Handing out -/

omit [Supply σ] in
/-- **A stage that hands out groups asks its team for one**, if nobody has told it to stop. -/
theorem Sits.ends_handOut (h : Sits t m p) {answer : Taken Record} {g : Grouper}
    (hnext : Grouper.next.run t.grouper = ⟨.ok answer, g, []⟩) :
    ∃ q, handOut.ends p = (.ok (match answer with
        | .waiting => .waiting
        | .exhausted => .ended
        | .item r => .group r), q) ∧
      Sits { t with grouper := g }
        { m with progress := if answer.isExhausted then .done else m.progress } q := by
  obtain ⟨q, htake, hq⟩ := h.exists_onSeat (Seat.run_take_eq hnext)
  refine ⟨q, ?_, hq⟩
  rw [handOut, Call.ends_read_bind, h.unstopped]
  show ((onSeat Seat.take >>= _).ends p) = _
  rw [Call.ends_bind_ok htake]
  cases answer <;> rfl

/-- **What a stage hands out is a matter of its team alone**: whoever sits in the team and goes on
to hand out groups, with nobody coming between, is handed these groups and no more. -/
theorem exists_handed {left : Nat} (hc : t.census.Regular seals late)
    (hl : t.census.remaining = some left) :
    ∃ (groups : List Record) (t' : Team), ∀ {σ : Type} [Supply σ] {p : Onsite (Replica σ)}
      {m : Member}, Sits t m p → m.progress = .draining →
        ∃ q, (asked (groups.length + 1)).ends p = (.ok (groups.map .group ++ [.ended]), q) ∧
          Sits t' { m with progress := .done } q := by
  induction left generalizing t with
  | zero =>
    refine ⟨[], t, fun {σ _ p m} h hm => ?_⟩
    obtain ⟨q, hends, hq⟩ := h.ends_handOut (Grouper.run_next_of_remaining (g := t.grouper) hl)
    exact ⟨q, ends_asked_succ ((h.next_draining hm).trans hends) rfl, hq⟩
  | succ left ih =>
    obtain ⟨answer, g, hrun, hg, hserved⟩ := Grouper.run_next (g := t.grouper) hc
    have hleaves := hserved.leaves
    rw [show t.grouper.census.remaining = some (left + 1) from hl] at hleaves
    cases answer with
    | waiting => exact absurd hleaves.1 (by simp)
    | exhausted => exact absurd hleaves.1 (by simp)
    | item r =>
      obtain ⟨left', hbefore, hafter⟩ := hleaves
      obtain rfl : left = left' := Nat.succ.inj (Option.some.inj hbefore)
      obtain ⟨groups, t', hrest⟩ := ih (t := { t with grouper := g }) hg hafter
      refine ⟨r :: groups, t', fun {σ _ p m} h hm => ?_⟩
      obtain ⟨u, hends, hu⟩ := h.ends_handOut hrun
      obtain ⟨q, hasked, hq⟩ := hrest hu hm
      exact ⟨q, ends_asked_succ ((h.next_draining hm).trans hends) hasked, hq⟩

/-! ## A stage on its own -/

/-- **A stage on its own**: it has just been built, outside a crew, and nobody has been told to
stop. -/
def Alone (g : Config) (p : Onsite (Replica σ)) : Prop :=
  ∃ (s : Site) (worker : Nat) (supply : σ), s.crew = none ∧ s.killed = false ∧
    (build worker g supply).ends s = (.ok (.ok p.self), p.site)

/-- A supply is used up only if what uses it up succeeds. -/
theorem ends_of_consuming {ε α : Type} {supply : σ} {call : Call Site (Except ε α)} {a : α}
    {s d : Site} (h : (consuming supply call).ends s = (.ok (.ok a), d)) :
    call.ends s = (.ok (.ok a), d) := by
  have hcaught : call.caught.ends s = (.ok (call.ends s).1, (call.ends s).2) := rfl
  rw [consuming, Call.ends_bind_ok hcaught] at h
  rcases hcall : call.ends s with ⟨⟨e⟩ | ⟨⟨e⟩ | ⟨b⟩⟩, t⟩
  · rw [hcall, Call.ends_bind] at h
    rcases hrelease : (Supply.release supply).ends t with ⟨⟨f⟩ | ⟨_⟩, u⟩ <;> rw [hrelease] at h <;>
      cases h
  · rw [hcall, Call.ends_bind] at h
    rcases hrelease : (Supply.release supply).ends t with ⟨⟨f⟩ | ⟨_⟩, u⟩ <;> rw [hrelease] at h <;>
      cases h
  · rw [hcall] at h
    exact h

/-- **Who is built on its own** founds a team, of one party and with a new census. -/
theorem buildAlone_ok {g : Config} {supply : σ} {s d : Site} {r : Replica σ}
    (h : (buildAlone g supply).ends s = (.ok (.ok r), d)) :
    ∃ c, Census.ofConfig g = .ok c ∧ r = fresh s.teams.size .outer supply ∧
      d = { s with teams := s.teams.push ⟨⟨g, c⟩, .ofParties 1⟩ } := by
  rw [buildAlone] at h
  cases hvalid : g.validate (Supply.schema supply) with
  | error e =>
    rw [hvalid] at h
    cases h
  | ok _ =>
    rw [hvalid] at h
    cases hc : Census.ofConfig g with
    | error e =>
      rw [Team.ofConfig_error hc] at h
      cases h
    | ok c =>
      rw [Team.ofConfig_ok hc] at h
      obtain ⟨hself, rfl⟩ := Prod.mk.inj h
      obtain rfl := Except.ok.inj (Except.ok.inj hself)
      exact ⟨c, rfl, rfl, rfl⟩

/-- **A stage on its own has a team of its own**, of one party and with a new census. -/
theorem Alone.sits {g : Config} (h : Alone g p) : ∃ c, Census.ofConfig g = .ok c ∧
    Sits { grouper := { config := g, census := c }, barrier := .ofParties 1 } { scope := .outer }
      p := by
  obtain ⟨site, r⟩ := p
  obtain ⟨s, worker, supply, hcrew, hkilled, hbuild⟩ := h
  have hends := ends_of_consuming hbuild
  rw [Call.ends_read_bind, hcrew] at hends
  obtain ⟨c, hc, rfl, rfl⟩ := buildAlone_ok hends
  refine ⟨c, hc, ?_, ?_, rfl, rfl, hkilled⟩
  · show s.teams.size < (s.teams.push _).size
    rw [Array.size_push]
    exact Nat.lt_succ_self _
  · show (s.teams.push _)[s.teams.size]?.getD default = _
    rw [Array.getElem?_push_size]
    rfl

/-- **After a failure** a stage is in the middle of its pass, nobody has arrived at its barrier, and
its books say how many records have been pulled. -/
structure Resumes (pulled : Nat) (p : Onsite (Replica σ)) : Prop where
  progress : p.self.member.progress = .accumulating
  arrival : p.self.member.arrival = none
  arrived : (p.site.team p.self.team).barrier.arrived = 0
  consumed : p.self.member.consumed = pulled

/-- **Two stages come to the same end**, with the same books and the same team. -/
structure EndsAlike (pulled : Nat) (p : Onsite (Replica σ)) (q : Onsite (Replica τ)) : Prop where
  progress : p.self.member.progress = .done
  consumed : p.self.member.consumed = pulled
  member : p.self.member = q.self.member
  team : p.site.team p.self.team = q.site.team q.self.team

theorem Alone.accumulates {g : Config} {c : Census} (hc : Census.ofConfig g = .ok c)
    (hp : Sits { grouper := { config := g, census := c }, barrier := .ofParties 1 }
      { scope := .outer } p)
    (hu : Supply.Delivers p.self.team answers (supplied p)) :
    Accumulates c.seals c.meters.lateRecords answers
      { grouper := { config := g, census := c }, barrier := .ofParties 1 } { scope := .outer } p :=
  have hfresh := Census.fresh_of_ofConfig hc
  ⟨hp, hfresh.regular, hfresh.mark, hu⟩

/-- **A stage that resumes after a failure.** -/
theorem Alone.resumes {g : Config} (hp : Alone g p) {message : String}
    {rest : List (Except String Record)}
    (hu : Supply.Delivers p.self.team (answers ++ .error message :: rest) (supplied p)) :
    ∃ q, (asked ((failuresOf answers).length + 1)).ends p =
        (.ok ((failuresOf answers ++ [message]).map fun e => .error (.supplyFailed e)), q) ∧
      Resumes (recordsOf answers).length q := by
  obtain ⟨c, hc, hsits⟩ := hp.sits
  obtain ⟨q, hasked, hq⟩ := (Alone.accumulates hc hsits hu).asked_failures rfl
  refine ⟨q, hasked, ?_, ?_, ?_, ?_⟩
  · rw [hq.member]
  · rw [hq.member]
  · rw [hq.team, Team.barrier_foldl_fed]
    rfl
  · rw [hq.member, Nat.zero_add]

/-- **A stage whose supply fails ends like one whose supply does not.** -/
theorem Alone.ends_alike {g : Config} {q : Onsite (Replica τ)} (hp : Alone g p) (hq : Alone g q)
    (hu : Supply.Delivers p.self.team answers (supplied p))
    (hv : Supply.Delivers q.self.team ((recordsOf answers).map .ok) (supplied q)) :
    ∃ (groups : List Record) (p' : Onsite (Replica σ)) (q' : Onsite (Replica τ)),
      (asked ((failuresOf answers).length + (groups.length + 1))).ends p =
        (.ok (((failuresOf answers).map fun e => .error (.supplyFailed e)) ++
          (groups.map .group ++ [.ended])), p') ∧
      (asked (groups.length + 1)).ends q = (.ok (groups.map .group ++ [.ended]), q') ∧
      EndsAlike (recordsOf answers).length p' q' := by
  obtain ⟨c, hc, hp⟩ := hp.sits
  obtain ⟨d, hd, hq⟩ := hq.sits
  obtain rfl : c = d := Except.ok.inj (hc.symm.trans hd)
  have hq := Alone.accumulates hc hq hv
  obtain ⟨rs, ss, u, hrecords, hasked, hu⟩ := (Alone.accumulates hc hp hu).exists_asked rfl
  obtain ⟨-, u', hnext, hu'⟩ := hu.next_closing rfl (Team.barrier_foldl_fed rs _)
  obtain ⟨hregular, v, hnext', hv⟩ := hq.next_closing rfl rfl
  -- both come to the same seat
  rw [← List.foldl_append, hrecords, Nat.add_assoc, ← List.length_append, hrecords] at hu'
  obtain ⟨groups, t', hhanded⟩ := exists_handed hregular rfl
  obtain ⟨p', hends, hp'⟩ := hhanded hu' rfl
  obtain ⟨q', hends', hq'⟩ := hhanded hv rfl
  rw [← ends_asked_congr hnext] at hends
  rw [← ends_asked_congr hnext'] at hends'
  refine ⟨groups, p', q', ends_asked_add hasked hends, hends', ?_, ?_, ?_, ?_⟩
  · rw [hp'.member]
  · rw [hp'.member]
    exact Nat.zero_add _
  · rw [hp'.member, hq'.member]
  · rw [hp'.team, hq'.team]

end Replica

end Muster
