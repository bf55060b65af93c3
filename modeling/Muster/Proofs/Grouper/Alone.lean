import Muster.Proofs.Grouper.Groups

/-!
# Proofs/Grouper/Alone — a grouper on its own

A grouper without a cap that nobody else uses counts records, is sealed and hands out its groups
(`Grouper.alone`). These are the groups of the records, whatever the records are
(`Grouper.alone_perm`).

* `Grouper.Holds` — a grouper that has counted some records, on its own or not.
* `Grouper.run_pass` — counting, sealing and handing out, one after the other.
-/

namespace Muster

/-! ## Counting keeps a census regular -/

/-- **An open census without a cap stays regular when it is counted into.** -/
theorem Census.Regular.grown {c : Census} {seals late : Nat} (h : c.Regular seals late)
    (ho : c.sealed = false) (hcap : c.limits.cap = none) (k : Key) (r : Option Record) :
    (c.grown k r).Regular seals late ∧ c.Steady (c.grown k r) := by
  obtain ⟨new, -, hw⟩ := Census.works_count k r c c ⟨.refl h.sound, h.healthy⟩
  rw [Census.run_count h.sound h.healthy ho hcap] at hw
  exact ⟨h.working ho hw, hw.steady⟩

namespace Grouper

variable {x y : Grouper} {g : Config} {rs : List Record} {seals late : Nat}

/-- **A new grouper** is a configuration and a new census. -/
theorem ofConfig_eq_ok_iff : ofConfig g = .ok x ↔
    ∃ c, Census.ofConfig g = .ok c ∧ x = { config := g, census := c } := by
  rw [ofConfig]
  cases Census.ofConfig g with
  | error e =>
    constructor
    · intro h
      cases h
    · rintro ⟨c, hc, -⟩
      cases hc
  | ok c =>
    constructor
    · intro h
      exact ⟨c, rfl, (Except.ok.inj h).symm⟩
    · rintro ⟨d, hd, rfl⟩
      rw [Except.ok.inj hd]
      rfl

/-! ## What a grouper holds -/

/-- **A grouper that has counted some records**, as configured and without a cap: it holds their
groups. -/
structure Holds (g : Config) (rs : List Record) (x : Grouper) : Prop where
  config : x.config = g
  cap : x.census.limits.cap = none
  groups : x.census.groups.Perm (grouped g rs)

namespace Holds

theorem congr (h : x.Holds g rs) (hg : y.config = x.config)
    (hl : y.census.limits = x.census.limits) (hs : y.census.shards = x.census.shards) :
    y.Holds g rs where
  config := hg.trans h.config
  cap := by rw [hl, h.cap]
  groups := by
    rw [Census.groups, hs]
    exact h.groups

/-- **A new grouper holds no group.** -/
theorem ofConfig {c : Census} (h : Census.ofConfig g = .ok c) (hg : g.maxTypes ≤ 0) :
    Holds g [] { config := g, census := c } where
  config := rfl
  cap := by
    rw [Census.cap_of_ofConfig h, Config.limit, if_neg (Int64.not_lt.2 hg)]
  groups := by
    rw [(Census.fresh_of_ofConfig h).groups_eq_nil]
    exact List.Perm.refl _

/-- **A record that comes to an open grouper is counted**, and opens a group if none before is like
it. -/
theorem count (h : x.Holds g rs) (hc : x.census.Regular seals late) (ho : x.census.sealed = false)
    (r : Record) :
    ∃ c, (Census.count (x.keyOf r) (x.payload r)).run x.census =
        ⟨.ok !rs.any (alike g · r), c, []⟩ ∧
      c.Regular seals late ∧ c.sealed = false ∧ c.handOff = none ∧
        Holds g (rs ++ [r]) { x with census := c } := by
  have hkey : x.keyOf r = Key.project g.keyFields r := by rw [Grouper.keyOf, h.config]
  have hrun := Census.run_count hc.sound hc.healthy ho h.cap (x.keyOf r)
    (if x.config.retainOthers then some r else none)
  have hnew : (x.census.find? (x.keyOf r)).isNone = !rs.any (alike g · r) := by
    rw [← hc.sound.isSome_find?_project h.groups r, hkey, Option.not_isSome]
  rw [← payload_eq, hnew] at hrun
  obtain ⟨hgrown, hsteady⟩ := hc.grown ho h.cap (x.keyOf r)
    (if x.config.retainOthers then some r else none)
  refine ⟨_, hrun, hgrown, hsteady.mark.trans ho, ?_, h.config, ?_, ?_⟩
  · exact hsteady.handOff.trans (hc.handOff_eq_none ho)
  · exact (congrArg Limits.cap hsteady.limits).trans h.cap
  · rw [hkey, h.config]
    exact hc.sound.groups_grown_perm h.groups r

/-- **At the end the groups of the records have been handed out.** -/
theorem delivered_perm (h : x.Holds g rs) (hc : x.census.Regular seals late)
    (hr : x.census.remaining = some 0) : x.delivered.Perm (report g rs) := by
  obtain ⟨ho, hh, hnone⟩ := Option.map_eq_some_iff.1 hr
  refine (Grouper.delivered_perm hc.sound hh (hc.handsOff ho hh) hnone).trans ?_
  rw [h.config]
  exact h.groups.map _

end Holds

/-! ## A grouper on its own -/

/-- Hands out groups until there is none; at most `fuel` of them. -/
def drain : (fuel : Nat) → Call Grouper (List Record)
  | 0 => return []
  | fuel + 1 => do
    match ← next with
    | .item r => do
      let rs ← drain fuel
      return r :: rs
    | _ => return []

/-- Counts records one after the other; the answers say which of them opened a group. -/
def countEach : List Record → Call Grouper (List Bool)
  | [] => return []
  | r :: rs => do
    let new ← count r
    let answers ← countEach rs
    return new :: answers

/-- Whoever does not look at the answers counts the same. -/
theorem forEach_count (rs : List Record) :
    Call.forEach (fun r => do let _ ← count r) rs =
      (do let _ ← countEach rs : Call Grouper Unit) := by
  induction rs with
  | nil => rfl
  | cons r rs ih => simp only [Call.forEach, countEach, ih, bind_assoc, pure_bind]

/-- Counts records one after the other, and hands out their groups. -/
def process (rs : List Record) : Call Grouper (List Record) := do
  Call.forEach (fun r => do let _ ← count r) rs
  let _ ← finish
  let x ← Call.read
  drain (x.census.remaining.getD 0 + 1)

/-- **What a new grouper hands out** after it has counted some records on its own. -/
def alone (g : Config) (rs : List Record) : Except Fault (List Record) := do
  let x ← ofConfig g
  ((process rs).run x).result

/-- Whoever has fuel for all groups that are left hands them out. -/
theorem run_drain (fuel : Nat) {left : Nat} (hc : x.census.Regular seals late) (hx : x.Holds g rs)
    (hl : x.census.remaining = some left) (hlt : left < fuel) :
    ∃ out y, (drain fuel).run x = ⟨.ok out, y, []⟩ ∧ y.census.Regular seals late ∧ y.Holds g rs ∧
      y.census.remaining = some 0 ∧ y.delivered = x.delivered ++ out := by
  induction fuel generalizing x left with
  | zero => exact absurd hlt (Nat.not_lt_zero _)
  | succ fuel ih =>
    obtain ⟨answer, y, hrun, hy, hserved⟩ := run_next hc
    have hholds := hx.congr hserved.config hserved.limits hserved.shards
    have hdelivered := hserved.delivered
    have hleaves := hserved.leaves
    rw [hl] at hleaves
    cases answer with
    | waiting => exact absurd hleaves.1 (by simp)
    | exhausted =>
      refine ⟨[], y, ?_, hy, hholds, hleaves.2, hdelivered⟩
      rw [drain, Call.run_bind_ok hrun]
      rfl
    | item r =>
      obtain ⟨rest, hbefore, hafter⟩ := hleaves
      have hrest : rest < fuel := by
        have := Option.some.inj hbefore
        omega
      obtain ⟨out, z, hdrain, hz, hzx, hnone, hout⟩ := ih hy hholds hafter hrest
      refine ⟨r :: out, z, ?_, hz, hzx, hnone, ?_⟩
      · rw [drain, Call.run_bind_ok hrun]
        show (⟨_, _, [] ++ _⟩ : Outcome _ _) = _
        simp only [Call.run_bind_ok hdrain, Call.run_pure, List.append_nil]
      · rw [hout, hdelivered, List.append_assoc]
        rfl

/-- Records are counted one after the other, and each of them opens a group if none before is like
it. -/
theorem run_countEach (more : List Record) (hc : x.census.Regular seals late)
    (ho : x.census.sealed = false) (hx : x.Holds g rs) :
    ∃ y, (countEach more).run x = ⟨.ok (opens g rs more), y, []⟩ ∧
      y.census.Regular seals late ∧ y.census.sealed = false ∧ y.Holds g (rs ++ more) := by
  induction more generalizing x rs with
  | nil => exact ⟨x, rfl, hc, ho, by rwa [List.append_nil]⟩
  | cons r more ih =>
    obtain ⟨c, hrun, hc', ho', -, hx'⟩ := hx.count hc ho r
    obtain ⟨y, hmore, hy, hoy, hyx⟩ := ih (x := { x with census := c }) hc' ho' hx'
    rw [List.append_assoc] at hyx
    refine ⟨y, ?_, hy, hoy, hyx⟩
    rw [countEach, Call.run_bind_ok (run_count_ok hrun), Call.run_bind_ok hmore]
    rfl

/-- **A new grouper counts some records, is sealed, and hands out their groups** to whoever asks for
all of them. -/
theorem run_pass {c : Census} (hc : Census.ofConfig g = .ok c) (hg : g.maxTypes ≤ 0)
    (rs : List Record) :
    ∃ x y left, (countEach rs).run { config := g, census := c } = ⟨.ok (opens g [] rs), x, []⟩ ∧
      finish.run x = ⟨.ok true, y, [.sealed left]⟩ ∧ y.census.remaining = some left ∧
      left ≤ rs.length ∧ ∀ fuel, left < fuel → ∃ out z, (drain fuel).run y = ⟨.ok out, z, []⟩ ∧
        out.Perm (report g rs) ∧ z.census.remaining = some 0 := by
  have hfresh := Census.fresh_of_ofConfig hc
  obtain ⟨x, hcount, hx, ho, hholds⟩ :=
    run_countEach rs hfresh.regular hfresh.mark (.ofConfig hc hg)
  rw [List.nil_append] at hholds
  have hholds' : Holds g rs { x with census := x.census.sealOff } := hholds.congr rfl rfl rfl
  refine ⟨x, _, _, hcount, run_finish hx.healthy (hx.handOff_eq_none ho), rfl, ?_,
    fun fuel hfuel => ?_⟩
  · rw [x.census.keys_perm.length_eq, List.length_map, hholds.groups.length_eq, grouped,
      List.length_map]
    exact length_firsts_le rs
  · obtain ⟨out, z, hdrain, hz, hzx, hleft, hout⟩ :=
      run_drain (x := { x with census := x.census.sealOff }) fuel (hx.sealOff ho) hholds' rfl hfuel
    rw [delivered_sealOff, List.nil_append] at hout
    exact ⟨out, z, hdrain, hout ▸ hzx.delivered_perm hz hleft, hleft⟩

/-- **A grouper on its own hands out the groups of the records** that it has counted. -/
theorem alone_perm {c : Census} (hc : Census.ofConfig g = .ok c) (hg : g.maxTypes ≤ 0)
    (rs : List Record) : ∃ out, alone g rs = .ok out ∧ out.Perm (report g rs) := by
  obtain ⟨x, y, left, hcount, hfinish, hleft, -, hpass⟩ := run_pass hc hg rs
  obtain ⟨out, z, hdrain, hout, -⟩ := hpass (left + 1) (Nat.lt_succ_self _)
  have hprocess : ((process rs).run { config := g, census := c }).result = .ok out := by
    rw [process, forEach_count, bind_assoc, Call.run_bind_ok hcount, pure_bind,
      Call.run_bind_ok hfinish, Call.run_bind_ok (Call.run_read _), hleft, Option.getD_some, hdrain]
  refine ⟨out, ?_, hout⟩
  rw [alone, ofConfig_eq_ok_iff.2 ⟨c, hc, rfl⟩]
  exact hprocess

end Grouper

end Muster
