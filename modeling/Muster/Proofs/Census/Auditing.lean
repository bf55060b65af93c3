import Mathlib.Data.List.Perm.Basic
import Muster.Proofs.Census.Cycle
import Muster.Proofs.Census.Operation
import Muster.Proofs.Census.Tally

/-!
# Proofs/Census/Auditing — the counters of a census agree with its groups

An auditor stands beside a census while calls are made on it. From what each call answers, and from
which groups are no longer there after it, the auditor keeps an account (`Account.enter`). The
counters of the census and its meters are kept independently of that, and of each other.

What a call can do to the groups is little: an increment counts in one group
(`Group.tallied`), and a pass of pruning thins the groups out (`Thinned`), be it asked for or part
of an increment. Either keeps the account square (`Account.Squares`).

* `accounts_square` — after any calls the counters say what the account says.
-/

namespace Muster

/-! ## Some groups after an increment -/

namespace Group

/-- **Some groups after one more occurrence of a key**: its group counts one more, or is new. -/
def tallied (k : Key) (r : Option Record) (gs : List Group) : List Group :=
  if (gs.find? (·.key.same k)).isSome then gs.map (bumpIf k) else { key := k, retained := r } :: gs

theorem length_tallied (k : Key) (r : Option Record) (gs : List Group) :
    (tallied k r gs).length = gs.length + (gs.find? (·.key.same k)).isNone.toNat := by
  unfold tallied
  cases gs.find? (·.key.same k) with
  | none => exact List.length_cons
  | some g => exact List.length_map _

end Group

namespace KeysDiffer

variable {gs : List Group}

/-- **One more occurrence of a key is one more in all counts.** -/
theorem total_tallied (h : KeysDiffer gs) (k : Key) (r : Option Record) :
    Group.total (Group.tallied k r gs) = Group.total gs + 1 := by
  unfold Group.tallied
  split
  · rw [h.total_map_bumpIf, ‹(gs.find? _).isSome = true›]
    rfl
  · rw [Group.total, List.map_cons, List.sum_cons, Nat.add_comm]
    rfl

end KeysDiffer

namespace Census

variable {c d : Census} {gs : List Group}

theorem Sound.groups_grown_tallied (hc : c.Sound) (k : Key) (r : Option Record) :
    (c.grown k r).groups.Perm (Group.tallied k r c.groups) := by
  have hperm := hc.groups_grown k r
  rwa [hc.find?_eq] at hperm

/-! ## Groups that have gone -/

/-- **The groups that a census no longer holds**, of those that it held. -/
def missing (d : Census) (gs : List Group) : List Group :=
  gs.filter fun g => (d.find? g.key).isNone

/-- **Where a census holds some of the groups, the others are those that it is missing.** -/
theorem Sound.perm_missing (hd : d.Sound) (hgs : KeysDiffer gs) {p : Group → Bool}
    (hp : d.groups.Perm (gs.filter p)) : (d.groups ++ d.missing gs).Perm gs := by
  have hgone : d.missing gs = gs.filter fun g => !p g := by
    refine List.filter_congr fun g hg => ?_
    rw [hd.find?_eq, hd.differ.find?_perm hp, hgs.find?_filter, hgs.find?_of_mem hg,
      Option.filter_some]
    cases p g <;> rfl
  rw [hgone]
  exact (hp.append_right _).trans (List.filter_append_perm p gs)

/-- **A census that has been thinned out by pruning**: some of the groups have gone, the meter of
pruned keys tells how many, and nothing else that is accounted for has changed. -/
structure Thinned (c d : Census) : Prop where
  sound : d.Sound
  healthy : d.Healthy
  groups : ∃ p : Group → Bool, d.groups = c.groups.filter p
  mark : d.sealed = c.sealed
  handOff : d.handOff = c.handOff
  processed : d.processed = c.processed
  pruned : d.meters.prunedKeys + d.groups.length = c.meters.prunedKeys + c.groups.length
  records : d.meters.recordsProcessed = c.meters.recordsProcessed
  late : d.meters.lateRecords = c.meters.lateRecords
  seals : d.meters.seals = c.meters.seals

theorem Thinned.refl (hc : c.Sound) (hh : c.Healthy) : c.Thinned c :=
  ⟨hc, hh, ⟨fun _ => true, by simp⟩, rfl, rfl, rfl, rfl, rfl, rfl, rfl⟩

/-- What a pass of pruning takes and what it leaves are all groups together. -/
theorem rare_add_length (c : Census) (threshold : Nat) :
    c.rare threshold + (c.pruned threshold).groups.length = c.groups.length := by
  cases ho : c.sealed with
  | true => simp [rare, pruned, ho]
  | false =>
    have hsplit := c.groups.length_eq_countP_add_countP fun g => threshold ≤ g.count
    rw [groups_pruned ho, ← List.countP_eq_length_filter, rare, ho]
    simp only [Bool.false_eq_true, if_false, decide_eq_true_eq, Nat.not_le] at hsplit ⊢
    omega

theorem exists_groups_pruned_eq_filter (c : Census) (threshold : Nat) :
    ∃ p : Group → Bool, (c.pruned threshold).groups = c.groups.filter p := by
  cases ho : c.sealed with
  | true => exact ⟨fun _ => true, by simp [pruned, ho]⟩
  | false => exact ⟨_, groups_pruned ho threshold⟩

/-- **A pass of pruning thins a census out**, and meters what it took. -/
theorem Sound.thinned_pruned (hc : c.Sound) (hh : c.Healthy) (threshold : Nat) :
    c.Thinned ((c.pruned threshold).reported (c.rare threshold)) := by
  have hlength := c.rare_add_length threshold
  have hgroups := c.exists_groups_pruned_eq_filter threshold
  have hsound := hc.pruned threshold
  have hhealthy := hh.pruned threshold
  obtain ⟨shards, distinct, h, heq⟩ := c.pruned_eq threshold
  rw [heq] at hlength hgroups hsound hhealthy ⊢
  refine ⟨hsound.congr rfl rfl, hhealthy.congr rfl rfl, hgroups, rfl, rfl, rfl, ?_, rfl, rfl, rfl⟩
  show c.meters.prunedKeys + c.rare threshold + _ = _
  rw [Nat.add_assoc]
  exact congrArg (c.meters.prunedKeys + ·) hlength

/-- **A check of the cap thins a census out**, if it does anything. -/
theorem Sound.thinned_checked (hc : c.Sound) (hh : c.Healthy) : c.Thinned c.checked := by
  unfold Census.checked
  split
  · exact .refl hc hh
  · exact hc.thinned_pruned hh _

/-- What is left and what is missing are the groups that were there, in some order. -/
theorem Thinned.perm_missing (hd : c.Thinned d) (hc : c.Sound) (hgs : c.groups.Perm gs) :
    (d.groups ++ d.missing gs).Perm c.groups := by
  obtain ⟨p, hp⟩ := hd.groups
  have hdiffer : KeysDiffer gs :=
    (hgs.pairwise_iff fun hkl => (Key.same_comm _ _).trans hkl).1 hc.differ
  have hleft : d.groups.Perm (gs.filter p) := (List.Perm.of_eq hp).trans (hgs.filter p)
  exact (hd.sound.perm_missing hdiffer hleft).trans hgs.symm

/-- **The meter of pruned keys counts what is missing.** -/
theorem Thinned.metered (hd : c.Thinned d) (hc : c.Sound) (hgs : c.groups.Perm gs) :
    d.meters.prunedKeys = c.meters.prunedKeys + (d.missing gs).length := by
  have hlength := (hd.perm_missing hc hgs).length_eq
  have hpruned := hd.pruned
  rw [List.length_append] at hlength
  omega

/-- A pass of pruning answers how many groups are missing after it. -/
theorem Sound.length_missing_pruned (hc : c.Sound) (hh : c.Healthy) (threshold : Nat) :
    (((c.pruned threshold).reported (c.rare threshold)).missing c.groups).length =
      c.rare threshold := by
  have hmetered := (hc.thinned_pruned hh threshold).metered hc (.refl _)
  have hmeters : (c.pruned threshold).meters = c.meters := by
    obtain ⟨_, _, _, heq⟩ := c.pruned_eq threshold
    rw [heq]
  have hreported : ((c.pruned threshold).reported (c.rare threshold)).meters.prunedKeys =
      c.meters.prunedKeys + c.rare threshold :=
    congrArg (fun m : Meters => m.prunedKeys + c.rare threshold) hmeters
  omega

/-! ## The account -/

/-- **What an auditor has noted down** about a census. -/
structure Account where
  /-- the increments that were made -/
  increments : Nat := 0
  /-- what all passes of pruning came to, those that were asked for and those of increments -/
  pruned : Nat := 0
  /-- the seals that took effect -/
  seals : Nat := 0
  /-- the increments that answered that their key was new, since the census was last cleared -/
  opened : Nat := 0
  /-- the groups that have been pruned since then, each as it was when it went -/
  gone : List Group := []

namespace Account

variable {a : Account}

/-- The account after an increment, given whether it answered that its key was new. -/
def counted (a : Account) (new : Bool) : Account :=
  { a with increments := a.increments + 1, opened := a.opened + new.toNat }

/-- The account after a pass of pruning, given what it came to and which groups went. -/
def thinned (a : Account) (n : Nat) (gs : List Group) : Account :=
  { a with pruned := a.pruned + n, gone := a.gone ++ gs }

/-- **The account after a call**, from the census before and after it and from what it answered.
Whatever is missing after an accepted increment has been pruned by the increment. -/
def enter (a : Account) (before after : Census) : Operation → Reply → Account
  | .increment k deposit, .flag new =>
    if before.sealed then a.counted new
    else
      let gone := after.missing (Group.tallied k (deposit.map Deposit.record) before.groups)
      (a.counted new).thinned gone.length gone
  | .prune _, .number n => a.thinned n (after.missing before.groups)
  | .trySeal, .flag new => { a with seals := a.seals + new.toNat }
  | .clear, .cleared => { a with opened := 0, gone := [] }
  | _, _ => a

/-- **The account squares with the census**: what the counters and the meters say is what the
auditor has noted down. -/
structure Squares (a : Account) (c : Census) : Prop where
  sound : c.Sound
  healthy : c.Healthy
  mark : c.sealed = c.handOff.isSome
  opened : c.groups.length + a.gone.length = a.opened
  processed : c.processed = Group.total c.groups + Group.total a.gone
  increments : a.increments = c.meters.recordsProcessed + c.meters.lateRecords
  pruned : c.meters.prunedKeys = a.pruned
  seals : c.meters.seals = a.seals

namespace Squares

/-- With a census that has not been used, the empty account squares. -/
theorem of_fresh (hc : c.Fresh) (hm : c.meters = {}) : ({} : Account).Squares c where
  sound := hc.sound
  healthy := hc.healthy
  mark := by rw [hc.mark, hc.handOff]; rfl
  opened := by rw [hc.groups_eq_nil]; rfl
  processed := by rw [hc.processed, hc.groups_eq_nil]; rfl
  increments := by rw [hm]; rfl
  pruned := by rw [hm]
  seals := by rw [hm]

/-- An increment that comes too late. -/
theorem refused (h : a.Squares c) : (a.counted false).Squares c.refused :=
  ⟨h.sound.congr rfl rfl, h.healthy.congr rfl rfl, h.mark, h.opened, h.processed,
    congrArg (· + 1) h.increments, h.pruned, h.seals⟩

/-- **An increment that is taken in.** -/
theorem grown (h : a.Squares c) (k : Key) (r : Option Record) :
    (a.counted (c.find? k).isNone).Squares (c.grown k r) := by
  have hperm := h.sound.groups_grown_tallied k r
  have hlength := hperm.length_eq
  have htotal := Group.total_perm hperm
  rw [Group.length_tallied, ← h.sound.find?_eq] at hlength
  rw [h.sound.differ.total_tallied] at htotal
  have hopened := h.opened
  have hprocessed := h.processed
  have hincrements := h.increments
  refine ⟨h.sound.grown k r, h.healthy.grown k r, ?_, ?_, ?_, ?_, ?_, ?_⟩
  · rw [sealed_grown, handOff_grown, h.mark]
  · show _ + a.gone.length = a.opened + _
    omega
  · show _ = _ + Group.total a.gone
    rw [processed_grown]
    omega
  · rw [meters_grown]
    show a.increments + 1 = c.meters.recordsProcessed + 1 + c.meters.lateRecords
    omega
  · rw [meters_grown]
    exact h.pruned
  · rw [meters_grown]
    exact h.seals

/-- **A pass of pruning**, given the groups before it in some order. -/
theorem thinned (h : a.Squares c) (hd : c.Thinned d) (hgs : c.groups.Perm gs) :
    (a.thinned (d.missing gs).length (d.missing gs)).Squares d := by
  have hperm := hd.perm_missing h.sound hgs
  have hlength := hperm.length_eq
  have htotal := Group.total_perm hperm
  rw [List.length_append] at hlength
  rw [Group.total_append] at htotal
  have hopened := h.opened
  have hprocessed := h.processed
  refine ⟨hd.sound, hd.healthy, ?_, ?_, ?_, ?_, ?_, hd.seals.trans h.seals⟩
  · rw [hd.mark, hd.handOff, h.mark]
  · show _ + (a.gone ++ d.missing gs).length = a.opened
    rw [List.length_append]
    omega
  · show d.processed = _ + Group.total (a.gone ++ d.missing gs)
    rw [hd.processed, Group.total_append]
    omega
  · rw [hd.records, hd.late]
    exact h.increments
  · rw [hd.metered h.sound hgs, h.pruned]
    rfl

theorem sealOff (h : a.Squares c) : ({ a with seals := a.seals + 1 } : Account).Squares c.sealOff :=
  ⟨h.sound.congr rfl rfl, h.healthy.congr rfl rfl, rfl, h.opened, h.processed, h.increments,
    h.pruned, congrArg (· + 1) h.seals⟩

theorem claimed (h : a.Squares c) {ho : HandOff} (hh : c.handOff = some ho) :
    a.Squares (c.claimed ho) := by
  have hmark := h.mark
  rw [hh] at hmark
  exact ⟨h.sound.congr rfl rfl, h.healthy.congr rfl rfl, hmark, h.opened, h.processed,
    h.increments, h.pruned, h.seals⟩

/-- **Clearing** begins both counts of keys anew. -/
theorem cleared (h : a.Squares c) :
    ({ a with opened := 0, gone := [] } : Account).Squares c.cleared := by
  obtain ⟨hfresh, -, -⟩ := h.sound.fresh_cleared h.healthy
  have hmeters := c.meters_cleared
  refine ⟨hfresh.sound, hfresh.healthy, ?_, ?_, ?_, ?_, ?_, ?_⟩
  · rw [hfresh.mark, hfresh.handOff]
    rfl
  · rw [hfresh.groups_eq_nil]
    rfl
  · rw [hfresh.processed, hfresh.groups_eq_nil]
    rfl
  · rw [hmeters]
    exact h.increments
  · rw [hmeters]
    exact h.pruned
  · rw [hmeters]
    exact h.seals

/-! ## One call, and many -/

/-- **An increment squares.** -/
theorem increment (h : a.Squares c) (k : Key) (deposit : Option Deposit) :
    ∃ reply d ns, (Census.perform (.increment k deposit)).run c = ⟨.ok reply, d, ns⟩ ∧
      (a.enter c d (.increment k deposit) reply).Squares d := by
  have hrun := run_perform_increment h.sound h.healthy k deposit
  cases ho : c.sealed with
  | true =>
    rw [if_pos ho] at hrun
    refine ⟨_, _, _, hrun, ?_⟩
    simp only [enter, ho, if_true]
    exact h.refused
  | false =>
    rw [if_neg (ho ▸ Bool.false_ne_true)] at hrun
    have hgrown := h.grown k (deposit.map Deposit.record)
    refine ⟨_, _, _, hrun, ?_⟩
    simp only [enter, ho, Bool.false_eq_true, if_false]
    exact hgrown.thinned (hgrown.sound.thinned_checked hgrown.healthy)
      (h.sound.groups_grown_tallied k _)

/-- **A pass of pruning squares.** -/
theorem prune (h : a.Squares c) (threshold : Nat) :
    ∃ reply d ns, (Census.perform (.prune threshold)).run c = ⟨.ok reply, d, ns⟩ ∧
      (a.enter c d (.prune threshold) reply).Squares d := by
  have hthinned := h.thinned (h.sound.thinned_pruned h.healthy threshold) (.refl _)
  rw [h.sound.length_missing_pruned h.healthy] at hthinned
  exact ⟨.number (c.rare threshold), _, _, Call.run_map_ok (run_prune h.healthy threshold) _,
    hthinned⟩

/-- **A seal squares**, whether or not it takes effect. -/
theorem trySeal (h : a.Squares c) :
    ∃ reply d ns, (Census.perform .trySeal).run c = ⟨.ok reply, d, ns⟩ ∧
      (a.enter c d .trySeal reply).Squares d := by
  have hrun := run_trySeal h.healthy
  split at hrun
  · exact ⟨.flag false, _, _, Call.run_map_ok hrun _, h⟩
  · exact ⟨.flag true, _, _, Call.run_map_ok hrun _, h.sealOff⟩

/-- **Taking a key squares**, whether or not there is one. -/
theorem take (h : a.Squares c) :
    ∃ reply d ns, (Census.perform .take).run c = ⟨.ok reply, d, ns⟩ ∧
      (a.enter c d .take reply).Squares d := by
  have hrun := run_take c
  cases hh : c.handOff with
  | none =>
    rw [hh, h.healthy.lock] at hrun
    exact ⟨.taken .waiting, _, _, Call.run_map_ok hrun _, h⟩
  | some ho =>
    rw [hh] at hrun
    exact ⟨.taken _, _, _, Call.run_map_ok hrun _, h.claimed hh⟩

/-- **Every call answers, and squares.** -/
theorem perform (h : a.Squares c) : ∀ op, ∃ reply d ns,
    (Census.perform op).run c = ⟨.ok reply, d, ns⟩ ∧ (a.enter c d op reply).Squares d
  | .increment k deposit => h.increment k deposit
  | .prune threshold => h.prune threshold
  | .trySeal => h.trySeal
  | .take => h.take
  | .clear => ⟨.cleared, _, _, Call.run_map_ok (run_clear h.sound h.healthy) _, h.cleared⟩
  | .countOf k => by
    have hrun := run_countOf k c
    rw [h.healthy.shard] at hrun
    exact ⟨.numberIf _, _, _, Call.run_map_ok hrun _, h⟩
  | .retained k => by
    have hrun := run_retained k c
    rw [h.healthy.shard] at hrun
    exact ⟨.record _, _, _, Call.run_map_ok hrun _, h⟩
  | .size | .processed | .seals | .remaining => ⟨_, _, _, rfl, h⟩
  | .isSealed => ⟨_, _, _, rfl, h⟩

end Squares

end Account

/-- **Calls under audit**, one after the other: around each of them the auditor reads the census. -/
def audited : List Operation → Account → Call Census Account
  | [], a => return a
  | op :: ops, a => do
    let before ← Call.read
    let reply ← perform op
    let after ← Call.read
    audited ops (a.enter before after op reply)

/-- **Whatever calls are made, the account squares**, and the audit does not change what they do. -/
theorem Account.Squares.audited : ∀ (ops : List Operation) {a : Account} {c : Census},
    a.Squares c → ∃ replies b d ns, (performAll ops).run c = ⟨.ok replies, d, ns⟩ ∧
      (Census.audited ops a).run c = ⟨.ok b, d, ns⟩ ∧ b.Squares d
  | [], a, c, h => ⟨[], a, c, [], rfl, rfl, h⟩
  | op :: ops, a, c, h => by
    obtain ⟨reply, d, ns, hrun, hd⟩ := h.perform op
    obtain ⟨replies, b, e, ns', hruns, haudit, he⟩ := Account.Squares.audited ops hd
    refine ⟨_, b, e, _, run_performAll_cons hrun hruns, ?_, he⟩
    rw [Census.audited, Call.run_bind_ok (Call.run_read c), Call.run_bind_ok hrun,
      Call.run_bind_ok (Call.run_read d), haudit]
    simp

/-- **Pruning up to a count of one takes nothing.** -/
theorem Sound.run_prune_of_le_one (hc : c.Sound) (hh : c.Healthy) {threshold : Nat}
    (ht : threshold ≤ 1) : ∃ d ns, (Census.prune threshold).run c = ⟨.ok 0, d, ns⟩ ∧
      d.groups = c.groups := by
  have hall : ∀ g ∈ c.groups, decide (threshold ≤ g.count) = true := fun g hg =>
    decide_eq_true (Nat.le_trans ht (hc.count_pos (hc.find?_of_mem hg)))
  have hgroups : (c.pruned threshold).groups = c.groups := by
    cases ho : c.sealed with
    | true =>
      rw [Census.pruned, ho]
      rfl
    | false => exact (groups_pruned ho threshold).trans (List.filter_eq_self.2 hall)
  have hlength := c.rare_add_length threshold
  have hrun := run_prune hh threshold
  rw [hgroups] at hlength
  rw [show c.rare threshold = 0 by omega] at hrun
  exact ⟨_, _, hrun, hgroups⟩

/-! ## Every census -/

/-- **The counters of a census agree with its groups.** Whatever calls are made on a new census,

* its size is the number of its keys, and with the keys that have gone since it was last cleared
  these are as many as were new to it;
* its counter of increments is the sum of the counts that are there and of the counts with which
  keys have gone;
* every count is at least one, so that pruning up to a count of one takes nothing;
* it is sealed exactly if it tells how many keys are left to be handed out;
* its meters account for every increment ever made, every key ever pruned and every seal. -/
theorem accounts_square {n interval : Nat} {cap : Option Nat} {threshold : Nat} {b c : Census}
    (hb : ofShards n = .ok b) (hc : (b.withCap cap threshold).withInterval interval = .ok c)
    (ops : List Operation) :
    ∃ replies a d ns, (performAll ops).run c = ⟨.ok replies, d, ns⟩ ∧
      (audited ops {}).run c = ⟨.ok a, d, ns⟩ ∧
      (KeysDiffer d.groups ∧ d.size = d.groups.length ∧ d.size + a.gone.length = a.opened) ∧
      d.processed = Group.total d.groups + Group.total a.gone ∧
      ((∀ g ∈ d.groups, 1 ≤ g.count) ∧
        ∀ m ≤ 1, ∃ e ns', (prune m).run d = ⟨.ok 0, e, ns'⟩ ∧ e.groups = d.groups) ∧
      (d.sealed = true ↔ d.remaining.isSome = true) ∧
      a.increments = d.meters.recordsProcessed + d.meters.lateRecords ∧
      d.meters.prunedKeys = a.pruned ∧ d.meters.seals = a.seals := by
  have hfresh : c.Fresh := ((fresh_of_ofShards hb).withCap cap threshold).withInterval hc
  have hmeters : c.meters = {} := (unused_of_limits hc).2.trans (unused_of_ofShards hb).2
  obtain ⟨replies, a, d, ns, hruns, haudit, h⟩ :=
    (Account.Squares.of_fresh hfresh hmeters).audited ops
  have hsize : d.size = d.groups.length := h.sound.distinct_eq
  refine ⟨replies, a, d, ns, hruns, haudit, ⟨h.sound.differ, hsize, hsize ▸ h.opened⟩, h.processed,
    ⟨fun g hg => h.sound.count_pos (h.sound.find?_of_mem hg),
      fun m hm => h.sound.run_prune_of_le_one h.healthy hm⟩, ?_, h.increments, h.pruned, h.seals⟩
  rw [h.mark, remaining, Option.isSome_map]

/-- Two keys in one shard, one of which a check prunes and then comes again; a seal, an increment
that comes too late, a key that is handed out. -/
theorem accounts_square_thinned :
    let key := fun i => Key.ofRecord (.field "id" (.int i) .empty)
    let ops : List Operation :=
      [.increment (key 1) none, .increment (key 1) none, .increment (key 2) none,
        .increment (key 2) none, .trySeal, .increment (key 3) none, .take]
    ∃ b c a replies d ns, ofShards 1 = .ok b ∧ (b.withCap (some 1) 2).withInterval 3 = .ok c ∧
      (performAll ops).run c = ⟨.ok replies, d, ns⟩ ∧ (audited ops {}).run c = ⟨.ok a, d, ns⟩ ∧
      d.size = 2 ∧ a.gone.length = 1 ∧ a.opened = 3 ∧ d.size + a.gone.length = a.opened ∧
      d.processed = 4 ∧ d.processed = Group.total d.groups + Group.total a.gone ∧
      a.increments = 5 ∧ d.meters.lateRecords = 1 ∧
      a.increments = d.meters.recordsProcessed + d.meters.lateRecords ∧
      d.meters.prunedKeys = a.pruned ∧ d.meters.seals = a.seals := by
  intro key ops
  let c : Census := single { cap := some 1, interval := 3 }
  have hb : ofShards 1 = .ok (single {}) := rfl
  have hc : ((single {}).withCap (some 1) 2).withInterval 3 = .ok c := rfl
  obtain ⟨replies, a, d, ns, hruns, haudit, ⟨-, -, hopened⟩, hprocessed, -, -, hincrements,
    hpruned, hseals⟩ := accounts_square hb hc ops
  have hseen : ((audited ops {}).run c).result.toOption.map
        (fun a => (a.gone.length, a.opened, a.increments)) = some (1, 3, 5) ∧
      ((audited ops {}).run c).state.size = 2 ∧ ((audited ops {}).run c).state.processed = 4 ∧
      ((audited ops {}).run c).state.meters.lateRecords = 1 := by
    decide +kernel
  rw [haudit] at hseen
  obtain ⟨ha, hsize, hprocessed', hlate⟩ := hseen
  simp only [Except.toOption, Option.map_some, Option.some.injEq, Prod.mk.injEq] at ha
  obtain ⟨hgone, hopened', hincrements'⟩ := ha
  exact ⟨_, c, a, replies, d, ns, hb, hc, hruns, haudit, hsize, hgone, hopened', hopened,
    hprocessed', hprocessed, hincrements', hlate, hincrements, hpruned, hseals⟩

end Census

end Muster
