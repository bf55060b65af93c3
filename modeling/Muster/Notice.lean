/-!
# Notice — what is logged and what is metered

Calls that change a census or complete a phase of a barrier leave notices, one log line each. A
census counts what happens to it in its `Meters`; the names under which the meters are published,
and what they mean, are listed in `Meters.catalogue`.
-/

namespace Muster

/-! ## Log lines -/

/-- **One line of the log.** -/
inductive Notice
  /-- keys with a count below a threshold have been removed -/
  | pruned (removed threshold left : Nat)
  /-- pruning has left more keys than the cap allows -/
  | overLimit (size threshold limit : Nat)
  /-- a census has been sealed -/
  | sealed (keys : Nat)
  /-- all parties of a barrier have arrived -/
  | phaseCompleted (phase parties : Nat)
  deriving DecidableEq, Repr

namespace Notice

/-- The level of a line. -/
def level : Notice → String
  | overLimit .. => "WARN"
  | _ => "DEBUG"

/-- The text of a line. -/
def text : Notice → String
  | pruned removed threshold left =>
    s!"pruned {removed} keys seen fewer than {threshold} times, {left} keys left"
  | overLimit size threshold limit =>
    s!"grouping map still holds {size} distinct keys after pruning keys seen fewer than " ++
      s!"{threshold} times (limit: {limit})"
  | sealed keys => s!"sealed grouping map with {keys} distinct keys"
  | phaseCompleted phase parties => s!"arrival barrier completed phase {phase} ({parties} parties)"

/-- A line with its level. -/
def line (n : Notice) : String := n.level ++ " " ++ n.text

/-- The number of distinct keys that the event behind a line published. -/
def distinctKeys? : Notice → Option Nat
  | pruned _ _ left => some left
  | sealed keys => some keys
  | _ => none

/-- The number of distinct keys last published by the events behind some lines. -/
def lastDistinctKeys (before : Nat) (ns : List Notice) : Nat :=
  ns.foldl (fun g n => n.distinctKeys?.getD g) before

end Notice

/-! ## Meters -/

/-- **What a census counts about itself.** The first five only grow; the last is the number of
distinct keys last published. Like the other numbers of a census they stand for words of 64 bits
that no run goes on long enough to fill, and have no bound here. -/
structure Meters where
  /-- increments accepted -/
  recordsProcessed : Nat := 0
  /-- increments refused because the census was sealed -/
  lateRecords : Nat := 0
  /-- passes of pruning -/
  prunePasses : Nat := 0
  /-- keys that went in passes of pruning -/
  prunedKeys : Nat := 0
  /-- how often the census was sealed -/
  seals : Nat := 0
  /-- the keys left when the census was last sealed or pruned -/
  distinctKeys : Nat := 0
  deriving DecidableEq, Inhabited, Repr

namespace Meters

/-- The counts of several censuses together, with the number of keys that was published last. -/
def total (ms : List Meters) (distinctKeys : Nat) : Meters where
  recordsProcessed := ms.foldr (·.recordsProcessed + ·) 0
  lateRecords := ms.foldr (·.lateRecords + ·) 0
  prunePasses := ms.foldr (·.prunePasses + ·) 0
  prunedKeys := ms.foldr (·.prunedKeys + ·) 0
  seals := ms.foldr (·.seals + ·) 0
  distinctKeys := distinctKeys

/-- The published name of a meter. -/
def published (name : String) : String := "grouping_" ++ name

/-- **The published readings.** -/
def readings (m : Meters) : List (String × Nat) :=
  [(published "records_processed", m.recordsProcessed), (published "late_records", m.lateRecords),
    (published "prune_passes", m.prunePasses), (published "pruned_keys", m.prunedKeys),
    (published "seals", m.seals), (published "distinct_keys", m.distinctKeys)]

/-- A published meter: its kind, name, unit and meaning. -/
structure Description where
  kind : String
  name : String
  unit : String
  meaning : String
  deriving DecidableEq, Repr

/-- **The published meters** in order. -/
def catalogue : List Description :=
  let counter (name meaning : String) : Description := ⟨"counter", published name, "count", meaning⟩
  [counter "records_processed" "Increments accepted by grouping maps before they were sealed",
    counter "late_records" "Records ignored because they arrived after the grouping map was sealed",
    counter "prune_passes" "Prune passes run to keep grouping maps under their cardinality cap",
    counter "pruned_keys" "Keys removed by prune passes",
    counter "seals" "Effective seal transitions of grouping maps",
    ⟨"gauge", published "distinct_keys", "count", "Distinct keys held by the grouping map"⟩]

end Meters

end Muster
