import Muster.Crew.Crash

/-!
# Proofs/Crew/Reporting — what a crew reports of the workers that have broken off

What breaks off in a worker is recorded as it happens; the worker may go on after it, or end by it
(`Fate`). The records of all workers come in any order, but those of one worker come in the order in
which they happened to it (`Crash.Interleaved`). The report of the crew has to find the workers that
have ended, and in it one record for each of them.

* `Crash.Interleaved.mem_casualties` — whose end is reported.
* `Crash.Interleaved.report_eq` — with which record: the first of the worker, which need not be the
  one that ended it.
-/

namespace Muster

/-- **What breaks off in a worker**, with what texts: what it goes on after, in order, and what ends
it, if anything does. -/
structure Fate where
  survived : List (Option String) := []
  ending : Option (Option String) := none

/-- The records of a worker with that fate. -/
def Fate.crashes (f : Fate) (w : Nat) : List Crash :=
  f.survived.map (fun text => { worker := w, message := text, fatal := false }) ++
    f.ending.toList.map fun text => { worker := w, message := text }

/-- Somebody who goes on has no fatal record. -/
theorem Fate.any_fatal_crashes (f : Fate) (w : Nat) :
    (f.crashes w).any Crash.fatal = f.ending.isSome := by
  obtain ⟨survived, ending⟩ := f
  have hsurvived : (survived.map fun text =>
      ({ worker := w, message := text, fatal := false } : Crash)).any Crash.fatal = false := by
    simp
  rw [crashes, List.any_append, hsurvived, Bool.false_or]
  cases ending <;> rfl

/-- The first record of somebody who has ended. -/
theorem Fate.head?_crashes {f : Fate} {text : Option String} (h : f.ending = some text) (w : Nat) :
    ∃ c, (f.crashes w).head? = some c ∧ c.message = f.survived.headD text := by
  obtain ⟨_ | ⟨first, survived⟩, ending⟩ := f
  · obtain rfl : ending = some text := h
    exact ⟨_, rfl, rfl⟩
  · exact ⟨_, rfl, rfl⟩

namespace Crash

variable {fates : List Fate} {crashes : List Crash} {w : Nat}

/-- **The records of some workers, in the order in which things happened**: those of each worker are
in the order of its fate. -/
def Interleaved (fates : List Fate) (crashes : List Crash) : Prop :=
  ∀ w f, fates[w]? = some f → crashes.filter (·.worker = w) = f.crashes w

namespace Interleaved

/-- **Those who have ended**, and nobody else, are reported. -/
theorem mem_casualties (h : Interleaved fates crashes) :
    w ∈ casualties fates.length crashes ↔ ∃ f, fates[w]? = some f ∧ f.ending.isSome := by
  have hany : ∀ f, fates[w]? = some f →
      (crashes.any fun c => c.worker = w && c.fatal) = f.ending.isSome := by
    intro f hf
    rw [← f.any_fatal_crashes w, ← h w f hf, List.any_filter]
  rw [casualties, List.mem_filter, List.mem_range]
  constructor
  · rintro ⟨hw, hfatal⟩
    have hf := List.getElem?_eq_getElem hw
    exact ⟨fates[w], hf, (hany _ hf).symm.trans hfatal⟩
  · rintro ⟨f, hf, hended⟩
    exact ⟨(List.getElem?_eq_some_iff.1 hf).1, (hany f hf).trans hended⟩

/-- Nobody is reported exactly if nobody has ended. -/
theorem casualties_eq_nil_iff (h : Interleaved fates crashes) :
    casualties fates.length crashes = [] ↔ ∀ f ∈ fates, f.ending = none := by
  rw [List.eq_nil_iff_forall_not_mem]
  constructor
  · intro hnobody f hf
    obtain ⟨w, hw⟩ := List.mem_iff_getElem?.1 hf
    have hnot := fun hended => hnobody w (h.mem_casualties.2 ⟨f, hw, hended⟩)
    exact Option.not_isSome_iff_eq_none.1 hnot
  · intro hall w hw
    obtain ⟨f, hf, hended⟩ := h.mem_casualties.1 hw
    rw [hall f (List.mem_of_getElem? hf)] at hended
    cases hended

/-- **What is reported of a worker that has ended** is the first of its records. -/
theorem report_eq (h : Interleaved fates crashes) {f : Fate} {text : Option String}
    (hf : fates[w]? = some f) (hended : f.ending = some text) :
    report crashes w =
      { worker := w, message := f.survived.headD text, recorded := true } := by
  obtain ⟨c, hc, hmessage⟩ := Fate.head?_crashes hended w
  have hfind : crashes.find? (fun c => c.worker = w) = some c := by
    rw [← List.head?_filter, h w f hf, hc]
  rw [report, hfind, ← hmessage]

end Interleaved

/-- Nobody is reported twice, and lower numbers come first. -/
theorem pairwise_casualties (n : Nat) (crashes : List Crash) :
    (casualties n crashes).Pairwise (· < ·) := List.pairwise_lt_range.filter _

theorem worker_report (recorded : List Crash) (w : Nat) : (report recorded w).worker = w := by
  rw [report]
  split <;> rfl

/-- A crew reports nothing if there is nobody to be reported, and otherwise one line for each. -/
theorem join_cases (n : Nat) (crashes recorded : List Crash) :
    (casualties n crashes = [] ∧ join n crashes recorded = .ok ()) ∨
      (casualties n crashes ≠ [] ∧
        join n crashes recorded = .error ((casualties n crashes).map (report recorded))) := by
  rw [join]
  cases casualties n crashes with
  | nil => exact .inl ⟨rfl, rfl⟩
  | cons w failed => exact .inr ⟨nofun, rfl⟩

/-- **The report of a crew in which everything is recorded.** There is one exactly if a worker has
ended by breaking off. It has one line for each worker that has, in the order of their numbers, with
the text of the first thing that broke off in that worker: that is what ended it, unless the worker
had gone on after something before. -/
theorem join_reports (h : Interleaved fates crashes) :
    (join fates.length crashes crashes = .ok () ↔ ∀ f ∈ fates, f.ending = none) ∧
      ∀ cs, join fates.length crashes crashes = .error cs →
        (cs.map Casualty.worker).Pairwise (· < ·) ∧
        (∀ w, w ∈ cs.map Casualty.worker ↔ ∃ f, fates[w]? = some f ∧ f.ending.isSome) ∧
        ∀ c ∈ cs, ∃ f text, fates[c.worker]? = some f ∧ f.ending = some text ∧
          c.recorded = true ∧ c.message = f.survived.headD text := by
  obtain ⟨hnobody, hjoin⟩ | ⟨hsomebody, hjoin⟩ := join_cases fates.length crashes crashes
  · rw [hjoin]
    exact ⟨iff_of_true rfl (h.casualties_eq_nil_iff.1 hnobody), fun cs hcs => nomatch hcs⟩
  · rw [hjoin]
    refine ⟨iff_of_false nofun fun hall => hsomebody (h.casualties_eq_nil_iff.2 hall), ?_⟩
    rintro cs hcs
    obtain rfl := Except.error.inj hcs
    have hworkers : ((casualties fates.length crashes).map (report crashes)).map Casualty.worker =
        casualties fates.length crashes := by
      rw [List.map_map]
      exact List.map_id'' (worker_report crashes) _
    rw [hworkers]
    refine ⟨pairwise_casualties _ _, fun w => h.mem_casualties, fun c hc => ?_⟩
    obtain ⟨w, hw, rfl⟩ := List.mem_map.1 hc
    obtain ⟨f, hf, hended⟩ := h.mem_casualties.1 hw
    obtain ⟨text, htext⟩ := Option.isSome_iff_exists.1 hended
    rw [h.report_eq hf htext]
    exact ⟨f, text, hf, htext, rfl, rfl⟩

/-- Of three workers one goes on, one ends, and one goes on first and ends later. -/
theorem join_reports_three :
    let fates : List Fate := [{ survived := [some "x"] }, { ending := some (some "y") },
      { survived := [some "x"], ending := some none }]
    let crashes : List Crash := [{ worker := 2, message := some "x", fatal := false },
      { worker := 1, message := some "y" }, { worker := 0, message := some "x", fatal := false },
      { worker := 2, message := none }]
    Interleaved fates crashes ∧ ∃ cs, join 3 crashes crashes = .error cs ∧
      (cs.map Casualty.worker).Pairwise (· < ·) ∧ 1 ∈ cs.map Casualty.worker ∧
        0 ∉ cs.map Casualty.worker := by
  intro fates crashes
  have h : Interleaved fates crashes := by
    intro w f hf
    obtain ⟨hw, rfl⟩ := List.getElem?_eq_some_iff.1 hf
    have hall : ∀ w : Fin 3, crashes.filter (·.worker = w.1) = (fates[w.1]).crashes w := by decide
    exact hall ⟨w, hw⟩
  have hjoin : join 3 crashes crashes = .error [report crashes 1, report crashes 2] := rfl
  obtain ⟨hworkers, hmem, -⟩ := (join_reports h).2 _ hjoin
  refine ⟨h, _, hjoin, hworkers, (hmem 1).2 ⟨_, rfl, rfl⟩, fun hzero => ?_⟩
  obtain ⟨f, hf, hended⟩ := (hmem 0).1 hzero
  obtain rfl := Option.some.inj hf
  cases hended

/-- **The record need not be of what ended the worker.** It goes on after one thing and ends by
another; it is the first that is reported. -/
theorem join_reports_earlier :
    let fates : List Fate := [{ survived := [some "a"], ending := some (some "b") }]
    let crashes : List Crash := [{ worker := 0, message := some "a", fatal := false },
      { worker := 0, message := some "b" }]
    Interleaved fates crashes ∧
      join 1 crashes crashes = .error [{ worker := 0, message := some "a", recorded := true }] := by
  intro fates crashes
  refine ⟨fun w f hf => ?_, rfl⟩
  obtain ⟨hw, rfl⟩ := List.getElem?_eq_some_iff.1 hf
  obtain rfl : w = 0 := Nat.lt_one_iff.1 hw
  rfl

end Crash

end Muster
