import Muster.Call
import Muster.Powers

/-!
# Barrier — a rendezvous among a changing set of parties

Each party arrives once per phase. Nobody waits here: the last party to arrive is told so, and the
barrier moves on to the next phase. Parties may register between phases, until the barrier is full,
and leave at any time. A party that leaves without having arrived may thereby complete the phase
for the others; one that has arrived in the current phase takes its arrival back.

The parties are counted in a word of 64 bits, which a caller can fill (`Barrier.maxParties`). The
phases are counted in such a word too, one at a time, and no run completes so many of them: here
their number has no bound.
-/

namespace Muster

/-- **A barrier**: how many parties are registered, how many of them have arrived in the current
phase, and the number of the phase. -/
structure Barrier where
  parties : Nat
  arrived : Nat := 0
  phase : Nat := 0
  deriving DecidableEq, Inhabited, Repr

/-- What a party learns on arrival: the phase it arrived in, and whether it was the last one. -/
structure Arrival where
  phase : Nat
  last : Bool
  deriving DecidableEq, Repr

namespace Barrier

/-- A barrier for some parties, in its first phase. -/
def ofParties (n : Nat) : Barrier := { parties := n }

/-- **Moves on if every party has arrived.** -/
def tryAdvance : Call Barrier Bool := do
  let b ← Call.read
  if b.arrived < b.parties then return false
  Call.note (.phaseCompleted b.phase b.parties)
  Call.write { b with arrived := 0, phase := b.phase + 1 }
  return true

/-- The most parties that a barrier can have: their number is a word of 64 bits. -/
def maxParties : Nat := 2 ^ 64 - 1

/-- **Adds a party**, which is possible only while nobody has arrived and the barrier is not
full. -/
def register : Call Barrier Unit := do
  let b ← Call.read
  if 0 < b.arrived then Call.fail (.registeredMidPhase b.phase b.arrived b.parties)
  if maxParties ≤ b.parties then Call.fail .overflow
  Call.write { b with parties := b.parties + 1 }

/-- **Records the arrival of a party.** -/
def arrive : Call Barrier Arrival := do
  let b ← Call.read
  if b.parties ≤ b.arrived then Call.fail (.surplusArrival b.parties)
  Call.write { b with arrived := b.arrived + 1 }
  return { phase := b.phase, last := ← tryAdvance }

/-- **Removes a party that has not arrived** in the current phase; says whether that
completed it. -/
def leave : Call Barrier Bool := do
  let b ← Call.read
  if b.parties = 0 then Call.fail .noParties
  Call.write { b with parties := b.parties - 1 }
  tryAdvance

/-- **Removes a party that arrived in a given phase.** If that phase is the current one, its arrival
is taken back. Otherwise the party leaves without having arrived; that completes the phase if
somebody has arrived and nobody is missing. -/
def deregister (phase : Nat) : Call Barrier Bool := do
  let b ← Call.read
  if b.parties = 0 then Call.fail .noParties
  Call.write { b with parties := b.parties - 1 }
  if b.phase = phase then
    Call.change fun b => { b with arrived := b.arrived - 1 }
    return false
  if b.arrived = 0 then return false
  tryAdvance

/-- **Discards the arrivals** of the current phase, if there are any, and starts a new one. -/
def reset : Call Barrier Unit :=
  Call.change fun b => if 0 < b.arrived then { b with arrived := 0, phase := b.phase + 1 } else b

/-! ## What the calls do -/

theorem run_tryAdvance (b : Barrier) :
    tryAdvance.run b =
      if b.arrived < b.parties then ⟨.ok false, b, []⟩
      else ⟨.ok true, { b with arrived := 0, phase := b.phase + 1 },
        [.phaseCompleted b.phase b.parties]⟩ := by
  unfold tryAdvance
  split <;> rename_i h <;> simp [Call.run_bind, h, Except.map]

/-- **A party joins unless somebody has arrived** or the barrier is full; then nothing changes. -/
theorem run_register (b : Barrier) :
    register.run b =
      if 0 < b.arrived then ⟨.error (.registeredMidPhase b.phase b.arrived b.parties), b, []⟩
      else if maxParties ≤ b.parties then ⟨.error .overflow, b, []⟩
      else ⟨.ok (), { b with parties := b.parties + 1 }, []⟩ := by
  unfold register
  split <;> rename_i h
  · simp [Call.run_bind, h]
  · split <;> rename_i hp <;> simp [Call.run_bind, h, hp]

/-- **An arrival counts, or completes the phase** if nobody else is missing. -/
theorem run_arrive (b : Barrier) :
    arrive.run b =
      if b.parties ≤ b.arrived then ⟨.error (.surplusArrival b.parties), b, []⟩
      else if b.arrived + 1 < b.parties then
        ⟨.ok { phase := b.phase, last := false }, { b with arrived := b.arrived + 1 }, []⟩
      else
        ⟨.ok { phase := b.phase, last := true }, { b with arrived := 0, phase := b.phase + 1 },
          [.phaseCompleted b.phase b.parties]⟩ := by
  unfold arrive
  split <;> rename_i h
  · simp [Call.run_bind, h]
  · split <;> rename_i h' <;> simp [Call.run_bind, run_tryAdvance, h, h', Except.map]

/-- **A party that has not arrived leaves**, which completes the phase if nobody else is missing. -/
theorem run_leave (b : Barrier) :
    leave.run b =
      if b.parties = 0 then ⟨.error .noParties, b, []⟩
      else tryAdvance.run { b with parties := b.parties - 1 } := by
  unfold leave
  split <;> rename_i h <;> simp [Call.run_bind, h]

/-- **A party that arrived in some phase leaves.** -/
theorem run_deregister (b : Barrier) (phase : Nat) :
    (deregister phase).run b =
      if b.parties = 0 then ⟨.error .noParties, b, []⟩
      else if b.phase = phase then
        ⟨.ok false, { b with parties := b.parties - 1, arrived := b.arrived - 1 }, []⟩
      else if b.arrived = 0 then ⟨.ok false, { b with parties := b.parties - 1 }, []⟩
      else tryAdvance.run { b with parties := b.parties - 1 } := by
  unfold deregister
  split <;> rename_i h
  · simp [Call.run_bind, h]
  · split <;> rename_i hp
    · simp [Call.run_bind, h, hp, Except.map]
    · split <;> rename_i ha <;> simp [Call.run_bind, h, hp, ha, Except.map]

theorem run_reset (b : Barrier) :
    reset.run b =
      ⟨.ok (), if 0 < b.arrived then { b with arrived := 0, phase := b.phase + 1 } else b, []⟩ :=
  rfl

end Barrier

end Muster
