import Muster.Fault
import Muster.Powers

/-!
# Room — how long an array can be

An array lies in one stretch of memory, and no stretch is as long as half the address space. Asking
for a longer one is a fault at once, before any memory is looked for.

* `Room.reserve_eq_ok_iff` — what can be asked for.
-/

namespace Muster.Room

/-- The least number of bytes that no array takes. -/
def bound : Nat := 2 ^ 63

/-- **Asks for room** for some places, given the bytes that each of them takes. -/
def reserve (places width : Nat) : Except Fault Unit :=
  if places * width < bound then .ok () else .error .noRoom

/-- **There is room exactly below the bound.** -/
theorem reserve_eq_ok_iff {places width : Nat} :
    reserve places width = .ok () ↔ places * width < bound := by
  unfold reserve
  split <;> rename_i h <;> simp [h]

end Muster.Room
