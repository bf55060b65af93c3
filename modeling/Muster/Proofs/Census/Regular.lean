import Muster.Proofs.Census.Cycle
import Muster.Proofs.Census.Fresh

/-!
# Proofs/Census/Regular — a census during a pass

From its first record to the end of its hand-off a census is `Regular`: in order, and sealed exactly
if there is a hand-off, which is then final. Counting, sealing and handing out keep it so.
-/

namespace Muster.Census

variable {c d : Census} {seals late : Nat}

/-- **A census during a pass**, given how often it had been sealed and how many increments it had
refused before: its mark tells whether there is a hand-off, which is final. -/
structure Regular (seals late : Nat) (c : Census) : Prop where
  sound : c.Sound
  healthy : c.Healthy
  handsOff : c.HandsOff
  mark : c.sealed = c.handOff.isSome
  punctual : c.meters.lateRecords = late
  seals_eq : c.seals = seals + c.sealed.toNat

theorem Fresh.regular (h : c.Fresh) : c.Regular c.seals c.meters.lateRecords where
  sound := h.sound
  healthy := h.healthy
  handsOff ho hh := absurd (h.handOff.symm.trans hh) (by simp)
  mark := by
    rw [h.mark, h.handOff]
    rfl
  punctual := rfl
  seals_eq := by
    rw [h.mark]
    rfl

namespace Regular

theorem handOff_eq_none (h : c.Regular seals late) (ho : c.sealed = false) : c.handOff = none := by
  have hm := h.mark
  rw [ho] at hm
  exact Option.isNone_iff_eq_none.1 (Option.isSome_eq_false_iff.1 hm.symm)

/-- **Counting keeps an open census regular.** -/
theorem working (h : c.Regular seals late) (ho : c.sealed = false) (hd : c.Working d) :
    d.Regular seals late where
  sound := hd.steady.sound
  healthy := hd.healthy
  handsOff ho' hh := by
    rw [hd.steady.handOff, h.handOff_eq_none ho] at hh
    cases hh
  mark := by rw [hd.steady.mark, hd.steady.handOff, h.mark]
  punctual := (hd.steady.punctual ho).trans h.punctual
  seals_eq := by rw [hd.steady.seals, hd.steady.mark, h.seals_eq]

/-- **Whatever is counted, a census stays regular**; only what comes too late may have grown. -/
theorem worked (h : c.Regular seals late) (hd : c.Working d) :
    d.Regular seals d.meters.lateRecords where
  sound := hd.steady.sound
  healthy := hd.healthy
  handsOff ho hh := by
    rw [hd.steady.handOff] at hh
    have hf := h.handsOff ho hh
    exact hf.congr (hd.steady.mark.trans hf.mark) (hd.steady.frozen hf.mark).1 rfl
  mark := by rw [hd.steady.mark, hd.steady.handOff, h.mark]
  punctual := rfl
  seals_eq := by rw [hd.steady.seals, hd.steady.mark, h.seals_eq]

theorem claimed (h : c.Regular seals late) {ho : HandOff} (hh : c.handOff = some ho) :
    (c.claimed ho).Regular seals late where
  sound := h.sound.congr rfl rfl
  healthy := h.healthy.congr rfl rfl
  handsOff ho' hh' := by
    obtain rfl : ho.take.2 = ho' := Option.some.inj hh'
    have hf := h.handsOff ho hh
    exact hf.congr hf.mark rfl ho.keys_take
  mark := by
    have hm := h.mark
    rw [hh] at hm
    exact hm
  punctual := h.punctual
  seals_eq := h.seals_eq

/-- **The seal takes effect on an open census**, and counts. -/
theorem sealOff (h : c.Regular seals late) (ho : c.sealed = false) :
    c.sealOff.Regular seals late where
  sound := h.sound.congr rfl rfl
  healthy := h.healthy.congr rfl rfl
  handsOff ho' hh' := by
    obtain rfl := Option.some.inj hh'
    exact c.final_sealOff
  mark := rfl
  punctual := h.punctual
  seals_eq := by
    have hs := h.seals_eq
    rw [ho] at hs
    show c.seals + 1 = _
    rw [hs]
    rfl

end Regular

end Muster.Census
