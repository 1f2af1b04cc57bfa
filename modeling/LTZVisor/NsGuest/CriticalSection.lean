/- LTZVisor/NsGuest/CriticalSection
   kind: property
   digest: The priority that the set-up leaves lets the tick into every critical section. -/

import LTZVisor.Lib.Runs
import LTZVisor.NsGuest.Tick

set_option autoImplicit false
set_option relaxedAutoImplicit false

namespace LTZVisor.NsGuest.CriticalSection

open LTZVisor.Lib.Memory LTZVisor.Lib.Runs LTZVisor.Drivers.Ttc LTZVisor.NsGuest.Tick

variable {forwards : Distributor → Bool} {d : Distributor} {p p' : Port}

/-- No run signals the tick while a critical section is open. -/
def TickStaysOut (forwards : Distributor → Bool) (d : Distributor) : Prop :=
  ∀ p p', Started p → Run (PortStep forwards d) p p' → p'.ulCriticalNesting > 0 →
    ¬Signalled forwards d p'

/-- Between the first mask and the last unmask the mask register holds the mask of the port. -/
structure Masked (p : Port) : Prop where
  section_ : p.ulCriticalNesting > 0 → p.iccPmr = portMask
  entering : p.place = .entering → p.iccPmr = portMask
  leaving : p.place = .leaving → p.ulCriticalNesting = 0

private theorem masked_of_started (start : Started p) : Masked p := by
  obtain ⟨place, nesting, -⟩ := start
  refine ⟨?_, ?_, ?_⟩
  · intro nested
    rw [nesting] at nested
    exact absurd nested (by decide)
  · intro entering
    rw [place] at entering
    cases entering
  · intro leaving
    rw [place] at leaving
    cases leaving

private theorem not_signalled_of_masked
    (low : portMask.toNat ≤ (priorityByte d ttc1Ttcx2Interrupt).toNat)
    (mask : p.iccPmr = portMask) : ¬Signalled forwards d p := by
  rintro ⟨-, -, higher⟩
  rw [mask] at higher
  omega

private theorem masked_preserved
    (out : forwards d = false ∨ portMask.toNat ≤ (priorityByte d ttc1Ttcx2Interrupt).toNat) :
    Preserves (PortStep forwards d) Masked := by
  intro p p' masked step
  cases step with
  | setMask at_ => exact ⟨fun _ => rfl, fun _ => rfl, nofun⟩
  | count at_ => exact ⟨fun _ => masked.entering at_, nofun, nofun⟩
  | uncount at_ nested =>
    have mask := masked.section_ nested
    refine ⟨fun _ => mask, fun _ => mask, ?_⟩
    dsimp only
    split_ifs with last
    · exact fun _ => last
    · exact nofun
  | clearMask at_ =>
    have none := masked.leaving at_
    refine ⟨fun nested => ?_, nofun, nofun⟩
    rw [none] at nested
    exact absurd nested (by decide)
  | pend => exact ⟨masked.section_, masked.entering, masked.leaving⟩
  | tick signalled =>
    have open_ : p.iccPmr ≠ portMask := by
      intro mask
      rcases out with off | low
      · rw [signalled.2.1] at off
        cases off
      · exact not_signalled_of_masked low mask signalled
    exact ⟨fun nested => absurd (masked.section_ nested) open_,
      fun entering => absurd (masked.entering entering) open_, masked.leaving⟩

private theorem tickStaysOut_iff (forwards : Distributor → Bool) (d : Distributor) :
    TickStaysOut forwards d ↔
      forwards d = false ∨ portMask.toNat ≤ (priorityByte d ttc1Ttcx2Interrupt).toNat := by
  constructor
  · intro staysOut
    by_contra neither
    rw [not_or, not_le, Bool.not_eq_false] at neither
    obtain ⟨on, high⟩ := neither
    let start : Port := ⟨.running, 0, portUnmaskValue, true⟩
    have run : Run (PortStep forwards d) start ⟨.running, 1, portMask, true⟩ :=
      (Relation.ReflTransGen.single (.setMask start rfl)).tail (.count _ rfl)
    exact staysOut start _ ⟨rfl, rfl, rfl⟩ run (by decide) ⟨rfl, on, high⟩
  · intro out p p' start run nested signalled
    have masked := (masked_preserved out).run (masked_of_started start) run
    rcases out with off | low
    · rw [signalled.2.1] at off
      cases off
    · exact not_signalled_of_masked low (masked.section_ nested) signalled

private theorem field_shift (interrupt : Word) :
    (interrupt % 4 * 8 + 4).toNat = (interrupt % 4).toNat * 8 + 4 := by
  have small : (interrupt % 4).toNat < 4 := by
    rw [BitVec.toNat_umod]
    exact Nat.mod_lt _ (by decide)
  generalize interrupt % 4 = k at small
  bv_omega

private theorem priorityByte_set (interrupt priority : Word) (d : Distributor) :
    priorityByte (interruptPrioritySet interrupt priority d).2 interrupt =
      priority.setWidth 8 <<< 4 ||| (priorityByte d interrupt &&& 0x0F) := by
  have small : (interrupt % 4).toNat < 4 := by
    rw [BitVec.toNat_umod]
    exact Nat.mod_lt _ (by decide)
  unfold priorityByte interruptPrioritySet
  dsimp only
  rw [Function.update_self]
  generalize d.icdIpr (interrupt / 4) = old
  apply BitVec.eq_of_getLsbD_eq
  intro j hj
  simp only [BitVec.getLsbD_extractLsb', BitVec.getLsbD_or, BitVec.getLsbD_and, BitVec.getLsbD_not,
    BitVec.shiftLeft_eq', field_shift, BitVec.getLsbD_shiftLeft, BitVec.getLsbD_setWidth]
  generalize (interrupt % 4).toNat = k at small
  have nibble (w n : Nat) : (0xF#w).getLsbD n = (decide (n < w) && decide (n < 4)) := by
    rw [BitVec.getLsbD_ofNat, Nat.testBit_two_pow_sub_one 4 n]
  have nibble8 : (0x0F : Byte).getLsbD j = (decide (j < 8) && decide (j < 4)) := nibble 8 j
  have nibble32 (n : Nat) : (0xF : Word).getLsbD n = (decide (n < 32) && decide (n < 4)) :=
    nibble 32 n
  rw [nibble8]
  simp only [nibble32]
  by_cases low : j < 4
  · grind
  · grind

/-- `14 << (70 % 32)` has no bit in the field that is kept of it, so the set-up leaves the
highest priority but for the lower half of the byte. -/
private theorem setup_priority_lt (d : Distributor) (ts : Timers) :
    (priorityByte (freeRtosSetupTtcTickInterrupt d ts).1 ttc1Ttcx2Interrupt).toNat <
      portMask.toNat := by
  have lost : (14#32 <<< (ttc1Ttcx2Interrupt % 32)).setWidth 8 <<< 4 = 0#8 := by decide
  unfold freeRtosSetupTtcTickInterrupt
  dsimp only
  rw [priorityByte_set, lost, BitVec.zero_or, BitVec.toNat_and]
  exact Nat.lt_of_le_of_lt Nat.and_le_right (by decide)

/-- After the set-up the tick is above the mask of the port, and it gets into critical sections
whatever was in the distributor, unless that signals no tick at all. -/
theorem setup_tickStaysOut_iff (forwards : Distributor → Bool) (d : Distributor) (ts : Timers) :
    (priorityByte (freeRtosSetupTtcTickInterrupt d ts).1 ttc1Ttcx2Interrupt).toNat <
        portMask.toNat ∧
      (TickStaysOut forwards (freeRtosSetupTtcTickInterrupt d ts).1 ↔
        forwards (freeRtosSetupTtcTickInterrupt d ts).1 = false) := by
  have high := setup_priority_lt d ts
  refine ⟨high, ?_⟩
  rw [tickStaysOut_iff, or_iff_left]
  exact Nat.not_le_of_lt high

/-- From a cleared distributor the tick is signalled in a critical section. -/
theorem tick_gets_in :
    ¬∀ (forwards : Distributor → Bool) (d : Distributor) (ts : Timers),
      TickStaysOut forwards (freeRtosSetupTtcTickInterrupt d ts).1 := by
  intro claim
  have staysOut := claim (fun _ => true) ⟨fun _ => 0, fun _ => 0, fun _ => 0⟩ reset
  rw [tickStaysOut_iff] at staysOut
  rcases staysOut with off | low
  · cases off
  · exact Nat.not_le_of_lt (setup_priority_lt _ _) low

end LTZVisor.NsGuest.CriticalSection
