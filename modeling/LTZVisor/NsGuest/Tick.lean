/- LTZVisor/NsGuest/Tick
   kind: model
   digest: The set-up of the tick of the non-secure guest and the critical sections of its port. -/

import LTZVisor.Drivers.Ttc

set_option autoImplicit false
set_option relaxedAutoImplicit false

namespace LTZVisor.NsGuest.Tick

open LTZVisor.Lib.Memory LTZVisor.Drivers.Ttc

def ttc1Ttcx2Interrupt : Word := 70#32

/-- The registers of the distributor that the guest writes for an interrupt. -/
structure Distributor where
  icdIser : Word → Word
  icdIpr : Word → Word
  icdIptr : Word → Word

/-- A one written to a set-enable or clear-enable register acts on its interrupt alone. -/
def interruptEnable (interrupt enable : Word) (d : Distributor) : Distributor :=
  let word := interrupt / 32
  let interrupt := 1#32 <<< (interrupt % 32)
  let enabled := d.icdIser word
  let enabled := if enable ≠ 0 then enabled ||| interrupt else enabled &&& ~~~interrupt
  { d with icdIser := Function.update d.icdIser word enabled }

def interruptPrioritySet (interrupt priority : Word) (d : Distributor) : Word × Distributor :=
  let priority := priority &&& 0xF
  let word := interrupt / 4
  let bitShift := interrupt % 4 * 8 + 4
  let oldPriority := d.icdIpr word
  let temp := oldPriority &&& ~~~(0xF#32 <<< bitShift)
  let temp := temp ||| priority <<< bitShift
  ((oldPriority >>> bitShift) &&& 0xF, { d with icdIpr := Function.update d.icdIpr word temp })

def interruptTargetSet (interrupt cpu set : Word) (d : Distributor) : Distributor :=
  let word := interrupt / 4
  let bitShift := interrupt % 4 * 8
  let cpu := (1#32 <<< cpu) <<< bitShift
  let temp := d.icdIptr word
  let temp := if set ≠ 0 then temp ||| cpu else temp &&& ~~~cpu
  { d with icdIptr := Function.update d.icdIptr word temp }

/-- The read that clears the timer's own interrupt flag has no effect on these registers. -/
def freeRtosSetupTtcTickInterrupt (d : Distributor) (ts : Timers) : Distributor × Timers :=
  let ts := (ttcInit ttc1 ttcx2 interval ts).2
  let d := interruptEnable ttc1Ttcx2Interrupt 1 d
  let d := interruptTargetSet ttc1Ttcx2Interrupt 0 1 d
  let d := (interruptPrioritySet ttc1Ttcx2Interrupt (14#32 <<< (ttc1Ttcx2Interrupt % 32)) d).2
  let ts := (ttcRequest ttc1 ttcx2 10000 ts).2
  let ts := (ttcEnable ttc1 ttcx2 ts).2
  (d, ts)

def configMaxApiCallInterruptPriority : Word := 10#32
def portPriorityShift : Nat := 4
def portUnmaskValue : Word := 0xFF#32

/-- What the port writes to the mask register in a critical section. -/
def portMask : Word := configMaxApiCallInterruptPriority <<< portPriorityShift

/-- Where a task is: outside the two functions, or between two of their steps. -/
inductive Place
  | running | entering | leaving
deriving DecidableEq

structure Port where
  place : Place
  ulCriticalNesting : Word
  iccPmr : Word
  pending : Bool

def priorityByte (d : Distributor) (interrupt : Word) : Byte :=
  (d.icdIpr (interrupt / 4)).extractLsb' ((interrupt % 4).toNat * 8) 8

/-- A pending tick is signalled when its priority is above the mask, unless the distributor
holds it back for another reason. -/
def Signalled (forwards : Distributor → Bool) (d : Distributor) (p : Port) : Prop :=
  p.pending = true ∧ forwards d = true ∧
    (priorityByte d ttc1Ttcx2Interrupt).toNat < p.iccPmr.toNat

/-- One step of a task in `vPortEnterCritical` or `vPortExitCritical`, of the timer, or of the
processor that takes the tick. -/
inductive PortStep (forwards : Distributor → Bool) (d : Distributor) : Port → Port → Prop
  | setMask (p : Port) (at_ : p.place = .running) :
      PortStep forwards d p { p with place := .entering, iccPmr := portMask }
  | count (p : Port) (at_ : p.place = .entering) :
      PortStep forwards d p
        { p with place := .running, ulCriticalNesting := p.ulCriticalNesting + 1 }
  | uncount (p : Port) (at_ : p.place = .running) (nested : p.ulCriticalNesting > 0) :
      PortStep forwards d p
        { p with
          place := if p.ulCriticalNesting - 1 = 0 then .leaving else .running
          ulCriticalNesting := p.ulCriticalNesting - 1 }
  | clearMask (p : Port) (at_ : p.place = .leaving) :
      PortStep forwards d p { p with place := .running, iccPmr := portUnmaskValue }
  | pend (p : Port) : PortStep forwards d p { p with pending := true }
  /-- `FreeRTOS_Tick_Handler` masks the interrupts, counts the tick and unmasks them. -/
  | tick (p : Port) (signalled : Signalled forwards d p) :
      PortStep forwards d p { p with pending := false, iccPmr := portUnmaskValue }

structure Started (p : Port) : Prop where
  place : p.place = .running
  nesting : p.ulCriticalNesting = 0
  mask : p.iccPmr = portUnmaskValue

end LTZVisor.NsGuest.Tick
