/- LTZVisor/Drivers/GicInterface
   kind: model
   digest: The initialisation of the CPU interface, whose loop finds the interface disabled. -/

import LTZVisor.Drivers.Gic
import LTZVisor.Lib.GicCpu
import LTZVisor.Lib.Loop

set_option autoImplicit false
set_option relaxedAutoImplicit false

namespace LTZVisor.Drivers.GicInterface

open LTZVisor.Lib.Memory LTZVisor.Lib.GicCpu LTZVisor.Lib.Loop LTZVisor.Drivers.Gic

def gicAckIntidMask : Word := 0x000003FF#32
def fakeInterrupt : Word := 1023#32

structure CpuInterface where
  iccicr : Word
  iccpmr : Word
  iccbpr : Word
  gic : Gic

/-- A read of `ICCIAR`. An interface with both enables of `ICCICR` clear answers 1023. -/
def CpuInterface.readIar (c : CpuInterface) : Word × CpuInterface :=
  if c.iccicr &&& 3#32 = 0#32 then (spurious, { c with gic := c.gic.absorb })
  else (c.gic.readIar.1, { c with gic := c.gic.readIar.2 })

def CpuInterface.writeEoir (c : CpuInterface) (v : Word) : CpuInterface :=
  { c with gic := c.gic.writeEoir v }

/-- A pass of the loop that clears pending interrupts. -/
def clearPending (c : CpuInterface) : Turn CpuInterface CpuInterface :=
  let (temp, c) := c.readIar
  if temp &&& gicAckIntidMask = fakeInterrupt then .leave c else .again (c.writeEoir temp)

/-- `none` when the loop is still running after `fuel` passes. -/
def interruptInterfaceInit (fuel : Nat) (d : Distributor) (c : CpuInterface) :
    Option (Bool × Distributor × CpuInterface) := do
  let d := interruptInterfaceRegisters d
  let c := { c with iccicr := 0x00000000, iccpmr := 0x000000F0, iccbpr := 0x00000003 }
  let c ← loop clearPending fuel c
  let c := { c with iccicr := 0x00000009 }
  let c := { c with iccicr := c.iccicr ||| 0x00000002 }
  return (true, d, c)

/-- While the interface is disabled the first pass is the last one. -/
private theorem clearPending_disabled {c : CpuInterface} (disabled : c.iccicr &&& 3#32 = 0#32) :
    clearPending c = .leave { c with gic := c.gic.absorb } := by
  rw [clearPending, CpuInterface.readIar, if_pos disabled]
  exact if_pos (by decide)

theorem interruptInterfaceInit_succ (fuel : Nat) (d : Distributor) (c : CpuInterface) :
    interruptInterfaceInit (fuel + 1) d c =
      some (true, interruptInterfaceRegisters d, ⟨11#32, 0xF0#32, 3#32, c.gic.absorb⟩) := by
  have pass := clearPending_disabled (c := ⟨0#32, 0xF0#32, 3#32, c.gic⟩) BitVec.zero_and
  have leaves := loop_of_leave pass fuel
  simp only [interruptInterfaceInit, Option.bind_eq_bind]
  exact congrArg (Option.bind · _) leaves

end LTZVisor.Drivers.GicInterface
