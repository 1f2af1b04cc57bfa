/- LTZVisor/Arm/Machine
   kind: library
   digest: The banked registers, system registers and memory of an ARMv7-A core with TrustZone. -/

import LTZVisor.Arm.Psr

set_option autoImplicit false
set_option relaxedAutoImplicit false

namespace LTZVisor.Arm

open LTZVisor.Lib.Memory

/-- The register banks. System mode has no bank of its own: it uses the one of User mode. -/
inductive Bank
  | usr | fiq | irq | svc | mon | abt | und
  deriving DecidableEq

inductive Reg
  | r0 | r1 | r2 | r3 | r4 | r5 | r6 | r7 | r8 | r9 | r10 | r11 | r12 | sp | lr
  deriving DecidableEq

def fiqMode : BitVec 5 := 0x11#5
def irqMode : BitVec 5 := 0x12#5
def svcMode : BitVec 5 := 0x13#5
def monMode : BitVec 5 := 0x16#5
def abtMode : BitVec 5 := 0x17#5
def undMode : BitVec 5 := 0x1B#5
def sysMode : BitVec 5 := 0x1F#5

/-- The bank a mode selects; User, System and the unallocated encodings use the User bank. -/
def bankOf (mode : BitVec 5) : Bank :=
  if mode = fiqMode then .fiq
  else if mode = irqMode then .irq
  else if mode = svcMode then .svc
  else if mode = monMode then .mon
  else if mode = abtMode then .abt
  else if mode = undMode then .und
  else .usr

@[simp] theorem bankOf_fiqMode : bankOf fiqMode = .fiq := rfl
@[simp] theorem bankOf_irqMode : bankOf irqMode = .irq := rfl
@[simp] theorem bankOf_svcMode : bankOf svcMode = .svc := rfl
@[simp] theorem bankOf_monMode : bankOf monMode = .mon := rfl
@[simp] theorem bankOf_abtMode : bankOf abtMode = .abt := rfl
@[simp] theorem bankOf_undMode : bankOf undMode = .und := rfl
@[simp] theorem bankOf_sysMode : bankOf sysMode = .usr := rfl

/-- The bank that holds a register while `b` is selected: r13 and r14 are banked by every
bank, r8 to r12 by FIQ mode alone and r0 to r7 by none. -/
@[simp] def Bank.home (b : Bank) : Reg → Bank
  | .sp | .lr => b
  | .r8 | .r9 | .r10 | .r11 | .r12 => if b = .fiq then .fiq else .usr
  | _ => .usr

inductive World
  | secure | nonSecure
  deriving DecidableEq

/-- The CP15 registers that are saved and restored with a guest. -/
inductive Cp15Reg
  | csselr | sctlr | actlr | ttbr0 | ttbr1 | ttbcr | dacr | dfsr | ifsr | dfar | ifar | par
  | prrr | nmrr | vbar | fcseidr | contextidr | tpidrurw | tpidruro | tpidrprw
  deriving DecidableEq

/-- The bank of a CP15 register that an access from a world reaches. The auxiliary control
register is common to both worlds on the Cortex-A9; all others are banked. -/
def Cp15Reg.bank (r : Cp15Reg) (w : World) : World := if r = .actlr then .secure else w

/-- A core, its memory and the devices `D` behind its peripheral window. While a guest runs,
`pc` is the address it continues at. -/
@[ext] structure Machine (D : Type) where
  regs : Bank → Reg → Word
  spsr : Bank → Word
  cpsr : Psr
  pc : Word
  scr : Word
  cp15 : World → Cp15Reg → Word
  mem : Mem
  dev : D

/-- The bits of the secure configuration register that route interrupts between worlds. -/
def scrNs : Word := 0x1#32
def scrIrq : Word := 0x2#32
def scrFiq : Word := 0x4#32
def scrFw : Word := 0x10#32

namespace Machine

variable {D : Type}

@[simp] def bank (m : Machine D) : Bank := bankOf m.cpsr.mode

/-- The world that SCR.NS selects. Monitor mode is secure whatever it says, but its CP15
accesses go to the bank of this world. -/
def world (m : Machine D) : World := if m.scr &&& scrNs = 0#32 then .secure else .nonSecure

theorem world_congr {m m' : Machine D} (scr : m'.scr = m.scr) : m'.world = m.world := by
  rw [world, scr, world]

theorem world_of_bit {m : Machine D} (bit : m.scr.getLsbD 0 = true) : m.world = .nonSecure := by
  rw [world, if_neg]
  intro zero
  have masked : (m.scr &&& scrNs).getLsbD 0 = true := by
    rw [BitVec.getLsbD_and, bit]
    rfl
  rw [zero] at masked
  cases masked

@[simp] def reg (m : Machine D) (r : Reg) : Word := m.regs (m.bank.home r) r

@[simp] def setPhys (m : Machine D) (b : Bank) (r : Reg) (v : Word) : Machine D :=
  { m with regs := fun b' r' => if b' = b ∧ r' = r then v else m.regs b' r' }

@[simp] def setReg (m : Machine D) (r : Reg) (v : Word) : Machine D := m.setPhys (m.bank.home r) r v

@[simp] def setSpsr (m : Machine D) (b : Bank) (v : Word) : Machine D :=
  { m with spsr := fun b' => if b' = b then v else m.spsr b' }

@[simp] def readCp15 (m : Machine D) (r : Cp15Reg) : Word := m.cp15 (r.bank m.world) r

@[simp] def writeCp15 (m : Machine D) (r : Cp15Reg) (v : Word) : Machine D :=
  { m with cp15 := fun w r' => if w = r.bank m.world ∧ r' = r then v else m.cp15 w r' }

end Machine

end LTZVisor.Arm
