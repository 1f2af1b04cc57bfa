/- LTZVisor/NsGuest/PortAsm
   kind: model
   digest: How the port of the non-secure guest saves, selects and restores its tasks. -/

import LTZVisor.Arm.Exception
import LTZVisor.Arm.Stack
import LTZVisor.Lib.GicCpu
import LTZVisor.NsGuest.Tick

set_option autoImplicit false
set_option relaxedAutoImplicit false

namespace LTZVisor.NsGuest.PortAsm

open LTZVisor.Lib.Memory LTZVisor.Lib.GicCpu LTZVisor.Arm LTZVisor.Arm.Instr
open LTZVisor.NsGuest.Tick (portMask portUnmaskValue)

/-- The words `2 * k` and `2 * k + 1` are the halves of the register Dk. -/
@[ext] structure Fpu where
  d : Fin 64 → Word
  fpscr : Word

/-- The FPU, the variables of the port and of the kernel, and the interrupt controller.
`pxTopOfStack`, `pxStack` and `uxPriority` are members of the TCB at an address, the second with
the size that was allocated; `tasks` are the TCBs on the kernel's lists. -/
structure Rtos where
  fpu : Fpu
  pxCurrentTCB : Addr
  xSchedulerRunning : Bool
  pxTopOfStack : Addr → Addr
  pxStack : Addr → Range
  uxPriority : Addr → Nat
  tasks : List Addr
  ulCriticalNesting : Word
  ulPortTaskHasFPUContext : Word
  ulPortYieldRequired : Word
  ulPortInterruptNesting : Word
  gic : Gic
  iccPmr : Word

abbrev Guest := Machine Rtos

/-- The addresses of the variables and of the functions that the port calls. -/
structure Symbols where
  pxCurrentTCB : Addr
  ulCriticalNesting : Addr
  ulPortTaskHasFPUContext : Addr
  ulPortYieldRequired : Addr
  ulPortInterruptNesting : Addr
  ulICCIAR : Addr
  ulICCEOIR : Addr
  ulICCPMR : Addr
  ulMaxAPIPriorityMask : Addr
  vTaskSwitchContext : Addr
  vApplicationIRQHandler : Addr

def portIccIarAddress : Addr := 0xF8F0010C#32
def portIccEoirAddress : Addr := 0xF8F00110#32
def portIccPmrAddress : Addr := 0xF8F00104#32

-- The instructions. A variable is read and written through a register that holds its address.

def ldrVar (rd : Reg) (var : Rtos → Word) : Instr Rtos := fun m => m.setReg rd (var m.dev)

def strVar (rn : Reg) (set : Rtos → Word → Rtos) : Instr Rtos :=
  fun m => { m with dev := set m.dev (m.reg rn) }

def ldrTopOfStack (rd rn : Reg) : Instr Rtos := fun m => m.setReg rd (m.dev.pxTopOfStack (m.reg rn))

def strTopOfStack (rd rn : Reg) : Instr Rtos := fun m =>
  { m with dev := { m.dev with
      pxTopOfStack := Function.update m.dev.pxTopOfStack (m.reg rn) (m.reg rd) } }

def ldrIccIar (rd : Reg) : Instr Rtos := fun m =>
  let (v, gic) := m.dev.gic.readIar
  { m with dev := { m.dev with gic } }.setReg rd v

def strIccEoir (rn : Reg) : Instr Rtos :=
  strVar rn fun dev v => { dev with gic := dev.gic.writeEoir v }

/-- `srsdb sp!, #SYS_MODE`: lr and the SPSR of the mode, on the stack of System mode. -/
def srsdbSys : Instr Rtos := fun m =>
  let sp := m.regs .usr .sp - 8#32
  { m with mem := writeWords m.mem sp [m.reg .lr, m.spsr m.bank] }.setPhys .usr .sp sp

/-- The address that a branch to `v` goes to, in Thumb or in ARM state. -/
def branchTarget (thumb : Bool) (v : Word) : Addr := v &&& if thumb then ~~~1#32 else ~~~3#32

def rfeia : Instr Rtos := fun m =>
  let sp := m.reg .sp
  let cpsr := Psr.ofWord (read32 m.mem (sp + 4#32))
  { m.setReg .sp (sp + 8#32) with
    pc := branchTarget cpsr.t (read32 m.mem sp)
    cpsr }

/-- The words of D0 to D15, or of D16 to D31. -/
def Fpu.words (f : Fpu) (upper : Bool) : List Word :=
  List.ofFn fun i : Fin 32 => f.d ⟨if upper then 32 + i.val else i.val, by split <;> omega⟩

def vpush (upper : Bool) : Instr Rtos := fun m =>
  let sp := m.reg .sp - 128#32
  { m with mem := writeWords m.mem sp (m.dev.fpu.words upper) }.setReg .sp sp

def vpop (upper : Bool) : Instr Rtos := fun m =>
  let sp := m.reg .sp
  let d (j : Fin 64) :=
    if (upper = true ↔ 32 ≤ j.val) then read32 m.mem (sp + BitVec.ofNat 32 (4 * (j.val % 32)))
    else m.dev.fpu.d j
  { m with dev := { m.dev with fpu := { m.dev.fpu with d } } }.setReg .sp (sp + 128#32)

def fmrxFpscr (rd : Reg) : Instr Rtos := fun m => m.setReg rd m.dev.fpu.fpscr

def vmsrFpscr (rn : Reg) : Instr Rtos :=
  strVar rn fun dev v => { dev with fpu := { dev.fpu with fpscr := v } }

def andReg (rd rn : Reg) (v : Word) : Instr Rtos := fun m => m.setReg rd (m.reg rn &&& v)
def subReg (rd rn rm : Reg) : Instr Rtos := fun m => m.setReg rd (m.reg rn - m.reg rm)
def addReg (rd rn rm : Reg) : Instr Rtos := fun m => m.setReg rd (m.reg rn + m.reg rm)

def cpsidI : Instr Rtos := fun m => { m with cpsr := { m.cpsr with i := true } }

def portSaveContext (s : Symbols) : List (Instr Rtos) := [
  srsdbSys,
  cps sysMode,
  push [.r0, .r1, .r2, .r3, .r4, .r5, .r6, .r7, .r8, .r9, .r10, .r11, .r12, .lr],
  movImm .r2 s.ulCriticalNesting,
  ldrVar .r1 (·.ulCriticalNesting),
  push [.r1],
  movImm .r2 s.ulPortTaskHasFPUContext,
  ldrVar .r3 (·.ulPortTaskHasFPUContext),
  Instr.cmp .r3 0#32,
  onlyIf Psr.ne (fmrxFpscr .r1),
  onlyIf Psr.ne (vpush false),
  onlyIf Psr.ne (vpush true),
  onlyIf Psr.ne (push [.r1]),
  push [.r3],
  movImm .r0 s.pxCurrentTCB,
  ldrVar .r1 (·.pxCurrentTCB),
  strTopOfStack .sp .r1]

def portRestoreContext (s : Symbols) : List (Instr Rtos) := [
  movImm .r0 s.pxCurrentTCB,
  ldrVar .r1 (·.pxCurrentTCB),
  ldrTopOfStack .sp .r1,
  movImm .r0 s.ulPortTaskHasFPUContext,
  pop [.r1],
  strVar .r1 fun dev v => { dev with ulPortTaskHasFPUContext := v },
  Instr.cmp .r1 0#32,
  onlyIf Psr.ne (pop [.r0]),
  onlyIf Psr.ne (vpop true),
  onlyIf Psr.ne (vpop false),
  onlyIf Psr.ne (vmsrFpscr .r0),
  movImm .r0 s.ulCriticalNesting,
  pop [.r1],
  strVar .r1 fun dev v => { dev with ulCriticalNesting := v },
  movImm .r2 s.ulICCPMR,
  movImm .r2 portIccPmrAddress,
  Instr.cmp .r1 0#32,
  onlyIf Psr.eq (movImm .r4 portUnmaskValue),
  onlyIf Psr.ne (movImm .r4 s.ulMaxAPIPriorityMask),
  onlyIf Psr.ne (movImm .r4 portMask),
  strVar .r4 fun dev v => { dev with iccPmr := v },
  pop [.r0, .r1, .r2, .r3, .r4, .r5, .r6, .r7, .r8, .r9, .r10, .r11, .r12, .lr],
  rfeia]

/-- What `vTaskSwitchContext` leaves: the task that it selects, its own data in memory, and the
FPU. -/
structure Switched where
  pxCurrentTCB : Addr
  mem : Mem
  fpu : Fpu

/-- What `vApplicationIRQHandler`, and the interrupts nested in it, leave. -/
structure Handled where
  mem : Mem
  fpu : Fpu
  gic : Gic
  ulPortYieldRequired : Word
  iccPmr : Word
  masked : Bool

/-- The code that the port calls. -/
structure Kernel extends Symbols where
  abi : Aapcs Rtos
  selects : Guest → Switched
  isr : Word → Guest → Handled

def vTaskSwitchContext (k : Kernel) (m : Guest) : Guest :=
  let { pxCurrentTCB, mem, fpu } := k.selects m
  k.abi.returnTo none { m with mem, dev := { m.dev with pxCurrentTCB, fpu } }

/-- From `portSAVE_CONTEXT` to the end of a handler. -/
def switchContext (k : Kernel) (m : Guest) : Guest :=
  exec (portRestoreContext k.toSymbols)
    (vTaskSwitchContext k (movImm .r0 k.vTaskSwitchContext (exec (portSaveContext k.toSymbols) m)))

def freeRtosSwiHandler (k : Kernel) (m : Guest) : Guest := switchContext k m

def vPortRestoreTaskContext (k : Kernel) (m : Guest) : Guest :=
  exec (cps sysMode :: portRestoreContext k.toSymbols) m

/-- From `FreeRTOS_IRQ_Handler` to the call. -/
def irqEntry (s : Symbols) : List (Instr Rtos) := [
  sub .lr .lr 4#32,
  push [.lr],
  mrsSpsr .lr,
  push [.lr],
  cps svcMode,
  push [.r0, .r1, .r2, .r3, .r4, .r12],
  movImm .r3 s.ulPortInterruptNesting,
  ldrVar .r1 (·.ulPortInterruptNesting),
  add .r4 .r1 1#32,
  strVar .r4 fun dev v => { dev with ulPortInterruptNesting := v },
  movImm .r2 s.ulICCIAR,
  movImm .r2 portIccIarAddress,
  ldrIccIar .r0,
  mov .r2 .sp,
  andReg .r2 .r2 4#32,
  subReg .sp .sp .r2,
  push [.r0, .r1, .r2, .r3, .r4, .lr],
  movImm .r1 s.vApplicationIRQHandler]

/-- `blx` to `vApplicationIRQHandler`, with what was read from ICCIAR; the FPU is not saved. -/
def vApplicationIrqHandler (k : Kernel) (m : Guest) : Guest :=
  let { mem, fpu, gic, ulPortYieldRequired, iccPmr, masked } := k.isr (m.reg .r0) m
  k.abi.returnTo none { m with
    mem
    cpsr := { m.cpsr with i := masked }
    dev := { m.dev with fpu, gic, ulPortYieldRequired, iccPmr } }

/-- From the call to the test of the old nesting count. -/
def irqCompletion (s : Symbols) : List (Instr Rtos) := [
  pop [.r0, .r1, .r2, .r3, .r4, .lr],
  addReg .sp .sp .r2,
  cpsidI,
  dsb,
  isb,
  movImm .r4 s.ulICCEOIR,
  movImm .r4 portIccEoirAddress,
  strIccEoir .r0,
  strVar .r1 fun dev v => { dev with ulPortInterruptNesting := v },
  Instr.cmp .r1 0#32]

def yieldTest (s : Symbols) : List (Instr Rtos) := [
  movImm .r1 s.ulPortYieldRequired,
  ldrVar .r0 (·.ulPortYieldRequired),
  Instr.cmp .r0 0#32]

def restoreUsed : List (Instr Rtos) := [
  pop [.r0, .r1, .r2, .r3, .r4, .r12],
  cps irqMode,
  pop [.lr],
  msrSpsrCxsf .lr,
  pop [.lr]]

def exitWithoutSwitch : List (Instr Rtos) := restoreUsed ++ [movsPcLr]

def switchBeforeExit : List (Instr Rtos) :=
  [movImm .r0 0#32, strVar .r0 fun dev v => { dev with ulPortYieldRequired := v }] ++ restoreUsed

def freeRtosIrqHandler (k : Kernel) (m : Guest) : Guest :=
  let m := exec (irqCompletion k.toSymbols)
    (vApplicationIrqHandler k (exec (irqEntry k.toSymbols) m))
  if m.cpsr.ne then exec exitWithoutSwitch m
  else
    let m := exec (yieldTest k.toSymbols) m
    if m.cpsr.ne then switchContext k (exec switchBeforeExit m) else exec exitWithoutSwitch m

def scrAw : Word := 0x20#32

/-- Entry in ARM state with IRQs masked. An IRQ masks asynchronous aborts too, in the non-secure
world when SCR.AW lets it. -/
def takeException (mode : BitVec 5) (lr : Word) (m : Guest) : Guest :=
  let mask := if mode = irqMode ∧ (m.scr &&& scrNs = 0#32 ∨ m.scr &&& scrAw ≠ 0#32) then 1 else 0
  { m with
    regs := fun b r => if b = bankOf mode ∧ r = .lr then lr else m.regs b r
    spsr := fun b => if b = bankOf mode then m.cpsr.toWord else m.spsr b
    cpsr := { m.cpsr with
      mid := m.cpsr.mid &&& 0x8FF01#20 ||| mask
      i := true
      t := false
      mode } }

def yield (k : Kernel) (m : Guest) : Guest :=
  freeRtosSwiHandler k (takeException svcMode m.pc m)

def irq (k : Kernel) (m : Guest) : Guest :=
  freeRtosIrqHandler k (takeException irqMode (m.pc + 4#32) m)

def portInitialSpsr : Word := 0x1F#32
def portThumbModeBit : Word := 0x20#32
def portThumbModeAddress : Word := 0x01#32
def portNoCriticalNesting : Word := 0#32
def portNoFloatingPointContext : Word := 0#32

def portTaskReturnAddress : Word := 0#32

def initialWords (pxCode pvParameters : Word) : List Word :=
  [0#32, 0#32, 0#32,
    if pxCode &&& portThumbModeAddress ≠ 0#32 then portInitialSpsr ||| portThumbModeBit
    else portInitialSpsr,
    pxCode, portTaskReturnAddress, 0x12121212#32, 0x11111111#32, 0x10101010#32, 0x09090909#32,
    0x08080808#32, 0x07070707#32, 0x06060606#32, 0x05050505#32, 0x04040404#32, 0x03030303#32,
    0x02020202#32, 0x01010101#32, pvParameters, portNoCriticalNesting, portNoFloatingPointContext]

/-- `*pxTopOfStack = w; pxTopOfStack--` for each word but the last, behind which it stays. -/
def storeDown (top : Addr) : List Word → Mem → Addr × Mem
  | [], mem => (top, mem)
  | [w], mem => (top, write32 mem top w)
  | w :: ws, mem => storeDown (top - 4#32) ws (write32 mem top w)

def pxPortInitialiseStack (pxTopOfStack pxCode pvParameters : Word) (mem : Mem) : Addr × Mem :=
  storeDown pxTopOfStack (initialWords pxCode pvParameters) mem

end LTZVisor.NsGuest.PortAsm
