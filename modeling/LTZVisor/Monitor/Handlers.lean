/- LTZVisor/Monitor/Handlers
   kind: model
   digest: The SMC and FIQ handlers of the monitor and the scheduler that enters the guest. -/

import LTZVisor.Monitor.Macros
import LTZVisor.Boards.Zedboard
import LTZVisor.Lib.GicCpu

set_option autoImplicit false
set_option relaxedAutoImplicit false

namespace LTZVisor.Monitor.Handlers

open LTZVisor.Lib.Memory LTZVisor.Lib.GicCpu LTZVisor.Arm LTZVisor.Arm.Instr LTZVisor.Arch.Vcpu
open LTZVisor.Boards.Zedboard LTZVisor.Monitor.Macros

/-- The devices the monitor touches; `handled` records the arguments of `fiq_handler`. -/
structure Devices where
  gic : Gic
  handled : List Word

abbrev Core := Machine Devices

/-- Where the linker put what the monitor uses. `stackTop` is the stack pointer of the monitor
when the secure guest first runs. -/
structure Layout where
  nsGuest : Addr
  interrupt : Addr
  stackTop : Addr
  stackSize : Nat

namespace Layout

def stack (l : Layout) : Range := ⟨l.stackTop - BitVec.ofNat 32 l.stackSize, l.stackSize⟩
def nsGuestRange (l : Layout) : Range := ⟨l.nsGuest, tzmachineSize⟩
def interruptRange (l : Layout) : Range := ⟨l.interrupt, 4⟩

end Layout

/-- The entries of the table `fiq_handlers`; an index past its end finds unknown code. -/
inductive Isr
  | ttcInterruptClear | spi1IrqHandler | pastTable
  deriving DecidableEq

def noOfInterruptsImplemented : Nat := 96

def fiqHandlers (interrupt : Word) : Option Isr :=
  if noOfInterruptsImplemented ≤ interrupt.toNat then some .pastTable
  else if interrupt.toNat ∈ [42, 43, 44, 69, 70, 71] then some .ttcInterruptClear
  else if interrupt.toNat = 81 then some .spi1IrqHandler
  else none

/-- What the monitor relies on: where its data lies, and compiled handlers that obey the
procedure call standard, keep to their own frames and leave the data of the monitor alone. -/
structure Env extends Layout where
  periphBase : Word
  abi : Aapcs Devices
  isr : Isr → Word → Mem → Mem
  room : abi.depth + 256 ≤ stackSize
  stackSize_le : stackSize ≤ 2 ^ 31
  stack_nsGuest : toLayout.stack.Disjoint toLayout.nsGuestRange
  stack_interrupt : toLayout.stack.Disjoint toLayout.interruptRange
  nsGuest_interrupt : toLayout.nsGuestRange.Disjoint toLayout.interruptRange
  isr_keeps : ∀ i id mem, ∀ r ∈ [toLayout.stack, toLayout.nsGuestRange, toLayout.interruptRange],
    ∀ x ∈ r, isr i id mem x = mem x

/-- Addresses in the secure DDR of the zedboard, and handlers that use no memory but their stack. -/
def zedboard : Env where
  nsGuest := 0x1C040000#32
  interrupt := 0x1C041000#32
  stackTop := 0x1C031F00#32
  stackSize := 4096
  periphBase := 0xF8F00000#32
  abi := { depth := 64, reg := fun m r => m.reg r, psr := Machine.cpsr, stack := Machine.mem }
  isr := fun _ _ mem => mem
  room := by decide
  stackSize_le := by decide
  stack_nsGuest := Range.disjoint_of_apart (by decide) (by decide)
  stack_interrupt := Range.disjoint_of_apart (by decide) (by decide)
  nsGuest_interrupt := Range.disjoint_of_apart (by decide) (by decide)
  isr_keeps := fun _ _ _ _ _ _ _ => rfl

/-- A core in a mode with all else zero. -/
def blankCore (mode : BitVec 5) : Core where
  regs := fun _ _ => 0#32
  spsr := fun _ => 0#32
  cpsr :=
    { n := false, z := false, c := false, v := false, mid := 0#20, i := false, f := false,
      t := false, mode }
  pc := 0#32
  scr := 0#32
  cp15 := fun _ _ => 0#32
  mem := fun _ => 0#8
  dev :=
    { gic :=
        { prio := fun _ => 0, pending := [], active := [], arrivals := [], acked := [],
          completed := [] }
      handled := [] }

/-- `bl board_handler`. A store into the frames of the running C code has no defined outcome. -/
def callBoardHandler (env : Env) (m : Core) : Option Core :=
  if m.reg .r0 = ltzvisorWriteSyscall ∧ ¬ (⟨m.reg .r1, 4⟩ : Range).Disjoint (env.abi.frames m) then
    none
  else
    let out := boardHandler (m.reg .r0) (m.reg .r1) (m.reg .r2) (m.reg .r3) m.mem
    some (env.abi.returnTo (some out.1) { m with mem := out.2 })

def boardSmc (env : Env) (m : Core) : Option Core :=
  (callBoardHandler env (exec callCFunctionArg m)).map (exec exceptionReturnArg)

/-- The secure frame: what `_mon_scheduler` pushes, from the lowest address up. -/
def secureSlots : List Slot :=
  [.spsr .fiq, .reg .fiq .lr, .reg .fiq .r8, .reg .fiq .r9, .reg .fiq .r10, .reg .fiq .r11,
    .reg .fiq .r12, .reg .fiq .sp, .spsr .mon, .reg .mon .lr, .reg .usr .r0, .reg .usr .r1,
    .reg .usr .r2, .reg .usr .r3, .reg .usr .r4, .reg .usr .r5, .reg .usr .r6, .reg .usr .r7,
    .reg .usr .r8, .reg .usr .r9, .reg .usr .r10, .reg .usr .r11, .reg .usr .r12, .reg .usr .sp,
    .reg .usr .lr]

/-- The first half of `_mon_scheduler`, up to the stack pointer of the pushed frame. -/
def pushSecureFrame : List (Instr Devices) := [
  stmfdUser .sp [.r0, .r1, .r2, .r3, .r4, .r5, .r6, .r7, .r8, .r9, .r10, .r11, .r12, .sp, .lr],
  sub .sp .sp 60#32,
  mrsSpsr .r0,
  stmfd .sp [.r0, .lr],
  sub .sp .sp 8#32,
  mov .r0 .sp,
  cps fiqMode,
  stmfd .r0 [.r8, .r9, .r10, .r11, .r12, .sp],
  sub .r0 .r0 24#32,
  mrsSpsr .r1,
  stmfd .r0 [.r1, .lr],
  sub .r0 .r0 8#32,
  cps monMode,
  mov .sp .r0]

def monScheduler : List (Instr Devices) :=
  pushSecureFrame ++ getNsWorldContext ++ worldContextRestore ++ scrNsSet ++ [isb, dsb, movsPcLr]

def monSmcHandler (env : Env) (m : Core) : Option Core :=
  let m := cmn .r0 0#32 m
  if m.cpsr.n ≠ m.cpsr.v then boardSmc env m
  else
    let m := cmp .r0 ltzvisorSchedSyscall m
    if m.cpsr.z then some (exec monScheduler m) else some (bxLr m)

/-- `ldr rd, [rn, #v]` where the address may be that of the acknowledge register, whose read
has an effect. -/
def ldrDevice (env : Env) (rd rn : Reg) (v : Word) : Instr Devices := fun m =>
  if m.reg rn + v = env.periphBase + 0x10C#32 then
    let out := m.dev.gic.readIar
    { m with dev := { m.dev with gic := out.2 } }.setReg rd out.1
  else ldr rd rn v m

/-- `bl fiq_handler`. -/
def callFiqHandler (env : Env) : Instr Devices := fun m =>
  let interrupt := m.reg .r0
  let mem := match fiqHandlers interrupt with
    | some i => env.isr i interrupt m.mem
    | none => m.mem
  env.abi.returnTo none { m with
    mem, dev := { m.dev with handled := m.dev.handled ++ [interrupt] } }

/-- `bl interrupt_clear`. -/
def callInterruptClear (env : Env) : Instr Devices := fun m =>
  let eoir := m.reg .r1 <<< 10 ||| m.reg .r0
  env.abi.returnTo none { m with dev := { m.dev with gic := m.dev.gic.writeEoir eoir } }

def asmGicIntId : Word := 12#32

def ackFiq (env : Env) : List (Instr Devices) := [
  sub .lr .lr 4#32,
  push [.r4, .lr],
  push [.r0, .r1, .r2, .r3],
  movImm .r0 env.periphBase,
  add .r0 .r0 0x100#32,
  ldrDevice env .r1 .r0 asmGicIntId,
  movImm .r2 env.interrupt,
  str .r1 .r2,
  ldrDevice env .r0 .r0 0x0C#32]

def saveNsContext (env : Env) : List (Instr Devices) :=
  ackFiq env ++ scrNsClear ++ getNsWorldContext ++ worldContextSave

def handleFiq (env : Env) : List (Instr Devices) := [
  movImm .r2 env.interrupt,
  ldr .r0 .r2 0#32,
  callFiqHandler env,
  movImm .r2 env.interrupt,
  ldr .r0 .r2 0#32,
  movImm .r1 0#32,
  callInterruptClear env]

/-- The second half of `_mon_fiq_handler`: the frame goes back into the registers. -/
def popSecureFrame : List (Instr Devices) := [
  pop [.r1, .r2],
  mov .r0 .sp,
  cps fiqMode,
  msrSpsr .r1,
  mov .lr .r2,
  ldmia .r0 [.r8, .r9, .r10, .r11, .r12, .sp],
  add .r0 .r0 24#32,
  cps monMode,
  mov .sp .r0,
  pop [.r0, .r1],
  msrSpsr .r0,
  mov .lr .r1,
  ldmfdUser .sp [.r0, .r1, .r2, .r3, .r4, .r5, .r6, .r7, .r8, .r9, .r10, .r11, .r12, .sp, .lr],
  add .sp .sp 60#32,
  movsPcLr]

def monFiqHandler (env : Env) (m : Core) : Core :=
  exec (saveNsContext env ++ handleFiq env ++ popSecureFrame) m

end LTZVisor.Monitor.Handlers
