/- LTZVisor/NsGuest/Tasks
   kind: model
   digest: How the kernel of the non-secure guest makes, deletes and starts its tasks. -/

import LTZVisor.Lib.Block
import LTZVisor.NsGuest.TaskStacks

set_option autoImplicit false
set_option relaxedAutoImplicit false

namespace LTZVisor.NsGuest.Tasks

open LTZVisor.Lib.Memory LTZVisor.Lib.Block LTZVisor.Arm LTZVisor.Arm.Instr
open LTZVisor.NsGuest.PortAsm LTZVisor.NsGuest.TaskContext LTZVisor.NsGuest.TaskStacks

def configMaxPriorities : Nat := 8
def tskStackFillByte : Byte := 0xA5#8
def portByteAlignmentMask : Word := 7#32

def stackAt (pxStack : Addr) (ulStackDepth : Nat) : Range := ⟨pxStack, 4 * ulStackDepth⟩

/-- Where `prvInitialiseNewTask` lets the initial stack begin. -/
def topOfStack (pxStack : Addr) (ulStackDepth : Nat) : Addr :=
  pxStack + BitVec.ofNat 32 (4 * (ulStackDepth - 1)) &&& ~~~portByteAlignmentMask

def prvInitialiseNewTask (pxTaskCode pvParameters : Word) (ulStackDepth uxPriority : Nat)
    (pxNewTCB pxStack : Addr) (m : Guest) : Guest :=
  let mem := filled m.mem (stackAt pxStack ulStackDepth) tskStackFillByte
  let uxPriority :=
    if configMaxPriorities ≤ uxPriority then configMaxPriorities - 1 else uxPriority
  let (pxTopOfStack, mem) :=
    pxPortInitialiseStack (topOfStack pxStack ulStackDepth) pxTaskCode pvParameters mem
  { m with
    mem
    dev := { m.dev with
      pxTopOfStack := Function.update m.dev.pxTopOfStack pxNewTCB pxTopOfStack
      pxStack := Function.update m.dev.pxStack pxNewTCB (stackAt pxStack ulStackDepth)
      uxPriority := Function.update m.dev.uxPriority pxNewTCB uxPriority } }

/-- Without the switch that may follow. -/
def prvAddNewTaskToReadyList (pxNewTCB : Addr) (d : Rtos) : Rtos :=
  { d with
    pxCurrentTCB :=
      if d.pxCurrentTCB = 0#32 then pxNewTCB
      else if d.xSchedulerRunning = false ∧
        d.uxPriority d.pxCurrentTCB ≤ d.uxPriority pxNewTCB then pxNewTCB
      else d.pxCurrentTCB
    tasks := pxNewTCB :: d.tasks }

/-- With the TCB and the stack that `pvPortMalloc` gave. -/
def xTaskCreate (pxTaskCode pvParameters : Word) (usStackDepth uxPriority : Nat)
    (pxNewTCB pxStack : Addr) (m : Guest) : Guest :=
  let m := prvInitialiseNewTask pxTaskCode pvParameters usStackDepth uxPriority pxNewTCB pxStack m
  { m with dev := prvAddNewTaskToReadyList pxNewTCB m.dev }

/-- Without the switch that follows when a task deletes itself. -/
def vTaskDelete (xTaskToDelete : Addr) (m : Guest) : Guest :=
  let pxTCB := if xTaskToDelete = 0#32 then m.dev.pxCurrentTCB else xTaskToDelete
  { m with dev := { m.dev with tasks := m.dev.tasks.filter (· ≠ pxTCB) } }

/-- The end of `vTaskStartScheduler` and of `xPortStartScheduler`. -/
def vTaskStartScheduler (k : Kernel) (m : Guest) : Guest :=
  vPortRestoreTaskContext k { m with dev := { m.dev with xSchedulerRunning := true } }

/-- A TCB and a stack that are free, for a task to be made of them. -/
structure Fresh (env : Env) (usStackDepth : Nat) (t pxStack : Addr) (m : Guest) : Prop where
  null : t ≠ 0#32
  new : ¬Holds m.dev t
  deep : 23 ≤ usStackDepth
  clear : Clear env (stackAt pxStack usStackDepth)
  apart : ∀ t', Holds m.dev t' → (stackAt pxStack usStackDepth).Disjoint (m.dev.pxStack t')

theorem Fresh.ne {env : Env} {usStackDepth : Nat} {t t' pxStack : Addr} {m : Guest}
    (fresh : Fresh env usStackDepth t pxStack m) (holds : Holds m.dev t') : t' ≠ t := by
  rintro rfl
  exact fresh.new holds

/-- The scheduler can start with the task that was chosen. -/
structure Startable (env : Env) (m : Guest) : Prop where
  off : m.dev.xSchedulerRunning = false
  current : m.dev.pxCurrentTCB ∈ m.dev.tasks
  svc : m.regs .svc .sp = env.svcTop
  irq : m.regs .irq .sp = env.irqTop

theorem current_of_running (pxNewTCB : Addr) {d : Rtos} (running : d.xSchedulerRunning = true)
    (current : d.pxCurrentTCB ≠ 0#32) :
    (prvAddNewTaskToReadyList pxNewTCB d).pxCurrentTCB = d.pxCurrentTCB := by
  rw [prvAddNewTaskToReadyList, if_neg current, if_neg]
  rw [running]
  exact fun off => absurd off.1 (by simp)

/-- The words are stored from the top downwards, and the address of the last one is returned. -/
private theorem storeDown_eq (top : Addr) (w : Word) (ws : List Word) (mem : Mem) :
    storeDown top (w :: ws) mem =
      (top - BitVec.ofNat 32 (4 * ws.length),
        writeWords mem (top - BitVec.ofNat 32 (4 * ws.length)) (w :: ws).reverse) := by
  induction ws generalizing top w mem with
  | nil =>
    have here : top - BitVec.ofNat 32 (4 * 0) = top := BitVec.sub_zero top
    rw [storeDown, List.length_nil, here]
    rfl
  | cons v ws ih =>
    have place : top - 4#32 - BitVec.ofNat 32 (4 * ws.length) =
        top - BitVec.ofNat 32 (4 * (v :: ws).length) := by
      rw [List.length_cons]
      bv_omega
    have words : (w :: v :: ws).reverse = (v :: ws).reverse ++ [w] := List.reverse_cons
    rw [storeDown, ih, place, write32, words, writeWords_append]
    · rw [List.length_reverse]
      exact (BitVec.sub_add_cancel _ _).symm
    · exact List.cons_ne_nil _ _

def initialReg (pvParameters : Word) : Reg → Word
  | .r0 => pvParameters
  | .r1 => 0x01010101#32
  | .r2 => 0x02020202#32
  | .r3 => 0x03030303#32
  | .r4 => 0x04040404#32
  | .r5 => 0x05050505#32
  | .r6 => 0x06060606#32
  | .r7 => 0x07070707#32
  | .r8 => 0x08080808#32
  | .r9 => 0x09090909#32
  | .r10 => 0x10101010#32
  | .r11 => 0x11111111#32
  | .r12 => 0x12121212#32
  | .lr => portTaskReturnAddress
  | .sp => 0#32

def initialSpsr (pxCode : Word) : Word :=
  if pxCode &&& portThumbModeAddress ≠ 0#32 then portInitialSpsr ||| portThumbModeBit
  else portInitialSpsr

/-- A task starts in its function, in System mode with interrupts enabled. -/
def initialContext (top pxCode pvParameters : Word) : Context where
  reg r := if r = .sp then top - 8#32 else initialReg pvParameters r
  pc := branchTarget (Psr.ofWord (initialSpsr pxCode)).t pxCode
  cpsr := Psr.ofWord (initialSpsr pxCode)
  ulCriticalNesting := 0#32
  ulPortTaskHasFPUContext := 0#32
  fpu := none

section Initial

variable (top pxCode pvParameters : Word) (mem : Mem)

private theorem initialWords_reverse (fpu : Fpu) :
    (initialWords pxCode pvParameters).reverse =
      frameWords 0#32 fpu 0#32 (initialReg pvParameters) pxCode (initialSpsr pxCode) ++
        [0#32, 0#32, 0#32] := rfl

theorem pxPortInitialiseStack_eq :
    pxPortInitialiseStack top pxCode pvParameters mem =
      (top - 80#32, writeWords mem (top - 80#32) (initialWords pxCode pvParameters).reverse) :=
  storeDown_eq top 0#32 _ mem

/-- The initial stack is a frame. -/
theorem saved_initial :
    saved (pxPortInitialiseStack top pxCode pvParameters mem).2 (top - 80#32) =
      initialContext top pxCode pvParameters := by
  rw [pxPortInitialiseStack_eq, initialWords_reverse _ _ ⟨fun _ => 0#32, 0#32⟩,
    ← writeWords_append _ _ (top - 80#32 + 72#32) _ _ rfl, saved_frame]
  ext1
  case reg =>
    funext r
    change (if r = .sp then top - 80#32 + 72#32 else _) = if r = .sp then _ else _
    split_ifs with pointer
    · bv_omega
    · rfl
  all_goals rfl

theorem initial_mode : (initialContext top pxCode pvParameters).cpsr.mode = sysMode := by
  change (Psr.ofWord (initialSpsr pxCode)).mode = sysMode
  rw [initialSpsr]
  split <;> rfl

end Initial

private theorem and_not_mask (a : Word) :
    (a &&& ~~~portByteAlignmentMask).toNat ≤ a.toNat ∧
      a.toNat ≤ (a &&& ~~~portByteAlignmentMask).toNat + 7 := by
  have parts : (a &&& ~~~portByteAlignmentMask) + (a &&& 7#32) = a := by
    rw [portByteAlignmentMask, BitVec.add_comm, BitVec.add_eq_or_of_and_eq_zero]
    · ext i hi
      simp only [BitVec.getElem_or, BitVec.getElem_and, BitVec.getElem_not]
      cases a[i] <;> cases (7#32)[i] <;> rfl
    · ext i hi
      simp only [BitVec.getElem_and, BitVec.getElem_not, BitVec.getElem_zero]
      cases a[i] <;> cases (7#32)[i] <;> rfl
  have low : (a &&& 7#32).toNat ≤ 7 := by
    rw [BitVec.toNat_and]
    exact Nat.and_le_right
  have high : (a &&& ~~~portByteAlignmentMask).toNat ≤ a.toNat := by
    rw [BitVec.toNat_and]
    exact Nat.and_le_left
  generalize a &&& ~~~portByteAlignmentMask = b at *
  generalize a &&& 7#32 = c at *
  refine ⟨high, ?_⟩
  bv_omega

/-- The initial stack fits in the words that were allocated. -/
theorem top_fits (pxStack : Addr) {usStackDepth : Nat} (deep : 23 ≤ usStackDepth)
    (size : 4 * usStackDepth < 2 ^ 32) :
    offset (stackAt pxStack usStackDepth) (topOfStack pxStack usStackDepth - 80#32) + 84 ≤
      4 * usStackDepth := by
  obtain ⟨le, ge⟩ := and_not_mask (pxStack + BitVec.ofNat 32 (4 * (usStackDepth - 1)))
  rw [offset, stackAt, topOfStack]
  generalize pxStack + BitVec.ofNat 32 (4 * (usStackDepth - 1)) &&& ~~~portByteAlignmentMask =
    top at *
  bv_omega

end LTZVisor.NsGuest.Tasks
