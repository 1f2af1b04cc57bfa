/- LTZVisor/Core/Kickoff
   kind: property
   digest: The stack pointers set at boot, and the one that the secure guest starts with. -/

import LTZVisor.Printk.Buffer
import LTZVisor.Monitor.Handlers

set_option autoImplicit false
set_option relaxedAutoImplicit false

namespace LTZVisor.Core.Kickoff

open LTZVisor.Lib.Memory LTZVisor.Arm LTZVisor.Arm.Instr LTZVisor.Monitor.Handlers
open LTZVisor.Printk.Vsprintk LTZVisor.Printk.Format LTZVisor.Printk.Buffer

variable {D : Type}

def stackSize : Word := 8192#32
def stackSizeShift : Nat := 12

/-- `msr cpsr_c, #psr` in secure privileged code: the masks and the mode. The state bit T is not
written by MSR. -/
def msrCpsrC (psr : BitVec 8) : Instr D := fun m =>
  { m with cpsr := { m.cpsr with
      i := psr.getLsbD 7
      f := psr.getLsbD 6
      mode := psr.extractLsb' 0 5 } }

def addLsl (rd rn rm : Reg) (n : Nat) : Instr D := fun m => m.setReg rd (m.reg rn + m.reg rm <<< n)

/-- The four instructions that select a mode and set its stack pointer, with the number of the
CPU in r0. -/
def setStack (psr : BitVec 8) (stack : Addr) (shift : Nat) (size : Word) : List (Instr D) := [
  msrCpsrC psr,
  movImm .r1 stack,
  addLsl .r1 .r1 .r0 shift,
  add .sp .r1 size]

def setupStack (mode : BitVec 5) (stack : Addr) : List (Instr D) :=
  setStack (0x80#8 ||| 0x40#8 ||| mode.setWidth 8) stack stackSizeShift stackSize

def ltzvisorMonExit (supervisorStack : Addr) : List (Instr D) :=
  setStack (0x13#8 ||| 0x80#8 ||| 0x40#8) supervisorStack 12 4096#32

/-- A stack pointer whose frames begin in the array of `STACK_SIZE` bytes at `stack`. -/
def OnStack (stack sp : Addr) : Prop :=
  0 < (sp - stack).toNat ∧ (sp - stack).toNat ≤ stackSize.toNat

/-- The secure guest is entered in Supervisor mode with its stack pointer on `_supervisor_stack`. -/
def StartsOnStack (supervisorStack : Addr) (m : Machine D) : Prop :=
  (exec (ltzvisorMonExit supervisorStack) m).cpsr.mode = svcMode ∧
    OnStack supervisorStack ((exec (ltzvisorMonExit supervisorStack) m).regs .svc .sp)

private theorem exec_setStack (psr : BitVec 8) (stack : Addr) (shift : Nat) (size : Word)
    (m : Machine D) : (exec (setStack psr stack shift size) m).cpsr.mode = psr.extractLsb' 0 5 ∧
      (exec (setStack psr stack shift size) m).reg .sp =
        stack + m.regs .usr .r0 <<< shift + size := by
  constructor
  · rfl
  · simp [setStack, msrCpsrC, addLsl]

private theorem offset_toNat (stack r0 size : Word) :
    (stack + r0 <<< 12 + size - stack).toNat =
      (r0.toNat % 2 ^ 20 * 4096 + size.toNat) % 2 ^ 32 := by
  have cancel : stack + r0 <<< 12 + size - stack = r0 <<< 12 + size := by
    rw [BitVec.add_assoc, BitVec.add_comm, BitVec.add_sub_cancel]
  rw [cancel, BitVec.toNat_add, BitVec.toNat_shiftLeft, Nat.shiftLeft_eq]
  omega

theorem startsOnStack_iff (supervisorStack : Addr) (m : Machine D) :
    StartsOnStack supervisorStack m ↔ (m.regs .usr .r0).toNat % 2 ^ 20 ≤ 1 := by
  obtain ⟨mode, sp⟩ := exec_setStack (0x13#8 ||| 0x80#8 ||| 0x40#8) supervisorStack 12 4096#32 m
  have svc : (exec (ltzvisorMonExit supervisorStack) m).cpsr.mode = svcMode := mode
  have bank : (exec (ltzvisorMonExit supervisorStack) m).regs .svc .sp =
      supervisorStack + m.regs .usr .r0 <<< 12 + 4096#32 := by
    rw [← sp, ← ltzvisorMonExit, Machine.reg, Machine.bank, svc]
    rfl
  rw [StartsOnStack, bank, OnStack, offset_toNat, and_iff_right svc]
  simp only [stackSize, BitVec.toNat_ofNat]
  omega

-- What is in r0: `ltzvisor_main` prints a rule before it calls `ltzvisor_kickoff`, which takes no
-- argument.

def rule : List Item :=
  List.replicate 58 ⟨.byte 0x2d (by decide), ()⟩ ++
    [⟨.byte chLf (by decide), ()⟩, ⟨.byte chLf (by decide), ()⟩, ⟨.byte chTab (by decide), ()⟩]

private theorem printk_rule (args : Args) (buf : Nat → Byte) :
    (printk .hypervisor args (formatOf rule).length buf (formatOf rule ++ [chNul])).map Prod.snd =
      .ok 63 := by
  have passed : Passed args 0 rule := by
    simp [rule, List.replicate, Passed, Item.carriedBy]
  have fits : (render rule).length ≤ 255 := by decide
  rw [printk_eq args rule passed fits]
  rfl

/-- The machine that expands `LTZVISOR_MON_EXIT` when the last call left `ret` in r0. -/
def atMonExit (ret : Nat) : Core := (blankCore monMode).setPhys .usr .r0 (BitVec.ofNat 32 ret)

theorem rule_leaves_stack :
    (printk .hypervisor ⟨fun _ => 0, fun _ => 0⟩ (formatOf rule).length (fun _ => 0)
        (formatOf rule ++ [chNul])).map Prod.snd = .ok 63 ∧
      ¬StartsOnStack 0x1C032000#32 (atMonExit 63) := by
  refine ⟨printk_rule _ _, ?_⟩
  rintro ⟨-, -, high⟩
  revert high
  decide

end LTZVisor.Core.Kickoff
