/- LTZVisor/Arm/Cond
   kind: library
   digest: Conditional execution: comparisons, counters and the conditions that read their flags. -/

import LTZVisor.Arm.Instr

set_option autoImplicit false
set_option relaxedAutoImplicit false

namespace LTZVisor.Arm

open LTZVisor.Lib.Memory

variable {D : Type}

namespace Psr

def eq (p : Psr) : Bool := p.z
def ne (p : Psr) : Bool := !p.z
def ge (p : Psr) : Bool := p.n == p.v
def lt (p : Psr) : Bool := p.n != p.v
def gt (p : Psr) : Bool := !p.z && p.n == p.v

end Psr

namespace Instr

def onlyIf (cond : Psr → Bool) (i : Instr D) : Instr D := fun m => if cond m.cpsr then i m else m

@[simp] def cmpReg (rn rm : Reg) : Instr D := fun m => cmp rn (m.reg rm) m

/-- `subs rd, rn, #v` sets the flags of the comparison too. -/
@[simp] def subs (rd rn : Reg) (v : Word) : Instr D :=
  fun m => (cmp rn v m).setReg rd (m.reg rn - v)

/-- `orr rd, rn, rm, lsl rs`: the low byte of rs is the distance. -/
@[simp] def orrLsl (rd rn rm rs : Reg) : Instr D :=
  fun m => m.setReg rd (m.reg rn ||| m.reg rm <<< ((m.reg rs).toNat % 256))

@[simp] def clz (rd rm : Reg) : Instr D := fun m => m.setReg rd (m.reg rm).clz

@[simp] def strPost (rd rn : Reg) : Instr D := fun m => (str rd rn m).setReg rn (m.reg rn + 4#32)

@[simp] def bl (next : Addr) : Instr D := fun m => m.setReg .lr next

/-- `mov pc, lr` in ARM state selects the instruction set as `bx lr` does. -/
@[simp] def movPcLr : Instr D := bxLr

end Instr

section Flags

/-- The sign of a difference, corrected by the overflow of the subtraction. -/
private theorem msb_sub_bne_overflow (x y : Word) :
    ((x - y).msb != (x.msb != y.msb && (x - y).msb != x.msb)) = x.slt y := by
  simp only [BitVec.msb_eq_decide, BitVec.slt, BitVec.toInt_eq_toNat_cond, BitVec.toNat_sub]
  have hx := x.isLt
  have hy := y.isLt
  grind

variable (m : Machine D) (rn : Reg) (v : Word)

theorem lt_cmp : (Instr.cmp rn v m).cpsr.lt = (m.reg rn).slt v :=
  msb_sub_bne_overflow (m.reg rn) v

theorem ge_cmp : (Instr.cmp rn v m).cpsr.ge = v.sle (m.reg rn) := by
  have negated : (Instr.cmp rn v m).cpsr.ge = !(Instr.cmp rn v m).cpsr.lt := by
    simp only [Psr.ge, Psr.lt, bne, Bool.not_not]
  rw [negated, lt_cmp, BitVec.sle_eq_not_slt]

theorem eq_cmp : (Instr.cmp rn v m).cpsr.eq = (m.reg rn == v) := by
  change (m.reg rn - v == 0#32) = (m.reg rn == v)
  rw [Bool.eq_iff_iff, beq_iff_eq, beq_iff_eq]
  exact sub_eq_zero

theorem gt_cmp : (Instr.cmp rn v m).cpsr.gt = v.slt (m.reg rn) := by
  change (!(Instr.cmp rn v m).cpsr.eq && (Instr.cmp rn v m).cpsr.ge) = _
  rw [eq_cmp, ge_cmp, BitVec.slt_eq_sle_and_ne, Bool.and_comm, bne, Bool.beq_comm]

end Flags

end LTZVisor.Arm
