/- LTZVisor/Arm/Instr
   kind: library
   digest: The ARM instructions of a monitor, each a function on the machine. -/

import LTZVisor.Arm.Machine

set_option autoImplicit false
set_option relaxedAutoImplicit false

namespace LTZVisor.Arm

open LTZVisor.Lib.Memory

variable {D : Type}

/-- An instruction is its effect; a straight-line routine is the list of its instructions. -/
abbrev Instr (D : Type) := Machine D → Machine D

def exec (is : List (Instr D)) (m : Machine D) : Machine D := is.foldl (fun m i => i m) m

@[simp] theorem exec_nil (m : Machine D) : exec [] m = m := rfl

@[simp] theorem exec_cons (i : Instr D) (is : List (Instr D)) (m : Machine D) :
    exec (i :: is) m = exec is (i m) := rfl

@[simp] theorem exec_append (is js : List (Instr D)) (m : Machine D) :
    exec (is ++ js) m = exec js (exec is m) := List.foldl_append

namespace Instr

-- Every definition below is a simp lemma: the effect of a routine on a machine whose mode is
-- known is computed by `simp`.

@[simp] def mov (rd rn : Reg) : Instr D := fun m => m.setReg rd (m.reg rn)
@[simp] def movImm (rd : Reg) (v : Word) : Instr D := fun m => m.setReg rd v
@[simp] def add (rd rn : Reg) (v : Word) : Instr D := fun m => m.setReg rd (m.reg rn + v)
@[simp] def sub (rd rn : Reg) (v : Word) : Instr D := fun m => m.setReg rd (m.reg rn - v)
@[simp] def orr (rd rn : Reg) (v : Word) : Instr D := fun m => m.setReg rd (m.reg rn ||| v)
@[simp] def bic (rd rn : Reg) (v : Word) : Instr D := fun m => m.setReg rd (m.reg rn &&& ~~~v)

@[simp] def ldr (rd rn : Reg) (v : Word) : Instr D :=
  fun m => m.setReg rd (read32 m.mem (m.reg rn + v))

@[simp] def str (rd rn : Reg) : Instr D :=
  fun m => { m with mem := write32 m.mem (m.reg rn) (m.reg rd) }

/-- Registers loaded from consecutive words, the lowest register from the lowest address. -/
@[simp] def loadFrom (mem : Mem) (a : Addr) : List Reg → Machine D → Machine D
  | [], m => m
  | r :: rs, m => loadFrom mem (a + 4#32) rs (m.setReg r (read32 mem a))

@[simp] def ldmia (rn : Reg) (rs : List Reg) : Instr D := fun m => loadFrom m.mem (m.reg rn) rs m

@[simp] def ldmiaW (rn : Reg) (rs : List Reg) : Instr D := fun m =>
  loadFrom m.mem (m.reg rn) rs (m.setReg rn (m.reg rn + BitVec.ofNat 32 (4 * rs.length)))

@[simp] def stmia (rn : Reg) (rs : List Reg) : Instr D :=
  fun m => { m with mem := writeWords m.mem (m.reg rn) (rs.map m.reg) }

@[simp] def stmiaW (rn : Reg) (rs : List Reg) : Instr D :=
  fun m => (stmia rn rs m).setReg rn (m.reg rn + BitVec.ofNat 32 (4 * rs.length))

/-- `stmfd rn, {rs}` (`stmdb`) without writeback. -/
@[simp] def stmfd (rn : Reg) (rs : List Reg) : Instr D :=
  fun m => { m with
    mem := writeWords m.mem (m.reg rn - BitVec.ofNat 32 (4 * rs.length)) (rs.map m.reg) }

@[simp] def push (rs : List Reg) : Instr D :=
  fun m => (stmfd .sp rs m).setReg .sp (m.reg .sp - BitVec.ofNat 32 (4 * rs.length))

@[simp] def pop (rs : List Reg) : Instr D := ldmiaW .sp rs

/-- `stmfd rn, {rs}^`: the registers of the User bank. -/
@[simp] def stmfdUser (rn : Reg) (rs : List Reg) : Instr D :=
  fun m => { m with
    mem := writeWords m.mem (m.reg rn - BitVec.ofNat 32 (4 * rs.length))
      (rs.map fun r => m.regs (Bank.usr.home r) r) }

@[simp] def loadUserFrom (mem : Mem) (a : Addr) : List Reg → Machine D → Machine D
  | [], m => m
  | r :: rs, m => loadUserFrom mem (a + 4#32) rs (m.setPhys (Bank.usr.home r) r (read32 mem a))

/-- `ldmfd rn, {rs}^`: the registers of the User bank. -/
@[simp] def ldmfdUser (rn : Reg) (rs : List Reg) : Instr D :=
  fun m => loadUserFrom m.mem (m.reg rn) rs m

@[simp] def cps (mode : BitVec 5) : Instr D := fun m => { m with cpsr := { m.cpsr with mode } }

@[simp] def mrsSpsr (rd : Reg) : Instr D := fun m => m.setReg rd (m.spsr m.bank)

/-- `msr spsr_cxsf, rn` writes all four bytes. -/
@[simp] def msrSpsrCxsf (rn : Reg) : Instr D := fun m => m.setSpsr m.bank (m.reg rn)

/-- `msr spsr, rn` writes the flag and control bytes. -/
@[simp] def msrSpsr (rn : Reg) : Instr D :=
  fun m => m.setSpsr m.bank (msrFc (m.spsr m.bank) (m.reg rn))

@[simp] def mrcScr (rd : Reg) : Instr D := fun m => m.setReg rd m.scr
@[simp] def mcrScr (rn : Reg) : Instr D := fun m => { m with scr := m.reg rn }
@[simp] def mrc (rd : Reg) (r : Cp15Reg) : Instr D := fun m => m.setReg rd (m.readCp15 r)
@[simp] def mcr (r : Cp15Reg) (rn : Reg) : Instr D := fun m => m.writeCp15 r (m.reg rn)

/-- The barriers order accesses that the model already performs in order. -/
@[simp] def isb : Instr D := id
@[simp] def dsb : Instr D := id

/-- `movs pc, lr`: exception return, with the SPSR of the current mode. -/
@[simp] def movsPcLr : Instr D :=
  fun m => { m with pc := m.reg .lr, cpsr := Psr.ofWord (m.spsr m.bank) }

/-- `ldmfd sp!, {rs, pc}^`: exception return with the registers and the address popped. -/
@[simp] def popReturn (rs : List Reg) : Instr D := fun m =>
  let a := m.reg .sp
  { loadFrom m.mem a rs (m.setReg .sp (a + BitVec.ofNat 32 (4 * (rs.length + 1)))) with
    pc := read32 m.mem (a + BitVec.ofNat 32 (4 * rs.length))
    cpsr := Psr.ofWord (m.spsr m.bank) }

/-- `bx lr`: a jump in the current mode; bit 0 of the address selects Thumb state. -/
@[simp] def bxLr : Instr D := fun m =>
  { m with pc := m.reg .lr &&& ~~~1#32, cpsr := { m.cpsr with t := (m.reg .lr).getLsbD 0 } }

@[simp] def cmn (rn : Reg) (v : Word) : Instr D := fun m =>
  let s := m.reg rn + v
  { m with cpsr := { m.cpsr with
      n := s.msb
      z := s == 0#32
      c := BitVec.carry 32 (m.reg rn) v false
      v := (m.reg rn).msb == v.msb && s.msb != v.msb } }

@[simp] def cmp (rn : Reg) (v : Word) : Instr D := fun m =>
  let d := m.reg rn - v
  { m with cpsr := { m.cpsr with
      n := d.msb
      z := d == 0#32
      c := v.ule (m.reg rn)
      v := (m.reg rn).msb != v.msb && d.msb != (m.reg rn).msb } }

end Instr

end LTZVisor.Arm
