/- LTZVisor/Arm/Exception
   kind: library
   digest: Exception entry to Monitor mode and calls of compiled procedures. -/

import LTZVisor.Arm.Instr

set_option autoImplicit false
set_option relaxedAutoImplicit false

namespace LTZVisor.Arm

open LTZVisor.Lib.Memory

variable {D : Type}

/-- The status register on entry to Monitor mode: IT, J, T and E are cleared, A, I and F are
set, the condition flags, Q and GE stay. -/
def Psr.monitorEntry (p : Psr) : Psr :=
  { p with
    mid := p.mid &&& 0x8FF00#20 ||| 0x00001#20
    i := true
    f := true
    t := false
    mode := monMode }

def monitorException (m : Machine D) (lr : Word) : Machine D :=
  { m with
    regs := fun b r => if b = .mon ∧ r = .lr then lr else m.regs b r
    spsr := fun b => if b = .mon then m.cpsr.toWord else m.spsr b
    cpsr := m.cpsr.monitorEntry }

/-- An SMC is taken with the address of the next instruction in `lr_mon`. -/
def takeSmc (m : Machine D) : Machine D := monitorException m m.pc

/-- An FIQ routed to Monitor mode is taken with that address plus 4. -/
def takeFiq (m : Machine D) : Machine D := monitorException m (m.pc + 4#32)

/-- What the procedure call standard leaves to the compiler: how much stack a called procedure
and its callees use, and what they leave there, in r0 to r3, r12 and lr, and in the flags. -/
structure Aapcs (D : Type) where
  depth : Nat
  reg : Machine D → Reg → Word
  psr : Machine D → Psr
  stack : Machine D → Mem

namespace Aapcs

def frames (abi : Aapcs D) (m : Machine D) : Range :=
  ⟨m.reg .sp - BitVec.ofNat 32 abi.depth, abi.depth⟩

/-- Return to the caller with the result in r0, when there is one. r4 to r11, sp and all that
is not in the current mode keep their values. -/
def returnTo (abi : Aapcs D) (result : Option Word) (m : Machine D) : Machine D :=
  { m with
    regs := fun b r =>
      if b = m.bank.home r then
        match r with
        | .r0 => result.getD (abi.reg m .r0)
        | .r1 | .r2 | .r3 | .r12 | .lr => abi.reg m r
        | _ => m.regs b r
      else m.regs b r
    cpsr := { abi.psr m with i := m.cpsr.i, f := m.cpsr.f, t := m.cpsr.t, mode := m.cpsr.mode }
    mem := fun x => if x ∈ abi.frames m then abi.stack m x else m.mem x }

/-- `m'` is `m` after a procedure that obeys the procedure call standard. It keeps r4 to r11 and
sp, and no C code touches the registers of other modes, an SPSR or the SCR. The other registers,
the flags, memory and the devices are whatever it leaves. -/
structure Obeyed (m m' : Machine D) : Prop where
  regs : ∀ b r, (b = m.bank.home r → r ∉ [.r0, .r1, .r2, .r3, .r12, .lr]) →
    m'.regs b r = m.regs b r
  spsr : m'.spsr = m.spsr
  mode : m'.cpsr.mode = m.cpsr.mode
  scr : m'.scr = m.scr

theorem returnTo_obeyed (abi : Aapcs D) (result : Option Word) (m : Machine D) :
    Obeyed m (abi.returnTo result m) where
  regs := by
    intro b r kept
    by_cases here : b = m.bank.home r
    · have callee := kept here
      cases r <;> first
        | exact if_pos here
        | exact absurd callee (by simp)
    · exact if_neg here
  spsr := rfl
  mode := rfl
  scr := rfl

end Aapcs

end LTZVisor.Arm
