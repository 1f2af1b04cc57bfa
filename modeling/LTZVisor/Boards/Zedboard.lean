/- LTZVisor/Boards/Zedboard
   kind: model
   digest: The system calls of the board and the memory that its boot code leaves secure. -/

import LTZVisor.Lib.Memory

set_option autoImplicit false
set_option relaxedAutoImplicit false

namespace LTZVisor.Boards.Zedboard

open LTZVisor.Lib.Memory

def ltzvisorSchedSyscall : Word := 0x0ffffff1#32
def ltzvisorReadSyscall : Word := -30#32
def ltzvisorWriteSyscall : Word := -31#32

/-- The result and the memory after `board_handler(arg0, arg1, arg2, arg3)`. -/
def boardHandler (arg0 arg1 arg2 _arg3 : Word) (mem : Mem) : Word × Mem :=
  if arg0 = ltzvisorReadSyscall then (read32 mem arg1, mem)
  else if arg0 = ltzvisorWriteSyscall then (arg0, write32 mem arg1 arg2)
  else (arg0, mem)

theorem boardHandler_mem (arg0 arg1 arg2 arg3 : Word) (mem : Mem) (x : Addr) :
    (boardHandler arg0 arg1 arg2 arg3 mem).2 x =
      if arg0 = ltzvisorWriteSyscall ∧ x ∈ (⟨arg1, 4⟩ : Range) then byte arg2 (x - arg1).toNat
      else mem x := by
  have other : ltzvisorWriteSyscall ≠ ltzvisorReadSyscall := by decide
  unfold boardHandler
  by_cases write : arg0 = ltzvisorWriteSyscall
  · subst write
    rw [if_neg other, if_pos rfl]
    exact (write32_apply mem arg1 arg2 x).trans (by simp only [true_and])
  · rw [if_neg write]
    simp only [write, false_and, if_false]
    split <;> rfl

/-- The result depends on the word that a read call reads only. -/
theorem boardHandler_result_congr {arg0 arg1 arg2 arg3 : Word} {mem mem' : Mem}
    (same : arg0 = ltzvisorReadSyscall → ∀ x ∈ (⟨arg1, 4⟩ : Range), mem x = mem' x) :
    (boardHandler arg0 arg1 arg2 arg3 mem).1 = (boardHandler arg0 arg1 arg2 arg3 mem').1 := by
  unfold boardHandler
  split_ifs with read
  · exact read32_congr (same read)
  · rfl
  · rfl

/-- What it writes to `TZ_DDR_RAM`: bit `i` opens segment `i` of 64 MB to the non-secure world. -/
def tzDdrRam : Word := 0x0000007f#32

/-- A byte of the DDR in a segment that `segments` does not open. -/
def LeftSecure (segments : Word) (x : Addr) : Prop :=
  x.toNat < 2 ^ 30 ∧ segments.getLsbD (x.toNat / 2 ^ 26) = false

def secureDdr : Range := ⟨0x1C000000#32, 0x24000000⟩

/-- The region `DDR_NS` of `linker.ld`, where the linker puts nothing of the hypervisor. -/
def ddrNs : Range := ⟨0x00100000#32, 0x1BEFFFFF⟩

theorem ddrNs_disjoint : ddrNs.Disjoint secureDdr :=
  Range.disjoint_of_apart (by decide) (by decide)

theorem leftSecure_iff (x : Addr) : LeftSecure tzDdrRam x ↔ x ∈ secureDdr := by
  have segments : ∀ i < 16, tzDdrRam.getLsbD i = decide (i < 7) := by decide
  have range : x ∈ secureDdr ↔ 0x1C000000 ≤ x.toNat ∧ x.toNat < 2 ^ 30 := by
    rw [secureDdr, mem_range]
    bv_omega
  rw [range, LeftSecure, and_comm]
  refine and_congr_left fun inside => ?_
  rw [segments _ (by omega), decide_eq_false_iff_not]
  omega

end LTZVisor.Boards.Zedboard
