/- LTZVisor/Arch/Vcpu
   kind: model
   digest: The layout of the guest context NS_Guest and the registers behind its fields. -/

import LTZVisor.Arm.Slot

set_option autoImplicit false
set_option relaxedAutoImplicit false

namespace LTZVisor.Arch.Vcpu

open LTZVisor.Lib.Memory LTZVisor.Arm

/-- The fields of `struct core_regs`. -/
inductive CoreReg
  | r0 | r1 | r2 | r3 | r4 | r5 | r6 | r7 | r8 | r9 | r10 | r11 | r12
  | spsrMon | lrMon | spsrSvc | r13Svc | lrSvc | spsrSys | r13Sys | lrSys
  | spsrAbt | r13Abt | lrAbt | spsrUndef | r13Undef | lrUndef | spsrIrq | r13Irq | lrIrq
  deriving DecidableEq

namespace CoreReg

def slot : CoreReg → Slot
  | r0 => .reg .usr .r0
  | r1 => .reg .usr .r1
  | r2 => .reg .usr .r2
  | r3 => .reg .usr .r3
  | r4 => .reg .usr .r4
  | r5 => .reg .usr .r5
  | r6 => .reg .usr .r6
  | r7 => .reg .usr .r7
  | r8 => .reg .usr .r8
  | r9 => .reg .usr .r9
  | r10 => .reg .usr .r10
  | r11 => .reg .usr .r11
  | r12 => .reg .usr .r12
  | spsrMon => .spsr .mon
  | lrMon => .reg .mon .lr
  | spsrSvc => .spsr .svc
  | r13Svc => .reg .svc .sp
  | lrSvc => .reg .svc .lr
  | spsrSys => .spsr .usr
  | r13Sys => .reg .usr .sp
  | lrSys => .reg .usr .lr
  | spsrAbt => .spsr .abt
  | r13Abt => .reg .abt .sp
  | lrAbt => .reg .abt .lr
  | spsrUndef => .spsr .und
  | r13Undef => .reg .und .sp
  | lrUndef => .reg .und .lr
  | spsrIrq => .spsr .irq
  | r13Irq => .reg .irq .sp
  | lrIrq => .reg .irq .lr

def all : List CoreReg :=
  [r0, r1, r2, r3, r4, r5, r6, r7, r8, r9, r10, r11, r12, spsrMon, lrMon, spsrSvc, r13Svc, lrSvc,
    spsrSys, r13Sys, lrSys, spsrAbt, r13Abt, lrAbt, spsrUndef, r13Undef, lrUndef, spsrIrq, r13Irq,
    lrIrq]

def index (f : CoreReg) : Nat := all.idxOf f

private theorem mem_all (f : CoreReg) : f ∈ all := by
  cases f <;> simp [all]

theorem index_lt (f : CoreReg) : f.index < 30 := List.idxOf_lt_length_of_mem (mem_all f)

def offset (f : CoreReg) : Nat := 4 * f.index

@[simp] theorem offset_r4 : offset r4 = 16 := rfl

end CoreReg

/-- What a context save covers, in the order of the structure. -/
def coreSlots : List Slot := CoreReg.all.map CoreReg.slot

theorem coreSlots_nodup : coreSlots.Nodup := by
  simp [coreSlots, CoreReg.all, CoreReg.slot]

@[simp] theorem coreSlots_length : coreSlots.length = 30 := rfl

theorem slot_mem_coreSlots (f : CoreReg) : f.slot ∈ coreSlots :=
  List.mem_map_of_mem (CoreReg.mem_all f)

theorem mon_sp_not_mem_coreSlots : Slot.reg .mon .sp ∉ coreSlots := by
  simp [coreSlots, CoreReg.all, CoreReg.slot]

/-- The fields of `struct cp15_regs`, in the order of their declaration. -/
def cp15Regs : List Cp15Reg :=
  [.csselr, .sctlr, .actlr, .ttbr0, .ttbr1, .ttbcr, .dacr, .dfsr, .ifsr, .dfar, .ifar, .par,
    .prrr, .nmrr, .vbar, .fcseidr, .contextidr, .tpidrurw, .tpidruro, .tpidrprw]

-- Offsets in the structure `tzmachine`: the core, CP15 and GIC registers of `struct vcpu_arch`,
-- then the name of 30 bytes, two bytes of padding and two words.

def coreOffset : Nat := 0
def cp15Offset : Nat := 120
def nameOffset : Nat := 216
def idOffset : Nat := 248
def bootingOffset : Nat := 252
def tzmachineSize : Nat := 256

def coreWords (mem : Mem) (ctx : Addr) : List Word := readWords mem ctx 30

@[simp] theorem coreWords_length (mem : Mem) (ctx : Addr) : (coreWords mem ctx).length = 30 := by
  simp [coreWords]

def coreField (mem : Mem) (ctx : Addr) (f : CoreReg) : Word :=
  read32 mem (ctx + BitVec.ofNat 32 f.offset)

theorem all_index (f : CoreReg) : CoreReg.all[f.index]? = some f :=
  List.getElem?_idxOf (CoreReg.mem_all f)

private theorem coreSlots_index (f : CoreReg) : coreSlots[f.index]? = some f.slot := by
  simp [coreSlots, all_index f]

theorem coreWords_index (mem : Mem) (ctx : Addr) (f : CoreReg) :
    (coreWords mem ctx)[f.index]? = some (coreField mem ctx f) := by
  have bound := f.index_lt
  simp [coreWords, readWords, List.getElem?_range bound, coreField, CoreReg.offset]

theorem get_putAll_coreWords {D : Type} (m : Machine D) (mem : Mem) (ctx : Addr) (f : CoreReg) :
    (m.putAll coreSlots (coreWords mem ctx)).get f.slot = coreField mem ctx f :=
  Machine.get_putAll m coreSlots_nodup (coreSlots_index f) (coreWords_index mem ctx f)

theorem coreField_writeWords {D : Type} (m : Machine D) (mem : Mem) (ctx : Addr) (f : CoreReg) :
    coreField (writeWords mem ctx (m.capture coreSlots)) ctx f = m.get f.slot :=
  read32_writeWords_at mem ctx _ f.index (by simp [Machine.capture, coreSlots_index f]) (by simp)

theorem coreField_r0 (mem : Mem) (ctx : Addr) : coreField mem ctx .r0 = read32 mem ctx := by
  rw [coreField, show BitVec.ofNat 32 (CoreReg.offset .r0) = 0#32 from rfl, BitVec.add_zero]

theorem coreField_congr {mem mem' : Mem} {ctx : Addr} (f : CoreReg)
    (same : ∀ x ∈ (⟨ctx, 120⟩ : Range), mem x = mem' x) :
    coreField mem ctx f = coreField mem' ctx f := by
  apply read32_congr
  intro x hx
  apply same
  have bound := f.index_lt
  rw [mem_range, CoreReg.offset] at hx
  rw [mem_range]
  bv_omega

/-- A machine that holds a context in its registers and is `m` elsewhere, memory aside. -/
theorem eq_putAll_coreSlots {D : Type} {m m' : Machine D} {ws : List Word} {mem : Mem}
    (inside : ∀ f : CoreReg, ws[f.index]? = some (m'.get f.slot))
    (outside : ∀ s ∉ coreSlots, m'.get s = m.get s) (cpsr : m'.cpsr = m.cpsr) (pc : m'.pc = m.pc)
    (scr : m'.scr = m.scr) (cp15 : m'.cp15 = m.cp15) (dev : m'.dev = m.dev)
    (memory : m'.mem = mem) : m' = { m.putAll coreSlots ws with mem } := by
  have slots : ∀ s, m'.get s = (m.putAll coreSlots ws).get s := by
    intro s
    by_cases hs : s ∈ coreSlots
    · obtain ⟨f, -, rfl⟩ := List.mem_map.mp hs
      rw [Machine.get_putAll m coreSlots_nodup (coreSlots_index f) (inside f)]
    · rw [outside s hs, Machine.get_putAll_of_not_mem hs]
  apply Machine.ext
  case regs => exact funext fun b => funext fun r => slots (.reg b r)
  case spsr => exact funext fun b => slots (.spsr b)
  case mem => exact memory
  all_goals simpa only [Machine.putAll_cpsr, Machine.putAll_pc, Machine.putAll_scr,
    Machine.putAll_cp15, Machine.putAll_dev]

end LTZVisor.Arch.Vcpu
