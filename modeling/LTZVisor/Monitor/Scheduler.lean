/- LTZVisor/Monitor/Scheduler
   kind: spec
   digest: The monitor scheduler: the secure frame it pushes and the guest context it loads. -/

import LTZVisor.Monitor.Handlers

set_option autoImplicit false
set_option relaxedAutoImplicit false

namespace LTZVisor.Monitor.Scheduler

open LTZVisor.Lib.Memory LTZVisor.Lib.GicCpu LTZVisor.Arm LTZVisor.Arm.Instr LTZVisor.Arch.Vcpu
open LTZVisor.Monitor.Macros LTZVisor.Monitor.Handlers

private theorem exec_pushSecureFrame (m : Core) (h : m.cpsr.mode = monMode) :
    exec pushSecureFrame m =
      { ((m.put (.reg .usr .r0) (m.regs .mon .sp - 100#32)).put (.reg .usr .r1) (m.spsr .fiq)).put
          (.reg .mon .sp) (m.regs .mon .sp - 100#32) with
        mem := writeWords m.mem (m.regs .mon .sp - 100#32) (m.capture secureSlots) } := by
  conv_lhs => simp [pushSecureFrame, h, sub_ofNat_sub_ofNat]
  apply Machine.ext
  case regs =>
    funext b r
    cases b <;> cases r <;> simp [Machine.put]
  case mem =>
    rw [writeWords_append _ _ _ _ _ (by simp; bv_omega),
      writeWords_append _ _ _ _ _ (by simp; bv_omega),
      writeWords_append _ _ _ _ _ (by simp; bv_omega)]
    rfl
  case cpsr => simp only [← h]; simp [Machine.put]
  all_goals simp [Machine.put]

private theorem exec_enterNsWorld (m : Core) (h : m.cpsr.mode = monMode) {ctx : Addr}
    (pointer : m.cp15 m.world .tpidrprw = ctx)
    (apart : (⟨m.regs .mon .sp - 8#32, 8⟩ : Range).Disjoint ⟨ctx, 120⟩) :
    exec (getNsWorldContext ++ worldContextRestore ++ scrNsSet ++ [isb, dsb, movsPcLr]) m =
      { m.putAll coreSlots (coreWords m.mem ctx) with
        cpsr := Psr.ofWord (coreField m.mem ctx .spsrMon)
        pc := coreField m.mem ctx .lrMon
        scr := nsScr m.scr
        mem := writeWords m.mem (m.regs .mon .sp - 8#32)
          [coreField m.mem ctx .r0, coreField m.mem ctx .r0] } := by
  have load : exec worldContextRestore (m.setPhys .usr .r0 ctx) =
      { (m.put (CoreReg.slot .r0) ctx).putAll coreSlots (coreWords m.mem ctx) with
        mem := writeWords m.mem (m.regs .mon .sp - 8#32)
          [coreField m.mem ctx .r0, coreField m.mem ctx .r1] } :=
    exec_worldContextRestore (m.setPhys .usr .r0 ctx) h (by simp) apart
  rw [Machine.putAll_put_of_mem m coreSlots_nodup (by simp) (slot_mem_coreSlots .r0)] at load
  have sp := Machine.get_putAll_of_not_mem mon_sp_not_mem_coreSlots (coreWords m.mem ctx) m
  have r0 := get_putAll_coreWords m m.mem ctx .r0
  have lr := get_putAll_coreWords m m.mem ctx .lrMon
  have spsr := get_putAll_coreWords m m.mem ctx .spsrMon
  have mode := Machine.putAll_cpsr m coreSlots (coreWords m.mem ctx)
  have scr := Machine.putAll_scr m coreSlots (coreWords m.mem ctx)
  simp only [Machine.get, CoreReg.slot] at sp r0 lr spsr
  simp only [exec_append, exec_getNsWorldContext, pointer, load]
  generalize m.putAll coreSlots (coreWords m.mem ctx) = loaded at *
  rw [exec_scrNsSet _ (by simpa [mode] using h)]
  have next : m.regs .mon .sp - 4#32 = m.regs .mon .sp - 8#32 + 4#32 := by bv_omega
  apply Machine.ext
  case mem => simp [sp, r0, next, writeWords_pair_upper]
  case cpsr => simp [h, spsr, mode]
  case pc => simp [h, lr, mode]
  case scr => simp [scr]
  all_goals simp

theorem exec_monScheduler (m : Core) (h : m.cpsr.mode = monMode) {ctx : Addr}
    (pointer : m.cp15 m.world .tpidrprw = ctx)
    (apart : (⟨m.regs .mon .sp - 108#32, 108⟩ : Range).Disjoint ⟨ctx, 120⟩) :
    exec monScheduler m =
      { (m.putAll coreSlots (coreWords m.mem ctx)).put (.reg .mon .sp)
          (m.regs .mon .sp - 100#32) with
        cpsr := Psr.ofWord (coreField m.mem ctx .spsrMon)
        pc := coreField m.mem ctx .lrMon
        scr := nsScr m.scr
        mem := writeWords m.mem (m.regs .mon .sp - 108#32)
          (coreField m.mem ctx .r0 :: coreField m.mem ctx .r0 :: m.capture secureSlots) } := by
  have missed : ∀ x ∈ (⟨ctx, 120⟩ : Range),
      writeWords m.mem (m.regs .mon .sp - 100#32) (m.capture secureSlots) x = m.mem x := by
    intro x hx
    apply writeWords_of_not_mem
    intro hw
    refine apart x ?_ hx
    exact Range.subset_of_offset (by simp [secureSlots]) x hw
  have words : coreWords (writeWords m.mem (m.regs .mon .sp - 100#32) (m.capture secureSlots)) ctx =
      coreWords m.mem ctx := readWords_congr missed
  have fields : ∀ f,
      coreField (writeWords m.mem (m.regs .mon .sp - 100#32) (m.capture secureSlots)) ctx f =
        coreField m.mem ctx f := fun f => coreField_congr f missed
  have low : (⟨m.regs .mon .sp - 100#32 - 8#32, 8⟩ : Range).Disjoint ⟨ctx, 120⟩ :=
    apart.mono (Range.subset_of_offset (by bv_omega)) (Range.Subset.refl _)
  have slots : ∀ sp r1 : Word,
      (((m.put (.reg .usr .r0) sp).put (.reg .usr .r1) r1).put (.reg .mon .sp) sp).putAll
        coreSlots (coreWords m.mem ctx) =
      (m.putAll coreSlots (coreWords m.mem ctx)).put (.reg .mon .sp) sp := by
    intro sp r1
    have r0_mem : Slot.reg .usr .r0 ∈ coreSlots := slot_mem_coreSlots .r0
    have r1_mem : Slot.reg .usr .r1 ∈ coreSlots := slot_mem_coreSlots .r1
    rw [Machine.putAll_put_of_not_mem _ coreSlots_nodup (by simp) mon_sp_not_mem_coreSlots,
      Machine.putAll_put_of_mem _ coreSlots_nodup (by simp) r1_mem,
      Machine.putAll_put_of_mem _ coreSlots_nodup (by simp) r0_mem]
  have loaded : (exec pushSecureFrame m).putAll coreSlots (coreWords m.mem ctx) =
      { (m.putAll coreSlots (coreWords m.mem ctx)).put (.reg .mon .sp)
          (m.regs .mon .sp - 100#32) with
        mem := writeWords m.mem (m.regs .mon .sp - 100#32) (m.capture secureSlots) } := by
    rw [exec_pushSecureFrame m h, Machine.putAll_withMem, slots]
  have mem : (exec pushSecureFrame m).mem =
      writeWords m.mem (m.regs .mon .sp - 100#32) (m.capture secureSlots) := by
    rw [exec_pushSecureFrame m h]
  have sp : (exec pushSecureFrame m).regs .mon .sp = m.regs .mon .sp - 100#32 := by
    simp [exec_pushSecureFrame m h, Machine.put]
  have scr : (exec pushSecureFrame m).scr = m.scr := by
    simp [exec_pushSecureFrame m h, Machine.put]
  have mode : (exec pushSecureFrame m).cpsr.mode = monMode := by
    simpa [exec_pushSecureFrame m h, Machine.put] using h
  have pointer' : (exec pushSecureFrame m).cp15 (exec pushSecureFrame m).world .tpidrprw = ctx := by
    rw [exec_pushSecureFrame m h]
    exact pointer
  have place : m.regs .mon .sp - 100#32 - 8#32 = m.regs .mon .sp - 108#32 := by bv_omega
  have frame := writeWords_append m.mem (m.regs .mon .sp - 108#32) (m.regs .mon .sp - 100#32)
    [coreField m.mem ctx .r0, coreField m.mem ctx .r0] (m.capture secureSlots)
    (by simp only [List.length_cons, List.length_nil]; bv_omega)
  have whole : exec monScheduler m = exec (getNsWorldContext ++ worldContextRestore ++ scrNsSet ++
      [isb, dsb, movsPcLr]) (exec pushSecureFrame m) := by
    simp only [monScheduler, exec_append]
  rw [whole]
  generalize exec pushSecureFrame m = pushed at *
  rw [exec_enterNsWorld pushed mode pointer' (sp ▸ low), mem, words, fields, fields, fields,
    loaded, sp, scr, place, frame]
  rfl

theorem subset_stack (env : Env) {a : Addr} {n : Nat}
    (deep : (env.stackTop - a).toNat ≤ env.stackSize) (below : n ≤ (env.stackTop - a).toNat) :
    (⟨a, n⟩ : Range).Subset env.stack := by
  have bound := env.stackSize_le
  apply Range.subset_of_offset
  bv_omega

theorem core_subset_nsGuest (env : Env) :
    (⟨env.nsGuest, 120⟩ : Range).Subset env.nsGuestRange :=
  Range.subset_of_offset (by simp [tzmachineSize])

theorem secureSlots_nodup : secureSlots.Nodup := by
  simp [secureSlots]

theorem mon_sp_not_mem_secureSlots : Slot.reg .mon .sp ∉ secureSlots := by
  simp [secureSlots]

/-- The 25 words of the secure frame while the non-secure world runs. -/
def secureFrame (env : Env) (mem : Mem) : List Word := readWords mem (env.stackTop - 100#32) 25

end LTZVisor.Monitor.Scheduler
