/- LTZVisor/Monitor/Switch
   kind: spec
   digest: The two halves of a world switch, each as a relation between the guests it connects. -/

import LTZVisor.Monitor.Fiq
import LTZVisor.Monitor.BoardSmc

set_option autoImplicit false
set_option relaxedAutoImplicit false

namespace LTZVisor.Monitor.Switch

open LTZVisor.Lib.Memory LTZVisor.Lib.GicCpu LTZVisor.Arm LTZVisor.Arm.Instr LTZVisor.Arch.Vcpu
open LTZVisor.Boards.Zedboard LTZVisor.Monitor.Macros LTZVisor.Monitor.Handlers
open LTZVisor.Monitor.Scheduler LTZVisor.Monitor.Fiq LTZVisor.Monitor.BoardSmc

theorem get_monitorException (m : Core) (lr : Word) (t : Slot) :
    (monitorException m lr).get t =
      if t = .spsr .mon then m.cpsr.toWord else if t = .reg .mon .lr then lr else m.get t := by
  cases t <;> simp [monitorException, Machine.get]

/-- A scheduling call takes the machine `s` of its caller to the machine `n` of the non-secure
guest, whose registers come from the context at `ctx`. -/
structure Scheduled (ctx : Addr) (s n : Core) : Prop where
  context : ∀ f : CoreReg, n.get f.slot = coreField s.mem ctx f
  others : ∀ t ∉ coreSlots, t ≠ .reg .mon .sp → n.get t = s.get t
  sp : n.regs .mon .sp = s.regs .mon .sp - 100#32
  pc : n.pc = coreField s.mem ctx .lrMon
  cpsr : n.cpsr = Psr.ofWord (coreField s.mem ctx .spsrMon)
  scr : n.scr = nsScr s.scr
  cp15 : n.cp15 = s.cp15
  dev : n.dev = s.dev
  pushed : readWords n.mem (s.regs .mon .sp - 100#32) 25 = (takeSmc s).capture secureSlots
  frame : Frame [⟨s.regs .mon .sp - 108#32, 108⟩] s.mem n.mem

theorem scheduled {s n : Core} {env : Env} {ctx : Addr}
    (sched : s.regs .usr .r0 = ltzvisorSchedSyscall)
    (run : monSmcHandler env (takeSmc s) = some n) (pointer : s.cp15 s.world .tpidrprw = ctx)
    (apart : (⟨s.regs .mon .sp - 108#32, 108⟩ : Range).Disjoint ⟨ctx, 120⟩) :
    Scheduled ctx s n := by
  rw [smc_sched env (takeSmc s) sched, Option.some_inj] at run
  have mode : (atScheduler (takeSmc s)).cpsr.mode = monMode := rfl
  have sp : (atScheduler (takeSmc s)).regs .mon .sp = s.regs .mon .sp := rfl
  have memory : (atScheduler (takeSmc s)).mem = s.mem := rfl
  have scr : (atScheduler (takeSmc s)).scr = s.scr := rfl
  have cp15 : (atScheduler (takeSmc s)).cp15 = s.cp15 := rfl
  have dev : (atScheduler (takeSmc s)).dev = s.dev := rfl
  have get : ∀ t, (atScheduler (takeSmc s)).get t = (takeSmc s).get t := by
    intro t
    cases t <;> rfl
  generalize atScheduler (takeSmc s) = m at *
  have world : m.world = s.world := Machine.world_congr scr
  rw [← world, ← cp15] at pointer
  rw [← sp] at apart
  have entry := exec_monScheduler m mode pointer apart
  rw [run, sp, memory, scr] at entry
  have slots : ∀ t, n.get t = ((m.putAll coreSlots (coreWords s.mem ctx)).put (.reg .mon .sp)
      (s.regs .mon .sp - 100#32)).get t := by
    intro t
    rw [entry]
    cases t <;> simp only [Machine.get]
  have mem := congrArg Machine.mem entry
  simp only at mem
  constructor
  case context =>
    intro f
    have other : f.slot ≠ .reg .mon .sp :=
      fun e => mon_sp_not_mem_coreSlots (e ▸ slot_mem_coreSlots f)
    rw [slots, Machine.get_put, if_neg other, get_putAll_coreWords]
  case others =>
    intro t ht notSp
    have notSpsr : t ≠ .spsr .mon := fun e => ht (e ▸ slot_mem_coreSlots .spsrMon)
    have notLr : t ≠ .reg .mon .lr := fun e => ht (e ▸ slot_mem_coreSlots .lrMon)
    rw [slots, Machine.get_put, if_neg notSp, Machine.get_putAll_of_not_mem ht]
    rw [get, takeSmc, get_monitorException, if_neg notSpsr, if_neg notLr]
  case sp =>
    have sp := slots (.reg .mon .sp)
    rwa [Machine.get_put, if_pos rfl] at sp
  case pushed =>
    have place : s.regs .mon .sp - 100#32 = s.regs .mon .sp - 108#32 + BitVec.ofNat 32 (4 * 2) := by
      bv_omega
    have split := writeWords_append_low s.mem (s.regs .mon .sp - 108#32) (s.regs .mon .sp - 100#32)
      [coreField s.mem ctx .r0, coreField s.mem ctx .r0] ((takeSmc s).capture secureSlots)
      place (by simp [secureSlots])
    rw [mem, Machine.capture_congr fun t _ => get t]
    simp only [List.cons_append, List.nil_append] at split
    rw [← split]
    exact readWords_writeWords _ _ _ (by simp [secureSlots])
  case frame =>
    rw [mem]
    exact Frame.writeWords (Frame.refl _ _) (List.mem_singleton_self _)
      (Range.subset_of_offset (by simp [secureSlots]))
  case pc => simp only [entry]
  case cpsr => simp only [entry]
  case scr => simp only [entry]
  case cp15 => simp only [entry, Machine.put, Machine.setPhys, Machine.putAll_cp15, cp15]
  case dev => simp only [entry, Machine.put, Machine.setPhys, Machine.putAll_dev, dev]

theorem nsScr_world {m : Core} {scr : Word} (route : m.scr = nsScr scr) : m.world = .nonSecure := by
  apply Machine.world_of_bit
  rw [route]
  simp [nsScr, scrNs, scrFiq, scrIrq]

/-- The secure guest at a call that schedules the non-secure guest. -/
structure AtYield (env : Env) (s : Core) : Prop where
  sched : s.regs .usr .r0 = ltzvisorSchedSyscall
  world : s.world = .secure
  sp : s.regs .mon .sp = env.stackTop
  pointer : s.cp15 .secure .tpidrprw = env.nsGuest

/-- The non-secure guest runs with one frame on the monitor stack. -/
structure NsReady (env : Env) (n : Core) : Prop where
  sp : n.regs .mon .sp = env.stackTop - 100#32
  pointer : n.cp15 .secure .tpidrprw = env.nsGuest

/-- While `n` runs, the frame is that of the call of `s`. -/
structure Waiting (env : Env) (s n : Core) : Prop extends NsReady env n where
  frame : secureFrame env n.mem = (takeSmc s).capture secureSlots

theorem frame_subset_stack (env : Env) :
    (⟨env.stackTop - 108#32, 108⟩ : Range).Subset env.stack := by
  have room := env.room
  have size := env.stackSize_le
  apply subset_stack <;> bv_omega

theorem AtYield.scheduled {env : Env} {s n : Core} (yield : AtYield env s)
    (run : monSmcHandler env (takeSmc s) = some n) : Scheduled env.nsGuest s n := by
  apply Switch.scheduled yield.sched run
  · rw [yield.world, yield.pointer]
  · rw [yield.sp]
    exact env.stack_nsGuest.mono (frame_subset_stack env) (core_subset_nsGuest env)

theorem Scheduled.ready {env : Env} {s n : Core} (entered : Scheduled env.nsGuest s n)
    (sp : s.regs .mon .sp = env.stackTop) (pointer : s.cp15 .secure .tpidrprw = env.nsGuest) :
    NsReady env n := by
  constructor
  case sp => rw [entered.sp, sp]
  case pointer => rw [entered.cp15, pointer]

theorem AtYield.waiting {env : Env} {s n : Core} (yield : AtYield env s)
    (run : monSmcHandler env (takeSmc s) = some n) : Waiting env s n where
  toNsReady := (yield.scheduled run).ready yield.sp yield.pointer
  frame := by rw [secureFrame, ← yield.sp, (yield.scheduled run).pushed]

/-- An FIQ takes the machine `n` of the non-secure guest to the machine `s'` of the secure guest
whose call `s` was waiting. -/
structure Resumed (env : Env) (s n s' : Core) : Prop where
  regs : ∀ b r, Slot.reg b r ∈ secureSlots → b ≠ .mon → s'.regs b r = s.regs b r
  spsr : s'.spsr .fiq = msrFc (n.spsr .fiq) (s.spsr .fiq)
  others : ∀ t ∉ secureSlots, t ≠ .reg .mon .sp → s'.get t = n.get t
  sp : s'.regs .mon .sp = env.stackTop
  lr : s'.regs .mon .lr = s.pc
  spsrMon : s'.spsr .mon = msrFc n.cpsr.toWord s.cpsr.toWord
  pc : s'.pc = s.pc
  cpsr : s'.cpsr = Psr.ofWord (msrFc n.cpsr.toWord s.cpsr.toWord)

theorem NsReady.fiqTaken {env : Env} {n : Core} (ready : NsReady env n) :
    FiqTaken env (takeFiq n) (monFiqHandler env (takeFiq n)) :=
  Fiq.fiqTaken env (takeFiq n) rfl ready.sp ready.pointer

theorem frame_word {env : Env} {s n : Core} (waiting : Waiting env s n) {i : Nat} {t : Slot}
    (slot : secureSlots[i]? = some t) :
    read32 n.mem (env.stackTop - 100#32 + BitVec.ofNat 32 (4 * i)) = (takeSmc s).get t :=
  Machine.read32_of_capture waiting.frame slot

theorem Waiting.resumed {env : Env} {s n : Core} (waiting : Waiting env s n) :
    Resumed env s n (monFiqHandler env (takeFiq n)) := by
  have taken := waiting.toNsReady.fiqTaken
  generalize monFiqHandler env (takeFiq n) = s' at *
  have memory : (takeFiq n).mem = n.mem := rfl
  have spsr : (takeFiq n).spsr .mon = n.cpsr.toWord := rfl
  have spsrFiq : (takeFiq n).spsr .fiq = n.spsr .fiq := rfl
  have others : ∀ t ∉ secureSlots, (takeFiq n).get t = n.get t := by
    intro t ht
    have notSpsr : t ≠ .spsr .mon := fun e => ht (by simp [secureSlots, e])
    have notLr : t ≠ .reg .mon .lr := fun e => ht (by simp [secureSlots, e])
    rw [takeFiq, get_monitorException, if_neg notSpsr, if_neg notLr]
  have inside : ∀ t ∈ secureSlots,
      s'.get t = (takeFiq n).landed t ((takeSmc s).get t) := by
    intro t ht
    have notSp : t ≠ .reg .mon .sp := fun e => mon_sp_not_mem_secureSlots (e ▸ ht)
    rw [taken.slots, Machine.get_put, if_neg notSp, memory, waiting.frame,
      Machine.get_putAll_landed _ _ secureSlots_nodup ht]
  constructor
  case regs =>
    intro b r hr notMon
    have reg := inside (.reg b r) hr
    rw [Machine.landed, takeSmc, get_monitorException, if_neg (by simp),
      if_neg (by simp [notMon])] at reg
    exact reg
  case spsr =>
    have reg := inside (.spsr .fiq) (by simp [secureSlots])
    rw [Machine.landed, takeSmc, get_monitorException, if_neg (by simp), if_neg (by simp),
      spsrFiq] at reg
    exact reg
  case others =>
    intro t ht notSp
    rw [taken.slots, Machine.get_put, if_neg notSp, Machine.get_putAll_of_not_mem ht, others t ht]
  case sp =>
    have sp := taken.slots (.reg .mon .sp)
    rwa [Machine.get_put, if_pos rfl] at sp
  case lr =>
    have lr := inside (.reg .mon .lr) (by simp [secureSlots])
    rw [Machine.landed, takeSmc, get_monitorException, if_neg (by simp), if_pos rfl] at lr
    exact lr
  case spsrMon =>
    have reg := inside (.spsr .mon) (by simp [secureSlots])
    rw [Machine.landed, takeSmc, get_monitorException, if_pos rfl, spsr] at reg
    exact reg
  case pc =>
    have word := frame_word waiting (i := 9) (t := .reg .mon .lr) rfl
    have place : env.stackTop - 100#32 + BitVec.ofNat 32 (4 * 9) = env.stackTop - 64#32 := by
      bv_omega
    rw [place] at word
    rw [taken.pc, memory, word]
    rfl
  case cpsr =>
    have word := frame_word waiting (i := 8) (t := .spsr .mon) rfl
    have place : env.stackTop - 100#32 + BitVec.ofNat 32 (4 * 8) = env.stackTop - 68#32 := by
      bv_omega
    rw [place] at word
    rw [taken.cpsr, memory, word, spsr]
    rfl

end LTZVisor.Monitor.Switch
