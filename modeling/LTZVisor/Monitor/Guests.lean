/- LTZVisor/Monitor/Guests
   kind: model
   digest: What the guests do between two exceptions, and what waits on the stack meanwhile. -/

import LTZVisor.Monitor.Switch
import LTZVisor.Lib.Runs

set_option autoImplicit false
set_option relaxedAutoImplicit false

namespace LTZVisor.Monitor.Guests

open LTZVisor.Lib.Memory LTZVisor.Lib.Runs LTZVisor.Arm LTZVisor.Arch.Vcpu
open LTZVisor.Boards.Zedboard LTZVisor.Monitor.Macros LTZVisor.Monitor.Handlers
open LTZVisor.Monitor.Scheduler LTZVisor.Monitor.BoardSmc LTZVisor.Monitor.Switch

/-- The non-secure guest runs from `m` to `m'`. It reaches all registers but those of Monitor
mode, SCR and the secure bank of TPIDRPRW, and no secure memory. Its CPSR.F is fixed while SCR.FW
is clear. -/
structure NsRun (env : Env) (m m' : Core) : Prop where
  sp : m'.regs .mon .sp = m.regs .mon .sp
  mode : m'.cpsr.mode ≠ monMode
  f : m.scr &&& scrFw = 0#32 → m'.cpsr.f = m.cpsr.f
  scr : m'.scr = m.scr
  pointer : m'.cp15 .secure .tpidrprw = m.cp15 .secure .tpidrprw
  stack : ∀ x ∈ env.stack, m'.mem x = m.mem x
  nsGuest : ∀ x ∈ env.nsGuestRange, m'.mem x = m.mem x

/-- The secure guest runs from `m` to `m'`, with all registers, memory and devices at its disposal
but the data of the monitor. -/
structure SecRun (env : Env) (m m' : Core) : Prop where
  scr : m'.scr &&& scrNs = m.scr &&& scrNs
  pointer : m'.cp15 .secure .tpidrprw = m.cp15 .secure .tpidrprw
  nsGuest : ∀ x ∈ env.nsGuestRange, m'.mem x = m.mem x

/-- A call of the board from the guest `m` gives it back as `m'`. -/
structure BoardCall (env : Env) (m m' : Core) : Prop where
  negative : (m.regs .usr .r0).msb = true
  run : monSmcHandler env (takeSmc m) = some m'

/-- The non-secure guest at work: it runs, and it makes calls that do not store into the monitor
stack. The code of the monitor is fixed here, also where a store changes the bytes that hold it. -/
inductive NsStep (env : Env) (m m' : Core) : Prop
  | guest : NsRun env m m' → NsStep env m m'
  | call : BoardCall env m m' → StoreMisses m env.stack → NsStep env m m'

private theorem secureFrame_congr {env : Env} {mem mem' : Mem}
    (same : ∀ x ∈ (⟨env.stackTop - 100#32, 100⟩ : Range), mem' x = mem x) :
    secureFrame env mem' = secureFrame env mem :=
  readWords_congr same

theorem secureFrame_subset_stack (env : Env) :
    (⟨env.stackTop - 100#32, 100⟩ : Range).Subset env.stack :=
  (Range.subset_of_offset (by bv_omega)).trans (frame_subset_stack env)

theorem callFrames_subset_stack {env : Env} {m : Core}
    (sp : m.regs .mon .sp = env.stackTop ∨ m.regs .mon .sp = env.stackTop - 100#32) :
    (callFrames env m).Subset env.stack := by
  have room := env.room
  have size := env.stackSize_le
  rcases sp with sp | sp <;> apply subset_stack <;> rw [sp] <;> bv_omega

theorem call_ne_none {env : Env} {m : Core}
    (sp : m.regs .mon .sp = env.stackTop ∨ m.regs .mon .sp = env.stackTop - 100#32)
    (negative : (m.regs .usr .r0).msb = true) (misses : StoreMisses m env.stack) :
    monSmcHandler env (takeSmc m) ≠ none := by
  intro stuck
  rw [smc_negative env (takeSmc m) negative, boardSmc_eq_none_iff env _ rfl] at stuck
  obtain ⟨write, hits⟩ := stuck
  apply hits
  rw [entry_frames]
  have room := env.room
  have size := env.stackSize_le
  have low : (boardFrames env m).Subset (callFrames env m) :=
    Range.subset_of_offset (by bv_omega)
  exact (misses write).mono (Range.Subset.refl _) (low.trans (callFrames_subset_stack sp))

theorem BoardCall.called {env : Env} {m m' : Core} (call : BoardCall env m m')
    (misses : StoreMisses m env.stack)
    (sp : m.regs .mon .sp = env.stackTop ∨ m.regs .mon .sp = env.stackTop - 100#32) :
    BoardCalled env m m' := by
  apply boardCalled call.negative call.run
  intro write x hit inside
  exact misses write x hit (callFrames_subset_stack sp x inside)

theorem ready_preserved (env : Env) : Preserves (NsStep env) (NsReady env) := by
  intro m m' ready next
  cases next with
  | guest run =>
    constructor
    case sp => rw [run.sp, ready.sp]
    case pointer => rw [run.pointer, ready.pointer]
  | call call misses =>
    have called := call.called misses (.inr ready.sp)
    constructor
    case sp =>
      rw [← ready.sp]
      exact called.others (.reg .mon .sp) (by simp) (by simp) (by simp)
    case pointer => rw [called.cp15, ready.pointer]

theorem waiting_preserved (env : Env) (s : Core) : Preserves (NsStep env) (Waiting env s) := by
  intro m m' waiting next
  refine ⟨ready_preserved env waiting.toNsReady next, ?_⟩
  rw [← waiting.frame]
  apply secureFrame_congr
  intro x hx
  have inside := secureFrame_subset_stack env x hx
  cases next with
  | guest run => exact run.stack x inside
  | call call misses =>
    have room := env.room
    have size := env.stackSize_le
    have called := call.called misses (.inr waiting.sp)
    have above : x ∉ callFrames env m := by
      rw [callFrames, waiting.sp, mem_range]
      rw [mem_range] at hx
      bv_omega
    rw [called.mem x above, boardResult, boardHandler_mem, if_neg]
    rintro ⟨write, hit⟩
    exact misses write x hit inside

theorem NsRun.refl {env : Env} {m : Core} (mode : m.cpsr.mode ≠ monMode) : NsRun env m m :=
  ⟨rfl, mode, fun _ => rfl, rfl, rfl, fun _ _ => rfl, fun _ _ => rfl⟩

theorem NsRun.put {env : Env} {m : Core} (mode : m.cpsr.mode ≠ monMode) {t : Slot}
    (notSp : t ≠ .reg .mon .sp) (v : Word) : NsRun env m (m.put t v) := by
  have sp := Machine.get_put m t (.reg .mon .sp) v
  rw [if_neg (Ne.symm notSp)] at sp
  cases t with
  | reg b r => exact ⟨sp, mode, fun _ => rfl, rfl, rfl, fun _ _ => rfl, fun _ _ => rfl⟩
  | spsr b => exact ⟨sp, mode, fun _ => rfl, rfl, rfl, fun _ _ => rfl, fun _ _ => rfl⟩

def zedboardGuest : Core :=
  { (blankCore svcMode).put (.reg .mon .sp) (zedboard.stackTop - 100#32) with
    cp15 := fun _ _ => zedboard.nsGuest
    scr := nsScr 0#32 }

theorem zedboardGuest_ready : NsReady zedboard zedboardGuest := ⟨rfl, rfl⟩

/-- The secure guest of the board at its first call of the scheduler, with the status register
that `ltzvisor_nsguest_create` chose in the context. -/
def zedboardYield : Core :=
  let s := (blankCore svcMode).put (.reg .usr .r0) ltzvisorSchedSyscall
  { s.put (.reg .mon .sp) zedboard.stackTop with
    cp15 := fun _ _ => zedboard.nsGuest
    mem := write32 s.mem (zedboard.nsGuest + BitVec.ofNat 32 (CoreReg.offset .spsrMon)) 0x193#32 }

theorem zedboardYield_atYield : AtYield zedboard zedboardYield where
  sched := rfl
  world := rfl
  sp := rfl
  pointer := rfl

theorem zedboardYield_spsrMon : coreField zedboardYield.mem zedboard.nsGuest .spsrMon = 0x193#32 :=
  read32_writeWords_singleton _ _ _

end LTZVisor.Monitor.Guests
