/- LTZVisor/Monitor/StackBalance
   kind: property
   digest: The stack pointer of the monitor over whole runs, and where contexts are loaded from. -/

import LTZVisor.Monitor.EventInvariant

set_option autoImplicit false
set_option relaxedAutoImplicit false

namespace LTZVisor.Monitor.StackBalance

open LTZVisor.Lib.Memory LTZVisor.Lib.Runs LTZVisor.Arm LTZVisor.Arch.Vcpu
open LTZVisor.Boards.Zedboard LTZVisor.Monitor.Macros LTZVisor.Monitor.Handlers
open LTZVisor.Monitor.Scheduler LTZVisor.Monitor.BoardSmc LTZVisor.Monitor.Switch
open LTZVisor.Monitor.Guests LTZVisor.Monitor.Events LTZVisor.Monitor.EventInvariant

/-- One frame lies on the stack of the monitor while the non-secure world runs, and none while the
secure world does. -/
def Balanced (env : Env) (s : State) : Prop := s.core.regs .mon .sp = stackOf env s.runs

/-- A call of the scheduler loads the context that the monitor keeps. -/
def LoadsNsGuest (env : Env) (s : State) : Prop :=
  s.core.regs .usr .r0 = ltzvisorSchedSyscall → ∀ n, monSmcHandler env (takeSmc s.core) = some n →
    ∀ f : CoreReg, n.get f.slot = coreField s.core.mem env.nsGuest f

/-- No guest is in Monitor mode, nor will the other one come back in it. -/
def OutsideMonitor (_ : World) (p : Psr) : Prop := p.mode ≠ monMode

private theorem outsideMonitor_stable : Stable OutsideMonitor where
  mode := fun outside => outside
  flags := by
    intro old new outside
    rw [OutsideMonitor, (control_msrFc old new).1]
    exact outside

variable {env : Env} {image : Range}

theorem Kickoff.kept {s : State} (start : Kickoff env s) : Kept env OutsideMonitor s := by
  obtain ⟨w, m⟩ := s
  obtain rfl : w = .secure := start.runs
  constructor
  case world => exact if_pos (and_eq_zero scrNs 0 (by decide) start.ns)
  case sp => exact start.sp
  case pointer => exact start.pointer
  case running =>
    change m.cpsr.mode ≠ monMode
    rw [start.mode]
    decide
  case waiting =>
    change (Psr.ofWord (coreField m.mem env.nsGuest .spsrMon)).mode ≠ monMode
    rw [start.context]
    decide

private theorem kept_preserved (env : Env) (image : Range) :
    Preserves (DisciplinedStep env image) (Kept env OutsideMonitor) := by
  rintro s s' kept ⟨e, disciplined, next⟩
  have safe := kept.safe outsideMonitor_stable disciplined next
  refine kept.step outsideMonitor_stable safe fun isWork => ?_
  subst isWork
  cases safe with
  | nsWork ran => exact ran.mode
  | secWork ran => exact ran.mode

theorem Kept.loads {s : State} (kept : Kept env OutsideMonitor s)
    (disciplined : Disciplined env image .smc s) : LoadsNsGuest env s := by
  obtain ⟨w, m⟩ := s
  intro sched n run
  obtain ⟨secure, -⟩ := disciplined rfl
  obtain rfl : w = .secure := secure sched
  exact ((kept.atYield sched).scheduled run).context

theorem balanced_of_disciplined (env : Env) (image : Range) {s0 s : State} (start : Kickoff env s0)
    (run : Run (DisciplinedStep env image) s0 s) :
    Balanced env s ∧ (Disciplined env image .smc s → LoadsNsGuest env s) := by
  have kept := (kept_preserved env image).run (Kickoff.kept start) run
  exact ⟨kept.sp, Kept.loads kept⟩

/-- The first switch of the board: the frame of the secure guest is on the stack. -/
theorem balanced_of_disciplined_zedboard : Kickoff zedboard zedboardKickoff ∧
    ∃ n, DisciplinedStep zedboard zedboardImage zedboardKickoff ⟨.nonSecure, n⟩ ∧
      Balanced zedboard ⟨.nonSecure, n⟩ := by
  obtain ⟨n, run⟩ : ∃ n, monSmcHandler zedboard (takeSmc zedboardKickoff.core) = some n :=
    ⟨_, smc_sched zedboard _ rfl⟩
  have next : DisciplinedStep zedboard zedboardImage zedboardKickoff ⟨.nonSecure, n⟩ := by
    refine ⟨.smc, fun _ => ⟨fun _ => rfl, fun r _ write => ?_⟩, .sched (by decide) rfl run⟩
    exact absurd write (by decide)
  exact ⟨zedboardKickoff_kickoff, n, next,
    (balanced_of_disciplined zedboard zedboardImage zedboardKickoff_kickoff (.single next)).1⟩

/-- What a non-secure guest may prepare before it calls the scheduler itself: its own context
pointer, and a context behind it. -/
def forge (n : Core) : Core :=
  { n.put (.reg .usr .r0) ltzvisorSchedSyscall with
    cp15 := fun w r => if w = .nonSecure ∧ r = .tpidrprw then 0x00100000#32 else n.cp15 w r
    mem := write32 n.mem 0x00100004#32 0xBAD#32 }

private theorem forge_nsRun {n : Core} (mode : n.cpsr.mode ≠ monMode) :
    NsRun zedboard n (forge n) where
  sp := rfl
  mode := mode
  f := fun _ => rfl
  scr := rfl
  pointer := rfl
  stack := by
    intro x hx
    have apart : zedboard.stack.Disjoint ⟨0x00100004#32, 4⟩ :=
      Range.disjoint_of_apart (by decide) (by decide)
    exact writeWords_of_not_mem (apart x hx)
  nsGuest := by
    intro x hx
    have apart : zedboard.nsGuestRange.Disjoint ⟨0x00100004#32, 4⟩ :=
      Range.disjoint_of_apart (by decide) (by decide)
    exact writeWords_of_not_mem (apart x hx)

/-- A scheduling call of the non-secure guest pushes a second frame, and loads a context from where
the guest wants it. -/
theorem second_frame_pushed : ∃ s1 s2 s3,
    Kickoff zedboard zedboardKickoff ∧ Step zedboard zedboardImage .smc zedboardKickoff s1 ∧
      Step zedboard zedboardImage .work s1 s2 ∧ Step zedboard zedboardImage .smc s2 s3 ∧
      s3.runs = .nonSecure ∧ s3.core.regs .mon .sp = zedboard.stackTop - 200#32 ∧
      s3.core.regs .usr .r1 = 0xBAD#32 ∧ ¬Balanced zedboard s3 ∧ ¬LoadsNsGuest zedboard s2 := by
  obtain ⟨n, run⟩ : ∃ n, monSmcHandler zedboard (takeSmc zedboardKickoff.core) = some n :=
    ⟨_, smc_sched zedboard _ rfl⟩
  have yield : AtYield zedboard zedboardKickoff.core := ⟨rfl, rfl, rfl, rfl⟩
  have entered := yield.scheduled run
  have ready := (yield.waiting run).toNsReady
  have first : Step zedboard zedboardImage .smc zedboardKickoff ⟨.nonSecure, n⟩ :=
    .sched (by decide) rfl run
  have mode : n.cpsr.mode ≠ monMode := by
    have psr : coreField zedboardKickoff.core.mem zedboard.nsGuest .spsrMon = 0x193#32 :=
      zedboardKickoff_kickoff.context
    rw [entered.cpsr, psr]
    decide
  have low : (forge n).regs .mon .sp = zedboard.stackTop - 100#32 := ready.sp
  have world : (forge n).world = .nonSecure := nsScr_world (m := forge n) entered.scr
  have pointer : (forge n).cp15 (forge n).world .tpidrprw = 0x00100000#32 := by
    rw [world]
    rfl
  obtain ⟨n', run'⟩ : ∃ n', monSmcHandler zedboard (takeSmc (forge n)) = some n' :=
    ⟨_, smc_sched zedboard _ rfl⟩
  have forged : Scheduled 0x00100000#32 (forge n) n' := by
    apply Switch.scheduled rfl run' pointer
    rw [low]
    exact Range.disjoint_of_apart (by decide) (by decide)
  have second : Step zedboard zedboardImage .smc ⟨.nonSecure, forge n⟩ ⟨.nonSecure, n'⟩ :=
    .sched mode rfl run'
  have sp : n'.regs .mon .sp = zedboard.stackTop - 200#32 := by
    rw [forged.sp, low]
    decide
  have r1 : n'.get (CoreReg.slot .r1) = 0xBAD#32 := by
    rw [forged.context]
    exact read32_writeWords_singleton n.mem 0x00100004#32 0xBAD#32
  refine ⟨_, _, _, zedboardKickoff_kickoff, first, .nsWork mode (forge_nsRun mode), second, rfl, sp,
    r1, ?_, ?_⟩
  · intro balanced
    have high : n'.regs .mon .sp = zedboard.stackTop - 100#32 := balanced
    rw [sp] at high
    exact absurd high (by decide)
  · intro loads
    have kept : coreField (forge n).mem zedboard.nsGuest .r1 = 0#32 := by
      have guest : coreField (forge n).mem zedboard.nsGuest .r1 =
          coreField n.mem zedboard.nsGuest .r1 :=
        coreField_congr _ fun x hx =>
          (forge_nsRun mode).nsGuest x (core_subset_nsGuest zedboard x hx)
      have switch : coreField n.mem zedboard.nsGuest .r1 =
          coreField zedboardKickoff.core.mem zedboard.nsGuest .r1 := by
        refine coreField_congr _ fun x hx => entered.frame x fun r hr frame => ?_
        obtain rfl := List.mem_singleton.mp hr
        exact zedboard.stack_nsGuest x (frame_subset_stack zedboard x frame)
          (core_subset_nsGuest zedboard x hx)
      rw [guest, switch]
      decide +kernel
    have same := loads rfl n' run' .r1
    rw [r1, kept] at same
    exact absurd same (by decide)

end LTZVisor.Monitor.StackBalance
