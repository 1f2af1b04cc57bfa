/- LTZVisor/Monitor/Events
   kind: model
   digest: The two guests on one core: their own work and the events that lead to the monitor. -/

import LTZVisor.Monitor.Guests

set_option autoImplicit false
set_option relaxedAutoImplicit false

namespace LTZVisor.Monitor.Events

open LTZVisor.Lib.Memory LTZVisor.Lib.Runs LTZVisor.Arm LTZVisor.Arch.Vcpu
open LTZVisor.Boards.Zedboard LTZVisor.Monitor.Macros LTZVisor.Monitor.Handlers
open LTZVisor.Monitor.BoardSmc LTZVisor.Monitor.Guests

/-- The core, and the world whose guest executes on it. -/
structure State where
  runs : World
  core : Core

/-- The secure guest runs from `m` to `m'` and leaves alone what is the monitor's. It may change
its masks of interrupts. -/
structure SecWork (env : Env) (m m' : Core) : Prop extends SecRun env m m' where
  sp : m'.regs .mon .sp = m.regs .mon .sp
  routes : m'.scr = m.scr
  mode : m'.cpsr.mode ≠ monMode

inductive Event
  | work | smc | fiq
  deriving DecidableEq

/-- One event. `image` holds the code and the constant data of the monitor and all of the secure
guest. -/
inductive Step (env : Env) (image : Range) : Event → State → State → Prop
  | nsWork {m m' : Core} : m.cpsr.mode ≠ monMode → NsRun env m m' →
      Step env image .work ⟨.nonSecure, m⟩ ⟨.nonSecure, m'⟩
  | secWork {m m' : Core} : m.cpsr.mode ≠ monMode → SecWork env m m' →
      Step env image .work ⟨.secure, m⟩ ⟨.secure, m'⟩
  | call {w : World} {m m' : Core} : m.cpsr.mode ≠ monMode → BoardCall env m m' →
      StoreMisses m image → Step env image .smc ⟨w, m⟩ ⟨w, m'⟩
  | sched {w : World} {m m' : Core} : m.cpsr.mode ≠ monMode →
      m.regs .usr .r0 = ltzvisorSchedSyscall → monSmcHandler env (takeSmc m) = some m' →
      Step env image .smc ⟨w, m⟩ ⟨.nonSecure, m'⟩
  | fiq {m : Core} : m.cpsr.mode ≠ monMode →
      Step env image .fiq ⟨.nonSecure, m⟩ ⟨.secure, monFiqHandler env (takeFiq m)⟩
  -- After a store over the image or the frames of running code anything may follow.
  | overwritten {w : World} {m : Core} {s' : State} : m.cpsr.mode ≠ monMode →
      (m.regs .usr .r0).msb = true →
      monSmcHandler env (takeSmc m) = none ∨ ¬StoreMisses m image →
      Step env image .smc ⟨w, m⟩ s'
  -- A guest that executes in Monitor mode has the whole machine.
  | monitor {e : Event} {w : World} {m : Core} {s' : State} : m.cpsr.mode = monMode →
      Step env image e ⟨w, m⟩ s'

/-- The calls that the monitor is safe against: the scheduler is called by the secure guest, and
a store misses the stack, the context and the image. -/
def Disciplined (env : Env) (image : Range) (e : Event) (s : State) : Prop :=
  e = .smc → (s.core.regs .usr .r0 = ltzvisorSchedSyscall → s.runs = .secure) ∧
    ∀ r ∈ [env.stack, env.nsGuestRange, image], StoreMisses s.core r

def DisciplinedStep (env : Env) (image : Range) (s s' : State) : Prop :=
  ∃ e, Disciplined env image e s ∧ Step env image e s s'

/-- What `ltzvisor_nsguest_create` and `ltzvisor_kickoff` leave to the secure guest when it first
runs, with SCR.FW as at reset. -/
structure Kickoff (env : Env) (s : State) : Prop where
  runs : s.runs = .secure
  ns : s.core.scr.getLsbD 0 = false
  fiq : s.core.scr.getLsbD 2 = false
  fw : s.core.scr.getLsbD 4 = false
  mode : s.core.cpsr.mode = svcMode
  i : s.core.cpsr.i = true
  f : s.core.cpsr.f = true
  sp : s.core.regs .mon .sp = env.stackTop
  pointer : s.core.cp15 .secure .tpidrprw = env.nsGuest
  context : coreField s.core.mem env.nsGuest .spsrMon = 0x193#32

/-- The board when its secure guest first runs, here at a call of the scheduler. -/
def zedboardKickoff : State where
  runs := .secure
  core := { zedboardYield with cpsr := { zedboardYield.cpsr with i := true, f := true } }

def zedboardImage : Range := ⟨0x1C000000#32, 0x30000⟩

theorem zedboardKickoff_kickoff : Kickoff zedboard zedboardKickoff where
  runs := rfl
  ns := rfl
  fiq := rfl
  fw := rfl
  mode := rfl
  i := rfl
  f := rfl
  sp := rfl
  pointer := rfl
  context := zedboardYield_spsrMon

end LTZVisor.Monitor.Events
