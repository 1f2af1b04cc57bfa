/- LTZVisor/Monitor/EventInvariant
   kind: spec
   digest: What the events keep of the stack, the context pointer and the waiting status
     registers. -/

import LTZVisor.Monitor.Events

set_option autoImplicit false
set_option relaxedAutoImplicit false

namespace LTZVisor.Monitor.EventInvariant

open LTZVisor.Lib.Memory LTZVisor.Lib.Runs LTZVisor.Arm LTZVisor.Arch.Vcpu
open LTZVisor.Boards.Zedboard LTZVisor.Monitor.Macros LTZVisor.Monitor.Handlers
open LTZVisor.Monitor.Scheduler LTZVisor.Monitor.Fiq LTZVisor.Monitor.BoardSmc
open LTZVisor.Monitor.Switch LTZVisor.Monitor.Guests LTZVisor.Monitor.Events

/-- The status register of the guest that does not execute: in the context of the non-secure one,
in the frame of the secure one. -/
def waitingPsr (env : Env) (s : State) : Psr :=
  Psr.ofWord (match s.runs with
    | .secure => coreField s.core.mem env.nsGuest .spsrMon
    | .nonSecure => read32 s.core.mem (env.stackTop - 68#32))

def other : World → World
  | .secure => .nonSecure
  | .nonSecure => .secure

def stackOf (env : Env) : World → Addr
  | .secure => env.stackTop
  | .nonSecure => env.stackTop - 100#32

/-- The monitor keeps its stack and its context pointer, and the status register of either guest,
on the core or waiting, meets `P`. -/
structure Kept (env : Env) (P : World → Psr → Prop) (s : State) : Prop where
  world : s.core.world = s.runs
  sp : s.core.regs .mon .sp = stackOf env s.runs
  pointer : s.core.cp15 .secure .tpidrprw = env.nsGuest
  running : P s.runs s.core.cpsr
  waiting : P (other s.runs) (waitingPsr env s)

/-- A property of status registers that excludes Monitor mode, and for the secure guest looks only
at what the frame brings back. -/
structure Stable (P : World → Psr → Prop) : Prop where
  mode : ∀ {w p}, P w p → p.mode ≠ monMode
  flags : ∀ {old new}, P .secure (Psr.ofWord new) → P .secure (Psr.ofWord (msrFc old new))

variable {env : Env} {image : Range} {P : World → Psr → Prop}

theorem and_eq_zero {w : Word} (mask : Word) (i : Nat)
    (single : ∀ k < 32, mask.getLsbD k = decide (k = i)) (clear : w.getLsbD i = false) :
    w &&& mask = 0#32 := by
  apply BitVec.eq_of_getLsbD_eq
  intro k hk
  rw [BitVec.getLsbD_and, single k hk, BitVec.getLsbD_zero]
  by_cases here : k = i
  · rw [here, clear, Bool.false_and]
  · rw [decide_eq_false here, Bool.and_false]

private theorem stackOf_cases {w : World} {a : Addr} (sp : a = stackOf env w) :
    a = env.stackTop ∨ a = env.stackTop - 100#32 := by
  cases w with
  | secure => exact .inl sp
  | nonSecure => exact .inr sp

private theorem waitingPsr_congr {s s' : State} (runs : s'.runs = s.runs)
    (stack : s.runs = .nonSecure →
      ∀ x ∈ (⟨env.stackTop - 100#32, 100⟩ : Range), s'.core.mem x = s.core.mem x)
    (context : s.runs = .secure → ∀ x ∈ env.nsGuestRange, s'.core.mem x = s.core.mem x) :
    waitingPsr env s' = waitingPsr env s := by
  unfold waitingPsr
  rw [runs]
  cases world : s.runs with
  | secure =>
    refine congrArg Psr.ofWord (coreField_congr _ fun x hx => ?_)
    exact context world x (core_subset_nsGuest env x hx)
  | nonSecure =>
    refine congrArg Psr.ofWord (read32_congr fun x hx => stack world x ?_)
    rw [mem_range] at hx ⊢
    bv_omega

theorem Kept.work {w : World} {m m' : Core} (kept : Kept env P ⟨w, m⟩)
    (sp : m'.regs .mon .sp = m.regs .mon .sp) (scr : m'.scr = m.scr)
    (pointer : m'.cp15 .secure .tpidrprw = m.cp15 .secure .tpidrprw)
    (running : P w m'.cpsr)
    (waiting : waitingPsr env ⟨w, m'⟩ = waitingPsr env ⟨w, m⟩) : Kept env P ⟨w, m'⟩ where
  world := (Machine.world_congr scr).trans kept.world
  sp := sp.trans kept.sp
  pointer := pointer.trans kept.pointer
  running := running
  waiting := by
    rw [waiting]
    exact kept.waiting

theorem Kept.call {w : World} {m m' : Core} (kept : Kept env P ⟨w, m⟩) (call : BoardCall env m m')
    (stack : StoreMisses m env.stack) (context : StoreMisses m env.nsGuestRange) :
    Kept env P ⟨w, m'⟩ := by
  have sp := stackOf_cases kept.sp
  have called := call.called stack sp
  have room := env.room
  have size := env.stackSize_le
  -- Outside the frames of the call the memory changes by its store only.
  have same : ∀ r : Range, StoreMisses m r → ∀ x ∈ r, x ∉ callFrames env m →
      m'.mem x = m.mem x := by
    intro r misses x hx above
    rw [called.mem x above, boardResult, boardHandler_mem, if_neg]
    rintro ⟨write, hit⟩
    exact misses write x hit hx
  refine kept.work ?_ called.scr (by rw [called.cp15]) ?_ (waitingPsr_congr rfl ?_ ?_)
  · exact called.others (.reg .mon .sp) (by simp) (by simp) (by simp)
  · rw [called.cpsr]
    exact kept.running
  · intro runs x hx
    apply same env.stack stack x (secureFrame_subset_stack env x hx)
    have low : m.regs .mon .sp = env.stackTop - 100#32 := by
      rw [kept.sp, show w = .nonSecure from runs]
      rfl
    rw [callFrames, low, mem_range]
    rw [mem_range] at hx
    bv_omega
  · intro _ x hx
    apply same env.nsGuestRange context x hx
    exact fun frames => env.stack_nsGuest x (callFrames_subset_stack sp x frames) hx

theorem Kept.atYield {m : Core} (kept : Kept env P ⟨.secure, m⟩)
    (sched : m.regs .usr .r0 = ltzvisorSchedSyscall) : AtYield env m :=
  ⟨sched, kept.world, kept.sp, kept.pointer⟩

theorem Kept.sched {m m' : Core} (kept : Kept env P ⟨.secure, m⟩)
    (sched : m.regs .usr .r0 = ltzvisorSchedSyscall)
    (run : monSmcHandler env (takeSmc m) = some m') : Kept env P ⟨.nonSecure, m'⟩ := by
  have yield := kept.atYield sched
  have entered := yield.scheduled run
  have waiting := yield.waiting run
  constructor
  case world => exact nsScr_world entered.scr
  case sp => exact waiting.sp
  case pointer => exact waiting.pointer
  case running =>
    change P .nonSecure m'.cpsr
    rw [entered.cpsr]
    exact kept.waiting
  case waiting =>
    have word := frame_word waiting (i := 8) (t := .spsr .mon) rfl
    have place : env.stackTop - 100#32 + BitVec.ofNat 32 (4 * 8) = env.stackTop - 68#32 := by
      bv_omega
    rw [place] at word
    change P .secure (Psr.ofWord (read32 m'.mem (env.stackTop - 68#32)))
    rw [word]
    change P .secure (Psr.ofWord m.cpsr.toWord)
    rw [Psr.ofWord_toWord]
    exact kept.running

theorem Kept.ready {m : Core} (kept : Kept env P ⟨.nonSecure, m⟩) : NsReady env m :=
  ⟨kept.sp, kept.pointer⟩

theorem Kept.fiq (stable : Stable P) {m : Core} (kept : Kept env P ⟨.nonSecure, m⟩) :
    Kept env P ⟨.secure, monFiqHandler env (takeFiq m)⟩ := by
  have taken := kept.ready.fiqTaken
  generalize monFiqHandler env (takeFiq m) = m' at *
  have spsr : (takeFiq m).spsr .mon = m.cpsr.toWord := rfl
  constructor
  case world => exact secScr_world taken.scr
  case sp =>
    have sp := taken.slots (.reg .mon .sp)
    rwa [Machine.get_put, if_pos rfl] at sp
  case pointer =>
    change m'.cp15 .secure .tpidrprw = _
    rw [taken.cp15]
    exact kept.pointer
  case running =>
    change P .secure m'.cpsr
    rw [taken.cpsr]
    exact stable.flags kept.waiting
  case waiting =>
    change P .nonSecure (Psr.ofWord (coreField m'.mem env.nsGuest .spsrMon))
    rw [taken.context .spsrMon, Machine.get_put, if_neg (by simp [CoreReg.slot])]
    change P .nonSecure (Psr.ofWord ((takeFiq m).spsr .mon))
    rw [spsr, Psr.ofWord_toWord]
    exact kept.running

/-- What a disciplined event can be while no guest is in Monitor mode. -/
inductive SafeStep (env : Env) : Event → State → State → Prop
  | nsWork {m m' : Core} : NsRun env m m' → SafeStep env .work ⟨.nonSecure, m⟩ ⟨.nonSecure, m'⟩
  | secWork {m m' : Core} : SecWork env m m' → SafeStep env .work ⟨.secure, m⟩ ⟨.secure, m'⟩
  | call {w : World} {m m' : Core} : BoardCall env m m' → StoreMisses m env.stack →
      StoreMisses m env.nsGuestRange → SafeStep env .smc ⟨w, m⟩ ⟨w, m'⟩
  | sched {m m' : Core} : m.regs .usr .r0 = ltzvisorSchedSyscall →
      monSmcHandler env (takeSmc m) = some m' →
      SafeStep env .smc ⟨.secure, m⟩ ⟨.nonSecure, m'⟩
  | fiq {m : Core} : SafeStep env .fiq ⟨.nonSecure, m⟩ ⟨.secure, monFiqHandler env (takeFiq m)⟩

theorem Kept.safe (stable : Stable P) {e : Event} {s s' : State} (kept : Kept env P s)
    (disciplined : Disciplined env image e s) (step : Step env image e s s') :
    SafeStep env e s s' := by
  cases step with
  | nsWork _ ran => exact .nsWork ran
  | secWork _ ran => exact .secWork ran
  | call _ call _ =>
    obtain ⟨-, misses⟩ := disciplined rfl
    exact .call call (misses _ (by simp)) (misses _ (by simp))
  | sched _ sched run =>
    obtain ⟨secure, -⟩ := disciplined rfl
    obtain rfl : _ = World.secure := secure sched
    exact .sched sched run
  | fiq _ => exact .fiq
  | overwritten _ negative bad =>
    obtain ⟨-, misses⟩ := disciplined rfl
    rcases bad with stuck | hit
    · exact absurd stuck (call_ne_none (stackOf_cases kept.sp) negative (misses _ (by simp)))
    · exact absurd (misses image (by simp)) hit
  | monitor mode => exact absurd mode (stable.mode kept.running)

theorem Kept.step (stable : Stable P) {e : Event} {s s' : State} (kept : Kept env P s)
    (step : SafeStep env e s s') (work : e = .work → P s'.runs s'.core.cpsr) : Kept env P s' := by
  cases step with
  | nsWork ran =>
    refine kept.work ran.sp ran.scr ran.pointer (work rfl) (waitingPsr_congr rfl ?_ ?_)
    · exact fun _ x hx => ran.stack x (secureFrame_subset_stack env x hx)
    · exact fun _ => ran.nsGuest
  | secWork ran =>
    refine kept.work ran.sp ran.routes ran.pointer (work rfl) (waitingPsr_congr rfl ?_ ?_)
    · intro runs
      cases runs
    · exact fun _ => ran.nsGuest
  | call call stack context => exact kept.call call stack context
  | sched sched run => exact kept.sched sched run
  | fiq => exact kept.fiq stable

theorem Kept.route {e : Event} {s s' : State} (kept : Kept env P s) (step : SafeStep env e s s') :
    s'.runs = s.runs ∧ s'.core.scr = s.core.scr ∨
      s'.runs = .nonSecure ∧ s'.core.scr = nsScr s.core.scr ∨
      s'.runs = .secure ∧ s'.core.scr = secScr s.core.scr := by
  cases step with
  | nsWork ran => exact .inl ⟨rfl, ran.scr⟩
  | secWork ran => exact .inl ⟨rfl, ran.routes⟩
  | call call stack _ => exact .inl ⟨rfl, (call.called stack (stackOf_cases kept.sp)).scr⟩
  | sched sched run => exact .inr (.inl ⟨rfl, ((kept.atYield sched).scheduled run).scr⟩)
  | fiq => exact .inr (.inr ⟨rfl, kept.ready.fiqTaken.scr⟩)

end LTZVisor.Monitor.EventInvariant
