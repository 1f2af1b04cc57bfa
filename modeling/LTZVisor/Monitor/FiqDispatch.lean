/- LTZVisor/Monitor/FiqDispatch
   kind: property
   digest: Which acknowledged values the monitor dispatches within the table of handlers. -/

import LTZVisor.Monitor.Fiq

set_option autoImplicit false
set_option relaxedAutoImplicit false

namespace LTZVisor.Monitor.FiqDispatch

open LTZVisor.Lib.Memory LTZVisor.Lib.GicCpu LTZVisor.Arm LTZVisor.Arm.Instr
open LTZVisor.Monitor.Macros LTZVisor.Monitor.Handlers LTZVisor.Monitor.Fiq

/-- The fields of an acknowledged value: the interrupt, and the CPU that a software generated one
came from. -/
def intId (v : Word) : Word := v &&& 0x3FF#32
def cpuId (v : Word) : Word := (v >>> 10) &&& 0x7#32

/-- The values that a read of the acknowledge register returns. -/
def Acknowledged (v : Word) : Prop := v.toNat < 2 ^ 13

def registered (id : Word) : Option Isr :=
  if id.toNat < noOfInterruptsImplemented then fiqHandlers id else none

/-- From devices `dev` to `dev'` the value `v` was dispatched within the table to the handler of
its interrupt, and completed unless its interrupt is reserved. -/
structure Dispatched (v : Word) (dev dev' : Devices) : Prop where
  entries : ∃ called, dev'.handled = dev.handled ++ called ∧
    (∀ index ∈ called, index.toNat < noOfInterruptsImplemented) ∧
    called.filterMap fiqHandlers = (registered (intId v)).toList
  completed : dev'.gic.completed =
    dev.gic.completed ++ if (intId v).toNat < 1020 then [v] else []

private theorem intId_toNat (v : Word) : (intId v).toNat = v.toNat % 1024 := by
  rw [intId, BitVec.toNat_and]
  exact Nat.and_two_pow_sub_one_eq_mod v.toNat 10

private theorem intId_of_small {v : Word} (small : v.toNat < noOfInterruptsImplemented) :
    intId v = v := by
  have bound : v.toNat < 96 := small
  apply BitVec.eq_of_toNat_eq
  rw [intId_toNat, Nat.mod_eq_of_lt (by omega)]

private theorem small_iff {v : Word} (read : Acknowledged v) :
    v.toNat < noOfInterruptsImplemented ↔
      (intId v).toNat < noOfInterruptsImplemented ∧ cpuId v = 0#32 := by
  have bound : v.toNat < 8192 := read
  have field : (cpuId v).toNat = v.toNat / 1024 := by
    rw [cpuId, BitVec.toNat_and, BitVec.toNat_ushiftRight, Nat.shiftRight_eq_div_pow]
    exact (Nat.and_two_pow_sub_one_eq_mod (v.toNat / 1024) 3).trans (Nat.mod_eq_of_lt (by omega))
  have none : cpuId v = 0#32 ↔ v.toNat / 1024 = 0 := by
    rw [← field, ← BitVec.toNat_inj, BitVec.toNat_ofNat, Nat.zero_mod]
  rw [intId_toNat, none]
  change v.toNat < 96 ↔ v.toNat % 1024 < 96 ∧ v.toNat / 1024 = 0
  omega

private theorem dispatched_iff {v : Word} {dev dev' : Devices}
    (handled : dev'.handled = dev.handled ++ [v])
    (completed : dev'.gic.completed = dev.gic.completed ++ [v]) :
    Dispatched v dev dev' ↔ v.toNat < noOfInterruptsImplemented := by
  constructor
  · rintro ⟨⟨called, calls, inside, -⟩, -⟩
    have same : [v] = called := List.append_cancel_left (handled.symm.trans calls)
    exact inside v (same ▸ List.mem_singleton_self v)
  · intro small
    have bound : v.toNat < 96 := small
    constructor
    case entries =>
      refine ⟨[v], handled, ?_, ?_⟩
      · intro index hit
        rwa [List.mem_singleton.mp hit]
      · rw [intId_of_small small, registered, if_pos small]
        cases found : fiqHandlers v <;> simp [found]
    case completed =>
      rw [completed, intId_of_small small, if_pos (by omega)]

/-- The dispatch of the FIQ handler of the monitor, whatever value its acknowledge left in
`interrupt`. -/
theorem handleFiq_dispatched_iff (env : Env) (m : Core) (v : Word) (mon : m.cpsr.mode = monMode)
    (sp : m.regs .mon .sp = env.stackTop - 100#32) (interrupt : read32 m.mem env.interrupt = v)
    (read : Acknowledged v) :
    Dispatched v m.dev (exec (handleFiq env) m).dev ↔
      (intId v).toNat < noOfInterruptsImplemented ∧ cpuId v = 0#32 := by
  obtain ⟨-, gic, handled⟩ := fiqHandled env m mon sp
  rw [interrupt] at gic handled
  have completed : (exec (handleFiq env) m).dev.gic.completed = m.dev.gic.completed ++ [v] := by
    rw [gic]
    rfl
  rw [dispatched_iff handled completed, small_iff read]

def dispatching (v : Word) : Core :=
  { blankCore monMode with
    regs := fun _ r => if r = .sp then zedboard.stackTop - 100#32 else 0#32
    mem := write32 (fun _ => 0#8) zedboard.interrupt v }

private theorem read32_dispatching (v : Word) : read32 (dispatching v).mem zedboard.interrupt = v :=
  read32_writeWords_singleton _ _ _

theorem handleFiq_dispatched_iff_tick :
    Acknowledged 43#32 ∧
      (Dispatched 43#32 (dispatching 43#32).dev
          (exec (handleFiq zedboard) (dispatching 43#32)).dev ↔
        (intId 43#32).toNat < noOfInterruptsImplemented ∧ cpuId 43#32 = 0#32) := by
  have read : Acknowledged 43#32 := by
    unfold Acknowledged
    decide
  exact ⟨read, handleFiq_dispatched_iff zedboard (dispatching 43#32) 43#32 rfl rfl
    (read32_dispatching _) read⟩

/-- When nothing is pending the acknowledge returns 1023, which is dispatched past the table. -/
theorem spurious_past_table :
    ¬∀ (env : Env) (m : Core) (v : Word), m.cpsr.mode = monMode →
      m.regs .mon .sp = env.stackTop - 100#32 → read32 m.mem env.interrupt = v → Acknowledged v →
      Dispatched v m.dev (exec (handleFiq env) m).dev := by
  intro always
  have read : Acknowledged spurious := by
    unfold Acknowledged
    decide
  have dispatched := always zedboard (dispatching spurious) spurious rfl rfl
    (read32_dispatching _) read
  obtain ⟨-, -, handled⟩ := fiqHandled zedboard (dispatching spurious) rfl rfl
  rw [read32_dispatching] at handled
  obtain ⟨called, calls, inside, -⟩ := dispatched.entries
  have same : [spurious] = called := List.append_cancel_left (handled.symm.trans calls)
  have bound := inside spurious (same ▸ List.mem_singleton_self _)
  revert bound
  decide

end LTZVisor.Monitor.FiqDispatch
