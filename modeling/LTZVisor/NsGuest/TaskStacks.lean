/- LTZVisor/NsGuest/TaskStacks
   kind: property
   digest: Where the tasks of the non-secure guest have their stacks and their frames. -/

import LTZVisor.NsGuest.TaskContext

set_option autoImplicit false
set_option relaxedAutoImplicit false

namespace LTZVisor.NsGuest.TaskStacks

open LTZVisor.Lib.Memory LTZVisor.Arm
open LTZVisor.NsGuest.PortAsm LTZVisor.NsGuest.TaskContext

def Running (d : Rtos) (t : Addr) : Prop := d.xSchedulerRunning = true ∧ d.pxCurrentTCB = t

instance (d : Rtos) (t : Addr) : Decidable (Running d t) := inferInstanceAs (Decidable (_ ∧ _))

def Holds (d : Rtos) (t : Addr) : Prop := t ∈ d.tasks ∨ Running d t

/-- The context of a task, which is in its frame while it does not run. -/
def contextOf (m : Guest) (t : Addr) : Context :=
  if Running m.dev t then live m else saved m.mem (m.dev.pxTopOfStack t)

def offset (r : Range) (a : Addr) : Nat := (a - r.base).toNat

/-- A context that a task with the stack `r` can have. -/
structure Sound (r : Range) (c : Context) : Prop where
  mode : c.cpsr.mode = sysMode
  aligned : branchTarget c.cpsr.t c.pc = c.pc
  sp : offset r (c.reg .sp) ≤ r.size

/-- The frame at `top` is in the stack `r`. -/
structure Suspended (mem : Mem) (top : Addr) (r : Range) : Prop where
  mode : (saved mem top).cpsr.mode = sysMode
  inside : offset r top + 4 * (fpuWords (word mem top 0) + 17) ≤ r.size

def frameAt (mem : Mem) (top : Addr) : Range := ⟨top, 4 * (fpuWords (word mem top 0) + 17)⟩

/-- The kernel, the stack pointers of the exceptions while a task runs, and in `own` the bytes
that only the task writes in whose stack they are. `vTaskSwitchContext` and the interrupts leave
the stacks of the tasks and the frames of the handler alone, and an interrupt does not use the
FPU. -/
structure Env where
  kernel : Kernel
  own : Addr → Bool
  irqTop : Addr
  svcTop : Addr
  depth_le : kernel.abi.depth ≤ 2 ^ 16
  irq_svc : (⟨irqTop - 8#32, 8⟩ : Range).Disjoint
    ⟨svcTop - BitVec.ofNat 32 (52 + kernel.abi.depth), 52 + kernel.abi.depth⟩
  selects_task : ∀ m : Guest, m.dev.tasks ≠ [] → (kernel.selects m).pxCurrentTCB ∈ m.dev.tasks
  selects_mem : ∀ m : Guest, ∀ t ∈ m.dev.tasks, ∀ x ∈ m.dev.pxStack t,
    (kernel.selects m).mem x = m.mem x
  isr_mem : ∀ w (m : Guest), ∀ t ∈ m.dev.tasks, ∀ x ∈ m.dev.pxStack t,
    (kernel.isr w m).mem x = m.mem x
  isr_irq : ∀ w (m : Guest), ∀ x ∈ (⟨irqTop - 8#32, 8⟩ : Range), (kernel.isr w m).mem x = m.mem x
  isr_svc : ∀ w (m : Guest), ∀ x ∈ (⟨svcTop - 52#32, 52⟩ : Range),
    (kernel.isr w m).mem x = m.mem x
  isr_fpu : ∀ w (m : Guest), (kernel.isr w m).fpu = m.dev.fpu

/-- What the handlers use of the stack of Supervisor mode. -/
def Env.svcStack (env : Env) : Range :=
  ⟨env.svcTop - BitVec.ofNat 32 (52 + env.kernel.abi.depth), 52 + env.kernel.abi.depth⟩

/-- The stack `r` is apart from what the handlers use. -/
structure Clear (env : Env) (r : Range) : Prop where
  size : r.size < 2 ^ 32
  irq : (⟨env.irqTop - 8#32, 8⟩ : Range).Disjoint r
  svc : env.svcStack.Disjoint r

/-- The stacks that are in use are apart from each other. -/
structure Apart (env : Env) (d : Rtos) : Prop where
  clear : ∀ t, Holds d t → Clear env (d.pxStack t)
  each : ∀ t t', Holds d t → Holds d t' → t ≠ t' → (d.pxStack t).Disjoint (d.pxStack t')

/-- The stacks when an exception is taken from a task. -/
structure Placed (env : Env) (m : Guest) : Prop where
  apart : Apart env m.dev
  svc : m.regs .svc .sp = env.svcTop
  irq : m.regs .irq .sp = env.irqTop

/-- What holds of the tasks between two steps. -/
structure Ready (env : Env) (m : Guest) : Prop where
  null : ¬Holds m.dev 0#32
  apart : Apart env m.dev
  running : ∀ t, Running m.dev t → Sound (m.dev.pxStack t) (live m)
  suspended : ∀ t ∈ m.dev.tasks, ¬Running m.dev t →
    Suspended m.mem (m.dev.pxTopOfStack t) (m.dev.pxStack t)
  svc : m.dev.xSchedulerRunning = true → m.regs .svc .sp = env.svcTop
  irq : m.dev.xSchedulerRunning = true → m.regs .irq .sp = env.irqTop

def HasRoom (env : Env) (m : Guest) : Prop :=
  332 + env.kernel.abi.depth ≤ offset (m.dev.pxStack m.dev.pxCurrentTCB) (m.regs .usr .sp)

/-- What a task sees: its context, and what is its own in its stack from sp upwards. -/
@[ext] structure View where
  context : Context
  stack : Mem

/-- The bytes of the stack of `t` that it sees when its stack pointer is `sp`. -/
def Env.Sees (env : Env) (d : Rtos) (t sp x : Addr) : Prop :=
  x ∈ d.pxStack t ∧ env.own x = true ∧ offset (d.pxStack t) sp ≤ offset (d.pxStack t) x

instance (env : Env) (d : Rtos) (t sp x : Addr) : Decidable (env.Sees d t sp x) :=
  inferInstanceAs (Decidable (_ ∧ _ ∧ _))

def view (env : Env) (t : Addr) (m : Guest) : View where
  context := contextOf m t
  stack := fun x => if env.Sees m.dev t ((contextOf m t).reg .sp) x then m.mem x else 0#8

variable {env : Env} {d d' : Rtos} {m m' : Guest} {t : Addr}

theorem word_same {mem mem' : Mem} {top : Addr} {n : Nat}
    (same : ∀ x ∈ (⟨top, 4 * n⟩ : Range), mem' x = mem x) {i : Nat} (lt : i < n)
    (small : n < 1000) : word mem' top i = word mem top i := by
  apply read32_congr
  intro x hx
  apply same
  rw [mem_range] at hx ⊢
  bv_omega

section Frames

variable {mem mem' : Mem} {top : Addr} {r : Range}

theorem fpuWords_le (flag : Word) : fpuWords flag ≤ 66 := by
  rw [fpuWords]
  split <;> omega

theorem flag_congr (same : ∀ x ∈ frameAt mem top, mem' x = mem x) :
    word mem' top 0 = word mem top 0 := by
  have bound := fpuWords_le (word mem top 0)
  exact word_same same (by omega) (by omega)

/-- A frame is read from its own words only. -/
theorem saved_congr (same : ∀ x ∈ frameAt mem top, mem' x = mem x) :
    saved mem' top = saved mem top := by
  have bound := fpuWords_le (word mem top 0)
  have flag := flag_congr same
  have words {i : Nat} (lt : i < fpuWords (word mem top 0) + 17) :
      word mem' top i = word mem top i := word_same same lt (by omega)
  ext1
  case reg =>
    funext r
    simp only [saved, flag]
    split_ifs with pointer
    · rfl
    · have lt : frameRegs.idxOf r < 14 :=
        List.idxOf_lt_length_of_mem (mem_frameRegs pointer)
      exact words (by omega)
  case pc => simp only [saved, flag, words (show fpuWords (word mem top 0) + 16 < _ by omega),
      words (show fpuWords (word mem top 0) + 15 < _ by omega)]
  case cpsr => simp only [saved, flag, words (show fpuWords (word mem top 0) + 16 < _ by omega)]
  case ulCriticalNesting =>
    simp only [saved, flag, words (show fpuWords (word mem top 0) < _ by omega)]
  case ulPortTaskHasFPUContext => exact flag
  case fpu =>
    simp only [saved, flag]
    split_ifs with none
    · rfl
    · have long : fpuWords (word mem top 0) = 66 := if_neg none
      have d : (fun j : Fin 64 => word mem' top
            (if 32 ≤ j.val then 2 + (j.val - 32) else 34 + j.val)) =
          fun j : Fin 64 => word mem top (if 32 ≤ j.val then 2 + (j.val - 32) else 34 + j.val) := by
        funext j
        apply words
        split <;> omega
      rw [d, words (by omega)]

private theorem saved_aligned (mem : Mem) (top : Addr) :
    branchTarget (saved mem top).cpsr.t (saved mem top).pc = (saved mem top).pc :=
  branchTarget_idem _ _

theorem Suspended.sound (suspended : Suspended mem top r) (size : r.size < 2 ^ 32) :
    Sound r (saved mem top) where
  mode := suspended.mode
  aligned := saved_aligned mem top
  sp := by
    have inside := suspended.inside
    have sp : (saved mem top).reg .sp =
        top + BitVec.ofNat 32 (4 * (fpuWords (word mem top 0) + 17)) := rfl
    rw [sp, offset]
    rw [offset] at inside
    bv_omega

theorem Suspended.congr (suspended : Suspended mem top r)
    (same : ∀ x ∈ frameAt mem top, mem' x = mem x) :
    Suspended mem' top r ∧ saved mem' top = saved mem top := by
  have context := saved_congr same
  refine ⟨⟨?_, ?_⟩, context⟩
  · rw [context]
    exact suspended.mode
  · rw [flag_congr same]
    exact suspended.inside

theorem Suspended.frame_subset (suspended : Suspended mem top r) : (frameAt mem top).Subset r :=
  Range.subset_of_offset suspended.inside

end Frames

theorem contextOf_running (run : Running m.dev t) : contextOf m t = live m := if_pos run

theorem contextOf_parked (parked : ¬Running m.dev t) :
    contextOf m t = saved m.mem (m.dev.pxTopOfStack t) := if_neg parked

theorem Ready.placed (ready : Ready env m) (run : m.dev.xSchedulerRunning = true) :
    Placed env m :=
  ⟨ready.apart, ready.svc run, ready.irq run⟩

theorem Apart.mono (apart : Apart env d) (held : ∀ t, Holds d' t → Holds d t)
    (same : ∀ t, Holds d' t → d'.pxStack t = d.pxStack t) : Apart env d' where
  clear := by
    intro t holds
    rw [same t holds]
    exact apart.clear t (held t holds)
  each := by
    intro t t' holds holds' other
    rw [same t holds, same t' holds']
    exact apart.each t t' (held t holds) (held t' holds') other

theorem view_congr (context : contextOf m' t = contextOf m t)
    (stack : m'.dev.pxStack t = m.dev.pxStack t)
    (mem : ∀ x, env.Sees m.dev t ((contextOf m t).reg .sp) x → m'.mem x = m.mem x) :
    view env t m' = view env t m := by
  ext1
  case context => exact context
  case stack =>
    funext x
    have sees : env.Sees m'.dev t ((contextOf m' t).reg .sp) x ↔
        env.Sees m.dev t ((contextOf m t).reg .sp) x := by
      rw [context, Env.Sees, Env.Sees, stack]
    simp only [view, sees]
    split_ifs with mine
    · exact mem x mine
    · rfl

end LTZVisor.NsGuest.TaskStacks
