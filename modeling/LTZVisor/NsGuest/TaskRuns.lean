/- LTZVisor/NsGuest/TaskRuns
   kind: property
   digest: The tasks of the non-secure guest do not see each other take the processor. -/

import LTZVisor.Lib.Pauses
import LTZVisor.NsGuest.TaskSwitch
import LTZVisor.NsGuest.Tasks

set_option autoImplicit false
set_option relaxedAutoImplicit false

namespace LTZVisor.NsGuest.TaskRuns

open LTZVisor.Lib.Memory LTZVisor.Lib.Block LTZVisor.Lib.Pauses LTZVisor.Arm LTZVisor.Arm.Instr
open LTZVisor.NsGuest.PortAsm LTZVisor.NsGuest.TaskContext LTZVisor.NsGuest.TaskStacks
open LTZVisor.NsGuest.PortIrq LTZVisor.NsGuest.TaskSwitch LTZVisor.NsGuest.Tasks
open LTZVisor.NsGuest.Tick (portUnmaskValue)

/-- The frames of the tasks that do not run, and what they see of their stacks. -/
def Kept (env : Env) (m : Guest) (x : Addr) : Prop :=
  ∃ t ∈ m.dev.tasks, ¬Running m.dev t ∧
    (x ∈ frameAt m.mem (m.dev.pxTopOfStack t) ∨ env.Sees m.dev t ((contextOf m t).reg .sp) x)

/-- A step of the task that runs, of the kernel that it calls, or of `main` before the scheduler
runs. -/
structure Work (env : Env) (m m' : Guest) : Prop where
  xSchedulerRunning : m'.dev.xSchedulerRunning = m.dev.xSchedulerRunning
  pxCurrentTCB : m'.dev.pxCurrentTCB = m.dev.pxCurrentTCB
  tasks : m'.dev.tasks = m.dev.tasks
  pxStack : ∀ t, Holds m.dev t → m'.dev.pxStack t = m.dev.pxStack t
  pxTopOfStack : ∀ t ∈ m.dev.tasks, ¬Running m.dev t →
    m'.dev.pxTopOfStack t = m.dev.pxTopOfStack t
  sound : ∀ t, Running m.dev t → Sound (m.dev.pxStack t) (live m')
  svc : m.dev.xSchedulerRunning = true → m'.regs .svc .sp = m.regs .svc .sp
  irq : m.dev.xSchedulerRunning = true → m'.regs .irq .sp = m.regs .irq .sp
  mem : ∀ x, Kept env m x → m'.mem x = m.mem x

/-- What the task that runs does, or `main`. -/
inductive Active (env : Env) (m m' : Guest) : Prop
  | work : Work env m m' → Active env m m'
  | create (pxTaskCode pvParameters : Word) (usStackDepth uxPriority : Nat) (t pxStack : Addr) :
      Fresh env usStackDepth t pxStack m →
      m' = xTaskCreate pxTaskCode pvParameters usStackDepth uxPriority t pxStack m →
      Active env m m'
  | delete (t : Addr) : m' = vTaskDelete t m → Active env m m'

/-- A step of the program `prog` of `t`. -/
structure Own (env : Env) (t : Addr) (prog : View → View → Prop) (m m' : Guest) : Prop where
  running : Running m.dev t
  step : Active env m m'
  member : t ∈ m'.dev.tasks
  prog : prog (view env t m) (view env t m')

/-- What happens to `t` besides: `main` or another task does something that does not delete it, the
scheduler starts, a task yields, or an interrupt comes. -/
inductive Pause (env : Env) (t : Addr) (m m' : Guest) : Prop
  | other : ¬Running m.dev t → Active env m m' → t ∈ m'.dev.tasks → Pause env t m m'
  | start : Startable env m → m' = vTaskStartScheduler env.kernel m → Pause env t m m'
  | yield : m.dev.xSchedulerRunning = true → HasRoom env m → m' = yield env.kernel m →
      Pause env t m m'
  | irq : m.dev.xSchedulerRunning = true → HasRoom env m → m' = irq env.kernel m →
      Pause env t m m'

variable {env : Env} {m n : Guest}

/-- A task that does not run keeps its context and its view where nothing of it is touched. -/
private theorem parked_keeps {t : Addr} (ready : Ready env m) (task : t ∈ m.dev.tasks)
    (parked : ¬Running m.dev t) (parked' : ¬Running n.dev t)
    (top : n.dev.pxTopOfStack t = m.dev.pxTopOfStack t)
    (stack : n.dev.pxStack t = m.dev.pxStack t) (mem : ∀ x, Kept env m x → n.mem x = m.mem x) :
    Suspended n.mem (n.dev.pxTopOfStack t) (n.dev.pxStack t) ∧ view env t n = view env t m := by
  have frame : ∀ x ∈ frameAt m.mem (m.dev.pxTopOfStack t), n.mem x = m.mem x :=
    fun x hx => mem x ⟨t, task, parked, .inl hx⟩
  obtain ⟨suspended, context⟩ := (ready.suspended t task parked).congr frame
  rw [top, stack]
  refine ⟨suspended, view_congr ?_ stack fun x sees => mem x ⟨t, task, parked, .inr sees⟩⟩
  rw [contextOf_parked parked, contextOf_parked parked', top, context]

private theorem work_keeps (work : Work env m n) (ready : Ready env m) :
    Ready env n ∧ ∀ t ∈ m.dev.tasks, ¬Running m.dev t → view env t n = view env t m := by
  have runs (t : Addr) : Running n.dev t ↔ Running m.dev t := by
    rw [Running, Running, work.xSchedulerRunning, work.pxCurrentTCB]
  have holds (t : Addr) : Holds n.dev t ↔ Holds m.dev t := by
    rw [Holds, Holds, work.tasks, runs]
  have kept {t : Addr} (task : t ∈ m.dev.tasks) (parked : ¬Running m.dev t) :=
    parked_keeps ready task parked (mt (runs t).mp parked) (work.pxTopOfStack t task parked)
      (work.pxStack t (.inl task)) work.mem
  refine ⟨?_, fun t task parked => (kept task parked).2⟩
  constructor
  case null =>
    rw [holds]
    exact ready.null
  case apart =>
    exact ready.apart.mono (fun t => (holds t).mp) fun t h => work.pxStack t ((holds t).mp h)
  case running =>
    intro t run
    rw [runs] at run
    rw [work.pxStack t (.inr run)]
    exact work.sound t run
  case suspended =>
    intro t task parked
    rw [work.tasks] at task
    rw [runs] at parked
    exact (kept task parked).1
  case svc =>
    intro on
    rw [work.xSchedulerRunning] at on
    rw [work.svc on, ready.svc on]
  case irq =>
    intro on
    rw [work.xSchedulerRunning] at on
    rw [work.irq on, ready.irq on]

private theorem delete_keeps (t : Addr) (ready : Ready env m) :
    Ready env (vTaskDelete t m) ∧
      ∀ t' ∈ (vTaskDelete t m).dev.tasks, view env t' (vTaskDelete t m) = view env t' m := by
  have tasks {t' : Addr} (task : t' ∈ (vTaskDelete t m).dev.tasks) : t' ∈ m.dev.tasks :=
    (List.mem_filter.mp task).1
  have held (t' : Addr) (holds : Holds (vTaskDelete t m).dev t') : Holds m.dev t' :=
    holds.imp_left tasks
  constructor
  · constructor
    case null => exact fun holds => ready.null (held _ holds)
    case apart => exact ready.apart.mono held fun _ _ => rfl
    case running => exact ready.running
    case suspended => exact fun t' task parked => ready.suspended t' (tasks task) parked
    case svc => exact ready.svc
    case irq => exact ready.irq
  · exact fun t' _ => rfl

/-- The scheduler starts with the task that was chosen, and with every task in its frame. -/
structure Started (env : Env) (m m' : Guest) : Prop where
  ready : Ready env m'
  running : Running m'.dev m.dev.pxCurrentTCB
  tasks : m'.dev.tasks = m.dev.tasks
  pxStack : m'.dev.pxStack = m.dev.pxStack
  view : ∀ t ∈ m.dev.tasks, view env t m' = view env t m

/-- In front of the restore of its context the first task is in its frame like all the others. -/
private theorem startable_parked (startable : Startable env m) (ready : Ready env m) :
    Parked env (cps sysMode { m with dev := { m.dev with xSchedulerRunning := true } }) := by
  have stopped (t : Addr) : ¬Running m.dev t := by
    rintro ⟨on, -⟩
    rw [startable.off] at on
    cases on
  have held (t : Addr) (holds : Holds { m.dev with xSchedulerRunning := true } t) :
      t ∈ m.dev.tasks := by
    rcases holds with task | run
    · exact task
    · have here : m.dev.pxCurrentTCB = t := run.2
      exact here ▸ startable.current
  constructor
  case mode => rfl
  case running => rfl
  case null => exact fun null => ready.null (.inl null)
  case current => exact startable.current
  case placed =>
    constructor
    case apart => exact ready.apart.mono (fun t holds => .inl (held t holds)) fun _ _ => rfl
    case svc => exact startable.svc
    case irq => exact startable.irq
  case suspended => exact fun t task => ready.suspended t task (stopped t)

private theorem scheduler_starts (startable : Startable env m) (ready : Ready env m) :
    Started env m (vTaskStartScheduler env.kernel m) := by
  have whole : vTaskStartScheduler env.kernel m =
      exec (portRestoreContext env.kernel.toSymbols)
        (cps sysMode { m with dev := { m.dev with xSchedulerRunning := true } }) := rfl
  rw [whole]
  have parked := startable_parked startable ready
  have mem : (cps sysMode { m with dev := { m.dev with xSchedulerRunning := true } }).mem =
      m.mem := rfl
  have dev : (cps sysMode { m with dev := { m.dev with xSchedulerRunning := true } }).dev =
      { m.dev with xSchedulerRunning := true } := rfl
  generalize cps sysMode { m with dev := { m.dev with xSchedulerRunning := true } } = a at *
  have resumed := restoreContext_resumes parked
  generalize exec (portRestoreContext env.kernel.toSymbols) a = b at *
  constructor
  case ready => exact resumed.ready
  case running =>
    have run := resumed.running
    rw [dev] at run
    exact run
  case tasks => rw [resumed.tasks, dev]
  case pxStack => rw [resumed.pxStack, dev]
  case view =>
    intro t task
    have stopped : ¬Running m.dev t := fun run => by
      rw [Running, startable.off] at run
      cases run.1
    apply view_congr
    · rw [resumed.context, contextOf_parked stopped, mem, dev]
    · rw [resumed.pxStack, dev]
    · intro x _
      rw [resumed.mem, mem]

/-- What `xTaskCreate` makes of the kernel and of the memory. -/
structure Created (usStackDepth : Nat) (t pxStack : Addr) (m m' : Guest) : Prop where
  xSchedulerRunning : m'.dev.xSchedulerRunning = m.dev.xSchedulerRunning
  tasks : m'.dev.tasks = t :: m.dev.tasks
  runs : ∀ t', Running m'.dev t' ↔ Running m.dev t'
  stack : m'.dev.pxStack t = stackAt pxStack usStackDepth
  top : m'.dev.pxTopOfStack t = topOfStack pxStack usStackDepth - 80#32
  others : ∀ t' ≠ t, m'.dev.pxStack t' = m.dev.pxStack t' ∧
    m'.dev.pxTopOfStack t' = m.dev.pxTopOfStack t'
  mem : ∀ x ∉ stackAt pxStack usStackDepth, m'.mem x = m.mem x
  regs : m'.regs = m.regs
  live : live m' = live m

private theorem Created.held {usStackDepth : Nat} {t pxStack t' : Addr} {m' : Guest}
    (made : Created usStackDepth t pxStack m m') (holds : Holds m'.dev t') :
    t' = t ∨ Holds m.dev t' := by
  rcases holds with task | run
  · rw [made.tasks] at task
    exact (List.mem_cons.mp task).imp_right .inl
  · exact .inr (.inr ((made.runs t').mp run))

section Create

variable {usStackDepth : Nat} {t pxStack : Addr} (fresh : Fresh env usStackDepth t pxStack m)
  (ready : Ready env m) (pxTaskCode pvParameters : Word) (uxPriority : Nat)

include fresh

private theorem initialise_mem {x : Addr} (outside : x ∉ stackAt pxStack usStackDepth) :
    (prvInitialiseNewTask pxTaskCode pvParameters usStackDepth uxPriority t pxStack m).mem x =
      m.mem x := by
  have fits := top_fits pxStack fresh.deep fresh.clear.size
  have written : x ∉ (⟨topOfStack pxStack usStackDepth - 80#32, 84⟩ : Range) :=
    fun hit => outside (Range.subset_of_offset fits x hit)
  rw [prvInitialiseNewTask, pxPortInitialiseStack_eq]
  exact (writeWords_of_not_mem written).trans (if_neg outside)

include ready

theorem created : Created usStackDepth t pxStack m
    (xTaskCreate pxTaskCode pvParameters usStackDepth uxPriority t pxStack m) := by
  constructor
  case xSchedulerRunning => rfl
  case tasks => rfl
  case runs =>
    intro t'
    have on : (xTaskCreate pxTaskCode pvParameters usStackDepth uxPriority t pxStack
        m).dev.xSchedulerRunning = m.dev.xSchedulerRunning := rfl
    rw [Running, Running, on]
    refine and_congr_right fun run => ?_
    have current : m.dev.pxCurrentTCB ≠ 0#32 := fun null => ready.null (.inr ⟨run, null⟩)
    have same := current_of_running t (d := (prvInitialiseNewTask pxTaskCode pvParameters
      usStackDepth uxPriority t pxStack m).dev) run current
    rw [xTaskCreate, same]
    rfl
  case stack => exact Function.update_self _ _ _
  case top =>
    have place := congrArg Prod.fst (pxPortInitialiseStack_eq (topOfStack pxStack usStackDepth)
      pxTaskCode pvParameters (filled m.mem (stackAt pxStack usStackDepth) tskStackFillByte))
    exact (Function.update_self _ _ _).trans place
  case others =>
    exact fun t' other => ⟨Function.update_of_ne other _ _, Function.update_of_ne other _ _⟩
  case mem => exact fun x outside => initialise_mem fresh pxTaskCode pvParameters uxPriority outside
  case regs => rfl
  case live => rfl

private theorem create_suspended :
    Suspended (xTaskCreate pxTaskCode pvParameters usStackDepth uxPriority t pxStack m).mem
        (topOfStack pxStack usStackDepth - 80#32) (stackAt pxStack usStackDepth) ∧
      contextOf (xTaskCreate pxTaskCode pvParameters usStackDepth uxPriority t pxStack m) t =
        initialContext (topOfStack pxStack usStackDepth) pxTaskCode pvParameters := by
  have made := created fresh ready pxTaskCode pvParameters uxPriority
  have context : saved
      (xTaskCreate pxTaskCode pvParameters usStackDepth uxPriority t pxStack m).mem
      (topOfStack pxStack usStackDepth - 80#32) =
        initialContext (topOfStack pxStack usStackDepth) pxTaskCode pvParameters :=
    saved_initial _ _ _ _
  generalize xTaskCreate pxTaskCode pvParameters usStackDepth uxPriority t pxStack m = m' at *
  have flag : word m'.mem (topOfStack pxStack usStackDepth - 80#32) 0 = 0#32 :=
    congrArg Context.ulPortTaskHasFPUContext context
  refine ⟨⟨?_, ?_⟩, ?_⟩
  · rw [context]
    exact initial_mode _ _ _
  · have fits := top_fits pxStack fresh.deep fresh.clear.size
    rw [flag]
    change _ + 72 ≤ 4 * usStackDepth
    omega
  · have parked : ¬Running m'.dev t := fun run => fresh.new (.inr ((made.runs t).mp run))
    rw [contextOf_parked parked, made.top, context]

private theorem create_apart : Apart env
    (xTaskCreate pxTaskCode pvParameters usStackDepth uxPriority t pxStack m).dev := by
  have made := created fresh ready pxTaskCode pvParameters uxPriority
  generalize xTaskCreate pxTaskCode pvParameters usStackDepth uxPriority t pxStack m = m' at *
  have other {t' : Addr} (holds : Holds m.dev t') : m'.dev.pxStack t' = m.dev.pxStack t' :=
    (made.others t' (fresh.ne holds)).1
  constructor
  case clear =>
    intro t' holds
    rcases made.held holds with rfl | old
    · rw [made.stack]
      exact fresh.clear
    · rw [other old]
      exact ready.apart.clear t' old
  case each =>
    intro t₁ t₂ holds₁ holds₂ different
    rcases made.held holds₁ with rfl | old₁ <;> rcases made.held holds₂ with rfl | old₂
    · exact absurd rfl different
    · rw [made.stack, other old₂]
      exact fresh.apart t₂ old₂
    · rw [made.stack, other old₁]
      exact (fresh.apart t₁ old₁).symm
    · rw [other old₁, other old₂]
      exact ready.apart.each t₁ t₂ old₁ old₂ different

private theorem create_keeps :
    Ready env (xTaskCreate pxTaskCode pvParameters usStackDepth uxPriority t pxStack m) ∧
      ∀ t' ∈ m.dev.tasks,
        view env t' (xTaskCreate pxTaskCode pvParameters usStackDepth uxPriority t pxStack m) =
          view env t' m := by
  have made := created fresh ready pxTaskCode pvParameters uxPriority
  have apart := create_apart fresh ready pxTaskCode pvParameters uxPriority
  have suspended := (create_suspended fresh ready pxTaskCode pvParameters uxPriority).1
  generalize xTaskCreate pxTaskCode pvParameters usStackDepth uxPriority t pxStack m = m' at *
  have mem {t' : Addr} (holds : Holds m.dev t') (x : Addr) (mine : x ∈ m.dev.pxStack t') :
      m'.mem x = m.mem x :=
    made.mem x fun hit => fresh.apart t' holds x hit mine
  have kept {t' : Addr} (task : t' ∈ m.dev.tasks) (parked : ¬Running m.dev t') :=
    (ready.suspended t' task parked).congr fun x hx =>
      mem (.inl task) x ((ready.suspended t' task parked).frame_subset x hx)
  constructor
  · constructor
    case null =>
      intro holds
      rcases made.held holds with null | old
      · exact fresh.null null.symm
      · exact ready.null old
    case apart => exact apart
    case running =>
      intro t' run
      rw [made.runs] at run
      rw [made.live, (made.others t' (fresh.ne (.inr run))).1]
      exact ready.running t' run
    case suspended =>
      intro t' task parked
      rw [made.runs] at parked
      rw [made.tasks] at task
      rcases List.mem_cons.mp task with rfl | old
      · rw [made.top, made.stack]
        exact suspended
      · obtain ⟨stack, top⟩ := made.others t' (fresh.ne (.inl old))
        rw [stack, top]
        exact (kept old parked).1
    case svc =>
      rw [made.xSchedulerRunning, made.regs]
      exact ready.svc
    case irq =>
      rw [made.xSchedulerRunning, made.regs]
      exact ready.irq
  · intro t' task
    have others := made.others t' (fresh.ne (.inl task))
    refine view_congr ?_ others.1 fun x sees => mem (.inl task) x sees.1
    by_cases run : Running m.dev t'
    · rw [contextOf_running run, contextOf_running ((made.runs t').mpr run), made.live]
    · rw [contextOf_parked run, contextOf_parked (mt (made.runs t').mp run), others.2]
      exact (kept task run).2

end Create

private theorem active_keeps {m' : Guest} (active : Active env m m') (ready : Ready env m) :
    Ready env m' ∧ ∀ t ∈ m.dev.tasks, t ∈ m'.dev.tasks → ¬Running m.dev t →
      view env t m' = view env t m := by
  cases active with
  | work work =>
    obtain ⟨ready', views⟩ := work_keeps work ready
    exact ⟨ready', fun t task _ => views t task⟩
  | create pxTaskCode pvParameters usStackDepth uxPriority t pxStack fresh same =>
    rw [same]
    obtain ⟨ready', views⟩ := create_keeps fresh ready pxTaskCode pvParameters uxPriority
    exact ⟨ready', fun t task _ _ => views t task⟩
  | delete t same =>
    rw [same]
    obtain ⟨ready', views⟩ := delete_keeps t ready
    exact ⟨ready', fun t _ task _ => views t task⟩

theorem irq_keeps {t : Addr} (ready : Ready env m) (running : m.dev.xSchedulerRunning = true)
    (room : HasRoom env m) (member : t ∈ m.dev.tasks) :
    Ready env (irq env.kernel m) ∧ (irq env.kernel m).dev.tasks = m.dev.tasks ∧
      ∀ t ∈ m.dev.tasks, view env t (irq env.kernel m) = view env t m := by
  obtain ⟨e, entered, back | switch⟩ := irq_cases (ready.placed running)
  · rw [back]
    exact movsPcLr_returns entered ready running
  · rw [switch]
    have switched := switchContext_switches entered ready running room member
    exact ⟨switched.ready, switched.tasks, switched.view⟩

private theorem pause_keeps {t : Addr} {m' : Guest} (pause : Pause env t m m') (ready : Ready env m)
    (task : t ∈ m.dev.tasks) :
    Ready env m' ∧ t ∈ m'.dev.tasks ∧ view env t m' = view env t m := by
  cases pause with
  | other away active member =>
    obtain ⟨ready', views⟩ := active_keeps active ready
    exact ⟨ready', member, views t task member away⟩
  | start startable same =>
    rw [same]
    have started := scheduler_starts startable ready
    exact ⟨started.ready, started.tasks ▸ task, started.view t task⟩
  | yield running room same =>
    rw [same]
    have switched := yield_switches ready running room task
    exact ⟨switched.ready, switched.tasks ▸ task, switched.view t task⟩
  | irq running room same =>
    rw [same]
    obtain ⟨ready', tasks, views⟩ := irq_keeps ready running room task
    exact ⟨ready', tasks ▸ task, views t task⟩

/-- A task does not see the others, the switches and the interrupts. -/
private theorem pauses_unseen (env : Env) (t : Addr) (prog : View → View → Prop) :
    Unseen (Own env t prog) (Pause env t) (view env t)
      (fun m => Ready env m ∧ t ∈ m.dev.tasks) prog where
  keeps := by
    rintro m m' ⟨ready, task⟩ (own | pause)
    · exact ⟨(active_keeps own.step ready).1, own.member⟩
    · obtain ⟨ready', task', -⟩ := pause_keeps pause ready task
      exact ⟨ready', task'⟩
  own := fun _ _ _ own => own.prog
  pause := fun _ _ ⟨ready, task⟩ pause => (pause_keeps pause ready task).2.2

/-- However often the scheduler takes the processor from a task, what the task sees is a run of its
own program: registers, status, nesting count, FPU and stack are as it left them. -/
theorem tasks_unseen (env : Env) (t : Addr) (prog : View → View → Prop) {m m' : Guest}
    (ready : Ready env m) (task : t ∈ m.dev.tasks) {vs : List View}
    (run : Sliced (Own env t prog) (Pause env t) (view env t) m vs m') :
    List.IsChain prog (view env t m :: vs) ∧
      (view env t m :: vs).getLast? = some (view env t m') :=
  (pauses_unseen env t prog).alone ⟨ready, task⟩ run

def turn (current : Addr) (tasks : List Addr) : Addr :=
  (tasks.find? (· ≠ current)).getD (tasks.headD current)

/-- A kernel that selects the tasks in turn, and a tick that asks for a switch. -/
def turnKernel : Kernel where
  pxCurrentTCB := 0x00190000#32
  ulCriticalNesting := 0x00190004#32
  ulPortTaskHasFPUContext := 0x00190008#32
  ulPortYieldRequired := 0x0019000C#32
  ulPortInterruptNesting := 0x00190010#32
  ulICCIAR := 0x00190014#32
  ulICCEOIR := 0x00190018#32
  ulICCPMR := 0x0019001C#32
  ulMaxAPIPriorityMask := 0x00190020#32
  vTaskSwitchContext := 0x00110000#32
  vApplicationIRQHandler := 0x00111000#32
  abi :=
    { depth := 64
      reg := fun _ _ => 0#32
      psr := fun m => m.cpsr
      stack := fun _ _ => 0#8 }
  selects m := ⟨turn m.dev.pxCurrentTCB m.dev.tasks, m.mem, m.dev.fpu⟩
  isr _ m := ⟨m.mem, m.dev.fpu, m.dev.gic, 1#32, m.dev.iccPmr, true⟩

private theorem turn_mem (current : Addr) {tasks : List Addr} (some : tasks ≠ []) :
    turn current tasks ∈ tasks := by
  rw [turn]
  cases found : tasks.find? (· ≠ current) with
  | some t => exact List.mem_of_find?_eq_some found
  | none =>
    obtain ⟨t, ts, rfl⟩ := List.exists_cons_of_ne_nil some
    exact List.mem_cons_self ..

def turns : Env where
  kernel := turnKernel
  own := fun _ => true
  irqTop := 0x00300000#32
  svcTop := 0x00310000#32
  depth_le := by decide
  irq_svc := Range.disjoint_of_apart (by decide) (by decide)
  selects_task := fun _ some => turn_mem _ some
  selects_mem := fun _ _ _ _ _ => rfl
  isr_mem := fun _ _ _ _ _ _ => rfl
  isr_irq := fun _ _ _ _ => rfl
  isr_svc := fun _ _ _ _ => rfl
  isr_fpu := fun _ _ => rfl

def booted : Guest where
  regs b r :=
    if r = .sp then
      if b = .svc then 0x00310000#32 else if b = .irq then 0x00300000#32 else 0x00320000#32
    else 0#32
  spsr := fun _ => 0#32
  cpsr :=
    { n := false, z := false, c := false, v := false, mid := 0#20, i := false, f := false,
      t := false, mode := sysMode }
  pc := 0x00100000#32
  scr := 0x5#32
  cp15 := fun _ _ => 0#32
  mem := fun _ => 0#8
  dev :=
    { fpu := ⟨fun _ => 0#32, 0#32⟩
      pxCurrentTCB := 0#32
      xSchedulerRunning := false
      pxTopOfStack := fun _ => 0#32
      pxStack := fun _ => ⟨0#32, 0⟩
      uxPriority := fun _ => 0
      tasks := []
      ulCriticalNesting := 9999#32
      ulPortTaskHasFPUContext := 0#32
      ulPortYieldRequired := 0#32
      ulPortInterruptNesting := 0#32
      gic :=
        { prio := fun _ => 0, pending := [], active := [], arrivals := [], acked := [],
          completed := [] }
      iccPmr := portUnmaskValue }

private theorem not_holds_booted (t : Addr) : ¬Holds booted.dev t := by
  rintro (task | ⟨running, -⟩)
  · exact absurd task List.not_mem_nil
  · cases running

private theorem booted_ready : Ready turns booted where
  null := not_holds_booted _
  apart := ⟨fun _ holds => absurd holds (not_holds_booted _),
    fun _ _ holds => absurd holds (not_holds_booted _)⟩
  running := fun _ run => absurd (.inr run) (not_holds_booted _)
  suspended := fun _ task => absurd task List.not_mem_nil
  svc := fun _ => rfl
  irq := fun _ => rfl

def taskA : Addr := 0x00180000#32
def taskB : Addr := 0x00180100#32
def stackA : Addr := 0x00200000#32
def stackB : Addr := 0x00201000#32

/-- `main` with the first task: `pxTaskCode` 0x00102000, the parameter 7 and the priority 3. -/
def madeA : Guest := xTaskCreate 0x00102000#32 7#32 1024 3 taskA stackA booted

def madeAB : Guest := xTaskCreate 0x00103000#32 8#32 1024 2 taskB stackB madeA

private theorem freshA : Fresh turns 1024 taskA stackA booted where
  null := by decide
  new := not_holds_booted _
  deep := by decide
  clear := ⟨by decide, Range.disjoint_of_apart (by decide) (by decide),
    Range.disjoint_of_apart (by decide) (by decide)⟩
  apart := fun t holds => absurd holds (not_holds_booted t)

private theorem holds_madeA {t : Addr} (holds : Holds madeA.dev t) : t = taskA := by
  rcases holds with task | ⟨running, -⟩
  · exact List.mem_singleton.mp task
  · cases running

private theorem freshB : Fresh turns 1024 taskB stackB madeA where
  null := by decide
  new := fun holds => absurd (holds_madeA holds) (by decide)
  deep := by decide
  clear := ⟨by decide, Range.disjoint_of_apart (by decide) (by decide),
    Range.disjoint_of_apart (by decide) (by decide)⟩
  apart := by
    intro t holds
    rw [holds_madeA holds]
    exact Range.disjoint_of_apart (by decide) (by decide)

private theorem madeA_ready : Ready turns madeA := (create_keeps freshA booted_ready _ _ _).1

private theorem madeAB_ready : Ready turns madeAB := (create_keeps freshB madeA_ready _ _ _).1

private theorem startable_madeAB : Startable turns madeAB where
  off := rfl
  current := List.mem_cons_of_mem _ (List.mem_singleton_self _)
  svc := rfl
  irq := rfl

private theorem started_madeAB : Started turns madeAB (vTaskStartScheduler turnKernel madeAB) :=
  scheduler_starts startable_madeAB madeAB_ready

private theorem running_started : Running (vTaskStartScheduler turnKernel madeAB).dev taskA :=
  started_madeAB.running

private theorem yield_current (n : Guest) : (yield turnKernel n).dev.pxCurrentTCB =
    turn n.dev.pxCurrentTCB n.dev.tasks := by
  have mode := selected_mode turnKernel (takeException svcMode n.pc n)
  have restored := contextRestored turnKernel.toSymbols mode
  have saved := (contextSaved turnKernel.toSymbols (m := takeException svcMode n.pc n)).dev
  have current : (selected turnKernel (takeException svcMode n.pc n)).dev.pxCurrentTCB =
      turn (exec (portSaveContext turnKernel.toSymbols)
          (takeException svcMode n.pc n)).dev.pxCurrentTCB
        (exec (portSaveContext turnKernel.toSymbols) (takeException svcMode n.pc n)).dev.tasks :=
    rfl
  rw [saved] at current
  exact restored.kernel.pxCurrentTCB.trans current

def counts (v v' : View) : Prop := v'.context.reg .r0 = v.context.reg .r0 + 1#32

def count (m : Guest) : Guest := m.setPhys .usr .r0 (m.regs .usr .r0 + 1#32)

private theorem count_regs (m : Guest) (b : Bank) (r : Reg) : (count m).regs b r =
    if b = .usr ∧ r = .r0 then m.regs .usr .r0 + 1#32 else m.regs b r := rfl

private theorem own_count {t : Addr} (ready : Ready env m) (run : Running m.dev t)
    (task : t ∈ m.dev.tasks) : Own env t counts m (count m) where
  running := run
  step := by
    refine .work ⟨rfl, rfl, rfl, fun _ _ => rfl, fun _ _ _ => rfl, ?_, ?_, ?_, fun _ _ => rfl⟩
    · intro t run
      have sound := ready.running t run
      refine ⟨sound.mode, sound.aligned, ?_⟩
      change offset _ ((count m).regs .usr .sp) ≤ _
      rw [count_regs, if_neg (by simp)]
      exact sound.sp
    · exact fun _ => by rw [count_regs, if_neg (by simp)]
    · exact fun _ => by rw [count_regs, if_neg (by simp)]
  member := task
  prog := by
    have run' : Running (count m).dev t := run
    change (contextOf (count m) t).reg .r0 = (contextOf m t).reg .r0 + 1#32
    rw [contextOf_running run, contextOf_running run']
    change (count m).regs .usr .r0 = m.regs .usr .r0 + 1#32
    rw [count_regs, if_pos ⟨rfl, rfl⟩]

private theorem hasRoom_count (room : HasRoom env m) : HasRoom env (count m) := by
  change _ ≤ offset _ ((count m).regs .usr .sp)
  rw [count_regs, if_neg (by simp)]
  exact room

private theorem hasRoom_of_context {t : Addr} {r : Range} {c : Context} (run : Running m.dev t)
    (stack : m.dev.pxStack t = r) (context : contextOf m t = c)
    (enough : 332 + env.kernel.abi.depth ≤ offset r (c.reg .sp)) : HasRoom env m := by
  rw [contextOf_running run] at context
  have sp : m.regs .usr .sp = c.reg .sp := congrArg (fun c => c.reg .sp) context
  rw [HasRoom, run.2, stack, sp]
  exact enough

/-- The scheduler starts the first task, which counts; the processor goes to the second one and
back, and it counts on. -/
theorem tasks_unseen_two : ∃ m v v',
    Sliced (Own turns taskA counts) (Pause turns taskA) (view turns taskA) madeAB [v, v'] m ∧
      List.IsChain counts [view turns taskA madeAB, v, v'] ∧ v' = view turns taskA m := by
  have memA : taskA ∈ madeAB.dev.tasks := List.mem_cons_of_mem _ (List.mem_singleton_self _)
  have memB : taskB ∈ madeAB.dev.tasks := List.mem_cons_self ..
  have contextA : contextOf madeAB taskA =
      initialContext (topOfStack stackA 1024) 0x00102000#32 7#32 := by
    have kept := (create_keeps freshB madeA_ready 0x00103000#32 8#32 2).2 taskA
      (List.mem_singleton_self _)
    exact (congrArg View.context kept).trans (create_suspended freshA booted_ready _ _ _).2
  have contextB : contextOf madeAB taskB =
      initialContext (topOfStack stackB 1024) 0x00103000#32 8#32 :=
    (create_suspended freshB madeA_ready _ _ _).2
  have tasks₀ : madeAB.dev.tasks = [taskB, taskA] := rfl
  have stackA₀ : madeAB.dev.pxStack taskA = stackAt stackA 1024 := rfl
  have stackB₀ : madeAB.dev.pxStack taskB = stackAt stackB 1024 := rfl
  -- The first task is where its initial stack put it, and counts.
  have started := started_madeAB
  have run₁ := running_started
  have start : Pause turns taskA madeAB (vTaskStartScheduler turnKernel madeAB) :=
    .start startable_madeAB rfl
  generalize vTaskStartScheduler turnKernel madeAB = m₁ at *
  have context₁ := (congrArg View.context (started.view taskA memA)).trans contextA
  have room₁ : HasRoom turns m₁ :=
    hasRoom_of_context run₁ ((congrFun started.pxStack _).trans stackA₀) context₁ (by decide)
  have step₂ : Own turns taskA counts m₁ (count m₁) :=
    own_count started.ready run₁ (started.tasks ▸ memA)
  have dev₂ : (count m₁).dev = m₁.dev := rfl
  obtain ⟨ready₂, views₂⟩ := active_keeps step₂.step started.ready
  have room₂ := hasRoom_count room₁
  generalize count m₁ = m₂ at *
  -- It yields to the second one, which has not run yet.
  have running₂ : m₂.dev.xSchedulerRunning = true := by rw [dev₂, run₁.1]
  have tasks₂ : m₂.dev.tasks = [taskB, taskA] := by rw [dev₂, started.tasks, tasks₀]
  have current₃ := yield_current m₂
  have switched₃ := yield_switches ready₂ running₂ room₂ (t := taskA) (by simp [tasks₂])
  have pause₃ : Pause turns taskA m₂ (yield turnKernel m₂) := .yield running₂ room₂ rfl
  change Switched turns m₂ (yield turnKernel m₂) at switched₃
  generalize yield turnKernel m₂ = m₃ at *
  rw [tasks₂, dev₂, run₁.2] at current₃
  have run₃ : Running m₃.dev taskB := ⟨switched₃.running, current₃⟩
  have context₃ : contextOf m₃ taskB =
      initialContext (topOfStack stackB 1024) 0x00103000#32 8#32 := by
    have away : ¬Running m₁.dev taskB := fun run => absurd (run₁.2.symm.trans run.2) (by decide)
    have view₂ := views₂ taskB (by simp [started.tasks, tasks₀]) (by simp [tasks₂]) away
    have view₃ := switched₃.view taskB (by simp [tasks₂])
    exact (congrArg View.context (view₃.trans (view₂.trans (started.view taskB memB)))).trans
      contextB
  have stack₃ : m₃.dev.pxStack taskB = stackAt stackB 1024 := by
    rw [switched₃.pxStack, dev₂, started.pxStack, stackB₀]
  have room₃ : HasRoom turns m₃ := hasRoom_of_context run₃ stack₃ context₃ (by decide)
  -- The second one yields, and the first one counts on.
  have tasks₃ : m₃.dev.tasks = [taskB, taskA] := switched₃.tasks.trans tasks₂
  have current₄ := yield_current m₃
  have switched₄ := yield_switches switched₃.ready run₃.1 room₃ (t := taskA) (by simp [tasks₃])
  have pause₄ : Pause turns taskA m₃ (yield turnKernel m₃) := .yield run₃.1 room₃ rfl
  change Switched turns m₃ (yield turnKernel m₃) at switched₄
  generalize yield turnKernel m₃ = m₄ at *
  rw [tasks₃, run₃.2] at current₄
  have run₄ : Running m₄.dev taskA := ⟨switched₄.running, current₄⟩
  have step₅ : Own turns taskA counts m₄ (count m₄) :=
    own_count switched₄.ready run₄ (by simp [switched₄.tasks, tasks₃])
  have run : Sliced (Own turns taskA counts) (Pause turns taskA) (view turns taskA) madeAB _ _ :=
    .pause start (.own step₂ (.pause pause₃ (.pause pause₄ (.own step₅ (.nil _)))))
  obtain ⟨chain, last⟩ := tasks_unseen turns taskA counts madeAB_ready memA run
  exact ⟨_, _, _, run, chain, Option.some_inj.mp last⟩

end LTZVisor.NsGuest.TaskRuns
