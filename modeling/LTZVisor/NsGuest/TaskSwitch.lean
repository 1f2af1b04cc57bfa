/- LTZVisor/NsGuest/TaskSwitch
   kind: property
   digest: A switch of the processor leaves every task its context and its stack. -/

import LTZVisor.NsGuest.PortIrq

set_option autoImplicit false
set_option relaxedAutoImplicit false

namespace LTZVisor.NsGuest.TaskSwitch

open LTZVisor.Lib.Memory LTZVisor.Arm LTZVisor.Arm.Instr
open LTZVisor.NsGuest.PortAsm LTZVisor.NsGuest.TaskContext
open LTZVisor.NsGuest.TaskStacks LTZVisor.NsGuest.PortIrq

variable {env : Env} {n m : Guest} {t : Addr}

/-- Every task of `n` is in a frame in `m`, with the context that it had. -/
structure AllSaved (env : Env) (n m : Guest) : Prop where
  mode : m.cpsr.mode = sysMode
  svc : m.regs .svc .sp = n.regs .svc .sp
  irq : m.regs .irq .sp = n.regs .irq .sp
  running : m.dev.xSchedulerRunning = n.dev.xSchedulerRunning
  current : m.dev.pxCurrentTCB ∈ n.dev.tasks
  tasks : m.dev.tasks = n.dev.tasks
  pxStack : m.dev.pxStack = n.dev.pxStack
  suspended : ∀ t ∈ n.dev.tasks, Suspended m.mem (m.dev.pxTopOfStack t) (n.dev.pxStack t)
  context : ∀ t ∈ n.dev.tasks, saved m.mem (m.dev.pxTopOfStack t) = contextOf n t
  mem : ∀ t ∈ n.dev.tasks, ∀ x ∈ n.dev.pxStack t,
    offset (n.dev.pxStack t) ((contextOf n t).reg .sp) ≤ offset (n.dev.pxStack t) x →
      m.mem x = n.mem x

private theorem length_savedWords (m : Guest) :
    (savedWords m).length = fpuWords m.dev.ulPortTaskHasFPUContext + 17 :=
  length_frameWords _ _ _ _ _ _

def selected (k : Kernel) (m : Guest) : Guest :=
  vTaskSwitchContext k (movImm .r0 k.vTaskSwitchContext (exec (portSaveContext k.toSymbols) m))

private theorem selected_mem (m : Guest) {x : Addr} (task : t ∈ m.dev.tasks)
    (mine : x ∈ m.dev.pxStack t) (frames : x ∉ (⟨frameTop m - BitVec.ofNat 32 env.kernel.abi.depth,
      env.kernel.abi.depth⟩ : Range)) :
    (selected env.kernel m).mem x = writeWords m.mem (frameTop m) (savedWords m) x := by
  have saved := contextSaved env.kernel.toSymbols (m := m)
  rw [selected]
  generalize exec (portSaveContext env.kernel.toSymbols) m = a at *
  have sys : (movImm .r0 env.kernel.vTaskSwitchContext a).cpsr.mode = sysMode := saved.mode
  have sp : (movImm .r0 env.kernel.vTaskSwitchContext a).reg .sp = frameTop m := by
    rw [← saved.sp, ← reg_sys saved.mode]
    exact (Machine.reg_setReg _ _ _ _).trans (if_neg (by simp))
  have mem : (movImm .r0 env.kernel.vTaskSwitchContext a).mem = a.mem := rfl
  have dev : (movImm .r0 env.kernel.vTaskSwitchContext a).dev = a.dev := rfl
  generalize movImm .r0 env.kernel.vTaskSwitchContext a = b at *
  have task' : t ∈ b.dev.tasks := by rwa [dev, saved.dev]
  have mine' : x ∈ b.dev.pxStack t := by rwa [dev, saved.dev]
  rw [vTaskSwitchContext]
  have outside : x ∉ env.kernel.abi.frames { b with
      mem := (env.kernel.selects b).mem
      dev := { b.dev with
        pxCurrentTCB := (env.kernel.selects b).pxCurrentTCB
        fpu := (env.kernel.selects b).fpu } } := by
    rw [Aapcs.frames]
    change x ∉ (⟨b.reg .sp - _, _⟩ : Range)
    rw [sp]
    exact frames
  exact (if_neg outside).trans ((env.selects_mem b t task' x mine').trans (by rw [mem, saved.mem]))

theorem selected_mode (k : Kernel) (m : Guest) : (selected k m).cpsr.mode = sysMode :=
  (contextSaved k.toSymbols (m := m)).mode

private theorem selected_banked (k : Kernel) (m : Guest) {b : Bank} (other : b ≠ .usr) (r : Reg) :
    (selected k m).regs b r = m.regs b r := by
  have saved := contextSaved k.toSymbols (m := m)
  rw [← saved.banked b r other, selected]
  generalize exec (portSaveContext k.toSymbols) m = a at *
  have away (m : Guest) (mode : m.cpsr.mode = sysMode) (rs : List Reg) :
      b = m.bank.home r → r ∉ rs :=
    fun here => absurd (here.trans (home_sys mode r)) other
  have returned := (Aapcs.returnTo_obeyed k.abi none { movImm .r0 k.vTaskSwitchContext a with
    mem := (k.selects (movImm .r0 k.vTaskSwitchContext a)).mem
    dev := { (movImm .r0 k.vTaskSwitchContext a).dev with
      pxCurrentTCB := (k.selects (movImm .r0 k.vTaskSwitchContext a)).pxCurrentTCB
      fpu := (k.selects (movImm .r0 k.vTaskSwitchContext a)).fpu } }).regs b r
    (away _ saved.mode _)
  exact returned.trans (regsKept_setReg a .r0 k.vTaskSwitchContext b r (away a saved.mode _))

/-- What is left of the variables of the kernel. -/
structure SelectedDev (m m' : Guest) : Prop where
  xSchedulerRunning : m'.dev.xSchedulerRunning = m.dev.xSchedulerRunning
  tasks : m'.dev.tasks = m.dev.tasks
  pxStack : m'.dev.pxStack = m.dev.pxStack
  pxTopOfStack : m'.dev.pxTopOfStack =
    Function.update m.dev.pxTopOfStack m.dev.pxCurrentTCB (frameTop m)

private theorem selected_dev (k : Kernel) (m : Guest) : SelectedDev m (selected k m) := by
  have saved := (contextSaved k.toSymbols (m := m)).dev
  have running : (selected k m).dev.xSchedulerRunning =
      (exec (portSaveContext k.toSymbols) m).dev.xSchedulerRunning := rfl
  have tasks : (selected k m).dev.tasks = (exec (portSaveContext k.toSymbols) m).dev.tasks := rfl
  have stack : (selected k m).dev.pxStack =
      (exec (portSaveContext k.toSymbols) m).dev.pxStack := rfl
  have tops : (selected k m).dev.pxTopOfStack =
      (exec (portSaveContext k.toSymbols) m).dev.pxTopOfStack := rfl
  constructor
  case xSchedulerRunning => rw [running, saved]
  case tasks => rw [tasks, saved]
  case pxStack => rw [stack, saved]
  case pxTopOfStack => rw [tops, saved]

private theorem selected_current (entered : Entered env n m) (task : t ∈ n.dev.tasks) :
    (selected env.kernel m).dev.pxCurrentTCB ∈ n.dev.tasks := by
  have saved := (contextSaved env.kernel.toSymbols (m := m)).dev
  have dev : (movImm .r0 env.kernel.vTaskSwitchContext
      (exec (portSaveContext env.kernel.toSymbols) m)).dev =
        (exec (portSaveContext env.kernel.toSymbols) m).dev := rfl
  have current := env.selects_task (movImm .r0 env.kernel.vTaskSwitchContext
    (exec (portSaveContext env.kernel.toSymbols) m))
  rw [dev, saved] at current
  rw [← entered.dev.tasks] at task ⊢
  exact current (List.ne_nil_of_mem task)

private theorem savedWords_eq (entered : Entered env n m) : savedWords m =
    frameWords n.dev.ulPortTaskHasFPUContext n.dev.fpu n.dev.ulCriticalNesting (n.regs .usr) n.pc
      n.cpsr.toWord := by
  rw [savedWords, entered.dev.ulPortTaskHasFPUContext, entered.dev.fpu,
    entered.dev.ulCriticalNesting, entered.regs, entered.lr, entered.spsr]

private theorem saved_live (entered : Entered env n m)
    (aligned : branchTarget n.cpsr.t n.pc = n.pc) :
    saved (writeWords m.mem (frameTop m) (savedWords m)) (frameTop m) = live n := by
  have top : frameTop m = n.regs .usr .sp -
      BitVec.ofNat 32 (4 * (fpuWords n.dev.ulPortTaskHasFPUContext + 17)) := by
    rw [frameTop, length_savedWords, entered.regs, entered.dev.ulPortTaskHasFPUContext]
  rw [savedWords_eq entered, saved_frame, Psr.ofWord_toWord, aligned]
  ext1
  case reg =>
    funext r
    change (if r = .sp then _ else _) = n.regs .usr r
    split_ifs with pointer
    · rw [pointer, top]
      exact BitVec.sub_add_cancel _ _
    · rfl
  all_goals rfl

/-- What is pushed below `sp` lies in the stack, below what is in use. -/
private theorem below_sp {r : Range} {sp x : Addr} {k k' : Nat} (room : k ≤ offset r sp)
    (used : offset r sp ≤ r.size) (len : k' ≤ k)
    (inside : x ∈ (⟨sp - BitVec.ofNat 32 k, k'⟩ : Range)) :
    x ∈ r ∧ offset r x < offset r sp := by
  change (x - (sp - BitVec.ofNat 32 k)).toNat < k' at inside
  change (x - r.base).toNat < r.size ∧ _
  simp only [offset] at *
  generalize r.base = base at *
  generalize r.size = bytes at *
  bv_omega

private theorem frame_room (room : HasRoom env n) :
    4 * (savedWords m).length + env.kernel.abi.depth ≤
      offset (n.dev.pxStack n.dev.pxCurrentTCB) (n.regs .usr .sp) := by
  have bound := fpuWords_le m.dev.ulPortTaskHasFPUContext
  rw [length_savedWords]
  rw [HasRoom] at room
  omega

section Saved

variable (entered : Entered env n m) (ready : Ready env n)
  (running : n.dev.xSchedulerRunning = true) (room : HasRoom env n)
include entered ready running room

private theorem pushed_below {x : Addr} {k k' : Nat}
    (fits : k ≤ 4 * (savedWords m).length + env.kernel.abi.depth) (len : k' ≤ k)
    (inside : x ∈ (⟨m.regs .usr .sp - BitVec.ofNat 32 k, k'⟩ : Range)) :
    x ∈ n.dev.pxStack n.dev.pxCurrentTCB ∧
      offset (n.dev.pxStack n.dev.pxCurrentTCB) x <
        offset (n.dev.pxStack n.dev.pxCurrentTCB) (n.regs .usr .sp) := by
  have run : Running n.dev n.dev.pxCurrentTCB := ⟨running, rfl⟩
  have enough := frame_room (m := m) room
  rw [entered.regs] at inside
  exact below_sp (fits.trans enough) (ready.running _ run).sp len inside

/-- What is not in use by the task that ran is not touched. -/
private theorem selected_away {x : Addr} (task : t ∈ n.dev.tasks) (mine : x ∈ n.dev.pxStack t)
    (away : Running n.dev t →
      offset (n.dev.pxStack t) (n.regs .usr .sp) ≤ offset (n.dev.pxStack t) x) :
    (selected env.kernel m).mem x = n.mem x := by
  have outside {k k' : Nat} (fits : k ≤ 4 * (savedWords m).length + env.kernel.abi.depth)
      (len : k' ≤ k) : x ∉ (⟨m.regs .usr .sp - BitVec.ofNat 32 k, k'⟩ : Range) := by
    intro inside
    obtain ⟨here, low⟩ := pushed_below entered ready running room fits len inside
    by_cases current : t = n.dev.pxCurrentTCB
    · subst current
      exact absurd low (Nat.not_lt.mpr (away ⟨running, rfl⟩))
    · exact ready.apart.each t _ (.inl task) (.inr ⟨running, rfl⟩) current x mine here
  have task' : t ∈ m.dev.tasks := by rwa [entered.dev.tasks]
  have mine' : x ∈ m.dev.pxStack t := by rwa [entered.dev.pxStack]
  rw [selected_mem m task' mine', writeWords_of_not_mem, entered.mem t task x mine]
  · exact outside (Nat.le_add_right _ _) (le_refl _)
  · rw [frameTop, sub_ofNat_sub_ofNat]
    exact outside (le_refl _) (Nat.le_add_left _ _)

private theorem selected_frame (task : n.dev.pxCurrentTCB ∈ n.dev.tasks) {x : Addr}
    (inside : x ∈ (⟨frameTop m, 4 * (savedWords m).length⟩ : Range)) :
    (selected env.kernel m).mem x = writeWords m.mem (frameTop m) (savedWords m) x := by
  have size := (ready.apart.clear _ (.inl task)).size
  have enough := frame_room (m := m) room
  have used := (ready.running _ ⟨running, rfl⟩).sp
  obtain ⟨mine, -⟩ :=
    pushed_below entered ready running room (Nat.le_add_right _ _) (le_refl _) inside
  rw [← entered.dev.pxStack] at mine
  rw [← entered.dev.tasks] at task
  apply selected_mem m task mine
  intro low
  have bound : 4 * (savedWords m).length + env.kernel.abi.depth < 2 ^ 32 :=
    (enough.trans used).trans_lt size
  rw [mem_range] at inside low
  generalize frameTop m = top at *
  bv_omega

private theorem selected_running (task : n.dev.pxCurrentTCB ∈ n.dev.tasks) :
    Suspended (selected env.kernel m).mem (frameTop m) (n.dev.pxStack n.dev.pxCurrentTCB) ∧
      saved (selected env.kernel m).mem (frameTop m) = live n := by
  have sound := ready.running _ ⟨running, rfl⟩
  have live_ := saved_live entered sound.aligned
  have flag : word (writeWords m.mem (frameTop m) (savedWords m)) (frameTop m) 0 =
      n.dev.ulPortTaskHasFPUContext := congrArg Context.ulPortTaskHasFPUContext live_
  have frame : ∀ x ∈ frameAt (writeWords m.mem (frameTop m) (savedWords m)) (frameTop m),
      (selected env.kernel m).mem x = writeWords m.mem (frameTop m) (savedWords m) x := by
    intro x hx
    rw [frameAt, flag, ← entered.dev.ulPortTaskHasFPUContext, ← length_savedWords] at hx
    exact selected_frame entered ready running room task hx
  have context : saved (selected env.kernel m).mem (frameTop m) = live n :=
    (saved_congr frame).trans live_
  refine ⟨⟨?_, ?_⟩, context⟩
  · rw [context]
    exact sound.mode
  · have enough := frame_room (m := m) room
    have used := sound.sp
    have size := (ready.apart.clear _ (.inl task)).size
    change offset _ (n.regs .usr .sp) ≤ _ at used
    rw [flag_congr frame, flag, ← entered.dev.ulPortTaskHasFPUContext, ← length_savedWords,
      frameTop, entered.regs]
    simp only [offset] at *
    bv_omega

private theorem allSaved (member : t ∈ n.dev.tasks) : AllSaved env n (selected env.kernel m) := by
  have dev := selected_dev env.kernel m
  have tops := dev.pxTopOfStack
  rw [entered.dev.pxCurrentTCB, entered.dev.pxTopOfStack] at tops
  have others {t : Addr} (task : t ∈ n.dev.tasks) (parked : ¬Running n.dev t) :=
    (ready.suspended t task parked).congr fun x hx =>
      selected_away entered ready running room task
        ((ready.suspended t task parked).frame_subset x hx) fun run => absurd run parked
  have both (t : Addr) (task : t ∈ n.dev.tasks) :
      Suspended (selected env.kernel m).mem ((selected env.kernel m).dev.pxTopOfStack t)
          (n.dev.pxStack t) ∧
        saved (selected env.kernel m).mem ((selected env.kernel m).dev.pxTopOfStack t) =
          contextOf n t := by
    rw [tops]
    by_cases current : t = n.dev.pxCurrentTCB
    · subst current
      rw [Function.update_self, contextOf_running ⟨running, rfl⟩]
      exact selected_running entered ready running room task
    · have parked : ¬Running n.dev t := fun run => current run.2.symm
      rw [Function.update_of_ne current, contextOf_parked parked]
      exact others task parked
  constructor
  case mode => exact selected_mode _ _
  case svc => rw [selected_banked env.kernel m (by simp), entered.svc]
  case irq => rw [selected_banked env.kernel m (by simp), entered.irq]
  case running => rw [dev.xSchedulerRunning, entered.dev.xSchedulerRunning]
  case current => exact selected_current entered member
  case tasks => rw [dev.tasks, entered.dev.tasks]
  case pxStack => rw [dev.pxStack, entered.dev.pxStack]
  case suspended => exact fun t task => (both t task).1
  case context => exact fun t task => (both t task).2
  case mem =>
    intro t task x mine high
    apply selected_away entered ready running room task mine
    intro run
    rw [contextOf_running run] at high
    exact high

end Saved

/-- A switch leaves every task the view that it had, and the mask that the nesting count of the
task that runs asks for. -/
structure Switched (env : Env) (n m : Guest) : Prop where
  ready : Ready env m
  running : m.dev.xSchedulerRunning = true
  tasks : m.dev.tasks = n.dev.tasks
  pxStack : m.dev.pxStack = n.dev.pxStack
  view : ∀ t ∈ n.dev.tasks, view env t m = view env t n
  mask : m.dev.iccPmr = maskFor m.dev.ulCriticalNesting

/-- Every task is in a frame, and one of them is selected. -/
structure Parked (env : Env) (m : Guest) : Prop where
  mode : m.cpsr.mode = sysMode
  running : m.dev.xSchedulerRunning = true
  null : 0#32 ∉ m.dev.tasks
  current : m.dev.pxCurrentTCB ∈ m.dev.tasks
  placed : Placed env m
  suspended : ∀ t ∈ m.dev.tasks, Suspended m.mem (m.dev.pxTopOfStack t) (m.dev.pxStack t)

/-- The selected task has the context of its frame, and the others still have theirs. -/
structure Resumed (env : Env) (m m' : Guest) : Prop where
  ready : Ready env m'
  running : Running m'.dev m.dev.pxCurrentTCB
  tasks : m'.dev.tasks = m.dev.tasks
  pxStack : m'.dev.pxStack = m.dev.pxStack
  context : ∀ t, contextOf m' t = saved m.mem (m.dev.pxTopOfStack t)
  mem : m'.mem = m.mem
  mask : m'.dev.iccPmr = maskFor m'.dev.ulCriticalNesting

theorem restoreContext_resumes (parked : Parked env m) :
    Resumed env m (exec (portRestoreContext env.kernel.toSymbols) m) := by
  have restored := contextRestored env.kernel.toSymbols parked.mode
  generalize exec (portRestoreContext env.kernel.toSymbols) m = b at *
  have same := restored.kernel
  have context (t : Addr) : contextOf b t = saved m.mem (m.dev.pxTopOfStack t) := by
    by_cases run : Running b.dev t
    · rw [contextOf_running run, restored.live, ← same.pxCurrentTCB, run.2]
    · rw [contextOf_parked run, restored.mem, same.pxTopOfStack]
  have held {t : Addr} (holds : Holds b.dev t) : t ∈ m.dev.tasks := by
    rcases holds with task | run
    · rwa [same.tasks] at task
    · rw [← run.2, same.pxCurrentTCB]
      exact parked.current
  have apart : Apart env b.dev :=
    parked.placed.apart.mono (fun t holds => .inl (held holds)) fun t _ => by rw [same.pxStack]
  constructor
  case ready =>
    constructor
    case null => exact fun holds => parked.null (held holds)
    case apart => exact apart
    case running =>
      intro t run
      have suspended := parked.suspended t (held (.inr run))
      rw [← contextOf_running run, context, same.pxStack]
      exact suspended.sound (parked.placed.apart.clear t (.inl (held (.inr run)))).size
    case suspended =>
      intro t task _
      rw [restored.mem, same.pxTopOfStack, same.pxStack]
      exact parked.suspended t (held (.inl task))
    case svc => exact fun _ => by rw [restored.banked .svc .sp (by simp), parked.placed.svc]
    case irq => exact fun _ => by rw [restored.banked .irq .sp (by simp), parked.placed.irq]
  case running => exact ⟨same.xSchedulerRunning.trans parked.running, same.pxCurrentTCB⟩
  case tasks => exact same.tasks
  case pxStack => exact same.pxStack
  case context => exact context
  case mem => exact restored.mem
  case mask => exact restored.mask

theorem switchContext_switches (entered : Entered env n m) (ready : Ready env n)
    (running : n.dev.xSchedulerRunning = true) (room : HasRoom env n) (member : t ∈ n.dev.tasks) :
    Switched env n (switchContext env.kernel m) := by
  have saved := allSaved entered ready running room member
  have whole : switchContext env.kernel m =
      exec (portRestoreContext env.kernel.toSymbols) (selected env.kernel m) := rfl
  rw [whole]
  generalize selected env.kernel m = a at *
  have held {t : Addr} (holds : Holds a.dev t) : t ∈ n.dev.tasks := by
    rcases holds with task | run
    · rwa [saved.tasks] at task
    · rw [← run.2]
      exact saved.current
  have parked : Parked env a := by
    constructor
    case mode => exact saved.mode
    case running => rw [saved.running, running]
    case null =>
      rw [saved.tasks]
      exact fun null => ready.null (.inl null)
    case current =>
      rw [saved.tasks]
      exact saved.current
    case placed =>
      constructor
      case apart =>
        exact ready.apart.mono (fun t holds => .inl (held holds)) fun t _ => by rw [saved.pxStack]
      case svc => rw [saved.svc, ready.svc running]
      case irq => rw [saved.irq, ready.irq running]
    case suspended =>
      rw [saved.tasks, saved.pxStack]
      exact saved.suspended
  have resumed := restoreContext_resumes parked
  generalize exec (portRestoreContext env.kernel.toSymbols) a = b at *
  have context {t : Addr} (task : t ∈ n.dev.tasks) : contextOf b t = contextOf n t := by
    rw [← saved.context t task, resumed.context t]
  constructor
  case ready => exact resumed.ready
  case running => exact resumed.running.1
  case tasks => exact resumed.tasks.trans saved.tasks
  case pxStack => exact resumed.pxStack.trans saved.pxStack
  case view =>
    intro t task
    apply view_congr (context task)
    · rw [resumed.pxStack, saved.pxStack]
    · intro x sees
      rw [resumed.mem, saved.mem t task x sees.1 sees.2.2]
  case mask => exact resumed.mask

private theorem entered_yield (n : Guest) : Entered env n (takeException svcMode n.pc n) := by
  constructor
  case regs =>
    funext r
    change (if Bank.usr = Bank.svc ∧ r = .lr then n.pc else n.regs .usr r) = _
    exact if_neg fun banked => absurd banked.1 (by simp)
  case mem => exact fun _ _ _ _ => rfl
  case dev => exact SameTasks.refl _
  all_goals rfl

theorem yield_switches (ready : Ready env m) (running : m.dev.xSchedulerRunning = true)
    (room : HasRoom env m) (member : t ∈ m.dev.tasks) : Switched env m (yield env.kernel m) := by
  rw [yield, freeRtosSwiHandler]
  exact switchContext_switches (entered_yield m) ready running room member

/-- The return from an interrupt that does not switch. -/
theorem movsPcLr_returns (entered : Entered env n m) (ready : Ready env n)
    (running : n.dev.xSchedulerRunning = true) :
    Ready env (movsPcLr m) ∧ (movsPcLr m).dev.tasks = n.dev.tasks ∧
      ∀ t ∈ n.dev.tasks, view env t (movsPcLr m) = view env t n := by
  have same : live (movsPcLr m) = live n := by
    ext1
    case reg => exact entered.regs
    case pc => exact entered.lr
    case cpsr =>
      change Psr.ofWord (m.spsr m.bank) = n.cpsr
      rw [entered.spsr, Psr.ofWord_toWord]
    case ulCriticalNesting => exact entered.dev.ulCriticalNesting
    case ulPortTaskHasFPUContext => exact entered.dev.ulPortTaskHasFPUContext
    case fpu =>
      change (if m.dev.ulPortTaskHasFPUContext = 0#32 then none else some m.dev.fpu) = _
      rw [entered.dev.ulPortTaskHasFPUContext, entered.dev.fpu]
      rfl
  have dev : SameTasks n.dev (movsPcLr m).dev := entered.dev
  have svc : (movsPcLr m).regs .svc .sp = n.regs .svc .sp := entered.svc
  have irq : (movsPcLr m).regs .irq .sp = n.regs .irq .sp := entered.irq
  have mem : ∀ t ∈ n.dev.tasks, ∀ x ∈ n.dev.pxStack t, (movsPcLr m).mem x = n.mem x := entered.mem
  generalize movsPcLr m = e at *
  have runs (t : Addr) : Running e.dev t ↔ Running n.dev t := by
    rw [Running, Running, dev.xSchedulerRunning, dev.pxCurrentTCB]
  have holds (t : Addr) : Holds e.dev t ↔ Holds n.dev t := by
    rw [Holds, Holds, dev.tasks, runs]
  have kept {t : Addr} (task : t ∈ n.dev.tasks) (parked : ¬Running n.dev t) :=
    (ready.suspended t task parked).congr fun x hx =>
      mem t task x ((ready.suspended t task parked).frame_subset x hx)
  refine ⟨?_, dev.tasks, ?_⟩
  · constructor
    case null => rw [holds]; exact ready.null
    case apart =>
      exact ready.apart.mono (fun t => (holds t).mp) fun t _ => by rw [dev.pxStack]
    case running =>
      intro t run
      rw [same, dev.pxStack]
      exact ready.running t ((runs t).mp run)
    case suspended =>
      intro t task parked
      rw [dev.tasks] at task
      rw [runs] at parked
      rw [dev.pxTopOfStack, dev.pxStack]
      exact (kept task parked).1
    case svc => exact fun _ => svc.trans (ready.svc running)
    case irq => exact fun _ => irq.trans (ready.irq running)
  · intro t task
    refine view_congr ?_ (by rw [dev.pxStack]) fun x sees => mem t task x sees.1
    by_cases run : Running n.dev t
    · rw [contextOf_running run, contextOf_running ((runs t).mpr run), same]
    · rw [contextOf_parked run, contextOf_parked (mt (runs t).mp run), dev.pxTopOfStack]
      exact (kept task run).2

end LTZVisor.NsGuest.TaskSwitch
