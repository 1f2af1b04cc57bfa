/- LTZVisor/NsGuest/PortIrq
   kind: property
   digest: The interrupt handler of the port comes back with the state of the task. -/

import LTZVisor.NsGuest.TaskStacks

set_option autoImplicit false
set_option relaxedAutoImplicit false

namespace LTZVisor.NsGuest.PortIrq

open LTZVisor.Lib.Memory LTZVisor.Arm LTZVisor.Arm.Instr
open LTZVisor.NsGuest.PortAsm LTZVisor.NsGuest.TaskContext LTZVisor.NsGuest.TaskStacks

/-- The part of the kernel that belongs to the tasks. -/
structure SameTasks (d d' : Rtos) : Prop where
  pxCurrentTCB : d'.pxCurrentTCB = d.pxCurrentTCB
  xSchedulerRunning : d'.xSchedulerRunning = d.xSchedulerRunning
  pxStack : d'.pxStack = d.pxStack
  pxTopOfStack : d'.pxTopOfStack = d.pxTopOfStack
  tasks : d'.tasks = d.tasks
  ulCriticalNesting : d'.ulCriticalNesting = d.ulCriticalNesting
  ulPortTaskHasFPUContext : d'.ulPortTaskHasFPUContext = d.ulPortTaskHasFPUContext
  fpu : d'.fpu = d.fpu

/-- `m` is at the save of the context of the task that ran in `n`. -/
structure Entered (env : Env) (n m : Guest) : Prop where
  regs : m.regs .usr = n.regs .usr
  lr : m.reg .lr = n.pc
  spsr : m.spsr m.bank = n.cpsr.toWord
  svc : m.regs .svc .sp = n.regs .svc .sp
  irq : m.regs .irq .sp = n.regs .irq .sp
  mem : ∀ t ∈ n.dev.tasks, ∀ x ∈ n.dev.pxStack t, m.mem x = n.mem x
  dev : SameTasks n.dev m.dev

def usedRegs : List Reg := [.r0, .r1, .r2, .r3, .r4, .r12]

def callRegs : List Reg := [.r0, .r1, .r2, .r3, .r4, .lr]

/-- `m` is in the handler that interrupted the task that ran in `n`. -/
structure InHandler (env : Env) (n m : Guest) : Prop where
  mode : m.cpsr.mode = svcMode
  irq : m.regs .irq .sp = env.irqTop - 8#32
  usr : ∀ r, r ∉ usedRegs → m.regs .usr r = n.regs .usr r
  used : ∀ i r, usedRegs[i]? = some r → word m.mem (env.svcTop - 24#32) i = n.regs .usr r
  lr : word m.mem (env.irqTop - 8#32) 1 = n.pc
  spsr : word m.mem (env.irqTop - 8#32) 0 = n.cpsr.toWord
  mem : ∀ t ∈ n.dev.tasks, ∀ x ∈ n.dev.pxStack t, m.mem x = n.mem x
  dev : SameTasks n.dev m.dev

variable {env : Env} {n m m' : Guest}

theorem SameTasks.trans {d d' d'' : Rtos} (h : SameTasks d d') (h' : SameTasks d' d'') :
    SameTasks d d'' where
  pxCurrentTCB := h'.pxCurrentTCB.trans h.pxCurrentTCB
  xSchedulerRunning := h'.xSchedulerRunning.trans h.xSchedulerRunning
  pxStack := h'.pxStack.trans h.pxStack
  pxTopOfStack := h'.pxTopOfStack.trans h.pxTopOfStack
  tasks := h'.tasks.trans h.tasks
  ulCriticalNesting := h'.ulCriticalNesting.trans h.ulCriticalNesting
  ulPortTaskHasFPUContext := h'.ulPortTaskHasFPUContext.trans h.ulPortTaskHasFPUContext
  fpu := h'.fpu.trans h.fpu

private theorem home_svc (mode : m.cpsr.mode = svcMode) : m.bank = .svc := congrArg bankOf mode

private theorem home_irq (mode : m.cpsr.mode = irqMode) : m.bank = .irq := congrArg bankOf mode

private theorem reg_svc_sp (mode : m.cpsr.mode = svcMode) : m.reg .sp = m.regs .svc .sp := by
  rw [Machine.reg, home_svc mode]
  rfl

/-- The memory that the handler relies on, and that of the tasks. -/
def InUse (env : Env) (d : Rtos) (x : Addr) : Prop :=
  (∃ t ∈ d.tasks, x ∈ d.pxStack t) ∨ x ∈ (⟨env.irqTop - 8#32, 8⟩ : Range) ∨
    x ∈ (⟨env.svcTop - 24#32, 24⟩ : Range)

/-- A step that changes registers which are saved, flags, other parts of the kernel, and memory
that is not in use. -/
theorem InHandler.step (inside : InHandler env n m) (mode : m'.cpsr.mode = m.cpsr.mode)
    {rs : List Reg} (regs : RegsKept rs m m') (sub : ∀ r ∈ rs, r ∈ usedRegs ∨ r = .sp ∨ r = .lr)
    (mem : ∀ x, InUse env n.dev x → m'.mem x = m.mem x) (dev : SameTasks m.dev m'.dev) :
    InHandler env n m' where
  mode := mode.trans inside.mode
  irq := by
    rw [regs .irq .sp fun here => absurd here (by rw [home_svc inside.mode]; simp), inside.irq]
  usr := by
    intro r other
    rw [regs .usr r, inside.usr r other]
    intro here hit
    rcases sub r hit with used | rfl | rfl
    · exact other used
    · exact absurd here (by rw [home_svc inside.mode]; simp)
    · exact absurd here (by rw [home_svc inside.mode]; simp)
  used := by
    intro i r at_i
    have lt : i < 6 := (List.getElem?_eq_some_iff.mp at_i).1
    rw [word_same (n := 6) (fun x hx => mem x (.inr (.inr hx))) lt (by omega), inside.used i r at_i]
  lr := by
    rw [word_same (n := 2) (fun x hx => mem x (.inr (.inl hx))) (by omega) (by omega), inside.lr]
  spsr := by
    rw [word_same (n := 2) (fun x hx => mem x (.inr (.inl hx))) (by omega) (by omega), inside.spsr]
  mem := by
    intro t task x mine
    rw [mem x (.inl ⟨t, task, mine⟩), inside.mem t task x mine]
  dev := inside.dev.trans dev

theorem SameTasks.refl (d : Rtos) : SameTasks d d := ⟨rfl, rfl, rfl, rfl, rfl, rfl, rfl, rfl⟩

/-- From `m` to `m'` the registers that the handler uses are popped, as the task had them in `n`. -/
structure UsedRestored (env : Env) (n m m' : Guest) : Prop where
  usr : m'.regs .usr = n.regs .usr
  svc : m'.regs .svc .sp = env.svcTop
  irq : m'.regs .irq .sp = env.irqTop - 8#32
  mem : m'.mem = m.mem
  dev : m'.dev = m.dev

private theorem pop_usedRestored (inside : InHandler env n m)
    (svc : m.regs .svc .sp = env.svcTop - 24#32) : UsedRestored env n m (pop usedRegs m) := by
  have popped : Popped usedRegs 6 m (pop usedRegs m) := popped_pop (by simp [usedRegs])
  have value {i : Nat} {r : Reg} (at_i : usedRegs[i]? = some r) :
      (pop usedRegs m).reg r = n.regs .usr r := by
    rw [pop_reg (by simp [usedRegs]) at_i, reg_svc_sp inside.mode, svc]
    exact inside.used i r at_i
  have dev : (pop usedRegs m).dev = m.dev := pop_dev
  generalize pop usedRegs m = m₁ at *
  have mode : m₁.cpsr.mode = svcMode := popped.mode.trans inside.mode
  constructor
  case usr =>
    funext r
    by_cases used : r ∈ usedRegs
    · obtain ⟨i, at_i⟩ := List.getElem?_of_mem used
      rw [← value at_i, Machine.reg, home_svc mode]
      simp only [usedRegs, List.mem_cons, List.not_mem_nil, or_false] at used
      rcases used with rfl | rfl | rfl | rfl | rfl | rfl <;> rfl
    · rw [popped.regs .usr r, inside.usr r used]
      intro here hit
      rcases List.mem_cons.mp hit with rfl | hit
      · exact absurd here (by rw [home_svc inside.mode]; simp)
      · exact used hit
  case svc =>
    rw [← reg_svc_sp mode, popped.sp, reg_svc_sp inside.mode, svc]
    bv_omega
  case irq =>
    rw [popped.regs .irq .sp fun here => absurd here (by rw [home_svc inside.mode]; simp),
      inside.irq]
  case mem => exact popped.mem
  case dev => exact dev

/-- From `m` to `m'` the status and the address that an interrupt is to return to are popped. -/
structure FramePopped (m m' : Guest) : Prop where
  mode : m'.cpsr.mode = irqMode
  others : ∀ b, b ≠ .irq → m'.regs b = m.regs b
  sp : m'.reg .sp = m.reg .sp + 8#32
  lr : m'.reg .lr = word m.mem (m.reg .sp) 1
  spsr : m'.spsr .irq = word m.mem (m.reg .sp) 0
  mem : m'.mem = m.mem
  dev : m'.dev = m.dev

/-- In IRQ mode both words go through lr. -/
private theorem framePopped (mode : m.cpsr.mode = irqMode) :
    FramePopped m (pop [.lr] (msrSpsrCxsf .lr (pop [.lr] m))) := by
  have first : Popped [.lr] 1 m (pop [.lr] m) := popped_pop (by simp)
  have status := pop_reg (m := m) (List.nodup_singleton Reg.lr) (i := 0) rfl
  have dev₁ : (pop [.lr] m).dev = m.dev := pop_dev
  generalize pop [.lr] m = m₁ at *
  have mode₁ : m₁.cpsr.mode = irqMode := first.mode.trans mode
  have mode₂ : (msrSpsrCxsf .lr m₁).cpsr.mode = irqMode := mode₁
  have sp₂ : (msrSpsrCxsf .lr m₁).reg .sp = m₁.reg .sp := rfl
  have regs₂ : (msrSpsrCxsf .lr m₁).regs = m₁.regs := rfl
  have mem₂ : (msrSpsrCxsf .lr m₁).mem = m₁.mem := rfl
  have dev₂ : (msrSpsrCxsf .lr m₁).dev = m₁.dev := rfl
  have spsr₂ : (msrSpsrCxsf .lr m₁).spsr .irq = m₁.reg .lr := by
    change (if Bank.irq = m₁.bank then m₁.reg .lr else m₁.spsr .irq) = _
    rw [home_irq mode₁, if_pos rfl]
  generalize msrSpsrCxsf .lr m₁ = m₂ at *
  have second : Popped [.lr] 1 m₂ (pop [.lr] m₂) := popped_pop (by simp)
  have target := pop_reg (m := m₂) (List.nodup_singleton Reg.lr) (i := 0) rfl
  have dev₃ : (pop [.lr] m₂).dev = m₂.dev := pop_dev
  generalize pop [.lr] m₂ = m₃ at *
  constructor
  case mode => exact second.mode.trans mode₂
  case others =>
    intro b other
    have away (m : Guest) (mode : m.cpsr.mode = irqMode) (r : Reg) :
        b = m.bank.home r → r ∉ [Reg.sp, .lr] := by
      intro here hit
      rw [home_irq mode] at here
      rcases List.mem_pair.mp hit with rfl | rfl <;> exact other here
    funext r
    rw [second.regs b r (away m₂ mode₂ r), regs₂, first.regs b r (away m mode r)]
  case sp =>
    rw [second.sp, sp₂, first.sp]
    bv_omega
  case lr =>
    rw [target, sp₂, first.sp, mem₂, first.mem]
    exact congrArg (read32 m.mem) (BitVec.add_zero _)
  case spsr => rw [second.spsr, spsr₂, status, word]
  case mem => rw [second.mem, mem₂, first.mem]
  case dev => rw [dev₃, dev₂, dev₁]

private theorem entered_restoreUsed (placed : Placed env n) (inside : InHandler env n m)
    (svc : m.regs .svc .sp = env.svcTop - 24#32) :
    Entered env n (exec restoreUsed m) ∧ (exec restoreUsed m).cpsr.mode = irqMode := by
  have whole : exec restoreUsed m =
      pop [.lr] (msrSpsrCxsf .lr (pop [.lr] (cps irqMode (pop usedRegs m)))) := rfl
  rw [whole]
  have restored := pop_usedRestored inside svc
  generalize pop usedRegs m = m₁ at *
  have popped : FramePopped (cps irqMode m₁) _ := framePopped rfl
  have sp : (cps irqMode m₁).reg .sp = env.irqTop - 8#32 := restored.irq
  have mem : (cps irqMode m₁).mem = m.mem := restored.mem
  have regs : (cps irqMode m₁).regs = m₁.regs := rfl
  have dev : (cps irqMode m₁).dev = m₁.dev := rfl
  generalize cps irqMode m₁ = m₂ at *
  generalize pop [.lr] (msrSpsrCxsf .lr (pop [.lr] m₂)) = m₃ at *
  refine ⟨?_, popped.mode⟩
  constructor
  case regs => rw [popped.others .usr (by simp), regs, restored.usr]
  case lr => rw [popped.lr, mem, sp, inside.lr]
  case spsr => rw [home_irq popped.mode, popped.spsr, mem, sp, inside.spsr]
  case svc => rw [popped.others .svc (by simp), regs, restored.svc, placed.svc]
  case irq =>
    have top : m₃.regs .irq .sp = m₃.reg .sp := by
      rw [Machine.reg, home_irq popped.mode]
      rfl
    rw [top, popped.sp, sp, placed.irq]
    bv_omega
  case mem =>
    rw [popped.mem, mem]
    exact inside.mem
  case dev =>
    rw [popped.dev, dev, restored.dev]
    exact inside.dev

private theorem not_inUse (placed : Placed env n) {x : Addr} {k k' : Nat} (low : k' + 24 ≤ k)
    (high : k ≤ 52 + env.kernel.abi.depth)
    (below : x ∈ (⟨env.svcTop - BitVec.ofNat 32 k, k'⟩ : Range)) : ¬InUse env n.dev x := by
  have depth := env.depth_le
  have svc : x ∈ env.svcStack := by
    rw [Env.svcStack, mem_range]
    rw [mem_range] at below
    bv_omega
  rintro (⟨t, task, mine⟩ | irq | used)
  · exact (placed.apart.clear t (.inl task)).svc x svc mine
  · exact env.irq_svc x irq svc
  · rw [mem_range] at below used
    bv_omega

def irqFrame : List (Instr Rtos) := [sub .lr .lr 4#32, push [.lr], mrsSpsr .lr, push [.lr]]

private theorem pushed_irqFrame (m : Guest) :
    Pushed [.lr] [m.spsr m.bank, m.reg .lr - 4#32] m (exec irqFrame m) := by
  have address := Pushed.setReg m (r := .lr) (by simp) (m.reg .lr - 4#32)
  have value : (m.setReg .lr (m.reg .lr - 4#32)).reg .lr = m.reg .lr - 4#32 :=
    Machine.reg_setReg_self _ _ _
  have first := Pushed.push [.lr] (m.setReg .lr (m.reg .lr - 4#32))
  rw [List.map_singleton, value] at first
  have both := address.trans first
  have whole : exec irqFrame m = push [.lr] (mrsSpsr .lr (push [.lr]
      (m.setReg .lr (m.reg .lr - 4#32)))) := rfl
  rw [whole]
  generalize push [.lr] (m.setReg .lr (m.reg .lr - 4#32)) = m₁ at *
  have status := Pushed.setReg m₁ (r := .lr) (by simp) (m₁.spsr m₁.bank)
  have value₁ : (m₁.setReg .lr (m₁.spsr m₁.bank)).reg .lr = m₁.spsr m₁.bank :=
    Machine.reg_setReg_self _ _ _
  have second := Pushed.push [.lr] (m₁.setReg .lr (m₁.spsr m₁.bank))
  rw [List.map_singleton, value₁] at second
  have all := (both.trans status).trans second
  have same : m₁.spsr m₁.bank = m.spsr m.bank := by rw [both.spsr, bank_congr both.mode]
  rw [← same]
  exact all.mono (by simp)

/-- `m` is in IRQ mode, with the status and the address of the task that ran in `n` pushed. -/
structure FramePushed (env : Env) (n m : Guest) : Prop where
  mode : m.cpsr.mode = irqMode
  others : ∀ b, b ≠ .irq → m.regs b = n.regs b
  irq : m.regs .irq .sp = env.irqTop - 8#32
  mem : m.mem = writeWords n.mem (env.irqTop - 8#32) [n.cpsr.toWord, n.pc]
  dev : m.dev = n.dev

private theorem irqFrame_pushed (placed : Placed env n) :
    FramePushed env n (exec irqFrame (takeException irqMode (n.pc + 4#32) n)) := by
  have pushed := pushed_irqFrame (takeException irqMode (n.pc + 4#32) n)
  have words : [(takeException irqMode (n.pc + 4#32) n).spsr
      (takeException irqMode (n.pc + 4#32) n).bank,
      (takeException irqMode (n.pc + 4#32) n).reg .lr - 4#32] = [n.cpsr.toWord, n.pc] := by
    have lr : (takeException irqMode (n.pc + 4#32) n).reg .lr = n.pc + 4#32 := rfl
    rw [lr, BitVec.add_sub_cancel]
    rfl
  have banked (b : Bank) (other : b ≠ .irq) (r : Reg) :
      (takeException irqMode (n.pc + 4#32) n).regs b r = n.regs b r := by
    change (if b = Bank.irq ∧ r = .lr then n.pc + 4#32 else n.regs b r) = _
    exact if_neg fun here => other here.1
  have sp : (takeException irqMode (n.pc + 4#32) n).reg .sp = env.irqTop := placed.irq
  have mem : (takeException irqMode (n.pc + 4#32) n).mem = n.mem := rfl
  have dev : (takeException irqMode (n.pc + 4#32) n).dev = n.dev := rfl
  have mode : (takeException irqMode (n.pc + 4#32) n).cpsr.mode = irqMode := rfl
  rw [words] at pushed
  generalize takeException irqMode (n.pc + 4#32) n = m₀ at *
  generalize exec irqFrame m₀ = m at *
  constructor
  case mode => exact pushed.mode.trans mode
  case others =>
    intro b other
    funext r
    rw [pushed.regs b r, banked b other r]
    intro here hit
    rw [home_irq mode] at here
    rcases List.mem_pair.mp hit with rfl | rfl <;> exact other here
  case irq =>
    have top := pushed.sp
    rw [sp, Machine.reg, home_irq (pushed.mode.trans mode)] at top
    exact top
  case mem =>
    rw [pushed.mem, sp, mem]
    rfl
  case dev => exact pushed.dev.trans dev

private theorem inHandler_push (placed : Placed env n) (frame : FramePushed env n m) :
    InHandler env n (push usedRegs (cps svcMode m)) ∧
      (push usedRegs (cps svcMode m)).regs .svc .sp = env.svcTop - 24#32 := by
  have depth := env.depth_le
  have pushed := Pushed.push usedRegs (cps svcMode m)
  have sp : (cps svcMode m).reg .sp = env.svcTop :=
    (congrFun (frame.others .svc (by simp)) .sp).trans placed.svc
  have values : usedRegs.map (cps svcMode m).reg = usedRegs.map (n.regs .usr) := by
    apply List.map_congr_left
    intro r hr
    rw [← frame.others .usr (by simp)]
    simp only [usedRegs, List.mem_cons, List.not_mem_nil, or_false] at hr
    rcases hr with rfl | rfl | rfl | rfl | rfl | rfl <;> rfl
  have low : env.svcTop - BitVec.ofNat 32 (4 * (usedRegs.map (n.regs .usr)).length) =
      env.svcTop - 24#32 := rfl
  rw [values] at pushed
  have mem := pushed.mem
  have top := pushed.sp
  rw [sp, low] at mem top
  change _ = writeWords m.mem _ _ at mem
  have dev : (push usedRegs (cps svcMode m)).dev = m.dev := pushed.dev
  have kept (b : Bank) (r : Reg) (other : b = .svc → r ≠ .sp) :
      (push usedRegs (cps svcMode m)).regs b r = m.regs b r := by
    apply pushed.regs b r
    intro here hit
    rw [List.mem_singleton] at hit
    subst hit
    exact other here rfl
  have mode : (push usedRegs (cps svcMode m)).cpsr.mode = svcMode := rfl
  generalize push usedRegs (cps svcMode m) = m' at *
  have svc_range : (⟨env.svcTop - 24#32, 24⟩ : Range).Subset env.svcStack := by
    intro x hx
    rw [Env.svcStack, mem_range]
    rw [mem_range] at hx
    bv_omega
  have irqWord (i : Nat) (lt : i < 2) :
      word m'.mem (env.irqTop - 8#32) i = word m.mem (env.irqTop - 8#32) i := by
    rw [mem]
    refine word_same (n := 2) (fun x hx => writeWords_of_not_mem ?_) lt (by omega)
    exact fun hit => env.irq_svc x hx (svc_range x hit)
  refine ⟨?_, by rw [← reg_svc_sp mode, top]⟩
  constructor
  case mode => exact mode
  case irq => rw [kept .irq .sp (fun h => absurd h (by simp)), frame.irq]
  case usr =>
    intro r _
    rw [kept .usr r (fun h => absurd h (by simp)), frame.others .usr (by simp)]
  case used =>
    intro i r at_i
    rw [mem]
    apply read32_writeWords_at
    · rw [List.getElem?_map, at_i]
      rfl
    · simp [usedRegs]
  case lr =>
    rw [irqWord 1 (by omega), frame.mem]
    exact read32_writeWords_at _ _ _ 1 rfl (by simp)
  case spsr =>
    rw [irqWord 0 (by omega), frame.mem]
    exact read32_writeWords_at _ _ _ 0 rfl (by simp)
  case mem =>
    intro t task x mine
    have clear := placed.apart.clear t (.inl task)
    rw [mem, writeWords_of_not_mem, frame.mem, writeWords_of_not_mem]
    · exact fun hit => clear.irq x hit mine
    · exact fun hit => clear.svc x (svc_range x hit) mine
  case dev =>
    rw [dev, frame.dev]
    exact SameTasks.refl _

/-- A step that changes the registers `rs`, flags and the part of the kernel that is not the
tasks'. -/
structure Quiet (rs : List Reg) (m m' : Guest) : Prop where
  mode : m'.cpsr.mode = m.cpsr.mode
  regs : RegsKept rs m m'
  mem : m'.mem = m.mem
  dev : SameTasks m.dev m'.dev

section Quiet

variable {rs rs' : List Reg} {m'' : Guest}

theorem Quiet.trans (h : Quiet rs m m') (h' : Quiet rs' m' m'') : Quiet (rs ++ rs') m m'' :=
  ⟨h'.mode.trans h.mode, h.regs.trans h'.regs h.mode, h'.mem.trans h.mem, h.dev.trans h'.dev⟩

theorem Quiet.mono (h : Quiet rs m m') (sub : rs ⊆ rs') : Quiet rs' m m' :=
  { h with regs := h.regs.mono sub }

theorem Quiet.exec {is : List (Instr Rtos)} (each : ∀ i ∈ is, ∀ m, Quiet rs m (i m)) (m : Guest) :
    Quiet rs m (exec is m) := by
  induction is generalizing m with
  | nil => exact ⟨rfl, RegsKept.refl _ _, rfl, SameTasks.refl _⟩
  | cons i is ih =>
    have first := each i (List.mem_cons_self ..) m
    have rest := ih (fun j hj => each j (List.mem_cons_of_mem i hj)) (i m)
    exact (first.trans rest).mono (by simp)

private theorem quiet_setReg (m : Guest) {r : Reg} (inside : r ∈ rs) (v : Word) :
    Quiet rs m (m.setReg r v) :=
  ⟨rfl, (regsKept_setReg m r v).mono (by simpa using inside), rfl, SameTasks.refl _⟩

private theorem quiet_dev (m : Guest) {d : Rtos} (same : SameTasks m.dev d) :
    Quiet rs m { m with dev := d } :=
  ⟨rfl, fun _ _ _ => rfl, rfl, same⟩

private theorem quiet_flags (m : Guest) {p : Psr} (mode : p.mode = m.cpsr.mode) :
    Quiet rs m { m with cpsr := p } :=
  ⟨mode, fun _ _ _ => rfl, rfl, SameTasks.refl _⟩

theorem InHandler.quiet (inside : InHandler env n m) (quiet : Quiet rs m m')
    (sub : ∀ r ∈ rs, r ∈ usedRegs ∨ r = .sp ∨ r = .lr) : InHandler env n m' :=
  inside.step quiet.mode quiet.regs sub (fun x _ => by rw [quiet.mem]) quiet.dev

end Quiet

def acknowledge (s : Symbols) : List (Instr Rtos) := [
  movImm .r3 s.ulPortInterruptNesting,
  ldrVar .r1 (·.ulPortInterruptNesting),
  add .r4 .r1 1#32,
  strVar .r4 fun dev v => { dev with ulPortInterruptNesting := v },
  movImm .r2 s.ulICCIAR,
  movImm .r2 portIccIarAddress,
  ldrIccIar .r0]

private theorem quiet_acknowledge (s : Symbols) (m : Guest) :
    Quiet [.r0, .r1, .r2, .r3, .r4] m (exec (acknowledge s) m) := by
  apply Quiet.exec
  intro i hi m
  simp only [acknowledge, List.mem_cons, List.not_mem_nil, or_false] at hi
  rcases hi with rfl | rfl | rfl | rfl | rfl | rfl | rfl
  · exact quiet_setReg m (by simp) _
  · exact quiet_setReg m (by simp) _
  · exact quiet_setReg m (by simp) _
  · exact quiet_dev m ⟨rfl, rfl, rfl, rfl, rfl, rfl, rfl, rfl⟩
  · exact quiet_setReg m (by simp) _
  · exact quiet_setReg m (by simp) _
  · have read : Quiet [.r0, .r1, .r2, .r3, .r4] m
        { m with dev := { m.dev with gic := m.dev.gic.readIar.2 } } :=
      quiet_dev m ⟨rfl, rfl, rfl, rfl, rfl, rfl, rfl, rfl⟩
    have loaded := quiet_setReg { m with dev := { m.dev with gic := m.dev.gic.readIar.2 } }
      (List.mem_singleton_self Reg.r0) m.dev.gic.readIar.1
    exact (read.trans loaded).mono (by simp)

/-- Where the frame around the call is, and what it says of the alignment before it. -/
def Padded (env : Env) (m : Guest) : Prop :=
  ∃ pad : Word, pad.toNat ≤ 4 ∧ m.regs .svc .sp = env.svcTop - BitVec.ofNat 32 (48 + pad.toNat) ∧
    word m.mem (m.regs .svc .sp) 2 = pad

private theorem inHandler_irqEntry (s : Symbols) (placed : Placed env n) :
    InHandler env n (exec (irqEntry s) (takeException irqMode (n.pc + 4#32) n)) ∧
      Padded env (exec (irqEntry s) (takeException irqMode (n.pc + 4#32) n)) := by
  have whole : exec (irqEntry s) (takeException irqMode (n.pc + 4#32) n) =
      movImm .r1 s.vApplicationIRQHandler (push callRegs (subReg .sp .sp .r2
        (andReg .r2 .r2 4#32 (mov .r2 .sp (exec (acknowledge s) (push usedRegs (cps svcMode
          (exec irqFrame (takeException irqMode (n.pc + 4#32) n))))))))) := rfl
  rw [whole]
  obtain ⟨inside, sp⟩ := inHandler_push placed (irqFrame_pushed placed)
  generalize push usedRegs (cps svcMode (exec irqFrame
    (takeException irqMode (n.pc + 4#32) n))) = m₁ at *
  have quiet := quiet_acknowledge s m₁
  generalize exec (acknowledge s) m₁ = m₂ at *
  have copied : Quiet [.r2] m₂ (mov .r2 .sp m₂) := quiet_setReg m₂ (by simp) _
  have value : (mov .r2 .sp m₂).reg .r2 = m₂.reg .sp := Machine.reg_setReg_self _ _ _
  have upTo := quiet.trans copied
  have sp₂ : m₂.reg .sp = env.svcTop - 24#32 := by
    rw [quiet.regs.reg quiet.mode (by simp), reg_svc_sp inside.mode, sp]
  generalize mov .r2 .sp m₂ = m₃ at *
  have masked : Quiet [.r2] m₃ (andReg .r2 .r2 4#32 m₃) := quiet_setReg m₃ (by simp) _
  have pad : (andReg .r2 .r2 4#32 m₃).reg .r2 = (env.svcTop - 24#32) &&& 4#32 := by
    rw [← sp₂, ← value]
    exact Machine.reg_setReg_self _ _ _
  have upTo₄ := upTo.trans masked
  generalize andReg .r2 .r2 4#32 m₃ = m₄ at *
  have inside₄ := inside.quiet upTo₄ (by simp [usedRegs])
  have sp₄ : m₄.reg .sp = env.svcTop - 24#32 := by
    rw [upTo₄.regs.reg upTo₄.mode (by simp), reg_svc_sp inside.mode, sp]
  have small : ((env.svcTop - 24#32) &&& 4#32).toNat ≤ 4 := by
    rw [BitVec.toNat_and]
    exact Nat.and_le_right
  generalize (env.svcTop - 24#32) &&& 4#32 = p at *
  have moved := quiet_setReg m₄ (List.mem_singleton_self Reg.sp) (m₄.reg .sp - m₄.reg .r2)
  have sp₅ : (m₄.setReg .sp (m₄.reg .sp - m₄.reg .r2)).reg .sp = env.svcTop - 24#32 - p := by
    rw [Machine.reg_setReg_self, sp₄, pad]
  have pad₅ : (m₄.setReg .sp (m₄.reg .sp - m₄.reg .r2)).reg .r2 = p := by
    rw [Machine.reg_setReg, if_neg (by simp), pad]
  have inside₅ := inside₄.quiet moved (by simp)
  have aligned : subReg .sp .sp .r2 m₄ = m₄.setReg .sp (m₄.reg .sp - m₄.reg .r2) := rfl
  rw [aligned]
  generalize m₄.setReg .sp (m₄.reg .sp - m₄.reg .r2) = m₅ at *
  have pushed := Pushed.push callRegs m₅
  have place : m₅.reg .sp - BitVec.ofNat 32 (4 * (callRegs.map m₅.reg).length) =
      env.svcTop - BitVec.ofNat 32 (48 + p.toNat) := by
    rw [sp₅, List.length_map, show callRegs.length = 6 from rfl]
    bv_omega
  have mem₆ := pushed.mem
  have sp₆ := pushed.sp
  rw [place] at mem₆ sp₆
  have regs₆ := pushed.regs
  have dev₆ := pushed.dev
  have mode₆ := pushed.mode
  generalize push callRegs m₅ = m₆ at *
  have inside₆ : InHandler env n m₆ := by
    apply inside₅.step mode₆ regs₆ (by simp)
    · intro x used
      rw [mem₆, writeWords_of_not_mem]
      intro hit
      exact not_inUse placed (by simp [callRegs]) (by omega) hit used
    · rw [dev₆]
      exact SameTasks.refl _
  have last : Quiet [.r1] m₆ (movImm .r1 s.vApplicationIRQHandler m₆) := quiet_setReg m₆ (by simp) _
  have sp₇ : (movImm .r1 s.vApplicationIRQHandler m₆).regs .svc .sp =
      env.svcTop - BitVec.ofNat 32 (48 + p.toNat) := by
    rw [last.regs .svc .sp fun _ => by simp, ← reg_svc_sp inside₆.mode, sp₆]
  refine ⟨inside₆.quiet last (by simp [usedRegs]), p, small, sp₇, ?_⟩
  rw [sp₇, last.mem, mem₆]
  have at_ : (callRegs.map m₅.reg)[2]? = some p := congrArg some pad₅
  exact read32_writeWords_at _ _ _ 2 at_ (by simp [callRegs])

private theorem inHandler_isr (placed : Placed env n) (inside : InHandler env n m)
    (padded : Padded env m) :
    InHandler env n (vApplicationIrqHandler env.kernel m) ∧
      Padded env (vApplicationIrqHandler env.kernel m) := by
  obtain ⟨p, small, sp, word_⟩ := padded
  have depth := env.depth_le
  have whole : vApplicationIrqHandler env.kernel m =
      env.kernel.abi.returnTo none { m with
        mem := (env.kernel.isr (m.reg .r0) m).mem
        cpsr := { m.cpsr with i := (env.kernel.isr (m.reg .r0) m).masked }
        dev := { m.dev with
          fpu := (env.kernel.isr (m.reg .r0) m).fpu
          gic := (env.kernel.isr (m.reg .r0) m).gic
          ulPortYieldRequired := (env.kernel.isr (m.reg .r0) m).ulPortYieldRequired
          iccPmr := (env.kernel.isr (m.reg .r0) m).iccPmr } } := rfl
  have mem {x : Addr} (frames : x ∉ (⟨m.reg .sp - BitVec.ofNat 32 env.kernel.abi.depth,
      env.kernel.abi.depth⟩ : Range)) : (vApplicationIrqHandler env.kernel m).mem x =
        (env.kernel.isr (m.reg .r0) m).mem x := by
    rw [whole]
    exact if_neg frames
  have dev : SameTasks m.dev (vApplicationIrqHandler env.kernel m).dev := by
    rw [whole]
    exact ⟨rfl, rfl, rfl, rfl, rfl, rfl, rfl, env.isr_fpu _ _⟩
  have regs : RegsKept [.r0, .r1, .r2, .r3, .r12, .lr] m (vApplicationIrqHandler env.kernel m) := by
    intro b r out
    rw [whole]
    exact (Aapcs.returnTo_obeyed env.kernel.abi none _).regs b r out
  have mode : (vApplicationIrqHandler env.kernel m).cpsr.mode = m.cpsr.mode := rfl
  rw [reg_svc_sp inside.mode, sp, sub_ofNat_sub_ofNat] at mem
  generalize vApplicationIrqHandler env.kernel m = m' at *
  have sp' : m'.regs .svc .sp = m.regs .svc .sp := regs .svc .sp fun _ => by simp
  have low (x : Addr) (hx : x ∈ (⟨env.svcTop - BitVec.ofNat 32 (48 + p.toNat),
      48 + p.toNat⟩ : Range)) : m'.mem x = m.mem x := by
    rw [mem, env.isr_svc]
    · rw [mem_range] at hx ⊢
      bv_omega
    · rw [mem_range] at hx ⊢
      bv_omega
  refine ⟨?_, p, small, sp'.trans sp, ?_⟩
  · apply inside.step mode regs (by simp [usedRegs])
    · intro x used
      have frames : x ∉ (⟨env.svcTop - BitVec.ofNat 32 (48 + p.toNat + env.kernel.abi.depth),
          env.kernel.abi.depth⟩ : Range) :=
        fun hit => not_inUse placed (by omega) (by omega) hit used
      rw [mem frames]
      rcases used with ⟨t, task, mine⟩ | irq | frame
      · rw [← inside.dev.tasks] at task
        rw [← inside.dev.pxStack] at mine
        exact env.isr_mem _ _ t task x mine
      · exact env.isr_irq _ _ x irq
      · apply env.isr_svc
        rw [mem_range] at frame ⊢
        bv_omega
    · exact dev
  · have same : word m'.mem (env.svcTop - BitVec.ofNat 32 (48 + p.toNat)) 2 =
        word m.mem (env.svcTop - BitVec.ofNat 32 (48 + p.toNat)) 2 := by
      refine word_same (n := 3) (fun x hx => low x ?_) (by omega) (by omega)
      rw [mem_range] at hx ⊢
      omega
    rw [sp', sp, same, ← sp]
    exact word_

private theorem inHandler_irqCompletion (s : Symbols) (inside : InHandler env n m)
    (padded : Padded env m) : InHandler env n (exec (irqCompletion s) m) ∧
      (exec (irqCompletion s) m).regs .svc .sp = env.svcTop - 24#32 := by
  obtain ⟨p, small, sp, word_⟩ := padded
  have whole : exec (irqCompletion s) m = exec [cpsidI, dsb, isb, movImm .r4 s.ulICCEOIR,
      movImm .r4 portIccEoirAddress, strIccEoir .r0,
      strVar .r1 fun dev v => { dev with ulPortInterruptNesting := v }, Instr.cmp .r1 0#32]
        (addReg .sp .sp .r2 (pop callRegs m)) := rfl
  rw [whole]
  have popped : Popped callRegs 6 m (pop callRegs m) := popped_pop (by simp [callRegs])
  have value : (pop callRegs m).reg .r2 = p := by
    rw [pop_reg (i := 2) (by simp [callRegs]) rfl, reg_svc_sp inside.mode]
    exact word_
  have dev : (pop callRegs m).dev = m.dev := pop_dev
  generalize pop callRegs m = m₁ at *
  have inside₁ : InHandler env n m₁ := by
    apply inside.step popped.mode popped.regs
    · simp [callRegs, usedRegs]
    · exact fun x _ => congrFun popped.mem x
    · rw [dev]
      exact SameTasks.refl _
  have moved := quiet_setReg m₁ (List.mem_singleton_self Reg.sp) (m₁.reg .sp + m₁.reg .r2)
  have sp₂ : (m₁.setReg .sp (m₁.reg .sp + m₁.reg .r2)).reg .sp = env.svcTop - 24#32 := by
    rw [Machine.reg_setReg_self, value, popped.sp, reg_svc_sp inside.mode, sp]
    bv_omega
  have back : addReg .sp .sp .r2 m₁ = m₁.setReg .sp (m₁.reg .sp + m₁.reg .r2) := rfl
  rw [back]
  generalize m₁.setReg .sp (m₁.reg .sp + m₁.reg .r2) = m₂ at *
  have inside₂ := inside₁.quiet moved (by simp)
  have rest : Quiet [.r4] m₂ (exec [cpsidI, dsb, isb, movImm .r4 s.ulICCEOIR,
      movImm .r4 portIccEoirAddress, strIccEoir .r0,
      strVar .r1 fun dev v => { dev with ulPortInterruptNesting := v }, Instr.cmp .r1 0#32]
        m₂) := by
    apply Quiet.exec
    intro i hi m
    simp only [List.mem_cons, List.not_mem_nil, or_false] at hi
    rcases hi with rfl | rfl | rfl | rfl | rfl | rfl | rfl | rfl
    · exact quiet_flags m rfl
    · exact quiet_flags m rfl
    · exact quiet_flags m rfl
    · exact quiet_setReg m (by simp) _
    · exact quiet_setReg m (by simp) _
    · exact quiet_dev m ⟨rfl, rfl, rfl, rfl, rfl, rfl, rfl, rfl⟩
    · exact quiet_dev m ⟨rfl, rfl, rfl, rfl, rfl, rfl, rfl, rfl⟩
    · exact quiet_flags m rfl
  refine ⟨inside₂.quiet rest (by simp [usedRegs]), ?_⟩
  rw [rest.regs .svc .sp fun _ => by simp, ← reg_svc_sp inside₂.mode, sp₂]

private theorem inHandler_decision (s : Symbols) (placed : Placed env n) :
    InHandler env n (exec (irqCompletion s) (vApplicationIrqHandler env.kernel
        (exec (irqEntry s) (takeException irqMode (n.pc + 4#32) n)))) ∧
      (exec (irqCompletion s) (vApplicationIrqHandler env.kernel
        (exec (irqEntry s) (takeException irqMode (n.pc + 4#32) n)))).regs .svc .sp =
          env.svcTop - 24#32 := by
  obtain ⟨inside, padded⟩ := inHandler_irqEntry s placed
  obtain ⟨inside', padded'⟩ := inHandler_isr placed inside padded
  exact inHandler_irqCompletion s inside' padded'

private theorem quiet_yieldTest (s : Symbols) (m : Guest) :
    Quiet [.r0, .r1] m (exec (yieldTest s) m) := by
  apply Quiet.exec
  intro i hi m
  simp only [yieldTest, List.mem_cons, List.not_mem_nil, or_false] at hi
  rcases hi with rfl | rfl | rfl
  · exact quiet_setReg m (by simp) _
  · exact quiet_setReg m (by simp) _
  · exact quiet_flags m rfl

def decided (k : Kernel) (m : Guest) : Guest :=
  if m.cpsr.ne then exec exitWithoutSwitch m
  else
    let m := exec (yieldTest k.toSymbols) m
    if m.cpsr.ne then switchContext k (exec switchBeforeExit m) else exec exitWithoutSwitch m

private theorem decided_cases (placed : Placed env n) (inside : InHandler env n m)
    (sp : m.regs .svc .sp = env.svcTop - 24#32) :
    ∃ e, Entered env n e ∧
      (decided env.kernel m = movsPcLr e ∨ decided env.kernel m = switchContext env.kernel e) := by
  have tested := quiet_yieldTest env.kernel.toSymbols m
  have back {m : Guest} (inside : InHandler env n m) (sp : m.regs .svc .sp = env.svcTop - 24#32) :
      ∃ e, Entered env n e ∧ exec exitWithoutSwitch m = movsPcLr e :=
    ⟨_, (entered_restoreUsed placed inside sp).1, by rw [exitWithoutSwitch, exec_append]; rfl⟩
  simp only [decided]
  generalize exec (yieldTest env.kernel.toSymbols) m = m₂ at *
  have inside₂ := inside.quiet tested (by simp [usedRegs])
  have sp₂ : m₂.regs .svc .sp = env.svcTop - 24#32 := by
    rw [tested.regs .svc .sp fun _ => by simp, sp]
  split_ifs with nested required
  · obtain ⟨e, entered, same⟩ := back inside sp
    exact ⟨e, entered, .inl same⟩
  · have cleared : Quiet [.r0] m₂ (exec [movImm .r0 0#32,
        strVar .r0 fun dev v => { dev with ulPortYieldRequired := v }] m₂) := by
      apply Quiet.exec
      intro i hi m
      rcases List.mem_pair.mp hi with rfl | rfl
      · exact quiet_setReg m (by simp) _
      · exact quiet_dev m ⟨rfl, rfl, rfl, rfl, rfl, rfl, rfl, rfl⟩
    have inside₃ := inside₂.quiet cleared (by simp [usedRegs])
    have sp₃ := (cleared.regs .svc .sp fun _ => by simp).trans sp₂
    refine ⟨_, (entered_restoreUsed placed inside₃ sp₃).1, .inr ?_⟩
    rw [switchBeforeExit, exec_append]
  · obtain ⟨e, entered, same⟩ := back inside₂ sp₂
    exact ⟨e, entered, .inl same⟩

/-- The handler goes back to the task as it left it, or to a switch. -/
theorem irq_cases (placed : Placed env n) :
    ∃ m, Entered env n m ∧
      (irq env.kernel n = movsPcLr m ∨ irq env.kernel n = switchContext env.kernel m) := by
  obtain ⟨inside, sp⟩ := inHandler_decision env.kernel.toSymbols placed
  exact decided_cases placed inside sp

end LTZVisor.NsGuest.PortIrq
