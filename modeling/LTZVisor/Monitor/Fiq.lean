/- LTZVisor/Monitor/Fiq
   kind: spec
   digest: The FIQ handler: the guest context it saves, the calls it makes, the frame it pops. -/

import LTZVisor.Monitor.Scheduler

set_option autoImplicit false
set_option relaxedAutoImplicit false

namespace LTZVisor.Monitor.Fiq

open LTZVisor.Lib.Memory LTZVisor.Lib.GicCpu LTZVisor.Arm LTZVisor.Arm.Instr LTZVisor.Arch.Vcpu
open LTZVisor.Monitor.Macros LTZVisor.Monitor.Handlers LTZVisor.Monitor.Scheduler

private theorem exec_ackFiq (env : Env) (m : Core) (h : m.cpsr.mode = monMode) :
    exec (ackFiq env) m =
      let first := m.dev.gic.readIar
      let second := first.2.readIar
      { (((((m.put (.reg .mon .lr) (m.regs .mon .lr - 4#32)).put (.reg .mon .sp)
          (m.regs .mon .sp - 24#32)).put (.reg .usr .r0) second.1).put (.reg .usr .r1)
          first.1).put (.reg .usr .r2) env.interrupt) with
        mem := write32 (writeWords m.mem (m.regs .mon .sp - 24#32)
          ((m.put (.reg .mon .lr) (m.regs .mon .lr - 4#32)).capture stackedSlots))
          env.interrupt first.1
        dev := { m.dev with gic := second.2 } } := by
  conv_lhs => simp [ackFiq, ldrDevice, asmGicIntId, h, BitVec.add_assoc,
    sub_ofNat_sub_ofNat]
  apply Machine.ext
  case regs =>
    funext b r
    cases b <;> cases r <;> simp [Machine.put]
  case mem =>
    rw [writeWords_append _ _ _ _ _ (by simp; bv_omega)]
    rfl
  case cpsr => simp [Machine.put]
  all_goals simp [Machine.put]

theorem secScr_ns (scr : Word) : secScr scr &&& scrNs = 0#32 := by
  have mask : ∀ w a b c: Word, w &&& a &&& b &&& c = w &&& (a &&& b &&& c) := by
    intro w a b c
    rw [BitVec.and_assoc, BitVec.and_assoc, BitVec.and_assoc]
  rw [secScr, BitVec.and_or_distrib_right, mask]
  simp [scrNs, scrFiq, scrIrq]

theorem secScr_world {m : Core} {scr : Word} (route : m.scr = secScr scr) : m.world = .secure := by
  rw [Machine.world, route, secScr_ns, if_pos rfl]

/-- What the first half of the FIQ handler has done by the time it calls C code. -/
structure NsSaved (env : Env) (m m' : Core) : Prop where
  worked : Worked m m'
  sp : m'.regs .mon .sp = m.regs .mon .sp
  scr : m'.scr = secScr m.scr
  dev : m'.dev = { m.dev with gic := m.dev.gic.readIar.2.readIar.2 }
  interrupt : read32 m'.mem env.interrupt = m.dev.gic.readIar.1
  context : ∀ f, coreField m'.mem env.nsGuest f =
    (m.put (.reg .mon .lr) (m.regs .mon .lr - 4#32)).get f.slot
  frame : Frame [⟨m.regs .mon .sp - 28#32, 28⟩, ⟨env.nsGuest, 120⟩, env.interruptRange] m.mem m'.mem

private theorem exec_beforeSave (env : Env) (m : Core) (h : m.cpsr.mode = monMode)
    (pointer : m.cp15 .secure .tpidrprw = env.nsGuest) :
    exec (ackFiq env ++ scrNsClear ++ getNsWorldContext) m =
      let first := m.dev.gic.readIar
      let second := first.2.readIar
      { (((((m.put (.reg .mon .lr) (m.regs .mon .lr - 4#32)).put (.reg .mon .sp)
          (m.regs .mon .sp - 24#32)).put (.reg .usr .r0) env.nsGuest).put (.reg .usr .r1)
          first.1).put (.reg .usr .r2) env.interrupt) with
        scr := secScr m.scr
        mem := write32 (write32 (writeWords m.mem (m.regs .mon .sp - 24#32)
          ((m.put (.reg .mon .lr) (m.regs .mon .lr - 4#32)).capture stackedSlots))
          env.interrupt first.1) (m.regs .mon .sp - 28#32) second.1
        dev := { m.dev with gic := second.2 } } := by
  have place : m.regs .mon .sp - 24#32 - 4#32 = m.regs .mon .sp - 28#32 := by bv_omega
  have mode : (exec (ackFiq env) m).cpsr.mode = monMode := by
    rw [exec_ackFiq env m h]
    exact h
  simp only [exec_append]
  rw [exec_scrNsClear _ mode, exec_getNsWorldContext, exec_ackFiq env m h]
  have world : ∀ m' : Core, m'.scr = secScr m.scr → m'.world = .secure :=
    fun _ => secScr_world
  rw [world _ rfl]
  apply Machine.ext
  case regs =>
    funext b r
    by_cases r0 : b = .usr ∧ r = .r0 <;> simp [Machine.put, r0, pointer]
  case mem => simp [Machine.put, place]
  all_goals simp [Machine.put]

/-- The same machine by its parts. -/
private structure BeforeSave (env : Env) (m m1 : Core) : Prop where
  slots : ∀ s, m1.get s = (((((m.put (.reg .mon .lr) (m.regs .mon .lr - 4#32)).put
    (.reg .mon .sp) (m.regs .mon .sp - 24#32)).put (.reg .usr .r0) env.nsGuest).put (.reg .usr .r1)
    m.dev.gic.readIar.1).put (.reg .usr .r2) env.interrupt).get s
  mode : m1.cpsr.mode = m.cpsr.mode
  mem : m1.mem = write32 (write32 (writeWords m.mem (m.regs .mon .sp - 24#32)
    ((m.put (.reg .mon .lr) (m.regs .mon .lr - 4#32)).capture stackedSlots))
    env.interrupt m.dev.gic.readIar.1) (m.regs .mon .sp - 28#32) m.dev.gic.readIar.2.readIar.1
  scr : m1.scr = secScr m.scr
  dev : m1.dev = { m.dev with gic := m.dev.gic.readIar.2.readIar.2 }
  cp15 : m1.cp15 = m.cp15

private theorem beforeSave (env : Env) (m : Core) (h : m.cpsr.mode = monMode)
    (pointer : m.cp15 .secure .tpidrprw = env.nsGuest) :
    BeforeSave env m (exec (ackFiq env ++ scrNsClear ++ getNsWorldContext) m) := by
  have before := exec_beforeSave env m h pointer
  generalize exec (ackFiq env ++ scrNsClear ++ getNsWorldContext) m = m1 at before ⊢
  constructor
  case slots =>
    intro s
    rw [before]
    cases s <;> rfl
  case mode => simp [before, Machine.put]
  case mem => rw [before]
  case scr => rw [before]
  case dev => rw [before]
  case cp15 => simp [before, Machine.put]

private theorem BeforeSave.sp {env : Env} {m m1 : Core} (before : BeforeSave env m m1) :
    m1.regs .mon .sp = m.regs .mon .sp - 24#32 := by
  have slot := before.slots (.reg .mon .sp)
  simp only [Machine.get_put, reduceCtorEq, Slot.reg.injEq, and_false, and_self, if_false,
    if_true] at slot
  exact slot

private theorem BeforeSave.stacked {env : Env} {m m1 : Core} (before : BeforeSave env m m1)
    (low24 : (⟨m.regs .mon .sp - 24#32, 24⟩ : Range).Subset env.stack) :
    readWords m1.mem (m1.regs .mon .sp) 6 =
      (m.put (.reg .mon .lr) (m.regs .mon .lr - 4#32)).capture stackedSlots := by
  rw [before.sp, before.mem]
  refine (readWords_congr ?_).trans (readWords_writeWords m.mem (m.regs .mon .sp - 24#32)
    ((m.put (.reg .mon .lr) (m.regs .mon .lr - 4#32)).capture stackedSlots)
    (by simp [stackedSlots]))
  intro x hx
  have push : x ∉ (⟨m.regs .mon .sp - 28#32, 4⟩ : Range) := by
    rw [mem_range] at hx ⊢
    bv_omega
  have variable_ : x ∉ env.interruptRange := env.stack_interrupt x (low24 x hx)
  exact (writeWords_of_not_mem push).trans (writeWords_of_not_mem variable_)

theorem nsSaved (env : Env) (m : Core) (h : m.cpsr.mode = monMode)
    (sp : m.regs .mon .sp = env.stackTop - 100#32)
    (pointer : m.cp15 .secure .tpidrprw = env.nsGuest) :
    NsSaved env m (exec (saveNsContext env) m) := by
  have room := env.room
  have context := core_subset_nsGuest env
  have before := beforeSave env m h pointer
  have whole : exec (saveNsContext env) m =
      exec worldContextSave (exec (ackFiq env ++ scrNsClear ++ getNsWorldContext) m) := by
    simp only [saveNsContext, exec_append]
  rw [whole]
  generalize exec (ackFiq env ++ scrNsClear ++ getNsWorldContext) m = m1 at before ⊢
  have mode : m1.cpsr.mode = monMode := before.mode.trans h
  have r0 : m1.regs .usr .r0 = env.nsGuest := by
    have slot := before.slots (.reg .usr .r0)
    simp only [Machine.get_put, reduceCtorEq, Slot.reg.injEq, and_false, and_self, if_false,
      if_true] at slot
    exact slot
  obtain ⟨worked, scr, dev, top⟩ := worldContextSave_worked m1 mode
  have low24 : (⟨m.regs .mon .sp - 24#32, 24⟩ : Range).Subset env.stack := by
    apply subset_stack <;> rw [sp] <;> bv_omega
  have low4 : (⟨m.regs .mon .sp - 28#32, 4⟩ : Range).Subset env.stack := by
    apply subset_stack <;> rw [sp] <;> bv_omega
  have stacked := before.stacked low24
  have saved := worldContextSave_mem m1 mode r0 (by
    rw [before.sp]
    exact env.stack_nsGuest.mono low24 context)
  constructor
  case worked =>
    constructor
    case slots =>
      intro s hs
      rw [worked.slots s hs, before.slots s]
      simp only [workSlots, List.mem_cons, List.not_mem_nil, or_false, not_or] at hs
      simp [Machine.get_put, hs]
    case mode => exact worked.mode.trans before.mode
    case cp15 => exact worked.cp15.trans before.cp15
  case sp => rw [top, before.sp, BitVec.sub_add_cancel]
  case scr => rw [scr, before.scr]
  case dev => rw [dev, before.dev]
  case interrupt =>
    have notContext := env.nsGuest_interrupt.mono context (Range.Subset.refl env.interruptRange)
    have notPushed := env.stack_interrupt.mono low4 (Range.Subset.refl env.interruptRange)
    rw [saved, read32_writeWords_of_disjoint notContext, before.mem]
    exact (read32_writeWords_of_disjoint notPushed).trans (read32_writeWords_singleton _ _ _)
  case context =>
    intro f
    rw [saved, coreField_writeWords, stacked]
    by_cases inside : f.slot ∈ stackedSlots
    · exact Machine.get_putAll_capture _ m1 (by simp [stackedSlots]) inside
    · have notSp : f.slot ≠ .reg .mon .sp :=
        fun e => mon_sp_not_mem_coreSlots (e ▸ slot_mem_coreSlots f)
      simp only [stackedSlots, List.mem_cons, List.not_mem_nil, or_false, not_or] at inside
      rw [Machine.get_putAll_of_not_mem (by simp [stackedSlots, inside]), before.slots]
      simp [Machine.get_put, inside, notSp]
  case frame =>
    rw [saved]
    refine Frame.writeWords ?_ (r := ⟨env.nsGuest, 120⟩) (by simp) ?_
    · rw [before.mem]
      refine Frame.writeWords ?_ (r := ⟨m.regs .mon .sp - 28#32, 28⟩) (by simp) ?_
      · refine Frame.writeWords ?_ (r := env.interruptRange) (by simp) (Range.Subset.refl _)
        refine Frame.writeWords (Frame.refl _ _) (r := ⟨m.regs .mon .sp - 28#32, 28⟩) (by simp) ?_
        exact Range.subset_of_offset (by simp [stackedSlots])
      · exact Range.subset_of_offset (by simp)
    · exact Range.subset_of_offset (by simp)

def framesBelow (env : Env) (m : Core) : Range :=
  ⟨m.regs .mon .sp - BitVec.ofNat 32 env.abi.depth, env.abi.depth⟩

/-- The calls of C code in the FIQ handler change the devices and the memory that is theirs. -/
structure Called (env : Env) (m m' : Core) : Prop where
  worked : Worked m m'
  sp : m'.regs .mon .sp = m.regs .mon .sp
  scr : m'.scr = m.scr
  keeps : ∀ r ∈ [env.stack, env.nsGuestRange, env.interruptRange], ∀ x ∈ r,
    x ∉ framesBelow env m → m'.mem x = m.mem x

theorem Called.trans {env : Env} {m m' m'' : Core} (c : Called env m m') (d : Called env m' m'') :
    Called env m m'' where
  worked := c.worked.trans d.worked
  sp := d.sp.trans c.sp
  scr := d.scr.trans c.scr
  keeps := by
    intro r hr x hx frames
    have frames' : x ∉ framesBelow env m' := by rwa [framesBelow, c.sp]
    exact (d.keeps r hr x hx frames').trans (c.keeps r hr x hx frames)

private theorem called_returnTo (env : Env) (m : Core) (h : m.cpsr.mode = monMode) (mem : Mem)
    (dev : Devices) (body : ∀ r ∈ [env.stack, env.nsGuestRange, env.interruptRange], ∀ x ∈ r,
      mem x = m.mem x) : Called env m (env.abi.returnTo none { m with mem, dev }) := by
  have obeyed := Aapcs.returnTo_obeyed env.abi none { m with mem, dev }
  constructor
  case worked =>
    constructor
    case slots =>
      intro s hs
      rw [get_obeyed obeyed h hs]
      cases s <;> rfl
    case mode => rfl
    case cp15 => rfl
  case sp =>
    have sp := sp_obeyed obeyed
    exact sp
  case scr => rfl
  case keeps =>
    intro r hr x hx frames
    have outside : x ∉ env.abi.frames { m with mem, dev } := by
      simpa [Aapcs.frames, framesBelow, h] using frames
    exact (if_neg outside).trans (body r hr x hx)

private theorem called_fiqHandler (env : Env) (m : Core) (h : m.cpsr.mode = monMode) :
    Called env m (callFiqHandler env m) := by
  apply called_returnTo env m h
  intro r hr x hx
  cases handler : fiqHandlers (m.reg .r0) with
  | none => rfl
  | some i => exact env.isr_keeps i _ m.mem r hr x hx

private theorem called_interruptClear (env : Env) (m : Core) (h : m.cpsr.mode = monMode) :
    Called env m (callInterruptClear env m) :=
  called_returnTo env m h m.mem _ fun _ _ _ _ => rfl

private theorem exec_loadInterrupt (env : Env) (m : Core) :
    exec [movImm .r2 env.interrupt, ldr .r0 .r2 0#32] m =
      (m.put (.reg .usr .r2) env.interrupt).put (.reg .usr .r0) (read32 m.mem env.interrupt) := by
  change (m.put (.reg .usr .r2) env.interrupt).put (.reg .usr .r0)
    (read32 m.mem (env.interrupt + 0#32)) = _
  rw [BitVec.add_zero]

private theorem called_put (env : Env) (m : Core) {s : Slot} (hs : s ∈ workSlots)
    (notSp : s ≠ .reg .mon .sp) (v : Word) : Called env m (m.put s v) := by
  constructor
  case worked =>
    constructor
    case slots =>
      intro t ht
      have other : t ≠ s := fun same => ht (same ▸ hs)
      rw [Machine.get_put, if_neg other]
    all_goals cases s <;> rfl
  case sp =>
    have kept := Machine.get_put m s (.reg .mon .sp) v
    rwa [if_neg (Ne.symm notSp)] at kept
  case scr => cases s <;> rfl
  case keeps => intro r _ x _ _; cases s <;> rfl

theorem fiqHandled (env : Env) (m : Core) (h : m.cpsr.mode = monMode)
    (sp : m.regs .mon .sp = env.stackTop - 100#32) :
    Called env m (exec (handleFiq env) m) ∧
      (exec (handleFiq env) m).dev.gic = m.dev.gic.writeEoir (read32 m.mem env.interrupt) ∧
      (exec (handleFiq env) m).dev.handled = m.dev.handled ++ [read32 m.mem env.interrupt] := by
  have room := env.room
  have size := env.stackSize_le
  have split : exec (handleFiq env) m = callInterruptClear env (movImm .r1 0#32
      (exec [movImm .r2 env.interrupt, ldr .r0 .r2 0#32] (callFiqHandler env
        (exec [movImm .r2 env.interrupt, ldr .r0 .r2 0#32] m)))) := rfl
  rw [split]
  simp only [exec_loadInterrupt]
  have frames : (framesBelow env m).Subset env.stack := by
    apply subset_stack <;> rw [sp] <;> bv_omega
  have load : ∀ m' : Core, Called env m' ((m'.put (.reg .usr .r2) env.interrupt).put (.reg .usr .r0)
      (read32 m'.mem env.interrupt)) := fun m' =>
    (called_put env m' (by simp [workSlots]) (by simp) _).trans
      (called_put env _ (by simp [workSlots]) (by simp) _)
  generalize hm1 : (m.put (.reg .usr .r2) env.interrupt).put (.reg .usr .r0)
    (read32 m.mem env.interrupt) = m1
  have c1 : Called env m m1 := hm1 ▸ load m
  have c2 := called_fiqHandler env m1 (c1.worked.mode.trans h)
  have dev2 : (callFiqHandler env m1).dev =
      { m.dev with handled := m.dev.handled ++ [read32 m.mem env.interrupt] } := by
    subst hm1
    rfl
  generalize callFiqHandler env m1 = m2 at *
  have c := c1.trans c2
  -- The variable is not part of the stack, so the second call gets the same number.
  have again : read32 m2.mem env.interrupt = read32 m.mem env.interrupt := by
    apply read32_congr
    intro x hx
    apply c.keeps env.interruptRange (by simp) x hx
    exact fun low => env.stack_interrupt x (frames x low) hx
  have c3 := c.trans (load m2)
  rw [again] at c3
  rw [again]
  generalize hm3 : (m2.put (.reg .usr .r2) env.interrupt).put (.reg .usr .r0)
    (read32 m.mem env.interrupt) = m3 at *
  have c4 : Called env m (movImm .r1 0#32 m3) :=
    c3.trans (called_put env m3 (s := .reg .usr .r1) (by simp [workSlots]) (by simp) 0#32)
  have eoir : (movImm .r1 0#32 m3).reg .r1 <<< 10 ||| (movImm .r1 0#32 m3).reg .r0 =
      read32 m.mem env.interrupt := by
    subst hm3
    simp [Machine.put]
  have c5 := called_interruptClear env (movImm .r1 0#32 m3) (c4.worked.mode.trans h)
  have dev3 : (movImm .r1 0#32 m3).dev = m2.dev := by
    subst hm3
    rfl
  have dev5 : (callInterruptClear env (movImm .r1 0#32 m3)).dev =
      { m2.dev with gic := m2.dev.gic.writeEoir (read32 m.mem env.interrupt) } := by
    change { (movImm .r1 0#32 m3).dev with
      gic := (movImm .r1 0#32 m3).dev.gic.writeEoir
        ((movImm .r1 0#32 m3).reg .r1 <<< 10 ||| (movImm .r1 0#32 m3).reg .r0) } = _
    rw [eoir, dev3]
  refine ⟨c4.trans c5, ?_, ?_⟩
  · rw [dev5, dev2]
  · rw [dev5, dev2]

private theorem exec_popSecureFrame (m : Core) (h : m.cpsr.mode = monMode) :
    exec popSecureFrame m =
      { (m.putAll secureSlots
          (List.zipWith m.landed secureSlots (readWords m.mem (m.regs .mon .sp) 25))).put
          (.reg .mon .sp) (m.regs .mon .sp + 100#32) with
        pc := read32 m.mem (m.regs .mon .sp + 36#32)
        cpsr := Psr.ofWord (msrFc (m.spsr .mon) (read32 m.mem (m.regs .mon .sp + 32#32))) } := by
  conv_lhs => simp [popSecureFrame, h, BitVec.add_assoc]
  conv_rhs => simp [secureSlots, readWords, List.range_succ, Machine.putAll, Machine.put,
    Machine.landed]
  apply Machine.ext
  case regs =>
    funext b r
    cases b <;> cases r <;> simp
  case spsr =>
    funext b
    cases b <;> simp
  all_goals simp

/-- The effect of the second half of the FIQ handler with a frame at the stack pointer. -/
structure FramePopped (m m' : Core) : Prop where
  slots : ∀ s, m'.get s = ((m.putAll secureSlots (List.zipWith m.landed secureSlots
    (readWords m.mem (m.regs .mon .sp) 25))).put (.reg .mon .sp) (m.regs .mon .sp + 100#32)).get s
  pc : m'.pc = read32 m.mem (m.regs .mon .sp + 36#32)
  cpsr : m'.cpsr = Psr.ofWord (msrFc (m.spsr .mon) (read32 m.mem (m.regs .mon .sp + 32#32)))
  scr : m'.scr = m.scr
  cp15 : m'.cp15 = m.cp15
  mem : m'.mem = m.mem
  dev : m'.dev = m.dev

theorem framePopped (m : Core) (h : m.cpsr.mode = monMode) :
    FramePopped m (exec popSecureFrame m) := by
  rw [exec_popSecureFrame m h]
  constructor
  case slots =>
    intro s
    cases s <;> simp only [Machine.get]
  case pc => rfl
  case cpsr => rfl
  all_goals simp only [Machine.put, Machine.setPhys, Machine.putAll_scr, Machine.putAll_cp15,
    Machine.putAll_mem, Machine.putAll_dev]

private theorem workSlots_subset : ∀ s ∈ workSlots, s = .reg .mon .sp ∨ s ∈ secureSlots := by
  simp [workSlots, secureSlots]

/-- The effect of `_mon_fiq_handler` on a machine that entered it. -/
structure FiqTaken (env : Env) (m m' : Core) : Prop where
  slots : ∀ s, m'.get s = ((m.putAll secureSlots (List.zipWith m.landed secureSlots
    (secureFrame env m.mem))).put (.reg .mon .sp) env.stackTop).get s
  pc : m'.pc = read32 m.mem (env.stackTop - 64#32)
  cpsr : m'.cpsr = Psr.ofWord (msrFc (m.spsr .mon) (read32 m.mem (env.stackTop - 68#32)))
  scr : m'.scr = secScr m.scr
  cp15 : m'.cp15 = m.cp15
  gic : m'.dev.gic = m.dev.gic.readIar.2.readIar.2.writeEoir m.dev.gic.readIar.1
  handled : m'.dev.handled = m.dev.handled ++ [m.dev.gic.readIar.1]
  context : ∀ f, coreField m'.mem env.nsGuest f =
    (m.put (.reg .mon .lr) (m.regs .mon .lr - 4#32)).get f.slot

private theorem secureFrame_kept {env : Env} {m m1 m2 : Core} (saved : NsSaved env m m1)
    (called : Called env m1 m2) (sp : m.regs .mon .sp = env.stackTop - 100#32) :
    ∀ x ∈ (⟨env.stackTop - 100#32, 100⟩ : Range), m2.mem x = m.mem x := by
  intro x hx
  have room := env.room
  have size := env.stackSize_le
  have stack : (⟨env.stackTop - 100#32, 100⟩ : Range).Subset env.stack := by
    apply subset_stack <;> bv_omega
  have frames : x ∉ framesBelow env m1 := by
    rw [framesBelow, saved.sp, sp, mem_range]
    rw [mem_range] at hx
    bv_omega
  refine (called.keeps env.stack (by simp) x (stack x hx) frames).trans (saved.frame x ?_)
  intro r hr
  simp only [List.mem_cons, List.not_mem_nil, or_false] at hr
  rcases hr with rfl | rfl | rfl
  · rw [sp, mem_range]
    rw [mem_range] at hx
    bv_omega
  · exact fun hit => env.stack_nsGuest x (stack x hx) (core_subset_nsGuest env x hit)
  · exact env.stack_interrupt x (stack x hx)

theorem fiqTaken (env : Env) (m : Core) (h : m.cpsr.mode = monMode)
    (sp : m.regs .mon .sp = env.stackTop - 100#32)
    (pointer : m.cp15 .secure .tpidrprw = env.nsGuest) :
    FiqTaken env m (monFiqHandler env m) := by
  have room := env.room
  have size := env.stackSize_le
  have saved := nsSaved env m h sp pointer
  have whole : monFiqHandler env m =
      exec popSecureFrame (exec (handleFiq env) (exec (saveNsContext env) m)) := by
    simp only [monFiqHandler, exec_append]
  rw [whole]
  generalize exec (saveNsContext env) m = m1 at *
  obtain ⟨called, gic, handled⟩ :=
    fiqHandled env m1 (saved.worked.mode.trans h) (saved.sp.trans sp)
  generalize exec (handleFiq env) m1 = m2 at *
  have worked := saved.worked.trans called.worked
  have sp2 : m2.regs .mon .sp = env.stackTop - 100#32 := called.sp.trans (saved.sp.trans sp)
  have kept := secureFrame_kept saved called sp
  have frame : readWords m2.mem (env.stackTop - 100#32) 25 = secureFrame env m.mem :=
    readWords_congr kept
  have word : ∀ k, k + 4 ≤ 100 → read32 m2.mem (env.stackTop - 100#32 + BitVec.ofNat 32 k) =
      read32 m.mem (env.stackTop - 100#32 + BitVec.ofNat 32 k) := by
    intro k hk
    apply read32_congr
    intro x hx
    apply kept
    rw [mem_range] at hx ⊢
    bv_omega
  have spsr : m2.spsr .mon = m.spsr .mon := worked.slots (.spsr .mon) (by simp [workSlots])
  have top : env.stackTop - 100#32 + 100#32 = env.stackTop := BitVec.sub_add_cancel _ _
  have pcAt : env.stackTop - 100#32 + 36#32 = env.stackTop - 64#32 := by bv_omega
  have psrAt : env.stackTop - 100#32 + 32#32 = env.stackTop - 68#32 := by bv_omega
  have pc := word 36 (by omega)
  have psr := word 32 (by omega)
  have popped := framePopped m2 (worked.mode.trans h)
  generalize exec popSecureFrame m2 = m3 at *
  rw [pcAt] at pc
  rw [psrAt] at psr
  constructor
  case slots =>
    intro s
    rw [popped.slots s, sp2, frame, worked.landed, top, Machine.get_put, Machine.get_put]
    by_cases isSp : s = .reg .mon .sp
    · rw [if_pos isSp, if_pos isSp]
    · rw [if_neg isSp, if_neg isSp]
      apply Machine.get_putAll_congr secureSlots_nodup
      · simp [secureFrame, secureSlots]
      · intro outside
        exact worked.slots s fun hs => (workSlots_subset s hs).elim isSp outside
  case pc => rw [popped.pc, sp2, pcAt, pc]
  case cpsr => rw [popped.cpsr, sp2, psrAt, psr, spsr]
  case scr => exact popped.scr.trans (called.scr.trans saved.scr)
  case cp15 => exact popped.cp15.trans worked.cp15
  case gic => rw [popped.dev, gic, saved.interrupt, saved.dev]
  case handled => rw [popped.dev, handled, saved.interrupt, saved.dev]
  case context =>
    intro f
    rw [← saved.context f, popped.mem]
    have context := core_subset_nsGuest env
    have low : (framesBelow env m1).Subset env.stack := by
      apply subset_stack <;> rw [saved.sp, sp] <;> bv_omega
    apply coreField_congr
    intro x hx
    apply called.keeps env.nsGuestRange (by simp) x (context x hx)
    exact fun frames => env.stack_nsGuest x (low x frames) (context x hx)

end LTZVisor.Monitor.Fiq
