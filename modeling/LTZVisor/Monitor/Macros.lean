/- LTZVisor/Monitor/Macros
   kind: model
   digest: The assembler macros of the monitor and what each does to a core in Monitor mode. -/

import LTZVisor.Arch.Vcpu

set_option autoImplicit false
set_option relaxedAutoImplicit false

namespace LTZVisor.Monitor.Macros

open LTZVisor.Lib.Memory LTZVisor.Arm LTZVisor.Arm.Instr LTZVisor.Arch.Vcpu

variable {D : Type}

def scrNsSet : List (Instr D) := [
  push [.r0],
  mrcScr .r0,
  orr .r0 .r0 scrNs,
  orr .r0 .r0 scrFiq,
  bic .r0 .r0 scrIrq,
  mcrScr .r0,
  pop [.r0]]

def scrNsClear : List (Instr D) := [
  push [.r0],
  mrcScr .r0,
  bic .r0 .r0 scrNs,
  bic .r0 .r0 scrFiq,
  orr .r0 .r0 scrIrq,
  mcrScr .r0,
  pop [.r0]]

def getNsWorldContext : List (Instr D) := [
  mrc .r0 .tpidrprw,
  add .r0 .r0 (BitVec.ofNat 32 coreOffset)]

def worldContextSave : List (Instr D) := [
  mov .r4 .r0,
  pop [.r0, .r1, .r2, .r3],
  stmia .r4 [.r0, .r1, .r2, .r3],
  mov .r3 .r4,
  add .r4 .r4 (BitVec.ofNat 32 (CoreReg.offset .r4)),
  mov .r0 .r4,
  pop [.r4, .lr],
  stmiaW .r0 [.r4, .r5, .r6, .r7, .r8, .r9, .r10, .r11, .r12],
  mrsSpsr .r1,
  stmiaW .r0 [.r1, .lr],
  cps svcMode,
  mrsSpsr .r1,
  stmiaW .r0 [.r1, .sp, .lr],
  cps sysMode,
  mrsSpsr .r1,
  stmiaW .r0 [.r1, .sp, .lr],
  cps abtMode,
  mrsSpsr .r1,
  stmiaW .r0 [.r1, .sp, .lr],
  cps undMode,
  mrsSpsr .r1,
  stmiaW .r0 [.r1, .sp, .lr],
  cps irqMode,
  mrsSpsr .r1,
  stmiaW .r0 [.r1, .sp, .lr],
  cps monMode]

def worldContextRestore : List (Instr D) := [
  mov .r4 .r0,
  ldmiaW .r4 [.r0, .r1, .r2, .r3],
  push [.r0, .r1],
  mov .r0 .r4,
  ldmiaW .r0 [.r4, .r5, .r6, .r7, .r8, .r9, .r10, .r11, .r12],
  ldmiaW .r0 [.r1, .lr],
  msrSpsrCxsf .r1,
  cps svcMode,
  ldmiaW .r0 [.r1, .sp, .lr],
  msrSpsrCxsf .r1,
  cps sysMode,
  ldmiaW .r0 [.r1, .sp, .lr],
  msrSpsrCxsf .r1,
  cps abtMode,
  ldmiaW .r0 [.r1, .sp, .lr],
  msrSpsrCxsf .r1,
  cps undMode,
  ldmiaW .r0 [.r1, .sp, .lr],
  msrSpsrCxsf .r1,
  cps irqMode,
  ldmiaW .r0 [.r1, .sp, .lr],
  msrSpsrCxsf .r1,
  cps monMode,
  pop [.r0, .r1]]

/-- The pushes of `call_c_function_arg`; the call itself follows. -/
def callCFunctionArg : List (Instr D) := [
  push [.r1, .r2, .r3, .r4, .r5, .r6, .r7, .r8, .r9, .r10, .r11, .r12, .lr],
  mrsSpsr .r4,
  push [.r4]]

def exceptionReturnArg : List (Instr D) := [
  pop [.r1],
  msrSpsr .r1,
  push [.r1],
  movImm .r1 0#32,
  dsb,
  pop [.r1],
  popReturn [.r1, .r2, .r3, .r4, .r5, .r6, .r7, .r8, .r9, .r10, .r11, .r12]]

/-- What the two SCR macros leave in the secure configuration register. -/
def nsScr (scr : Word) : Word := (scr ||| scrNs ||| scrFiq) &&& ~~~scrIrq

def secScr (scr : Word) : Word := (scr &&& ~~~scrNs &&& ~~~scrFiq) ||| scrIrq

theorem exec_scrNsSet (m : Machine D) (h : m.cpsr.mode = monMode) :
    exec scrNsSet m = { m with
      mem := write32 m.mem (m.regs .mon .sp - 4#32) (m.regs .usr .r0)
      scr := nsScr m.scr } := by
  apply Machine.ext
  case regs =>
    funext b r
    by_cases r0 : b = .usr ∧ r = .r0
    · obtain ⟨rfl, rfl⟩ := r0
      simp [scrNsSet, h]
    · by_cases sp : b = .mon ∧ r = .sp
      · obtain ⟨rfl, rfl⟩ := sp
        simp [scrNsSet, h]
      · simp [scrNsSet, h, r0, sp]
  case mem => simp [scrNsSet, h]
  case scr => simp [scrNsSet, h, nsScr]
  all_goals simp [scrNsSet]

theorem exec_scrNsClear (m : Machine D) (h : m.cpsr.mode = monMode) :
    exec scrNsClear m = { m with
      mem := write32 m.mem (m.regs .mon .sp - 4#32) (m.regs .usr .r0)
      scr := secScr m.scr } := by
  apply Machine.ext
  case regs =>
    funext b r
    by_cases r0 : b = .usr ∧ r = .r0
    · obtain ⟨rfl, rfl⟩ := r0
      simp [scrNsClear, h]
    · by_cases sp : b = .mon ∧ r = .sp
      · obtain ⟨rfl, rfl⟩ := sp
        simp [scrNsClear, h]
      · simp [scrNsClear, h, r0, sp]
  case mem => simp [scrNsClear, h]
  case scr => simp [scrNsClear, h, secScr]
  all_goals simp [scrNsClear]

theorem exec_getNsWorldContext (m : Machine D) :
    exec getNsWorldContext m = m.setPhys .usr .r0 (m.cp15 m.world .tpidrprw) := by
  apply Machine.ext
  case regs =>
    funext b r
    by_cases r0 : b = .usr ∧ r = .r0
    · simp [getNsWorldContext, r0, Cp15Reg.bank, coreOffset]
    · simp [getNsWorldContext, r0]
  all_goals simp [getNsWorldContext]

theorem exec_worldContextRestore (m : Machine D) (h : m.cpsr.mode = monMode) {ctx : Addr}
    (pointer : m.regs .usr .r0 = ctx)
    (apart : (⟨m.regs .mon .sp - 8#32, 8⟩ : Range).Disjoint ⟨ctx, 120⟩) :
    exec worldContextRestore m =
      { m.putAll coreSlots (coreWords m.mem ctx) with
        mem := writeWords m.mem (m.regs .mon .sp - 8#32)
          [coreField m.mem ctx .r0, coreField m.mem ctx .r1] } := by
  subst pointer
  -- r0 and r1 wait on the stack, where they are found again, and the pushes miss the context.
  have low0 : ∀ v w : Word,
      read32 (writeWords m.mem (m.regs .mon .sp - 8#32) [v, w]) (m.regs .mon .sp - 8#32) = v := by
    intro v w
    simpa using read32_writeWords_at m.mem (m.regs .mon .sp - 8#32) [v, w] 0 rfl (by simp)
  have low1 : ∀ v w : Word,
      read32 (writeWords m.mem (m.regs .mon .sp - 8#32) [v, w]) (m.regs .mon .sp - 8#32 + 4#32)
        = w := by
    intro v w
    simpa using read32_writeWords_at m.mem (m.regs .mon .sp - 8#32) [v, w] 1 rfl (by simp)
  have high : ∀ k, k + 4 ≤ 120 → ∀ v w : Word,
      read32 (writeWords m.mem (m.regs .mon .sp - 8#32) [v, w])
          (m.regs .usr .r0 + BitVec.ofNat 32 k) =
        read32 m.mem (m.regs .usr .r0 + BitVec.ofNat 32 k) := by
    intro k hk v w
    exact read32_writeWords_of_disjoint
      (apart.mono (Range.Subset.refl _) (Range.subset_of_offset (by bv_omega)))
  conv_lhs => simp [worldContextRestore, h, BitVec.add_assoc]
  apply eq_putAll_coreSlots
  case inside =>
    intro f
    rw [coreWords_index, Option.some_inj]
    cases f
    case r0 => simp [Machine.get, CoreReg.slot, low0, coreField_r0]
    all_goals simp [Machine.get, CoreReg.slot, low1, high, coreField] <;> rfl
  case outside =>
    intro s hs
    simp only [coreSlots, CoreReg.all, CoreReg.slot, List.map_cons, List.map_nil, List.mem_cons,
      List.not_mem_nil, or_false, not_or] at hs
    cases s with
    | reg b r => cases b <;> cases r <;> simp [Machine.get] at hs ⊢
    | spsr b => cases b <;> simp [Machine.get] at hs ⊢
  case cpsr => simp only [← h]
  case memory =>
    rw [coreField_r0]
    rfl
  all_goals rfl

/-- The registers the monitor works in: they are not those of the world it serves until it has
loaded them. -/
def workSlots : List Slot :=
  [.reg .usr .r0, .reg .usr .r1, .reg .usr .r2, .reg .usr .r3, .reg .usr .r4, .reg .usr .r5,
    .reg .usr .r6, .reg .usr .r7, .reg .usr .r8, .reg .usr .r9, .reg .usr .r10, .reg .usr .r11,
    .reg .usr .r12, .reg .mon .sp, .reg .mon .lr]

/-- The registers that wait on the monitor stack while a context is saved. -/
def stackedSlots : List Slot :=
  [.reg .usr .r0, .reg .usr .r1, .reg .usr .r2, .reg .usr .r3, .reg .usr .r4, .reg .mon .lr]

/-- `m'` is `m` after a piece of monitor code that works in memory and the work registers. -/
structure Worked (m m' : Machine D) : Prop where
  slots : ∀ s ∉ workSlots, m'.get s = m.get s
  mode : m'.cpsr.mode = m.cpsr.mode
  cp15 : m'.cp15 = m.cp15

theorem Worked.trans {m m' m'' : Machine D} (w : Worked m m') (v : Worked m' m'') :
    Worked m m'' where
  slots := fun s hs => (v.slots s hs).trans (w.slots s hs)
  mode := v.mode.trans w.mode
  cp15 := v.cp15.trans w.cp15

theorem Worked.landed {m m' : Machine D} (worked : Worked m m') : m'.landed = m.landed := by
  funext s w
  cases s with
  | reg b r => rfl
  | spsr b =>
    have same := worked.slots (.spsr b) (by simp [workSlots])
    simp only [Machine.get] at same
    simp only [Machine.landed, same]

theorem get_obeyed {m m' : Machine D} (obeyed : Aapcs.Obeyed m m') (h : m.cpsr.mode = monMode)
    {s : Slot} (hs : s ∉ workSlots) : m'.get s = m.get s := by
  cases s with
  | reg b r =>
    apply obeyed.regs
    rw [Machine.bank, h]
    rintro rfl
    cases r <;> simp [workSlots] at hs
  | spsr b => exact congrFun obeyed.spsr b

theorem sp_obeyed {m m' : Machine D} (obeyed : Aapcs.Obeyed m m') :
    m'.regs .mon .sp = m.regs .mon .sp :=
  obeyed.regs .mon .sp fun _ => by simp

theorem worldContextSave_worked (m : Machine D) (h : m.cpsr.mode = monMode) :
    Worked m (exec worldContextSave m) ∧ (exec worldContextSave m).scr = m.scr ∧
      (exec worldContextSave m).dev = m.dev ∧
      (exec worldContextSave m).regs .mon .sp = m.regs .mon .sp + 24#32 := by
  simp [worldContextSave, h, BitVec.add_assoc]
  constructor
  case slots =>
    intro s hs
    simp only [workSlots, List.mem_cons, List.not_mem_nil, or_false, not_or] at hs
    cases s with
    | reg b r => cases b <;> cases r <;> simp [Machine.get] at hs ⊢
    | spsr b => cases b <;> simp [Machine.get] at hs ⊢
  case mode => simp [h]
  case cp15 => rfl

theorem worldContextSave_mem (m : Machine D) (h : m.cpsr.mode = monMode) {ctx : Addr}
    (pointer : m.regs .usr .r0 = ctx)
    (apart : (⟨m.regs .mon .sp, 24⟩ : Range).Disjoint ⟨ctx, 120⟩) :
    (exec worldContextSave m).mem = writeWords m.mem ctx
      ((m.putAll stackedSlots (readWords m.mem (m.regs .mon .sp) 6)).capture coreSlots) := by
  subst pointer
  have high : ∀ k, k + 4 ≤ 24 → ∀ a b c d : Word,
      read32 (writeWords m.mem (m.regs .usr .r0) [a, b, c, d])
          (m.regs .mon .sp + BitVec.ofNat 32 k) =
        read32 m.mem (m.regs .mon .sp + BitVec.ofNat 32 k) := by
    intro k hk a b c d
    exact read32_writeWords_of_disjoint
      (apart.symm.mono (Range.subset_of_offset (by simp)) (Range.subset_of_offset (by bv_omega)))
  conv_lhs => simp [worldContextSave, h, BitVec.add_assoc, high]
  simp only [writeWords_append_low, List.length_cons, List.length_nil, List.cons_append,
    List.nil_append, Nat.reduceAdd, Nat.reduceMul, Nat.reducePow, Nat.reduceLeDiff]
  simp [Machine.capture, coreSlots, CoreReg.all, CoreReg.slot, stackedSlots, readWords,
    List.range_succ, Machine.putAll, Machine.put, Machine.get]

/-- The registers `call_c_function_arg` keeps for the caller, between SPSR_mon and the address
it continues at. -/
def argSlots : List Slot :=
  [.reg .usr .r1, .reg .usr .r2, .reg .usr .r3, .reg .usr .r4, .reg .usr .r5, .reg .usr .r6,
    .reg .usr .r7, .reg .usr .r8, .reg .usr .r9, .reg .usr .r10, .reg .usr .r11, .reg .usr .r12]

theorem argSlots_subset : ∀ s ∈ argSlots, s ∈ workSlots := by
  simp [argSlots, workSlots]

private theorem exec_callCFunctionArg (m : Machine D) (h : m.cpsr.mode = monMode) :
    exec callCFunctionArg m =
      { (m.setPhys .usr .r4 (m.spsr .mon)).setPhys .mon .sp (m.regs .mon .sp - 56#32) with
        mem := writeWords m.mem (m.regs .mon .sp - 56#32)
          (m.spsr .mon :: m.capture argSlots ++ [m.regs .mon .lr]) } := by
  apply Machine.ext
  case regs =>
    funext b r
    by_cases sp : b = .mon ∧ r = .sp
    · obtain ⟨rfl, rfl⟩ := sp
      simp [callCFunctionArg, h]
      bv_omega
    · simp [callCFunctionArg, h, sp]
  case mem =>
    simp [callCFunctionArg, h, Machine.capture, argSlots, Machine.get]
    have place : m.regs .mon .sp - 52#32 - 4#32 = m.regs .mon .sp - 56#32 := by bv_omega
    rw [writeWords_append _ _ _ _ _ (by simp), place]
    rfl
  all_goals simp [callCFunctionArg]

/-- `m'` is `m` after `call_c_function_arg` pushed its frame. -/
structure ArgPushed (m m' : Machine D) : Prop where
  others : ∀ s, s ≠ .reg .usr .r4 → s ≠ .reg .mon .sp → m'.get s = m.get s
  sp : m'.regs .mon .sp = m.regs .mon .sp - 56#32
  mode : m'.cpsr.mode = monMode
  mem : m'.mem = writeWords m.mem (m.regs .mon .sp - 56#32)
    (m.spsr .mon :: m.capture argSlots ++ [m.regs .mon .lr])
  scr : m'.scr = m.scr
  cp15 : m'.cp15 = m.cp15
  dev : m'.dev = m.dev

theorem argPushed (m : Machine D) (h : m.cpsr.mode = monMode) :
    ArgPushed m (exec callCFunctionArg m) := by
  rw [exec_callCFunctionArg m h]
  constructor
  case others =>
    intro s notR4 notSp
    cases s with
    | reg b r =>
      have r4 : ¬(b = .usr ∧ r = .r4) := by simpa using notR4
      have sp : ¬(b = .mon ∧ r = .sp) := by simpa using notSp
      simp [Machine.get, r4, sp]
    | spsr b => rfl
  case sp => simp
  case mode => exact h
  case mem => rfl
  case scr => rfl
  case cp15 => rfl
  case dev => rfl

private theorem exec_exceptionReturnArg (m : Machine D) (h : m.cpsr.mode = monMode) :
    exec exceptionReturnArg m =
      let v := msrFc (m.spsr .mon) (read32 m.mem (m.regs .mon .sp))
      { ((m.setSpsr .mon v).setPhys .mon .sp (m.regs .mon .sp + 56#32)).putAll argSlots
          (readWords m.mem (m.regs .mon .sp + 4#32) 12) with
        pc := read32 m.mem (m.regs .mon .sp + 52#32)
        cpsr := Psr.ofWord v } := by
  conv_lhs => simp [exceptionReturnArg, h, BitVec.add_assoc]
  conv_rhs => simp [argSlots, readWords, List.range_succ, Machine.putAll, Machine.put,
    BitVec.add_assoc]
  apply Machine.ext
  case regs =>
    funext b r
    cases b <;> cases r <;> simp
  case spsr =>
    funext b
    cases b <;> simp
  case mem => simp
  all_goals simp

/-- `m'` is `m` after `exception_return_arg` popped its frame at `a`. -/
structure ArgReturned (a : Addr) (m m' : Machine D) : Prop where
  others : ∀ s ∉ argSlots, s ≠ .reg .mon .sp → s ≠ .spsr .mon → m'.get s = m.get s
  args : m'.capture argSlots = readWords m.mem (a + 4#32) 12
  sp : m'.regs .mon .sp = a + 56#32
  spsr : m'.spsr .mon = msrFc (m.spsr .mon) (read32 m.mem a)
  pc : m'.pc = read32 m.mem (a + 52#32)
  cpsr : m'.cpsr = Psr.ofWord (msrFc (m.spsr .mon) (read32 m.mem a))
  scr : m'.scr = m.scr
  cp15 : m'.cp15 = m.cp15
  mem : m'.mem = m.mem
  dev : m'.dev = m.dev

theorem argReturned (m : Machine D) (h : m.cpsr.mode = monMode) :
    ArgReturned (m.regs .mon .sp) m (exec exceptionReturnArg m) := by
  have run := exec_exceptionReturnArg m h
  generalize exec exceptionReturnArg m = m' at run ⊢
  have nodup : argSlots.Nodup := by simp [argSlots]
  have slots : ∀ s, m'.get s = (((m.put (.spsr .mon) (msrFc (m.spsr .mon)
      (read32 m.mem (m.regs .mon .sp)))).put (.reg .mon .sp) (m.regs .mon .sp + 56#32)).putAll
        argSlots (readWords m.mem (m.regs .mon .sp + 4#32) 12)).get s := by
    intro s
    rw [run]
    cases s <;> simp only [Machine.get, Machine.put]
  constructor
  case others =>
    intro s notArg notSp notSpsr
    rw [slots, Machine.get_putAll_of_not_mem notArg, Machine.get_put, if_neg notSp,
      Machine.get_put, if_neg notSpsr]
  case args =>
    rw [Machine.capture_congr fun s _ => slots s]
    exact Machine.capture_putAll _ nodup (by simp [argSlots])
  case sp =>
    have sp := slots (.reg .mon .sp)
    rwa [Machine.get_putAll_of_not_mem (by simp [argSlots]), Machine.get_put, if_pos rfl] at sp
  case spsr =>
    have spsr := slots (.spsr .mon)
    rwa [Machine.get_putAll_of_not_mem (by simp [argSlots]), Machine.get_put, if_neg (by simp),
      Machine.get_put, if_pos rfl] at spsr
  case pc => rw [run]
  case cpsr => rw [run]
  case scr =>
    rw [run]
    exact Machine.putAll_scr _ _ _
  case cp15 =>
    rw [run]
    exact Machine.putAll_cp15 _ _ _
  case mem =>
    rw [run]
    exact Machine.putAll_mem _ _ _
  case dev =>
    rw [run]
    exact Machine.putAll_dev _ _ _

end LTZVisor.Monitor.Macros
