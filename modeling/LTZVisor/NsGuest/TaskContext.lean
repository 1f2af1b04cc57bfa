/- LTZVisor/NsGuest/TaskContext
   kind: property
   digest: What the port saves of a task is what it restores. -/

import LTZVisor.NsGuest.PortAsm

set_option autoImplicit false
set_option relaxedAutoImplicit false

namespace LTZVisor.NsGuest.TaskContext

open LTZVisor.Lib.Memory LTZVisor.Lib.GicCpu LTZVisor.Arm LTZVisor.Arm.Instr
open LTZVisor.NsGuest.PortAsm
open LTZVisor.NsGuest.Tick (portMask portUnmaskValue)

/-- What a task has of the processor. The FPU is its own once it has a floating point context. -/
@[ext] structure Context where
  reg : Reg → Word
  pc : Addr
  cpsr : Psr
  ulCriticalNesting : Word
  ulPortTaskHasFPUContext : Word
  fpu : Option Fpu

def live (m : Guest) : Context where
  reg := m.regs .usr
  pc := m.pc
  cpsr := m.cpsr
  ulCriticalNesting := m.dev.ulCriticalNesting
  ulPortTaskHasFPUContext := m.dev.ulPortTaskHasFPUContext
  fpu := if m.dev.ulPortTaskHasFPUContext = 0#32 then none else some m.dev.fpu

def frameRegs : List Reg :=
  [.r0, .r1, .r2, .r3, .r4, .r5, .r6, .r7, .r8, .r9, .r10, .r11, .r12, .lr]

theorem mem_frameRegs {r : Reg} (other : r ≠ .sp) : r ∈ frameRegs := by
  cases r
  case sp => exact absurd rfl other
  all_goals simp [frameRegs]

def fpuWords (flag : Word) : Nat := if flag = 0#32 then 1 else 66

def word (mem : Mem) (a : Addr) (i : Nat) : Word := read32 mem (a + BitVec.ofNat 32 (4 * i))

def saved (mem : Mem) (top : Addr) : Context :=
  let flag := word mem top 0
  let base := fpuWords flag
  let cpsr := Psr.ofWord (word mem top (base + 16))
  { reg := fun r =>
      if r = .sp then top + BitVec.ofNat 32 (4 * (base + 17))
      else word mem top (base + 1 + frameRegs.idxOf r)
    pc := branchTarget cpsr.t (word mem top (base + 15))
    cpsr
    ulCriticalNesting := word mem top base
    ulPortTaskHasFPUContext := flag
    fpu :=
      if flag = 0#32 then none
      else some
        { d := fun j => word mem top (if 32 ≤ j.val then 2 + (j.val - 32) else 34 + j.val)
          fpscr := word mem top 1 } }

def frameWords (flag : Word) (fpu : Fpu) (nesting : Word) (regs : Reg → Word) (pc cpsr : Word) :
    List Word :=
  ((flag :: if flag = 0#32 then [] else fpu.fpscr :: (fpu.words true ++ fpu.words false)) ++
    [nesting]) ++ frameRegs.map regs ++ [pc, cpsr]

private theorem length_words (f : Fpu) (upper : Bool) :
    (f.words upper).length = 32 := List.length_ofFn

private theorem words_getElem? (f : Fpu) {upper : Bool} {i : Nat} (hi : i < 32) :
    (f.words upper)[i]? = some (f.d ⟨if upper then 32 + i else i, by split <;> omega⟩) := by
  rw [Fpu.words, List.getElem?_ofFn, dif_pos hi]

theorem length_frameWords (flag : Word) (fpu : Fpu) (nesting : Word) (regs : Reg → Word)
    (pc cpsr : Word) :
    (frameWords flag fpu nesting regs pc cpsr).length = fpuWords flag + 17 := by
  rw [frameWords, fpuWords]
  split <;> simp [length_words, frameRegs]

private theorem exec_srsdb (m : Guest) : Pushed [] [m.reg .lr, m.spsr m.bank]
    { m with cpsr := { m.cpsr with mode := sysMode } } (exec [srsdbSys, cps sysMode] m) := by
  constructor
  case regs =>
    intro b r out
    simp only [exec_cons, exec_nil, srsdbSys, cps, Machine.setPhys]
    rw [if_neg]
    rintro ⟨rfl, rfl⟩
    exact out rfl (by simp)
  case sp => simp [srsdbSys]
  case mem => simp [srsdbSys]
  all_goals rfl

private theorem pushed_vpush (upper : Bool) (m : Guest) :
    Pushed [] (m.dev.fpu.words upper) m (vpush upper m) := by
  have moved := regsKept_setReg m .sp (m.reg .sp - 128#32)
  constructor
  case sp =>
    rw [length_words]
    exact Machine.reg_setReg_self _ _ _
  case mem =>
    rw [length_words]
    rfl
  case regs => exact moved
  all_goals rfl

private theorem pushed_cmp (r : Reg) (v : Word) (m : Guest) : Pushed [] [] m (Instr.cmp r v m) := by
  obtain ⟨mode, sp, mem, regs, spsr, dev⟩ := Pushed.refl m
  exact ⟨mode, sp, mem, regs, spsr, dev⟩

def saveNesting (s : Symbols) : List (Instr Rtos) :=
  [movImm .r2 s.ulCriticalNesting, ldrVar .r1 (·.ulCriticalNesting), push [.r1]]

def saveFpu : List (Instr Rtos) :=
  [onlyIf Psr.ne (fmrxFpscr .r1), onlyIf Psr.ne (vpush false), onlyIf Psr.ne (vpush true),
    onlyIf Psr.ne (push [.r1])]

def testFpu (s : Symbols) : List (Instr Rtos) :=
  [movImm .r2 s.ulPortTaskHasFPUContext, ldrVar .r3 (·.ulPortTaskHasFPUContext),
    Instr.cmp .r3 0#32]

private theorem pushed_saveNesting (s : Symbols) (m : Guest) :
    Pushed [.r1, .r2] [m.dev.ulCriticalNesting] m (exec (saveNesting s) m) := by
  have pointer := Pushed.setReg m (r := .r2) (by simp) s.ulCriticalNesting
  have value := Pushed.setReg (movImm .r2 s.ulCriticalNesting m) (r := .r1) (by simp)
    m.dev.ulCriticalNesting
  have stored := Pushed.push [.r1] (ldrVar .r1 (·.ulCriticalNesting)
    (movImm .r2 s.ulCriticalNesting m))
  have loaded : (ldrVar .r1 (·.ulCriticalNesting) (movImm .r2 s.ulCriticalNesting m)).reg .r1 =
      m.dev.ulCriticalNesting := Machine.reg_setReg_self _ _ _
  rw [List.map_singleton, loaded] at stored
  exact ((pointer.trans value).trans stored).mono (by simp)

private theorem pushed_testFpu (s : Symbols) (m : Guest) :
    Pushed [.r2, .r3] [] m (exec (testFpu s) m) ∧
      (exec (testFpu s) m).reg .r3 = m.dev.ulPortTaskHasFPUContext ∧
      ((exec (testFpu s) m).cpsr.ne = true ↔ m.dev.ulPortTaskHasFPUContext ≠ 0#32) := by
  have pointer := Pushed.setReg m (r := .r2) (by simp) s.ulPortTaskHasFPUContext
  have value := Pushed.setReg (movImm .r2 s.ulPortTaskHasFPUContext m) (r := .r3) (by simp)
    m.dev.ulPortTaskHasFPUContext
  have loaded : (ldrVar .r3 (·.ulPortTaskHasFPUContext)
      (movImm .r2 s.ulPortTaskHasFPUContext m)).reg .r3 = m.dev.ulPortTaskHasFPUContext :=
    Machine.reg_setReg_self _ _ _
  have flags := eq_cmp (ldrVar .r3 (·.ulPortTaskHasFPUContext)
    (movImm .r2 s.ulPortTaskHasFPUContext m)) .r3 0#32
  rw [loaded] at flags
  refine ⟨((pointer.trans value).trans (pushed_cmp .r3 0#32 _)).mono (by simp), loaded, ?_⟩
  change (!(exec (testFpu s) m).cpsr.eq) = true ↔ _
  rw [show (exec (testFpu s) m).cpsr.eq = _ from flags]
  simp

private theorem pushed_saveFpu (m : Guest) : Pushed [.r1]
    (if m.cpsr.ne = true then m.dev.fpu.fpscr :: (m.dev.fpu.words true ++ m.dev.fpu.words false)
      else []) m (exec saveFpu m) := by
  split
  case isTrue ne =>
    have whole : exec saveFpu m = push [.r1] (vpush true (vpush false (fmrxFpscr .r1 m))) := by
      apply @exec_onlyIf_pos Rtos Psr.ne m [fmrxFpscr .r1, vpush false, vpush true, push [.r1]] _ ne
      intro i hi m
      simp only [List.mem_cons, List.not_mem_nil, or_false] at hi
      rcases hi with rfl | rfl | rfl | rfl <;> rfl
    have status := Pushed.setReg m (r := .r1) (by simp) m.dev.fpu.fpscr
    have lower := pushed_vpush false (fmrxFpscr .r1 m)
    have upper := pushed_vpush true (vpush false (fmrxFpscr .r1 m))
    have both := lower.trans upper
    have kept : (vpush true (vpush false (fmrxFpscr .r1 m))).reg .r1 = m.dev.fpu.fpscr :=
      (both.regs.reg both.mode (by simp)).trans (Machine.reg_setReg_self _ _ _)
    have stored := Pushed.push [.r1] (vpush true (vpush false (fmrxFpscr .r1 m)))
    rw [List.map_singleton, kept] at stored
    have all := (status.trans both).trans stored
    rw [List.append_nil] at all
    rw [whole]
    exact all.mono (by simp)
  case isFalse equal =>
    have whole : exec saveFpu m = m :=
      exec_onlyIf_neg m [fmrxFpscr .r1, vpush false, vpush true, push [.r1]] equal
    rw [whole]
    exact (Pushed.refl m).mono (by simp)

def saveFlag (s : Symbols) : List (Instr Rtos) :=
  [push [.r3], movImm .r0 s.pxCurrentTCB, ldrVar .r1 (·.pxCurrentTCB)]

/-- The words of the frame that `portSAVE_CONTEXT` makes in an exception mode. -/
def savedWords (m : Guest) : List Word :=
  frameWords m.dev.ulPortTaskHasFPUContext m.dev.fpu m.dev.ulCriticalNesting (m.regs .usr)
    (m.reg .lr) (m.spsr m.bank)

def frameTop (m : Guest) : Addr :=
  m.regs .usr .sp - BitVec.ofNat 32 (4 * (savedWords m).length)

/-- The context that `portSAVE_CONTEXT` leaves in the frame of the current task. -/
structure ContextSaved (m m' : Guest) : Prop where
  mode : m'.cpsr.mode = sysMode
  sp : m'.regs .usr .sp = frameTop m
  mem : m'.mem = writeWords m.mem (frameTop m) (savedWords m)
  banked : ∀ b r, b ≠ .usr → m'.regs b r = m.regs b r
  spsr : m'.spsr = m.spsr
  dev : m'.dev = { m.dev with
    pxTopOfStack := Function.update m.dev.pxTopOfStack m.dev.pxCurrentTCB (frameTop m) }

private theorem pushed_saveFlag (s : Symbols) (m : Guest) :
    Pushed [.r0, .r1] [m.reg .r3] m (exec (saveFlag s) m) ∧
      (exec (saveFlag s) m).reg .r1 = m.dev.pxCurrentTCB := by
  have flag := Pushed.push [.r3] m
  have pointer := Pushed.setReg (push [.r3] m) (r := .r0) (by simp) s.pxCurrentTCB
  have tcb := Pushed.setReg (movImm .r0 s.pxCurrentTCB (push [.r3] m)) (r := .r1) (by simp)
    m.dev.pxCurrentTCB
  exact ⟨((flag.trans pointer).trans tcb).mono (by simp), Machine.reg_setReg_self _ _ _⟩

/-- Every word of the frame is pushed in System mode. -/
private theorem pushed_frame (s : Symbols) (m : Guest) : ∃ m',
    exec (portSaveContext s) m = strTopOfStack .sp .r1 m' ∧
      Pushed [.r0, .r1, .r2, .r3] (savedWords m)
        { m with cpsr := { m.cpsr with mode := sysMode } } m' ∧
      m'.reg .r1 = m.dev.pxCurrentTCB := by
  have whole : exec (portSaveContext s) m = strTopOfStack .sp .r1 (exec (saveFlag s)
      (exec saveFpu (exec (testFpu s) (exec (saveNesting s)
        (push frameRegs (exec [srsdbSys, cps sysMode] m)))))) := rfl
  have first := exec_srsdb m
  generalize exec [srsdbSys, cps sysMode] m = m₁ at *
  have second := Pushed.push frameRegs m₁
  have values : frameRegs.map m₁.reg = frameRegs.map (m.regs .usr) := by
    apply List.map_congr_left
    intro r hr
    have other : r ∉ [Reg.sp] := by
      rintro hit
      rw [List.mem_singleton.mp hit] at hr
      exact absurd hr (by simp [frameRegs])
    rw [first.regs.reg first.mode other]
    cases r <;> rfl
  generalize push frameRegs m₁ = m₂ at *
  have third := pushed_saveNesting s m₂
  generalize exec (saveNesting s) m₂ = m₃ at *
  obtain ⟨fourth, flag, ne⟩ := pushed_testFpu s m₃
  generalize exec (testFpu s) m₃ = m₄ at *
  have fifth := pushed_saveFpu m₄
  generalize exec saveFpu m₄ = m₅ at *
  obtain ⟨sixth, tcb⟩ := pushed_saveFlag s m₅
  generalize exec (saveFlag s) m₅ = m₆ at *
  have dev₂ : m₂.dev = m.dev := second.dev.trans first.dev
  have dev₃ : m₃.dev = m.dev := third.dev.trans dev₂
  have dev₄ : m₄.dev = m.dev := fourth.dev.trans dev₃
  have dev₅ : m₅.dev = m.dev := fifth.dev.trans dev₄
  have flag₅ : m₅.reg .r3 = m.dev.ulPortTaskHasFPUContext := by
    rw [fifth.regs.reg fifth.mode (by simp), flag, dev₃]
  refine ⟨m₆, whole, ?_, by rw [tcb, dev₅]⟩
  have all := ((((first.trans second).trans third).trans fourth).trans fifth).trans sixth
  rw [values, dev₂, flag₅, dev₄] at all
  rw [dev₃] at ne
  have pushed : Pushed [.r0, .r1, .r2, .r3] _ _ m₆ := all.mono (by simp)
  convert pushed using 1
  rw [savedWords, frameWords]
  by_cases none : m.dev.ulPortTaskHasFPUContext = 0#32
  · rw [if_pos none, if_neg fun h => ne.mp h none]
    simp
  · rw [if_neg none, if_pos (ne.mpr none)]
    simp

theorem contextSaved (s : Symbols) {m : Guest} :
    ContextSaved m (exec (portSaveContext s) m) := by
  obtain ⟨m', whole, pushed, tcb⟩ := pushed_frame s m
  rw [whole]
  have sp : m'.reg .sp = frameTop m := pushed.sp
  constructor
  case mode => exact pushed.mode
  case sp =>
    rw [← sp, Machine.reg, bank_congr pushed.mode]
    rfl
  case mem => exact pushed.mem
  case banked =>
    intro b r other
    exact pushed.regs b r fun here => absurd here (by cases r <;> exact other)
  case spsr => exact pushed.spsr
  case dev =>
    have value : (strTopOfStack .sp .r1 m').dev = { m'.dev with
        pxTopOfStack := Function.update m'.dev.pxTopOfStack (m'.reg .r1) (m'.reg .sp) } := rfl
    rw [value, tcb, sp, pushed.dev]

section Frame

variable {flag : Word} {fpu : Fpu} {nesting : Word} {regs : Reg → Word} {pc cpsr : Word}

private theorem frameWords_base (i : Nat) :
    (frameWords flag fpu nesting regs pc cpsr)[fpuWords flag + i]? =
    (nesting :: (frameRegs.map regs ++ [pc, cpsr]))[i]? := by
  have split : frameWords flag fpu nesting regs pc cpsr =
      (flag :: if flag = 0#32 then [] else fpu.fpscr :: (fpu.words true ++ fpu.words false)) ++
        (nesting :: (frameRegs.map regs ++ [pc, cpsr])) := by
    simp only [frameWords, List.append_assoc, List.cons_append, List.nil_append]
  have len : (flag :: if flag = 0#32 then [] else
      fpu.fpscr :: (fpu.words true ++ fpu.words false)).length = fpuWords flag := by
    rw [fpuWords]
    split <;> simp [length_words]
  rw [split, List.getElem?_append_right (by omega), len, Nat.add_sub_cancel_left]

private theorem frameWords_reg {r : Reg} (hr : r ∈ frameRegs) :
    (frameWords flag fpu nesting regs pc cpsr)[fpuWords flag + 1 + frameRegs.idxOf r]? =
      some (regs r) := by
  have lt : frameRegs.idxOf r < frameRegs.length := List.idxOf_lt_length_of_mem hr
  rw [Nat.add_assoc, frameWords_base, Nat.add_comm 1, List.getElem?_cons_succ,
    List.getElem?_append_left (by simpa using lt), List.getElem?_map, List.getElem?_idxOf hr]
  rfl

private theorem frameWords_flag : (frameWords flag fpu nesting regs pc cpsr)[0]? = some flag := by
  simp [frameWords]

private theorem frameWords_fpu (some_ : flag ≠ 0#32) :
    (frameWords flag fpu nesting regs pc cpsr)[1]? = some fpu.fpscr ∧
      ∀ j : Fin 64, (frameWords flag fpu nesting regs pc cpsr)[
        if 32 ≤ j.val then 2 + (j.val - 32) else 34 + j.val]? = some (fpu.d j) := by
  have split : frameWords flag fpu nesting regs pc cpsr =
      flag :: fpu.fpscr :: (fpu.words true ++ (fpu.words false ++
        (nesting :: (frameRegs.map regs ++ [pc, cpsr])))) := by
    simp [frameWords, if_neg some_]
  rw [split]
  refine ⟨rfl, fun j => ?_⟩
  split_ifs with high
  · have lt : j.val - 32 < (fpu.words true).length := by
      rw [length_words]
      omega
    rw [show 2 + (j.val - 32) = j.val - 32 + 1 + 1 by omega, List.getElem?_cons_succ,
      List.getElem?_cons_succ, List.getElem?_append_left lt]
    rw [words_getElem? fpu (by omega)]
    exact congrArg (fun k => some (fpu.d k)) (Fin.ext (by simp; omega))
  · have lt : j.val < (fpu.words false).length := by
      rw [length_words]
      omega
    rw [show 34 + j.val = j.val + 32 + 1 + 1 by omega, List.getElem?_cons_succ,
      List.getElem?_cons_succ, List.getElem?_append_right (by rw [length_words]; omega),
      length_words, Nat.add_sub_cancel, List.getElem?_append_left lt,
      words_getElem? fpu (by omega)]
    rfl

private theorem word_of {mem : Mem} {top : Addr} {ws : List Word} {i : Nat} {w : Word}
    (at_i : ws[i]? = some w) (fits : 4 * ws.length ≤ 2 ^ 32) :
    word (writeWords mem top ws) top i = w :=
  read32_writeWords_at mem top ws i at_i fits

/-- A frame holds the context that was saved in it. -/
theorem saved_frame (mem : Mem) (top : Addr) :
    saved (writeWords mem top (frameWords flag fpu nesting regs pc cpsr)) top =
      { reg := fun r => if r = .sp then top + BitVec.ofNat 32 (4 * (fpuWords flag + 17)) else regs r
        pc := branchTarget (Psr.ofWord cpsr).t pc
        cpsr := Psr.ofWord cpsr
        ulCriticalNesting := nesting
        ulPortTaskHasFPUContext := flag
        fpu := if flag = 0#32 then none else some fpu } := by
  have fits : 4 * (frameWords flag fpu nesting regs pc cpsr).length ≤ 2 ^ 32 := by
    rw [length_frameWords, fpuWords]
    split <;> omega
  have first : word (writeWords mem top (frameWords flag fpu nesting regs pc cpsr)) top 0 = flag :=
    word_of frameWords_flag fits
  have base (i : Nat) {w : Word}
      (at_i : (nesting :: (frameRegs.map regs ++ [pc, cpsr]))[i]? = some w) :
      word (writeWords mem top (frameWords flag fpu nesting regs pc cpsr)) top (fpuWords flag + i) =
        w :=
    word_of ((frameWords_base i).trans at_i) fits
  have status := base 16 (w := cpsr) rfl
  have target := base 15 (w := pc) rfl
  have count := base 0 (w := nesting) rfl
  rw [Nat.add_zero] at count
  ext1
  case reg =>
    funext r
    simp only [saved, first]
    split_ifs with pointer
    · rfl
    · exact word_of (frameWords_reg (mem_frameRegs pointer)) fits
  case pc => simp only [saved, first, status, target]
  case cpsr => simp only [saved, first, status]
  case ulCriticalNesting => simp only [saved, first, count]
  case ulPortTaskHasFPUContext => exact first
  case fpu =>
    simp only [saved, first]
    split_ifs with none
    · rfl
    · obtain ⟨status, d⟩ := @frameWords_fpu flag fpu nesting regs pc cpsr none
      rw [word_of status fits]
      have same : (fun j : Fin 64 => word (writeWords mem top
          (frameWords flag fpu nesting regs pc cpsr)) top
            (if 32 ≤ j.val then 2 + (j.val - 32) else 34 + j.val)) = fpu.d :=
        funext fun j => word_of (d j) fits
      rw [same]

end Frame

def selectTask (s : Symbols) : List (Instr Rtos) :=
  [movImm .r0 s.pxCurrentTCB, ldrVar .r1 (·.pxCurrentTCB), ldrTopOfStack .sp .r1]

/-- A variable at `a` takes the next word. -/
def restoreVar (a : Addr) (set : Rtos → Word → Rtos) : List (Instr Rtos) :=
  [movImm .r0 a, pop [.r1], strVar .r1 set]

def restoreFpu : List (Instr Rtos) :=
  [onlyIf Psr.ne (pop [.r0]), onlyIf Psr.ne (vpop true), onlyIf Psr.ne (vpop false),
    onlyIf Psr.ne (vmsrFpscr .r0)]

def restoreMask (s : Symbols) : List (Instr Rtos) :=
  [movImm .r2 s.ulICCPMR, movImm .r2 portIccPmrAddress, Instr.cmp .r1 0#32,
    onlyIf Psr.eq (movImm .r4 portUnmaskValue), onlyIf Psr.ne (movImm .r4 s.ulMaxAPIPriorityMask),
    onlyIf Psr.ne (movImm .r4 portMask), strVar .r4 fun dev v => { dev with iccPmr := v }]

private theorem popped_setReg (m : Guest) {r : Reg} (other : r ≠ .sp) (v : Word) :
    Popped [r] 0 m (m.setReg r v) := by
  constructor
  case sp =>
    rw [Machine.reg_setReg, if_neg (Ne.symm other), Nat.mul_zero]
    exact (BitVec.add_zero _).symm
  case regs => exact (regsKept_setReg m r v).mono (List.subset_cons_self ..)
  all_goals rfl

private theorem popped_of_same {m m' : Guest} (mode : m'.cpsr.mode = m.cpsr.mode)
    (regs : m'.regs = m.regs)
    (mem : m'.mem = m.mem) (spsr : m'.spsr = m.spsr) : Popped [] 0 m m' := by
  constructor
  case mode => exact mode
  case sp =>
    rw [Machine.reg, bank_congr mode, regs]
    exact (BitVec.add_zero _).symm
  case mem => exact mem
  case regs => exact fun b r _ => congrFun₂ regs b r
  case spsr => exact spsr

private theorem exec_restoreVar (a : Addr) (set : Rtos → Word → Rtos) (m : Guest) :
    Popped [.r0, .r1] 1 m (exec (restoreVar a set) m) ∧
      (exec (restoreVar a set) m).reg .r1 = word m.mem (m.reg .sp) 0 ∧
      (exec (restoreVar a set) m).dev = set m.dev (word m.mem (m.reg .sp) 0) := by
  have pointer : Popped [.r0] 0 m (movImm .r0 a m) := popped_setReg m (by simp) a
  have sp : (movImm .r0 a m).reg .sp = m.reg .sp := pointer.sp.trans (BitVec.add_zero _)
  have dev₁ : (movImm .r0 a m).dev = m.dev := rfl
  have whole : exec (restoreVar a set) m = strVar .r1 set (pop [.r1] (movImm .r0 a m)) := rfl
  rw [whole]
  generalize movImm .r0 a m = m₁ at *
  have popped : Popped [.r1] 1 m₁ (pop [.r1] m₁) := popped_pop (by simp)
  have value := pop_reg (m := m₁) (List.nodup_singleton Reg.r1) (i := 0) rfl
  rw [sp, pointer.mem] at value
  change _ = word m.mem (m.reg .sp) 0 at value
  have dev₂ : (pop [.r1] m₁).dev = m₁.dev := pop_dev
  generalize pop [.r1] m₁ = m₂ at *
  have stored : Popped [] 0 m₂ (strVar .r1 set m₂) := popped_of_same rfl rfl rfl rfl
  refine ⟨((pointer.trans popped).trans stored).mono (by simp), value, ?_⟩
  have dev : (strVar .r1 set m₂).dev = set m₂.dev (m₂.reg .r1) := rfl
  rw [dev, value, dev₂, dev₁]

/-- The FPU that a frame at `sp` behind its flag holds. -/
def fpuIn (mem : Mem) (sp : Addr) : Fpu where
  d j := word mem sp (if 32 ≤ j.val then 1 + (j.val - 32) else 33 + j.val)
  fpscr := word mem sp 0

private theorem popped_vpop (upper : Bool) (m : Guest) : Popped [] 32 m (vpop upper m) := by
  have moved := regsKept_setReg m .sp (m.reg .sp + 128#32)
  constructor
  case sp => exact Machine.reg_setReg_self _ _ _
  case regs => exact moved
  all_goals rfl

private theorem vpop_both (m : Guest) : (vpop false (vpop true m)).dev = { m.dev with
    fpu := { fpuIn m.mem (m.reg .sp - 4#32) with fpscr := m.dev.fpu.fpscr } } := by
  have sp : (vpop true m).reg .sp = m.reg .sp + 128#32 := Machine.reg_setReg_self _ _ _
  have both : (vpop false (vpop true m)).dev = { m.dev with fpu := { m.dev.fpu with
      d := fun j => if (false = true ↔ 32 ≤ j.val) then
          read32 m.mem (m.reg .sp + 128#32 + BitVec.ofNat 32 (4 * (j.val % 32)))
        else if (true = true ↔ 32 ≤ j.val) then
          read32 m.mem (m.reg .sp + BitVec.ofNat 32 (4 * (j.val % 32)))
        else m.dev.fpu.d j } } := by
    rw [← sp]
    rfl
  rw [both]
  have d : (fun j : Fin 64 => if (false = true ↔ 32 ≤ j.val) then
      read32 m.mem (m.reg .sp + 128#32 + BitVec.ofNat 32 (4 * (j.val % 32)))
    else if (true = true ↔ 32 ≤ j.val) then
      read32 m.mem (m.reg .sp + BitVec.ofNat 32 (4 * (j.val % 32)))
    else m.dev.fpu.d j) = (fpuIn m.mem (m.reg .sp - 4#32)).d := by
    funext j
    have small := j.isLt
    by_cases high : 32 ≤ j.val
    · have place : m.reg .sp + BitVec.ofNat 32 (4 * (j.val % 32)) =
          m.reg .sp - 4#32 + BitVec.ofNat 32 (4 * (1 + (j.val - 32))) := by
        have rest : j.val % 32 = j.val - 32 := by omega
        rw [rest]
        bv_omega
      simp only [fpuIn, word, high, if_true, place]
      simp
    · have place : m.reg .sp + 128#32 + BitVec.ofNat 32 (4 * (j.val % 32)) =
          m.reg .sp - 4#32 + BitVec.ofNat 32 (4 * (33 + j.val)) := by
        have rest : j.val % 32 = j.val := by omega
        rw [rest]
        bv_omega
      simp only [fpuIn, word, high, if_false, place]
      simp
  rw [d]

private theorem exec_restoreFpu_of_ne (m : Guest) (ne : m.cpsr.ne = true) :
    Popped [.r0] 65 m (exec restoreFpu m) ∧
      (exec restoreFpu m).dev = { m.dev with fpu := fpuIn m.mem (m.reg .sp) } := by
  have popped : Popped [.r0] 1 m (pop [.r0] m) := popped_pop (by simp)
  have value := pop_reg (m := m) (List.nodup_singleton Reg.r0) (i := 0) rfl
  have dev₁ : (pop [.r0] m).dev = m.dev := pop_dev
  have flags : (pop [.r0] m).cpsr = m.cpsr := rfl
  have whole : exec restoreFpu m =
      vmsrFpscr .r0 (vpop false (vpop true (pop [.r0] m))) := by
    apply @exec_onlyIf_pos Rtos Psr.ne m [pop [.r0], vpop true, vpop false, vmsrFpscr .r0] _ ne
    intro i hi m
    simp only [List.mem_cons, List.not_mem_nil, or_false] at hi
    rcases hi with rfl | rfl | rfl | rfl <;> rfl
  rw [whole]
  generalize pop [.r0] m = m₁ at *
  have upper := popped_vpop true m₁
  have lower := popped_vpop false (vpop true m₁)
  have kept : (vpop false (vpop true m₁)).reg .r0 = m₁.reg .r0 :=
    (lower.regs.reg lower.mode (by simp)).trans (upper.regs.reg upper.mode (by simp))
  have dev₂ := vpop_both m₁
  generalize vpop false (vpop true m₁) = m₂ at *
  have stored : Popped [] 0 m₂ (vmsrFpscr .r0 m₂) := popped_of_same rfl rfl rfl rfl
  refine ⟨((((popped.trans upper).trans lower).trans stored)).mono (by simp), ?_⟩
  have dev : (vmsrFpscr .r0 m₂).dev =
    { m₂.dev with fpu := { m₂.dev.fpu with fpscr := m₂.reg .r0 } } := rfl
  have start : m₁.reg .sp = m.reg .sp + 4#32 := popped.sp
  rw [dev, dev₂, kept, value, start, popped.mem, dev₁, BitVec.add_sub_cancel]
  rfl

private theorem exec_restoreFpu_of_eq (m : Guest) (eq : ¬m.cpsr.ne = true) :
    exec restoreFpu m = m :=
  exec_onlyIf_neg m [pop [.r0], vpop true, vpop false, vmsrFpscr .r0] eq

def maskFor (nesting : Word) : Word := if nesting = 0#32 then portUnmaskValue else portMask

private theorem exec_restoreMask (s : Symbols) (m : Guest) :
    Popped [.r2, .r4] 0 m (exec (restoreMask s) m) ∧
      (exec (restoreMask s) m).dev = { m.dev with iccPmr := maskFor (m.reg .r1) } := by
  have first : Popped [.r2] 0 m (movImm .r2 s.ulICCPMR m) := popped_setReg m (by simp) _
  have second : Popped [.r2] 0 (movImm .r2 s.ulICCPMR m)
      (movImm .r2 portIccPmrAddress (movImm .r2 s.ulICCPMR m)) := popped_setReg _ (by simp) _
  have third := first.andThen second (List.Subset.refl _)
  have dev₁ : (movImm .r2 portIccPmrAddress (movImm .r2 s.ulICCPMR m)).dev = m.dev := rfl
  have whole : exec (restoreMask s) m = exec
      [onlyIf Psr.eq (movImm .r4 portUnmaskValue),
        onlyIf Psr.ne (movImm .r4 s.ulMaxAPIPriorityMask),
        onlyIf Psr.ne (movImm .r4 portMask), strVar .r4 fun dev v => { dev with iccPmr := v }]
      (Instr.cmp .r1 0#32 (movImm .r2 portIccPmrAddress (movImm .r2 s.ulICCPMR m))) := rfl
  rw [whole]
  generalize movImm .r2 portIccPmrAddress (movImm .r2 s.ulICCPMR m) = m₁ at *
  have count : m₁.reg .r1 = m.reg .r1 := third.regs.reg third.mode (by simp)
  have flag := eq_cmp m₁ .r1 0#32
  have compared : Popped [] 0 m₁ (Instr.cmp .r1 0#32 m₁) := popped_of_same rfl rfl rfl rfl
  have dev₂ : (Instr.cmp .r1 0#32 m₁).dev = m.dev := dev₁
  have upTo₂ := third.trans compared
  rw [count] at flag
  generalize Instr.cmp .r1 0#32 m₁ = m₂ at *
  -- Either branch loads the mask into r4.
  have loaded : ∃ m₃, exec [onlyIf Psr.eq (movImm .r4 portUnmaskValue),
        onlyIf Psr.ne (movImm .r4 s.ulMaxAPIPriorityMask), onlyIf Psr.ne (movImm .r4 portMask)] m₂ =
          m₃ ∧ Popped [.r4] 0 m₂ m₃ ∧ m₃.dev = m.dev ∧ m₃.reg .r4 = maskFor (m.reg .r1) := by
    rw [exec_cons, exec_cons, exec_cons, exec_nil]
    by_cases zero : m.reg .r1 = 0#32
    · have eq : m₂.cpsr.eq = true := by rw [flag, zero, beq_self_eq_true]
      have ne : ¬m₂.cpsr.ne = true := by
        change ¬(!m₂.cpsr.eq) = true
        simp [eq]
      refine ⟨_, rfl, ?_⟩
      rw [onlyIf_pos m₂ _ eq, onlyIf_neg (movImm .r4 portUnmaskValue m₂) _ ne,
        onlyIf_neg (movImm .r4 portUnmaskValue m₂) _ ne, maskFor, if_pos zero]
      exact ⟨popped_setReg m₂ (by simp) _, dev₂, Machine.reg_setReg_self _ _ _⟩
    · have eq : ¬m₂.cpsr.eq = true := by rwa [flag, beq_iff_eq]
      have ne : m₂.cpsr.ne = true := by
        change (!m₂.cpsr.eq) = true
        simpa using eq
      refine ⟨_, rfl, ?_⟩
      rw [onlyIf_neg m₂ _ eq, onlyIf_pos m₂ _ ne,
        onlyIf_pos (movImm .r4 s.ulMaxAPIPriorityMask m₂) _ ne, maskFor, if_neg zero]
      have address := popped_setReg m₂ (r := .r4) (by simp) s.ulMaxAPIPriorityMask
      have mask := popped_setReg (movImm .r4 s.ulMaxAPIPriorityMask m₂) (r := .r4) (by simp)
        portMask
      exact ⟨address.andThen mask (List.Subset.refl _), dev₂, Machine.reg_setReg_self _ _ _⟩
  obtain ⟨m₃, ran, fourth, dev₃, value⟩ := loaded
  have rest : exec
      [onlyIf Psr.eq (movImm .r4 portUnmaskValue),
        onlyIf Psr.ne (movImm .r4 s.ulMaxAPIPriorityMask),
        onlyIf Psr.ne (movImm .r4 portMask), strVar .r4 fun dev v => { dev with iccPmr := v }] m₂ =
      strVar .r4 (fun dev v => { dev with iccPmr := v }) m₃ := by
    rw [← ran]
    rfl
  rw [rest]
  have stored : Popped [] 0 m₃ (strVar .r4 (fun dev v => { dev with iccPmr := v }) m₃) :=
    popped_of_same rfl rfl rfl rfl
  refine ⟨((upTo₂.trans fourth).trans stored).mono (by simp), ?_⟩
  have dev : (strVar .r4 (fun dev v => { dev with iccPmr := v }) m₃).dev =
      { m₃.dev with iccPmr := m₃.reg .r4 } := rfl
  rw [dev, dev₃, value]

/-- The stack pointer of the task that is restored. -/
structure TaskSelected (m m' : Guest) : Prop where
  mode : m'.cpsr.mode = m.cpsr.mode
  sp : m'.reg .sp = m.dev.pxTopOfStack m.dev.pxCurrentTCB
  mem : m'.mem = m.mem
  regs : RegsKept [.sp, .r0, .r1] m m'
  spsr : m'.spsr = m.spsr
  dev : m'.dev = m.dev

private theorem taskSelected (s : Symbols) (m : Guest) :
    TaskSelected m (exec (selectTask s) m) := by
  have pointer := regsKept_setReg m .r0 s.pxCurrentTCB
  have tcb := regsKept_setReg (movImm .r0 s.pxCurrentTCB m) .r1 m.dev.pxCurrentTCB
  have whole : exec (selectTask s) m =
      ldrTopOfStack .sp .r1 (ldrVar .r1 (·.pxCurrentTCB) (movImm .r0 s.pxCurrentTCB m)) := rfl
  rw [whole]
  have value : (ldrVar .r1 (·.pxCurrentTCB) (movImm .r0 s.pxCurrentTCB m)).reg .r1 =
      m.dev.pxCurrentTCB := Machine.reg_setReg_self _ _ _
  have both := pointer.trans tcb rfl
  change RegsKept _ m (ldrVar .r1 (·.pxCurrentTCB) (movImm .r0 s.pxCurrentTCB m)) at both
  have top := regsKept_setReg (ldrVar .r1 (·.pxCurrentTCB) (movImm .r0 s.pxCurrentTCB m)) .sp
    (m.dev.pxTopOfStack ((ldrVar .r1 (·.pxCurrentTCB) (movImm .r0 s.pxCurrentTCB m)).reg .r1))
  constructor
  case sp =>
    rw [← value]
    exact Machine.reg_setReg_self _ _ _
  case regs => exact (both.trans top rfl).mono (by simp)
  all_goals rfl

private theorem add_words (a : Addr) (k i : Nat) :
    a + BitVec.ofNat 32 (4 * k) + BitVec.ofNat 32 (4 * i) = a + BitVec.ofNat 32 (4 * (k + i)) := by
  bv_omega

private theorem word_add (mem : Mem) (a : Addr) (k i : Nat) :
    word mem (a + BitVec.ofNat 32 (4 * k)) i = word mem a (k + i) := by
  rw [word, add_words, word]

/-- The kernel's part of `m'` is that of `m`. -/
structure SameKernel (d d' : Rtos) : Prop where
  pxCurrentTCB : d'.pxCurrentTCB = d.pxCurrentTCB
  xSchedulerRunning : d'.xSchedulerRunning = d.xSchedulerRunning
  pxTopOfStack : d'.pxTopOfStack = d.pxTopOfStack
  pxStack : d'.pxStack = d.pxStack
  tasks : d'.tasks = d.tasks
  ulPortYieldRequired : d'.ulPortYieldRequired = d.ulPortYieldRequired
  ulPortInterruptNesting : d'.ulPortInterruptNesting = d.ulPortInterruptNesting
  gic : d'.gic = d.gic

private theorem exec_restoreFpu {flag : Word} {top : Addr} {m : Guest}
    (ne : m.cpsr.ne = true ↔ flag ≠ 0#32) (sp : m.reg .sp = top + 4#32) :
    Popped [.r0] (fpuWords flag - 1) m (exec restoreFpu m) ∧
      (exec restoreFpu m).dev = { m.dev with
        fpu := if flag = 0#32 then m.dev.fpu else fpuIn m.mem (top + 4#32) } := by
  by_cases none : flag = 0#32
  · rw [exec_restoreFpu_of_eq m fun h => ne.mp h none, fpuWords, if_pos none, if_pos none]
    exact ⟨(popped_of_same rfl rfl rfl rfl).mono (by simp), rfl⟩
  · have restored := exec_restoreFpu_of_ne m (ne.mpr none)
    rw [fpuWords, if_neg none, if_neg none, ← sp]
    exact restored

/-- What `portRESTORE_CONTEXT` makes of the frame of the current task. -/
structure ContextRestored (m m' : Guest) : Prop where
  live : live m' = saved m.mem (m.dev.pxTopOfStack m.dev.pxCurrentTCB)
  mem : m'.mem = m.mem
  banked : ∀ b r, b ≠ .usr → m'.regs b r = m.regs b r
  kernel : SameKernel m.dev m'.dev
  mask : m'.dev.iccPmr = maskFor m'.dev.ulCriticalNesting

def restoreVars (s : Symbols) : List (Instr Rtos) :=
  selectTask s ++
    restoreVar s.ulPortTaskHasFPUContext (fun dev v => { dev with ulPortTaskHasFPUContext := v }) ++
    [Instr.cmp .r1 0#32] ++ restoreFpu ++
    restoreVar s.ulCriticalNesting (fun dev v => { dev with ulCriticalNesting := v }) ++
    restoreMask s

def Rtos.restored (d : Rtos) (mem : Mem) (top : Addr) : Rtos :=
  { d with
    ulPortTaskHasFPUContext := word mem top 0
    fpu := if word mem top 0 = 0#32 then d.fpu else fpuIn mem (top + 4#32)
    ulCriticalNesting := word mem top (fpuWords (word mem top 0))
    iccPmr := maskFor (word mem top (fpuWords (word mem top 0))) }

/-- Only the registers of the frame are still on the stack. -/
structure VarsRestored (m m' : Guest) : Prop where
  mode : m'.cpsr.mode = m.cpsr.mode
  sp : m'.reg .sp = m.dev.pxTopOfStack m.dev.pxCurrentTCB + BitVec.ofNat 32
    (4 * (fpuWords (word m.mem (m.dev.pxTopOfStack m.dev.pxCurrentTCB) 0) + 1))
  mem : m'.mem = m.mem
  banked : ∀ b r, b ≠ m.bank.home r → m'.regs b r = m.regs b r
  dev : m'.dev = Rtos.restored m.dev m.mem (m.dev.pxTopOfStack m.dev.pxCurrentTCB)

private theorem fpuWords_pos (flag : Word) : 0 < fpuWords flag := by
  rw [fpuWords]
  split <;> omega

private theorem varsRestored (s : Symbols) (m : Guest) :
    VarsRestored m (exec (restoreVars s) m) := by
  have whole : exec (restoreVars s) m = exec (restoreMask s)
      (exec (restoreVar s.ulCriticalNesting fun dev v => { dev with ulCriticalNesting := v })
        (exec restoreFpu (Instr.cmp .r1 0#32
          (exec (restoreVar s.ulPortTaskHasFPUContext fun dev v =>
            { dev with ulPortTaskHasFPUContext := v }) (exec (selectTask s) m))))) := rfl
  rw [whole]
  have selected := taskSelected s m
  generalize exec (selectTask s) m = m₁ at *
  obtain ⟨first, flag, dev₂⟩ := exec_restoreVar s.ulPortTaskHasFPUContext
    (fun dev v => { dev with ulPortTaskHasFPUContext := v }) m₁
  rw [selected.sp, selected.mem] at flag
  rw [selected.sp, selected.mem, selected.dev] at dev₂
  generalize exec (restoreVar s.ulPortTaskHasFPUContext fun dev v =>
    { dev with ulPortTaskHasFPUContext := v }) m₁ = m₂ at *
  have compared : Popped [] 0 m₂ (Instr.cmp .r1 0#32 m₂) := popped_of_same rfl rfl rfl rfl
  have equal := eq_cmp m₂ .r1 0#32
  have dev₃ : (Instr.cmp .r1 0#32 m₂).dev = m₂.dev := rfl
  rw [flag] at equal
  generalize Instr.cmp .r1 0#32 m₂ = m₃ at *
  have ne : m₃.cpsr.ne = true ↔
      word m.mem (m.dev.pxTopOfStack m.dev.pxCurrentTCB) 0 ≠ 0#32 := by
    change (!m₃.cpsr.eq) = true ↔ _
    rw [equal]
    simp
  have upTo₃ := first.trans compared
  have sp₃ : m₃.reg .sp = m.dev.pxTopOfStack m.dev.pxCurrentTCB + 4#32 := by
    rw [upTo₃.sp, selected.sp]
  obtain ⟨second, dev₄⟩ := exec_restoreFpu ne sp₃
  generalize exec restoreFpu m₃ = m₄ at *
  have upTo₄ := upTo₃.trans second
  obtain ⟨third, count, dev₅⟩ := exec_restoreVar s.ulCriticalNesting
    (fun dev v => { dev with ulCriticalNesting := v }) m₄
  have pos := fpuWords_pos (word m.mem (m.dev.pxTopOfStack m.dev.pxCurrentTCB) 0)
  have sp₄ : m₄.reg .sp = m.dev.pxTopOfStack m.dev.pxCurrentTCB + BitVec.ofNat 32
      (4 * fpuWords (word m.mem (m.dev.pxTopOfStack m.dev.pxCurrentTCB) 0)) := by
    rw [upTo₄.sp, selected.sp]
    congr 3
    omega
  rw [sp₄, upTo₄.mem, selected.mem, word_add, Nat.add_zero] at count dev₅
  generalize exec (restoreVar s.ulCriticalNesting fun dev v =>
    { dev with ulCriticalNesting := v }) m₄ = m₅ at *
  obtain ⟨fourth, dev₆⟩ := exec_restoreMask s m₅
  generalize exec (restoreMask s) m₅ = m₆ at *
  have all := (upTo₄.trans third).trans fourth
  constructor
  case mode => exact all.mode.trans selected.mode
  case sp =>
    rw [all.sp, selected.sp]
    congr 3
    omega
  case mem => exact all.mem.trans selected.mem
  case banked =>
    intro b r other
    rw [all.regs b r fun here => absurd (here.trans (by rw [bank_congr selected.mode])) other,
      selected.regs b r fun here => absurd here other]
  case dev =>
    rw [dev₆, count, dev₅, dev₄, dev₃, dev₂, upTo₃.mem, selected.mem]
    rfl

theorem branchTarget_idem (t : Bool) (v : Word) :
    branchTarget t (branchTarget t v) = branchTarget t v := by
  rw [branchTarget, branchTarget, BitVec.and_assoc, BitVec.and_self]

private theorem fpuIn_eq (mem : Mem) (top : Addr) : fpuIn mem (top + 4#32) =
    { d := fun j => word mem top (if 32 ≤ j.val then 2 + (j.val - 32) else 34 + j.val)
      fpscr := word mem top 1 } := by
  ext1
  case d =>
    funext j
    simp only [fpuIn]
    split_ifs
    · exact (word_add mem top 1 _).trans (congrArg _ (by omega))
    · exact (word_add mem top 1 _).trans (congrArg _ (by omega))
  case fpscr => exact word_add mem top 1 0

theorem home_sys {m : Guest} (mode : m.cpsr.mode = sysMode) (r : Reg) : m.bank.home r = .usr := by
  rw [show m.bank = .usr from congrArg bankOf mode]
  cases r <;> rfl

theorem reg_sys {m : Guest} (mode : m.cpsr.mode = sysMode) (r : Reg) :
    m.reg r = m.regs .usr r := by
  rw [Machine.reg, home_sys mode]

private theorem rfeia_same (m : Guest) : (rfeia m).regs = (m.setReg .sp (m.reg .sp + 8#32)).regs ∧
    (rfeia m).mem = m.mem ∧ (rfeia m).dev = m.dev := by
  refine ⟨?_, ?_, ?_⟩ <;> simp only [rfeia] <;> rfl

theorem contextRestored (s : Symbols) {m : Guest} (mode : m.cpsr.mode = sysMode) :
    ContextRestored m (exec (portRestoreContext s) m) := by
  have whole : exec (portRestoreContext s) m = rfeia (pop frameRegs (exec (restoreVars s) m)) := rfl
  rw [whole]
  obtain ⟨mode₁, sp₁, mem₁, banked₁, dev₁⟩ := varsRestored s m
  generalize exec (restoreVars s) m = m₁ at *
  generalize topEq : m.dev.pxTopOfStack m.dev.pxCurrentTCB = top at sp₁ dev₁
  generalize baseEq : fpuWords (word m.mem top 0) = base at sp₁
  have popped : Popped frameRegs frameRegs.length m₁ (pop frameRegs m₁) :=
    popped_pop (by simp [frameRegs])
  have dev₂ : (pop frameRegs m₁).dev = m₁.dev := pop_dev
  have value {i : Nat} {r : Reg} (at_i : frameRegs[i]? = some r) :
      (pop frameRegs m₁).reg r = word m.mem top (base + 1 + i) := by
    rw [pop_reg (by simp [frameRegs]) at_i, sp₁, mem₁]
    exact word_add _ _ _ _
  generalize pop frameRegs m₁ = m₂ at *
  have mode₂ : m₂.cpsr.mode = sysMode := popped.mode.trans (mode₁.trans mode)
  have sp₂ : m₂.reg .sp = top + BitVec.ofNat 32 (4 * (base + 15)) := by
    have len : frameRegs.length = 14 := rfl
    rw [popped.sp, sp₁, len, add_words, Nat.add_assoc]
  have mem₂ : m₂.mem = m.mem := popped.mem.trans mem₁
  have target : read32 m₂.mem (m₂.reg .sp) = word m.mem top (base + 15) := by
    rw [mem₂, sp₂]
    rfl
  have status : read32 m₂.mem (m₂.reg .sp + 4#32) =
      word m.mem top (base + 16) := by
    have next := word_add m.mem top (base + 15) 1
    rw [Nat.add_assoc] at next
    rw [mem₂, sp₂, ← next]
    rfl
  obtain ⟨regs, mem, dev₃⟩ := rfeia_same m₂
  have dev : (rfeia m₂).dev = Rtos.restored m.dev m.mem top := dev₃.trans (dev₂.trans dev₁)
  constructor
  case live =>
    rw [topEq]
    ext1
    case reg =>
      funext r
      have same : (m₂.setReg .sp (m₂.reg .sp + 8#32)).regs .usr r =
          if r = .sp then m₂.reg .sp + 8#32 else m₂.reg r :=
        (reg_sys (m := m₂.setReg .sp (m₂.reg .sp + 8#32)) mode₂ r).symm.trans
          (Machine.reg_setReg _ _ _ _)
      change (rfeia m₂).regs .usr r = _
      rw [regs, same]
      simp only [saved, baseEq]
      split_ifs with pointer
      · have two : (8#32 : Word) = BitVec.ofNat 32 (4 * 2) := rfl
        rw [sp₂, two, add_words, Nat.add_assoc]
      · exact value (List.getElem?_idxOf (mem_frameRegs pointer))
    case pc => simp only [live, saved, rfeia, target, status, baseEq]
    case cpsr => simp only [live, saved, rfeia, status, baseEq]
    case ulCriticalNesting =>
      change (rfeia m₂).dev.ulCriticalNesting = _
      simp only [dev, Rtos.restored, saved]
    case ulPortTaskHasFPUContext =>
      change (rfeia m₂).dev.ulPortTaskHasFPUContext = _
      rw [dev]
      rfl
    case fpu =>
      simp only [live, dev, Rtos.restored, saved]
      split_ifs
      · rfl
      · rw [fpuIn_eq]
  case mem => exact mem.trans mem₂
  case banked =>
    intro b r other
    have moved := regsKept_setReg m₂ .sp (m₂.reg .sp + 8#32)
    rw [regs, moved b r fun here => absurd (here.trans (home_sys mode₂ r)) other,
      popped.regs b r fun here => absurd (here.trans (home_sys (mode₁.trans mode) r)) other,
      banked₁ b r fun here => other (here.trans (home_sys mode r))]
  case kernel =>
    rw [dev]
    exact ⟨rfl, rfl, rfl, rfl, rfl, rfl, rfl, rfl⟩
  case mask => simp only [dev, Rtos.restored]

end LTZVisor.NsGuest.TaskContext
