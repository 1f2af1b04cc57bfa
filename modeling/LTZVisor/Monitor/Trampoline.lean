/- LTZVisor/Monitor/Trampoline
   kind: property
   digest: What the frame of `board_smc` gives back to a caller, whatever C code it calls. -/

import LTZVisor.Monitor.BoardSmc

set_option autoImplicit false
set_option relaxedAutoImplicit false

namespace LTZVisor.Monitor.Trampoline

open LTZVisor.Lib.Memory LTZVisor.Arm LTZVisor.Arm.Instr LTZVisor.Boards.Zedboard
open LTZVisor.Monitor.Macros LTZVisor.Monitor.Handlers LTZVisor.Monitor.BoardSmc

/-- The SMC handler over any C function in the place of `board_handler`; `none` when that does not
return. -/
def monSmcWith (handler : Core → Option Core) (m : Core) : Option Core :=
  let m := cmn .r0 0#32 m
  if m.cpsr.n ≠ m.cpsr.v then
    (handler (exec callCFunctionArg m)).map (exec exceptionReturnArg)
  else
    let m := cmp .r0 ltzvisorSchedSyscall m
    if m.cpsr.z then some (exec monScheduler m) else some (bxLr m)

private theorem monSmcHandler_eq (env : Env) :
    monSmcHandler env = monSmcWith (callBoardHandler env) := rfl

/-- The machine in which the C function is called for an SMC of `m`. -/
def atHandler (m : Core) : Core := exec callCFunctionArg (atBoardSmc (takeSmc m))

def trampoline (m : Core) : Range := ⟨m.regs .mon .sp - 56#32, 56⟩

/-- Control is back at `m'` behind the SMC of `m`; `m2` is where the C function returned. Of the
registers of Monitor mode, lr and the SPSR were overwritten by the exception and by the call. -/
structure Transparent (m m2 m' : Core) : Prop where
  pc : m'.pc = m.pc
  cpsr : m'.cpsr = m.cpsr
  r0 : m'.regs .usr .r0 = m2.regs .usr .r0
  regs : ∀ b r, ¬(b = .usr ∧ r = .r0) → ¬(b = .mon ∧ r = .lr) → m'.regs b r = m.regs b r
  spsr : ∀ b, b ≠ .mon → m'.spsr b = m.spsr b
  spsrMon : m'.spsr .mon = m.cpsr.toWord
  scr : m'.scr = m.scr
  mem : m'.mem = m2.mem
  below : ∀ x ∉ trampoline m, (atHandler m).mem x = m.mem x

/-- The same for every banked register, those of Monitor mode with the others. -/
structure AsBefore (m m2 m' : Core) : Prop extends Transparent m m2 m' where
  lrSame : m'.regs .mon .lr = m.regs .mon .lr
  spsrSame : m'.spsr .mon = m.spsr .mon

/-- The words that `board_smc` pops are those that it pushed, but for the status and extension bytes
of the SPSR, which are not written back. -/
structure FrameKept (m m2 : Core) : Prop where
  psr : flagBytes (read32 m2.mem (m.regs .mon .sp - 56#32)) = flagBytes m.cpsr.toWord
  args : readWords m2.mem (m.regs .mon .sp - 52#32) 12 = m.capture argSlots
  pc : read32 m2.mem (m.regs .mon .sp - 4#32) = m.pc

private theorem atHandler_pushed (m : Core) : ArgPushed (atBoardSmc (takeSmc m)) (atHandler m) :=
  argPushed _ rfl

private theorem atHandler_spsr (m : Core) : (atHandler m).spsr .mon = m.cpsr.toWord :=
  (atHandler_pushed m).others (.spsr .mon) (by simp) (by simp)

private theorem get_atHandler (m : Core) {s : Slot} (notR4 : s ≠ .reg .usr .r4)
    (notSp : s ≠ .reg .mon .sp)
    (notLr : s ≠ .reg .mon .lr) (notSpsr : s ≠ .spsr .mon) : (atHandler m).get s = m.get s :=
  ((atHandler_pushed m).others s notR4 notSp).trans (get_atBoardSmc m notLr notSpsr)

private theorem atHandler_below (m : Core) : ∀ x ∉ trampoline m, (atHandler m).mem x = m.mem x := by
  intro x outside
  rw [(atHandler_pushed m).mem, ← argFrame, entry_frame_eq]
  exact writeWords_of_not_mem (by simpa [trampoline, argSlots] using outside)

variable {m m2 m' : Core}

private theorem frameKept_of_untouched (same : ∀ x ∈ trampoline m, m2.mem x = (atHandler m).mem x) :
    FrameKept m m2 := by
  have word : ∀ a, (⟨a, 4⟩ : Range).Subset (trampoline m) →
      read32 m2.mem a = read32 (argFrame (atBoardSmc (takeSmc m))) a := by
    intro a inside
    rw [argFrame, ← (atHandler_pushed m).mem]
    exact read32_congr fun x hx => same x (inside x hx)
  constructor
  case psr => rw [word _ (Range.subset_of_offset (by bv_omega)), entry_psr]
  case args =>
    apply List.ext_getElem (by simp [argSlots])
    intro i hi hi'
    have slot : argSlots[i]? = some (argSlots.get ⟨i, by simpa using hi'⟩) := by simp
    have bound : i < 12 := by simpa using hi
    simp only [readWords, List.getElem_map, List.getElem_range]
    rw [word _ (Range.subset_of_offset (by bv_omega)), entry_arg m slot]
    simp [Machine.capture]
  case pc => rw [word _ (Range.subset_of_offset (by bv_omega)), entry_pc]

/-- The return pops the frame at the stack pointer that the function has kept. -/
private theorem handler_returned (obeyed : Aapcs.Obeyed (atHandler m) m2) :
    ArgReturned (m.regs .mon .sp - 56#32) m2 (exec exceptionReturnArg m2) := by
  have pushed := atHandler_pushed m
  have sp : m2.regs .mon .sp = m.regs .mon .sp - 56#32 := (sp_obeyed obeyed).trans pushed.sp
  rw [← sp]
  exact argReturned m2 (obeyed.mode.trans pushed.mode)

private theorem get_handler (obeyed : Aapcs.Obeyed (atHandler m) m2) {s : Slot} (hs : s ∉ workSlots)
    (notSpsr : s ≠ .spsr .mon) : m2.get s = m.get s := by
  have notR4 : s ≠ .reg .usr .r4 := fun e => hs (by simp [workSlots, e])
  have notSp : s ≠ .reg .mon .sp := fun e => hs (by simp [workSlots, e])
  have notLr : s ≠ .reg .mon .lr := fun e => hs (by simp [workSlots, e])
  rw [get_obeyed obeyed (atHandler_pushed m).mode hs, get_atHandler m notR4 notSp notLr notSpsr]

/-- What `board_smc` gives back after any C function. -/
private theorem transparent_iff_of_obeyed (obeyed : Aapcs.Obeyed (atHandler m) m2) :
    Transparent m m2 (exec exceptionReturnArg m2) ↔ FrameKept m m2 := by
  have popped := handler_returned obeyed
  generalize exec exceptionReturnArg m2 = m' at popped
  have low : m.regs .mon .sp - 56#32 + 4#32 = m.regs .mon .sp - 52#32 := by bv_omega
  have high : m.regs .mon .sp - 56#32 + 52#32 = m.regs .mon .sp - 4#32 := by bv_omega
  have spsr : m2.spsr .mon = m.cpsr.toWord := by rw [obeyed.spsr, atHandler_spsr]
  have pc := popped.pc
  have args := popped.args
  have cpsr := popped.cpsr
  rw [high] at pc
  rw [low] at args
  rw [spsr] at cpsr
  constructor
  · intro transparent
    constructor
    case psr =>
      rw [← msrFc_eq_old_iff, ← Psr.toWord_ofWord (msrFc _ _), ← cpsr, transparent.cpsr]
    case args =>
      rw [← args]
      apply Machine.capture_congr
      intro s inside
      cases s with
      | reg b r =>
        apply transparent.regs b r <;> rintro ⟨rfl, rfl⟩ <;> simp [argSlots] at inside
      | spsr b => simp [argSlots] at inside
    case pc => rw [← pc, transparent.pc]
  · intro kept
    have slots : ∀ s, s ≠ .reg .usr .r0 → s ≠ .reg .mon .lr → s ≠ .spsr .mon →
        m'.get s = m.get s := by
      intro s notR0 notLr notSpsr
      by_cases inside : s ∈ argSlots
      · obtain ⟨i, slot⟩ := List.mem_iff_getElem?.mp inside
        have saved := args.trans kept.args
        have word := congrArg (fun ws => ws[i]?) saved
        simpa [Machine.capture, slot] using word
      · by_cases isSp : s = .reg .mon .sp
        · rw [isSp]
          exact popped.sp.trans (BitVec.sub_add_cancel _ _)
        · have outside : s ∉ workSlots := by
            simp only [argSlots, List.mem_cons, List.not_mem_nil, or_false, not_or] at inside
            simp [workSlots, inside, isSp, notR0, notLr]
          rw [popped.others s inside isSp notSpsr, get_handler obeyed outside notSpsr]
    constructor
    case pc => rw [pc, kept.pc]
    case cpsr => rw [cpsr, (msrFc_eq_old_iff _ _).mpr kept.psr, Psr.ofWord_toWord]
    case r0 => exact popped.others (.reg .usr .r0) (by simp [argSlots]) (by simp) (by simp)
    case regs =>
      intro b r notR0 notLr
      exact slots (.reg b r) (by simpa using notR0) (by simpa using notLr) (by simp)
    case spsr =>
      intro b notMon
      exact slots (.spsr b) (by simp) (by simp) (by simpa using notMon)
    case spsrMon => rw [popped.spsr, spsr, (msrFc_eq_old_iff _ _).mpr kept.psr]
    case scr => rw [popped.scr, obeyed.scr, (atHandler_pushed m).scr]; rfl
    case mem => exact popped.mem
    case below => exact atHandler_below m

private theorem smc_run (handler : Core → Option Core) (negative : (m.regs .usr .r0).msb = true)
    (returns : handler (atHandler m) = some m2) :
    monSmcWith handler (takeSmc m) = some (exec exceptionReturnArg m2) := by
  have branch : monSmcWith handler (takeSmc m) =
      (handler (atHandler m)).map (exec exceptionReturnArg) := by
    have taken : ((takeSmc m).regs .usr .r0).msb = true := negative
    simp [monSmcWith, atHandler, atBoardSmc, taken]
  rw [branch, returns, Option.map_some]

section Board

variable (env : Env)

private theorem callBoardHandler_obeyed {m1 : Core} (run : callBoardHandler env m1 = some m2) :
    Aapcs.Obeyed m1 m2 := by
  unfold callBoardHandler at run
  split at run
  case isTrue => cases run
  case isFalse =>
    cases run
    have obeyed := Aapcs.returnTo_obeyed env.abi
      (some (boardHandler (m1.reg .r0) (m1.reg .r1) (m1.reg .r2) (m1.reg .r3) m1.mem).1)
      { m1 with mem := (boardHandler (m1.reg .r0) (m1.reg .r1) (m1.reg .r2) (m1.reg .r3) m1.mem).2 }
    exact ⟨obeyed.regs, obeyed.spsr, obeyed.mode, obeyed.scr⟩

private theorem callBoardHandler_returns (m : Core)
    (misses : m.regs .usr .r0 = ltzvisorWriteSyscall →
    (⟨m.regs .usr .r1, 4⟩ : Range).Disjoint (boardFrames env m)) :
    callBoardHandler env (atHandler m) =
      some (env.abi.returnTo (some (boardOut (atBoardSmc (takeSmc m))).1)
        { atHandler m with mem := (boardOut (atBoardSmc (takeSmc m))).2 }) := by
  rw [callBoardHandler_eq env (atHandler_pushed m), if_neg]
  rintro ⟨write, hits⟩
  rw [entry_frames] at hits
  exact hits (misses write)

private theorem returnTo_mem (m : Core) {x : Addr} (outside : x ∉ boardFrames env m) :
    (env.abi.returnTo (some (boardOut (atBoardSmc (takeSmc m))).1)
      { atHandler m with mem := (boardOut (atBoardSmc (takeSmc m))).2 }).mem x =
        if m.regs .usr .r0 = ltzvisorWriteSyscall ∧ x ∈ (⟨m.regs .usr .r1, 4⟩ : Range) then
          byte (m.regs .usr .r2) (x - m.regs .usr .r1).toNat
        else (atHandler m).mem x := by
  have pushed := atHandler_pushed m
  rw [← entry_frames, ← atCall_frames env pushed (boardOut (atBoardSmc (takeSmc m))).2] at outside
  rw [pushed.mem]
  exact (if_neg outside).trans (boardHandler_mem _ _ _ _ _ x)

private theorem board_transparent (m : Core) (negative : (m.regs .usr .r0).msb = true)
    (other : m.regs .usr .r0 ≠ ltzvisorWriteSyscall) :
    ∃ m2 m', callBoardHandler env (atHandler m) = some m2 ∧
      monSmcHandler env (takeSmc m) = some m' ∧ Transparent m m2 m' := by
  have returns := callBoardHandler_returns env m fun write => absurd write other
  have obeyed := callBoardHandler_obeyed env returns
  have run := smc_run (callBoardHandler env) negative returns
  rw [← monSmcHandler_eq] at run
  refine ⟨_, _, returns, run, (transparent_iff_of_obeyed obeyed).mpr (frameKept_of_untouched ?_)⟩
  intro x inside
  rw [returnTo_mem env m (frame_apart env m x inside), if_neg fun store => other store.1]

private theorem board_redirected (m : Core) (write : m.regs .usr .r0 = ltzvisorWriteSyscall)
    (address : m.regs .usr .r1 = m.regs .mon .sp - 4#32) :
    ∃ m2 m', callBoardHandler env (atHandler m) = some m2 ∧
      monSmcHandler env (takeSmc m) = some m' ∧ m'.pc = m.regs .usr .r2 := by
  have negative : (m.regs .usr .r0).msb = true := by rw [write]; decide
  have inside : (⟨m.regs .usr .r1, 4⟩ : Range).Subset ⟨m.regs .mon .sp - 56#32, 56⟩ := by
    rw [address]
    exact Range.subset_of_offset (by bv_omega)
  have apart : (⟨m.regs .usr .r1, 4⟩ : Range).Disjoint (boardFrames env m) :=
    (frame_apart env m).mono inside (Range.Subset.refl _)
  have returns := callBoardHandler_returns env m fun _ => apart
  have popped := handler_returned (callBoardHandler_obeyed env returns)
  have run := smc_run (callBoardHandler env) negative returns
  rw [← monSmcHandler_eq] at run
  refine ⟨_, _, returns, run, popped.pc.trans ?_⟩
  have place : m.regs .mon .sp - 56#32 + 52#32 = m.regs .usr .r1 := by
    rw [address]
    bv_omega
  rw [place]
  apply word_ext
  intro i hi
  have stored : m.regs .usr .r1 + BitVec.ofNat 32 i ∈ (⟨m.regs .usr .r1, 4⟩ : Range) := by
    rw [mem_range]
    bv_omega
  rw [byte_read32 _ _ i hi, returnTo_mem env m (apart _ stored), if_pos ⟨write, stored⟩]
  congr 1
  bv_omega

end Board

def caller (r0 r1 r2 : Word) : Core :=
  { blankCore svcMode with
    regs := fun b r =>
      match b, r with
      | .usr, .r0 => r0
      | .usr, .r1 => r1
      | .usr, .r2 => r2
      | .mon, .sp => zedboard.stackTop
      | _, _ => 0#32 }

def reader : Core := caller ltzvisorReadSyscall 0#32 0#32
def writer : Core := caller ltzvisorWriteSyscall (zedboard.stackTop - 4#32) 0x8000#32

/-- An SMC with a negative r0 comes back from every C function that does, and it is transparent
exactly when the frame is kept. -/
theorem transparent_iff (handler : Core → Option Core) (m m2 : Core)
    (negative : (m.regs .usr .r0).msb = true) (returns : handler (atHandler m) = some m2)
    (obeyed : Aapcs.Obeyed (atHandler m) m2) :
    ∃ m', monSmcWith handler (takeSmc m) = some m' ∧
      (Transparent m m2 m' ↔ FrameKept m m2) :=
  ⟨_, smc_run handler negative returns, transparent_iff_of_obeyed obeyed⟩

theorem transparent_iff_read :
    ∃ m2 m', callBoardHandler zedboard (atHandler reader) = some m2 ∧
      monSmcWith (callBoardHandler zedboard) (takeSmc reader) = some m' ∧
      (Transparent reader m2 m' ↔ FrameKept reader m2) := by
  have returns := callBoardHandler_returns zedboard reader fun write => absurd write (by decide)
  obtain ⟨m', run, transparent⟩ := transparent_iff (callBoardHandler zedboard) reader _ (by decide)
    returns (callBoardHandler_obeyed zedboard returns)
  exact ⟨_, m', returns, run, transparent⟩

/-- The SPSR of Monitor mode holds the status register of the caller when the reading call is done,
and the storing one goes on at the address that it stored. -/
theorem monitor_bank_overwritten :
    (∃ m2 m', callBoardHandler zedboard (atHandler reader) = some m2 ∧
      Aapcs.Obeyed (atHandler reader) m2 ∧
      monSmcHandler zedboard (takeSmc reader) = some m' ∧
      Transparent reader m2 m' ∧ ¬AsBefore reader m2 m') ∧
    ∃ m2 m', callBoardHandler zedboard (atHandler writer) = some m2 ∧
      Aapcs.Obeyed (atHandler writer) m2 ∧
      monSmcHandler zedboard (takeSmc writer) = some m' ∧ ¬Transparent writer m2 m' := by
  constructor
  · obtain ⟨m2, m', returns, run, transparent⟩ :=
      board_transparent zedboard reader (by decide) (by decide)
    refine ⟨m2, m', returns, callBoardHandler_obeyed zedboard returns, run, transparent, ?_⟩
    intro before
    have same : reader.cpsr.toWord = reader.spsr .mon :=
      transparent.spsrMon.symm.trans before.spsrSame
    exact absurd same (by decide)
  · obtain ⟨m2, m', returns, run, pc⟩ := board_redirected zedboard writer rfl rfl
    refine ⟨m2, m', returns, callBoardHandler_obeyed zedboard returns, run, ?_⟩
    intro transparent
    have same : writer.regs .usr .r2 = writer.pc := pc.symm.trans transparent.pc
    exact absurd same (by decide)

end LTZVisor.Monitor.Trampoline
