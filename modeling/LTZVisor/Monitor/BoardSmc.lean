/- LTZVisor/Monitor/BoardSmc
   kind: spec
   digest: The SMC handler: the calls of the board, the frame they return through, the dispatch. -/

import LTZVisor.Monitor.Handlers

set_option autoImplicit false
set_option relaxedAutoImplicit false

namespace LTZVisor.Monitor.BoardSmc

open LTZVisor.Lib.Memory LTZVisor.Arm LTZVisor.Arm.Instr LTZVisor.Boards.Zedboard
open LTZVisor.Monitor.Macros LTZVisor.Monitor.Handlers

def argFrame (m : Core) : Mem :=
  writeWords m.mem (m.regs .mon .sp - 56#32)
    (m.spsr .mon :: m.capture argSlots ++ [m.regs .mon .lr])

def boardFrames (env : Env) (m : Core) : Range :=
  ⟨m.regs .mon .sp - 56#32 - BitVec.ofNat 32 env.abi.depth, env.abi.depth⟩

/-- Result and memory of the call of `board_handler` that an SMC makes. -/
def boardOut (m : Core) : Word × Mem :=
  boardHandler (m.regs .usr .r0) (m.regs .usr .r1) (m.regs .usr .r2) (m.regs .usr .r3) (argFrame m)

/-- The store of an SMC that writes into the frames of the code that does so. -/
def Clobbers (env : Env) (m : Core) : Prop :=
  m.regs .usr .r0 = ltzvisorWriteSyscall ∧
    ¬ (⟨m.regs .usr .r1, 4⟩ : Range).Disjoint (boardFrames env m)

instance (env : Env) (m : Core) : Decidable (Clobbers env m) :=
  inferInstanceAs (Decidable (_ ∧ ¬ Range.Disjoint _ _))

/-- The effect of `board_smc` on a machine that entered it. -/
structure BoardReturned (env : Env) (m m' : Core) : Prop where
  worked : ∀ s ∉ workSlots, s ≠ .spsr .mon → m'.get s = m.get s
  sp : m'.regs .mon .sp = m.regs .mon .sp
  r0 : m'.regs .usr .r0 = (boardOut m).1
  args : m'.capture argSlots = readWords m'.mem (m.regs .mon .sp - 52#32) 12
  pc : m'.pc = read32 m'.mem (m.regs .mon .sp - 4#32)
  cpsr : m'.cpsr = Psr.ofWord (msrFc (m.spsr .mon) (read32 m'.mem (m.regs .mon .sp - 56#32)))
  scr : m'.scr = m.scr
  cp15 : m'.cp15 = m.cp15
  dev : m'.dev = m.dev
  mem : ∀ x ∉ boardFrames env m, m'.mem x = (boardOut m).2 x

private theorem atCall_arg {m m1 : Core} (pushed : ArgPushed m m1) {r : Reg}
    (arg : r = .r0 ∨ r = .r1 ∨ r = .r2 ∨ r = .r3) : m1.reg r = m.regs .usr r := by
  rcases arg with rfl | rfl | rfl | rfl <;> exact pushed.others (.reg .usr _) (by simp) (by simp)

theorem atCall_frames (env : Env) {m m1 : Core} (pushed : ArgPushed m m1) (mem : Mem) :
    env.abi.frames { m1 with mem } = boardFrames env m := by
  simp [Aapcs.frames, boardFrames, pushed.mode, pushed.sp]

theorem callBoardHandler_eq (env : Env) {m m1 : Core} (pushed : ArgPushed m m1) :
    callBoardHandler env m1 =
      if Clobbers env m then none
      else some (env.abi.returnTo (some (boardOut m).1) { m1 with mem := (boardOut m).2 }) := by
  have frames : env.abi.frames m1 = boardFrames env m := atCall_frames env pushed m1.mem
  rw [callBoardHandler, frames, atCall_arg pushed (r := .r0) (by simp),
    atCall_arg pushed (r := .r1) (by simp), atCall_arg pushed (r := .r2) (by simp),
    atCall_arg pushed (r := .r3) (by simp), pushed.mem]
  rfl

theorem boardSmc_eq_none_iff (env : Env) (m : Core) (h : m.cpsr.mode = monMode) :
    boardSmc env m = none ↔ Clobbers env m := by
  rw [boardSmc, Option.map_eq_none_iff, callBoardHandler_eq env (argPushed m h)]
  split_ifs with clobbers <;> simp [clobbers]

/-- The machine to which `board_handler` returns. -/
private structure CReturned (env : Env) (m m2 : Core) : Prop where
  slots : ∀ s ∉ workSlots, m2.get s = m.get s
  sp : m2.regs .mon .sp = m.regs .mon .sp - 56#32
  r0 : m2.regs .usr .r0 = (boardOut m).1
  mode : m2.cpsr.mode = monMode
  mem : ∀ x ∉ boardFrames env m, m2.mem x = (boardOut m).2 x
  scr : m2.scr = m.scr
  cp15 : m2.cp15 = m.cp15
  dev : m2.dev = m.dev

private theorem cReturned (env : Env) {m m1 : Core} (pushed : ArgPushed m m1) :
    CReturned env m (env.abi.returnTo (some (boardOut m).1) { m1 with mem := (boardOut m).2 }) := by
  have obeyed := Aapcs.returnTo_obeyed env.abi (some (boardOut m).1)
    { m1 with mem := (boardOut m).2 }
  constructor
  case slots =>
    intro s hs
    have notR4 : s ≠ .reg .usr .r4 := fun e => hs (by simp [workSlots, e])
    have notSp : s ≠ .reg .mon .sp := fun e => hs (by simp [workSlots, e])
    rw [get_obeyed obeyed pushed.mode hs, ← pushed.others s notR4 notSp]
    cases s <;> rfl
  case sp => exact (sp_obeyed obeyed).trans pushed.sp
  case r0 => simp [Aapcs.returnTo]
  case mode => exact pushed.mode
  case mem =>
    intro x hx
    rw [← atCall_frames env pushed (boardOut m).2] at hx
    exact if_neg hx
  case scr => exact pushed.scr
  case cp15 => exact pushed.cp15
  case dev => exact pushed.dev

theorem boardReturned (env : Env) (m m' : Core) (h : m.cpsr.mode = monMode)
    (run : boardSmc env m = some m') : BoardReturned env m m' := by
  have pushed := argPushed m h
  have clean : ¬ Clobbers env m := by
    rw [← boardSmc_eq_none_iff env m h, run]
    exact Option.some_ne_none m'
  rw [boardSmc, callBoardHandler_eq env pushed, if_neg clean, Option.map_some,
    Option.some_inj] at run
  generalize exec callCFunctionArg m = m1 at *
  have returned := cReturned env pushed
  generalize env.abi.returnTo (some (boardOut m).1) { m1 with mem := (boardOut m).2 } = m2 at *
  have popped := argReturned m2 returned.mode
  rw [run, returned.sp] at popped
  have spsr : m2.spsr .mon = m.spsr .mon := returned.slots (.spsr .mon) (by simp [workSlots])
  have low : m.regs .mon .sp - 56#32 + 4#32 = m.regs .mon .sp - 52#32 := by bv_omega
  have high : m.regs .mon .sp - 56#32 + 52#32 = m.regs .mon .sp - 4#32 := by bv_omega
  constructor
  case worked =>
    intro s hs notSpsr
    have notArg : s ∉ argSlots := fun inside => hs (argSlots_subset s inside)
    have notSp : s ≠ .reg .mon .sp := fun e => hs (by simp [workSlots, e])
    rw [popped.others s notArg notSp notSpsr, returned.slots s hs]
  case sp => exact popped.sp.trans (BitVec.sub_add_cancel _ _)
  case r0 =>
    have r0 := popped.others (.reg .usr .r0) (by simp [argSlots]) (by simp) (by simp)
    exact r0.trans returned.r0
  case args => rw [popped.args, popped.mem, low]
  case pc => rw [popped.pc, popped.mem, high]
  case cpsr => rw [popped.cpsr, popped.mem, spsr]
  case scr => exact popped.scr.trans returned.scr
  case cp15 => exact popped.cp15.trans returned.cp15
  case dev => exact popped.dev.trans returned.dev
  case mem =>
    intro x hx
    rw [popped.mem, returned.mem x hx]

-- The dispatch compares r0 with 0, signed, and with the number of the scheduling call. The flags
-- it leaves are those of the machine it branches with.

def atBoardSmc (m : Core) : Core := cmn .r0 0#32 m

def atScheduler (m : Core) : Core := cmp .r0 ltzvisorSchedSyscall (atBoardSmc m)

theorem get_atBoardSmc (m : Core) {t : Slot} (notLr : t ≠ .reg .mon .lr)
    (notSpsr : t ≠ .spsr .mon) : (atBoardSmc (takeSmc m)).get t = m.get t := by
  cases t with
  | reg b r =>
    change (if b = .mon ∧ r = .lr then m.pc else m.regs b r) = m.regs b r
    exact if_neg (by simpa using notLr)
  | spsr b =>
    change (if b = .mon then m.cpsr.toWord else m.spsr b) = m.spsr b
    exact if_neg (by simpa using notSpsr)

section Entry

variable (env : Env) (m : Core)

theorem entry_frames : boardFrames env (atBoardSmc (takeSmc m)) = boardFrames env m := by
  simp [boardFrames, atBoardSmc, takeSmc, monitorException]

theorem entry_frame_eq : argFrame (atBoardSmc (takeSmc m)) =
    writeWords m.mem (m.regs .mon .sp - 56#32)
      (m.cpsr.toWord :: (atBoardSmc (takeSmc m)).capture argSlots ++ [m.pc]) := by
  simp [argFrame, atBoardSmc, takeSmc, monitorException]

theorem entry_psr :
    read32 (argFrame (atBoardSmc (takeSmc m))) (m.regs .mon .sp - 56#32) = m.cpsr.toWord := by
  have first := read32_writeWords_at m.mem (m.regs .mon .sp - 56#32)
    (m.cpsr.toWord :: (atBoardSmc (takeSmc m)).capture argSlots ++ [m.pc]) 0 rfl
    (by simp [argSlots])
  rwa [Nat.mul_zero, BitVec.add_zero, ← entry_frame_eq] at first

theorem entry_pc :
    read32 (argFrame (atBoardSmc (takeSmc m))) (m.regs .mon .sp - 4#32) = m.pc := by
  have last := read32_writeWords_at m.mem (m.regs .mon .sp - 56#32)
    (m.cpsr.toWord :: (atBoardSmc (takeSmc m)).capture argSlots ++ [m.pc]) 13 rfl
    (by simp [argSlots])
  have place : m.regs .mon .sp - 56#32 + BitVec.ofNat 32 (4 * 13) = m.regs .mon .sp - 4#32 := by
    bv_omega
  rwa [place, ← entry_frame_eq] at last

theorem entry_arg {i : Nat} {t : Slot} (slot : argSlots[i]? = some t) :
    read32 (argFrame (atBoardSmc (takeSmc m)))
      (m.regs .mon .sp - 52#32 + BitVec.ofNat 32 (4 * i)) = m.get t := by
  have inside := List.mem_of_getElem? slot
  have entry : (atBoardSmc (takeSmc m)).get t = m.get t := by
    apply get_atBoardSmc <;> rintro rfl <;> simp [argSlots] at inside
  obtain ⟨bound, -⟩ := List.getElem?_eq_some_iff.mp slot
  have bound' : i < 12 := bound
  have word : (m.cpsr.toWord :: (atBoardSmc (takeSmc m)).capture argSlots ++ [m.pc])[i + 1]? =
      some (m.get t) := by
    rw [List.cons_append, List.getElem?_cons_succ, List.getElem?_append_left (by simpa using bound)]
    simp [Machine.capture, slot, entry]
  have read := read32_writeWords_at m.mem (m.regs .mon .sp - 56#32) _ _ word (by simp [argSlots])
  have place : m.regs .mon .sp - 56#32 + BitVec.ofNat 32 (4 * (i + 1)) =
      m.regs .mon .sp - 52#32 + BitVec.ofNat 32 (4 * i) := by
    bv_omega
  rwa [place, ← entry_frame_eq] at read

theorem frame_apart : (⟨m.regs .mon .sp - 56#32, 56⟩ : Range).Disjoint (boardFrames env m) := by
  have room := env.room
  have size := env.stackSize_le
  intro x hx frames
  rw [mem_range] at hx
  rw [boardFrames, mem_range] at frames
  bv_omega

end Entry

theorem smc_negative (env : Env) (m : Core) (negative : (m.regs .usr .r0).msb = true) :
    monSmcHandler env m = boardSmc env (atBoardSmc m) := by
  simp [monSmcHandler, atBoardSmc, negative]

theorem smc_sched (env : Env) (m : Core) (sched : m.regs .usr .r0 = ltzvisorSchedSyscall) :
    monSmcHandler env m = some (exec monScheduler (atScheduler m)) := by
  have positive : ltzvisorSchedSyscall.msb = false := by decide
  simp [monSmcHandler, atScheduler, atBoardSmc, sched, positive]

theorem smc_other (env : Env) (m : Core) (positive : (m.regs .usr .r0).msb = false)
    (other : m.regs .usr .r0 ≠ ltzvisorSchedSyscall) :
    monSmcHandler env m = some (bxLr (atScheduler m)) := by
  have differ : m.regs .usr .r0 - ltzvisorSchedSyscall ≠ 0#32 := by bv_omega
  simp [monSmcHandler, atScheduler, atBoardSmc, positive, differ]

def callFrames (env : Env) (m : Core) : Range :=
  ⟨m.regs .mon .sp - BitVec.ofNat 32 (56 + env.abi.depth), 56 + env.abi.depth⟩

/-- If the call stores, it stores outside `r`. -/
def StoreMisses (m : Core) (r : Range) : Prop :=
  m.regs .usr .r0 = ltzvisorWriteSyscall → (⟨m.regs .usr .r1, 4⟩ : Range).Disjoint r

def boardResult (m : Core) (mem : Mem) : Word × Mem :=
  boardHandler (m.regs .usr .r0) (m.regs .usr .r1) (m.regs .usr .r2) (m.regs .usr .r3) mem

/-- A call of the board that does not store into the stack in use takes `m` to `m'`. -/
structure BoardCalled (env : Env) (m m' : Core) : Prop where
  others : ∀ t, t ≠ .reg .usr .r0 → t ≠ .reg .mon .lr → t ≠ .spsr .mon → m'.get t = m.get t
  r0 : m'.regs .usr .r0 = (boardResult m (argFrame (atBoardSmc (takeSmc m)))).1
  pc : m'.pc = m.pc
  cpsr : m'.cpsr = m.cpsr
  scr : m'.scr = m.scr
  cp15 : m'.cp15 = m.cp15
  dev : m'.dev = m.dev
  mem : ∀ x ∉ callFrames env m, m'.mem x = (boardResult m m.mem).2 x

private theorem trampoline_kept {env : Env} {m m' : Core}
    (misses : StoreMisses m (callFrames env m))
    (back : BoardReturned env (atBoardSmc (takeSmc m)) m') {a : Addr}
    (inside : (⟨a, 4⟩ : Range).Subset ⟨m.regs .mon .sp - 56#32, 56⟩) :
    read32 m'.mem a = read32 (argFrame (atBoardSmc (takeSmc m))) a := by
  have out : boardOut (atBoardSmc (takeSmc m)) =
      boardResult m (argFrame (atBoardSmc (takeSmc m))) := rfl
  have room := env.room
  have size := env.stackSize_le
  have arguments : (⟨m.regs .mon .sp - 56#32, 56⟩ : Range).Subset (callFrames env m) :=
    Range.subset_of_offset (by bv_omega)
  apply read32_congr
  intro x hx
  rw [back.mem x, out, boardResult, boardHandler_mem, if_neg]
  · rintro ⟨write, hit⟩
    exact misses write x hit (arguments x (inside x hx))
  · rw [entry_frames]
    exact frame_apart env m x (inside x hx)

private theorem args_kept {env : Env} {m m' : Core} (misses : StoreMisses m (callFrames env m))
    (back : BoardReturned env (atBoardSmc (takeSmc m)) m') :
    ∀ t ∈ argSlots, m'.get t = m.get t := by
  intro t ht
  obtain ⟨i, slot⟩ := List.mem_iff_getElem?.mp ht
  obtain ⟨bound, -⟩ := List.getElem?_eq_some_iff.mp slot
  have bound' : i < 12 := bound
  have word := Machine.read32_of_capture back.args.symm slot
  have pushed := trampoline_kept (a := m.regs .mon .sp - 52#32 + BitVec.ofNat 32 (4 * i))
    misses back (Range.subset_of_offset (by bv_omega))
  rw [entry_arg m slot] at pushed
  exact word.symm.trans pushed

theorem boardCalled {env : Env} {m m' : Core} (negative : (m.regs .usr .r0).msb = true)
    (run : monSmcHandler env (takeSmc m) = some m') (misses : StoreMisses m (callFrames env m)) :
    BoardCalled env m m' := by
  rw [smc_negative env (takeSmc m) negative] at run
  have back := boardReturned env (atBoardSmc (takeSmc m)) m' rfl run
  have room := env.room
  have size := env.stackSize_le
  have frames : (boardFrames env m).Subset (callFrames env m) :=
    Range.subset_of_offset (by bv_omega)
  have out : boardOut (atBoardSmc (takeSmc m)) =
      boardResult m (argFrame (atBoardSmc (takeSmc m))) := rfl
  have sp : (atBoardSmc (takeSmc m)).regs .mon .sp = m.regs .mon .sp := rfl
  have spsr : (atBoardSmc (takeSmc m)).spsr .mon = m.cpsr.toWord := rfl
  have psr := trampoline_kept (a := m.regs .mon .sp - 56#32) misses back
    (Range.subset_of_offset (by bv_omega))
  have pc := trampoline_kept (a := m.regs .mon .sp - 4#32) misses back
    (Range.subset_of_offset (by bv_omega))
  rw [entry_psr] at psr
  rw [entry_pc] at pc
  constructor
  case others =>
    intro t notR0 notLr notSpsr
    by_cases inside : t ∈ argSlots
    · exact args_kept misses back t inside
    · by_cases isSp : t = .reg .mon .sp
      · rw [isSp]
        exact back.sp
      · have outside : t ∉ workSlots := by
          simp only [argSlots, List.mem_cons, List.not_mem_nil, or_false, not_or] at inside
          simp [workSlots, inside, isSp, notR0, notLr]
        rw [back.worked t outside notSpsr, get_atBoardSmc m notLr notSpsr]
  case r0 => rw [back.r0, out]
  case pc => rw [back.pc, sp, pc]
  case cpsr => rw [back.cpsr, sp, spsr, psr, msrFc_self, Psr.ofWord_toWord]
  case scr => exact back.scr
  case cp15 => exact back.cp15
  case dev => exact back.dev
  case mem =>
    intro x hx
    have outside : x ∉ boardFrames env (atBoardSmc (takeSmc m)) := by
      rw [entry_frames]
      exact fun inside => hx (frames x inside)
    have same : argFrame (atBoardSmc (takeSmc m)) x = m.mem x := by
      rw [entry_frame_eq]
      apply writeWords_of_not_mem
      exact fun inside => hx (Range.subset_of_offset (by simp [argSlots]; bv_omega) x inside)
    rw [back.mem x outside, out, boardResult, boardResult, boardHandler_mem, boardHandler_mem, same]

end LTZVisor.Monitor.BoardSmc
