/- LTZVisor/Monitor/SmcReturn
   kind: property
   digest: Which system calls give control back to their caller in the state it called from. -/

import LTZVisor.Monitor.BoardSmc

set_option autoImplicit false
set_option relaxedAutoImplicit false

namespace LTZVisor.Monitor.SmcReturn

open LTZVisor.Lib.Memory LTZVisor.Arm LTZVisor.Arm.Instr LTZVisor.Boards.Zedboard
open LTZVisor.Monitor.Macros LTZVisor.Monitor.Handlers LTZVisor.Monitor.BoardSmc

/-- An SMC of `m` switches worlds or gives control back behind it, with the status register of
the caller and in its world. -/
def Returns (env : Env) (m : Core) : Prop :=
  ∃ m', monSmcHandler env (takeSmc m) = some m' ∧
    (m.regs .usr .r0 = ltzvisorSchedSyscall ∧ m' = exec monScheduler (atScheduler (takeSmc m)) ∨
      m'.pc = m.pc ∧ m'.cpsr = m.cpsr ∧ m'.scr &&& scrNs = m.scr &&& scrNs)

/-- The four bytes that a write call stores miss the frames of the code that stores them and
agree with the return address and with the flag and control bytes of the status register where
they hit these. -/
def StoreKeepsReturn (env : Env) (m : Core) : Prop :=
  ∀ x ∈ (⟨m.regs .usr .r1, 4⟩ : Range), x ∉ boardFrames env m ∧
    (x ∈ (⟨m.regs .mon .sp - 4#32, 4⟩ : Range) →
      byte (m.regs .usr .r2) (x - m.regs .usr .r1).toNat =
        byte m.pc (x - (m.regs .mon .sp - 4#32)).toNat) ∧
    (x = m.regs .mon .sp - 56#32 →
      byte (m.regs .usr .r2) (x - m.regs .usr .r1).toNat = byte m.cpsr.toWord 0) ∧
    (x = m.regs .mon .sp - 53#32 →
      byte (m.regs .usr .r2) (x - m.regs .usr .r1).toNat = byte m.cpsr.toWord 3)

/-- The calls that keep the return discipline. -/
def KeepsReturn (env : Env) (m : Core) : Prop :=
  m.regs .usr .r0 = ltzvisorSchedSyscall ∨
    (m.regs .usr .r0).msb = true ∧
      (m.regs .usr .r0 = ltzvisorWriteSyscall → StoreKeepsReturn env m)

section Entry

variable (env : Env) (m : Core)

private theorem back_iff {m' : Core} (run : monSmcHandler env (takeSmc m) = some m')
    (negative : (m.regs .usr .r0).msb = true) :
    (m'.pc = m.pc ↔
      read32 (boardOut (atBoardSmc (takeSmc m))).2 (m.regs .mon .sp - 4#32) = m.pc) ∧
    (m'.cpsr = m.cpsr ↔
      flagBytes (read32 (boardOut (atBoardSmc (takeSmc m))).2 (m.regs .mon .sp - 56#32)) =
        flagBytes m.cpsr.toWord) ∧ m'.scr = m.scr := by
  rw [smc_negative env (takeSmc m) negative] at run
  have back := boardReturned env (atBoardSmc (takeSmc m)) m' rfl run
  have same : ∀ a, (⟨a, 4⟩ : Range).Subset ⟨m.regs .mon .sp - 56#32, 56⟩ →
      read32 m'.mem a = read32 (boardOut (atBoardSmc (takeSmc m))).2 a := by
    intro a inside
    apply read32_congr
    intro x hx
    apply back.mem
    rw [entry_frames]
    exact frame_apart env m x (inside x hx)
  have low := same (m.regs .mon .sp - 56#32) (Range.subset_of_offset (by bv_omega))
  have high := same (m.regs .mon .sp - 4#32) (Range.subset_of_offset (by bv_omega))
  have spsr : (atBoardSmc (takeSmc m)).spsr .mon = m.cpsr.toWord := rfl
  have sp : (atBoardSmc (takeSmc m)).regs .mon .sp = m.regs .mon .sp := rfl
  refine ⟨?_, ?_, back.scr⟩
  · rw [back.pc, sp, high]
  · rw [back.cpsr, sp, low, spsr, ← msrFc_eq_old_iff]
    constructor
    · intro h
      simpa only [Psr.toWord_ofWord] using congrArg Psr.toWord h
    · intro h
      rw [h, Psr.ofWord_toWord]

private theorem store_iff (write : m.regs .usr .r0 = ltzvisorWriteSyscall)
    (clean : (⟨m.regs .usr .r1, 4⟩ : Range).Disjoint (boardFrames env m)) :
    read32 (boardOut (atBoardSmc (takeSmc m))).2 (m.regs .mon .sp - 4#32) = m.pc ∧
      flagBytes (read32 (boardOut (atBoardSmc (takeSmc m))).2 (m.regs .mon .sp - 56#32)) =
        flagBytes m.cpsr.toWord ↔ StoreKeepsReturn env m := by
  have memory : (boardOut (atBoardSmc (takeSmc m))).2 =
      write32 (argFrame (atBoardSmc (takeSmc m))) (m.regs .usr .r1) (m.regs .usr .r2) := by
    have same : (atBoardSmc (takeSmc m)).regs .usr .r0 = ltzvisorWriteSyscall := write
    have other : ltzvisorWriteSyscall ≠ ltzvisorReadSyscall := by decide
    rw [boardOut, boardHandler, same, if_neg other, if_pos rfl]
    rfl
  have pcByte : ∀ x ∈ (⟨m.regs .mon .sp - 4#32, 4⟩ : Range),
      argFrame (atBoardSmc (takeSmc m)) x = byte m.pc (x - (m.regs .mon .sp - 4#32)).toNat := by
    intro x hx
    rw [mem_range] at hx
    have place : m.regs .mon .sp - 4#32 +
        BitVec.ofNat 32 (x - (m.regs .mon .sp - 4#32)).toNat = x := by bv_omega
    rw [← entry_pc m, byte_read32 _ _ _ hx, place]
  have top : m.regs .mon .sp - 56#32 + 3#32 = m.regs .mon .sp - 53#32 := by bv_omega
  have psrByte0 : argFrame (atBoardSmc (takeSmc m)) (m.regs .mon .sp - 56#32) =
      byte m.cpsr.toWord 0 := by
    rw [← entry_psr m, byte_read32 _ _ 0 (by omega), BitVec.add_zero]
  have psrByte3 : argFrame (atBoardSmc (takeSmc m)) (m.regs .mon .sp - 53#32) =
      byte m.cpsr.toWord 3 := by
    rw [← entry_psr m, byte_read32 _ _ 3 (by omega), ← top]
  have pc := read32_write32_eq_iff (argFrame (atBoardSmc (takeSmc m))) (m.regs .usr .r1)
    (m.regs .mon .sp - 4#32) (m.regs .usr .r2)
  rw [entry_pc] at pc
  rw [memory, pc, flagBytes_eq_iff, byte_read32 _ _ 0 (by omega), byte_read32 _ _ 3 (by omega),
    BitVec.add_zero, top, write32_apply, write32_apply, ← psrByte0, ← psrByte3]
  constructor
  · rintro ⟨address, low, high⟩ x hx
    refine ⟨clean x hx, fun hx' => (address x hx hx').trans (pcByte x hx'), ?_, ?_⟩
    · rintro rfl
      rwa [if_pos hx, psrByte0] at low
    · rintro rfl
      rwa [if_pos hx, psrByte3] at high
  · intro keeps
    refine ⟨fun x hx hx' => ((keeps x hx).2.1 hx').trans (pcByte x hx').symm, ?_, ?_⟩
    · split
      case isTrue inside => exact ((keeps _ inside).2.2.1 rfl).trans psrByte0.symm
      case isFalse => rfl
    · split
      case isTrue inside => exact ((keeps _ inside).2.2.2 rfl).trans psrByte3.symm
      case isFalse => rfl

private theorem clobbers_iff : Clobbers env (atBoardSmc (takeSmc m)) ↔
    m.regs .usr .r0 = ltzvisorWriteSyscall ∧
      ¬ (⟨m.regs .usr .r1, 4⟩ : Range).Disjoint (boardFrames env m) := by
  rw [Clobbers, entry_frames]
  rfl

end Entry

theorem returns_iff (env : Env) (m : Core) (guest : m.cpsr.mode ≠ monMode) :
    Returns env m ↔ KeepsReturn env m := by
  by_cases sched : m.regs .usr .r0 = ltzvisorSchedSyscall
  · have run := smc_sched env (takeSmc m) sched
    exact iff_of_true ⟨_, run, .inl ⟨sched, rfl⟩⟩ (.inl sched)
  cases negative : (m.regs .usr .r0).msb with
  | false =>
    have run := smc_other env (takeSmc m) negative sched
    apply iff_of_false
    · -- `bx lr` leaves the caller in Monitor mode.
      rintro ⟨m', run', ⟨sched', -⟩ | ⟨-, cpsr, -⟩⟩
      · exact sched sched'
      · rw [run, Option.some_inj] at run'
        rw [← cpsr, ← run'] at guest
        exact guest rfl
    · rintro (sched' | ⟨negative', -⟩)
      · exact sched sched'
      · rw [negative] at negative'
        exact Bool.noConfusion negative'
  | true =>
    constructor
    · rintro ⟨m', run, ⟨sched', -⟩ | ⟨pc, cpsr, -⟩⟩
      · exact absurd sched' sched
      · refine .inr ⟨negative, fun write => ?_⟩
        obtain ⟨pc_iff, cpsr_iff, -⟩ := back_iff env m run negative
        have clean : ¬ Clobbers env (atBoardSmc (takeSmc m)) := by
          rw [← boardSmc_eq_none_iff env _ rfl, ← smc_negative env (takeSmc m) negative, run]
          exact Option.some_ne_none m'
        rw [clobbers_iff, not_and_not_right] at clean
        exact (store_iff env m write (clean write)).mp ⟨pc_iff.mp pc, cpsr_iff.mp cpsr⟩
    · rintro (sched' | ⟨-, keeps⟩)
      · exact absurd sched' sched
      · have clean : ¬ Clobbers env (atBoardSmc (takeSmc m)) := by
          rw [clobbers_iff, not_and_not_right]
          exact fun write x hx => (keeps write x hx).1
        have some : monSmcHandler env (takeSmc m) ≠ none := by
          rw [smc_negative env (takeSmc m) negative]
          exact fun none => clean ((boardSmc_eq_none_iff env _ rfl).mp none)
        obtain ⟨m', run⟩ := Option.ne_none_iff_exists'.mp some
        obtain ⟨pc_iff, cpsr_iff, scr⟩ := back_iff env m run negative
        refine ⟨m', run, .inr ?_⟩
        by_cases write : m.regs .usr .r0 = ltzvisorWriteSyscall
        · rw [clobbers_iff, not_and_not_right] at clean
          obtain ⟨pc, cpsr⟩ := (store_iff env m write (clean write)).mpr (keeps write)
          exact ⟨pc_iff.mpr pc, cpsr_iff.mpr cpsr, by rw [scr]⟩
        · have memory : (boardOut (atBoardSmc (takeSmc m))).2 =
              argFrame (atBoardSmc (takeSmc m)) := by
            have same : (atBoardSmc (takeSmc m)).regs .usr .r0 ≠ ltzvisorWriteSyscall := write
            rw [boardOut, boardHandler, if_neg same]
            split <;> rfl
          rw [memory, entry_pc] at pc_iff
          rw [memory, entry_psr] at cpsr_iff
          exact ⟨pc_iff.mpr rfl, cpsr_iff.mpr rfl, by rw [scr]⟩

theorem returns_iff_of_svc : (blankCore svcMode).cpsr.mode ≠ monMode ∧
    (Returns zedboard (blankCore svcMode) ↔ KeepsReturn zedboard (blankCore svcMode)) :=
  ⟨by decide, returns_iff zedboard (blankCore svcMode) (by decide)⟩

/-- A call number that nothing uses, here 0 from Supervisor mode: the caller goes on in Monitor
mode. -/
theorem unused_call_stays_in_monitor : (blankCore svcMode).cpsr.mode ≠ monMode ∧
    ¬ Returns zedboard (blankCore svcMode) ∧
      ∃ m', monSmcHandler zedboard (takeSmc (blankCore svcMode)) = some m' ∧
        m'.pc = (blankCore svcMode).pc ∧ m'.cpsr.mode = monMode := by
  have run := smc_other zedboard (takeSmc (blankCore svcMode)) (by decide) (by decide)
  refine ⟨by decide, ?_, _, run, by decide, by decide⟩
  rintro ⟨m', run', ⟨sched, -⟩ | ⟨-, cpsr, -⟩⟩
  · exact absurd sched (by decide)
  · rw [run, Option.some_inj] at run'
    rw [← run'] at cpsr
    exact absurd (congrArg Psr.mode cpsr) (by decide)

end LTZVisor.Monitor.SmcReturn
