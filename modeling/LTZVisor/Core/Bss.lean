/- LTZVisor/Core/Bss
   kind: property
   digest: The bss cleared at boot, by the hypervisor and by the non-secure guest. -/

import LTZVisor.Lib.Block
import LTZVisor.Lib.Loop
import LTZVisor.Arm.Cond

set_option autoImplicit false
set_option relaxedAutoImplicit false

namespace LTZVisor.Core.Bss

open LTZVisor.Lib.Memory LTZVisor.Lib.Block LTZVisor.Lib.Loop LTZVisor.Arm LTZVisor.Arm.Instr

variable {D : Type}

def initPass (m : Machine D) : Turn (Machine D) (Machine D) :=
  let m := cmpReg .r1 .r2 m
  if m.cpsr.gt then .leave m else .again (strPost .r0 .r1 m)

def initEntry (start stop : Addr) : List (Instr D) :=
  [movImm .r1 start, movImm .r2 stop, movImm .r0 0#32]

/-- With `_SW_BSS_START` and `_SW_BSS_END`. -/
def cEnvironmentInit (start stop : Addr) (fuel : Nat) (m : Machine D) : Option (Machine D) :=
  (loop initPass fuel (exec (initEntry start stop) m)).map movPcLr

def clearPass (m : Machine D) : Turn (Machine D) (Machine D) :=
  let m := onlyIf Psr.lt (stmiaW .r1 [.r3]) (cmpReg .r1 .r2 m)
  if m.cpsr.lt then .again m else .leave m

def clearEntry (start stop : Addr) : List (Instr D) :=
  [push [.r1, .r2, .r3], movImm .r1 start, movImm .r2 stop, movImm .r3 0#32]

/-- With `__bss_start__` and `__bss_end__`. -/
def clearBss (start stop : Addr) (fuel : Nat) (m : Machine D) : Option (Machine D) :=
  (loop clearPass fuel (exec (clearEntry start stop) m)).map (exec [pop [.r1, .r2, .r3], bxLr])

/-- `c_environment_init` returns with the bytes from `start` to `stop` zero and all others as they
were. -/
def ClearsExactly (start stop : Addr) (m : Machine D) : Prop :=
  ∃ m', (∃ fuel, cEnvironmentInit start stop fuel m = some m') ∧
    m'.mem = filled m.mem ⟨start, (stop - start).toNat⟩ 0#8

/-- It leaves the memory that `clear_bss` leaves, but for the registers this one pushes. -/
def AgreesWithClearBss (start stop : Addr) (m : Machine D) : Prop :=
  ∃ m' m'', (∃ fuel, cEnvironmentInit start stop fuel m = some m') ∧
    (∃ fuel, clearBss start stop fuel m = some m'') ∧
    ∀ x ∉ (⟨m.reg .sp - 12#32, 12⟩ : Range), m'.mem x = m''.mem x

/-- A word stored through r1, which moves on. -/
structure Stored (zero : Reg) (m m' : Machine D) : Prop where
  mem : m'.mem = write32 m.mem (m.regs .usr .r1) (m.regs .usr zero)
  pointer : m'.regs .usr .r1 = m.regs .usr .r1 + 4#32
  zero : m'.regs .usr zero = m.regs .usr zero
  stop : m'.regs .usr .r2 = m.regs .usr .r2

/-- `k` words are zero, and r1 points behind them. -/
structure Zeroing (zero : Reg) (mem : Mem) (start stop : Addr) (k : Nat) (m : Machine D) :
    Prop where
  mem : m.mem = filled mem ⟨start, 4 * k⟩ 0#8
  pointer : m.regs .usr .r1 = start + BitVec.ofNat 32 (4 * k)
  zero : m.regs .usr zero = 0#32
  stop : m.regs .usr .r2 = stop

theorem Zeroing.next {zero : Reg} {mem : Mem} {start stop : Addr} {k : Nat} {m m' : Machine D}
    (h : Zeroing zero mem start stop k m) (stored : Stored zero m m') (room : k < 2 ^ 30) :
    Zeroing zero mem start stop (k + 1) m' where
  mem := by
    rw [stored.mem, h.mem, h.pointer, h.zero, filled_word (by omega), Nat.mul_succ]
  pointer := by
    rw [stored.pointer, h.pointer]
    bv_omega
  zero := stored.zero.trans h.zero
  stop := stored.stop.trans h.stop

private theorem initPass_turn (m : Machine D) :
    if (m.regs .usr .r2).slt (m.regs .usr .r1) then ∃ m', initPass m = .leave m' ∧ m'.mem = m.mem
    else ∃ m', initPass m = .again m' ∧ Stored .r0 m m' := by
  have gt : (cmpReg .r1 .r2 m).cpsr.gt = (m.regs .usr .r2).slt (m.regs .usr .r1) :=
    gt_cmp m .r1 (m.reg .r2)
  rw [← gt]
  split
  case isTrue above => exact ⟨cmpReg .r1 .r2 m, if_pos above, rfl⟩
  case isFalse more =>
    refine ⟨strPost .r0 .r1 (cmpReg .r1 .r2 m), if_neg more, ?_⟩
    constructor <;> simp

private theorem clearPass_turn (m : Machine D) :
    if (m.regs .usr .r1).slt (m.regs .usr .r2) then
      ∃ m', clearPass m = .again m' ∧ Stored .r3 m m'
    else ∃ m', clearPass m = .leave m' ∧ m'.mem = m.mem := by
  have lt : (cmpReg .r1 .r2 m).cpsr.lt = (m.regs .usr .r1).slt (m.regs .usr .r2) :=
    lt_cmp m .r1 (m.reg .r2)
  rw [← lt]
  split
  case isTrue more =>
    refine ⟨stmiaW .r1 [.r3] (cmpReg .r1 .r2 m), ?_, ?_⟩
    · rw [clearPass, onlyIf, if_pos more]
      exact if_pos more
    · constructor <;> simp
  case isFalse done =>
    refine ⟨cmpReg .r1 .r2 m, ?_, rfl⟩
    rw [clearPass, onlyIf, if_neg done]
    exact if_neg done

/-- The words from `start` to `stop`, in the lower half of the address space. -/
structure WordBlock (start stop : Addr) : Prop where
  startAligned : start.toNat % 4 = 0
  stopAligned : stop.toNat % 4 = 0
  ordered : start.toNat ≤ stop.toNat
  low : stop.toNat < 2 ^ 31

theorem WordBlock.room {start stop : Addr} (block : WordBlock start stop)
    (last : stop ≠ 0x7FFFFFFC#32) : stop.toNat + 4 < 2 ^ 31 := by
  have aligned := block.stopAligned
  have low := block.low
  have other : stop.toNat ≠ 0x7FFFFFFC := fun same => last (BitVec.eq_of_toNat_eq same)
  omega

section Loops

variable {mem : Mem} {start stop : Addr}

private theorem slt_iff {x y : Word} (hx : x.toNat < 2 ^ 31) (hy : y.toNat < 2 ^ 31) :
    x.slt y = true ↔ x.toNat < y.toNat := by
  rw [BitVec.slt_iff_toInt_lt, BitVec.toInt_eq_toNat_of_lt (by omega),
    BitVec.toInt_eq_toNat_of_lt (by omega), Int.ofNat_lt]

theorem Zeroing.pointer_toNat {zero : Reg} {k : Nat} {m : Machine D}
    (h : Zeroing zero mem start stop k m) (fits : start.toNat + 4 * k < 2 ^ 32) :
    (m.regs .usr .r1).toNat = start.toNat + 4 * k := by
  rw [h.pointer]
  bv_omega

theorem init_returns (block : WordBlock start stop) (room : stop.toNat + 4 < 2 ^ 31)
    {m : Machine D} (entry : Zeroing .r0 mem start stop 0 m) :
    ∃ m', Returns initPass m m' ∧ m'.mem = filled mem ⟨start, (stop - start).toNat + 4⟩ 0#8 := by
  obtain ⟨startAligned, stopAligned, ordered, -⟩ := block
  have size : (stop - start).toNat = stop.toNat - start.toNat := by bv_omega
  apply returns_of_measure
    (fun m => ∃ k, Zeroing .r0 mem start stop k m ∧ start.toNat + 4 * k ≤ stop.toNat + 4) _
    fun m => stop.toNat + 8 - (m.regs .usr .r1).toNat
  case start => exact ⟨0, entry, by omega⟩
  rintro m ⟨k, h, below⟩
  have pointer := h.pointer_toNat (by omega)
  have above : (m.regs .usr .r2).slt (m.regs .usr .r1) = true ↔
      stop.toNat < start.toNat + 4 * k := by
    rw [h.stop, slt_iff (by omega) (by omega), pointer]
  have turn := initPass_turn m
  split at turn
  case isTrue past =>
    obtain ⟨m', leave, same⟩ := turn
    have behind := above.mp past
    have last : 4 * k = (stop - start).toNat + 4 := by omega
    exact .inr ⟨m', leave, by rw [same, h.mem, last]⟩
  case isFalse more =>
    obtain ⟨m', again, stored⟩ := turn
    have inside : ¬stop.toNat < start.toNat + 4 * k := fun past => more (above.mpr past)
    have h' := h.next stored (by omega)
    have pointer' := h'.pointer_toNat (by omega)
    exact .inl ⟨m', again, ⟨k + 1, h', by omega⟩, by omega⟩

/-- As a signed number, no address of a word is above 0x7FFFFFFC. -/
theorem init_runs_on (startAligned : start.toNat % 4 = 0) {m : Machine D}
    (entry : Zeroing .r0 mem start 0x7FFFFFFC#32 0 m) (m' : Machine D) :
    ¬Returns initPass m m' := by
  apply not_returns fun m : Machine D =>
    (m.regs .usr .r1).toNat % 4 = 0 ∧ m.regs .usr .r2 = 0x7FFFFFFC#32
  case start =>
    refine ⟨?_, entry.stop⟩
    rw [entry.pointer_toNat (by omega)]
    omega
  rintro m ⟨aligned, stop⟩
  have below : (m.regs .usr .r2).slt (m.regs .usr .r1) = false := by
    have bound := (m.regs .usr .r1).isLt
    rw [stop, BitVec.slt_eq_decide, decide_eq_false_iff_not, BitVec.toInt_eq_toNat_cond,
      BitVec.toInt_eq_toNat_cond]
    simp only [BitVec.toNat_ofNat]
    grind
  have turn := initPass_turn m
  rw [below] at turn
  obtain ⟨m', again, stored⟩ := turn
  refine ⟨m', again, ?_, stored.stop.trans stop⟩
  rw [stored.pointer]
  bv_omega

private theorem clear_returns (block : WordBlock start stop) {m : Machine D}
    (entry : Zeroing .r3 mem start stop 0 m) :
    ∃ m', Returns clearPass m m' ∧ m'.mem = filled mem ⟨start, (stop - start).toNat⟩ 0#8 := by
  obtain ⟨startAligned, stopAligned, ordered, low⟩ := block
  have size : (stop - start).toNat = stop.toNat - start.toNat := by bv_omega
  apply returns_of_measure
    (fun m => ∃ k, Zeroing .r3 mem start stop k m ∧ start.toNat + 4 * k ≤ stop.toNat) _
    fun m => stop.toNat + 4 - (m.regs .usr .r1).toNat
  case start => exact ⟨0, entry, by omega⟩
  rintro m ⟨k, h, below⟩
  have pointer := h.pointer_toNat (by omega)
  have inside : (m.regs .usr .r1).slt (m.regs .usr .r2) = true ↔
      start.toNat + 4 * k < stop.toNat := by
    rw [h.stop, slt_iff (by omega) (by omega), pointer]
  have turn := clearPass_turn m
  split at turn
  case isTrue more =>
    obtain ⟨m', again, stored⟩ := turn
    have room := inside.mp more
    have h' := h.next stored (by omega)
    have pointer' := h'.pointer_toNat (by omega)
    exact .inl ⟨m', again, ⟨k + 1, h', by omega⟩, by omega⟩
  case isFalse done =>
    obtain ⟨m', leave, same⟩ := turn
    have outside : ¬start.toNat + 4 * k < stop.toNat := fun more => done (inside.mpr more)
    have last : 4 * k = (stop - start).toNat := by omega
    exact .inr ⟨m', leave, by rw [same, h.mem, last]⟩

end Loops

section Boot

variable {start stop : Addr} (m : Machine D)

theorem initEntry_zeroing (start stop : Addr) :
    Zeroing .r0 m.mem start stop 0 (exec (initEntry start stop) m) := by
  constructor <;> simp [initEntry]

private theorem clearEntry_zeroing (start stop : Addr) :
    Zeroing .r3 (exec (clearEntry start stop) m).mem start stop 0
      (exec (clearEntry start stop) m) := by
  constructor <;> simp [clearEntry]

private theorem clearEntry_mem (start stop : Addr) {x : Addr}
    (outside : x ∉ (⟨m.reg .sp - 12#32, 12⟩ : Range)) :
    (exec (clearEntry start stop) m).mem x = m.mem x := by
  simp only [clearEntry, exec_cons, exec_nil, push, movImm, stmfd, Machine.setReg, Machine.setPhys]
  exact writeWords_of_not_mem outside

theorem cEnvironmentInit_eq_some_iff {m m' : Machine D} :
    (∃ fuel, cEnvironmentInit start stop fuel m = some m') ↔
      ∃ m₁, Returns initPass (exec (initEntry start stop) m) m₁ ∧ movPcLr m₁ = m' := by
  simp only [cEnvironmentInit, Option.map_eq_some_iff, Returns]
  constructor
  · rintro ⟨fuel, m₁, run, rfl⟩
    exact ⟨m₁, ⟨fuel, run⟩, rfl⟩
  · rintro ⟨m₁, ⟨fuel, run⟩, rfl⟩
    exact ⟨fuel, m₁, run, rfl⟩

private theorem clearsExactly_iff (block : WordBlock start stop) :
    ClearsExactly start stop m ↔ stop ≠ 0x7FFFFFFC#32 ∧ read32 m.mem stop = 0#32 := by
  have entry := initEntry_zeroing m start stop
  by_cases last : stop = 0x7FFFFFFC#32
  · subst last
    constructor
    · rintro ⟨m', ran, -⟩
      obtain ⟨m₁, returned, -⟩ := cEnvironmentInit_eq_some_iff.mp ran
      exact absurd returned (init_runs_on block.startAligned entry m₁)
    · rintro ⟨other, -⟩
      exact absurd rfl other
  · have room := block.room last
    obtain ⟨m₁, returned, mem₁⟩ := init_returns block room entry
    have place : start + BitVec.ofNat 32 (stop - start).toNat = stop := by bv_omega
    have size : (stop - start).toNat + 4 ≤ 2 ^ 32 := by
      have ordered := block.ordered
      bv_omega
    have word : m₁.mem = filled m.mem ⟨start, (stop - start).toNat⟩ 0#8 ↔
        read32 m.mem stop = 0#32 := by
      rw [mem₁, filled_word_eq_iff size, place]
    rw [and_iff_right last, ← word]
    constructor
    · rintro ⟨m', ran, exactly⟩
      obtain ⟨m₂, returned₂, rfl⟩ := cEnvironmentInit_eq_some_iff.mp ran
      rw [returned.unique returned₂]
      exact exactly
    · intro exactly
      exact ⟨movPcLr m₁, cEnvironmentInit_eq_some_iff.mpr ⟨m₁, returned, rfl⟩, exactly⟩

/-- The guest clears its bss exactly, and needs three words of stack for it. -/
private theorem clearBss_exact (block : WordBlock start stop) :
    ∃ m', (∃ fuel, clearBss start stop fuel m = some m') ∧
      ∀ x ∉ (⟨m.reg .sp - 12#32, 12⟩ : Range),
        m'.mem x = filled m.mem ⟨start, (stop - start).toNat⟩ 0#8 x := by
  obtain ⟨m₁, ⟨fuel, run⟩, mem₁⟩ := clear_returns block (clearEntry_zeroing m start stop)
  refine ⟨exec [pop [.r1, .r2, .r3], bxLr] m₁, ⟨fuel, by rw [clearBss, run, Option.map_some]⟩, ?_⟩
  intro x outside
  have popped : (exec [pop [.r1, .r2, .r3], bxLr] m₁).mem = m₁.mem := by simp
  rw [popped, mem₁, filled, clearEntry_mem m start stop outside, filled]

theorem ClearsExactly.agrees {m : Machine D} (block : WordBlock start stop)
    (h : ClearsExactly start stop m) : AgreesWithClearBss start stop m := by
  obtain ⟨m', ran, mem'⟩ := h
  obtain ⟨m'', ran'', outside⟩ := clearBss_exact m block
  refine ⟨m', m'', ran, ran'', fun x hx => ?_⟩
  rw [outside x hx, mem']

end Boot

/-- The word behind the block is cleared with it, which goes unseen only where it was zero. -/
theorem bss_cleared_iff {start stop : Addr} (m : Machine D) (block : WordBlock start stop) :
    ClearsExactly start stop m ∧ AgreesWithClearBss start stop m ↔
      stop ≠ 0x7FFFFFFC#32 ∧ read32 m.mem stop = 0#32 := by
  rw [← clearsExactly_iff m block]
  exact ⟨And.left, fun exactly => ⟨exactly, exactly.agrees block⟩⟩

/-- A page of bss, in memory that holds one byte everywhere. -/
def beforeInit (b : Byte) : Machine Unit where
  regs _ _ := 0#32
  spsr _ := 0#32
  cpsr := Psr.ofWord 0x1D3#32
  pc := 0x1C000000#32
  scr := 0#32
  cp15 _ _ := 0#32
  mem _ := b
  dev := ()

private theorem page_wordBlock : WordBlock 0x1C031000#32 0x1C032000#32 := by
  constructor <;> decide

theorem bss_cleared_iff_page :
    WordBlock 0x1C031000#32 0x1C032000#32 ∧
      (ClearsExactly 0x1C031000#32 0x1C032000#32 (beforeInit 0#8) ∧
          AgreesWithClearBss 0x1C031000#32 0x1C032000#32 (beforeInit 0#8) ↔
        0x1C032000#32 ≠ 0x7FFFFFFC#32 ∧ read32 (beforeInit 0#8).mem 0x1C032000#32 = 0#32) :=
  ⟨page_wordBlock, bss_cleared_iff (beforeInit 0#8) page_wordBlock⟩

theorem word_behind_page_cleared :
    WordBlock 0x1C031000#32 0x1C032000#32 ∧
      ¬(ClearsExactly 0x1C031000#32 0x1C032000#32 (beforeInit 0xAA#8) ∧
        AgreesWithClearBss 0x1C031000#32 0x1C032000#32 (beforeInit 0xAA#8)) := by
  refine ⟨page_wordBlock, ?_⟩
  rintro ⟨exactly, -⟩
  obtain ⟨-, zero⟩ := (clearsExactly_iff (beforeInit 0xAA#8) page_wordBlock).mp exactly
  revert zero
  change wordOf 0xAA#8 0xAA#8 0xAA#8 0xAA#8 ≠ 0#32
  decide

end LTZVisor.Core.Bss
