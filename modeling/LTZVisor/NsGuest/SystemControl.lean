/- LTZVisor/NsGuest/SystemControl
   kind: property
   digest: The routines of the non-secure guest for its caches, its MMU and its branch predictor,
     called in any order. -/

import LTZVisor.Lib.LastWrite
import LTZVisor.Arch.CacheEffects
import LTZVisor.Arch.SetWay

set_option autoImplicit false
set_option relaxedAutoImplicit false

namespace LTZVisor.NsGuest.SystemControl

open LTZVisor.Lib.Memory LTZVisor.Lib.LastWrite LTZVisor.Lib.Loop LTZVisor.Arm LTZVisor.Arm.Instr
open LTZVisor.Arch.Cache LTZVisor.Arch.CacheEffects LTZVisor.Arch.SetWay

def sctlrMBit : Word := 1#32 <<< 0
def sctlrABit : Word := 1#32 <<< 1
def sctlrCBit : Word := 1#32 <<< 2
def sctlrZBit : Word := 1#32 <<< 11
def sctlrIBit : Word := 1#32 <<< 12
def sctlrUBit : Word := 1#32 <<< 22
def sctlrXpBit : Word := 1#32 <<< 23

def switch (change : Instr Log) (barriers : List (Instr Log)) : List (Instr Log) :=
  [push [.r0], dmb, mrc .r0 .sctlr, change, mcr .sctlr .r0] ++ barriers ++ [pop [.r0], bxLr]

def dCacheEnable : List (Instr Log) := switch (orr .r0 .r0 sctlrCBit) [dsb]
def dCacheDisable : List (Instr Log) := switch (bic .r0 .r0 sctlrCBit) [dsb]
def iCacheEnable : List (Instr Log) := switch (orr .r0 .r0 sctlrIBit) [isb]
def iCacheDisable : List (Instr Log) := switch (bic .r0 .r0 sctlrIBit) [isb]
def branchPredictionEnable : List (Instr Log) := switch (orr .r0 .r0 sctlrZBit) []
def branchPredictionDisable : List (Instr Log) := switch (bic .r0 .r0 sctlrZBit) []
def strickAlignCheckEnable : List (Instr Log) := switch (orr .r0 .r0 sctlrABit) [dsb]
def strickAlignCheckDisable : List (Instr Log) := switch (bic .r0 .r0 sctlrABit) [dsb]

def mmuEnable : List (Instr Log) := [
  mrc .r1 .sctlr,
  orr .r1 .r1 sctlrMBit,
  orr .r1 .r1 sctlrUBit,
  orr .r1 .r1 sctlrXpBit,
  mcr .sctlr .r1,
  dsb,
  isb,
  bxLr]

def mmuDisable : List (Instr Log) := [
  mrc .r1 .sctlr,
  bic .r1 .r1 sctlrMBit,
  bic .r1 .r1 sctlrUBit,
  bic .r1 .r1 sctlrXpBit,
  mcr .sctlr .r1,
  dsb,
  isb,
  bxLr]

def mmuTtbr0Set : List (Instr Log) := [mcr .ttbr0 .r0, dsb, isb, bxLr]
def mmuDomainAccessSet : List (Instr Log) := [mcr .dacr .r0, dsb, isb, bxLr]

/-- An invalidation of everything, with zero in r0, which is kept on the stack. -/
def invalidateAll (op : CacheOp) (barriers : List (Instr Log)) : List (Instr Log) :=
  [push [.r0], dmb, movImm .r0 0#32, issue (fun _ => op) .r0] ++ barriers ++ [pop [.r0], bxLr]

def iCacheInvalidate : List (Instr Log) := invalidateAll .iciallu [isb]
def branchTCacheInvalidate : List (Instr Log) := invalidateAll .bpiall [dsb, isb]

/-- This one does not keep r0. -/
def mmuTlbsInvalidate : List (Instr Log) :=
  [movImm .r0 0#32, issue (fun _ => .tlbiall) .r0, dsb, isb, bxLr]

-- The source exports `dCache_cleanLine_mva`, which is not the label of this routine.
def cleanDcacheLineMva : List (Instr Log) := [issue .dccmvac .r0, bxLr]

def guestLevel1Set : Word := 1#32
def guestLevel2Set : Word := 1#32
def guestL1CacheWays : Word := 1#32
def guestL1Sets : Word := 255#32
def guestL1LineLen : Word := 6#32
def guestL2CacheWays : Word := 15#32
def guestL2Sets : Word := 255#32
def guestL2LineLen : Word := 6#32

def invalidateLevel2 (sites : CallSites) (fuel : Nat) (m : Cpu) : Option Cpu :=
  let m := exec [movImm .r0 guestLevel2Set, cmp .r0 1#32] m
  if m.cpsr.ne then some m
  else dCacheInvalidateSetWay fuel
    (exec (callLevel 2#32 guestL2LineLen guestL2CacheWays guestL2Sets sites.level2) m)

def invalidateLevels (sites : CallSites) (fuel : Nat) (m : Cpu) : Option Cpu :=
  let m := exec [movImm .r0 guestLevel1Set, cmp .r0 1#32] m
  if m.cpsr.ne then some m
  else (dCacheInvalidateSetWay fuel
    (exec (callLevel 0#32 guestL1LineLen guestL1CacheWays guestL1Sets sites.level1) m)).bind
      (invalidateLevel2 sites fuel)

/-- Data accesses go through the caches. -/
def cached (m : Cpu) : Bool := (m.readCp15 .sctlr).getLsbD 0 && (m.readCp15 .sctlr).getLsbD 2

/-- While data accesses are cached the call has no outcome: among the lines that it drops may be
those with its own frame. -/
def dCacheInvalidate (sites : CallSites) (fuel : Nat) (m : Cpu) : Option Cpu :=
  if cached m then none
  else (invalidateLevels sites fuel (exec [push saved, dmb] m)).map
    (exec [movImm .r0 0#32, mcr .csselr .r10, dsb, isb, pop saved, bxLr])

inductive Routine
  | dCacheEnable | dCacheDisable | iCacheEnable | iCacheDisable
  | branchPredictionEnable | branchPredictionDisable
  | strickAlignCheckEnable | strickAlignCheckDisable
  | mmuEnable | mmuDisable
  | mmuTtbr0Set (ttbr0Val : Word) | mmuDomainAccessSet (accessDomain : Word)
  | mmuTlbsInvalidate | iCacheInvalidate | branchTCacheInvalidate
  | cleanDcacheLineMva (mva : Word) | dCacheInvalidate
  deriving DecidableEq

/-- An argument is passed in r0. -/
def body (sites : CallSites) (fuel : Nat) (m : Cpu) : Routine → Option Cpu
  | .dCacheEnable => some (exec dCacheEnable m)
  | .dCacheDisable => some (exec dCacheDisable m)
  | .iCacheEnable => some (exec iCacheEnable m)
  | .iCacheDisable => some (exec iCacheDisable m)
  | .branchPredictionEnable => some (exec branchPredictionEnable m)
  | .branchPredictionDisable => some (exec branchPredictionDisable m)
  | .strickAlignCheckEnable => some (exec strickAlignCheckEnable m)
  | .strickAlignCheckDisable => some (exec strickAlignCheckDisable m)
  | .mmuEnable => some (exec mmuEnable m)
  | .mmuDisable => some (exec mmuDisable m)
  | .mmuTtbr0Set v => some (exec mmuTtbr0Set (m.setReg .r0 v))
  | .mmuDomainAccessSet v => some (exec mmuDomainAccessSet (m.setReg .r0 v))
  | .mmuTlbsInvalidate => some (exec mmuTlbsInvalidate m)
  | .iCacheInvalidate => some (exec iCacheInvalidate m)
  | .branchTCacheInvalidate => some (exec branchTCacheInvalidate m)
  | .cleanDcacheLineMva v => some (exec cleanDcacheLineMva (m.setReg .r0 v))
  | .dCacheInvalidate => dCacheInvalidate sites fuel m

/-- A call that turns the caching of data accesses on or off has no outcome either: what it pushed
is not what it pops when only one of the accesses is cached. -/
def call (sites : CallSites) (fuel : Nat) (m : Cpu) (c : Routine) : Option Cpu :=
  (body sites fuel m c).filter fun m' => cached m' == cached m

def run (sites : CallSites) (fuel : Nat) (calls : List Routine) (m : Cpu) : Option Cpu :=
  calls.foldlM (call sites fuel) m

abbrev Cell := Cp15Reg × Nat

def bits (c : Cp15Reg) (is : List Nat) (v : Bool) (cell : Cell) : Option Bool :=
  if cell.1 = c ∧ cell.2 ∈ is then some v else none

def word (c : Cp15Reg) (v : Word) (cell : Cell) : Option Bool :=
  if cell.1 = c then some (v.getLsbD cell.2) else none

def writes (r10 : Word) : Routine → Cell → Option Bool
  | .dCacheEnable => bits .sctlr [2] true
  | .dCacheDisable => bits .sctlr [2] false
  | .iCacheEnable => bits .sctlr [12] true
  | .iCacheDisable => bits .sctlr [12] false
  | .branchPredictionEnable => bits .sctlr [11] true
  | .branchPredictionDisable => bits .sctlr [11] false
  | .strickAlignCheckEnable => bits .sctlr [1] true
  | .strickAlignCheckDisable => bits .sctlr [1] false
  | .mmuEnable => bits .sctlr [0, 22, 23] true
  | .mmuDisable => bits .sctlr [0, 22, 23] false
  | .mmuTtbr0Set v => word .ttbr0 v
  | .mmuDomainAccessSet v => word .dacr v
  | .dCacheInvalidate => word .csselr r10
  | _ => fun _ => none

/-- The registers of its caller that a call does not keep. -/
def clobbers : Routine → List Reg
  | .mmuEnable | .mmuDisable => [.r1]
  | .mmuTtbr0Set _ | .mmuDomainAccessSet _ | .mmuTlbsInvalidate | .cleanDcacheLineMva _ => [.r0]
  | .dCacheEnable | .dCacheDisable | .iCacheEnable | .iCacheDisable
  | .branchPredictionEnable | .branchPredictionDisable
  | .strickAlignCheckEnable | .strickAlignCheckDisable
  | .iCacheInvalidate | .branchTCacheInvalidate | .dCacheInvalidate => []

def invalidated (level : Word) (lineLen ways sets : Nat) : Log :=
  (lines sets ways).map fun p => .dcisw (lineOperand level lineLen ways p)

def stack (m : Cpu) : Range := ⟨m.reg .sp - 56#32, 56⟩

/-- A call has written the cells `cells` and issued `log`; all but the registers `rs` is kept. -/
structure Effect (cells : Cell → Option Bool) (rs : List Reg) (log : Log) (m m' : Cpu) : Prop where
  cell : ∀ c i, (m'.readCp15 c).getLsbD i = (cells (c, i)).getD ((m.readCp15 c).getLsbD i)
  reg : ∀ r, r ∉ rs → m'.reg r = m.reg r
  mode : m'.cpsr.mode = m.cpsr.mode
  scr : m'.scr = m.scr
  mem : ∀ x ∉ stack m, m'.mem x = m.mem x
  dev : m'.dev = m.dev ++ log

section Effects

variable {m m' : Cpu}

private theorem dev_loadFrom (mem : Mem) (a : Addr) (rs : List Reg) (m : Cpu) :
    (loadFrom mem a rs m).dev = m.dev := by
  induction rs generalizing a m with
  | nil => rfl
  | cons r rs ih => exact ih _ _

private theorem dev_pop (rs : List Reg) (m : Cpu) : (pop rs m).dev = m.dev := dev_loadFrom _ _ rs _

/-- A routine that keeps on the stack what it changes. -/
private theorem kept_effect {rs : List Reg} {cs : List Cp15Reg} {cells : Cell → Option Bool}
    {log : Log} (changed : Changes rs cs (push rs m) m') (nodup : rs.Nodup) (noSp : Reg.sp ∉ rs)
    (small : rs.length ≤ 14)
    (cell : ∀ c i, (m'.readCp15 c).getLsbD i = (cells (c, i)).getD ((m.readCp15 c).getLsbD i))
    (dev : m'.dev = m.dev ++ log) : Effect cells [] log m (bxLr (pop rs m')) := by
  have left := (changes_pop rs m').andThen (Changes.bxLr (pop rs m')) (by simp) (by simp)
  have frame := HasFrame.of_changes changed noSp
  constructor
  case cell =>
    intro c i
    rw [left.readCp15 (by simp), cell]
  case reg =>
    intro r _
    rw [(Changes.bxLr (pop rs m')).reg r (by simp)]
    by_cases pointer : r = .sp
    · rw [pointer]
      exact frame.sp_pop noSp
    by_cases inside : r ∈ rs
    · exact frame.reg_pop nodup (by omega) inside
    · rw [(changes_pop rs m').reg r (by simp [pointer, inside]), changed.reg r inside,
        push_reg rs m pointer]
  case mode => exact left.mode.trans changed.mode
  case scr => exact left.scr.trans changed.scr
  case mem =>
    intro x outside
    have apart : x ∉ pushRange rs m := by
      rw [stack, mem_range] at outside
      rw [pushRange, mem_range]
      bv_omega
    exact (congrFun (left.mem.trans changed.mem) x).trans (push_mem rs m apart)
  case dev =>
    have same : (bxLr (pop rs m')).dev = m'.dev := dev_pop rs m'
    rw [same, dev]

end Effects

section Invalidate

variable {level : Word} {lineLen ways sets : Nat}

/-- A cache that a level can be described as in the registers. -/
structure Describes (level : Word) (lineLen ways sets : Nat) : Prop where
  level : level.toNat < 2 ^ lineLen
  ways_pos : 1 ≤ ways
  ways_lt : ways < 2 ^ 31
  sets_pos : 1 ≤ sets
  sets_lt : sets < 2 ^ 31
  fits : sets * 2 ^ lineLen ≤ 2 ^ wayShift ways

theorem Describes.geometry (d : Describes level lineLen ways sets) (next : Addr) (m : Cpu) :
    Geometry lineLen ways sets (exec (callLevel level (BitVec.ofNat 32 lineLen)
      (BitVec.ofNat 32 (ways - 1)) (BitVec.ofNat 32 (sets - 1)) next) m) := by
  constructor
  case level => simpa [callLevel] using d.level
  case r1 => simp [callLevel]
  case r2 => simp [callLevel]
  case r3 => simp [callLevel]
  case r4 => simp [callLevel]
  case ways_pos => exact d.ways_pos
  case ways_lt => exact d.ways_lt
  case sets_pos => exact d.sets_pos
  case sets_lt => exact d.sets_lt
  case fits => exact d.fits

private theorem callLevel_selects (level lineLen ways sets : Word) (next : Addr) (m : Cpu) :
    (exec (callLevel level lineLen ways sets next) m).reg .r0 = level := by
  simp [callLevel]

private theorem level_effect (d : Describes level lineLen ways sets) (next : Addr) (m : Cpu)
    {fuel : Nat}
    {m' : Cpu} (run : dCacheInvalidateSetWay fuel (exec (callLevel level (BitVec.ofNat 32 lineLen)
      (BitVec.ofNat 32 (ways - 1)) (BitVec.ofNat 32 (sets - 1)) next) m) = some m') :
    Changes levelRegs [.csselr] m m' ∧ m'.dev = m.dev ++ invalidated level lineLen ways sets := by
  have called := changes_callLevel level (BitVec.ofNat 32 lineLen) (BitVec.ofNat 32 (ways - 1))
    (BitVec.ofNat 32 (sets - 1)) next m
  have geometry := d.geometry next m
  have selected := callLevel_selects level (BitVec.ofNat 32 lineLen) (BitVec.ofNat 32 (ways - 1))
    (BitVec.ofNat 32 (sets - 1)) next m
  have quiet : (exec (callLevel level (BitVec.ofNat 32 lineLen) (BitVec.ofNat 32 (ways - 1))
      (BitVec.ofNat 32 (sets - 1)) next) m).dev = m.dev := rfl
  generalize exec (callLevel level (BitVec.ofNat 32 lineLen) (BitVec.ofNat 32 (ways - 1))
    (BitVec.ofNat 32 (sets - 1)) next) m = m₁ at *
  obtain ⟨m₂, returned, changed, dev⟩ := setWay_returns m₁ dcisw_issues
  rw [Returns.unique ⟨fuel, run⟩ returned]
  refine ⟨called.andThen changed (by simp [levelRegs]) (by simp), ?_⟩
  rw [dev, quiet, sweep_eq_lines geometry, selected, List.map_map]
  rfl

private theorem dCacheInvalidateSetWay_settles (m : Cpu) :
    Settles fun fuel => dCacheInvalidateSetWay fuel m := by
  obtain ⟨m', returned, -, -⟩ := setWay_returns m dcisw_issues
  exact returned.settles

private theorem level1_describes : Describes 0#32 6 2 256 := by
  have shift : wayShift 2 = 31 := by decide
  constructor <;> simp [shift]

private theorem level2_describes : Describes 2#32 6 16 256 := by
  have shift : wayShift 16 = 28 := by decide
  constructor <;> simp [shift]

private theorem test_passes (m : Cpu) : ¬(exec [movImm .r0 1#32, cmp .r0 1#32] m).cpsr.ne =
    true := by
  have equal : (exec [movImm .r0 1#32, cmp .r0 1#32] m).cpsr.eq = true :=
    (eq_cmp (m.setReg .r0 1#32) .r0 1#32).trans
      (beq_iff_eq.mpr (Machine.reg_setReg_self m .r0 1#32))
  intro differ
  have clear : (exec [movImm .r0 1#32, cmp .r0 1#32] m).cpsr.ne = false := congrArg not equal
  rw [clear] at differ
  cases differ

private theorem invalidateLevel2_effect {sites : CallSites} {fuel : Nat} {m m' : Cpu}
    (run : invalidateLevel2 sites fuel m = some m') :
    Changes levelRegs [.csselr] m m' ∧ m'.dev = m.dev ++ invalidated 2#32 6 16 256 := by
  have tested := changes_test 1#32 m
  have quiet : (exec [movImm .r0 1#32, cmp .r0 1#32] m).dev = m.dev := rfl
  rw [invalidateLevel2] at run
  change (if (exec [movImm .r0 1#32, cmp .r0 1#32] m).cpsr.ne then _ else _) = _ at run
  rw [if_neg (test_passes m)] at run
  obtain ⟨changed, dev⟩ := level_effect level2_describes _ _ run
  exact ⟨tested.trans changed, dev.trans (congrArg (· ++ _) quiet)⟩

private theorem invalidateLevels_effect {sites : CallSites} {fuel : Nat} {m m' : Cpu}
    (run : invalidateLevels sites fuel m = some m') :
    Changes levelRegs [.csselr] m m' ∧
      m'.dev = m.dev ++ (invalidated 0#32 6 2 256 ++ invalidated 2#32 6 16 256) := by
  have tested := changes_test 1#32 m
  have quiet : (exec [movImm .r0 guestLevel1Set, cmp .r0 1#32] m).dev = m.dev := rfl
  rw [invalidateLevels] at run
  change (if (exec [movImm .r0 1#32, cmp .r0 1#32] m).cpsr.ne then _ else _) = _ at run
  rw [if_neg (test_passes m)] at run
  obtain ⟨m₂, level1, level2⟩ := Option.bind_eq_some_iff.mp run
  obtain ⟨changed₁, dev₁⟩ := level_effect level1_describes _ _ level1
  obtain ⟨changed₂, dev₂⟩ := invalidateLevel2_effect level2
  refine ⟨(tested.trans changed₁).trans changed₂, ?_⟩
  rw [dev₂, dev₁, quiet, List.append_assoc]

private theorem invalidateLevels_settles (sites : CallSites) (m : Cpu) :
    Settles fun fuel => invalidateLevels sites fuel m := by
  have second (m : Cpu) : Settles fun fuel => invalidateLevel2 sites fuel m := by
    simp only [invalidateLevel2]
    split
    · exact settles_some _
    · exact dCacheInvalidateSetWay_settles _
  simp only [invalidateLevels]
  split
  · exact settles_some _
  · exact (dCacheInvalidateSetWay_settles _).bind second

private theorem dCacheInvalidate_off {m : Cpu} (off : cached m = false) (sites : CallSites)
    (fuel : Nat) :
    dCacheInvalidate sites fuel m = (invalidateLevels sites fuel (exec [push saved, dmb] m)).map
      (exec [movImm .r0 0#32, mcr .csselr .r10, dsb, isb, pop saved, bxLr]) :=
  if_neg (by simp [off])

private theorem dCacheInvalidate_settles {m : Cpu} (off : cached m = false) (sites : CallSites) :
    Settles fun fuel => dCacheInvalidate sites fuel m := by
  simp only [dCacheInvalidate_off off]
  exact (invalidateLevels_settles sites _).map _

private theorem dCacheInvalidate_effect {sites : CallSites} {fuel : Nat} {m m' : Cpu}
    (run : dCacheInvalidate sites fuel m = some m') :
    Effect (word .csselr (m.reg .r10)) [] (invalidated 0#32 6 2 256 ++ invalidated 2#32 6 16 256)
      m m' := by
  have off : cached m = false := by
    rw [dCacheInvalidate] at run
    split at run
    case isTrue => cases run
    case isFalse off => exact Bool.eq_false_of_not_eq_true off
  rw [dCacheInvalidate_off off] at run
  obtain ⟨m₂, through, rfl⟩ := Option.map_eq_some_iff.mp run
  obtain ⟨changed, dev⟩ := invalidateLevels_effect through
  change Changes levelRegs [.csselr] (push saved m) m₂ at changed
  have r10 : m₂.reg .r10 = m.reg .r10 :=
    (changed.reg .r10 (by simp [levelRegs])).trans (push_reg saved m (by simp))
  -- The level is selected from r10, into which nothing was loaded.
  have chosen : (mcr .csselr .r10 (movImm .r0 0#32 m₂)).readCp15 .csselr = m₂.reg .r10 :=
    (Machine.readCp15_writeCp15 (movImm .r0 0#32 m₂) .csselr _).trans
      ((Changes.setReg m₂ .r0 0#32).reg .r10 (by simp))
  have all : Changes levelRegs [.csselr] (push saved m)
      (mcr .csselr .r10 (movImm .r0 0#32 m₂)) :=
    (changed.andThen (Changes.setReg m₂ .r0 0#32) (by simp [levelRegs]) (by simp)).andThen
      (Changes.mcr _ .csselr .r10) (by simp) (by simp)
  have before : (push saved m).readCp15 = m.readCp15 := rfl
  have same : (mcr .csselr .r10 (movImm .r0 0#32 m₂)).dev = m₂.dev := rfl
  change Effect _ _ _ m (bxLr (pop saved (mcr .csselr .r10 (movImm .r0 0#32 m₂))))
  generalize mcr .csselr .r10 (movImm .r0 0#32 m₂) = m₃ at *
  have kept : Changes saved [.csselr] (push saved m) m₃ :=
    all.mono (by simp [levelRegs, saved]) (by simp)
  apply kept_effect kept saved_nodup (by simp [saved]) (by simp [saved])
  case cell =>
    intro c i
    by_cases here : c = .csselr
    · rw [here, chosen, r10, word, if_pos rfl]
      rfl
    · rw [all.readCp15 (by simpa using here), before, word, if_neg here]
      rfl
  case dev => exact same.trans dev

end Invalidate

section Lines

variable {level : Word} {lineLen ways sets : Nat}

theorem Describes.operand_toNat (d : Describes level lineLen ways sets) {p : Nat × Nat}
    (mem : p ∈ lines sets ways) : (lineOperand level lineLen ways p).toNat =
      p.2 * 2 ^ wayShift ways + (p.1 * 2 ^ lineLen + level.toNat) := by
  have value := lineOperand_toNat (d.geometry 0#32 atLevel1) mem
  rwa [callLevel_selects] at value

theorem Describes.operands_nodup (d : Describes level lineLen ways sets) :
    ((lines sets ways).map (lineOperand level lineLen ways)).Nodup := by
  have distinct := lineOperands_nodup (d.geometry 0#32 atLevel1)
  rwa [callLevel_selects] at distinct

private theorem operand_level (d : Describes level 6 ways sets) (room : 6 ≤ wayShift ways)
    {p : Nat × Nat}
    (mem : p ∈ lines sets ways) : (lineOperand level 6 ways p).toNat % 64 = level.toNat := by
  have small := d.level
  obtain ⟨k, shift⟩ := Nat.exists_eq_add_of_le room
  rw [d.operand_toNat mem, shift, Nat.pow_add, ← Nat.mul_assoc, Nat.mul_right_comm]
  omega

private theorem level2_documented : Describes 2#32 6 16 512 := by
  have shift : wayShift 16 = 28 := by decide
  constructor <;> simp [shift]

end Lines

/-- While data accesses are not cached the routine comes back, and invalidates without cleaning each
line of level 1 once; of the 512 documented sets of level 2 the lines of the lower half once, and
those of the upper half not at all. -/
theorem dCache_invalidate_lines (sites : CallSites) {m : Cpu} (off : cached m = false) :
    ∃ fuel m', ∃ operands : List Word, dCacheInvalidate sites fuel m = some m' ∧
      m'.dev = m.dev ++ operands.map CacheOp.dcisw ∧ operands.Nodup ∧
      operands.length = 2 * 256 + 16 * 256 ∧
      (∀ set < 256, ∀ way < 2, lineOperand 0#32 6 2 (set, way) ∈ operands) ∧
      ∀ set < 512, ∀ way < 16, lineOperand 2#32 6 16 (set, way) ∈ operands ↔ set < 256 := by
  have shift2 : wayShift 2 = 31 := by decide
  have shift16 : wayShift 16 = 28 := by decide
  obtain ⟨fuel, m', returned⟩ := (dCacheInvalidate_settles off sites).returns
  have effect := dCacheInvalidate_effect returned
  refine ⟨fuel, m', (lines 256 2).map (lineOperand 0#32 6 2) ++
    (lines 256 16).map (lineOperand 2#32 6 16), returned, ?_, ?_, ?_, ?_, ?_⟩
  · rw [effect.dev, List.map_append, List.map_map, List.map_map]
    rfl
  · apply List.Nodup.append level1_describes.operands_nodup level2_describes.operands_nodup
    intro w inFirst inSecond
    obtain ⟨p, hp, rfl⟩ := List.mem_map.mp inFirst
    obtain ⟨q, hq, same⟩ := List.mem_map.mp inSecond
    have low := operand_level level1_describes (by omega) hp
    have high := operand_level level2_describes (by omega) hq
    rw [same, low] at high
    cases high
  · rw [List.length_append, List.length_map, List.length_map, lines_length, lines_length]
  · intro set setLess way wayLess
    exact List.mem_append_left _ (List.mem_map_of_mem ((mem_lines _).mpr ⟨setLess, wayLess⟩))
  · intro set setLess way wayLess
    have documented := (mem_lines (set, way)).mpr ⟨setLess, wayLess⟩
    constructor
    · intro hit
      rcases List.mem_append.mp hit with first | second
      · obtain ⟨p, hp, same⟩ := List.mem_map.mp first
        have low := operand_level level1_describes (by omega) hp
        rw [same, operand_level level2_documented (by omega) documented] at low
        cases low
      · obtain ⟨p, hp, same⟩ := List.mem_map.mp second
        have value := congrArg BitVec.toNat same
        have room := (mem_lines p).mp hp
        rw [level2_describes.operand_toNat hp, level2_documented.operand_toNat documented,
          shift16] at value
        simp only at value
        omega
    · intro less
      exact List.mem_append_right _ (List.mem_map_of_mem ((mem_lines _).mpr ⟨less, wayLess⟩))

/-- The guest at its boot, with its MMU and its caches off. -/
def booting : Cpu :=
  { regs := fun _ _ => 0#32, spsr := fun _ => 0#32, cpsr := Psr.ofWord 0x13#32, pc := 0#32,
    scr := scrNs, cp15 := fun _ _ => 0#32, mem := fun _ => 0#8, dev := [] }

theorem dCache_invalidate_lines_booting : ∃ fuel m', ∃ operands : List Word,
    dCacheInvalidate ⟨0#32, 0#32, 0#32⟩ fuel booting = some m' ∧
      m'.dev = operands.map CacheOp.dcisw ∧ operands.length = 4608 := by
  obtain ⟨fuel, m', operands, returned, dev, -, size, -⟩ :=
    dCache_invalidate_lines ⟨0#32, 0#32, 0#32⟩ (m := booting) (by decide)
  exact ⟨fuel, m', operands, returned, dev, size⟩

end LTZVisor.NsGuest.SystemControl
