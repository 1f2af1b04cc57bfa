/- LTZVisor/Arch/CacheEffects
   kind: property
   digest: What the cache routines leave in the system registers and in those of their callers. -/

import LTZVisor.Lib.Bits
import LTZVisor.Arch.Cache

set_option autoImplicit false
set_option relaxedAutoImplicit false

namespace LTZVisor.Arch.CacheEffects

open LTZVisor.Lib.Memory LTZVisor.Lib.Bits LTZVisor.Lib.Loop LTZVisor.Arm LTZVisor.Arm.Instr
open LTZVisor.Arch.Cache

def levelRegs : List Reg := [.r0, .r1, .r2, .r3, .r4, .r9, .r11, .lr]

private theorem setWay_changes {m m' : Cpu} {fuel : Nat}
    (run : dataCacheCleanInvalidateSetWay fuel m = some m') : Changes levelRegs [.csselr] m m' := by
  obtain ⟨m₁, returned, changed, -⟩ := setWay_returns m cleanOrInvalidate_issues
  rw [Returns.unique ⟨fuel, run⟩ returned]
  exact changed.mono (by simp [levelRegs]) (by simp)

private theorem setWay_settles (m : Cpu) :
    Settles fun fuel => dataCacheCleanInvalidateSetWay fuel m := by
  obtain ⟨m₁, returned, -, -⟩ := setWay_returns m cleanOrInvalidate_issues
  exact returned.settles

theorem changes_callLevel (level lineLen ways sets : Word) (next : Addr) (m : Cpu) :
    Changes levelRegs [.csselr] m (exec (callLevel level lineLen ways sets next) m) := by
  apply Changes.exec
  intro i hi m
  simp only [callLevel, List.mem_cons, List.not_mem_nil, or_false] at hi
  rcases hi with rfl | rfl | rfl | rfl | rfl | rfl | rfl | rfl
  · exact (Changes.setReg m .r0 level).mono (by simp [levelRegs]) (by simp)
  · exact (Changes.mcr m .csselr .r0).mono (by simp) (by simp)
  · exact Changes.refl _ _ m
  · exact (Changes.setReg m .r1 lineLen).mono (by simp [levelRegs]) (by simp)
  · exact (Changes.setReg m .r2 ways).mono (by simp [levelRegs]) (by simp)
  · exact (Changes.setReg m .r3 (m.reg .r2).clz).mono (by simp [levelRegs]) (by simp)
  · exact (Changes.setReg m .r4 sets).mono (by simp [levelRegs]) (by simp)
  · exact (Changes.setReg m .lr next).mono (by simp [levelRegs]) (by simp)

theorem changes_test (v : Word) (m : Cpu) :
    Changes levelRegs [.csselr] m (exec [movImm .r0 v, cmp .r0 1#32] m) := by
  have loaded := Changes.setReg m .r0 v
  have flags : Changes [] [] (m.setReg .r0 v) (cmp .r0 1#32 (m.setReg .r0 v)) :=
    ⟨fun _ _ => rfl, rfl, rfl, fun _ _ _ => rfl, rfl⟩
  exact (loaded.mono (by simp [levelRegs]) (by simp)).andThen flags (by simp) (by simp)

private theorem throughLevel2_changes {sites : CallSites} {fuel : Nat} {m m' : Cpu}
    (run : throughLevel2 sites fuel m = some m') : Changes levelRegs [.csselr] m m' := by
  have tested := changes_test cacheLevel2Set m
  rw [throughLevel2] at run
  generalize exec [movImm .r0 cacheLevel2Set, cmp .r0 1#32] m = m₁ at *
  split at run
  · rw [← Option.some.inj run]
    exact tested
  · exact (tested.trans (changes_callLevel _ _ _ _ _ m₁)).trans (setWay_changes run)

private theorem throughLevels_changes {sites : CallSites} {fuel : Nat} {m m' : Cpu}
    (run : throughLevels sites fuel m = some m') : Changes levelRegs [.csselr] m m' := by
  have tested := changes_test cacheLevel1Set m
  rw [throughLevels] at run
  generalize exec [movImm .r0 cacheLevel1Set, cmp .r0 1#32] m = m₁ at *
  split at run
  · rw [← Option.some.inj run]
    exact tested
  · obtain ⟨m₂, level1, level2⟩ := Option.bind_eq_some_iff.mp run
    exact ((tested.trans (changes_callLevel _ _ _ _ _ m₁)).trans (setWay_changes level1)).trans
      (throughLevel2_changes level2)

private theorem throughLevel2_settles (sites : CallSites) (m : Cpu) :
    Settles fun fuel => throughLevel2 sites fuel m := by
  simp only [throughLevel2]
  split
  · exact settles_some _
  · exact setWay_settles _

private theorem throughLevels_settles (sites : CallSites) (m : Cpu) :
    Settles fun fuel => throughLevels sites fuel m := by
  simp only [throughLevels]
  split
  · exact settles_some _
  · exact (setWay_settles _).bind (throughLevel2_settles sites)

theorem saved_nodup : saved.Nodup := by decide

private theorem mem_saved {r : Reg} (other : r ≠ .sp) : r ∈ saved := by
  cases r <;> simp_all [saved]

def leave (m : Cpu) : Cpu := bxLr (pop saved m)

private theorem changes_leave (m : Cpu) : Changes (.sp :: saved) [] m (leave m) :=
  (changes_pop saved m).andThen (Changes.bxLr (pop saved m)) (by simp) (by simp)

theorem restored {m m' : Cpu} (h : HasFrame saved m m') (r : Reg) : (leave m').reg r = m.reg r := by
  rw [leave, (Changes.bxLr (pop saved m')).reg r (by simp)]
  by_cases pointer : r = .sp
  · rw [pointer]
    exact h.sp_pop (by simp [saved])
  · exact h.reg_pop saved_nodup (by simp [saved]) (mem_saved pointer)

/-- What `data_cache_clean_invalidate_all` has done on return. -/
structure Cleaned (m m' : Cpu) : Prop where
  csselr : m'.readCp15 .csselr = m.reg .r10
  reg : ∀ r, m'.reg r = m.reg r
  mode : m'.cpsr.mode = m.cpsr.mode
  scr : m'.scr = m.scr
  mem : ∀ x ∉ pushRange saved m, m'.mem x = m.mem x

private theorem cleaned {sites : CallSites} {fuel : Nat} {m m' : Cpu}
    (run : dataCacheCleanInvalidateAll sites fuel m = some m') : Cleaned m m' := by
  rw [dataCacheCleanInvalidateAll] at run
  obtain ⟨m₂, through, rfl⟩ := Option.map_eq_some_iff.mp run
  have entry : Changes (.r5 :: levelRegs) [.csselr] (push saved m)
      (exec [push saved, dmb, mov .r5 .r0] m) :=
    (Changes.setReg (push saved m) .r5 ((push saved m).reg .r0)).mono (by simp) (by simp)
  have upTo₂ := entry.andThen (throughLevels_changes through) (by simp) (by simp)
  have r10 : m₂.reg .r10 = m.reg .r10 :=
    (upTo₂.reg .r10 (by simp [levelRegs])).trans (push_reg saved m (by simp))
  -- The level is selected from r10, into which nothing was loaded.
  have chosen : (mcr .csselr .r10 (movImm .r0 0#32 m₂)).readCp15 .csselr = m₂.reg .r10 :=
    (Machine.readCp15_writeCp15 (movImm .r0 0#32 m₂) .csselr _).trans
      ((Changes.setReg m₂ .r0 0#32).reg .r10 (by simp))
  have upTo₃ : Changes (.r5 :: levelRegs) [.csselr] (push saved m)
      (mcr .csselr .r10 (movImm .r0 0#32 m₂)) :=
    (upTo₂.andThen (Changes.setReg m₂ .r0 0#32) (by simp [levelRegs]) (by simp)).andThen
      (Changes.mcr _ .csselr .r10) (by simp) (by simp)
  change Cleaned m (leave (mcr .csselr .r10 (movImm .r0 0#32 m₂)))
  generalize mcr .csselr .r10 (movImm .r0 0#32 m₂) = m₃ at *
  have left := changes_leave m₃
  constructor
  case csselr =>
    rw [left.readCp15 (by simp), chosen, r10]
  case reg => exact restored (HasFrame.of_changes upTo₃ (by simp [levelRegs]))
  case mode => exact left.mode.trans upTo₃.mode
  case scr => exact left.scr.trans upTo₃.scr
  case mem =>
    intro x outside
    have same := congrFun (left.mem.trans upTo₃.mem) x
    exact same.trans (push_mem saved m outside)

private theorem dataCacheCleanInvalidateAll_settles (sites : CallSites) (m : Cpu) :
    Settles fun fuel => dataCacheCleanInvalidateAll sites fuel m :=
  (throughLevels_settles sites _).map _

private theorem frames_disjoint {m m₁ : Cpu} (sp : m₁.reg .sp = (push saved m).reg .sp) :
    (pushRange saved m).Disjoint (pushRange saved m₁) := by
  have size : 4 * saved.length = 56 := rfl
  intro x hx
  rw [pushRange, size, mem_range] at hx ⊢
  rw [sp, push_sp, size]
  bv_omega

private theorem flushed {sites : CallSites} {fuel : Nat} {m m' : Cpu}
    (run : flushIcacheAndDcache sites fuel m = some m') :
    m'.readCp15 .csselr = m.reg .r10 ∧ ∀ r, m'.reg r = m.reg r := by
  rw [flushIcacheAndDcache] at run
  obtain ⟨m₂, called, rfl⟩ := Option.map_eq_some_iff.mp run
  have clean := cleaned called
  have zero := Changes.setReg (push saved m) .r0 0#32
  have entry : Changes [.r0, .lr] [] (push saved m)
      (exec [push saved, movImm .r0 0#32, bl sites.all] m) :=
    (zero.mono (by simp) (by simp)).andThen (Changes.setReg _ .lr sites.all) (by simp) (by simp)
  generalize exec [push saved, movImm .r0 0#32, bl sites.all] m = m₁ at *
  have flags := Changes.setReg m₂ .r0 0#32
  have last : Changes [.r0] [] m₂ (mcrIciallu .r0 (movImm .r0 0#32 m₂)) :=
    ⟨flags.reg, flags.mode, flags.scr, flags.cp15, flags.mem⟩
  change (leave (mcrIciallu .r0 (movImm .r0 0#32 m₂))).readCp15 .csselr = m.reg .r10 ∧
    ∀ r, (leave (mcrIciallu .r0 (movImm .r0 0#32 m₂))).reg r = m.reg r
  generalize mcrIciallu .r0 (movImm .r0 0#32 m₂) = m₃ at *
  have sp : m₁.reg .sp = (push saved m).reg .sp := entry.reg .sp (by simp)
  have frame : HasFrame saved m m₃ := by
    constructor
    case mode => exact (last.mode.trans clean.mode).trans entry.mode
    case sp => rw [last.reg .sp (by simp), clean.reg, sp]
    case mem =>
      intro x hx
      rw [last.mem, clean.mem x (frames_disjoint sp x hx), entry.mem]
  refine ⟨?_, restored frame⟩
  rw [(changes_leave m₃).readCp15 (by simp), last.readCp15 (by simp), clean.csselr,
    entry.reg .r10 (by simp), push_reg saved m (by simp)]

private theorem flushIcacheAndDcache_settles (sites : CallSites) (m : Cpu) :
    Settles fun fuel => flushIcacheAndDcache sites fuel m :=
  (dataCacheCleanInvalidateAll_settles sites _).map _

private theorem reg_orr (m : Cpu) (r : Reg) (v : Word) : (orr r r v m).reg r = m.reg r ||| v :=
  Machine.reg_setReg_self _ _ _

theorem enabled (m : Cpu) :
    (exec enableL1Cache m).readCp15 .sctlr = m.reg .r1 ||| sctlrIcacheBit ||| sctlrDcacheBit ∧
      ∀ r, (exec enableL1Cache m).reg r = m.reg r := by
  have whole : exec enableL1Cache m = leave (mcr .sctlr .r1 (orr .r1 .r1 sctlrDcacheBit
      (orr .r1 .r1 sctlrIcacheBit (mrc .r0 .sctlr (push saved m))))) := rfl
  rw [whole]
  have read : Changes [.r0, .r1] [.sctlr] (push saved m) (mrc .r0 .sctlr (push saved m)) :=
    (Changes.setReg _ .r0 _).mono (by simp) (by simp)
  have r1 : (mrc .r0 .sctlr (push saved m)).reg .r1 = m.reg .r1 :=
    ((Changes.setReg (push saved m) .r0 _).reg .r1 (by simp)).trans (push_reg saved m (by simp))
  generalize mrc .r0 .sctlr (push saved m) = m₁ at *
  have icache : Changes [.r0, .r1] [.sctlr] (push saved m) (orr .r1 .r1 sctlrIcacheBit m₁) :=
    read.andThen (Changes.setReg m₁ .r1 _) (by simp) (by simp)
  have r1₂ := reg_orr m₁ .r1 sctlrIcacheBit
  generalize orr .r1 .r1 sctlrIcacheBit m₁ = m₂ at *
  have dcache : Changes [.r0, .r1] [.sctlr] (push saved m) (orr .r1 .r1 sctlrDcacheBit m₂) :=
    icache.andThen (Changes.setReg m₂ .r1 _) (by simp) (by simp)
  have r1₃ := reg_orr m₂ .r1 sctlrDcacheBit
  generalize orr .r1 .r1 sctlrDcacheBit m₂ = m₃ at *
  have written : (mcr .sctlr .r1 m₃).readCp15 .sctlr = m₃.reg .r1 :=
    Machine.readCp15_writeCp15 m₃ .sctlr _
  have upTo₄ := dcache.andThen (Changes.mcr m₃ .sctlr .r1) (by simp) (by simp)
  generalize mcr .sctlr .r1 m₃ = m₄ at *
  refine ⟨?_, restored (HasFrame.of_changes upTo₄ (by simp))⟩
  rw [(changes_leave m₄).readCp15 (by simp), written, r1₃, r1₂, r1]

/-- `enable_l1_cache` sets the I and C bits of SCTLR, no others, and keeps the registers. -/
def EnablesL1 (m : Cpu) : Prop :=
  (exec enableL1Cache m).readCp15 .sctlr =
      m.readCp15 .sctlr ||| sctlrIcacheBit ||| sctlrDcacheBit ∧
    ∀ r, (exec enableL1Cache m).reg r = m.reg r

/-- A routine returns with the level 1 data cache selected, and keeps the registers. -/
def SelectsLevel1 (routine : Nat → Cpu → Option Cpu) (m : Cpu) : Prop :=
  ∃ fuel m', routine fuel m = some m' ∧ m'.readCp15 .csselr = 0#32 ∧ ∀ r, m'.reg r = m.reg r

private theorem enablesL1_iff (m : Cpu) :
    EnablesL1 m ↔
      m.reg .r1 &&& ~~~(sctlrIcacheBit ||| sctlrDcacheBit) =
        m.readCp15 .sctlr &&& ~~~(sctlrIcacheBit ||| sctlrDcacheBit) := by
  obtain ⟨sctlr, kept⟩ := enabled m
  rw [EnablesL1, sctlr, and_iff_left kept, BitVec.or_assoc, BitVec.or_assoc, or_eq_or_iff]

private theorem selectsLevel1_iff {routine : Nat → Cpu → Option Cpu} {m : Cpu}
    (settles : Settles fun fuel => routine fuel m)
    (effect : ∀ fuel m', routine fuel m = some m' →
      m'.readCp15 .csselr = m.reg .r10 ∧ ∀ r, m'.reg r = m.reg r) :
    SelectsLevel1 routine m ↔ m.reg .r10 = 0#32 := by
  constructor
  · rintro ⟨fuel, m', run, level1, -⟩
    rw [← (effect fuel m' run).1, level1]
  · intro zero
    obtain ⟨fuel, m', run⟩ := settles.returns
    obtain ⟨csselr, kept⟩ := effect fuel m' run
    exact ⟨fuel, m', run, csselr.trans zero, kept⟩

private theorem clean_selectsLevel1_iff (sites : CallSites) (m : Cpu) :
    SelectsLevel1 (dataCacheCleanInvalidateAll sites) m ↔ m.reg .r10 = 0#32 := by
  apply selectsLevel1_iff (dataCacheCleanInvalidateAll_settles sites m)
  intro fuel m' run
  exact ⟨(cleaned run).csselr, (cleaned run).reg⟩

private theorem flush_selectsLevel1_iff (sites : CallSites) (m : Cpu) :
    SelectsLevel1 (flushIcacheAndDcache sites) m ↔ m.reg .r10 = 0#32 :=
  selectsLevel1_iff (flushIcacheAndDcache_settles sites m) fun _ _ run => flushed run

/-- The registers of the caller decide: r1 stands in for SCTLR, and r10 for the level. The secure
world never turns its MMU on, so no line of its stack is dirty when the routines invalidate. -/
theorem cache_effects_iff (sites : CallSites) (m : Cpu) :
    (EnablesL1 m ↔
        m.reg .r1 &&& ~~~(sctlrIcacheBit ||| sctlrDcacheBit) =
          m.readCp15 .sctlr &&& ~~~(sctlrIcacheBit ||| sctlrDcacheBit)) ∧
      (SelectsLevel1 (dataCacheCleanInvalidateAll sites) m ↔ m.reg .r10 = 0#32) ∧
      (SelectsLevel1 (flushIcacheAndDcache sites) m ↔ m.reg .r10 = 0#32) :=
  ⟨enablesL1_iff m, clean_selectsLevel1_iff sites m, flush_selectsLevel1_iff sites m⟩

def caller : Cpu where
  regs _ r := if r = .r10 then 2#32 else 0#32
  spsr _ := 0#32
  cpsr := Psr.ofWord 0x1D3#32
  pc := 0#32
  scr := 0#32
  cp15 _ _ := 0x00C50078#32
  mem _ := 0#8
  dev := []

theorem caller_registers_written :
    ¬EnablesL1 caller ∧ ¬SelectsLevel1 (dataCacheCleanInvalidateAll ⟨0#32, 0#32, 0#32⟩) caller ∧
      ¬SelectsLevel1 (flushIcacheAndDcache ⟨0#32, 0#32, 0#32⟩) caller := by
  have r10 : caller.reg .r10 ≠ 0#32 := by decide
  refine ⟨?_, ?_, ?_⟩
  · rw [enablesL1_iff]
    decide
  · rw [clean_selectsLevel1_iff]
    exact r10
  · rw [flush_selectsLevel1_iff]
    exact r10

end LTZVisor.Arch.CacheEffects
