/- LTZVisor/Arch/Cache
   kind: model
   digest: The cache routines, with the maintenance operations that they issue by set and way. -/

import LTZVisor.Lib.Loop
import LTZVisor.Arm.Frame

set_option autoImplicit false
set_option relaxedAutoImplicit false

namespace LTZVisor.Arch.Cache

open LTZVisor.Lib.Memory LTZVisor.Lib.Loop LTZVisor.Arm LTZVisor.Arm.Instr

/-- A line of the data cache invalidated, or cleaned and invalidated, by set and way, or cleaned by
its address; the instruction cache, the branch predictor and the TLBs invalidated as a whole. -/
inductive CacheOp
  | dcisw (operand : Word)
  | dccisw (operand : Word)
  | dccmvac (mva : Word)
  | iciallu
  | bpiall
  | tlbiall
  deriving DecidableEq

/-- The maintenance operations issued so far. What the caches contain is not modelled: every access
finds the memory as it was stored to. -/
abbrev Log := List CacheOp

abbrev Cpu := Machine Log

@[simp] def issue (op : Word → CacheOp) (rn : Reg) : Instr Log :=
  fun m => { m with dev := m.dev ++ [op (m.reg rn)] }

@[simp] def mcrDcisw (rn : Reg) : Instr Log := issue .dcisw rn

@[simp] def mcrDccisw (rn : Reg) : Instr Log := issue .dccisw rn

@[simp] def mcrIciallu (rn : Reg) : Instr Log := issue (fun _ => .iciallu) rn

@[simp] def dmb : Instr Log := id

/-- The labels that are branched to: the name of the routine and `2`. -/
inductive Label
  | setWay | two
  deriving DecidableEq

/-- From a label to the next one, or to the return. -/
def setWayPass (maintain : List (Instr Log)) : Label × Cpu → Turn (Label × Cpu) Cpu
  | (.setWay, m) => .again (.two, mov .r9 .r2 m)
  | (.two, m) =>
    let m := exec ([orrLsl .r11 .r0 .r9 .r3, orrLsl .r11 .r11 .r4 .r1] ++ maintain) m
    let m := subs .r9 .r9 1#32 m
    if m.cpsr.ge then .again (.two, m)
    else
      let m := subs .r4 .r4 1#32 m
      if m.cpsr.ge then .again (.setWay, m) else .leave (bxLr m)

def cleanOrInvalidate : List (Instr Log) :=
  [cmp .r5 1#32, onlyIf Psr.eq (mcrDcisw .r11), onlyIf Psr.ne (mcrDccisw .r11)]

def dataCacheCleanInvalidateSetWay (fuel : Nat) (m : Cpu) : Option Cpu :=
  loop (setWayPass cleanOrInvalidate) fuel (.setWay, m)

/-- The routine of the non-secure guest, which never cleans. -/
def dCacheInvalidateSetWay (fuel : Nat) (m : Cpu) : Option Cpu :=
  loop (setWayPass [mcrDcisw .r11]) fuel (.setWay, m)

-- The routines, with the numbers of `platform_asm.h` for the Cortex-A9.

def sctlrIcacheBit : Word := 0x1000#32
def sctlrDcacheBit : Word := 0x4#32

def cacheLevel1Set : Word := 1#32
def cacheLevel2Set : Word := 0#32
def maxL1CacheWays : Word := 3#32
def maxL1Sets : Word := 255#32
def maxL1LineLen : Word := 5#32
def maxL2CacheWays : Word := 0#32
def maxL2Sets : Word := 0#32
def maxL2LineLen : Word := 0#32

def saved : List Reg :=
  [.r0, .r1, .r2, .r3, .r4, .r5, .r6, .r7, .r8, .r9, .r10, .r11, .r12, .lr]

/-- The addresses behind the calls. -/
structure CallSites where
  level1 : Addr
  level2 : Addr
  all : Addr

def enableL1Cache : List (Instr Log) := [
  push saved,
  mrc .r0 .sctlr,
  orr .r1 .r1 sctlrIcacheBit,
  orr .r1 .r1 sctlrDcacheBit,
  mcr .sctlr .r1,
  isb,
  pop saved,
  bxLr]

/-- A level selected and described, up to the call that goes through it. -/
def callLevel (level lineLen ways sets : Word) (next : Addr) : List (Instr Log) := [
  movImm .r0 level,
  mcr .csselr .r0,
  isb,
  movImm .r1 lineLen,
  movImm .r2 ways,
  clz .r3 .r2,
  movImm .r4 sets,
  bl next]

def throughLevel2 (sites : CallSites) (fuel : Nat) (m : Cpu) : Option Cpu :=
  let m := exec [movImm .r0 cacheLevel2Set, cmp .r0 1#32] m
  if m.cpsr.ne then some m
  else dataCacheCleanInvalidateSetWay fuel
    (exec (callLevel 2#32 maxL2LineLen maxL2CacheWays maxL2Sets sites.level2) m)

def throughLevels (sites : CallSites) (fuel : Nat) (m : Cpu) : Option Cpu :=
  let m := exec [movImm .r0 cacheLevel1Set, cmp .r0 1#32] m
  if m.cpsr.ne then some m
  else (dataCacheCleanInvalidateSetWay fuel
    (exec (callLevel 0#32 maxL1LineLen maxL1CacheWays maxL1Sets sites.level1) m)).bind
      (throughLevel2 sites fuel)

def dataCacheCleanInvalidateAll (sites : CallSites) (fuel : Nat) (m : Cpu) : Option Cpu :=
  (throughLevels sites fuel (exec [push saved, dmb, mov .r5 .r0] m)).map
    (exec [movImm .r0 0#32, mcr .csselr .r10, dsb, isb, pop saved, bxLr])

def flushIcacheAndDcache (sites : CallSites) (fuel : Nat) (m : Cpu) : Option Cpu :=
  (dataCacheCleanInvalidateAll sites fuel
      (exec [push saved, movImm .r0 0#32, bl sites.all] m)).map
    (exec [movImm .r0 0#32, mcrIciallu .r0, dsb, isb, pop saved, movPcLr])

private theorem counted (r : Reg) {m m' : Cpu} (count : subs r r 1#32 m = m') :
    Changes [r] [] m m' ∧ m'.reg r = m.reg r - 1#32 ∧ m'.dev = m.dev ∧
      m'.cpsr.ge = (1#32).sle (m.reg r) := by
  subst count
  exact ⟨Changes.subs m r 1#32, Machine.reg_setReg_self _ _ _, rfl, ge_cmp m r 1#32⟩

/-- The instructions of a routine that issue one operation for the operand in r11. -/
structure Issues (maintain : List (Instr Log)) (op : Word → Word → CacheOp) : Prop where
  changes : ∀ m, Changes [] [] m (exec maintain m)
  dev : ∀ m, (exec maintain m).dev = m.dev ++ [op (m.reg .r5) (m.reg .r11)]

def maintenance (r5 operand : Word) : CacheOp :=
  if r5 = 1#32 then .dcisw operand else .dccisw operand

private theorem exec_cleanOrInvalidate (m : Cpu) :
    exec cleanOrInvalidate m = issue (maintenance (m.reg .r5)) .r11 (cmp .r5 1#32 m) := by
  have eq : (cmp .r5 1#32 m).cpsr.eq = (m.reg .r5 == 1#32) := eq_cmp m .r5 1#32
  simp only [cleanOrInvalidate, exec_cons, exec_nil]
  generalize counted : cmp .r5 1#32 m = m₁ at eq ⊢
  by_cases only : m.reg .r5 = 1#32
  · have set : m₁.cpsr.eq = true := eq.trans (beq_iff_eq.mpr only)
    have same : maintenance (m.reg .r5) = CacheOp.dcisw := funext fun _ => if_pos only
    have kept : (mcrDcisw .r11 m₁).cpsr.ne = false := congrArg not set
    rw [onlyIf, onlyIf, if_pos set, kept, same]
    rfl
  · have clear : m₁.cpsr.eq = false := eq.trans (beq_eq_false_iff_ne.mpr only)
    have same : maintenance (m.reg .r5) = CacheOp.dccisw := funext fun _ => if_neg only
    have kept : m₁.cpsr.ne = true := congrArg not clear
    rw [onlyIf, onlyIf, clear, same]
    exact if_pos kept

theorem cleanOrInvalidate_issues : Issues cleanOrInvalidate maintenance where
  changes m := by
    rw [exec_cleanOrInvalidate]
    exact ⟨fun _ _ => rfl, rfl, rfl, fun _ _ _ => rfl, rfl⟩
  dev m := by
    rw [exec_cleanOrInvalidate]
    rfl

theorem dcisw_issues : Issues [mcrDcisw .r11] fun _ operand => .dcisw operand where
  changes _ := ⟨fun _ _ => rfl, rfl, rfl, fun _ _ _ => rfl, rfl⟩
  dev _ := rfl

/-- From a counter down to 0; a negative one is passed once. -/
def countdown (x : Word) : List Word :=
  (List.range (x.toInt.toNat + 1)).map fun k => x - BitVec.ofNat 32 k

private theorem one_sle_iff (x : Word) : (1#32).sle x = true ↔ 1 ≤ x.toNat ∧ x.toNat < 2 ^ 31 := by
  have bound := x.isLt
  rw [BitVec.sle_eq_decide, decide_eq_true_eq, BitVec.toInt_eq_toNat_cond,
    BitVec.toInt_eq_toNat_cond]
  split <;> split <;> simp at * <;> omega

theorem count_toNat {x : Word} (h : x.toNat < 2 ^ 31) : x.toInt.toNat = x.toNat := by
  rw [BitVec.toInt_eq_toNat_of_lt (by omega), Int.toNat_natCast]

private theorem countdown_eq (x : Word) :
    countdown x = x :: if (1#32).sle x then countdown (x - 1#32) else [] := by
  have first : x - BitVec.ofNat 32 0 = x := BitVec.sub_zero x
  rw [countdown, List.range_succ_eq_map, List.map_cons, List.map_map, first, List.cons_inj_right]
  split
  case isTrue positive =>
    obtain ⟨pos, small⟩ := (one_sle_iff x).mp positive
    have less : (x - 1#32).toNat = x.toNat - 1 := by bv_omega
    have count : x.toInt.toNat = (x - 1#32).toInt.toNat + 1 := by
      rw [count_toNat small, count_toNat (by omega)]
      omega
    rw [countdown, count]
    apply List.map_congr_left
    intro k _
    rw [Function.comp, Nat.succ_eq_add_one]
    bv_omega
  case isFalse negative =>
    have none : x.toInt.toNat = 0 := by
      have one : (1#32).toInt = 1 := by decide
      rw [BitVec.sle_eq_decide, decide_eq_true_eq, one] at negative
      omega
    rw [none, List.range_zero, List.map_nil]

section Sweep

variable (m₀ : Cpu)

/-- The operand for a way and a set, with the shifts and the level of `m₀`. -/
def operand (set way : Word) : Word :=
  m₀.reg .r0 ||| way <<< ((m₀.reg .r3).toNat % 256) ||| set <<< ((m₀.reg .r1).toNat % 256)

def row (ways set : Word) : List Word := (countdown ways).map (operand m₀ set)

def sweep (sets : Word) : List Word := (countdown sets).flatMap (row m₀ (m₀.reg .r2))

/-- The operands that are still to come. -/
def pending : Label × Cpu → List Word
  | (.setWay, m) => sweep m₀ (m.reg .r4)
  | (.two, m) => row m₀ (m.reg .r9) (m.reg .r4) ++
      if (1#32).sle (m.reg .r4) then sweep m₀ (m.reg .r4 - 1#32) else []

private theorem row_eq (ways set : Word) :
    row m₀ ways set = operand m₀ set ways ::
      if (1#32).sle ways then row m₀ (ways - 1#32) set else [] := by
  rw [row, countdown_eq, List.map_cons, List.cons_inj_right]
  split <;> rfl

private theorem sweep_eq (sets : Word) :
    sweep m₀ sets = row m₀ (m₀.reg .r2) sets ++
      if (1#32).sle sets then sweep m₀ (sets - 1#32) else [] := by
  rw [sweep, countdown_eq, List.flatMap_cons, List.append_cancel_left_eq]
  split <;> rfl

private theorem operand_congr {m : Cpu} (h : Changes [.r4, .r9, .r11] [] m₀ m) :
    operand m₀ = operand m := by
  funext set way
  rw [operand, operand, h.reg .r0 (by simp), h.reg .r1 (by simp), h.reg .r3 (by simp)]

variable {maintain : List (Instr Log)} {op : Word → Word → CacheOp}

private theorem line_issued (issues : Issues maintain op) (m : Cpu) {m₁ : Cpu}
    (line : exec ([orrLsl .r11 .r0 .r9 .r3, orrLsl .r11 .r11 .r4 .r1] ++ maintain) m = m₁) :
    Changes [.r11] [] m m₁ ∧
      m₁.dev = m.dev ++ [op (m.reg .r5) (operand m (m.reg .r4) (m.reg .r9))] := by
  rw [exec_append, exec_cons, exec_cons, exec_nil] at line
  have way := Changes.setReg m .r11 (m.reg .r0 ||| m.reg .r9 <<< ((m.reg .r3).toNat % 256))
  change Changes [.r11] [] m (orrLsl .r11 .r0 .r9 .r3 m) at way
  have value : (orrLsl .r11 .r0 .r9 .r3 m).reg .r11 =
      m.reg .r0 ||| m.reg .r9 <<< ((m.reg .r3).toNat % 256) :=
    Machine.reg_setReg_self _ _ _
  have dev : (orrLsl .r11 .r0 .r9 .r3 m).dev = m.dev := rfl
  generalize orrLsl .r11 .r0 .r9 .r3 m = u at *
  have set := Changes.setReg u .r11 (u.reg .r11 ||| u.reg .r4 <<< ((u.reg .r1).toNat % 256))
  change Changes [.r11] [] u (orrLsl .r11 .r11 .r4 .r1 u) at set
  have value' : (orrLsl .r11 .r11 .r4 .r1 u).reg .r11 = operand m (m.reg .r4) (m.reg .r9) := by
    rw [orrLsl, Machine.reg_setReg_self, value, way.reg .r4 (by simp), way.reg .r1 (by simp),
      operand]
  have dev' : (orrLsl .r11 .r11 .r4 .r1 u).dev = u.dev := rfl
  generalize orrLsl .r11 .r11 .r4 .r1 u = v at *
  have both := way.trans set
  subst line
  refine ⟨both.andThen (issues.changes v) (by simp) (by simp), ?_⟩
  rw [issues.dev v, dev', dev, value', both.reg .r5 (by simp)]

private theorem setWayPass_two (issues : Issues maintain op) (m : Cpu)
    (registers : Changes [.r4, .r9, .r11] [] m₀ m) :
    ∃ m', Changes [.r4, .r9, .r11] [] m m' ∧
      m'.dev = m.dev ++ [op (m₀.reg .r5) (operand m₀ (m.reg .r4) (m.reg .r9))] ∧
      ((∃ l, setWayPass maintain (.two, m) = .again (l, m') ∧
          pending m₀ (.two, m) =
            operand m₀ (m.reg .r4) (m.reg .r9) :: pending m₀ (l, m')) ∨
        setWayPass maintain (.two, m) = .leave m' ∧
          pending m₀ (.two, m) = [operand m₀ (m.reg .r4) (m.reg .r9)]) := by
  rw [pending, row_eq, setWayPass]
  generalize line : exec _ m = m₁
  obtain ⟨changed, dev⟩ := line_issued issues m line
  rw [← operand_congr m₀ registers, registers.reg .r5 (by simp)] at dev
  have r9 : m₁.reg .r9 = m.reg .r9 := changed.reg .r9 (by simp)
  have r4 : m₁.reg .r4 = m.reg .r4 := changed.reg .r4 (by simp)
  -- The counter of the ways, and behind the last one that of the sets.
  generalize count₂ : subs .r9 .r9 1#32 m₁ = m₂
  obtain ⟨changed₂, reg₂, dev₂, ge₂⟩ := counted .r9 count₂
  have upTo₂ : Changes [.r4, .r9, .r11] [] m m₂ :=
    (changed.mono (by simp) (by simp)).andThen changed₂ (by simp) (by simp)
  have r4₂ : m₂.reg .r4 = m.reg .r4 := (changed₂.reg .r4 (by simp)).trans r4
  rw [r9] at ge₂ reg₂
  rw [← dev₂] at dev
  by_cases moreWays : (1#32).sle (m.reg .r9) = true
  · refine ⟨m₂, upTo₂, dev, .inl ⟨.two, if_pos (ge₂.trans moreWays), ?_⟩⟩
    rw [if_pos moreWays, pending, reg₂, r4₂, List.cons_append]
  have lastWay : ¬m₂.cpsr.ge = true := fun more => moreWays (ge₂.symm.trans more)
  rw [if_neg lastWay, if_neg moreWays]
  generalize count₃ : subs .r4 .r4 1#32 m₂ = m₃
  obtain ⟨changed₃, reg₃, dev₃, ge₃⟩ := counted .r4 count₃
  have upTo₃ := upTo₂.andThen changed₃ (by simp) (by simp)
  rw [r4₂] at ge₃ reg₃
  rw [← dev₃] at dev
  by_cases moreSets : (1#32).sle (m.reg .r4) = true
  · refine ⟨m₃, upTo₃, dev, .inl ⟨.setWay, if_pos (ge₃.trans moreSets), ?_⟩⟩
    rw [if_pos moreSets, pending, reg₃]
    rfl
  · have lastSet : ¬m₃.cpsr.ge = true := fun more => moreSets (ge₃.symm.trans more)
    have upTo₄ := upTo₃.andThen (Changes.bxLr m₃) (by simp) (by simp)
    refine ⟨bxLr m₃, upTo₄, dev, .inr ⟨if_neg lastSet, ?_⟩⟩
    rw [if_neg moreSets]
    rfl

/-- The whole sweep, whatever is in the registers. -/
theorem setWay_returns (issues : Issues maintain op) :
    ∃ m', Returns (setWayPass maintain) (.setWay, m₀) m' ∧ Changes [.r4, .r9, .r11] [] m₀ m' ∧
      m'.dev = m₀.dev ++ (sweep m₀ (m₀.reg .r4)).map (op (m₀.reg .r5)) := by
  apply returns_of_measure
    (fun s => Changes [.r4, .r9, .r11] [] m₀ s.2 ∧
      s.2.dev ++ (pending m₀ s).map (op (m₀.reg .r5)) =
        m₀.dev ++ (sweep m₀ (m₀.reg .r4)).map (op (m₀.reg .r5))) _
    fun s => 2 * (pending m₀ s).length + if s.1 = .setWay then 1 else 0
  case start => exact ⟨Changes.refl _ _ _, rfl⟩
  rintro ⟨l, m⟩ ⟨changed, log⟩
  cases l with
  | setWay =>
    have loaded := Changes.setReg m .r9 (m.reg .r2)
    have r9 : (mov .r9 .r2 m).reg .r9 = m₀.reg .r2 := by
      rw [mov, Machine.reg_setReg_self, changed.reg .r2 (by simp)]
    have r4 : (mov .r9 .r2 m).reg .r4 = m.reg .r4 := loaded.reg .r4 (by simp)
    have same : pending m₀ (.two, mov .r9 .r2 m) = pending m₀ (.setWay, m) := by
      rw [pending, pending, r9, r4, sweep_eq m₀ (m.reg .r4)]
    have changed' := changed.andThen loaded (by simp) (by simp)
    refine .inl ⟨(.two, mov .r9 .r2 m), rfl, ⟨changed', ?_⟩, ?_⟩
    · rw [same]
      exact log
    · rw [same]
      exact Nat.lt_succ_self _
  | two =>
    obtain ⟨m', changed', dev, turn⟩ := setWayPass_two m₀ issues m changed
    rcases turn with ⟨l, again, rest⟩ | ⟨leave, rest⟩
    · refine .inl ⟨(l, m'), again, ⟨changed.trans changed', ?_⟩, ?_⟩
      · rw [← log, rest, dev, List.map_cons, List.append_assoc, List.singleton_append]
      · have label : (if l = Label.setWay then 1 else 0) ≤ 1 := by split <;> decide
        rw [rest, List.length_cons]
        change 2 * _ + (if l = Label.setWay then 1 else 0) < 2 * (_ + 1) + 0
        omega
    · refine .inr ⟨m', leave, changed.trans changed', ?_⟩
      rw [← log, rest, dev, List.map_singleton]

end Sweep

end LTZVisor.Arch.Cache
