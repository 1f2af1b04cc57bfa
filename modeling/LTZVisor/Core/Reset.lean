/- LTZVisor/Core/Reset
   kind: property
   digest: From reset to the call of `ltzvisor_main`, on every CPU. -/

import LTZVisor.Arm.Frame
import LTZVisor.Core.Bss
import LTZVisor.Core.Kickoff

set_option autoImplicit false
set_option relaxedAutoImplicit false

namespace LTZVisor.Core.Reset

open LTZVisor.Lib.Memory LTZVisor.Lib.Block LTZVisor.Lib.Loop LTZVisor.Arm LTZVisor.Arm.Instr
open LTZVisor.Core.Bss LTZVisor.Core.Kickoff

inductive Maintenance
  | iciallu | bpiall | tlbiallis
  deriving DecidableEq

/-- The registers that the reset handler alone uses, and the maintenance it has performed. -/
structure BootRegs where
  mpidr : Word
  nsacr : Word
  mvbar : Word
  maintained : List Maintenance

abbrev Boot := Machine BootRegs

/-- Where the linker put what the reset handler names. -/
structure Symbols where
  secureVectorTable : Addr
  monitorVectorTable : Addr
  fiqStack : Addr
  abortStack : Addr
  undefinedStack : Addr
  userStack : Addr
  monitorStack : Addr
  swBssStart : Addr
  swBssEnd : Addr
  ltzvisorMain : Addr

/-- The addresses behind the four calls, which are made in ARM state. -/
structure CallSites where
  runCpu0 : Addr
  setupStacks : Addr
  initCEnv : Addr
  callMain : Addr
  arm : ∀ next ∈ [runCpu0, setupStacks, initCEnv, callMain], next.getLsbD 0 = false

def nsacrRegVal : Word := 0x60C00#32
def sctlrMmuBit : Word := 0x1#32
def sctlrDcacheBit : Word := 1#32 <<< 2
def sctlrIcacheBit : Word := 1#32 <<< 12

def mrcMpidr (rd : Reg) : Instr BootRegs := fun m => m.setReg rd m.dev.mpidr
def mrcNsacr (rd : Reg) : Instr BootRegs := fun m => m.setReg rd m.dev.nsacr

def mcrNsacr (rn : Reg) : Instr BootRegs :=
  fun m => { m with dev := { m.dev with nsacr := m.reg rn } }

def mcrMvbar (rn : Reg) : Instr BootRegs :=
  fun m => { m with dev := { m.dev with mvbar := m.reg rn } }

/-- These operations ignore the value of their register. -/
def mcrMaintenance (op : Maintenance) : Instr BootRegs :=
  fun m => { m with dev := { m.dev with maintained := m.dev.maintained ++ [op] } }

def andImm (rd rn : Reg) (v : Word) : Instr BootRegs := fun m => m.setReg rd (m.reg rn &&& v)

def orrReg (rd rn rm : Reg) : Instr BootRegs := fun m => m.setReg rd (m.reg rn ||| m.reg rm)

def getCpuId : List (Instr BootRegs) := [mrcMpidr .r0, andImm .r0 .r0 0x03#32, bxLr]

def setSctlr : List (Instr BootRegs) :=
  [mrc .r1 .sctlr, bic .r1 .r1 0x10000000#32, bic .r1 .r1 0x00002000#32, mcr .sctlr .r1]

def setNsacr : List (Instr BootRegs) :=
  [mrcNsacr .r1, movImm .r2 nsacrRegVal, orrReg .r1 .r1 .r2, mcrNsacr .r1]

def nonRouteFiqs : List (Instr BootRegs) := [mrcScr .r1, bic .r1 .r1 scrFiq, mcrScr .r1]

def setAuxiliary : List (Instr BootRegs) := [mrc .r0 .actlr, movImm .r0 0x00#32, mcr .actlr .r0]

def setVectors (s : Symbols) : List (Instr BootRegs) :=
  [movImm .r0 s.secureVectorTable, mcr .vbar .r0, movImm .r0 s.monitorVectorTable, mcrMvbar .r0]

def setupCpu (s : Symbols) : List (Instr BootRegs) :=
  setSctlr ++ setNsacr ++ nonRouteFiqs ++ setAuxiliary ++ setVectors s

def setupStacks (s : Symbols) (next : Addr) : List (Instr BootRegs) :=
  bl next :: getCpuId ++ setupStack fiqMode s.fiqStack ++ setupStack abtMode s.abortStack ++
    setupStack undMode s.undefinedStack ++ setupStack sysMode s.userStack ++
    setupStack monMode s.monitorStack

def disableMmu : List (Instr BootRegs) :=
  [mrc .r1 .sctlr, bic .r1 .r1 sctlrMmuBit, mcr .sctlr .r1]

def disableL1Caches : List (Instr BootRegs) :=
  [mrc .r1 .sctlr, bic .r1 .r1 sctlrDcacheBit, bic .r1 .r1 sctlrIcacheBit, mcr .sctlr .r1]

def invalidate : List (Instr BootRegs) := [
  movImm .r1 0#32, mcrMaintenance .iciallu,
  movImm .r1 0#32, mcrMaintenance .bpiall,
  movImm .r1 0#32, mcrMaintenance .tlbiallis]

def initVmemory : List (Instr BootRegs) := disableMmu ++ disableL1Caches ++ invalidate

def stuckLoop (m : Boot) : Turn Boot Boot := .again m

/-- The instructions in front of the branch to `__stuck_loop`. -/
def runCpu0 (sites : CallSites) : List (Instr BootRegs) :=
  bl sites.runCpu0 :: getCpuId ++ [Instr.cmp .r0 0#32]

/-- From there to `__init_c_env`. -/
def startSecureCore (s : Symbols) (sites : CallSites) : List (Instr BootRegs) :=
  setupCpu s ++ setupStacks s sites.setupStacks ++ initVmemory

/-- `_reset_handler`, up to the first instruction of `ltzvisor_main`. -/
def resetHandler (s : Symbols) (sites : CallSites) (fuel : Nat) (m : Boot) : Option Boot :=
  let m := exec (runCpu0 sites) m
  if m.cpsr.ne then loop stuckLoop fuel m
  else
    let m := exec (startSecureCore s sites) m
    (cEnvironmentInit s.swBssStart s.swBssEnd fuel (bl sites.initCEnv m)).map fun m =>
      { bl sites.callMain m with pc := s.ltzvisorMain }

abbrev Regs := Bank → Reg → Word

def Keeps (rs : List (Bank × Reg)) (old new : Regs) : Prop :=
  ∀ b r, (b, r) ∉ rs → new b r = old b r

theorem Keeps.trans {rs rs' : List (Bank × Reg)} {old mid new : Regs} (h : Keeps rs old mid)
    (h' : Keeps rs' mid new) : Keeps (rs ++ rs') old new := by
  intro b r out
  rw [List.mem_append, not_or] at out
  exact (h' b r out.2).trans (h b r out.1)

theorem Keeps.mono {rs rs' : List (Bank × Reg)} {old new : Regs} (h : Keeps rs old new)
    (sub : rs ⊆ rs') : Keeps rs' old new :=
  fun b r out => h b r fun hit => out (sub hit)

private theorem keeps_setReg (m : Boot) (r : Reg) (v : Word) :
    Keeps [(m.bank.home r, r)] m.regs (m.setReg r v).regs := by
  intro b r' out
  simp only [List.mem_cons, Prod.mk.injEq, List.not_mem_nil, or_false] at out
  exact if_neg out

def scratch : List (Bank × Reg) := [(.usr, .r0), (.usr, .r1), (.usr, .r2)]

private theorem exec_getCpuId (next : Addr) (m : Boot) : ∃ regs,
    exec (bl next :: getCpuId) m =
        { m with regs, pc := next &&& ~~~1#32, cpsr := { m.cpsr with t := next.getLsbD 0 } } ∧
      regs .usr .r0 = m.dev.mpidr &&& 0x03#32 ∧ Keeps [(.usr, .r0), (m.bank, .lr)] m.regs regs := by
  refine ⟨(exec (bl next :: getCpuId) m).regs, ?_, ?_, ?_⟩
  case refine_1 =>
    ext1
    case cpsr => simp [getCpuId, mrcMpidr, andImm]
    case pc => simp [getCpuId, mrcMpidr, andImm]
    all_goals rfl
  case refine_2 => simp [getCpuId, mrcMpidr, andImm]
  case refine_3 =>
    simp [Keeps, getCpuId, mrcMpidr, andImm]
    grind

def clearSctlr (masks : List Word) : List (Instr BootRegs) :=
  mrc .r1 .sctlr :: masks.map (bic .r1 .r1) ++ [mcr .sctlr .r1]

def cleared (masks : List Word) (v : Word) : Word := masks.foldl (fun v mask => v &&& ~~~mask) v

private theorem exec_bics (masks : List Word) (m : Boot) :
    exec (masks.map (bic .r1 .r1)) m = m.setReg .r1 (cleared masks (m.reg .r1)) := by
  induction masks generalizing m with
  | nil =>
    ext1
    case regs =>
      funext b r
      simp [cleared]
      grind
    all_goals rfl
  | cons mask masks ih =>
    rw [List.map_cons, exec_cons, ih]
    ext1
    case regs =>
      funext b r
      simp [cleared]
      grind
    all_goals rfl

private theorem exec_clearSctlr (masks : List Word) {m : Boot} (secure : m.world = .secure) :
    ∃ regs, exec (clearSctlr masks) m = { m with
        regs
        cp15 := fun w c => if w = .secure ∧ c = .sctlr then cleared masks (m.cp15 .secure .sctlr)
          else m.cp15 w c } ∧
      Keeps [(.usr, .r1)] m.regs regs := by
  have whole : exec (clearSctlr masks) m =
      mcr .sctlr .r1 ((mrc .r1 .sctlr m).setReg .r1 (cleared masks (m.readCp15 .sctlr))) := by
    rw [clearSctlr, List.cons_append, exec_cons, exec_append, exec_bics]
    have value : (mrc .r1 .sctlr m).reg .r1 = m.readCp15 .sctlr := Machine.reg_setReg_self _ _ _
    rw [value]
    rfl
  refine ⟨(exec (clearSctlr masks) m).regs, ?_, ?_⟩ <;> rw [whole]
  case refine_1 =>
    have bit := secure
    simp only [Machine.world] at bit
    ext1
    case cp15 => simp [Machine.world, bit, Cp15Reg.bank]
    all_goals rfl
  case refine_2 =>
    simp [Keeps]
    grind

private theorem exec_setNsacr (m : Boot) : ∃ regs,
    exec setNsacr m = { m with
        regs
        dev := { m.dev with nsacr := m.dev.nsacr ||| nsacrRegVal } } ∧
      Keeps [(.usr, .r1), (.usr, .r2)] m.regs regs := by
  refine ⟨(exec setNsacr m).regs, ?_, ?_⟩
  case refine_1 =>
    ext1
    case dev => simp [setNsacr, mrcNsacr, mcrNsacr, orrReg]
    all_goals rfl
  case refine_2 =>
    simp [Keeps, setNsacr, mrcNsacr, mcrNsacr, orrReg]
    grind

private theorem exec_nonRouteFiqs (m : Boot) : ∃ regs,
    exec nonRouteFiqs m = { m with regs, scr := m.scr &&& ~~~scrFiq } ∧
      Keeps [(.usr, .r1)] m.regs regs := by
  refine ⟨(exec nonRouteFiqs m).regs, ?_, ?_⟩
  case refine_1 =>
    ext1
    case scr => simp [nonRouteFiqs]
    all_goals rfl
  case refine_2 =>
    simp [Keeps, nonRouteFiqs]
    grind

private theorem exec_setAuxiliary (m : Boot) : ∃ regs,
    exec setAuxiliary m = { m with
        regs
        cp15 := fun w c => if w = .secure ∧ c = .actlr then 0#32 else m.cp15 w c } ∧
      Keeps [(.usr, .r0)] m.regs regs := by
  refine ⟨(exec setAuxiliary m).regs, ?_, ?_⟩
  case refine_1 =>
    ext1
    case cp15 =>
      funext w c
      simp [setAuxiliary, Cp15Reg.bank]
    all_goals rfl
  case refine_2 =>
    simp [Keeps, setAuxiliary]
    grind

private theorem exec_setVectors (s : Symbols) (m : Boot) (secure : m.world = .secure) : ∃ regs,
    exec (setVectors s) m = { m with
        regs
        cp15 := fun w c =>
          if w = .secure ∧ c = .vbar then s.secureVectorTable else m.cp15 w c
        dev := { m.dev with mvbar := s.monitorVectorTable } } ∧
      Keeps [(.usr, .r0)] m.regs regs := by
  refine ⟨(exec (setVectors s) m).regs, ?_, ?_⟩
  case refine_1 =>
    ext1
    case cp15 =>
      funext w c
      have s := secure
      simp only [Machine.world] at s
      simp [setVectors, mcrMvbar, Machine.world, s, Cp15Reg.bank]
    case dev => simp [setVectors, mcrMvbar]
    all_goals rfl
  case refine_2 =>
    simp [Keeps, setVectors, mcrMvbar]
    grind

private theorem msrCpsrC_masked (mode : BitVec 5) (m : Boot) :
    msrCpsrC (0x80#8 ||| 0x40#8 ||| mode.setWidth 8) m =
      { m with cpsr := { m.cpsr with i := true, f := true, mode } } := by
  have low : (0x80#8 ||| 0x40#8 ||| mode.setWidth 8).extractLsb' 0 5 = mode := by
    ext i hi
    interval_cases i <;> simp
  simp only [msrCpsrC, low]
  simp

private theorem exec_setupStack (mode : BitVec 5) (stack : Addr) (m : Boot) : ∃ regs,
    exec (setupStack mode stack) m =
        { m with regs, cpsr := { m.cpsr with i := true, f := true, mode } } ∧
      regs (bankOf mode) .sp = stack + m.regs .usr .r0 <<< stackSizeShift + stackSize ∧
      Keeps [(.usr, .r1), (bankOf mode, .sp)] m.regs regs := by
  refine ⟨(exec (setupStack mode stack) m).regs, ?_, ?_, ?_⟩ <;>
    rw [setupStack, setStack, exec_cons, msrCpsrC_masked]
  case refine_1 => rfl
  case refine_2 => simp [addLsl]
  case refine_3 =>
    simp [Keeps, addLsl]
    grind

private theorem exec_invalidate (m : Boot) : ∃ regs,
    exec invalidate m = { m with
        regs
        dev := { m.dev with
          maintained := m.dev.maintained ++ [.iciallu, .bpiall, .tlbiallis] } } ∧
      Keeps [(.usr, .r1)] m.regs regs := by
  refine ⟨(exec invalidate m).regs, ?_, ?_⟩
  case refine_1 =>
    ext1
    case dev => simp [invalidate, mcrMaintenance]
    all_goals rfl
  case refine_2 =>
    simp [Keeps, invalidate, mcrMaintenance]
    grind

/-- The banks with a stack of their own, in the order in which they get it. -/
def modeStacks (s : Symbols) : List (BitVec 5 × Addr) :=
  [(fiqMode, s.fiqStack), (abtMode, s.abortStack), (undMode, s.undefinedStack),
    (sysMode, s.userStack), (monMode, s.monitorStack)]

def maskedIn (c : Psr) (p : BitVec 5 × Addr) : Psr := { c with i := true, f := true, mode := p.1 }

private theorem exec_stacks (ps : List (BitVec 5 × Addr))
    (distinct : (ps.map fun p => bankOf p.1).Nodup) (m : Boot) : ∃ regs,
    exec (ps.flatMap fun p => setupStack p.1 p.2) m =
        { m with regs, cpsr := ps.foldl maskedIn m.cpsr } ∧
      (∀ p ∈ ps, regs (bankOf p.1) .sp =
        p.2 + m.regs .usr .r0 <<< stackSizeShift + stackSize) ∧
      Keeps ((.usr, .r1) :: ps.map fun p => (bankOf p.1, .sp)) m.regs regs := by
  induction ps generalizing m with
  | nil => exact ⟨m.regs, rfl, fun p hp => absurd hp List.not_mem_nil, fun _ _ _ => rfl⟩
  | cons p ps ih =>
    rw [List.map_cons, List.nodup_cons] at distinct
    obtain ⟨regs₁, eq₁, sp₁, keeps₁⟩ := exec_setupStack p.1 p.2 m
    obtain ⟨regs₂, eq₂, sp₂, keeps₂⟩ := ih distinct.2 (exec (setupStack p.1 p.2) m)
    rw [eq₁] at sp₂ keeps₂
    refine ⟨regs₂, ?_, ?_, ?_⟩
    case refine_1 =>
      rw [List.flatMap_cons, exec_append, eq₂, eq₁]
      rfl
    case refine_2 =>
      have cpu : regs₁ .usr .r0 = m.regs .usr .r0 := keeps₁ _ _ (by simp)
      intro q hq
      rcases List.mem_cons.mp hq with rfl | later
      · exact (keeps₂ _ _ (by simpa using distinct.1)).trans sp₁
      · rw [← cpu]
        exact sp₂ q later
    case refine_3 => exact (keeps₁.trans keeps₂).mono (by simp)

private theorem exec_setupStacks (s : Symbols) (next : Addr) (m : Boot) : ∃ regs,
    exec (setupStacks s next) m = { m with
        regs
        pc := next &&& ~~~1#32
        cpsr := { m.cpsr with t := next.getLsbD 0, i := true, f := true, mode := monMode } } ∧
      (∀ p ∈ modeStacks s, regs (bankOf p.1) .sp =
        p.2 + (m.dev.mpidr &&& 0x03#32) <<< stackSizeShift + stackSize) ∧
      Keeps ([(.usr, .r0), (m.bank, .lr), (.usr, .r1)] ++
        (modeStacks s).map fun p => (bankOf p.1, .sp)) m.regs regs := by
  obtain ⟨regs₁, eq₁, cpu, keeps₁⟩ := exec_getCpuId next m
  have distinct : ([fiqMode, abtMode, undMode, sysMode, monMode].map bankOf).Nodup := by decide
  obtain ⟨regs₂, eq₂, sp, keeps₂⟩ := exec_stacks (modeStacks s) distinct
    (exec (bl next :: getCpuId) m)
  have whole : exec (setupStacks s next) m =
      exec ((modeStacks s).flatMap fun p => setupStack p.1 p.2) (exec (bl next :: getCpuId) m) := by
    rw [← exec_append]
    simp [setupStacks, modeStacks]
  rw [eq₁] at sp keeps₂
  rw [← cpu]
  refine ⟨regs₂, ?_, sp, (keeps₁.trans keeps₂).mono (by simp)⟩
  rw [whole, eq₂, eq₁]
  rfl

private theorem world_of_ns {m m' : Boot} (ns : m'.scr &&& scrNs = m.scr &&& scrNs) :
    m'.world = m.world := by
  rw [Machine.world, ns, Machine.world]

private theorem exec_setupCpu (s : Symbols) {m : Boot} (secure : m.world = .secure) : ∃ regs,
    exec (setupCpu s) m = { m with
        regs
        scr := m.scr &&& ~~~scrFiq
        cp15 := fun w c =>
          if w = .secure ∧ c = .vbar then s.secureVectorTable
          else if w = .secure ∧ c = .actlr then 0#32
          else if w = .secure ∧ c = .sctlr then
            cleared [0x10000000#32, 0x00002000#32] (m.cp15 .secure .sctlr)
          else m.cp15 w c
        dev := { m.dev with
          nsacr := m.dev.nsacr ||| nsacrRegVal
          mvbar := s.monitorVectorTable } } ∧
      Keeps scratch m.regs regs := by
  simp only [setupCpu, exec_append]
  obtain ⟨regs₁, eq₁, keeps₁⟩ := exec_clearSctlr [0x10000000#32, 0x00002000#32] secure
  change exec setSctlr m = _ at eq₁
  obtain ⟨regs₂, eq₂, keeps₂⟩ := exec_setNsacr (exec setSctlr m)
  rw [eq₁] at eq₂ keeps₂
  obtain ⟨regs₃, eq₃, keeps₃⟩ := exec_nonRouteFiqs (exec setNsacr (exec setSctlr m))
  rw [eq₁, eq₂] at eq₃ keeps₃
  obtain ⟨regs₄, eq₄, keeps₄⟩ :=
    exec_setAuxiliary (exec nonRouteFiqs (exec setNsacr (exec setSctlr m)))
  rw [eq₁, eq₂, eq₃] at eq₄ keeps₄
  have secure₄ : (exec setAuxiliary
      (exec nonRouteFiqs (exec setNsacr (exec setSctlr m)))).world = .secure := by
    rw [eq₁, eq₂, eq₃, eq₄, ← secure]
    apply world_of_ns
    rw [BitVec.and_assoc]
    rfl
  obtain ⟨regs₅, eq₅, keeps₅⟩ := exec_setVectors s _ secure₄
  rw [eq₁, eq₂, eq₃, eq₄] at eq₅ keeps₅
  refine ⟨regs₅, ?_, ?_⟩
  · rw [eq₁, eq₂, eq₃, eq₄, eq₅]
  · have keeps := (((keeps₁.trans keeps₂).trans keeps₃).trans keeps₄).trans keeps₅
    exact keeps.mono (by simp [scratch])

private theorem exec_initVmemory {m : Boot} (secure : m.world = .secure) : ∃ regs,
    exec initVmemory m = { m with
        regs
        cp15 := fun w c => if w = .secure ∧ c = .sctlr then
            cleared [sctlrMmuBit, sctlrDcacheBit, sctlrIcacheBit] (m.cp15 .secure .sctlr)
          else m.cp15 w c
        dev := { m.dev with
          maintained := m.dev.maintained ++ [.iciallu, .bpiall, .tlbiallis] } } ∧
      Keeps [(.usr, .r1)] m.regs regs := by
  simp only [initVmemory, exec_append]
  obtain ⟨regs₁, eq₁, keeps₁⟩ := exec_clearSctlr [sctlrMmuBit] secure
  change exec disableMmu m = _ at eq₁
  have secure₁ : (exec disableMmu m).world = .secure := by
    rw [eq₁, ← secure]
    exact world_of_ns rfl
  obtain ⟨regs₂, eq₂, keeps₂⟩ := exec_clearSctlr [sctlrDcacheBit, sctlrIcacheBit] secure₁
  change exec disableL1Caches _ = _ at eq₂
  rw [eq₁] at eq₂ keeps₂
  obtain ⟨regs₃, eq₃, keeps₃⟩ := exec_invalidate (exec disableL1Caches (exec disableMmu m))
  rw [eq₁, eq₂] at eq₃ keeps₃
  refine ⟨regs₃, ?_, ((keeps₁.trans keeps₂).trans keeps₃).mono (by simp)⟩
  rw [eq₁, eq₂, eq₃]
  ext1
  case cp15 =>
    funext w c
    simp [cleared]
    grind
  all_goals rfl

/-- A loop that only stores, through r0 to r2. -/
def OnlyStores (m m' : Boot) : Prop := ∃ regs mem n z c v,
  m' = { m with regs, mem, cpsr := { m.cpsr with n, z, c, v } } ∧ Keeps scratch m.regs regs

theorem OnlyStores.trans {m m' m'' : Boot} (h : OnlyStores m m') (h' : OnlyStores m' m'') :
    OnlyStores m m'' := by
  obtain ⟨regs₁, mem₁, n₁, z₁, c₁, v₁, rfl, keeps₁⟩ := h
  obtain ⟨regs, mem, n, z, c, v, rfl, keeps⟩ := h'
  exact ⟨regs, mem, n, z, c, v, rfl, (keeps₁.trans keeps).mono (by simp)⟩

private theorem cmp_onlyStores (m : Boot) : OnlyStores m (cmpReg .r1 .r2 m) :=
  ⟨m.regs, m.mem, _, _, _, _, rfl, fun _ _ _ => rfl⟩

private theorem store_onlyStores (m : Boot) : OnlyStores m (strPost .r0 .r1 m) := by
  refine ⟨(strPost .r0 .r1 m).regs, (strPost .r0 .r1 m).mem, _, _, _, _, rfl, ?_⟩
  simp [Keeps, scratch]
  grind

private theorem init_onlyStores {m m' : Boot} (returned : Returns initPass m m') :
    OnlyStores m m' := by
  apply returned.keeps (OnlyStores m) (OnlyStores m)
  case start => exact ⟨m.regs, m.mem, _, _, _, _, rfl, fun _ _ _ => rfl⟩
  case again =>
    intro m₁ m₂ h again
    rw [initPass] at again
    split at again
    · cases again
    · injection again with again
      rw [← again]
      exact (h.trans (cmp_onlyStores m₁)).trans (store_onlyStores _)
  case leave =>
    intro m₁ m₂ h leave
    rw [initPass] at leave
    split at leave
    · injection leave with leave
      rw [← leave]
      exact h.trans (cmp_onlyStores m₁)
    · cases leave

private theorem entry_onlyStores (start stop : Addr) (m : Boot) :
    OnlyStores m (exec (initEntry start stop) m) := by
  refine ⟨(exec (initEntry start stop) m).regs, _, _, _, _, _, rfl, ?_⟩
  simp [Keeps, scratch, initEntry]
  grind

private theorem called_cEnvironmentInit {start stop next : Addr} {fuel : Nat} {m m' : Boot}
    (block : WordBlock start stop)
    (run : cEnvironmentInit start stop fuel (bl next m) = some m') : ∃ regs n z c v,
      m' = { m with
          regs
          mem := filled m.mem ⟨start, (stop - start).toNat + 4⟩ 0#8
          pc := next &&& ~~~1#32
          cpsr := { m.cpsr with n, z, c, v, t := next.getLsbD 0 } } ∧
        stop ≠ 0x7FFFFFFC#32 ∧ Keeps ((m.bank, .lr) :: scratch) m.regs regs := by
  obtain ⟨m₁, returned, rfl⟩ := cEnvironmentInit_eq_some_iff.mp ⟨fuel, run⟩
  have entry := initEntry_zeroing (bl next m) start stop
  have last : stop ≠ 0x7FFFFFFC#32 := by
    rintro rfl
    exact init_runs_on block.startAligned entry m₁ returned
  obtain ⟨m₂, returned₂, mem⟩ := init_returns block (block.room last) entry
  rw [returned₂.unique returned] at mem
  obtain ⟨regs, _, n, z, c, v, rfl, keeps⟩ :=
    (entry_onlyStores start stop (bl next m)).trans (init_onlyStores returned)
  have link : Keeps [(m.bank, .lr)] m.regs (bl next m).regs := keeps_setReg m .lr next
  have back : regs m.bank .lr = next := by
    rw [keeps _ _ (by simp [scratch])]
    exact Machine.reg_setReg_self m .lr next
  refine ⟨regs, n, z, c, v, ?_, last, link.trans keeps⟩
  ext1
  case mem => exact mem
  case pc => exact congrArg (· &&& ~~~1#32) back
  case cpsr =>
    ext1
    case t => exact congrArg (·.getLsbD 0) back
    all_goals rfl
  all_goals rfl

/-- It returns unless the bss ends with the last word below 0x80000000. -/
private theorem cEnvironmentInit_returns {start stop : Addr} (block : WordBlock start stop)
    (last : stop ≠ 0x7FFFFFFC#32) (m : Boot) :
    ∃ fuel m', cEnvironmentInit start stop fuel m = some m' := by
  obtain ⟨m₁, returned, -⟩ := init_returns block (block.room last) (initEntry_zeroing m start stop)
  obtain ⟨fuel, run⟩ := cEnvironmentInit_eq_some_iff.mpr ⟨m₁, returned, rfl⟩
  exact ⟨fuel, _, run⟩

/-- What the parts make of the CP15 registers. -/
def startedCp15 (s : Symbols) (cp15 : World → Cp15Reg → Word) : World → Cp15Reg → Word := fun w c =>
  if w = .secure ∧ c = .sctlr then cp15 .secure .sctlr &&& ~~~0x10003005#32
  else if w = .secure ∧ c = .actlr then 0#32
  else if w = .secure ∧ c = .vbar then s.secureVectorTable
  else cp15 w c

def startedDev (s : Symbols) (dev : BootRegs) : BootRegs where
  mpidr := dev.mpidr
  nsacr := dev.nsacr ||| nsacrRegVal
  mvbar := s.monitorVectorTable
  maintained := dev.maintained ++ [.iciallu, .bpiall, .tlbiallis]

private theorem cleared_sctlr (v : Word) :
    cleared [sctlrMmuBit, sctlrDcacheBit, sctlrIcacheBit]
        (cleared [0x10000000#32, 0x00002000#32] v) = v &&& ~~~0x10003005#32 := by
  simp only [cleared, List.foldl_cons, List.foldl_nil, BitVec.and_assoc]
  rfl

private theorem exec_startSecureCore (s : Symbols) (sites : CallSites) {m : Boot}
    (secure : m.world = .secure) : ∃ regs,
      exec (startSecureCore s sites) m = { m with
          regs
          pc := sites.setupStacks &&& ~~~1#32
          cpsr := { m.cpsr with
            t := sites.setupStacks.getLsbD 0, i := true, f := true, mode := monMode }
          scr := m.scr &&& ~~~scrFiq
          cp15 := startedCp15 s m.cp15
          dev := startedDev s m.dev } ∧
        (∀ p ∈ modeStacks s, regs (bankOf p.1) .sp =
          p.2 + (m.dev.mpidr &&& 0x03#32) <<< stackSizeShift + stackSize) ∧
        Keeps (scratch ++ [(m.bank, .lr)] ++ (modeStacks s).map fun p => (bankOf p.1, .sp))
          m.regs regs := by
  simp only [startSecureCore, exec_append]
  obtain ⟨regs₁, eq₁, keeps₁⟩ := exec_setupCpu s secure
  obtain ⟨regs₂, eq₂, sp, keeps₂⟩ := exec_setupStacks s sites.setupStacks (exec (setupCpu s) m)
  rw [eq₁] at eq₂ sp keeps₂
  have secure₂ :
      (exec (setupStacks s sites.setupStacks) (exec (setupCpu s) m)).world = .secure := by
    rw [eq₁, eq₂, ← secure]
    apply world_of_ns
    rw [BitVec.and_assoc]
    rfl
  obtain ⟨regs₃, eq₃, keeps₃⟩ := exec_initVmemory secure₂
  rw [eq₁, eq₂] at eq₃ keeps₃
  refine ⟨regs₃, ?_, ?_, ?_⟩
  case refine_1 =>
    rw [eq₁, eq₂, eq₃]
    ext1
    case cp15 =>
      funext w c
      by_cases here : w = .secure ∧ c = .sctlr
      · obtain ⟨rfl, rfl⟩ := here
        exact cleared_sctlr _
      · simp only [startedCp15, if_neg here]
        grind
    all_goals rfl
  case refine_2 =>
    intro p hp
    exact (keeps₃ _ _ (by simp)).trans (sp p hp)
  case refine_3 =>
    apply ((keeps₁.trans keeps₂).trans keeps₃).mono
    simp [scratch, modeStacks]

/-- The registers whose values are not kept. -/
def overwritten (s : Symbols) (m : Boot) : List (Bank × Reg) :=
  scratch ++ [(m.bank, .lr), (.mon, .lr)] ++ (modeStacks s).map fun p => (bankOf p.1, .sp)

/-- The machine `m'` that `ltzvisor_main` is called on, when the core was reset as `m`. -/
structure HandedOver (s : Symbols) (m m' : Boot) : Prop where
  pc : m'.pc = s.ltzvisorMain
  mode : m'.cpsr.mode = monMode
  arm : m'.cpsr.t = false
  status : m'.cpsr.mid = m.cpsr.mid
  masked : m'.cpsr.i = true ∧ m'.cpsr.f = true
  stack : ∀ p ∈ modeStacks s, m'.regs (bankOf p.1) .sp = p.2 + stackSize
  reg : Keeps (overwritten s m) m.regs m'.regs
  spsr : m'.spsr = m.spsr
  scr : m'.scr = m.scr &&& ~~~scrFiq
  sctlr : m'.cp15 .secure .sctlr = m.cp15 .secure .sctlr &&& ~~~0x10003005#32
  actlr : m'.cp15 .secure .actlr = 0#32
  vbar : m'.cp15 .secure .vbar = s.secureVectorTable
  cp15 : ∀ w c, (w = .secure → c ∉ [.sctlr, .actlr, .vbar]) → m'.cp15 w c = m.cp15 w c
  mem : m'.mem = filled m.mem ⟨s.swBssStart, (s.swBssEnd - s.swBssStart).toNat + 4⟩ 0#8
  dev : m'.dev =
    { mpidr := m.dev.mpidr
      nsacr := m.dev.nsacr ||| nsacrRegVal
      mvbar := s.monitorVectorTable
      maintained := m.dev.maintained ++ [.iciallu, .bpiall, .tlbiallis] }

private theorem exec_runCpu0 (sites : CallSites) (m : Boot) : ∃ regs n c v,
    exec (runCpu0 sites) m = { m with
        regs
        pc := sites.runCpu0 &&& ~~~1#32
        cpsr := { m.cpsr with
          n, c, v, z := m.dev.mpidr &&& 0x03#32 == 0#32, t := sites.runCpu0.getLsbD 0 } } ∧
      Keeps [(.usr, .r0), (m.bank, .lr)] m.regs regs := by
  obtain ⟨regs, eq, cpu, keeps⟩ := exec_getCpuId sites.runCpu0 m
  have flag : (Instr.cmp .r0 0#32 (exec (bl sites.runCpu0 :: getCpuId) m)).cpsr.z =
      (m.dev.mpidr &&& 0x03#32 == 0#32) := by
    rw [← cpu, eq]
    exact eq_cmp _ _ _
  rw [runCpu0, exec_append, exec_cons, exec_nil]
  refine ⟨regs, (Instr.cmp .r0 0#32 (exec (bl sites.runCpu0 :: getCpuId) m)).cpsr.n,
    (Instr.cmp .r0 0#32 (exec (bl sites.runCpu0 :: getCpuId) m)).cpsr.c,
    (Instr.cmp .r0 0#32 (exec (bl sites.runCpu0 :: getCpuId) m)).cpsr.v, ?_, keeps⟩
  rw [← flag, eq]
  rfl

theorem stuck (m m' : Boot) (fuel : Nat) : loop stuckLoop fuel m ≠ some m' :=
  fun run => not_returns (fun _ => True) (fun m _ => ⟨m, rfl, trivial⟩) trivial m' ⟨fuel, run⟩

private theorem resetHandler_other (s : Symbols) (sites : CallSites) {m : Boot}
    (other : m.dev.mpidr &&& 0x03#32 ≠ 0#32) (fuel : Nat) (m' : Boot) :
    resetHandler s sites fuel m ≠ some m' := by
  obtain ⟨regs, n, c, v, eq, -⟩ := exec_runCpu0 sites m
  rw [resetHandler, eq, if_pos (by simpa [Psr.ne] using other)]
  exact stuck _ m' fuel

/-- The first CPU in front of the call of `c_environment_init`. -/
structure Started (s : Symbols) (m m' : Boot) : Prop where
  mode : m'.cpsr.mode = monMode
  masked : m'.cpsr.i = true ∧ m'.cpsr.f = true
  status : m'.cpsr.mid = m.cpsr.mid
  stack : ∀ p ∈ modeStacks s, m'.regs (bankOf p.1) .sp = p.2 + stackSize
  reg : Keeps (scratch ++ [(m.bank, .lr)] ++ (modeStacks s).map fun p => (bankOf p.1, .sp))
    m.regs m'.regs
  spsr : m'.spsr = m.spsr
  scr : m'.scr = m.scr &&& ~~~scrFiq
  cp15 : m'.cp15 = startedCp15 s m.cp15
  mem : m'.mem = m.mem
  dev : m'.dev = startedDev s m.dev

private theorem resetHandler_first (s : Symbols) (sites : CallSites) {m : Boot}
    (first : m.dev.mpidr &&& 0x03#32 = 0#32) (fuel : Nat) :
    resetHandler s sites fuel m =
      (cEnvironmentInit s.swBssStart s.swBssEnd fuel
        (bl sites.initCEnv (exec (startSecureCore s sites) (exec (runCpu0 sites) m)))).map fun m =>
          { bl sites.callMain m with pc := s.ltzvisorMain } := by
  obtain ⟨regs, n, c, v, eq, -⟩ := exec_runCpu0 sites m
  have equal : (exec (runCpu0 sites) m).cpsr.ne = false := by
    rw [eq]
    simp [Psr.ne, first]
  rw [resetHandler, if_neg (by simp [equal])]

theorem started (s : Symbols) (sites : CallSites) {m : Boot} (secure : m.world = .secure)
    (first : m.dev.mpidr &&& 0x03#32 = 0#32) :
    Started s m (exec (startSecureCore s sites) (exec (runCpu0 sites) m)) := by
  obtain ⟨regs₁, n, c, v, eq₁, keeps₁⟩ := exec_runCpu0 sites m
  have secure₁ : (exec (runCpu0 sites) m).world = .secure := by
    rw [eq₁, ← secure]
    exact world_of_ns rfl
  obtain ⟨regs₂, eq₂, sp, keeps₂⟩ := exec_startSecureCore s sites secure₁
  rw [eq₁] at eq₂ sp keeps₂
  rw [eq₁, eq₂]
  constructor
  case stack =>
    intro p hp
    have offset : (0#32 : Word) <<< stackSizeShift = 0#32 := rfl
    have pointer := sp p hp
    rw [first, offset, BitVec.add_zero] at pointer
    exact pointer
  case reg => exact (keeps₁.trans keeps₂).mono (by simp [scratch])
  case masked => exact ⟨rfl, rfl⟩
  all_goals rfl

theorem Started.handedOver {s : Symbols} (sites : CallSites) {m m₁ m₂ : Boot} {fuel : Nat}
    (h : Started s m m₁) (block : WordBlock s.swBssStart s.swBssEnd)
    (called : cEnvironmentInit s.swBssStart s.swBssEnd fuel (bl sites.initCEnv m₁) = some m₂) :
    HandedOver s m { bl sites.callMain m₂ with pc := s.ltzvisorMain } := by
  have bank : m₁.bank = .mon := congrArg bankOf h.mode
  obtain ⟨regs, n, z, c, v, eq, -, keeps⟩ := called_cEnvironmentInit block called
  have bank₂ : m₂.bank = .mon := by
    rw [eq]
    exact bank
  have link : Keeps [(.mon, .lr)] m₂.regs (bl sites.callMain m₂).regs := by
    have set := keeps_setReg m₂ .lr sites.callMain
    rw [bank₂] at set
    exact set
  rw [bank] at keeps
  subst eq
  have called_keeps := keeps.trans link
  constructor
  case stack =>
    intro p hp
    exact (called_keeps _ _ (by simp [scratch])).trans (h.stack p hp)
  case reg =>
    apply (h.reg.trans called_keeps).mono
    intro p hp
    simp only [overwritten, List.mem_append, List.mem_cons] at hp ⊢
    tauto
  case mode => exact h.mode
  case masked => exact h.masked
  case status => exact h.status
  case arm => exact sites.arm _ (by simp)
  case spsr => exact h.spsr
  case scr => exact h.scr
  case sctlr => exact (congrFun₂ h.cp15 _ _).trans (if_pos ⟨rfl, rfl⟩)
  case actlr => exact congrFun₂ h.cp15 _ _
  case vbar => exact congrFun₂ h.cp15 _ _
  case cp15 =>
    intro w c out
    have same := congrFun₂ h.cp15 w c
    simp only [startedCp15] at same
    rw [if_neg, if_neg, if_neg] at same
    · exact same
    all_goals grind
  case mem => exact congrArg (filled · _ 0#8) h.mem
  case dev => exact h.dev
  case pc => rfl

/-- Only the first CPU comes to `ltzvisor_main`. -/
theorem reset_comes_to_main (s : Symbols) (sites : CallSites)
    (block : WordBlock s.swBssStart s.swBssEnd) {m : Boot} (secure : m.world = .secure) :
    ((∃ fuel m', resetHandler s sites fuel m = some m') ↔
        m.dev.mpidr &&& 0x03#32 = 0#32 ∧ s.swBssEnd ≠ 0x7FFFFFFC#32) ∧
      ∀ fuel m', resetHandler s sites fuel m = some m' → HandedOver s m m' := by
  by_cases first : m.dev.mpidr &&& 0x03#32 = 0#32
  case neg =>
    have other := resetHandler_other s sites first
    exact ⟨⟨fun ⟨fuel, m', run⟩ => absurd run (other fuel m'), fun h => absurd h.1 first⟩,
      fun fuel m' run => absurd run (other fuel m')⟩
  case pos =>
    have eq := resetHandler_first s sites first
    refine ⟨⟨?_, ?_⟩, ?_⟩
    case refine_1 =>
      rintro ⟨fuel, m', run⟩
      rw [eq] at run
      obtain ⟨m₂, called, -⟩ := Option.map_eq_some_iff.mp run
      obtain ⟨-, -, -, -, -, -, last, -⟩ := called_cEnvironmentInit block called
      exact ⟨first, last⟩
    case refine_2 =>
      rintro ⟨-, last⟩
      obtain ⟨fuel, m₂, called⟩ := cEnvironmentInit_returns block last _
      exact ⟨fuel, _, by rw [eq, called, Option.map_some]⟩
    case refine_3 =>
      intro fuel m' run
      rw [eq] at run
      obtain ⟨m₂, called, rfl⟩ := Option.map_eq_some_iff.mp run
      exact (started s sites secure first).handedOver sites block called

/-- An image with its stacks in the bss. -/
def image : Symbols where
  secureVectorTable := 0x1C000000#32
  monitorVectorTable := 0x1C000020#32
  fiqStack := 0x1C032000#32
  abortStack := 0x1C034000#32
  undefinedStack := 0x1C036000#32
  userStack := 0x1C038000#32
  monitorStack := 0x1C03A000#32
  swBssStart := 0x1C031000#32
  swBssEnd := 0x1C03C000#32
  ltzvisorMain := 0x1C002000#32

def imageSites : CallSites where
  runCpu0 := 0x1C000104#32
  setupStacks := 0x1C000150#32
  initCEnv := 0x1C0001F8#32
  callMain := 0x1C0001FC#32
  arm := by simp

/-- The first of two CPUs at reset. -/
def firstCpu : Boot :=
  { beforeInit 0#8 with
    dev := { mpidr := 0x80000000#32, nsacr := 0#32, mvbar := 0#32, maintained := [] } }

theorem reset_comes_to_main_first :
    WordBlock image.swBssStart image.swBssEnd ∧ firstCpu.world = .secure ∧
      ∃ fuel m', resetHandler image imageSites fuel firstCpu = some m' ∧
        HandedOver image firstCpu m' := by
  have block : WordBlock image.swBssStart image.swBssEnd := by constructor <;> decide
  have secure : firstCpu.world = .secure := rfl
  obtain ⟨comes, handed⟩ := reset_comes_to_main image imageSites block secure
  obtain ⟨fuel, m', run⟩ := comes.mpr ⟨rfl, by decide⟩
  exact ⟨block, secure, fuel, m', run, handed fuel m' run⟩

end LTZVisor.Core.Reset
