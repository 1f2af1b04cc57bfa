/- LTZVisor/Arch/Cp15Switch
   kind: model
   digest: The CP15 registers of the non-secure world, loaded from the context of its guest. -/

import LTZVisor.Lib.Bits
import LTZVisor.Arch.Vcpu

set_option autoImplicit false
set_option relaxedAutoImplicit false

namespace LTZVisor.Arch.Cp15Switch

open LTZVisor.Lib.Memory LTZVisor.Lib.Bits LTZVisor.Arm LTZVisor.Arm.Instr LTZVisor.Arch.Vcpu

variable {D : Type}

def scrNsbitSet (rt : Reg) : List (Instr D) := [mrcScr rt, orr rt rt scrNs, mcrScr rt]

def scrNsbitClear (rt : Reg) : List (Instr D) := [mrcScr rt, bic rt rt scrNs, mcrScr rt]

@[simp] def ldrPost (rd rn : Reg) : Instr D := fun m =>
  (m.setReg rd (read32 m.mem (m.reg rn))).setReg rn (m.reg rn + 4#32)

/-- One register of `restore_cp15_context`, which restores them in the order of the structure. -/
def restoreCp15Reg (r : Cp15Reg) : List (Instr D) := [ldrPost .r2 .r0, mcr r .r2]

def restoreCp15Context : List (Instr D) := cp15Regs.flatMap restoreCp15Reg

def cp15Restore : List (Instr D) := scrNsbitSet .r2 ++ restoreCp15Context ++ scrNsbitClear .r2

def cp15Field (mem : Mem) (ctx : Addr) (i : Nat) : Word :=
  read32 mem (ctx + BitVec.ofNat 32 (4 * i))

/-- The effect of loading the registers `rs` from `ctx` while `w` is the world of CP15 accesses. -/
structure Loaded (rs : List Cp15Reg) (w : World) (ctx : Addr) (m m' : Machine D) : Prop where
  field : ∀ i r, rs[i]? = some r → m'.cp15 (r.bank w) r = cp15Field m.mem ctx i
  cp15 : ∀ w' r, r ∉ rs ∨ w' ≠ r.bank w → m'.cp15 w' r = m.cp15 w' r
  slots : ∀ t, t ≠ .reg .usr .r0 → t ≠ .reg .usr .r2 → m'.get t = m.get t
  mem : m'.mem = m.mem
  scr : m'.scr = m.scr
  cpsr : m'.cpsr = m.cpsr
  dev : m'.dev = m.dev

private theorem cp15Field_succ (mem : Mem) (ctx : Addr) (i : Nat) :
    cp15Field mem (ctx + 4#32) i = cp15Field mem ctx (i + 1) := by
  have place : ctx + 4#32 + BitVec.ofNat 32 (4 * i) = ctx + BitVec.ofNat 32 (4 * (i + 1)) := by
    bv_omega
  rw [cp15Field, place, cp15Field]

private theorem loaded_one (r : Cp15Reg) {m : Machine D} {w : World} {ctx : Addr}
    (world : m.world = w) (pointer : m.regs .usr .r0 = ctx) :
    Loaded [r] w ctx m (exec (restoreCp15Reg r) m) ∧
      (exec (restoreCp15Reg r) m).regs .usr .r0 = ctx + 4#32 := by
  have same : ∀ m' : Machine D, m'.scr = m.scr → m'.world = w :=
    fun _ scr => (Machine.world_congr scr).trans world
  have cp15 : ∀ w' r', (exec (restoreCp15Reg r) m).cp15 w' r' =
      if w' = r.bank w ∧ r' = r then read32 m.mem ctx else m.cp15 w' r' := by
    intro w' r'
    simp [restoreCp15Reg, pointer, same]
  refine ⟨?_, by simp [restoreCp15Reg, pointer]⟩
  constructor
  case field =>
    intro i r' at_i
    obtain ⟨hi, rfl⟩ := List.getElem?_eq_some_iff.mp at_i
    obtain rfl : i = 0 := by simpa using hi
    rw [List.getElem_cons_zero, cp15, if_pos ⟨rfl, rfl⟩, cp15Field, Nat.mul_zero, BitVec.add_zero]
  case cp15 =>
    intro w' r' away
    rw [cp15, if_neg]
    rintro ⟨rfl, rfl⟩
    exact away.elim (fun other => other (List.mem_singleton_self _)) fun other => other rfl
  case slots =>
    intro t notR0 notR2
    cases t with
    | reg b r' =>
      have out0 : ¬(b = .usr ∧ r' = .r0) := by simpa using notR0
      have out2 : ¬(b = .usr ∧ r' = .r2) := by simpa using notR2
      simp [restoreCp15Reg, Machine.get, out0, out2]
    | spsr b => simp [restoreCp15Reg, Machine.get]
  all_goals simp [restoreCp15Reg]

theorem loaded {rs : List Cp15Reg} (nodup : rs.Nodup) {m : Machine D} {w : World} {ctx : Addr}
    (world : m.world = w) (pointer : m.regs .usr .r0 = ctx) :
    Loaded rs w ctx m (exec (rs.flatMap restoreCp15Reg) m) := by
  induction rs generalizing m ctx with
  | nil =>
    constructor
    case field =>
      intro i r at_i
      cases at_i
    all_goals intros; rfl
  | cons r rs ih =>
    obtain ⟨fresh, nodup⟩ := List.nodup_cons.mp nodup
    have split : exec ((r :: rs).flatMap restoreCp15Reg) m =
        exec (rs.flatMap restoreCp15Reg) (exec (restoreCp15Reg r) m) := by
      rw [List.flatMap_cons, exec_append]
    -- The first register has been loaded in `m1`, and the pointer stands behind its field.
    obtain ⟨first, pointer1⟩ := loaded_one r world pointer
    rw [split]
    generalize exec (restoreCp15Reg r) m = m1 at *
    have world1 : m1.world = w := (Machine.world_congr first.scr).trans world
    have rest := ih nodup world1 pointer1
    constructor
    case field =>
      intro i r' at_i
      cases i with
      | zero =>
        obtain rfl : r = r' := by simpa using at_i
        rw [rest.cp15 (r.bank w) r (.inl fresh)]
        exact first.field 0 r rfl
      | succ i => rw [rest.field i r' (by simpa using at_i), first.mem, cp15Field_succ]
    case cp15 =>
      intro w' r' away
      rw [List.mem_cons, not_or] at away
      rw [rest.cp15 w' r' (away.imp_left And.right)]
      exact first.cp15 w' r' (away.imp_left fun other => by simpa using other.1)
    case slots =>
      intro t notR0 notR2
      rw [rest.slots t notR0 notR2, first.slots t notR0 notR2]
    case mem => rw [rest.mem, first.mem]
    case scr => rw [rest.scr, first.scr]
    case cpsr => rw [rest.cpsr, first.cpsr]
    case dev => rw [rest.dev, first.dev]

theorem cp15Regs_nodup : cp15Regs.Nodup := by decide

theorem cp15Regs_index (r : Cp15Reg) : ∃ i < 20, cp15Regs[i]? = some r := by
  have member : r ∈ cp15Regs := by cases r <;> decide
  obtain ⟨i, hi, at_i⟩ := List.getElem_of_mem member
  exact ⟨i, hi, List.getElem?_eq_some_iff.mpr ⟨hi, at_i⟩⟩

/-- The effect of `cp15_restore`. -/
structure Cp15Restored (ctx : Addr) (m m' : Machine D) : Prop where
  field : ∀ i r, cp15Regs[i]? = some r → m'.cp15 (r.bank .nonSecure) r = cp15Field m.mem ctx i
  secure : ∀ r, r ≠ .actlr → m'.cp15 .secure r = m.cp15 .secure r
  slots : ∀ t, t ≠ .reg .usr .r0 → t ≠ .reg .usr .r2 → m'.get t = m.get t
  mem : m'.mem = m.mem
  world : m'.world = .secure
  cpsr : m'.cpsr = m.cpsr
  dev : m'.dev = m.dev

private theorem nsbit_frame (is : List (Instr D)) (m : Machine D)
    (form : is = scrNsbitSet .r2 ∨ is = scrNsbitClear .r2) :
    (∀ t, t ≠ .reg .usr .r2 → (exec is m).get t = m.get t) ∧ (exec is m).cp15 = m.cp15 ∧
      (exec is m).mem = m.mem ∧ (exec is m).cpsr = m.cpsr ∧ (exec is m).dev = m.dev := by
  refine ⟨fun t notR2 => ?_, ?_⟩
  · cases t with
    | reg b r =>
      have out : ¬(b = .usr ∧ r = .r2) := by simpa using notR2
      rcases form with rfl | rfl <;> simp [scrNsbitSet, scrNsbitClear, Machine.get, out]
    | spsr b => rcases form with rfl | rfl <;> simp [scrNsbitSet, scrNsbitClear, Machine.get]
  · rcases form with rfl | rfl <;> simp [scrNsbitSet, scrNsbitClear]

private theorem scr_of_set (m : Machine D) : (exec (scrNsbitSet .r2) m).scr = m.scr ||| scrNs := by
  simp [scrNsbitSet]

private theorem scr_of_clear (m : Machine D) : (exec (scrNsbitClear .r2) m).scr =
    m.scr &&& ~~~scrNs := by
  simp [scrNsbitClear]

private theorem world_of_set {m : Machine D} : (exec (scrNsbitSet .r2) m).world = .nonSecure := by
  apply Machine.world_of_bit
  rw [scr_of_set]
  simp [scrNs]

private theorem world_of_clear {m : Machine D} : (exec (scrNsbitClear .r2) m).world = .secure := by
  rw [Machine.world, scr_of_clear, BitVec.and_assoc, if_pos]
  have apart : ~~~scrNs &&& scrNs = 0#32 := by decide
  rw [apart, BitVec.and_zero]

private theorem exec_cp15Restore (m : Machine D) : exec cp15Restore m = exec (scrNsbitClear .r2)
    (exec (cp15Regs.flatMap restoreCp15Reg) (exec (scrNsbitSet .r2) m)) := by
  simp only [cp15Restore, restoreCp15Context, exec_append]

theorem cp15Restored (m : Machine D) {ctx : Addr} (pointer : m.regs .usr .r0 = ctx) :
    Cp15Restored ctx m (exec cp15Restore m) := by
  obtain ⟨slots1, cp151, mem1, cpsr1, dev1⟩ := nsbit_frame _ m (.inl rfl)
  have pointer1 : (exec (scrNsbitSet .r2) m).regs .usr .r0 = ctx :=
    (slots1 (.reg .usr .r0) (by simp)).trans pointer
  have load := loaded cp15Regs_nodup (world_of_set (m := m)) pointer1
  rw [exec_cp15Restore]
  generalize exec (scrNsbitSet .r2) m = m1 at *
  generalize exec (cp15Regs.flatMap restoreCp15Reg) m1 = m2 at *
  obtain ⟨slots3, cp153, mem3, cpsr3, dev3⟩ := nsbit_frame _ m2 (.inr rfl)
  have world := world_of_clear (m := m2)
  generalize exec (scrNsbitClear .r2) m2 = m3 at *
  constructor
  case field =>
    intro i r at_i
    rw [cp153, load.field i r at_i, mem1]
  case secure =>
    intro r notCommon
    have bank : r.bank .nonSecure = .nonSecure := if_neg notCommon
    rw [cp153, load.cp15 .secure r (.inr (by rw [bank]; simp)), cp151]
  case slots =>
    intro t notR0 notR2
    rw [slots3 t notR2, load.slots t notR0 notR2, slots1 t notR2]
  case mem => rw [mem3, load.mem, mem1]
  case world => exact world
  case cpsr => rw [cpsr3, load.cpsr, cpsr1]
  case dev => rw [dev3, load.dev, dev1]

theorem scr_of_cp15Restore (m : Machine D) :
    (exec cp15Restore m).scr = m.scr &&& ~~~scrNs := by
  have load := loaded cp15Regs_nodup (world_of_set (m := m)) rfl
  rw [exec_cp15Restore, scr_of_clear, load.scr, scr_of_set, or_and_not]

end LTZVisor.Arch.Cp15Switch
