/- LTZVisor/Arm/Frame
   kind: library
   digest: What a routine changes, and the registers that it keeps on the stack. -/

import LTZVisor.Arm.Cond

set_option autoImplicit false
set_option relaxedAutoImplicit false

namespace LTZVisor.Arm

open LTZVisor.Lib.Memory

variable {D : Type}

theorem Machine.reg_setReg (m : Machine D) (r r' : Reg) (v : Word) :
    (m.setReg r v).reg r' = if r' = r then v else m.reg r' := by
  change (if m.bank.home r' = m.bank.home r ∧ r' = r then v else m.reg r') = _
  by_cases same : r' = r
  · rw [if_pos same, if_pos ⟨congrArg _ same, same⟩]
  · rw [if_neg same, if_neg fun both => same both.2]

theorem Machine.readCp15_writeCp15 (m : Machine D) (c : Cp15Reg) (v : Word) :
    (m.writeCp15 c v).readCp15 c = v :=
  if_pos ⟨rfl, rfl⟩

theorem Machine.reg_setReg_self (m : Machine D) (r : Reg) (v : Word) :
    (m.setReg r v).reg r = v := by
  rw [reg_setReg, if_pos rfl]

/-- `m'` is `m` but for the registers `rs` and `cs`, the flags and the devices. -/
structure Changes (rs : List Reg) (cs : List Cp15Reg) (m m' : Machine D) : Prop where
  reg : ∀ r, r ∉ rs → m'.reg r = m.reg r
  mode : m'.cpsr.mode = m.cpsr.mode
  scr : m'.scr = m.scr
  cp15 : ∀ w c, c ∉ cs → m'.cp15 w c = m.cp15 w c
  mem : m'.mem = m.mem

namespace Changes

variable {rs rs' : List Reg} {cs cs' : List Cp15Reg} {m m' m'' : Machine D}

theorem refl (rs : List Reg) (cs : List Cp15Reg) (m : Machine D) : Changes rs cs m m :=
  ⟨fun _ _ => rfl, rfl, rfl, fun _ _ _ => rfl, rfl⟩

theorem trans (h : Changes rs cs m m') (h' : Changes rs cs m' m'') : Changes rs cs m m'' where
  reg r out := (h'.reg r out).trans (h.reg r out)
  mode := h'.mode.trans h.mode
  scr := h'.scr.trans h.scr
  cp15 w c out := (h'.cp15 w c out).trans (h.cp15 w c out)
  mem := h'.mem.trans h.mem

theorem mono (h : Changes rs cs m m') (regs : rs ⊆ rs') (cp15 : cs ⊆ cs') :
    Changes rs' cs' m m' :=
  { h with
    reg := fun r out => h.reg r fun hit => out (regs hit)
    cp15 := fun w c out => h.cp15 w c fun hit => out (cp15 hit) }

theorem andThen (h : Changes rs cs m m') (h' : Changes rs' cs' m' m'') (regs : rs' ⊆ rs)
    (cp15 : cs' ⊆ cs) : Changes rs cs m m'' :=
  h.trans (h'.mono regs cp15)

theorem setReg (m : Machine D) (rd : Reg) (v : Word) : Changes [rd] [] m (m.setReg rd v) where
  reg r out := by
    rw [Machine.reg_setReg, if_neg fun same => out (List.mem_singleton.mpr same)]
  mode := rfl
  scr := rfl
  cp15 _ _ _ := rfl
  mem := rfl

theorem subs (m : Machine D) (r : Reg) (v : Word) : Changes [r] [] m (Instr.subs r r v m) := by
  obtain ⟨reg, mode, scr, cp15, mem⟩ := setReg (Instr.cmp r v m) r (m.reg r - v)
  exact ⟨reg, mode, scr, cp15, mem⟩

theorem mcr (m : Machine D) (c : Cp15Reg) (rn : Reg) : Changes [] [c] m (Instr.mcr c rn m) where
  reg _ _ := rfl
  mode := rfl
  scr := rfl
  cp15 _ _ out := if_neg fun hit => out (List.mem_singleton.mpr hit.2)
  mem := rfl

theorem bxLr (m : Machine D) : Changes [] [] m (Instr.bxLr m) :=
  ⟨fun _ _ => rfl, rfl, rfl, fun _ _ _ => rfl, rfl⟩

theorem exec {is : List (Instr D)} (each : ∀ i ∈ is, ∀ m, Changes rs cs m (i m)) (m : Machine D) :
    Changes rs cs m (exec is m) := by
  induction is generalizing m with
  | nil => exact refl rs cs m
  | cons i is ih =>
    have first := each i (List.mem_cons_self ..) m
    exact first.trans (ih (fun j hj => each j (List.mem_cons_of_mem i hj)) (i m))

theorem readCp15 (h : Changes rs cs m m') {c : Cp15Reg} (out : c ∉ cs) :
    m'.readCp15 c = m.readCp15 c := by
  rw [Machine.readCp15, Machine.world_congr h.scr, h.cp15 _ c out, Machine.readCp15]

end Changes

theorem changes_loadFrom (mem : Mem) (a : Addr) (rs : List Reg) (m : Machine D) :
    Changes rs [] m (Instr.loadFrom mem a rs m) := by
  induction rs generalizing a m with
  | nil => exact Changes.refl _ _ _
  | cons r rs ih =>
    have first := Changes.setReg m r (read32 mem a)
    have rest := ih (a + 4#32) (m.setReg r (read32 mem a))
    exact (first.mono (by simp) (by simp)).andThen rest (by simp) (by simp)

theorem reg_loadFrom (mem : Mem) (a : Addr) {rs : List Reg} (nodup : rs.Nodup) {i : Nat} {r : Reg}
    (at_i : rs[i]? = some r) (m : Machine D) :
    (Instr.loadFrom mem a rs m).reg r = read32 mem (a + BitVec.ofNat 32 (4 * i)) := by
  induction rs generalizing a i m with
  | nil => simp at at_i
  | cons s rs ih =>
    obtain ⟨fresh, nodup⟩ := List.nodup_cons.mp nodup
    cases i with
    | zero =>
      obtain rfl : s = r := by simpa using at_i
      rw [Instr.loadFrom, (changes_loadFrom mem _ rs _).reg s fresh, Machine.reg_setReg_self,
        Nat.mul_zero, BitVec.add_zero]
    | succ i =>
      have place : a + 4#32 + BitVec.ofNat 32 (4 * i) = a + BitVec.ofNat 32 (4 * (i + 1)) := by
        bv_omega
      rw [Instr.loadFrom, ih (a + 4#32) nodup (by simpa using at_i), place]

theorem changes_pop (rs : List Reg) (m : Machine D) :
    Changes (.sp :: rs) [] m (Instr.pop rs m) := by
  have moved := Changes.setReg m .sp (m.reg .sp + BitVec.ofNat 32 (4 * rs.length))
  have loaded := changes_loadFrom m.mem (m.reg .sp) rs
    (m.setReg .sp (m.reg .sp + BitVec.ofNat 32 (4 * rs.length)))
  exact (moved.mono (by simp) (by simp)).andThen loaded (by simp) (by simp)

def pushRange (rs : List Reg) (m : Machine D) : Range :=
  ⟨m.reg .sp - BitVec.ofNat 32 (4 * rs.length), 4 * rs.length⟩

theorem push_sp (rs : List Reg) (m : Machine D) :
    (Instr.push rs m).reg .sp = m.reg .sp - BitVec.ofNat 32 (4 * rs.length) :=
  Machine.reg_setReg_self _ _ _

theorem push_reg (rs : List Reg) (m : Machine D) {r : Reg} (other : r ≠ .sp) :
    (Instr.push rs m).reg r = m.reg r := by
  rw [Instr.push, Machine.reg_setReg, if_neg other]
  rfl

theorem push_mem (rs : List Reg) (m : Machine D) {x : Addr} (outside : x ∉ pushRange rs m) :
    (Instr.push rs m).mem x = m.mem x := by
  apply writeWords_of_not_mem
  rw [List.length_map]
  exact outside

/-- The frame that `push` made on `m` is on the stack of `m'`. -/
structure HasFrame (rs : List Reg) (m m' : Machine D) : Prop where
  mode : m'.cpsr.mode = m.cpsr.mode
  sp : m'.reg .sp = (Instr.push rs m).reg .sp
  mem : ∀ x ∈ pushRange rs m, m'.mem x = (Instr.push rs m).mem x

namespace HasFrame

variable {rs : List Reg} {m m' : Machine D}

theorem of_changes {rs' : List Reg} {cs : List Cp15Reg} (h : Changes rs' cs (Instr.push rs m) m')
    (noSp : Reg.sp ∉ rs') : HasFrame rs m m' where
  mode := h.mode
  sp := h.reg .sp noSp
  mem x _ := congrFun h.mem x

theorem reg_pop (h : HasFrame rs m m') (nodup : rs.Nodup) (size : 4 * rs.length ≤ 2 ^ 32) {r : Reg}
    (hr : r ∈ rs) : (Instr.pop rs m').reg r = m.reg r := by
  obtain ⟨i, at_i⟩ := List.mem_iff_getElem?.mp hr
  obtain ⟨hi, -⟩ := List.getElem?_eq_some_iff.mp at_i
  have word : read32 m'.mem (m'.reg .sp + BitVec.ofNat 32 (4 * i)) =
      read32 (Instr.push rs m).mem (m'.reg .sp + BitVec.ofNat 32 (4 * i)) := by
    apply read32_congr
    intro x hx
    apply h.mem
    rw [h.sp, push_sp, mem_range] at hx
    rw [pushRange, mem_range]
    bv_omega
  rw [Instr.pop, Instr.ldmiaW, reg_loadFrom _ _ nodup at_i, word, h.sp, push_sp]
  exact read32_writeWords_at m.mem _ (rs.map m.reg) i (by simp [at_i]) (by simpa using size)

theorem sp_pop (h : HasFrame rs m m') (noSp : Reg.sp ∉ rs) :
    (Instr.pop rs m').reg .sp = m.reg .sp := by
  rw [Instr.pop, Instr.ldmiaW, (changes_loadFrom _ _ _ _).reg .sp noSp, Machine.reg_setReg_self,
    h.sp, push_sp, BitVec.sub_add_cancel]

end HasFrame

end LTZVisor.Arm
