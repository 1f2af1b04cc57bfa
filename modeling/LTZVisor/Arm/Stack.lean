/- LTZVisor/Arm/Stack
   kind: library
   digest: Words that several instructions push on a stack, and words popped from it. -/

import LTZVisor.Arm.Frame

set_option autoImplicit false
set_option relaxedAutoImplicit false

namespace LTZVisor.Arm

open LTZVisor.Lib.Memory

variable {D : Type}

/-- The registers of `m'` are those of `m`, but for sp and `rs` as the mode of `m` names them. -/
def RegsKept (rs : List Reg) (m m' : Machine D) : Prop :=
  ∀ b r, (b = m.bank.home r → r ∉ rs) → m'.regs b r = m.regs b r

/-- `m'` is `m` with the words `ws` pushed, but for the registers `rs`, pc and the flags. -/
structure Pushed (rs : List Reg) (ws : List Word) (m m' : Machine D) : Prop where
  mode : m'.cpsr.mode = m.cpsr.mode
  sp : m'.reg .sp = m.reg .sp - BitVec.ofNat 32 (4 * ws.length)
  mem : m'.mem = writeWords m.mem (m.reg .sp - BitVec.ofNat 32 (4 * ws.length)) ws
  regs : RegsKept (.sp :: rs) m m'
  spsr : m'.spsr = m.spsr
  dev : m'.dev = m.dev

/-- `m'` is `m` with `n` words popped, but for the registers `rs`, pc, the flags and the
devices. -/
structure Popped (rs : List Reg) (n : Nat) (m m' : Machine D) : Prop where
  mode : m'.cpsr.mode = m.cpsr.mode
  sp : m'.reg .sp = m.reg .sp + BitVec.ofNat 32 (4 * n)
  mem : m'.mem = m.mem
  regs : RegsKept (.sp :: rs) m m'
  spsr : m'.spsr = m.spsr

section Conditions

variable {cond : Psr → Bool} (m : Machine D) (i : Instr D)

theorem onlyIf_pos (holds : cond m.cpsr = true) : Instr.onlyIf cond i m = i m := if_pos holds

theorem onlyIf_neg (fails : ¬cond m.cpsr = true) : Instr.onlyIf cond i m = m := if_neg fails

theorem exec_onlyIf_neg (is : List (Instr D)) (fails : ¬cond m.cpsr = true) :
    exec (is.map (Instr.onlyIf cond)) m = m := by
  induction is with
  | nil => rfl
  | cons i is ih =>
    rw [List.map_cons, exec_cons, onlyIf_neg m i fails]
    exact ih

theorem exec_onlyIf_pos {is : List (Instr D)} (flags : ∀ i ∈ is, ∀ m, (i m).cpsr = m.cpsr)
    (holds : cond m.cpsr = true) : exec (is.map (Instr.onlyIf cond)) m = exec is m := by
  induction is generalizing m with
  | nil => rfl
  | cons i is ih =>
    rw [List.map_cons, exec_cons, exec_cons, onlyIf_pos m i holds]
    apply ih
    · exact fun j hj => flags j (List.mem_cons_of_mem i hj)
    · rw [flags i (List.mem_cons_self ..) m]
      exact holds

end Conditions

section Registers

variable {rs rs' : List Reg} {m m' m'' : Machine D}

theorem bank_congr (mode : m'.cpsr.mode = m.cpsr.mode) : m'.bank = m.bank := congrArg bankOf mode

theorem RegsKept.refl (rs : List Reg) (m : Machine D) : RegsKept rs m m := fun _ _ _ => rfl

theorem RegsKept.trans (h : RegsKept rs m m') (h' : RegsKept rs' m' m'')
    (mode : m'.cpsr.mode = m.cpsr.mode) : RegsKept (rs ++ rs') m m'' := by
  intro b r out
  rw [h' b r fun here hit =>
      out (here.trans (by rw [bank_congr mode])) (List.mem_append_right _ hit),
    h b r fun here hit => out here (List.mem_append_left _ hit)]

theorem RegsKept.mono (h : RegsKept rs m m') (sub : rs ⊆ rs') : RegsKept rs' m m' :=
  fun b r out => h b r fun here hit => out here (sub hit)

theorem RegsKept.reg (h : RegsKept rs m m') (mode : m'.cpsr.mode = m.cpsr.mode) {r : Reg}
    (out : r ∉ rs) : m'.reg r = m.reg r := by
  rw [Machine.reg, bank_congr mode, h _ r fun _ => out, Machine.reg]

theorem regsKept_setReg (m : Machine D) (r : Reg) (v : Word) : RegsKept [r] m (m.setReg r v) := by
  intro b r' out
  apply if_neg
  rintro ⟨rfl, rfl⟩
  exact out rfl (List.mem_singleton.mpr rfl)

end Registers

namespace Pushed

variable {rs rs' : List Reg} {ws ws' : List Word} {m m' m'' : Machine D}

theorem trans (h : Pushed rs ws m m') (h' : Pushed rs' ws' m' m'') :
    Pushed (rs ++ .sp :: rs') (ws' ++ ws) m m'' := by
  have low : m'.reg .sp - BitVec.ofNat 32 (4 * ws'.length) =
      m.reg .sp - BitVec.ofNat 32 (4 * (ws' ++ ws).length) := by
    rw [h.sp, sub_ofNat_sub_ofNat, List.length_append, Nat.mul_add, Nat.add_comm]
  constructor
  case mode => exact h'.mode.trans h.mode
  case sp => exact h'.sp.trans low
  case mem =>
    rw [h'.mem, h.mem, writeWords_append, low]
    rw [h.sp]
    bv_omega
  case regs => exact h.regs.trans h'.regs h.mode
  case spsr => exact h'.spsr.trans h.spsr
  case dev => exact h'.dev.trans h.dev

theorem mono (h : Pushed rs ws m m') (sub : rs ⊆ .sp :: rs') : Pushed rs' ws m m' :=
  { h with regs := h.regs.mono (List.cons_subset.mpr ⟨List.mem_cons_self .., sub⟩) }

theorem andThen (h : Pushed rs ws m m') (h' : Pushed rs' ws' m' m'') (sub : rs' ⊆ rs) :
    Pushed rs (ws' ++ ws) m m'' :=
  (h.trans h').mono (by
    rw [List.append_subset, List.cons_subset]
    exact ⟨List.subset_cons_self .., List.mem_cons_self .., fun r hr =>
      List.mem_cons_of_mem _ (sub hr)⟩)

theorem refl (m : Machine D) : Pushed [] [] m m := by
  constructor
  case sp => exact (BitVec.sub_zero _).symm
  case mem =>
    funext x
    exact (writeWords_of_not_mem (Nat.not_lt_zero _)).symm
  case regs => exact RegsKept.refl _ _
  all_goals rfl

theorem push (rs : List Reg) (m : Machine D) : Pushed [] (rs.map m.reg) m (Instr.push rs m) := by
  constructor
  case mode => rfl
  case sp => rw [push_sp, List.length_map]
  case mem =>
    rw [List.length_map]
    rfl
  case regs => exact regsKept_setReg (Instr.stmfd .sp rs m) .sp _
  case spsr => rfl
  case dev => rfl

theorem setReg (m : Machine D) {r : Reg} (other : r ≠ .sp) (v : Word) :
    Pushed [r] [] m (m.setReg r v) := by
  constructor
  case sp =>
    rw [Machine.reg_setReg, if_neg (Ne.symm other), List.length_nil, Nat.mul_zero]
    exact (BitVec.sub_zero _).symm
  case mem =>
    funext x
    exact (writeWords_of_not_mem (Nat.not_lt_zero _)).symm
  case regs => exact (regsKept_setReg m r v).mono (List.subset_cons_self ..)
  all_goals rfl

end Pushed

namespace Popped

variable {rs rs' : List Reg} {n n' : Nat} {m m' m'' : Machine D}

theorem trans (h : Popped rs n m m') (h' : Popped rs' n' m' m'') :
    Popped (rs ++ .sp :: rs') (n + n') m m'' where
  mode := h'.mode.trans h.mode
  sp := by
    rw [h'.sp, h.sp]
    bv_omega
  mem := h'.mem.trans h.mem
  regs := h.regs.trans h'.regs h.mode
  spsr := h'.spsr.trans h.spsr

theorem mono (h : Popped rs n m m') (sub : rs ⊆ .sp :: rs') : Popped rs' n m m' :=
  { h with regs := h.regs.mono (List.cons_subset.mpr ⟨List.mem_cons_self .., sub⟩) }

theorem andThen (h : Popped rs n m m') (h' : Popped rs' n' m' m'') (sub : rs' ⊆ rs) :
    Popped rs (n + n') m m'' :=
  (h.trans h').mono (by
    rw [List.append_subset, List.cons_subset]
    exact ⟨List.subset_cons_self .., List.mem_cons_self .., fun r hr =>
      List.mem_cons_of_mem _ (sub hr)⟩)

end Popped

section Pop

variable {rs : List Reg} {m : Machine D}

private theorem regsKept_loadFrom (mem : Mem) (a : Addr) (rs : List Reg) (m : Machine D) :
    RegsKept rs m (Instr.loadFrom mem a rs m) := by
  induction rs generalizing a m with
  | nil => exact RegsKept.refl _ _
  | cons r rs ih =>
    have first := regsKept_setReg m r (read32 mem a)
    exact first.trans (ih (a + 4#32) (m.setReg r (read32 mem a))) rfl

private theorem loadFrom_same (mem : Mem) (a : Addr) (rs : List Reg) (m : Machine D) :
    (Instr.loadFrom mem a rs m).spsr = m.spsr ∧ (Instr.loadFrom mem a rs m).dev = m.dev := by
  induction rs generalizing a m with
  | nil => exact ⟨rfl, rfl⟩
  | cons r rs ih => exact ih (a + 4#32) (m.setReg r (read32 mem a))

theorem popped_pop (noSp : Reg.sp ∉ rs) : Popped rs rs.length m (Instr.pop rs m) := by
  have changes := changes_pop rs m
  have moved := regsKept_setReg m .sp (m.reg .sp + BitVec.ofNat 32 (4 * rs.length))
  constructor
  case mode => exact changes.mode
  case sp =>
    rw [Instr.pop, Instr.ldmiaW, (changes_loadFrom _ _ _ _).reg .sp noSp, Machine.reg_setReg_self]
  case mem => exact changes.mem
  case regs => exact moved.trans (regsKept_loadFrom _ _ _ _) rfl
  case spsr => exact (loadFrom_same _ _ _ _).1

theorem pop_dev : (Instr.pop rs m).dev = m.dev := (loadFrom_same _ _ _ _).2

theorem pop_reg (nodup : rs.Nodup) {i : Nat} {r : Reg} (at_i : rs[i]? = some r) :
    (Instr.pop rs m).reg r = read32 m.mem (m.reg .sp + BitVec.ofNat 32 (4 * i)) :=
  reg_loadFrom _ _ nodup at_i _

end Pop

end LTZVisor.Arm
