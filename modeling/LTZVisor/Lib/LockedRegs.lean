/- LTZVisor/Lib/LockedRegs
   kind: library
   digest: Registers behind a lock, and set-up calls whose order and number do not matter. -/

import Mathlib

set_option autoImplicit false
set_option relaxedAutoImplicit false

namespace LTZVisor.Lib.LockedRegs

universe u v w

variable {A : Type u} {V : Type v}

/-- The registers of a device, some of which can be closed to writes. -/
structure Regs (A : Type u) (V : Type v) where
  reg : A → V
  locked : Bool

inductive Access (A : Type u) (V : Type v)
  | unlock
  | lock
  | modify (a : A) (f : V → V)

section Lock

variable [DecidableEq A]

/-- A write to a register in `guarded` is lost while the device is locked. -/
def Access.run (guarded : A → Bool) (s : Regs A V) : Access A V → Regs A V
  | .unlock => { s with locked := false }
  | .lock => { s with locked := true }
  | .modify a f =>
    if s.locked && guarded a then s else { s with reg := Function.update s.reg a (f (s.reg a)) }

def runAll (guarded : A → Bool) (s : Regs A V) (accesses : List (Access A V)) : Regs A V :=
  accesses.foldl (Access.run guarded) s

def modified (mods : List (A × (V → V))) (a : A) (v : V) : V :=
  mods.foldl (fun v m => if m.1 = a then m.2 v else v) v

/-- The accesses of a call that opens the device and closes it at its end. -/
def bracket (mods : List (A × (V → V))) : List (Access A V) :=
  .unlock :: mods.map (fun m => .modify m.1 m.2) ++ [.lock]

private theorem runAll_modify (guarded : A → Bool) (mods : List (A × (V → V))) (reg : A → V) :
    runAll guarded ⟨reg, false⟩ (mods.map fun m => .modify m.1 m.2) =
      ⟨fun a => modified mods a (reg a), false⟩ := by
  induction mods generalizing reg with
  | nil => rfl
  | cons m mods ih =>
    have first : Access.run guarded ⟨reg, false⟩ (.modify m.1 m.2) =
        ⟨Function.update reg m.1 (m.2 (reg m.1)), false⟩ := rfl
    rw [List.map_cons, runAll, List.foldl_cons, first, ← runAll, ih]
    congr 1
    funext a
    rw [modified, modified, List.foldl_cons]
    congr 1
    by_cases here : m.1 = a
    · rw [← here, Function.update_self, if_pos rfl]
    · rw [Function.update_of_ne (Ne.symm here), if_neg here]

/-- None of the writes of such a call is lost, whether or not the device was locked before. -/
theorem runAll_bracket (guarded : A → Bool) (mods : List (A × (V → V))) (s : Regs A V) :
    runAll guarded s (bracket mods) = ⟨fun a => modified mods a (s.reg a), true⟩ := by
  have opened : Access.run guarded s .unlock = ⟨s.reg, false⟩ := rfl
  rw [bracket, runAll, List.cons_append, List.foldl_cons, opened, List.foldl_append]
  change runAll guarded (runAll guarded ⟨s.reg, false⟩ _) [.lock] = _
  rw [runAll_modify]
  rfl

theorem modified_of_not_mem {mods : List (A × (V → V))} {a : A}
    (away : a ∉ mods.map Prod.fst) (v : V) : modified mods a v = v := by
  induction mods generalizing v with
  | nil => rfl
  | cons m mods ih =>
    rw [List.map_cons, List.mem_cons, not_or] at away
    rw [modified, List.foldl_cons, if_neg (Ne.symm away.1)]
    exact ih away.2 v

end Lock

section SetUp

variable {Op : Type w} (act : Op → A → V → V)

def applyAll (reg : A → V) (ops : List Op) : A → V :=
  ops.foldl (fun reg op a => act op a (reg a)) reg

/-- Each call has registers of its own, and to make it once more changes nothing. -/
structure Owned : Prop where
  idem : ∀ op a v, act op a (act op a v) = act op a v
  apart : ∀ op op' a, op ≠ op' → (∀ v, act op a v = v) ∨ ∀ v, act op' a v = v

variable {act}

theorem applyAll_cons (reg : A → V) (op : Op) (ops : List Op) :
    applyAll act reg (op :: ops) = applyAll act (fun a => act op a (reg a)) ops := rfl

theorem applyAll_untouched {ops : List Op} {a : A} (away : ∀ op ∈ ops, ∀ v, act op a v = v)
    (reg : A → V) : applyAll act reg ops a = reg a := by
  induction ops generalizing reg with
  | nil => rfl
  | cons op ops ih =>
    rw [applyAll_cons, ih fun op' mem => away op' (List.mem_cons_of_mem _ mem)]
    exact away op (by simp) (reg a)

/-- A register that no other call of the list changes. -/
theorem applyAll_of_mem (owned : Owned act) {ops : List Op} {op : Op} {a : A} (mem : op ∈ ops)
    (others : ∀ op' ≠ op, ∀ v, act op' a v = v) (reg : A → V) :
    applyAll act reg ops a = act op a (reg a) := by
  induction ops generalizing reg with
  | nil => cases mem
  | cons op' ops ih =>
    rw [applyAll_cons]
    by_cases again : op ∈ ops
    · rw [ih again]
      by_cases same : op' = op
      · rw [same]
        exact owned.idem op a (reg a)
      · exact congrArg _ (others op' same (reg a))
    · obtain rfl : op = op' := (List.mem_cons.mp mem).resolve_right again
      rw [applyAll_untouched]
      exact fun op' later => others op' fun e => again (e ▸ later)

/-- What the calls leave depends on which calls they are, not on their order or number. -/
theorem applyAll_congr (owned : Owned act) {ops ops' : List Op}
    (same : ∀ op, op ∈ ops ↔ op ∈ ops') (reg : A → V) :
    applyAll act reg ops = applyAll act reg ops' := by
  funext a
  by_cases changes : ∃ op ∈ ops, ∃ v, act op a v ≠ v
  · obtain ⟨op, mem, v, differs⟩ := changes
    have others : ∀ op' ≠ op, ∀ v, act op' a v = v := fun op' other =>
      (owned.apart op' op a other).resolve_right fun none => differs (none v)
    rw [applyAll_of_mem owned mem others, applyAll_of_mem owned ((same op).mp mem) others]
  · have away : ∀ op ∈ ops, ∀ v, act op a v = v := by
      intro op mem v
      by_contra differs
      exact changes ⟨op, mem, v, differs⟩
    rw [applyAll_untouched away, applyAll_untouched]
    exact fun op mem => away op ((same op).mpr mem)

end SetUp

end LTZVisor.Lib.LockedRegs
