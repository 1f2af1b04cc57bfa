/- LTZVisor/Lib/Bits
   kind: library
   digest: Read-modify-write of the bits of a word under a mask. -/

import Mathlib

set_option autoImplicit false
set_option relaxedAutoImplicit false

namespace LTZVisor.Lib.Bits

variable {w : Nat} {mask mask' value value' x : BitVec w} {i : Nat}

/-- The bits under the mask are taken from `value`, the others kept. -/
def assign (mask value x : BitVec w) : BitVec w := x &&& ~~~mask ||| value &&& mask

@[simp] theorem getLsbD_assign : (assign mask value x).getLsbD i =
    if mask.getLsbD i then value.getLsbD i else x.getLsbD i := by
  simp only [assign, BitVec.getLsbD_or, BitVec.getLsbD_and, BitVec.getLsbD_not]
  by_cases inside : i < w
  · simp only [inside, decide_true, Bool.true_and]
    cases mask.getLsbD i <;> simp
  · simp [BitVec.getLsbD_of_ge _ _ (Nat.le_of_not_lt inside)]

theorem or_eq_assign : x ||| mask = assign mask mask x := by
  apply BitVec.eq_of_getLsbD_eq
  intro i _
  rw [getLsbD_assign, BitVec.getLsbD_or]
  cases mask.getLsbD i <;> simp

theorem and_not_eq_assign : x &&& ~~~mask = assign mask 0#w x := by
  unfold assign
  rw [BitVec.zero_and, BitVec.or_zero]

theorem or_and_not : (x ||| mask) &&& ~~~mask = x &&& ~~~mask := by
  ext i
  simp only [BitVec.getElem_and, BitVec.getElem_or, BitVec.getElem_not]
  cases mask[i] <;> simp

private theorem and_not_or : x &&& ~~~mask ||| mask = x ||| mask := by
  ext i
  simp only [BitVec.getElem_and, BitVec.getElem_or, BitVec.getElem_not]
  cases mask[i] <;> simp

theorem or_eq_or_iff {y : BitVec w} :
    x ||| mask = y ||| mask ↔ x &&& ~~~mask = y &&& ~~~mask := by
  constructor
  · intro same
    rw [← or_and_not, same, or_and_not]
  · intro same
    rw [← and_not_or, same, and_not_or]

theorem set_clear_eq_assign (apart : mask &&& mask' = 0#w) :
    (x ||| mask) &&& ~~~mask' = assign (mask ||| mask') mask x := by
  apply BitVec.eq_of_getLsbD_eq
  intro i inside
  have apartAt : (mask.getLsbD i && mask'.getLsbD i) = false := by
    rw [← BitVec.getLsbD_and, apart, BitVec.getLsbD_zero]
  simp only [getLsbD_assign, BitVec.getLsbD_and, BitVec.getLsbD_or, BitVec.getLsbD_not, inside,
    decide_true, Bool.true_and]
  revert apartAt
  cases mask.getLsbD i <;> cases mask'.getLsbD i <;> simp

theorem assign_eq_self_iff : assign mask value x = x ↔ x &&& mask = value &&& mask := by
  rw [BitVec.eq_of_getLsbD_eq_iff, BitVec.eq_of_getLsbD_eq_iff]
  refine forall_congr' fun i => forall_congr' fun _ => ?_
  rw [getLsbD_assign, BitVec.getLsbD_and, BitVec.getLsbD_and]
  cases mask.getLsbD i <;> simp [eq_comm]

theorem eq_of_fields {n : Nat} {y : BitVec w} (pos : 0 < n)
    (same : ∀ j, j * n < w → x.extractLsb' (j * n) n = y.extractLsb' (j * n) n) : x = y := by
  apply BitVec.eq_of_getLsbD_eq
  intro i inside
  have split : i / n * n + i % n = i := Nat.div_add_mod' i n
  have below : i % n < n := Nat.mod_lt i pos
  have bit := congrArg (BitVec.getLsbD · (i % n)) (same (i / n) (by omega))
  simp only [BitVec.getLsbD_extractLsb', below, decide_true, Bool.true_and, split] at bit
  exact bit

end LTZVisor.Lib.Bits
