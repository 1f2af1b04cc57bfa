/- LTZVisor/Lib/Numeral
   kind: library
   digest: A fixed number of digits without its leading zeros is the numeral. -/

import Mathlib

set_option autoImplicit false
set_option relaxedAutoImplicit false

namespace LTZVisor.Lib.Numeral

/-- The digits of `n`, most significant first, with zeros before them up to `d` digits. -/
def numeral (b d n : Nat) : List Nat :=
  List.replicate (d - (Nat.digits b n).length) 0 ++ (Nat.digits b n).reverse

theorem numeral_lt {b d n : Nat} (base : 1 < b) : ∀ x ∈ numeral b d n, x < b := by
  intro x hx
  rcases List.mem_append.mp hx with zero | digit
  · rw [List.eq_of_mem_replicate zero]
    omega
  · exact Nat.digits_lt_base base (List.mem_reverse.mp digit)

/-- The lowest `width` digits of `n`, most significant first. -/
def fixed (b width n : Nat) : List Nat :=
  (List.range width).map fun i => n / b ^ (width - 1 - i) % b

/-- Leaves out the zeros among the first `skip` digits that no other digit precedes. -/
def suppress (skip : Nat) (keep : Bool) : List Nat → List Nat
  | [] => []
  | x :: xs =>
    let keep := keep || x != 0
    if keep ∨ skip = 0 then x :: suppress (skip - 1) keep xs else suppress (skip - 1) keep xs

private theorem suppress_keep (skip : Nat) (xs : List Nat) : suppress skip true xs = xs := by
  induction xs generalizing skip with
  | nil => rfl
  | cons x xs ih =>
    rw [suppress, Bool.true_or, if_pos (Or.inl rfl), ih]

private theorem suppress_zeros (skip k : Nat) (xs : List Nat) :
    suppress skip false (List.replicate k 0 ++ xs) =
      List.replicate (k - skip) 0 ++ suppress (skip - k) false xs := by
  induction k generalizing skip with
  | zero =>
    rw [Nat.zero_sub, Nat.sub_zero]
    rfl
  | succ k ih =>
    rw [List.replicate_succ, List.cons_append, suppress]
    cases skip with
    | zero =>
      rw [if_pos (Or.inr rfl)]
      change 0 :: suppress 0 false _ = _
      rw [ih, Nat.sub_zero, Nat.sub_zero, List.replicate_succ, List.cons_append, Nat.zero_sub,
        Nat.zero_sub]
    | succ skip =>
      rw [if_neg (by simp)]
      change suppress skip false _ = _
      rw [ih, Nat.add_sub_add_right, Nat.add_sub_add_right]

private theorem suppress_of_head {skip : Nat} {xs : List Nat} (head : ∀ x ∈ xs.head?, x ≠ 0) :
    suppress skip false xs = xs := by
  cases xs with
  | nil => rfl
  | cons x xs =>
    have nonzero : (x != 0) = true := bne_iff_ne.mpr (head x rfl)
    rw [suppress, nonzero, Bool.false_or, if_pos (Or.inl rfl), suppress_keep]

variable {b width d n : Nat}

private theorem digits_reverse_head (b n : Nat) : ∀ x ∈ (Nat.digits b n).reverse.head?, x ≠ 0 := by
  intro x hx
  by_cases zero : n = 0
  · subst zero
    rw [Nat.digits_zero] at hx
    cases hx
  · have nonempty := Nat.digits_ne_nil_iff_ne_zero (b := b).mpr zero
    rw [List.head?_reverse, List.getLast?_eq_getLast_of_ne_nil nonempty] at hx
    cases hx
    exact Nat.getLast_digit_ne_zero b zero

private theorem fixed_eq (base : 2 ≤ b) (fits : n < b ^ width) :
    fixed b width n =
      List.replicate (width - (Nat.digits b n).length) 0 ++ (Nat.digits b n).reverse := by
  have short : (Nat.digits b n).length ≤ width := (Nat.digits_length_le_iff base n).mpr fits
  have digit (i : Nat) := Nat.getD_digits n i base
  generalize Nat.digits b n = ds at short digit
  apply List.ext_getElem
  · simp [fixed]
    omega
  · intro i hi hi'
    have inside : i < width := by
      simpa [fixed] using hi
    simp only [fixed, List.getElem_map, List.getElem_range]
    rw [← digit, List.getElem_append]
    split_ifs with leading
    · rw [List.length_replicate] at leading
      rw [List.getElem_replicate, List.getD_eq_default]
      omega
    · rw [List.length_replicate] at leading
      rw [List.getElem_reverse, List.getD_eq_getElem _ _ (by omega)]
      congr 1
      rw [List.length_replicate]
      omega

theorem fixed_succ (b width n : Nat) :
    fixed b (width + 1) n = n / b ^ width % b :: fixed b width n := by
  unfold fixed
  rw [List.range_succ_eq_map, List.map_cons, List.map_map]
  refine congrArg₂ List.cons rfl (List.map_congr_left fun i hi => ?_)
  have exponent : width + 1 - 1 - (i + 1) = width - 1 - i := by omega
  rw [Function.comp_apply, Nat.succ_eq_add_one, exponent]

theorem fixed_mod (b width n : Nat) : fixed b width (n % b ^ width) = fixed b width n := by
  unfold fixed
  apply List.map_congr_left
  intro i hi
  have inside : i < width := List.mem_range.mp hi
  have split : b ^ width = b ^ (width - 1 - i) * b ^ (i + 1) := by
    rw [← Nat.pow_add]
    congr 1
    omega
  rw [split, Nat.mod_mul_right_div_self]
  exact Nat.mod_mod_of_dvd _ (dvd_pow_self b (Nat.succ_ne_zero i))

theorem suppress_fixed (base : 2 ≤ b) (fits : n < b ^ width) (d_le : d ≤ width) :
    suppress (width - d) false (fixed b width n) = numeral b d n := by
  have short : (Nat.digits b n).length ≤ width := (Nat.digits_length_le_iff base n).mpr fits
  have zeros : width - (Nat.digits b n).length - (width - d) = d - (Nat.digits b n).length := by
    omega
  rw [fixed_eq base fits, suppress_zeros, suppress_of_head (digits_reverse_head b n), zeros]
  rfl

end LTZVisor.Lib.Numeral
