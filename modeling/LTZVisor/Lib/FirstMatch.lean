/- LTZVisor/Lib/FirstMatch
   kind: library
   digest: A bounded search for the first match, which gets stuck where the test is undefined. -/

import Mathlib

set_option autoImplicit false
set_option relaxedAutoImplicit false

namespace LTZVisor.Lib.FirstMatch

variable (defined matching : Nat → Prop) [DecidablePred defined] [DecidablePred matching]

/-- The first match among `n` candidates from `k` on, if one exists; `none` when a candidate before
it has no test. -/
def first : Nat → Nat → Option (Option Nat)
  | 0, _ => some none
  | n + 1, k =>
    if ¬defined k then none else if matching k then some (some k) else first n (k + 1)

variable {defined matching} {n k : Nat}

theorem first_eq_some_some {j : Nat} (found : first defined matching n k = some (some j)) :
    k ≤ j ∧ j < k + n ∧ matching j ∧ (∀ i, k ≤ i → i ≤ j → defined i) ∧
      ∀ i, k ≤ i → i < j → ¬matching i := by
  induction n generalizing k with
  | zero => cases found
  | succ n ih =>
    rw [first] at found
    split_ifs at found with tested hit
    · obtain rfl : k = j := by
        injection found with found
        injection found
      refine ⟨le_rfl, by omega, hit, ?_, fun i low high => by omega⟩
      intro i low high
      obtain rfl : i = k := by omega
      exact tested
    · obtain ⟨low, high, match_, defs, misses⟩ := ih found
      refine ⟨by omega, by omega, match_, ?_, ?_⟩
      · intro i from_ to_
        by_cases here : i = k
        · rw [here]
          exact tested
        · exact defs i (by omega) to_
      · intro i from_ to_
        by_cases here : i = k
        · rw [here]
          exact hit
        · exact misses i (by omega) to_

theorem first_eq_some_none (missed : first defined matching n k = some none) :
    ∀ i, k ≤ i → i < k + n → defined i ∧ ¬matching i := by
  induction n generalizing k with
  | zero => exact fun i low high => by omega
  | succ n ih =>
    rw [first] at missed
    split_ifs at missed with tested hit
    · cases missed
    intro i low high
    by_cases here : i = k
    · rw [here]
      exact ⟨tested, hit⟩
    · exact ih missed i (by omega) (by omega)

theorem first_isSome_of_defined (defs : ∀ i, k ≤ i → i < k + n → defined i) :
    ∃ r, first defined matching n k = some r := by
  induction n generalizing k with
  | zero => exact ⟨none, rfl⟩
  | succ n ih =>
    rw [first, if_neg (not_not_intro (defs k le_rfl (by omega)))]
    split_ifs
    · exact ⟨_, rfl⟩
    · exact ih fun i low high => defs i (by omega) (by omega)

/-- The search ends when a match comes before every candidate that has no test. -/
theorem first_isSome_of_match {j : Nat} (low : k ≤ j) (high : j < k + n) (hit : matching j)
    (defs : ∀ i, k ≤ i → i ≤ j → defined i) : ∃ r, first defined matching n k = some r := by
  induction n generalizing k with
  | zero => omega
  | succ n ih =>
    rw [first, if_neg (not_not_intro (defs k le_rfl low))]
    split_ifs with here
    · exact ⟨_, rfl⟩
    · have later : k ≠ j := by
        rintro rfl
        exact here hit
      exact ih (by omega) (by omega) fun i from_ to_ => defs i (by omega) to_

end LTZVisor.Lib.FirstMatch
