/- LTZVisor/Lib/CString
   kind: library
   digest: The search for a string in a buffer that need not hold the byte that ends a string. -/

import Mathlib

set_option autoImplicit false
set_option relaxedAutoImplicit false

namespace LTZVisor.Lib.CString

universe u

variable {α : Type u} [DecidableEq α] {nul : α} {needle : List α}

/-- Whether `needle` occurs before the end of the string; `none` when neither is reached within
the buffer. -/
def search (nul : α) (needle : List α) : List α → Option Bool
  | [] => none
  | c :: rest =>
    if c = nul then some false
    else if needle <+: c :: rest then some true
    else search nul needle rest

omit [DecidableEq α] in
theorem prefix_nul_iff (clean : nul ∉ needle) (text rest : List α) :
    needle <+: text ++ nul :: rest ↔ needle <+: text := by
  constructor
  · intro long
    rcases List.prefix_or_prefix_of_prefix long (List.prefix_append text (nul :: rest)) with
      short | ⟨tail, rfl⟩
    · exact short
    · cases tail with
      | nil => rw [List.append_nil]
      | cons c tail =>
        have head := (List.prefix_append_right_inj text).mp long
        obtain ⟨rfl, -⟩ := List.cons_prefix_cons.mp head
        exact absurd (by simp) clean
  · intro short
    exact short.trans (List.prefix_append text (nul :: rest))

/-- The search in a string that ends in the buffer sees the string alone. -/
theorem search_nul (clean : nul ∉ needle) (proper : needle ≠ []) {text : List α}
    (visible : nul ∉ text) (rest : List α) :
    search nul needle (text ++ nul :: rest) = some (decide (needle <:+: text)) := by
  induction text with
  | nil =>
    have absent : ¬needle <:+: [] := fun h => proper (List.infix_nil.mp h)
    rw [List.nil_append, search, if_pos rfl, decide_eq_false absent]
  | cons c text ih =>
    have notEnd : c ≠ nul := fun h => visible (h ▸ List.mem_cons_self ..)
    have start := prefix_nul_iff clean (c :: text) rest
    rw [List.cons_append] at start
    rw [List.cons_append, search, if_neg notEnd]
    by_cases here : needle <+: c :: text
    · rw [if_pos (start.mpr here), decide_eq_true (List.infix_cons_iff.mpr (Or.inl here))]
    · rw [if_neg (mt start.mp here), ih fun h => visible (List.mem_cons_of_mem c h)]
      congr 2
      rw [List.infix_cons_iff, or_iff_right here]

theorem search_found (proper : needle ≠ []) {text : List α} (visible : nul ∉ text)
    (occurs : needle <:+: text) (rest : List α) :
    search nul needle (text ++ rest) = some true := by
  induction text with
  | nil => exact absurd (List.infix_nil.mp occurs) proper
  | cons c text ih =>
    have notEnd : c ≠ nul := fun h => visible (h ▸ List.mem_cons_self ..)
    rw [List.cons_append, search, if_neg notEnd]
    split_ifs with here
    · rfl
    · apply ih fun h => visible (List.mem_cons_of_mem c h)
      refine (List.infix_cons_iff.mp occurs).resolve_left fun start => here ?_
      exact start.trans (List.prefix_append (c :: text) rest)

theorem search_leaves {buffer : List α} (endless : nul ∉ buffer) (absent : ¬needle <:+: buffer) :
    search nul needle buffer = none := by
  induction buffer with
  | nil => rfl
  | cons c buffer ih =>
    have notEnd : c ≠ nul := fun h => endless (h ▸ List.mem_cons_self ..)
    rw [List.infix_cons_iff, not_or] at absent
    rw [search, if_neg notEnd, if_neg absent.1]
    exact ih (fun h => endless (List.mem_cons_of_mem c h)) absent.2

omit [DecidableEq α] in
theorem infix_append_replicate {x : α} (lacks : x ∉ needle) (proper : needle ≠ []) {text : List α}
    (n : Nat) (occurs : needle <:+: text ++ List.replicate n x) : needle <:+: text := by
  induction n with
  | zero => rwa [List.replicate_zero, List.append_nil] at occurs
  | succ n ih =>
    rw [List.replicate_succ', ← List.append_assoc, List.infix_concat_iff] at occurs
    rcases occurs with last | earlier
    · obtain ⟨before, same⟩ := last
      have final := congrArg List.getLast? same
      rw [List.getLast?_append_of_ne_nil _ proper, List.getLast?_concat] at final
      exact absurd (List.mem_of_getLast? final) lacks
    · exact ih earlier

end LTZVisor.Lib.CString
