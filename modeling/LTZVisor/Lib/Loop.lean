/- LTZVisor/Lib/Loop
   kind: library
   digest: Loops that leave or go round again at the end of a pass, and what they return. -/

import Mathlib

set_option autoImplicit false
set_option relaxedAutoImplicit false

namespace LTZVisor.Lib.Loop

universe u v

variable {S : Type u} {R : Type v}

/-- The end of a pass through the body of a loop. -/
inductive Turn (S : Type u) (R : Type v)
  | again (s : S)
  | leave (r : R)

def loop (pass : S → Turn S R) : Nat → S → Option R
  | 0, _ => none
  | n + 1, s =>
    match pass s with
    | .again s => loop pass n s
    | .leave r => some r

variable {pass : S → Turn S R}

def Returns (pass : S → Turn S R) (s : S) (r : R) : Prop := ∃ n, loop pass n s = some r

private theorem loop_of_again {s s' : S} (again : pass s = .again s') (n : Nat) :
    loop pass (n + 1) s = loop pass n s' := by
  rw [loop, again]

theorem loop_of_leave {s : S} {r : R} (leave : pass s = .leave r) (n : Nat) :
    loop pass (n + 1) s = some r := by
  rw [loop, leave]

private theorem loop_mono {m n : Nat} (le : m ≤ n) {s : S} {r : R} (run : loop pass m s = some r) :
    loop pass n s = some r := by
  induction m generalizing n s with
  | zero => cases run
  | succ m ih =>
    obtain ⟨n, rfl⟩ : ∃ k, n = k + 1 := ⟨n - 1, by omega⟩
    cases turn : pass s with
    | again s' =>
      rw [loop_of_again turn] at run ⊢
      exact ih (by omega) run
    | leave r' =>
      rw [loop_of_leave turn] at run ⊢
      exact run

theorem Returns.unique {s : S} {r r' : R} (first : Returns pass s r) (second : Returns pass s r') :
    r = r' := by
  obtain ⟨m, run⟩ := first
  obtain ⟨n, run'⟩ := second
  have same := loop_mono (Nat.le_max_left m n) run
  rw [loop_mono (Nat.le_max_right m n) run', Option.some_inj] at same
  exact same.symm

/-- A loop returns when each pass that goes round again keeps the invariant and lowers the
measure; what it returns is what a pass can leave with. -/
theorem returns_of_measure (inv : S → Prop) (post : R → Prop) (measure : S → Nat)
    (step : ∀ s, inv s → (∃ s', pass s = .again s' ∧ inv s' ∧ measure s' < measure s) ∨
      ∃ r, pass s = .leave r ∧ post r)
    {s : S} (start : inv s) : ∃ r, Returns pass s r ∧ post r := by
  induction left : measure s using Nat.strong_induction_on generalizing s with
  | _ k ih =>
    rcases step s start with ⟨s', again, kept, less⟩ | ⟨r, leave, good⟩
    · obtain ⟨r, ⟨n, run⟩, good⟩ := ih (measure s') (left ▸ less) kept rfl
      exact ⟨r, ⟨n + 1, (loop_of_again again n).trans run⟩, good⟩
    · exact ⟨r, ⟨1, loop_of_leave leave 0⟩, good⟩

/-- A loop that never leaves while an invariant holds does not return. -/
theorem not_returns (inv : S → Prop) (step : ∀ s, inv s → ∃ s', pass s = .again s' ∧ inv s')
    {s : S} (start : inv s) (r : R) : ¬Returns pass s r := by
  rintro ⟨n, run⟩
  induction n generalizing s with
  | zero => cases run
  | succ n ih =>
    obtain ⟨s', again, kept⟩ := step s start
    rw [loop_of_again again] at run
    exact ih kept run

theorem Returns.keeps (inv : S → Prop) (post : R → Prop)
    (again : ∀ s s', inv s → pass s = .again s' → inv s')
    (leave : ∀ s r, inv s → pass s = .leave r → post r) {s : S} {r : R}
    (returns : Returns pass s r) (start : inv s) : post r := by
  obtain ⟨n, run⟩ := returns
  induction n generalizing s with
  | zero => cases run
  | succ n ih =>
    cases turn : pass s with
    | again s' =>
      rw [loop_of_again turn] at run
      exact ih (again s s' start turn) run
    | leave r' =>
      rw [loop_of_leave turn, Option.some_inj] at run
      exact run ▸ leave s r' start turn

section Fuel

universe w

variable {T : Type w} {f : Nat → Option R} {g : Nat → R → Option T}

/-- From some fuel on the result is one and the same. -/
def Settles (f : Nat → Option R) : Prop := ∃ n r, ∀ k, n ≤ k → f k = some r

theorem Settles.returns (h : Settles f) : ∃ n r, f n = some r := by
  obtain ⟨n, r, run⟩ := h
  exact ⟨n, r, run n (Nat.le_refl n)⟩

theorem settles_some (r : R) : Settles fun _ => some r := ⟨0, r, fun _ _ => rfl⟩

theorem Returns.settles {s : S} {r : R} (h : Returns pass s r) :
    Settles fun n => loop pass n s := by
  obtain ⟨n, run⟩ := h
  exact ⟨n, r, fun _ le => loop_mono le run⟩

theorem Settles.map (h : Settles f) (g : R → T) : Settles fun n => (f n).map g := by
  obtain ⟨n, r, run⟩ := h
  refine ⟨n, g r, fun k le => ?_⟩
  change (f k).map g = _
  rw [run k le, Option.map_some]

theorem Settles.bind_of (h : Settles f) (next : ∀ n r, f n = some r → Settles fun k => g k r) :
    Settles fun n => (f n).bind (g n) := by
  obtain ⟨n, r, run⟩ := h
  obtain ⟨n', t, run'⟩ := next n r (run n (Nat.le_refl n))
  refine ⟨max n n', t, fun k le => ?_⟩
  change (f k).bind (g k) = _
  rw [run k (by omega), Option.bind_some]
  exact run' k (by omega)

theorem Settles.bind (h : Settles f) (next : ∀ r, Settles fun n => g n r) :
    Settles fun n => (f n).bind (g n) :=
  h.bind_of fun _ r _ => next r

end Fuel

end LTZVisor.Lib.Loop
