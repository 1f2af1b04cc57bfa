/- LTZVisor/Lib/Runs
   kind: library
   digest: Runs of a transition relation, guarded steps and the invariants they preserve. -/

import Mathlib

set_option autoImplicit false
set_option relaxedAutoImplicit false

namespace LTZVisor.Lib.Runs

universe u

variable {S : Type u} {step : S → S → Prop} {inv guard : S → Prop}

abbrev Run (step : S → S → Prop) : S → S → Prop := Relation.ReflTransGen step

/-- The steps that start in a state that meets a guard. -/
def Guarded (guard : S → Prop) (step : S → S → Prop) (s s' : S) : Prop := guard s ∧ step s s'

def Preserves (step : S → S → Prop) (inv : S → Prop) : Prop := ∀ ⦃s s'⦄, inv s → step s s' → inv s'

/-- An invariant of the steps holds in every state a run reaches. -/
theorem Preserves.run (keeps : Preserves step inv) {s s' : S} (start : inv s)
    (run : Run step s s') : inv s' := by
  induction run with
  | refl => exact start
  | tail _ next ih => exact keeps ih next

section Traces

universe v w x

variable {T : Type v} {I : Type w} {O : Type x}

def trace (next : T → I → T × O) : T → List I → T × List O
  | t, [] => (t, [])
  | t, i :: is =>
    let (t, o) := next t i
    let (t, os) := trace next t is
    (t, o :: os)

def attempt (next : S → I → Option (S × O)) : S → List I → Option (S × List O)
  | s, [] => some (s, [])
  | s, i :: is => do
    let (s, o) ← next s i
    let (s, os) ← attempt next s is
    return (s, o :: os)

/-- A machine refines another when related states take each input to related states with one
output. -/
def Refines (rel : S → T → Prop) (impl : S → I → Option (S × O)) (spec : T → I → T × O) : Prop :=
  ∀ ⦃s t⦄ (i : I), rel s t → ∃ s', impl s i = some (s', (spec t i).2) ∧ rel s' (spec t i).1

theorem Refines.attempt {rel : S → T → Prop} {impl : S → I → Option (S × O)}
    {spec : T → I → T × O} (refines : Refines rel impl spec) (is : List I) {s : S} {t : T}
    (start : rel s t) : ∃ s', attempt impl s is = some (s', (trace spec t is).2) ∧
      rel s' (trace spec t is).1 := by
  induction is generalizing s t with
  | nil => exact ⟨s, rfl, start⟩
  | cons i is ih =>
    obtain ⟨s₁, first, related⟩ := refines i start
    obtain ⟨s₂, rest, final⟩ := ih related
    refine ⟨s₂, ?_, final⟩
    rw [Runs.attempt, first]
    simp only [Option.bind_eq_bind, Option.bind_some, rest, trace]
    rfl

theorem trace_state (next : T → I → T × O) (t : T) (is : List I) :
    (trace next t is).1 = is.foldl (fun t i => (next t i).1) t := by
  induction is generalizing t with
  | nil => rfl
  | cons i is ih => exact ih _

/-- An output is that of the machine in the state that the inputs before it lead to. -/
theorem trace_output (next : T → I → T × O) (t : T) (is : List I) (k : Nat) :
    (trace next t is).2[k]? =
      is[k]?.map fun i => (next ((is.take k).foldl (fun t i => (next t i).1) t) i).2 := by
  induction is generalizing t k with
  | nil => rfl
  | cons i is ih =>
    cases k with
    | zero => rfl
    | succ k => exact ih _ _

end Traces

end LTZVisor.Lib.Runs
