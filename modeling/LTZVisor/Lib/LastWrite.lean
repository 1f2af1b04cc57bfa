/- LTZVisor/Lib/LastWrite
   kind: library
   digest: Operations that overwrite some cells of a store; each cell keeps its last write. -/

import Mathlib

set_option autoImplicit false
set_option relaxedAutoImplicit false

namespace LTZVisor.Lib.LastWrite

universe u v w x

variable {S : Type u} {Op : Type v} {C : Type w} {V : Type x}

def lastWrite (writes : Op → C → Option V) (ops : List Op) (c : C) : Option V :=
  ops.foldl (fun last op => (writes op c).or last) none

/-- An operation leaves in each cell what it writes there, or else what was there. -/
def Overwrites (view : S → C → V) (step : S → Op → S) (writes : Op → C → Option V) (op : Op) :
    Prop :=
  ∀ s c, view (step s op) c = (writes op c).getD (view s c)

theorem lastWrite_append_singleton (writes : Op → C → Option V) (ops : List Op) (op : Op) (c : C) :
    lastWrite writes (ops ++ [op]) c = (writes op c).or (lastWrite writes ops c) := by
  rw [lastWrite, List.foldl_append]
  rfl

theorem lastWrite_eq_none {writes : Op → C → Option V} {ops : List Op} {c : C}
    (untouched : ∀ op ∈ ops, writes op c = none) : lastWrite writes ops c = none := by
  induction ops using List.reverseRecOn with
  | nil => rfl
  | append_singleton ops op ih =>
    rw [lastWrite_append_singleton, untouched op (by simp), Option.none_or]
    exact ih fun op' mem => untouched op' (List.mem_append_left _ mem)

variable {view : S → C → V} {step : S → Op → S} {writes : Op → C → Option V}

/-- After any operations a cell holds their last write to it, or else what it held. -/
theorem view_run {ops : List Op} (overwrites : ∀ op ∈ ops, Overwrites view step writes op) (s : S)
    (c : C) : view (ops.foldl step s) c = (lastWrite writes ops c).getD (view s c) := by
  induction ops using List.reverseRecOn with
  | nil => rfl
  | append_singleton ops op ih =>
    have before := ih fun op' mem => overwrites op' (List.mem_append_left _ mem)
    have last := overwrites op (by simp)
    rw [List.foldl_append, List.foldl_cons, List.foldl_nil, last, before,
      lastWrite_append_singleton]
    cases writes op c <;> rfl

/-- Operations that write to no common cell can be exchanged. -/
theorem view_comm {a b : Op} (first : Overwrites view step writes a)
    (second : Overwrites view step writes b) (apart : ∀ c, writes a c = none ∨ writes b c = none)
    (s : S) (c : C) : view (step (step s a) b) c = view (step (step s b) a) c := by
  rw [second, first, first, second]
  rcases apart c with none | none
  · rw [none]
    rfl
  · rw [none]
    rfl

end LTZVisor.Lib.LastWrite
