/- LTZVisor/Lib/Pauses
   kind: library
   digest: Runs of a party that is paused now and then, and the runs it believes to make. -/

import Mathlib

set_option autoImplicit false
set_option relaxedAutoImplicit false

namespace LTZVisor.Lib.Pauses

universe u v

variable {S : Type u} {V : Type v} {own pause : S → S → Prop} {view : S → V} {inv : S → Prop}
  {next : V → V → Prop}

/-- Finitely many steps of a party and pauses of it; the list holds what the party sees after each
of its own steps. -/
inductive Sliced (own pause : S → S → Prop) (view : S → V) : S → List V → S → Prop
  | nil (s : S) : Sliced own pause view s [] s
  | own {s t s' : S} {vs : List V} : own s t → Sliced own pause view t vs s' →
      Sliced own pause view s (view t :: vs) s'
  | pause {s t s' : S} {vs : List V} : pause s t → Sliced own pause view t vs s' →
      Sliced own pause view s vs s'

/-- The steps of a party are steps of `next` in its own eyes, and it does not see its pauses. -/
structure Unseen (own pause : S → S → Prop) (view : S → V) (inv : S → Prop)
    (next : V → V → Prop) : Prop where
  keeps : ∀ ⦃s t⦄, inv s → own s t ∨ pause s t → inv t
  own : ∀ ⦃s t⦄, inv s → own s t → next (view s) (view t)
  pause : ∀ ⦃s t⦄, inv s → pause s t → view t = view s

/-- What the party sees is a run of `next` without pauses, up to what it sees at the end. -/
theorem Unseen.alone (unseen : Unseen own pause view inv next) {s s' : S} {vs : List V}
    (start : inv s) (run : Sliced own pause view s vs s') :
    List.IsChain next (view s :: vs) ∧ (view s :: vs).getLast? = some (view s') := by
  induction run with
  | nil s => exact ⟨List.IsChain.singleton _, rfl⟩
  | own step _ ih =>
    obtain ⟨chain, last⟩ := ih (unseen.keeps start (.inl step))
    refine ⟨List.isChain_cons_cons.mpr ⟨unseen.own start step, chain⟩, ?_⟩
    rw [List.getLast?_cons_cons]
    exact last
  | pause step _ ih =>
    have same := unseen.pause start step
    rw [← same]
    exact ih (unseen.keeps start (.inr step))

end LTZVisor.Lib.Pauses
