/- LTZVisor/Lib/Polling
   kind: library
   digest: Polling a status on a trace of its values, and accesses that wait for one that allows. -/

import Mathlib

set_option autoImplicit false
set_option relaxedAutoImplicit false

namespace LTZVisor.Lib.Polling

universe u v

variable {S : Type u} {A : Type v} {busy busy' : S → Bool} {allows : S → Prop}

inductive Event (S : Type u) (A : Type v)
  | poll (s : S)
  | access (a : A)

/-- What has been done on a trace, and what is left of it, or `none` when the trace ends in a
wait. -/
abbrev Outcome (S : Type u) (A : Type v) := List (Event S A) × Option (List S)

def waitWhile (busy : S → Bool) : List S → List S × Option (List S)
  | [] => ([], none)
  | s :: trace =>
    if busy s then (s :: (waitWhile busy trace).1, (waitWhile busy trace).2) else ([s], some trace)

/-- An access once the status is not busy. -/
def accessWhen (busy : S → Bool) (a : A) (trace : List S) : Outcome S A :=
  match waitWhile busy trace with
  | (polled, some rest) => (polled.map .poll ++ [.access a], some rest)
  | (polled, none) => (polled.map .poll, none)

def andThen (out : Outcome S A) (next : List S → Outcome S A) : Outcome S A :=
  match out with
  | (log, some rest) => (log ++ (next rest).1, (next rest).2)
  | (log, none) => (log, none)

/-- The accesses in their order, each when the status is not busy. -/
def accessAll (busy : S → Bool) : List A → List S → Outcome S A
  | [], trace => ([], some trace)
  | a :: as, trace => andThen (accessWhen busy a trace) (accessAll busy as)

def accesses : List (Event S A) → List A
  | [] => []
  | .poll _ :: log => accesses log
  | .access a :: log => a :: accesses log

/-- Every access comes right after a poll that allows it. -/
def Guarded (allows : S → Prop) (log : List (Event S A)) : Prop :=
  ∀ before a later, log = before ++ .access a :: later →
    ∃ polls s, before = polls ++ [.poll s] ∧ allows s

theorem accesses_append (log log' : List (Event S A)) :
    accesses (log ++ log') = accesses log ++ accesses log' := by
  induction log with
  | nil => rfl
  | cons e log ih =>
    cases e with
    | poll s => exact ih
    | access a => exact congrArg (a :: ·) ih

theorem accesses_polls (polled : List S) :
    accesses (polled.map .poll : List (Event S A)) = [] := by
  induction polled with
  | nil => rfl
  | cons s polled ih => exact ih

private theorem polls_ne {polled : List S} {before later : List (Event S A)} {a : A} :
    polled.map .poll ≠ before ++ .access a :: later := by
  intro same
  have mem : (.access a : Event S A) ∈ polled.map .poll := by
    rw [same]
    simp
  obtain ⟨s, -, e⟩ := List.mem_map.mp mem
  cases e

private theorem guarded_polls (polled : List S) :
    Guarded allows (polled.map .poll : List (Event S A)) :=
  fun _ _ _ log => absurd log polls_ne

theorem Guarded.append {log log' : List (Event S A)} (h : Guarded allows log)
    (h' : Guarded allows log') : Guarded allows (log ++ log') := by
  intro before a later split
  rcases List.append_eq_append_iff.mp split with ⟨mid, rfl, rest⟩ | ⟨mid, rfl, rest⟩
  · obtain ⟨polls, s, rfl, ok⟩ := h' mid a later rest
    exact ⟨log ++ polls, s, (List.append_assoc ..).symm, ok⟩
  · cases mid with
    | nil =>
      obtain ⟨polls, s, none, -⟩ := h' [] a later rest.symm
      exact absurd none (by simp)
    | cons e mid =>
      obtain ⟨rfl, rfl⟩ := List.cons.inj rest
      exact h before a mid rfl

/-- After polls that end in `s`, an access is right when `s` allows it. -/
private theorem guarded_access_iff (polled : List S) (s : S) (a : A) :
    Guarded allows ((polled ++ [s]).map .poll ++ [.access a] : List (Event S A)) ↔ allows s := by
  constructor
  · intro guarded
    obtain ⟨polls, last, same, ok⟩ := guarded _ a [] rfl
    rw [List.map_append] at same
    obtain ⟨-, tail⟩ := List.append_inj' same rfl
    cases tail
    exact ok
  · intro ok before b later split
    rcases List.append_eq_append_iff.mp split with ⟨mid, rfl, rest⟩ | ⟨mid, polls, rest⟩
    · cases mid with
      | nil => exact ⟨polled.map .poll, s, by rw [List.append_nil, List.map_append]; rfl, ok⟩
      | cons e mid => exact absurd (congrArg List.length rest) (by simp)
    · cases mid with
      | nil =>
        refine ⟨polled.map .poll, s, ?_, ok⟩
        rw [List.append_nil] at polls
        rw [← polls, List.map_append]
        rfl
      | cons e mid =>
        obtain ⟨rfl, -⟩ := List.cons.inj rest
        exact absurd polls polls_ne

private theorem waitWhile_cases (busy : S → Bool) (trace : List S) :
    (waitWhile busy trace = (trace, none) ∧ trace.find? (fun s => !busy s) = none) ∨
    ∃ polled s rest, waitWhile busy trace = (polled ++ [s], some rest) ∧
      trace.find? (fun s => !busy s) = some s := by
  induction trace with
  | nil => exact Or.inl ⟨rfl, rfl⟩
  | cons s trace ih =>
    rw [waitWhile]
    by_cases wait : busy s = true
    · rw [if_pos wait, List.find?_cons_of_neg (by simp [wait])]
      rcases ih with ⟨wait', found⟩ | ⟨polled, last, rest, wait', found⟩
      · rw [wait']
        exact Or.inl ⟨rfl, found⟩
      · rw [wait']
        exact Or.inr ⟨s :: polled, last, rest, rfl, found⟩
    · rw [if_neg wait, List.find?_cons_of_pos (by simp [wait])]
      exact Or.inr ⟨[], s, trace, rfl, rfl⟩

theorem waitWhile_congr {trace : List S} (weaker : ∀ s, busy' s = true → busy s = true)
    (first : ∀ s, trace.find? (fun s => !busy' s) = some s → busy s = false) :
    waitWhile busy' trace = waitWhile busy trace := by
  induction trace with
  | nil => rfl
  | cons s trace ih =>
    rw [waitWhile, waitWhile]
    by_cases wait : busy' s = true
    · rw [List.find?_cons_of_neg (by simp [wait])] at first
      rw [if_pos wait, if_pos (weaker s wait), ih first]
    · have ends : busy s = false := first s (List.find?_cons_of_pos (by simp [wait]))
      rw [if_neg wait, ends]
      rfl

theorem accessWhen_cases (busy : S → Bool) (a : A) (trace : List S) :
    (accessWhen busy a trace = (trace.map .poll, none) ∧
      trace.find? (fun s => !busy s) = none) ∨
    ∃ polled s rest,
      accessWhen busy a trace = ((polled ++ [s]).map .poll ++ [.access a], some rest) ∧
        trace.find? (fun s => !busy s) = some s := by
  unfold accessWhen
  rcases waitWhile_cases busy trace with ⟨wait, found⟩ | ⟨polled, s, rest, wait, found⟩
  · rw [wait]
    exact Or.inl ⟨rfl, found⟩
  · rw [wait]
    exact Or.inr ⟨polled, s, rest, rfl, found⟩

theorem accessWhen_guarded_iff (busy : S → Bool) (a : A) (trace : List S) :
    Guarded allows (accessWhen busy a trace).1 ↔
      ∀ s, trace.find? (fun s => !busy s) = some s → allows s := by
  rcases accessWhen_cases busy a trace with ⟨access, found⟩ | ⟨polled, s, rest, access, found⟩
  · rw [access, found]
    exact iff_of_true (guarded_polls _) fun s none => nomatch none
  · rw [access, found]
    simp only [Option.some.injEq, forall_eq']
    exact guarded_access_iff polled s a

/-- What was accessed on a trace: all of it when the trace did not end in a wait, and else what
came first. -/
structure InOrder (as : List A) (out : Outcome S A) : Prop where
  front : accesses out.1 <+: as
  whole : out.2.isSome → accesses out.1 = as

private theorem accessWhen_inOrder (busy : S → Bool) (a : A) (trace : List S) :
    InOrder [a] (accessWhen busy a trace) := by
  rcases accessWhen_cases busy a trace with ⟨access, -⟩ | ⟨polled, s, rest, access, -⟩
  · rw [access]
    refine ⟨?_, nofun⟩
    rw [accesses_polls]
    exact List.nil_prefix
  · have once : accesses ((polled ++ [s]).map .poll ++ [.access a] : List (Event S A)) = [a] := by
      rw [accesses_append, accesses_polls]
      rfl
    rw [access]
    exact ⟨once ▸ List.prefix_rfl, fun _ => once⟩

theorem InOrder.andThen {a : A} {as : List A} {out : Outcome S A} {next : List S → Outcome S A}
    (first : InOrder [a] out) (later : ∀ rest, InOrder as (next rest)) :
    InOrder (a :: as) (andThen out next) := by
  rcases out with ⟨log, rest⟩
  cases rest with
  | none => exact ⟨first.front.trans (List.prefix_append [a] as), nofun⟩
  | some rest =>
    have once : accesses log = [a] := first.whole rfl
    constructor
    · rw [Polling.andThen, accesses_append, once]
      exact (List.prefix_append_right_inj [a]).mpr (later rest).front
    · intro done
      rw [Polling.andThen, accesses_append, once, (later rest).whole done]
      rfl

private theorem guarded_andThen {out : Outcome S A} {next : List S → Outcome S A}
    (first : Guarded allows out.1) (later : ∀ rest, Guarded allows (next rest).1) :
    Guarded allows (andThen out next).1 := by
  rcases out with ⟨log, rest⟩
  cases rest with
  | none => exact first
  | some rest => exact first.append (later rest)

theorem accessAll_inOrder (busy : S → Bool) (as : List A) (trace : List S) :
    InOrder as (accessAll busy as trace) := by
  induction as generalizing trace with
  | nil => exact ⟨List.prefix_rfl, fun _ => rfl⟩
  | cons a as ih => exact (accessWhen_inOrder busy a trace).andThen ih

theorem accessAll_guarded (allowed : ∀ s, busy s = false → allows s) (as : List A)
    (trace : List S) : Guarded allows (accessAll busy as trace).1 := by
  induction as generalizing trace with
  | nil => exact guarded_polls []
  | cons a as ih =>
    refine guarded_andThen ((accessWhen_guarded_iff busy a trace).mpr ?_) ih
    intro s found
    have ends := List.find?_some found
    exact allowed s (by simpa using ends)

private theorem andThen_assoc (out : Outcome S A) (next next' : List S → Outcome S A) :
    andThen (andThen out next) next' = andThen out fun rest => andThen (next rest) next' := by
  rcases out with ⟨log, rest⟩
  cases rest with
  | none => rfl
  | some rest =>
    rw [andThen, andThen]
    rcases next rest with ⟨log', rest'⟩
    cases rest' with
    | none => rfl
    | some rest' => rw [andThen, andThen, List.append_assoc]

theorem accessAll_append (busy : S → Bool) (as bs : List A) (trace : List S) :
    accessAll busy (as ++ bs) trace = andThen (accessAll busy as trace) (accessAll busy bs) := by
  induction as generalizing trace with
  | nil => rfl
  | cons a as ih =>
    rw [List.cons_append, accessAll, funext ih, accessAll, andThen_assoc]

private theorem waitWhile_countP (busy : S → Bool) (trace : List S) :
    ((waitWhile busy trace).2 = none ∧ trace.countP (fun s => !busy s) = 0) ∨
      ∃ rest, (waitWhile busy trace).2 = some rest ∧
        trace.countP (fun s => !busy s) = rest.countP (fun s => !busy s) + 1 := by
  induction trace with
  | nil => exact Or.inl ⟨rfl, rfl⟩
  | cons s trace ih =>
    rw [waitWhile]
    by_cases wait : busy s = true
    · rw [if_pos wait, List.countP_cons_of_neg (by simp [wait])]
      exact ih
    · rw [if_neg wait, List.countP_cons_of_pos (by simp [wait])]
      exact Or.inr ⟨trace, rfl, rfl⟩

/-- The accesses all come about when the status allows one often enough. -/
theorem accessAll_isSome_iff (busy : S → Bool) (as : List A) (trace : List S) :
    (accessAll busy as trace).2.isSome ↔ as.length ≤ trace.countP fun s => !busy s := by
  induction as generalizing trace with
  | nil => exact iff_of_true rfl (Nat.zero_le _)
  | cons a as ih =>
    rw [accessAll, accessWhen, List.length_cons]
    rcases waitWhile_countP busy trace with ⟨wait, count⟩ | ⟨rest, wait, count⟩
    · rw [count]
      generalize waitWhile busy trace = out at wait
      obtain ⟨polled, left⟩ := out
      subst wait
      exact iff_of_false nofun (by omega)
    · rw [count]
      generalize waitWhile busy trace = out at wait
      obtain ⟨polled, left⟩ := out
      subst wait
      rw [Nat.add_le_add_iff_right, ← ih rest]
      rfl

end LTZVisor.Lib.Polling
