/- LTZVisor/Lib/GicCpu
   kind: library
   digest: The CPU interface of a GIC: acknowledge, priority drop and end of interrupt. -/

import LTZVisor.Lib.Memory

set_option autoImplicit false
set_option relaxedAutoImplicit false

namespace LTZVisor.Lib.GicCpu

open LTZVisor.Lib.Memory (Word)

/-- Interrupt numbers; 1020 to 1023 are reserved, and 1023 is read when nothing is pending. -/
abbrev IntId := Fin 1020

def IntId.word (id : IntId) : Word := BitVec.ofNat 32 id.val

def spurious : Word := 1023#32

/-- The running priority while no interrupt is active; a lower number is a higher priority. -/
def idlePriority : Nat := 255

/-- `arrivals` lists the interrupts that become pending before the next accesses of the CPU to
the interface, access by access. `acked` and `completed` record what the reads of the
acknowledge register returned and what was written to the end-of-interrupt register. -/
structure Gic where
  prio : IntId → Nat
  pending : List IntId
  active : List IntId
  arrivals : List (List IntId)
  acked : List IntId
  completed : List Word

namespace Gic

def runningPriority (g : Gic) : Nat := (g.active.map g.prio).foldr min idlePriority

/-- The interrupts that arrive before an access become pending. -/
def absorb (g : Gic) : Gic :=
  { g with pending := g.pending ++ g.arrivals.headD [], arrivals := g.arrivals.tail }

/-- The pending interrupt to take next, when one may preempt. -/
def candidate (g : Gic) : Option IntId :=
  (g.pending.argmin g.prio).filter fun id => g.prio id < g.runningPriority

def readIar (g : Gic) : Word × Gic :=
  match g.absorb.candidate with
  | some id => (id.word, { g.absorb with
      pending := g.absorb.pending.erase id
      active := id :: g.active
      acked := g.acked ++ [id] })
  | none => (spurious, g.absorb)

/-- A write to the end-of-interrupt register; the interrupt number is the low ten bits. -/
def writeEoir (g : Gic) (v : Word) : Gic :=
  { g.absorb with
    active := g.active.eraseP fun id => id.word == v &&& 0x3FF#32
    completed := g.completed ++ [v] }

private theorem candidate_eq_none_iff (g : Gic) :
    g.candidate = none ↔ ∀ id ∈ g.pending, g.runningPriority ≤ g.prio id := by
  unfold candidate
  cases best : g.pending.argmin g.prio with
  | none =>
    have empty : g.pending = [] := List.argmin_eq_none.mp best
    simp [empty]
  | some b =>
    have mem : b ∈ g.pending := List.argmin_mem best
    have least : ∀ id ∈ g.pending, g.prio b ≤ g.prio id :=
      fun id hid => List.le_of_mem_argmin hid best
    simp only [Option.filter_some, decide_eq_true_eq, ite_eq_right_iff, reduceCtorEq, imp_false,
      not_lt]
    constructor
    · intro h id hid
      exact h.trans (least id hid)
    · intro h
      exact h b mem

private theorem candidate_eq_some {g : Gic} {id : IntId} (h : g.candidate = some id) :
    id ∈ g.pending ∧ g.prio id < g.runningPriority ∧ ∀ j ∈ g.pending, g.prio id ≤ g.prio j := by
  obtain ⟨best, higher⟩ := Option.filter_eq_some_iff.mp h
  refine ⟨List.argmin_mem best, by simpa using higher, ?_⟩
  intro j hj
  exact List.le_of_mem_argmin hj best

theorem runningPriority_of_idle {g : Gic} (idle : g.active = []) :
    g.runningPriority = idlePriority := by
  simp [runningPriority, idle]

private theorem runningPriority_of_single {g : Gic} {id : IntId} (single : g.active = [id]) :
    g.runningPriority = min (g.prio id) idlePriority := by
  simp [runningPriority, single]

private theorem readIar_of_some {g : Gic} {id : IntId} (h : g.absorb.candidate = some id) :
    g.readIar = (id.word, { g.absorb with
      pending := g.absorb.pending.erase id
      active := id :: g.active
      acked := g.acked ++ [id] }) := by
  simp only [readIar, h]

private theorem readIar_of_none {g : Gic} (h : g.absorb.candidate = none) :
    g.readIar = (spurious, g.absorb) := by
  simp only [readIar, h]

/-- What a read returns and what it does to the record of the interface. -/
structure Read (g : Gic) (id : Option IntId) : Prop where
  value : g.readIar.1 = (id.map IntId.word).getD spurious
  active : g.readIar.2.active = id.toList ++ g.active
  acked : g.readIar.2.acked = g.acked ++ id.toList
  completed : g.readIar.2.completed = g.completed

theorem read (g : Gic) : g.Read g.absorb.candidate := by
  cases h : g.absorb.candidate with
  | none =>
    constructor <;> rw [readIar_of_none h]
    · rfl
    · rfl
    · exact (List.append_nil _).symm
    · rfl
  | some id => constructor <;> rw [readIar_of_some h] <;> rfl

/-- What arrives between the next access and the one after it has no priority higher than all
that is pending at the first of them. -/
def NoHigherArrival (g : Gic) : Prop :=
  ∀ j ∈ g.absorb.arrivals.headD [],
    idlePriority ≤ g.prio j ∨ ∃ i ∈ g.absorb.pending, g.prio i ≤ g.prio j

/-- A second read finds nothing if and only if nothing of higher priority came in between. -/
theorem second_read_quiet_iff {g : Gic} (idle : g.active = []) :
    g.readIar.2.absorb.candidate = none ↔ g.NoHigherArrival := by
  have running := runningPriority_of_idle (g := g.absorb) idle
  cases first : g.absorb.candidate with
  | none =>
    rw [readIar_of_none first, candidate_eq_none_iff]
    rw [candidate_eq_none_iff, running] at first
    have running' := runningPriority_of_idle (g := g.absorb.absorb) idle
    rw [running']
    constructor
    · intro quiet j hj
      exact .inl (quiet j (List.mem_append_right _ hj))
    · intro low j hj
      rcases List.mem_append.mp hj with old | new
      · exact first j old
      · rcases low j new with idle | ⟨i, hi, le⟩
        · exact idle
        · exact (first i hi).trans le
  | some id =>
    obtain ⟨mem, higher, least⟩ := candidate_eq_some first
    rw [running] at higher
    rw [readIar_of_some first, candidate_eq_none_iff]
    have single : (Gic.absorb { g.absorb with
        pending := g.absorb.pending.erase id
        active := id :: g.active
        acked := g.acked ++ [id] }).active = [id] := by
      rw [absorb, idle]
    rw [runningPriority_of_single single]
    have top : min (g.prio id) idlePriority = g.prio id := Nat.min_eq_left (Nat.le_of_lt higher)
    constructor
    · intro quiet j hj
      have le := quiet j (List.mem_append_right _ hj)
      exact .inr ⟨id, mem, top ▸ le⟩
    · intro low j hj
      refine (Nat.le_of_eq top).trans ?_
      rcases List.mem_append.mp hj with old | new
      · exact least j (List.mem_of_mem_erase old)
      · rcases low j new with idle | ⟨i, hi, le⟩
        · exact (Nat.le_of_lt higher).trans idle
        · exact (least i hi).trans le

end Gic

theorem IntId.word_toNat (id : IntId) : id.word.toNat = id.val := by
  have bound := id.isLt
  simp only [IntId.word, BitVec.toNat_ofNat]
  omega

theorem IntId.word_ne_spurious (id : IntId) : id.word ≠ spurious := by
  intro h
  have same := congrArg BitVec.toNat h
  rw [IntId.word_toNat] at same
  have bound := id.isLt
  simp only [spurious, BitVec.toNat_ofNat] at same
  omega

theorem IntId.word_and_mask (id : IntId) : id.word &&& 0x3FF#32 = id.word := by
  apply BitVec.eq_of_toNat_eq
  have bound := id.isLt
  rw [BitVec.toNat_and, IntId.word_toNat]
  exact (Nat.and_two_pow_sub_one_eq_mod id.val 10).trans (Nat.mod_eq_of_lt (by omega))

end LTZVisor.Lib.GicCpu
