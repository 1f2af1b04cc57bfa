/- LTZVisor/Drivers/GicFields
   kind: property
   digest: The packed fields of the distributor are set independently of each other. -/

import LTZVisor.Drivers.Gic
import LTZVisor.Lib.Bits
import LTZVisor.Lib.LastWrite

set_option autoImplicit false
set_option relaxedAutoImplicit false

namespace LTZVisor.Drivers.GicFields

open LTZVisor.Lib.Memory LTZVisor.Lib.Bits LTZVisor.Lib.LastWrite LTZVisor.Drivers.Gic

inductive Call
  | prioritySet (interrupt priority : Word)
  | targetSet (interrupt cpu set : Word)
  | securityConfig (interrupt : Word) (security : IntSecurity)
  deriving DecidableEq

/-- What a call returns, if anything, and the distributor after it. -/
def call (d : Distributor) : Call → Option Word × Distributor
  | .prioritySet interrupt priority =>
    let (old, d) := interruptPrioritySet interrupt priority d
    (some old, d)
  | .targetSet interrupt cpu set => (none, interruptTargetSet interrupt cpu set d)
  | .securityConfig interrupt security => (none, interruptSecurityConfig interrupt security d)

def after (d : Distributor) (cs : List Call) : Distributor := cs.foldl (fun d c => (call d c).2) d

/-- What is configured for an interrupt. -/
inductive Setting
  | priority (id : Word)
  | target (id cpu : Word)
  | security (id : Word)
  deriving DecidableEq

/-- Some adjacent bits of a register. -/
structure Field where
  reg : Reg
  first : Nat
  width : Nat

def Setting.field : Setting → Field
  | .priority id => ⟨.icdipr (id / 4#32), id.toNat % 4 * 8 + 4, 4⟩
  | .target id cpu => ⟨.icdiptr (id / 4#32), id.toNat % 4 * 8 + cpu.toNat, 1⟩
  | .security id => ⟨.icdisr (id / 32#32), id.toNat % 32, 1⟩

def Setting.Valid : Setting → Prop
  | .priority id => id.toNat < noOfInterruptsImplemented
  | .target id cpu => id.toNat < noOfInterruptsImplemented ∧ cpu.toNat < 8
  | .security id => id.toNat < noOfInterruptsImplemented

instance (s : Setting) : Decidable s.Valid :=
  match s with
  | .priority _ => inferInstanceAs (Decidable (_ < _))
  | .target _ _ => inferInstanceAs (Decidable (_ ∧ _))
  | .security _ => inferInstanceAs (Decidable (_ < _))

def value (d : Distributor) (s : Setting) : Nat :=
  ((d.reg s.field.reg).extractLsb' s.field.first s.field.width).toNat

def Field.Contains (f : Field) (r : Reg) (i : Nat) : Prop :=
  r = f.reg ∧ f.first ≤ i ∧ i < f.first + f.width

instance (f : Field) (r : Reg) (i : Nat) : Decidable (f.Contains r i) :=
  inferInstanceAs (Decidable (_ ∧ _))

namespace Call

def interrupt : Call → Word
  | .prioritySet interrupt _ => interrupt
  | .targetSet interrupt _ _ => interrupt
  | .securityConfig interrupt _ => interrupt

def setting : Call → Setting
  | .prioritySet interrupt _ => .priority interrupt
  | .targetSet interrupt cpu _ => .target interrupt cpu
  | .securityConfig interrupt _ => .security interrupt

def sets : Call → Nat
  | .prioritySet _ priority => priority.toNat % 16
  | .targetSet _ _ set => if set ≠ 0#32 then 1 else 0
  | .securityConfig _ security => if security = .intNs then 1 else 0

def Valid (c : Call) : Prop := c.setting.Valid

instance (c : Call) : Decidable c.Valid := inferInstanceAs (Decidable c.setting.Valid)

end Call

def writes (c : Call) (s : Setting) : Option Nat := if c.setting = s then some c.sets else none

/-- The laws of the fields after some calls: what they hold, which bits the calls left alone, what
the next call returns, and that the next two can be exchanged. -/
structure Independent (d : Distributor) (cs : List Call) : Prop where
  last : ∀ s : Setting, s.Valid → value (after d cs) s = (lastWrite writes cs s).getD (value d s)
  unaddressed : ∀ r i, (∀ c ∈ cs, ¬c.setting.field.Contains r i) →
    ((after d cs).reg r).getLsbD i = (d.reg r).getLsbD i
  returned : ∀ interrupt priority,
    (call (after d cs) (.prioritySet interrupt priority)).1.map BitVec.toNat =
      some (value (after d cs) (.priority interrupt))
  exchange : ∀ a b : Call, a.Valid → b.Valid → a.interrupt ≠ b.interrupt →
    (after d (cs ++ [a, b])).reg = (after d (cs ++ [b, a])).reg ∧
      (call (after d (cs ++ [a])) b).1 = (call (after d cs) b).1

private theorem word_eq {id id' n : Word} (same : id / n = id' / n) :
    id.toNat / n.toNat = id'.toNat / n.toNat := by
  rw [← BitVec.toNat_udiv, ← BitVec.toNat_udiv, same]

theorem field_apart {s t : Setting} (validS : s.Valid) (validT : t.Valid) (different : s ≠ t)
    {r : Reg} {i : Nat} (inS : s.field.Contains r i) : ¬t.field.Contains r i := by
  intro inT
  obtain ⟨rfl, lowS, highS⟩ := inS
  obtain ⟨same, lowT, highT⟩ := inT
  apply different
  cases s <;> cases t <;> simp only [Setting.field, Reg.icdipr.injEq, Reg.icdiptr.injEq,
    Reg.icdisr.injEq, reduceCtorEq] at same lowS highS lowT highT
  case priority.priority id id' =>
    have word : id.toNat / 4 = id'.toNat / 4 := word_eq same
    have equal : id = id' := BitVec.eq_of_toNat_eq (by omega)
    rw [equal]
  case target.target id cpu id' cpu' =>
    have word : id.toNat / 4 = id'.toNat / 4 := word_eq same
    have small := validS.2
    have small' := validT.2
    have equal : id = id' := BitVec.eq_of_toNat_eq (by omega)
    have equalCpu : cpu = cpu' := BitVec.eq_of_toNat_eq (by omega)
    rw [equal, equalCpu]
  case security.security id id' =>
    have word : id.toNat / 32 = id'.toNat / 32 := word_eq same
    have equal : id = id' := BitVec.eq_of_toNat_eq (by omega)
    rw [equal]

private theorem getLsbD_modify (reg : Reg → Word) (q : Reg) (v : Word) (first : Nat)
    (fits : first + 4 ≤ 32) (r : Reg) (i : Nat) :
    (Function.update reg q (reg q &&& ~~~(0xF#32 <<< first) ||| (v &&& 0xF#32) <<< first)
        r).getLsbD i =
      if (Field.mk q first 4).Contains r i then (v.toNat % 16).testBit (i - first)
      else (reg r).getLsbD i := by
  have low (k : Nat) : (0xF#32).getLsbD k = decide (k < 4) := by
    rw [BitVec.getLsbD_ofNat]
    have ones := Nat.testBit_two_pow_sub_one 4 k
    change Nat.testBit 15 k = _ at ones
    rw [ones, ← Bool.decide_and, decide_eq_decide]
    omega
  by_cases here : r = q
  · have mod : (v.toNat % 16).testBit (i - first) =
        (decide (i - first < 4) && v.getLsbD (i - first)) :=
      Nat.testBit_mod_two_pow v.toNat 4 (i - first)
    rw [here, Function.update_self, mod]
    simp only [BitVec.getLsbD_or, BitVec.getLsbD_and, BitVec.getLsbD_not,
      BitVec.getLsbD_shiftLeft, low]
    by_cases inside : first ≤ i ∧ i < first + 4
    · have below : i < 32 := by omega
      rw [if_pos ⟨rfl, inside⟩]
      simp [below, show ¬i < first by omega, show i - first < 4 by omega]
    · rw [if_neg fun h => inside h.2]
      by_cases below : i < 32
      · by_cases left : i < first
        · simp [below, left]
        · simp [below, left, show ¬i - first < 4 by omega]
      · simp [below, BitVec.getLsbD_of_ge (reg q) i (by omega)]
  · rw [Function.update_of_ne here, if_neg fun h => here h.1]

theorem getLsbD_setClear (reg : Reg → Word) (q : Reg) (on : Prop) [Decidable on] (first : Nat)
    (fits : first < 32) (r : Reg) (i : Nat) :
    (Function.update reg q
        (if on then reg q ||| 1#32 <<< first else reg q &&& ~~~(1#32 <<< first)) r).getLsbD i =
      if (Field.mk q first 1).Contains r i then (if on then 1 else 0 : Nat).testBit (i - first)
      else (reg r).getLsbD i := by
  by_cases here : r = q
  · have bit : (1#32 <<< first).getLsbD i = decide (i = first) := by
      rw [← BitVec.twoPow_eq, BitVec.getLsbD_twoPow]
      simp [fits, eq_comm]
    rw [here, Function.update_self, or_eq_assign, and_not_eq_assign]
    by_cases inside : i = first
    · have contains : (Field.mk q first 1).Contains q i := ⟨rfl, inside.ge, by simp [inside]⟩
      rw [if_pos contains]
      by_cases set : on
      · rw [if_pos set, if_pos set, getLsbD_assign, bit, decide_eq_true inside]
        simp [inside]
      · rw [if_neg set, if_neg set, getLsbD_assign, bit, decide_eq_true inside]
        simp [inside]
    · have outside : ¬(Field.mk q first 1).Contains q i := by
        rintro ⟨-, low, high⟩
        simp only at low high
        omega
      rw [if_neg outside]
      by_cases set : on <;> simp [set, bit, inside]
  · rw [Function.update_of_ne here, if_neg fun h => here h.1]

private theorem byte_toNat (interrupt : Word) :
    (interrupt % 4#32 * 8#32).toNat = interrupt.toNat % 4 * 8 := by
  simp only [BitVec.toNat_mul, BitVec.toNat_umod, BitVec.toNat_ofNat, Nat.reducePow, Nat.reduceMod]
  omega

private theorem priority_toNat (interrupt : Word) :
    (interrupt % 4#32 * 8#32 + 4#32).toNat = interrupt.toNat % 4 * 8 + 4 := by
  rw [BitVec.toNat_add, byte_toNat, BitVec.toNat_ofNat]
  omega

theorem call_getLsbD {c : Call} (valid : c.Valid) (d : Distributor) (r : Reg) (i : Nat) :
    ((call d c).2.reg r).getLsbD i =
      if c.setting.field.Contains r i then c.sets.testBit (i - c.setting.field.first)
      else (d.reg r).getLsbD i := by
  cases c with
  | prioritySet interrupt priority =>
    have modify := getLsbD_modify d.reg (.icdipr (interrupt / 4#32)) priority
      (interrupt.toNat % 4 * 8 + 4) (by omega) r i
    rw [← priority_toNat] at modify
    exact modify.trans (by rw [priority_toNat]; rfl)
  | targetSet interrupt cpu set =>
    have small := valid.2
    have mask : (1#32 <<< cpu) <<< (interrupt % 4#32 * 8#32) =
        1#32 <<< (interrupt.toNat % 4 * 8 + cpu.toNat) := by
      rw [BitVec.shiftLeft_eq', BitVec.shiftLeft_eq', byte_toNat, ← BitVec.shiftLeft_add,
        Nat.add_comm]
    have setClear := getLsbD_setClear d.reg (.icdiptr (interrupt / 4#32)) (set ≠ 0#32)
      (interrupt.toNat % 4 * 8 + cpu.toNat) (by omega) r i
    rw [← mask] at setClear
    exact setClear
  | securityConfig interrupt security =>
    have bit : (interrupt % 32#32).toNat = interrupt.toNat % 32 := BitVec.toNat_umod
    have setClear := getLsbD_setClear d.reg (.icdisr (interrupt / 32#32)) (security = .intNs)
      (interrupt.toNat % 32) (by omega) r i
    rw [← bit] at setClear
    exact setClear.trans (by rw [bit]; rfl)

def bit (d : Distributor) (b : Reg × Nat) : Bool := (d.reg b.1).getLsbD b.2

def bitWrites (c : Call) (b : Reg × Nat) : Option Bool :=
  if c.setting.field.Contains b.1 b.2 then some (c.sets.testBit (b.2 - c.setting.field.first))
  else none

private theorem call_bit {c : Call} (valid : c.Valid) :
    Overwrites bit (fun d c => (call d c).2) bitWrites c := by
  intro d b
  rw [bit, call_getLsbD valid, bitWrites]
  split_ifs <;> rfl

theorem sets_lt (c : Call) : c.sets < 2 ^ c.setting.field.width := by
  cases c with
  | prioritySet interrupt priority => exact Nat.mod_lt _ (by decide)
  | targetSet interrupt cpu set =>
    change (if set ≠ 0#32 then 1 else 0) < 2
    split_ifs <;> decide
  | securityConfig interrupt security =>
    change (if security = .intNs then 1 else 0) < 2
    split_ifs <;> decide

private theorem call_value {c : Call} (valid : c.Valid) {s : Setting} (validS : s.Valid)
    (d : Distributor) : value (call d c).2 s = (writes c s).getD (value d s) := by
  unfold writes
  split_ifs with own
  · subst own
    have field : ((call d c).2.reg c.setting.field.reg).extractLsb' c.setting.field.first
        c.setting.field.width = BitVec.ofNat _ c.sets := by
      apply BitVec.eq_of_getLsbD_eq
      intro i less
      have inside : c.setting.field.Contains c.setting.field.reg (c.setting.field.first + i) :=
        ⟨rfl, Nat.le_add_right _ _, Nat.add_lt_add_left less _⟩
      rw [BitVec.getLsbD_extractLsb', call_getLsbD valid, if_pos inside, BitVec.getLsbD_ofNat,
        Nat.add_sub_cancel_left]
    rw [value, field, BitVec.toNat_ofNat, Nat.mod_eq_of_lt (sets_lt c)]
    rfl
  · unfold value
    congr 1
    apply BitVec.eq_of_getLsbD_eq
    intro i less
    have inside : s.field.Contains s.field.reg (s.field.first + i) :=
      ⟨rfl, Nat.le_add_right _ _, Nat.add_lt_add_left less _⟩
    have outside := field_apart validS valid (Ne.symm own) inside
    rw [BitVec.getLsbD_extractLsb', BitVec.getLsbD_extractLsb', call_getLsbD valid,
      if_neg outside]

theorem prioritySet_returns (d : Distributor) (interrupt priority : Word) :
    (interruptPrioritySet interrupt priority d).1.toNat = value d (.priority interrupt) := by
  change ((d.reg (.icdipr (interrupt / 4#32)) >>> (interrupt % 4#32 * 8#32 + 4#32)) &&&
    0xF#32).toNat = ((d.reg (.icdipr (interrupt / 4#32))).extractLsb'
      (interrupt.toNat % 4 * 8 + 4) 4).toNat
  rw [BitVec.extractLsb'_toNat, BitVec.toNat_and, BitVec.ushiftRight_eq', BitVec.toNat_ushiftRight,
    priority_toNat]
  exact Nat.and_two_pow_sub_one_eq_mod _ 4

private theorem call_returns_after {a b : Call} (validA : a.Valid) (validB : b.Valid)
    (other : a.interrupt ≠ b.interrupt) (d : Distributor) :
    (call (call d a).2 b).1 = (call d b).1 := by
  cases b with
  | prioritySet interrupt priority =>
    have apart : a.setting ≠ .priority interrupt := by
      rintro same
      cases a <;> simp_all [Call.setting, Call.interrupt]
    have same := call_value validA (s := .priority interrupt) validB d
    rw [writes, if_neg apart] at same
    have old : (interruptPrioritySet interrupt priority (call d a).2).1 =
        (interruptPrioritySet interrupt priority d).1 := by
      apply BitVec.eq_of_toNat_eq
      rw [prioritySet_returns, prioritySet_returns]
      exact same
    exact congrArg some old
  | targetSet interrupt cpu set => rfl
  | securityConfig interrupt security => rfl

private theorem setting_ne {a b : Call} (other : a.interrupt ≠ b.interrupt) :
    a.setting ≠ b.setting := by
  intro same
  apply other
  cases a <;> cases b <;> simp_all [Call.setting, Call.interrupt]

private theorem call_comm {a b : Call} (validA : a.Valid) (validB : b.Valid)
    (other : a.interrupt ≠ b.interrupt) (d : Distributor) :
    (call (call d a).2 b).2.reg = (call (call d b).2 a).2.reg := by
  have apart : ∀ c, bitWrites a c = none ∨ bitWrites b c = none := by
    intro c
    by_cases inside : a.setting.field.Contains c.1 c.2
    · exact Or.inr (if_neg (field_apart validA validB (setting_ne other) inside))
    · exact Or.inl (if_neg inside)
  funext r
  apply BitVec.eq_of_getLsbD_eq
  intro i _
  exact view_comm (call_bit validA) (call_bit validB) apart d (r, i)

/-- After any calls every setting has the number it was set to last, every bit that no call
addresses is as it was, and calls for different interrupts do not interfere. -/
theorem fields_independent (d : Distributor) (cs : List Call) (valid : ∀ c ∈ cs, c.Valid) :
    Independent d cs := by
  constructor
  case last =>
    intro s validS
    have overwrites : ∀ c ∈ cs, Overwrites (fun d (s : {s : Setting // s.Valid}) => value d s)
        (fun d c => (call d c).2) (fun c s => writes c s) c :=
      fun c mem d s => call_value (valid c mem) s.2 d
    exact view_run overwrites d ⟨s, validS⟩
  case unaddressed =>
    intro r i untouched
    have run := view_run (fun c mem => call_bit (valid c mem)) d (r, i)
    have none : ∀ c ∈ cs, bitWrites c (r, i) = none := fun c mem => if_neg (untouched c mem)
    rw [lastWrite_eq_none none] at run
    exact run
  case returned =>
    intro interrupt priority
    exact congrArg some (prioritySet_returns (after d cs) interrupt priority)
  case exchange =>
    intro a b validA validB other
    simp only [after, List.foldl_append, List.foldl_cons, List.foldl_nil]
    exact ⟨call_comm validA validB other _, call_returns_after validA validB other _⟩

/-- The calls that the secure guest makes for its tick and for the SPI. -/
def hwInitCalls : List Call :=
  [.targetSet 43 0 1, .prioritySet 43 5, .targetSet 81 0 1, .prioritySet 81 4]

theorem fields_independent_hwInit :
    Independent ⟨fun _ => 0xFFFFFFFF#32, []⟩ hwInitCalls :=
  fields_independent _ hwInitCalls (by decide)

end LTZVisor.Drivers.GicFields
