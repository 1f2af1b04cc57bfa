/- LTZVisor/Drivers/GicTable
   kind: property
   digest: The registers of the distributor, under every call of the driver, are a table of
     interrupts. -/

import LTZVisor.Drivers.GicFields
import LTZVisor.Drivers.GicInit

set_option autoImplicit false
set_option relaxedAutoImplicit false

namespace LTZVisor.Drivers.GicTable

open LTZVisor.Lib.Memory LTZVisor.Lib.LastWrite LTZVisor.Drivers.Gic LTZVisor.Drivers.GicFields
open LTZVisor.Drivers.GicInit

/-- A call of the driver, with what it does to the distributor. -/
inductive DriverCall
  | distributorInit
  | interfaceInit
  | securityConfigall
  | enable (interrupt enable : Word)
  | config (c : Call)

namespace DriverCall

def run (d : Distributor) : DriverCall → Distributor
  | .distributorInit => (interruptDistributorInit d).2
  | .interfaceInit => interruptInterfaceRegisters d
  | .securityConfigall => interruptSecurityConfigall d
  | .enable interrupt on => interruptEnable interrupt on d
  | .config c => (call d c).2

def Valid : DriverCall → Prop
  | .enable interrupt _ => interrupt.toNat < noOfInterruptsImplemented
  | .config c => c.Valid
  | _ => True

instance (c : DriverCall) : Decidable c.Valid :=
  match c with
  | .enable _ _ => inferInstanceAs (Decidable (_ < _))
  | .config c => inferInstanceAs (Decidable c.Valid)
  | .distributorInit => isTrue trivial
  | .interfaceInit => isTrue trivial
  | .securityConfigall => isTrue trivial

end DriverCall

/-- A column of the table, for an interrupt. -/
inductive Attr
  | enabled (id : Word)
  | pending (id : Word)
  | trigger (id : Word)
  | setting (s : Setting)
  deriving DecidableEq

namespace Attr

def Valid : Attr → Prop
  | .enabled id => id.toNat < noOfInterruptsImplemented
  | .pending id => id.toNat < noOfInterruptsImplemented
  | .trigger id => id.toNat < noOfInterruptsImplemented
  | .setting s => s.Valid

def field : Attr → Field
  | .enabled id => ⟨.icdiser (id / 32#32), id.toNat % 32, 1⟩
  | .pending id => ⟨.icdispr (id / 32#32), id.toNat % 32, 1⟩
  | .trigger id => ⟨.icdicfr (id / 16#32), id.toNat % 16 * 2, 2⟩
  | .setting s => s.field

def number (a : Attr) (v : Word) : Nat := (v.extractLsb' a.field.first a.field.width).toNat

def entry (d : Distributor) (a : Attr) : Nat := a.number (d.reg a.field.reg)

end Attr

/-- The entry that a call makes in the table. Interrupts below 32 belong to the CPU. -/
def DriverCall.sets : DriverCall → Attr → Option Nat
  | .distributorInit, .enabled _ => some 0
  | .distributorInit, .pending id => if 32 ≤ id.toNat then some 0 else none
  | .distributorInit, .trigger id => if 32 ≤ id.toNat ∧ id.toNat < 64 then some 1 else none
  | .distributorInit, .setting (.priority id) => if 32 ≤ id.toNat then some 0 else none
  | .distributorInit, .setting (.target _ _) => some 0
  | .interfaceInit, .pending id => if id.toNat < 32 then some 0 else none
  | .interfaceInit, .trigger id => if id.toNat < 32 then some 2 else none
  | .interfaceInit, .setting (.priority id) => if id.toNat < 32 then some 0 else none
  | .securityConfigall, .setting (.security id) => if 32 ≤ id.toNat then some 1 else none
  | .enable interrupt on, .enabled id =>
    if interrupt = id then some (if on ≠ 0#32 then 1 else 0) else none
  | .config c, .setting s => writes c s
  | _, _ => none

def interfaceWrites : List (Reg × Word) :=
  [(.icdicpr 0, 0xFFFFFFFF)] ++ eachOf .icdipr 0 8 0 ++ [(.icdicfr 0, 0xAAAAAAAA),
    (.icdicfr 1, 0xAAAAAAAA)]

def configallWrites : List (Reg × Word) := eachOf .icdisr 1 3 0xFFFFFFFF

private theorem interruptInterfaceRegisters_eq (d : Distributor) :
    interruptInterfaceRegisters d = writeAll d interfaceWrites := by
  simp only [interruptInterfaceRegisters, writeEach_eq, interfaceWrites, writeAll_append]
  rfl

private theorem interruptSecurityConfigall_eq (d : Distributor) :
    interruptSecurityConfigall d = writeAll d configallWrites :=
  writeEach_eq d .icdisr 1 3 0xFFFFFFFF

private theorem interfaceWrites_fixing : ∀ w ∈ interfaceWrites, Fixing w := by
  intro w mem
  simp only [interfaceWrites, List.mem_append, List.mem_cons, List.not_mem_nil, or_false] at mem
  rcases mem with (rfl | mem) | rfl | rfl
  · exact fun old => BitVec.and_zero
  · exact eachOf_fixing (fun _ _ => rfl) w mem
  · exact fun _ => rfl
  · exact fun _ => rfl

private theorem configallWrites_fixing : ∀ w ∈ configallWrites, Fixing w :=
  eachOf_fixing fun _ _ => rfl

private theorem writeAll_reg {ws : List (Reg × Word)} (fixing : ∀ w ∈ ws, Fixing w)
    (d : Distributor) (q : Reg) : (writeAll d ws).reg q = (lastWrite fixes ws q).getD (d.reg q) :=
  view_run (fun w mem => overwrites_of_fixing (fixing w mem)) d q

private theorem writeAll_entry {ws : List (Reg × Word)} (fixing : ∀ w ∈ ws, Fixing w)
    (d : Distributor) (a : Attr) : a.entry (writeAll d ws) =
      ((lastWrite fixes ws a.field.reg).map a.number).getD (a.entry d) := by
  rw [Attr.entry, writeAll_reg fixing]
  cases lastWrite fixes ws a.field.reg <;> rfl

/-- The registers `lo` to `hi` of a family, `n` interrupts to a register, are fixed by a list of
writes, and the others are left alone. -/
structure Fixed (ws : List (Reg × Word)) (family : Word → Reg) (n lo hi : Nat) (v : Word) :
    Prop where
  divides : n ∣ 96
  last : ∀ i < 96 / n, lastWrite fixes ws (family (BitVec.ofNat 32 i)) =
    if lo ≤ i ∧ i < hi then some v else none

theorem Fixed.map_number {ws : List (Reg × Word)} {family : Word → Reg} {n lo hi : Nat} {v : Word}
    (fixed : Fixed ws family n lo hi v) {id : Word} (small : id.toNat < 96) {a : Attr}
    (reg : a.field.reg = family (id / BitVec.ofNat 32 n)) :
    (lastWrite fixes ws a.field.reg).map a.number =
      if lo * n ≤ id.toNat ∧ id.toNat < hi * n then some (a.number v) else none := by
  have pos : 0 < n := Nat.pos_of_dvd_of_pos fixed.divides (by omega)
  have below : n ≤ 96 := Nat.le_of_dvd (by omega) fixed.divides
  have word : id / BitVec.ofNat 32 n = BitVec.ofNat 32 (id.toNat / n) := by
    apply BitVec.eq_of_toNat_eq
    have less := Nat.div_le_self id.toNat n
    rw [BitVec.toNat_udiv, BitVec.toNat_ofNat, BitVec.toNat_ofNat, Nat.mod_eq_of_lt (by omega),
      Nat.mod_eq_of_lt (by omega)]
  have inside : id.toNat / n < 96 / n := Nat.div_lt_div_of_lt_of_dvd fixed.divides small
  rw [reg, word, fixed.last _ inside]
  simp only [Nat.le_div_iff_mul_le pos, Nat.div_lt_iff_lt_mul pos]
  split_ifs <;> rfl

private theorem number_zero (a : Attr) : a.number 0#32 = 0 := by
  rw [Attr.number, BitVec.extractLsb'_zero, BitVec.toNat_zero]

private theorem number_security (id : Word) : (Attr.setting (.security id)).number 0xFFFFFFFF#32 =
    1 := by
  have ones : ∀ i < 32, ((0xFFFFFFFF#32).extractLsb' i 1).toNat = 1 := by decide
  exact ones (id.toNat % 32) (Nat.mod_lt _ (by omega))

private theorem number_trigger (id : Word) : (Attr.trigger id).number 0x55555555#32 = 1 ∧
    (Attr.trigger id).number 0xAAAAAAAA#32 = 2 := by
  have fields : ∀ i < 16, ((0x55555555#32).extractLsb' (i * 2) 2).toNat = 1 ∧
      ((0xAAAAAAAA#32).extractLsb' (i * 2) 2).toNat = 2 := by decide
  exact fields (id.toNat % 16) (Nat.mod_lt _ (by omega))

private theorem distributorInit_sets {a : Attr} (valid : a.Valid) :
    (lastWrite fixes initWrites a.field.reg).map a.number = DriverCall.distributorInit.sets a := by
  cases a with
  | enabled id =>
    have small : id.toNat < 96 := valid
    have fixed : Fixed initWrites .icdiser 32 0 3 0#32 := ⟨by decide, by decide⟩
    rw [fixed.map_number small rfl, number_zero, if_pos (by omega)]
    rfl
  | pending id =>
    have small : id.toNat < 96 := valid
    have fixed : Fixed initWrites .icdispr 32 1 3 0#32 := ⟨by decide, by decide⟩
    rw [fixed.map_number small rfl, number_zero]
    exact if_congr (by omega) rfl rfl
  | trigger id =>
    have small : id.toNat < 96 := valid
    have fixed : Fixed initWrites .icdicfr 16 2 4 0x55555555#32 := ⟨by decide, by decide⟩
    rw [fixed.map_number small rfl, (number_trigger id).1]
    exact if_congr (by omega) rfl rfl
  | setting s =>
    cases s with
    | priority id =>
      have small : id.toNat < 96 := valid
      have fixed : Fixed initWrites .icdipr 4 8 24 0#32 := ⟨by decide, by decide⟩
      rw [fixed.map_number small rfl, number_zero]
      exact if_congr (by omega) rfl rfl
    | target id cpu =>
      have small : id.toNat < 96 := valid.1
      have fixed : Fixed initWrites .icdiptr 4 0 24 0#32 := ⟨by decide, by decide⟩
      rw [fixed.map_number small rfl, number_zero, if_pos (by omega)]
      rfl
    | security id =>
      have small : id.toNat < 96 := valid
      have fixed : Fixed initWrites .icdisr 32 0 0 0#32 := ⟨by decide, by decide⟩
      rw [fixed.map_number small rfl, if_neg (by omega)]
      rfl

private theorem interfaceInit_sets {a : Attr} (valid : a.Valid) :
    (lastWrite fixes interfaceWrites a.field.reg).map a.number =
      DriverCall.interfaceInit.sets a := by
  cases a with
  | enabled id =>
    have small : id.toNat < 96 := valid
    have fixed : Fixed interfaceWrites .icdiser 32 0 0 0#32 := ⟨by decide, by decide⟩
    rw [fixed.map_number small rfl, if_neg (by omega)]
    rfl
  | pending id =>
    have small : id.toNat < 96 := valid
    have fixed : Fixed interfaceWrites .icdispr 32 0 1 0#32 := ⟨by decide, by decide⟩
    rw [fixed.map_number small rfl, number_zero]
    exact if_congr (by omega) rfl rfl
  | trigger id =>
    have small : id.toNat < 96 := valid
    have fixed : Fixed interfaceWrites .icdicfr 16 0 2 0xAAAAAAAA#32 := ⟨by decide, by decide⟩
    rw [fixed.map_number small rfl, (number_trigger id).2]
    exact if_congr (by omega) rfl rfl
  | setting s =>
    cases s with
    | priority id =>
      have small : id.toNat < 96 := valid
      have fixed : Fixed interfaceWrites .icdipr 4 0 8 0#32 := ⟨by decide, by decide⟩
      rw [fixed.map_number small rfl, number_zero]
      exact if_congr (by omega) rfl rfl
    | target id cpu =>
      have small : id.toNat < 96 := valid.1
      have fixed : Fixed interfaceWrites .icdiptr 4 0 0 0#32 := ⟨by decide, by decide⟩
      rw [fixed.map_number small rfl, if_neg (by omega)]
      rfl
    | security id =>
      have small : id.toNat < 96 := valid
      have fixed : Fixed interfaceWrites .icdisr 32 0 0 0#32 := ⟨by decide, by decide⟩
      rw [fixed.map_number small rfl, if_neg (by omega)]
      rfl

private theorem securityConfigall_sets {a : Attr} (valid : a.Valid) :
    (lastWrite fixes configallWrites a.field.reg).map a.number =
      DriverCall.securityConfigall.sets a := by
  have others (q : Reg) (other : ∀ x, q ≠ .icdisr x) :
      lastWrite fixes configallWrites q = none := by
    apply lastWrite_eq_none
    intro w mem
    obtain ⟨i, -, rfl⟩ := List.mem_map.mp mem
    exact if_neg (other _)
  cases a with
  | setting s =>
    cases s with
    | security id =>
      have small : id.toNat < 96 := valid
      have fixed : Fixed configallWrites .icdisr 32 1 3 0xFFFFFFFF#32 := ⟨by decide, by decide⟩
      rw [fixed.map_number small rfl, number_security]
      exact if_congr (by omega) rfl rfl
    | priority id => exact congrArg _ (others (.icdipr _) (by simp))
    | target id cpu => exact congrArg _ (others (.icdiptr _) (by simp))
  | enabled id => exact congrArg _ (others (.icdiser _) (by simp))
  | pending id => exact congrArg _ (others (.icdispr _) (by simp))
  | trigger id => exact congrArg _ (others (.icdicfr _) (by simp))

private theorem id_eq {id id' n : Word} (word : id / n = id' / n)
    (place : id.toNat % n.toNat = id'.toNat % n.toNat) : id = id' := by
  have quotient := congrArg BitVec.toNat word
  rw [BitVec.toNat_udiv, BitVec.toNat_udiv] at quotient
  apply BitVec.eq_of_toNat_eq
  rw [← Nat.div_add_mod id.toNat n.toNat, quotient, place, Nat.div_add_mod]

private theorem attr_apart {a b : Attr} (validA : a.Valid) (validB : b.Valid) (different : a ≠ b)
    {r : Reg} {i : Nat} (inA : a.field.Contains r i) : ¬b.field.Contains r i := by
  intro inB
  by_cases settings : ∃ s t, a = .setting s ∧ b = .setting t
  · obtain ⟨s, t, rfl, rfl⟩ := settings
    exact field_apart validA validB (fun e => different (congrArg _ e)) inA inB
  · obtain ⟨rfl, lowA, highA⟩ := inA
    obtain ⟨same, lowB, highB⟩ := inB
    apply different
    cases a <;> cases b
    case enabled.enabled id id' =>
      simp only [Attr.field, Reg.icdiser.injEq] at same lowA highA lowB highB
      rw [id_eq (n := 32#32) same (show id.toNat % 32 = id'.toNat % 32 by omega)]
    case pending.pending id id' =>
      simp only [Attr.field, Reg.icdispr.injEq] at same lowA highA lowB highB
      rw [id_eq (n := 32#32) same (show id.toNat % 32 = id'.toNat % 32 by omega)]
    case trigger.trigger id id' =>
      simp only [Attr.field, Reg.icdicfr.injEq] at same lowA highA lowB highB
      rw [id_eq (n := 16#32) same (show id.toNat % 16 = id'.toNat % 16 by omega)]
    case setting.setting s t => exact absurd ⟨s, t, rfl, rfl⟩ settings
    case enabled.setting id t => cases t <;> cases same
    case pending.setting id t => cases t <;> cases same
    case trigger.setting id t => cases t <;> cases same
    case setting.enabled s id => cases s <;> cases same
    case setting.pending s id => cases s <;> cases same
    case setting.trigger s id => cases s <;> cases same
    all_goals cases same

/-- A call that writes `n` to the field of `a`. -/
def Writes (a : Attr) (n : Nat) (d d' : Distributor) : Prop :=
  ∀ r i, (d'.reg r).getLsbD i =
    if a.field.Contains r i then n.testBit (i - a.field.first) else (d.reg r).getLsbD i

theorem Writes.entry {a : Attr} {n : Nat} {d d' : Distributor} (w : Writes a n d d')
    (small : n < 2 ^ a.field.width) (validA : a.Valid) {b : Attr} (validB : b.Valid) :
    b.entry d' = if a = b then n else b.entry d := by
  have inside (i : Nat) (less : i < b.field.width) :
      b.field.Contains b.field.reg (b.field.first + i) :=
    ⟨rfl, Nat.le_add_right _ _, Nat.add_lt_add_left less _⟩
  split_ifs with own
  · subst own
    have bits : (d'.reg a.field.reg).extractLsb' a.field.first a.field.width =
        BitVec.ofNat _ n := by
      apply BitVec.eq_of_getLsbD_eq
      intro i less
      rw [BitVec.getLsbD_extractLsb', w, if_pos (inside i less), BitVec.getLsbD_ofNat,
        Nat.add_sub_cancel_left]
    rw [Attr.entry, Attr.number, bits, BitVec.toNat_ofNat, Nat.mod_eq_of_lt small]
  · unfold Attr.entry Attr.number
    congr 1
    apply BitVec.eq_of_getLsbD_eq
    intro i less
    have outside := attr_apart validB validA (Ne.symm own) (inside i less)
    rw [BitVec.getLsbD_extractLsb', BitVec.getLsbD_extractLsb', w, if_neg outside]

private theorem config_writes {c : Call} (valid : c.Valid) (d : Distributor) :
    Writes (.setting c.setting) c.sets d (call d c).2 :=
  fun r i => call_getLsbD valid d r i

private theorem enable_writes (interrupt on : Word) (d : Distributor) :
    Writes (.enabled interrupt) (if on ≠ 0#32 then 1 else 0) d
      (interruptEnable interrupt on d) := by
  intro r i
  have bit : (interrupt % 32#32).toNat = interrupt.toNat % 32 := BitVec.toNat_umod
  have setClear := getLsbD_setClear d.reg (.icdiser (interrupt / 32#32)) (on ≠ 0#32)
    (interrupt.toNat % 32) (by omega) r i
  have written : (interruptEnable interrupt on d).reg =
      Function.update d.reg (.icdiser (interrupt / 32#32))
        (if on ≠ 0#32 then d.reg (.icdiser (interrupt / 32#32)) ||| 1#32 <<< (interrupt.toNat % 32)
          else d.reg (.icdiser (interrupt / 32#32)) &&& ~~~(1#32 <<< (interrupt.toNat % 32))) := by
    unfold interruptEnable
    split_ifs <;> rw [← bit] <;> rfl
  rw [written]
  exact setClear

abbrev Known := {d : Distributor // Identified d}

private theorem identified_of_reg {d d' : Distributor} (identified : Identified d)
    (same : ∀ id ∈ legacyIdentification, d'.reg id.1 = d.reg id.1) : Identified d' :=
  fun id mem => (same id mem).trans (identified id mem)

def Identifies : Reg → Prop
  | .icpidr47 _ => True
  | .icpidr03 _ => True
  | .iccidr _ => True
  | _ => False

private theorem legacy_identifies : ∀ id ∈ legacyIdentification, Identifies id.1 := by
  simp [legacyIdentification, Identifies]

private theorem write_keeps {r q : Reg} (other : ¬Identifies r.storage) (known : Identifies q)
    (d : Distributor) (v : Word) : (d.write r v).reg q = d.reg q :=
  Function.update_of_ne (fun e => other (by rwa [← e])) ..

private theorem identified_run {d : Distributor} (identified : Identified d) (c : DriverCall) :
    Identified (c.run d) := by
  refine identified_of_reg identified fun id mem => ?_
  cases c with
  | distributorInit =>
    have never : ∀ id ∈ legacyIdentification, lastWrite fixes initWrites id.1 = none := by decide
    rw [DriverCall.run, interruptDistributorInit_eq identified, init_reg, never id mem]
    rfl
  | interfaceInit =>
    have never : ∀ id ∈ legacyIdentification, lastWrite fixes interfaceWrites id.1 = none := by
      decide
    rw [DriverCall.run, interruptInterfaceRegisters_eq, writeAll_reg interfaceWrites_fixing,
      never id mem]
    rfl
  | securityConfigall =>
    have never : ∀ id ∈ legacyIdentification, lastWrite fixes configallWrites id.1 = none := by
      decide
    rw [DriverCall.run, interruptSecurityConfigall_eq, writeAll_reg configallWrites_fixing,
      never id mem]
    rfl
  | enable interrupt on =>
    have identifies := legacy_identifies id mem
    rw [DriverCall.run, interruptEnable]
    split_ifs
    · exact write_keeps (r := .icdiser _) not_false identifies d _
    · exact write_keeps (r := .icdicer _) not_false identifies d _
  | config c =>
    have identifies := legacy_identifies id mem
    cases c with
    | prioritySet interrupt priority => exact write_keeps (r := .icdipr _) not_false identifies d _
    | targetSet interrupt cpu set => exact write_keeps (r := .icdiptr _) not_false identifies d _
    | securityConfig interrupt security =>
      exact write_keeps (r := .icdisr _) not_false identifies d _

def DriverCall.step (d : Known) (c : DriverCall) : Known := ⟨c.run d, identified_run d.2 c⟩

def afterCalls (d : Known) (cs : List DriverCall) : Known := cs.foldl DriverCall.step d

private theorem sets_overwrites {c : DriverCall} (valid : c.Valid) :
    Overwrites (fun (d : Known) (a : {a : Attr // a.Valid}) => a.1.entry d) DriverCall.step
      (fun c a => c.sets a) c := by
  rintro d ⟨a, validA⟩
  change a.entry (c.run d) = (c.sets a).getD (a.entry d)
  cases c with
  | distributorInit =>
    rw [DriverCall.run, interruptDistributorInit_eq d.2, ← distributorInit_sets validA]
    exact writeAll_entry initWrites_fixing d a
  | interfaceInit =>
    rw [DriverCall.run, interruptInterfaceRegisters_eq, ← interfaceInit_sets validA]
    exact writeAll_entry interfaceWrites_fixing d a
  | securityConfigall =>
    rw [DriverCall.run, interruptSecurityConfigall_eq, ← securityConfigall_sets validA]
    exact writeAll_entry configallWrites_fixing d a
  | enable interrupt on =>
    have small : (if on ≠ 0#32 then 1 else 0) < 2 := by split_ifs <;> decide
    rw [DriverCall.run, (enable_writes interrupt on d).entry small valid validA]
    cases a with
    | enabled id =>
      by_cases same : interrupt = id
      · rw [DriverCall.sets, if_pos same, if_pos (congrArg _ same)]
        rfl
      · rw [DriverCall.sets, if_neg same, if_neg (by simpa using same)]
        rfl
    | pending id => exact if_neg (by simp)
    | trigger id => exact if_neg (by simp)
    | setting s => exact if_neg (by simp)
  | config c =>
    rw [DriverCall.run, (config_writes valid d).entry (sets_lt c) valid validA]
    cases a with
    | setting s =>
      by_cases same : c.setting = s
      · rw [DriverCall.sets, writes, if_pos same, if_pos (congrArg _ same)]
        rfl
      · rw [DriverCall.sets, writes, if_neg same, if_neg (by simpa using same)]
        rfl
    | enabled id => exact if_neg (by simp)
    | pending id => exact if_neg (by simp)
    | trigger id => exact if_neg (by simp)

theorem entry_after (d : Known) {cs : List DriverCall} (valid : ∀ c ∈ cs, c.Valid) {a : Attr}
    (validA : a.Valid) :
    a.entry (afterCalls d cs).1 = (lastWrite DriverCall.sets cs a).getD (a.entry d) :=
  view_run (fun c mem => sets_overwrites (valid c mem)) d ⟨a, validA⟩

/-- The driver keeps a table: after any calls an entry is what they set it to last, and the next
call that sets a priority returns the one in force. -/
theorem driver_keeps_table (d : Known) (cs : List DriverCall) (valid : ∀ c ∈ cs, c.Valid) :
    (∀ a : Attr, a.Valid → a.entry (afterCalls d cs).1 =
      (lastWrite DriverCall.sets cs a).getD (a.entry d)) ∧
    ∀ interrupt priority : Word, interrupt.toNat < noOfInterruptsImplemented →
      (interruptPrioritySet interrupt priority (afterCalls d cs)).1.toNat =
        (lastWrite DriverCall.sets cs (.setting (.priority interrupt))).getD
          ((Attr.setting (.priority interrupt)).entry d) := by
  refine ⟨fun a validA => entry_after d valid validA, fun interrupt priority small => ?_⟩
  rw [prioritySet_returns]
  exact entry_after d valid (a := .setting (.priority interrupt)) small

/-- A controller whose interrupt 33 is set between two initialisations. -/
theorem driver_keeps_table_reset : ∃ d : Known, ∀ priority,
    (interruptPrioritySet 33#32 priority (afterCalls d
      [.distributorInit, .config (.prioritySet 33 9), .interfaceInit])).1.toNat = 9 := by
  have identified : Identified resetDistributor := by decide
  obtain ⟨-, returned⟩ := driver_keeps_table ⟨resetDistributor, identified⟩
    [.distributorInit, .config (.prioritySet 33 9), .interfaceInit] (by decide)
  exact ⟨_, fun priority => returned 33#32 priority (by decide)⟩

end LTZVisor.Drivers.GicTable
