/- LTZVisor/Arm/Sections
   kind: library
   digest: Translation by a first-level table of sections, and tables that map each section to
     itself. -/

import LTZVisor.Lib.Block

set_option autoImplicit false
set_option relaxedAutoImplicit false

namespace LTZVisor.Arm.Sections

open LTZVisor.Lib.Memory LTZVisor.Lib.Block

/-- The memory attributes of a section: shareable, type extension, access, domain, cacheable and
bufferable. -/
structure Attributes where
  s : Bool
  tex : BitVec 3
  ap : BitVec 2
  domain : BitVec 4
  c : Bool
  b : Bool
  deriving DecidableEq

/-- What becomes of an access: a fault, an access to `pa`, or the use of a descriptor that is not
that of a section. -/
inductive Translation
  | fault
  | to (pa : Addr) (attributes : Attributes)
  | other
  deriving DecidableEq

def attributesOf (w : Word) : Attributes where
  s := w.getLsbD 16
  tex := w.extractLsb' 12 3
  ap := w.extractLsb' 10 2
  domain := w.extractLsb' 5 4
  c := w.getLsbD 3
  b := w.getLsbD 2

/-- The section of an address. -/
def sectionOf (va : Addr) : Nat := va.toNat / 2 ^ 20

def use (w : Word) (va : Addr) : Translation :=
  if w.extractLsb' 0 2 = 0#2 then .fault
  else if w.extractLsb' 0 2 = 2#2 ∧ w.getLsbD 18 = false then
    .to ((w &&& 0xFFF00000#32) ||| (va &&& 0x000FFFFF#32)) (attributesOf w)
  else .other

def walk (mem : Mem) (ttbr0 : Word) (va : Addr) : Translation :=
  use (read32 mem ((ttbr0 &&& 0xFFFFC000#32) + BitVec.ofNat 32 (4 * sectionOf va))) va

/-- The descriptor that gives the section of `va` the low bits of `attrib`, and maps it to itself. -/
def identity (va : Addr) (attrib : Word) : Word := (va &&& 0xFFF00000#32) ||| attrib

/-- What such a descriptor means for `va`. -/
def itself (attrib : Word) (va : Addr) : Translation :=
  if attrib.extractLsb' 0 2 = 0#2 then .fault
  else if attrib.extractLsb' 0 2 = 2#2 ∧ attrib.getLsbD 18 = false then .to va (attributesOf attrib)
  else .other

private theorem high_getLsbD (i : Nat) : (0xFFF00000#32).getLsbD i =
    (decide (20 ≤ i) && decide (i < 32)) := by
  have all : ∀ i < 32, (0xFFF00000#32).getLsbD i = (decide (20 ≤ i) && decide (i < 32)) := by decide
  by_cases less : i < 32
  · exact all i less
  · rw [BitVec.getLsbD_of_ge _ i (by omega)]
    simp [less]

private theorem low_getLsbD (i : Nat) : (0x000FFFFF#32).getLsbD i = decide (i < 20) := by
  have all : ∀ i < 32, (0x000FFFFF#32).getLsbD i = decide (i < 20) := by decide
  by_cases less : i < 32
  · exact all i less
  · rw [BitVec.getLsbD_of_ge _ i (by omega)]
    simp
    omega

variable {attrib : Word}

private theorem identity_getLsbD (va : Addr) {i : Nat} (low : i < 20) :
    (identity va attrib).getLsbD i = attrib.getLsbD i := by
  simp [identity, high_getLsbD, low]

private theorem identity_extract (va : Addr) {i n : Nat} (low : i + n ≤ 20) :
    (identity va attrib).extractLsb' i n = attrib.extractLsb' i n := by
  apply BitVec.eq_of_getLsbD_eq
  intro j less
  rw [BitVec.getLsbD_extractLsb', BitVec.getLsbD_extractLsb', identity_getLsbD va (by omega)]

private theorem identity_base (small : attrib.toNat < 2 ^ 20) (va : Addr) :
    (identity va attrib &&& 0xFFF00000#32) ||| (va &&& 0x000FFFFF#32) = va := by
  apply BitVec.eq_of_getLsbD_eq
  intro i less
  simp only [identity, BitVec.getLsbD_or, BitVec.getLsbD_and, high_getLsbD, low_getLsbD]
  by_cases low : i < 20
  · simp [low]
  · have none : attrib.getLsbD i = false :=
      Nat.testBit_lt_two_pow (small.trans_le (Nat.pow_le_pow_right (by omega) (by omega)))
    rw [none]
    simp [low, less, Nat.le_of_not_lt low]

private theorem use_identity (small : attrib.toNat < 2 ^ 20) (va : Addr) :
    use (identity va attrib) va = itself attrib va := by
  have attributes : attributesOf (identity va attrib) = attributesOf attrib := by
    simp only [attributesOf, identity_extract va (show 12 + 3 ≤ 20 by omega),
      identity_extract va (show 10 + 2 ≤ 20 by omega),
      identity_extract va (show 5 + 4 ≤ 20 by omega), identity_getLsbD va (show 16 < 20 by omega),
      identity_getLsbD va (show 3 < 20 by omega), identity_getLsbD va (show 2 < 20 by omega)]
  rw [use, itself, identity_extract va (by omega), identity_getLsbD va (by omega), attributes,
    identity_base small]

def start (i : Nat) : Addr := BitVec.ofNat 32 (i * 2 ^ 20)

theorem sectionOf_lt (va : Addr) : sectionOf va < 4096 := by
  have bound := va.isLt
  unfold sectionOf
  omega

theorem sectionOf_start {i : Nat} (less : i < 4096) : sectionOf (start i) = i := by
  rw [sectionOf, start, BitVec.toNat_ofNat]
  omega

private theorem and_high (va : Addr) : va &&& 0xFFF00000#32 = start (sectionOf va) := by
  have shifted : start (sectionOf va) = va >>> 20 <<< 20 := by
    apply BitVec.eq_of_toNat_eq
    have bound := va.isLt
    rw [start, sectionOf, BitVec.toNat_ofNat, BitVec.toNat_shiftLeft, BitVec.toNat_ushiftRight,
      Nat.shiftLeft_eq, Nat.shiftRight_eq_div_pow]
  rw [shifted]
  apply BitVec.eq_of_getLsbD_eq
  intro i less
  rw [BitVec.getLsbD_and, high_getLsbD, BitVec.getLsbD_shiftLeft, BitVec.getLsbD_ushiftRight]
  by_cases low : i < 20
  · simp [low]
  · have place : 20 + (i - 20) = i := by omega
    simp [low, less, Nat.le_of_not_lt low, place]

private theorem identity_congr {va va' : Addr} (same : sectionOf va = sectionOf va')
    (attrib : Word) : identity va attrib = identity va' attrib := by
  rw [identity, identity, and_high, and_high, same]

theorem start_add (small : attrib.toNat < 2 ^ 20) {i : Nat} (less : i < 4096) :
    start i + attrib = identity (start i) attrib := by
  have disjoint : start i &&& attrib = 0#32 := by
    have high := and_high (start i)
    rw [sectionOf_start less] at high
    apply BitVec.eq_of_getLsbD_eq
    intro j bound
    rw [← high, BitVec.getLsbD_and, BitVec.getLsbD_and, high_getLsbD, BitVec.getLsbD_zero]
    by_cases low : j < 20
    · simp [low]
    · have none : attrib.getLsbD j = false :=
        Nat.testBit_lt_two_pow (small.trans_le (Nat.pow_le_pow_right (by omega) (by omega)))
      rw [none, Bool.and_false]
  rw [BitVec.add_eq_or_of_and_eq_zero _ _ disjoint, identity, and_high, sectionOf_start less]

/-- The table at `base` maps each section to itself, with attributes from `attr`. -/
structure Holds (mem : Mem) (base : Addr) (attr : Nat → Word) : Prop where
  small : ∀ i, (attr i).toNat < 2 ^ 20
  entry : ∀ i < 4096, read32 mem (base + BitVec.ofNat 32 (4 * i)) = identity (start i) (attr i)

theorem Holds.walk {mem : Mem} {base flags : Addr} {attr : Nat → Word} (holds : Holds mem base attr)
    (aligned : base &&& 0xFFFFC000#32 = base) (low : flags &&& 0xFFFFC000#32 = 0#32) (va : Addr) :
    walk mem (base ||| flags) va = itself (attr (sectionOf va)) va := by
  have table : (base ||| flags) &&& 0xFFFFC000#32 = base := by
    rw [BitVec.and_comm, BitVec.and_or_distrib_left, BitVec.and_comm, aligned, BitVec.and_comm, low,
      BitVec.or_zero]
  have less := sectionOf_lt va
  have same : identity (start (sectionOf va)) (attr (sectionOf va)) =
      identity va (attr (sectionOf va)) := identity_congr (sectionOf_start less) _
  rw [Sections.walk, table, holds.entry _ less, same, use_identity (holds.small _)]

theorem Holds.store {mem : Mem} {base : Addr} {attr : Nat → Word} (holds : Holds mem base attr)
    (va : Addr) (small : attrib.toNat < 2 ^ 20) :
    Holds (write32 mem (base + BitVec.ofNat 32 (4 * sectionOf va)) (identity va attrib)) base
      (Function.update attr (sectionOf va) attrib) := by
  have here := sectionOf_lt va
  constructor
  case small =>
    intro i
    by_cases same : i = sectionOf va
    · rwa [same, Function.update_self]
    · rw [Function.update_of_ne same]
      exact holds.small i
  case entry =>
    intro i less
    rw [read32_write32_index mem base (by omega) (by omega)]
    split_ifs with same
    · rw [same, Function.update_self]
      exact identity_congr (sectionOf_start here).symm attrib
    · rw [Function.update_of_ne same, holds.entry i less]

end LTZVisor.Arm.Sections
