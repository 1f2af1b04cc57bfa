/- LTZVisor/NsGuest/TranslationTable
   kind: property
   digest: The translation table of the non-secure guest, as assembled, as its boot rewrites it and
     as its library changes it. -/

import LTZVisor.Arm.Cond
import LTZVisor.Arm.Sections
import LTZVisor.Lib.LastWrite
import LTZVisor.Lib.Loop
import LTZVisor.Lib.Runs

set_option autoImplicit false
set_option relaxedAutoImplicit false

namespace LTZVisor.NsGuest.TranslationTable

open LTZVisor.Lib.Memory LTZVisor.Lib.LastWrite LTZVisor.Lib.Loop LTZVisor.Lib.Runs LTZVisor.Arm
open LTZVisor.Arm.Instr LTZVisor.Arm.Sections

/-- A run of entries: `.rept count`, `.word SECT + attr`, `.set SECT, SECT+0x100000`. -/
structure Rept where
  count : Nat
  attr : Word

def assemble (sect : Nat) : List Rept → List Word
  | [] => []
  | r :: rs => ((List.range r.count).map fun i => start (sect + i) + r.attr) ++
      assemble (sect + r.count) rs

/-- `MMUTable`, with `DDR_REG` sections of DDR behind the first one. -/
def mmuTable (ddrReg : Nat) : List Rept := [
  ⟨1, 0x15de6#32⟩,
  ⟨ddrReg, 0x15de6#32⟩,
  ⟨0x3FF - ddrReg, 0x0#32⟩,
  ⟨0x0400, 0xc02#32⟩,
  ⟨0x0400, 0xc02#32⟩,
  ⟨0x0200, 0x0#32⟩,
  ⟨0x003, 0xc06#32⟩,
  ⟨0x0D, 0x0#32⟩,
  ⟨0x0010, 0xc06#32⟩,
  ⟨0x0020, 0xc06#32⟩,
  ⟨0x0020, 0xc0e#32⟩,
  ⟨0x0120, 0x0#32⟩,
  ⟨0x0010, 0xc06#32⟩,
  ⟨0x0030, 0x0#32⟩,
  ⟨0x0020, 0xc0a#32⟩,
  ⟨0x001F, 0x0#32⟩,
  ⟨1, 0x4c0e#32⟩]

-- What its comments say: the last address of each range, and its attributes.

def ddr : Attributes := ⟨true, 0b101#3, 0b11#2, 0b1111#4, false, true⟩
def fpgaSlave : Attributes := ⟨false, 0b000#3, 0b11#2, 0b0#4, false, false⟩
def mappedDevice : Attributes := ⟨false, 0b000#3, 0b11#2, 0b0#4, false, true⟩
def sram : Attributes := ⟨false, 0b000#3, 0b11#2, 0b0#4, true, true⟩
def linearQspi : Attributes := ⟨false, 0b000#3, 0b11#2, 0b0#4, true, false⟩
def ocm : Attributes := ⟨false, 0b100#3, 0b11#2, 0b0#4, true, true⟩

def documented (ddrReg : Nat) : List (Nat × Option Attributes) := [
  (0x000fffff, some ddr),
  (0x000fffff + ddrReg * 0x100000, some ddr),
  (0x3fffffff, none),
  (0x7fffffff, some fpgaSlave),
  (0xbfffffff, some fpgaSlave),
  (0xdfffffff, none),
  (0xe02fffff, some mappedDevice),
  (0xe0ffffff, none),
  (0xe1ffffff, some mappedDevice),
  (0xe3ffffff, some mappedDevice),
  (0xe5ffffff, some sram),
  (0xf7ffffff, none),
  (0xf8ffffff, some mappedDevice),
  (0xfbffffff, none),
  (0xfdffffff, some linearQspi),
  (0xffefffff, none),
  (0xffffffff, some ocm)]

def rangeOf : List (Nat × Option Attributes) → Addr → Option Attributes
  | [], _ => none
  | (last, a) :: ranges, va => if va.toNat ≤ last then a else rangeOf ranges va

/-- The translation to itself, or the fault, that is meant for an address. -/
def mapped (va : Addr) : Option Attributes → Translation
  | none => .fault
  | some a => .to va a

variable {D : Type}

def shareablePass (m : Machine D) : Turn (Machine D) (Machine D) :=
  let m := str .r2 .r0 m
  let m := add .r0 .r0 0x4#32 m
  let m := add .r2 .r2 0x100000#32 m
  let m := subs .r3 .r3 1#32 m
  if m.cpsr.ge then .again m else .leave m

/-- The instructions before it, with `TblBase`. -/
def shareableEntry (tblBase : Addr) : List (Instr D) :=
  [movImm .r3 0x3ff#32, movImm .r0 tblBase, movImm .r2 0x15de6#32]

def ttbr0 (tblBase : Addr) : Word := tblBase ||| 0x5B#32

/-- The change that `Xil_SetTlbAttributes` makes; the maintenance of the caches is left out. -/
def xilSetTlbAttributes (mmuTable : Addr) (mem : Mem) (call : Addr × Word) : Mem :=
  let (addr, attrib) := call
  let sect := addr / 0x100000#32
  let ptr := mmuTable + 4#32 * sect
  if ptr ≠ 0#32 then write32 mem ptr ((addr &&& 0xFFF00000#32) ||| attrib) else mem

def attrAt : List Rept → Nat → Word
  | [], _ => 0#32
  | r :: rs, i => if i < r.count then r.attr else attrAt rs (i - r.count)

def total (rs : List Rept) : Nat := (rs.map Rept.count).sum

private theorem assemble_getElem? (rs : List Rept) (sect : Nat) {i : Nat} (less : i < total rs) :
    (assemble sect rs)[i]? = some (start (sect + i) + attrAt rs i) := by
  induction rs generalizing sect i with
  | nil => cases less
  | cons r rs ih =>
    have sum : total (r :: rs) = r.count + total rs := List.sum_cons
    rw [assemble, attrAt]
    split_ifs with first
    · rw [List.getElem?_append_left (by simpa using first)]
      simp [first]
    · have later := ih (sect + r.count) (i := i - r.count) (by omega)
      have place : sect + r.count + (i - r.count) = sect + i := by omega
      rw [List.getElem?_append_right (by simpa using first), List.length_map, List.length_range,
        later, place]

private theorem assemble_length (rs : List Rept) (sect : Nat) :
    (assemble sect rs).length = total rs := by
  induction rs generalizing sect with
  | nil => rfl
  | cons r rs ih =>
    rw [assemble, List.length_append, List.length_map, List.length_range, ih]
    exact List.sum_cons.symm

private theorem attrAt_small {rs : List Rept} (small : ∀ r ∈ rs, r.attr.toNat < 2 ^ 20) (i : Nat) :
    (attrAt rs i).toNat < 2 ^ 20 := by
  induction rs generalizing i with
  | nil => exact Nat.two_pow_pos 20
  | cons r rs ih =>
    rw [attrAt]
    split_ifs
    · exact small r (by simp)
    · exact ih (fun r' mem => small r' (List.mem_cons_of_mem _ mem)) _

/-- The assembled words lie in memory from `base` on. -/
def Loaded (mem : Mem) (base : Addr) (rs : List Rept) : Prop :=
  ∀ i w, (assemble 0 rs)[i]? = some w → read32 mem (base + BitVec.ofNat 32 (4 * i)) = w

theorem Loaded.holds {mem : Mem} {base : Addr} {rs : List Rept} (loaded : Loaded mem base rs)
    (whole : total rs = 4096) (small : ∀ r ∈ rs, r.attr.toNat < 2 ^ 20) :
    Holds mem base (attrAt rs) where
  small := attrAt_small small
  entry := by
    intro i less
    have word := assemble_getElem? rs 0 (whole.symm ▸ less)
    rw [loaded i _ word, Nat.zero_add, start_add (attrAt_small small i) less]

/-- The runs from the section `sect` on are the ranges of the comments. -/
def Fits : Nat → List Rept → List (Nat × Option Attributes) → Prop
  | _, [], [] => True
  | sect, r :: rs, (last, a) :: ranges =>
    last + 1 = (sect + r.count) * 2 ^ 20 ∧ (∀ va, itself r.attr va = mapped va a) ∧
      Fits (sect + r.count) rs ranges
  | _, _, _ => False

private theorem itself_attrAt {rs : List Rept} {ranges : List (Nat × Option Attributes)}
    {sect : Nat} (fits : Fits sect rs ranges) {va : Addr} (low : sect ≤ sectionOf va)
    (high : sectionOf va < sect + total rs) :
    itself (attrAt rs (sectionOf va - sect)) va = mapped va (rangeOf ranges va) := by
  induction rs generalizing sect ranges with
  | nil => exact absurd high (by simpa [total] using low)
  | cons r rs ih =>
    cases ranges with
    | nil => exact fits.elim
    | cons range ranges =>
      obtain ⟨ends, meaning, rest⟩ := fits
      have sum : total (r :: rs) = r.count + total rs := List.sum_cons
      have inside : sectionOf va - sect < r.count ↔ va.toNat ≤ range.1 := by
        unfold sectionOf at *
        omega
      rw [attrAt, rangeOf]
      split_ifs with first in_ out
      · exact meaning va
      · exact absurd (inside.mp first) in_
      · exact absurd (inside.mpr out) first
      · have later := ih rest (by omega) (by omega)
        rwa [Nat.sub_sub]

/-- The attributes in a word of the table are those of its comment. -/
private theorem itself_section (attr : Word) (a : Attributes) (kind : attr.extractLsb' 0 2 = 2#2)
    (plain : attr.getLsbD 18 = false) (same : attributesOf attr = a) (va : Addr) :
    itself attr va = mapped va (some a) := by
  have present : attr.extractLsb' 0 2 ≠ 0#2 := by
    rw [kind]
    decide
  rw [itself, if_neg present, if_pos ⟨kind, plain⟩, same]
  rfl

private theorem itself_ddr (va : Addr) : itself 0x15de6#32 va = mapped va (some ddr) :=
  itself_section _ _ (by decide) (by decide) (by decide) va

private theorem mmuTable_fits {ddrReg : Nat} (small : ddrReg ≤ 0x3FF) :
    Fits 0 (mmuTable ddrReg) (documented ddrReg) := by
  have fault (va : Addr) : itself 0x0#32 va = mapped va none := if_pos (by decide)
  have fpga := itself_section 0xc02#32 fpgaSlave (by decide) (by decide) (by decide)
  have device := itself_section 0xc06#32 mappedDevice (by decide) (by decide)
    (by decide)
  have ram := itself_section 0xc0e#32 sram (by decide) (by decide) (by decide)
  have qspi := itself_section 0xc0a#32 linearQspi (by decide) (by decide)
    (by decide)
  have high := itself_section 0x4c0e#32 ocm (by decide) (by decide) (by decide)
  simp only [mmuTable, documented, Fits, itself_ddr, fault, fpga, device, ram, qspi, high,
    implies_true, true_and, and_true]
  omega

private theorem mmuTable_total {ddrReg : Nat} (small : ddrReg ≤ 0x3FF) :
    total (mmuTable ddrReg) = 4096 := by
  simp only [total, mmuTable, List.map_cons, List.map_nil, List.sum_cons, List.sum_nil]
  omega

private theorem mmuTable_small (ddrReg : Nat) : ∀ r ∈ mmuTable ddrReg, r.attr.toNat < 2 ^ 20 := by
  simp [mmuTable]

private theorem table_documented {ddrReg : Nat} (small : ddrReg ≤ 0x3FF) (va : Addr) :
    itself (attrAt (mmuTable ddrReg) (sectionOf va)) va =
      mapped va (rangeOf (documented ddrReg) va) := by
  have less := sectionOf_lt va
  exact itself_attrAt (mmuTable_fits small) (Nat.zero_le _) (by rw [mmuTable_total small]; omega)

section Boot

variable {base : Addr} {attr : Nat → Word}

/-- The attributes when the first `k` sections are shareable DDR. -/
def shared (attr : Nat → Word) (k : Nat) : Nat → Word := fun i =>
  if i < k then 0x15de6#32 else attr i

/-- The first `k` entries have been rewritten. -/
structure Rewritten (base : Addr) (attr : Nat → Word) (k : Nat) (m : Machine D) : Prop where
  table : Holds m.mem base (shared attr k)
  pointer : m.regs .usr .r0 = base + BitVec.ofNat 32 (4 * k)
  word : m.regs .usr .r2 = start k + 0x15de6#32
  left : m.regs .usr .r3 = 0x3ff#32 - BitVec.ofNat 32 k

private theorem shared_succ (attr : Nat → Word) (k : Nat) :
    Function.update (shared attr k) k 0x15de6#32 = shared attr (k + 1) := by
  funext i
  by_cases here : i = k
  · rw [here, Function.update_self]
    exact (if_pos (Nat.lt_succ_self k)).symm
  · rw [Function.update_of_ne here]
    exact if_congr (by omega) rfl rfl

/-- A word stored through r0; all three registers move on. -/
structure Passed (m m' : Machine D) : Prop where
  mem : m'.mem = write32 m.mem (m.regs .usr .r0) (m.regs .usr .r2)
  pointer : m'.regs .usr .r0 = m.regs .usr .r0 + 4#32
  word : m'.regs .usr .r2 = m.regs .usr .r2 + 0x100000#32
  left : m'.regs .usr .r3 = m.regs .usr .r3 - 1#32

private theorem shareablePass_passed (m : Machine D) : ∃ m', Passed m m' ∧
    shareablePass m = if (1#32).sle (m.regs .usr .r3) then .again m' else .leave m' := by
  let m1 := add .r2 .r2 0x100000#32 (add .r0 .r0 0x4#32 (str .r2 .r0 m))
  have counter : m1.reg .r3 = m.regs .usr .r3 := by simp [m1]
  refine ⟨subs .r3 .r3 1#32 m1, ?_, ?_⟩
  · constructor <;> simp [m1]
  · have ge : (subs .r3 .r3 1#32 m1).cpsr.ge = (1#32).sle (m1.reg .r3) := ge_cmp m1 .r3 1#32
    rw [counter] at ge
    rw [← ge]
    rfl

private theorem shareablePass_turn {k : Nat} (less : k < 1024) {m : Machine D}
    (h : Rewritten base attr k m) :
    ∃ m', Rewritten base attr (k + 1) m' ∧
      shareablePass m = if k + 1 < 1024 then .again m' else .leave m' := by
  obtain ⟨m', passed, turn⟩ := shareablePass_passed m
  have small : (0x15de6#32).toNat < 2 ^ 20 := by decide
  refine ⟨m', ?_, ?_⟩
  · constructor
    case table =>
      have stored := h.table.store (start k) small
      rw [sectionOf_start (by omega), shared_succ, ← start_add small (by omega)] at stored
      rw [passed.mem, h.pointer, h.word]
      exact stored
    case pointer =>
      rw [passed.pointer, h.pointer]
      bv_omega
    case word =>
      rw [passed.word, h.word, start, start]
      bv_omega
    case left =>
      rw [passed.left, h.left]
      bv_omega
  · rw [turn, h.left]
    refine if_congr ?_ rfl rfl
    have left : (0x3ff#32 - BitVec.ofNat 32 k).toNat = 1023 - k := by bv_omega
    rw [BitVec.sle_iff_toInt_le, BitVec.toInt_eq_toNat_of_lt (by decide),
      BitVec.toInt_eq_toNat_of_lt (by omega), left]
    change ((1 : Nat) : Int) ≤ _ ↔ _
    omega

private theorem entry_rewritten {m : Machine D} (holds : Holds m.mem base attr) :
    Rewritten base attr 0 (exec (shareableEntry base) m) := by
  constructor
  case table => exact holds
  case pointer => simp [shareableEntry]
  case word => simp [shareableEntry, start]
  case left => simp [shareableEntry]

/-- A pass that is not the last one. -/
def GoesRound (m m' : Machine D) : Prop := shareablePass m = .again m'

private theorem rewritten_preserved :
    Preserves GoesRound fun m : Machine D => ∃ k < 1024, Rewritten base attr k m := by
  rintro m m' ⟨k, less, h⟩ again
  obtain ⟨next, rewritten, turn⟩ := shareablePass_turn less h
  rw [GoesRound, turn] at again
  split at again
  case isTrue more =>
    cases again
    exact ⟨k + 1, more, rewritten⟩
  case isFalse => cases again

/-- The loop comes back with the first gigabyte shareable DDR. -/
private theorem shareable_returns {m : Machine D} (holds : Holds m.mem base attr) :
    ∃ m', Returns shareablePass (exec (shareableEntry base) m) m' ∧
      Holds m'.mem base (shared attr 1024) := by
  apply returns_of_measure (fun m => ∃ k, k < 1024 ∧ Rewritten base attr k m) _
    fun m => (m.regs .usr .r3).toNat
  case start => exact ⟨0, by omega, entry_rewritten holds⟩
  rintro m ⟨k, less, h⟩
  obtain ⟨m', next, turn⟩ := shareablePass_turn less h
  by_cases more : k + 1 < 1024
  · rw [if_pos more] at turn
    refine .inl ⟨m', turn, ⟨k + 1, more, next⟩, ?_⟩
    rw [next.left, h.left]
    bv_omega
  · rw [if_neg more] at turn
    have last : k + 1 = 1024 := by omega
    exact .inr ⟨m', turn, last ▸ next.table⟩

end Boot

/-- The attributes that a call gives a section, if it is the call's own. -/
def covers (call : Addr × Word) (i : Nat) : Option Word :=
  if i = sectionOf call.1 then some call.2 else none

/-- The low bits of a descriptor that is a section's or faults. -/
structure SectionAttrib (attrib : Word) : Prop where
  small : attrib.toNat < 2 ^ 20
  kind : attrib.extractLsb' 0 2 = 0#2 ∨
    attrib.extractLsb' 0 2 = 2#2 ∧ attrib.getLsbD 18 = false

def given (attrib : Word) : Option Attributes :=
  if attrib.extractLsb' 0 2 = 0#2 then none else some (attributesOf attrib)

theorem SectionAttrib.itself {attrib : Word} (ok : SectionAttrib attrib) (va : Addr) :
    itself attrib va = mapped va (given attrib) := by
  unfold given
  split_ifs with absent
  · exact if_pos absent
  · obtain ⟨kind, plain⟩ := ok.kind.resolve_left absent
    exact itself_section attrib _ kind plain rfl va

private theorem xilSetTlbAttributes_eq {base : Addr} (aligned : base &&& 0xFFFFC000#32 = base)
    (placed : base ≠ 0#32) (mem : Mem) (call : Addr × Word) :
    xilSetTlbAttributes base mem call = write32 mem
      (base + BitVec.ofNat 32 (4 * sectionOf call.1)) (identity call.1 call.2) := by
  have place : 4#32 * (call.1 / 0x100000#32) = BitVec.ofNat 32 (4 * sectionOf call.1) := by
    apply BitVec.eq_of_toNat_eq
    have less := sectionOf_lt call.1
    have quotient : (call.1 / 0x100000#32).toNat = sectionOf call.1 := BitVec.toNat_udiv
    rw [BitVec.toNat_mul, quotient, BitVec.toNat_ofNat, BitVec.toNat_ofNat]
  have multiple : base.toNat % 2 ^ 14 = 0 := by
    rw [← aligned, BitVec.toNat_and, Nat.and_mod_two_pow]
    exact Nat.and_zero _
  have notNull : base + BitVec.ofNat 32 (4 * sectionOf call.1) ≠ 0#32 := by
    have less := sectionOf_lt call.1
    have positive : base.toNat ≠ 0 := fun zero => placed (BitVec.eq_of_toNat_eq zero)
    intro null
    bv_omega
  rw [xilSetTlbAttributes, place, if_pos notNull]
  rfl

private theorem calls_hold {base : Addr} (aligned : base &&& 0xFFFFC000#32 = base)
    (placed : base ≠ 0#32)
    {calls : List (Addr × Word)} (small : ∀ c ∈ calls, c.2.toNat < 2 ^ 20) {mem : Mem}
    {attr : Nat → Word} (holds : Holds mem base attr) :
    Holds (calls.foldl (xilSetTlbAttributes base) mem) base
      (fun i => (lastWrite covers calls i).getD (attr i)) := by
  induction calls using List.reverseRecOn with
  | nil => exact holds
  | append_singleton calls c ih =>
    have before := ih fun c' mem => small c' (List.mem_append_left _ mem)
    have stored := before.store c.1 (small c (by simp))
    rw [List.foldl_append, List.foldl_cons, List.foldl_nil, xilSetTlbAttributes_eq aligned placed]
    have attributes : Function.update (fun i => (lastWrite covers calls i).getD (attr i))
        (sectionOf c.1) c.2 = fun i => (lastWrite covers (calls ++ [c]) i).getD (attr i) := by
      funext i
      rw [lastWrite_append_singleton, covers]
      by_cases here : i = sectionOf c.1
      · rw [here, Function.update_self, if_pos rfl]
        rfl
      · rw [Function.update_of_ne here, if_neg here, Option.none_or]
    rw [← attributes]
    exact stored

private theorem covers_mem {calls : List (Addr × Word)} {i : Nat} {attrib : Word}
    (last : lastWrite covers calls i = some attrib) : ∃ c ∈ calls, c.2 = attrib := by
  induction calls using List.reverseRecOn with
  | nil => cases last
  | append_singleton calls c ih =>
    rw [lastWrite_append_singleton, covers] at last
    split_ifs at last with own
    · exact ⟨c, by simp, Option.some_inj.mp last⟩
    · obtain ⟨c', mem, same⟩ := ih last
      exact ⟨c', List.mem_append_left _ mem, same⟩

private theorem shared_walk {ddrReg k : Nat} (size : ddrReg ≤ 0x3FF) (va : Addr) :
    itself (shared (attrAt (mmuTable ddrReg)) k (sectionOf va)) va =
      mapped va (if va.toNat < k * 2 ^ 20 then some ddr else rangeOf (documented ddrReg) va) := by
  have first : sectionOf va < k ↔ va.toNat < k * 2 ^ 20 := by
    unfold sectionOf
    omega
  unfold shared
  by_cases inside : va.toNat < k * 2 ^ 20
  · rw [if_pos (first.mpr inside), itself_ddr, if_pos inside]
  · rw [if_neg (first.not.mpr inside), if_neg inside, table_documented size]

/-- A walk of the table takes no address to another one: as the assembler left it it has the ranges
and the attributes of its comments, before each pass of the loop of the boot its first sections are
shareable DDR, behind the loop the first gigabyte is, and after any calls of the library a section
has the attributes it was given last. -/
theorem guest_maps_itself {base : Addr} (aligned : base &&& 0xFFFFC000#32 = base)
    (placed : base ≠ 0#32) {ddrReg : Nat} (size : ddrReg ≤ 0x3FF) (m : Machine D)
    (loaded : Loaded m.mem base (mmuTable ddrReg)) :
    (∀ va, walk m.mem (ttbr0 base) va = mapped va (rangeOf (documented ddrReg) va)) ∧
    (∀ m', Run GoesRound (exec (shareableEntry base) m) m' → ∃ k < 1024, ∀ va,
      walk m'.mem (ttbr0 base) va = mapped va
        (if va.toNat < k * 2 ^ 20 then some ddr else rangeOf (documented ddrReg) va)) ∧
    ∃ m', Returns shareablePass (exec (shareableEntry base) m) m' ∧
      ∀ calls : List (Addr × Word), (∀ c ∈ calls, SectionAttrib c.2) → ∀ va,
        walk (calls.foldl (xilSetTlbAttributes base) m'.mem) (ttbr0 base) va = mapped va
          (match lastWrite covers calls (sectionOf va) with
          | some attrib => given attrib
          | none => if va.toNat < 2 ^ 30 then some ddr else rangeOf (documented ddrReg) va) := by
  have low : 0x5B#32 &&& 0xFFFFC000#32 = 0#32 := by decide
  have holds := loaded.holds (mmuTable_total size) (mmuTable_small ddrReg)
  obtain ⟨m', returns, after⟩ := shareable_returns holds
  refine ⟨fun va => ?_, fun m' run => ?_, m', returns, fun calls ok va => ?_⟩
  · rw [ttbr0, holds.walk aligned low, table_documented size]
  · obtain ⟨k, less, rewritten⟩ := rewritten_preserved.run ⟨0, by omega, entry_rewritten holds⟩ run
    exact ⟨k, less, fun va => by rw [ttbr0, rewritten.table.walk aligned low, shared_walk size]⟩
  · rw [ttbr0, (calls_hold aligned placed (fun c mem => (ok c mem).small) after).walk aligned low]
    cases last : lastWrite covers calls (sectionOf va) with
    | some attrib =>
      obtain ⟨c, mem, rfl⟩ := covers_mem last
      exact (ok c mem).itself va
    | none => exact shared_walk size va

/-- The guest of the board, with 511 MB of DDR behind the first one: the boot maps the addresses
behind its DDR too. -/
theorem guest_maps_itself_zedboard : ∃ m m' : Machine Unit, ∃ base : Addr,
    Loaded m.mem base (mmuTable 511) ∧
    Returns shareablePass (exec (shareableEntry base) m) m' ∧
    walk m.mem (ttbr0 base) 0x20000000#32 = .fault ∧
    walk m'.mem (ttbr0 base) 0x20000000#32 = .to 0x20000000#32 ddr := by
  let mem := writeWords (fun _ => 0#8) 0x00200000#32 (assemble 0 (mmuTable 511))
  let m : Machine Unit :=
    { regs := fun _ _ => 0#32, spsr := fun _ => 0#32, cpsr := Psr.ofWord 0x13#32, pc := 0#32,
      scr := scrNs, cp15 := fun _ _ => 0#32, mem, dev := () }
  have loaded : Loaded m.mem 0x00200000#32 (mmuTable 511) := by
    intro i w word
    have size : (assemble 0 (mmuTable 511)).length = 4096 := by
      rw [assemble_length, mmuTable_total (by omega)]
    exact read32_writeWords_at _ _ _ i word (by omega)
  obtain ⟨before, -, m', returns, after⟩ :=
    guest_maps_itself (by decide) (by decide) (by omega) m loaded
  refine ⟨m, m', _, loaded, returns, ?_, ?_⟩
  · exact before 0x20000000#32
  · exact after [] (by simp) 0x20000000#32

end LTZVisor.NsGuest.TranslationTable
