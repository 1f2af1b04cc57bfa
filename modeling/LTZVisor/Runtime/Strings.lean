/- LTZVisor/Runtime/Strings
   kind: model
   digest: The block and string functions of the runtime library, loop by loop. -/

import LTZVisor.Lib.Block

set_option autoImplicit false
set_option relaxedAutoImplicit false

namespace LTZVisor.Runtime.Strings

open LTZVisor.Lib.Memory LTZVisor.Lib.Block

-- Every loop has a bound on its tests; a loop that needs more has no result.

/-- `for (; i < count; i++) *dst++ = *src++`, which is also the loop over `dst[i] = src[i]`. -/
def copyBytes (count : Word) : Nat → Word → Addr → Addr → Mem → Option Mem
  | 0, _, _, _, _ => none
  | fuel + 1, i, dst, src, mem =>
    if i < count then
      copyBytes count fuel (i + 1#32) (dst + 1#32) (src + 1#32) (store mem dst (mem src))
    else some mem

/-- The loop over aligned words, with the index and the pointers that it ends with. -/
def copyWords (count : Word) : Nat → Word → Addr → Addr → Mem → Option (Word × Addr × Addr × Mem)
  | 0, _, _, _, _ => none
  | fuel + 1, i, dst, src, mem =>
    if i < count then
      if i + 3#32 > count - 1#32 then some (i, dst, src, mem)
      else
        copyWords count fuel (i + 4#32) (dst + 4#32) (src + 4#32) (write32 mem dst (read32 mem src))
    else some (i, dst, src, mem)

def memcpy (dst src : Addr) (count : Word) (mem : Mem) : Option Mem :=
  let fuel := count.toNat + 1
  if src &&& 3#32 = 0#32 ∧ dst &&& 3#32 = 0#32 then do
    let (i, dst, src, mem) ← copyWords count fuel 0#32 dst src mem
    if i ≤ count - 1#32 then copyBytes count fuel i dst src mem else some mem
  else copyBytes count fuel 0#32 dst src mem

def fillBytes (c : Byte) : Nat → Addr → Mem → Mem
  | 0, _, mem => mem
  | count + 1, d, mem => fillBytes c count (d + 1#32) (store mem d c)

def memset (dest : Addr) (c count : Word) (mem : Mem) : Mem :=
  fillBytes (c.setWidth 8) count.toNat dest mem

/-- `while ((*dest++ = *src++) != 0)`. -/
def copyString : Nat → Addr → Addr → Mem → Option Mem
  | 0, _, _, _ => none
  | fuel + 1, dest, src, mem =>
    let c := mem src
    let mem := store mem dest c
    if c = 0#8 then some mem else copyString fuel (dest + 1#32) (src + 1#32) mem

def strcpy (dest src : Addr) (mem : Mem) : Option Mem := copyString (2 ^ 32) dest src mem

/-- The call `memcpy(dst, src, count)`: what it returns, and the memory. -/
def memcpyCall (dst src : Addr) (count : Word) (mem : Mem) : Option (Addr × Mem) :=
  (memcpy dst src count mem).map fun mem => (dst, mem)

variable (mem : Mem) {dst src : Addr} {count : Word}

private theorem copyBytes_eq (fuel : Nat) {i : Word} (le : i.toNat ≤ count.toNat)
    (enough : count.toNat - i.toNat < fuel) (forward : Forward dst src count.toNat) :
    copyBytes count fuel i (dst + i) (src + i) (copied mem dst src i.toNat) =
      some (copied mem dst src count.toNat) := by
  induction fuel generalizing i with
  | zero => omega
  | succ fuel ih =>
    rw [copyBytes]
    by_cases less : i < count
    · rw [if_pos less]
      have less' : i.toNat < count.toNat := less
      have bound := count.isLt
      have next : (i + 1#32).toNat = i.toNat + 1 := by bv_omega
      have dstNext : dst + i + 1#32 = dst + (i + 1#32) := BitVec.add_assoc ..
      have srcNext : src + i + 1#32 = src + (i + 1#32) := BitVec.add_assoc ..
      rw [copied_succ mem (forward i less'), dstNext, srcNext, ← next]
      exact ih (by omega) (by omega)
    · have last : i.toNat = count.toNat := by
        have notLess : ¬i.toNat < count.toNat := less
        omega
      rw [if_neg less, last]

private theorem copyWords_eq (fuel : Nat) {i : Word} (small : count.toNat < 2 ^ 31)
    (le : i.toNat ≤ count.toNat) (enough : count.toNat - i.toNat < fuel)
    (forward : Forward dst src count.toNat) :
    ∃ j : Word, j.toNat ≤ count.toNat ∧
      copyWords count fuel i (dst + i) (src + i) (copied mem dst src i.toNat) =
        some (j, dst + j, src + j, copied mem dst src j.toNat) := by
  induction fuel generalizing i with
  | zero => omega
  | succ fuel ih =>
    rw [copyWords]
    by_cases less : i < count
    · rw [if_pos less]
      by_cases tail : i + 3#32 > count - 1#32
      · rw [if_pos tail]
        exact ⟨i, le, rfl⟩
      · rw [if_neg tail]
        have less' : i.toNat < count.toNat := less
        have whole : i.toNat + 4 ≤ count.toNat := by bv_omega
        have next : (i + 4#32).toNat = i.toNat + 4 := by bv_omega
        have source := forward.word (by omega) whole
        have dstNext : dst + i + 4#32 = dst + (i + 4#32) := BitVec.add_assoc ..
        have srcNext : src + i + 4#32 = src + (i + 4#32) := BitVec.add_assoc ..
        rw [copied_word (by omega) source, dstNext, srcNext, ← next]
        exact ih (by omega) (by omega)
    · rw [if_neg less]
      exact ⟨i, le, rfl⟩

private theorem copyBytes_start (forward : Forward dst src count.toNat) :
    copyBytes count (count.toNat + 1) 0#32 dst src mem =
      some (copied mem dst src count.toNat) := by
  have start := copyBytes_eq mem (count.toNat + 1) (i := 0#32) (Nat.zero_le _) (by omega) forward
  simp only [BitVec.toNat_ofNat, Nat.zero_mod, copied_zero, BitVec.add_zero] at start
  exact start

private theorem memcpy_forward (small : count.toNat < 2 ^ 31)
    (forward : Forward dst src count.toNat) :
    memcpy dst src count mem = some (copied mem dst src count.toNat) := by
  unfold memcpy
  dsimp only
  split_ifs with aligned
  · obtain ⟨j, le, words⟩ := copyWords_eq mem (count.toNat + 1) (i := 0#32) small
      (Nat.zero_le _) (by omega) forward
    simp only [BitVec.toNat_ofNat, Nat.zero_mod, copied_zero, BitVec.add_zero] at words
    rw [words, Option.bind_eq_bind, Option.bind_some]
    dsimp only
    split_ifs with rest
    · exact copyBytes_eq mem (count.toNat + 1) le (by omega) forward
    · have last : j.toNat = count.toNat := by bv_omega
      rw [last]
  · exact copyBytes_start mem forward

/-- Blocks of less than `2 ^ 31` bytes that lie apart are copied, whatever their alignment. -/
theorem memcpy_eq (small : count.toNat < 2 ^ 31)
    (apart : (⟨src, count.toNat⟩ : Range).Disjoint ⟨dst, count.toNat⟩) :
    memcpy dst src count mem = some (copied mem dst src count.toNat) :=
  memcpy_forward mem small (Forward.of_disjoint apart)

/-- A call returns the destination, which then holds what the source held; the copy by words does
what the copy by bytes would have done. -/
theorem memcpyCall_exact (dst src : Addr) (count : Word) (small : count.toNat < 2 ^ 31)
    (srcFits : src.toNat + count.toNat ≤ 2 ^ 32) (dstFits : dst.toNat + count.toNat ≤ 2 ^ 32)
    (order : (⟨src, count.toNat⟩ : Range).Disjoint ⟨dst, count.toNat⟩ ∨ dst < src) :
    ∃ mem', memcpyCall dst src count mem = some (dst, mem') ∧
      (∀ i < count.toNat, mem' (dst + BitVec.ofNat 32 i) = mem (src + BitVec.ofNat 32 i)) ∧
      (∀ x, x.toNat < dst.toNat ∨ dst.toNat + count.toNat ≤ x.toNat → mem' x = mem x) ∧
      copyBytes count (count.toNat + 1) 0#32 dst src mem = some mem' := by
  have forward : Forward dst src count.toNat := by
    rcases order with apart | lower
    · exact Forward.of_disjoint apart
    · exact Forward.of_lt lower srcFits
  refine ⟨copied mem dst src count.toNat, ?_, ?_, ?_, copyBytes_start mem forward⟩
  · rw [memcpyCall, memcpy_forward mem small forward, Option.map_some]
  · intro i less
    exact copied_at (by omega) less
  · intro x outside
    apply copied_of_not_mem
    rw [mem_range]
    bv_omega

/-- Seven bytes moved down by four. -/
theorem memcpyCall_exact_overlap : ∃ mem', memcpyCall 0x100#32 0x104#32 7#32 (·.setWidth 8) =
      some (0x100#32, mem') ∧
    (∀ i < 7, mem' (0x100#32 + BitVec.ofNat 32 i) = (0x104#32 + BitVec.ofNat 32 i).setWidth 8) ∧
    (∀ x : Addr, x.toNat < 0x100 ∨ 0x107 ≤ x.toNat → mem' x = x.setWidth 8) ∧
    copyBytes 7#32 8 0#32 0x100#32 0x104#32 (·.setWidth 8) = some mem' :=
  memcpyCall_exact (·.setWidth 8) 0x100#32 0x104#32 7#32 (by decide) (by decide) (by decide)
    (Or.inr (by decide))

theorem memset_eq (dest : Addr) (c count : Word) :
    memset dest c count mem = filled mem ⟨dest, count.toNat⟩ (c.setWidth 8) := by
  have step : ∀ n i, i + n ≤ 2 ^ 32 →
      fillBytes (c.setWidth 8) n (dest + BitVec.ofNat 32 i) (filled mem ⟨dest, i⟩ (c.setWidth 8)) =
        filled mem ⟨dest, i + n⟩ (c.setWidth 8) := by
    intro n
    induction n with
    | zero => exact fun i _ => rfl
    | succ n ih =>
      intro i size
      have next : dest + BitVec.ofNat 32 i + 1#32 = dest + BitVec.ofNat 32 (i + 1) := by bv_omega
      rw [fillBytes, filled_succ (by omega), next, ih (i + 1) (by omega), Nat.add_right_comm,
        Nat.add_assoc]
  have whole := step count.toNat 0 (by have bound := count.isLt; omega)
  have start : filled mem ⟨dest, 0⟩ (c.setWidth 8) = mem := by
    funext x
    exact if_neg (Nat.not_lt_zero _)
  rw [start, BitVec.add_zero, Nat.zero_add] at whole
  exact whole

/-- A string and the byte that ends it. -/
def EndsAt (mem : Mem) (a : Addr) (k : Nat) : Prop :=
  mem (a + BitVec.ofNat 32 k) = 0#8 ∧ ∀ j < k, mem (a + BitVec.ofNat 32 j) ≠ 0#8

theorem EndsAt.congr {mem mem' : Mem} {a : Addr} {k : Nat} (ends : EndsAt mem a k)
    (same : ∀ i ≤ k, mem' (a + BitVec.ofNat 32 i) = mem (a + BitVec.ofNat 32 i)) :
    EndsAt mem' a k := by
  refine ⟨(same k le_rfl).trans ends.1, fun j hj => ?_⟩
  rw [same j hj.le]
  exact ends.2 j hj

private theorem copyString_eq (fuel : Nat) {k i : Nat} (ends : EndsAt mem src k) (le : i ≤ k)
    (size : k < 2 ^ 32) (enough : k - i < fuel)
    (apart : (⟨src, k + 1⟩ : Range).Disjoint ⟨dst, k + 1⟩) :
    copyString fuel (dst + BitVec.ofNat 32 i) (src + BitVec.ofNat 32 i) (copied mem dst src i) =
      some (copied mem dst src (k + 1)) := by
  induction fuel generalizing i with
  | zero => omega
  | succ fuel ih =>
    have index : (BitVec.ofNat 32 i).toNat = i := by
      rw [BitVec.toNat_ofNat, Nat.mod_eq_of_lt (by omega)]
    have source : src + BitVec.ofNat 32 i ∉ (⟨dst, (BitVec.ofNat 32 i).toNat⟩ : Range) := by
      intro hit
      rw [index] at hit
      apply apart (src + BitVec.ofNat 32 i)
      · rw [mem_range]
        bv_omega
      · rw [mem_range] at hit ⊢
        omega
    have same : copied mem dst src i (src + BitVec.ofNat 32 i) = mem (src + BitVec.ofNat 32 i) := by
      rw [index] at source
      exact copied_of_not_mem source
    have more := copied_succ mem source
    rw [index] at more
    rw [copyString, more]
    by_cases last : i = k
    · rw [same, last, if_pos ends.1]
    · have notEnd : copied mem dst src i (src + BitVec.ofNat 32 i) ≠ 0#8 := by
        rw [same]
        exact ends.2 i (by omega)
      have dstNext : dst + BitVec.ofNat 32 i + 1#32 = dst + BitVec.ofNat 32 (i + 1) := by bv_omega
      have srcNext : src + BitVec.ofNat 32 i + 1#32 = src + BitVec.ofNat 32 (i + 1) := by bv_omega
      rw [if_neg notEnd, dstNext, srcNext]
      exact ih (by omega) (by omega)

theorem strcpy_eq {k : Nat} (ends : EndsAt mem src k) (size : k < 2 ^ 32)
    (apart : (⟨src, k + 1⟩ : Range).Disjoint ⟨dst, k + 1⟩) :
    strcpy dst src mem = some (copied mem dst src (k + 1)) := by
  have whole := copyString_eq mem (2 ^ 32) ends (Nat.zero_le k) size (by omega) apart
  rw [copied_zero, BitVec.add_zero, BitVec.add_zero] at whole
  exact whole

end LTZVisor.Runtime.Strings
