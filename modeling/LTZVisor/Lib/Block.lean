/- LTZVisor/Lib/Block
   kind: library
   digest: Bytes stored, blocks copied and blocks filled, one piece at a time. -/

import LTZVisor.Lib.Memory

set_option autoImplicit false
set_option relaxedAutoImplicit false

namespace LTZVisor.Lib.Block

open LTZVisor.Lib.Memory

def store (mem : Mem) (a : Addr) (b : Byte) : Mem := fun x => if x = a then b else mem x

def copied (mem : Mem) (dst src : Addr) (n : Nat) : Mem := fun x =>
  if x ∈ (⟨dst, n⟩ : Range) then mem (src + (x - dst)) else mem x

def filled (mem : Mem) (r : Range) (b : Byte) : Mem := fun x => if x ∈ r then b else mem x

variable {mem : Mem} {dst src : Addr}

@[simp] theorem copied_zero (mem : Mem) (dst src : Addr) : copied mem dst src 0 = mem := by
  funext x
  exact if_neg (Nat.not_lt_zero _)

theorem copied_of_not_mem {n : Nat} {x : Addr} (outside : x ∉ (⟨dst, n⟩ : Range)) :
    copied mem dst src n x = mem x :=
  if_neg outside

theorem copied_at {n : Nat} (size : n ≤ 2 ^ 32) {i : Nat} (hi : i < n) :
    copied mem dst src n (dst + BitVec.ofNat 32 i) = mem (src + BitVec.ofNat 32 i) := by
  have offset : dst + BitVec.ofNat 32 i - dst = BitVec.ofNat 32 i := by bv_omega
  have inside : dst + BitVec.ofNat 32 i ∈ (⟨dst, n⟩ : Range) := by
    rw [mem_range, offset]
    bv_omega
  rw [copied, if_pos inside, offset]

/-- A copy from the first byte on reads none of the `n` bytes after it has written it. -/
def Forward (dst src : Addr) (n : Nat) : Prop :=
  ∀ i : Word, i.toNat < n → src + i ∉ (⟨dst, i.toNat⟩ : Range)

theorem Forward.of_disjoint {n : Nat} (apart : (⟨src, n⟩ : Range).Disjoint ⟨dst, n⟩) :
    Forward dst src n := by
  intro i less hit
  apply apart (src + i)
  · rw [mem_range]
    bv_omega
  · rw [mem_range] at hit ⊢
    omega

theorem Forward.of_lt {n : Nat} (lower : dst < src) (fits : src.toNat + n ≤ 2 ^ 32) :
    Forward dst src n := by
  intro i less hit
  rw [mem_range] at hit
  bv_omega

theorem Forward.word {n : Nat} (forward : Forward dst src n) (size : n < 2 ^ 32) {i : Word}
    (whole : i.toNat + 4 ≤ n) : (⟨src + i, 4⟩ : Range).Disjoint ⟨dst, i.toNat⟩ := by
  intro x hx hit
  rw [mem_range] at hx hit
  have near : (x - src).toNat < n := by bv_omega
  apply forward (x - src) near
  rw [mem_range]
  bv_omega

theorem copied_succ (mem : Mem) {i : Word} (apart : src + i ∉ (⟨dst, i.toNat⟩ : Range)) :
    store (copied mem dst src i.toNat) (dst + i) (copied mem dst src i.toNat (src + i)) =
      copied mem dst src (i.toNat + 1) := by
  rw [copied_of_not_mem apart]
  funext x
  by_cases here : x = dst + i
  · have offset : x - dst = i := by bv_omega
    have inside : x ∈ (⟨dst, i.toNat + 1⟩ : Range) := by
      rw [mem_range, offset]
      exact Nat.lt_succ_self _
    rw [store, if_pos here, copied, if_pos inside, offset]
  · rw [store, if_neg here]
    have same : x ∈ (⟨dst, i.toNat + 1⟩ : Range) ↔ x ∈ (⟨dst, i.toNat⟩ : Range) := by
      rw [mem_range, mem_range]
      bv_omega
    simp only [copied, same]

theorem copied_word {i : Word} (fits : i.toNat + 4 < 2 ^ 32)
    (apart : (⟨src + i, 4⟩ : Range).Disjoint ⟨dst, i.toNat⟩) :
    write32 (copied mem dst src i.toNat) (dst + i) (read32 (copied mem dst src i.toNat) (src + i)) =
      copied mem dst src (i.toNat + 4) := by
  have word : read32 (copied mem dst src i.toNat) (src + i) = read32 mem (src + i) :=
    read32_congr fun x hx => copied_of_not_mem (apart x hx)
  rw [word]
  funext x
  rw [write32_apply]
  by_cases here : x ∈ (⟨dst + i, 4⟩ : Range)
  · rw [if_pos here]
    rw [mem_range] at here
    have inside : x ∈ (⟨dst, i.toNat + 4⟩ : Range) := by
      rw [mem_range]
      bv_omega
    have place : src + i + BitVec.ofNat 32 (x - (dst + i)).toNat = src + (x - dst) := by bv_omega
    rw [byte_read32 _ _ _ here, place, copied, if_pos inside]
  · rw [if_neg here]
    have same : x ∈ (⟨dst, i.toNat + 4⟩ : Range) ↔ x ∈ (⟨dst, i.toNat⟩ : Range) := by
      rw [mem_range] at here
      rw [mem_range, mem_range]
      bv_omega
    simp only [copied, same]

@[simp] theorem filled_zero (mem : Mem) (a : Addr) (b : Byte) : filled mem ⟨a, 0⟩ b = mem := by
  funext x
  exact if_neg (Nat.not_lt_zero _)

private theorem filled_of_not_mem {r : Range} {b : Byte} {x : Addr} (outside : x ∉ r) :
    filled mem r b x = mem x :=
  if_neg outside

theorem filled_succ {a : Addr} {i : Nat} {b : Byte} (size : i < 2 ^ 32) :
    store (filled mem ⟨a, i⟩ b) (a + BitVec.ofNat 32 i) b = filled mem ⟨a, i + 1⟩ b := by
  funext x
  by_cases here : x = a + BitVec.ofNat 32 i
  · have inside : x ∈ (⟨a, i + 1⟩ : Range) := by
      rw [mem_range, here]
      bv_omega
    rw [store, if_pos here, filled, if_pos inside]
  · rw [store, if_neg here]
    have same : x ∈ (⟨a, i + 1⟩ : Range) ↔ x ∈ (⟨a, i⟩ : Range) := by
      rw [mem_range, mem_range]
      bv_omega
    simp only [filled, same]

theorem read32_filled_zero {r : Range} {a : Addr} (inside : (⟨a, 4⟩ : Range).Subset r) :
    read32 (filled mem r 0#8) a = 0#32 := by
  have zeros : read32 (filled mem r 0#8) a = read32 (fun _ => 0#8) a :=
    read32_congr fun x hx => if_pos (inside x hx)
  rw [zeros]
  change wordOf 0#8 0#8 0#8 0#8 = 0#32
  decide

theorem filled_word {a : Addr} {i : Nat} (size : i + 4 ≤ 2 ^ 32) :
    write32 (filled mem ⟨a, i⟩ 0#8) (a + BitVec.ofNat 32 i) 0#32 = filled mem ⟨a, i + 4⟩ 0#8 := by
  funext x
  rw [write32_apply]
  by_cases here : x ∈ (⟨a + BitVec.ofNat 32 i, 4⟩ : Range)
  · have inside : x ∈ (⟨a, i + 4⟩ : Range) := by
      rw [mem_range] at here ⊢
      bv_omega
    rw [if_pos here, filled, if_pos inside, byte, BitVec.extractLsb'_zero]
  · rw [if_neg here]
    have same : x ∈ (⟨a, i + 4⟩ : Range) ↔ x ∈ (⟨a, i⟩ : Range) := by
      rw [mem_range] at here
      rw [mem_range, mem_range]
      bv_omega
    simp only [filled, same]

theorem filled_word_eq_iff {a : Addr} {i : Nat} (size : i + 4 ≤ 2 ^ 32) :
    filled mem ⟨a, i + 4⟩ 0#8 = filled mem ⟨a, i⟩ 0#8 ↔
      read32 mem (a + BitVec.ofNat 32 i) = 0#32 := by
  have outside : read32 (filled mem ⟨a, i⟩ 0#8) (a + BitVec.ofNat 32 i) =
      read32 mem (a + BitVec.ofNat 32 i) := by
    apply read32_congr
    intro x hx
    apply filled_of_not_mem
    rw [mem_range] at hx ⊢
    bv_omega
  constructor
  · intro same
    rw [← outside, ← same]
    apply read32_filled_zero
    intro x hx
    rw [mem_range] at hx ⊢
    bv_omega
  · intro zero
    rw [← filled_word size, ← zero, ← outside]
    exact writeWords_read32 _ _

theorem read32_write32_index (mem : Mem) (a : Addr) {i j : Nat} (hi : i < 2 ^ 30) (hj : j < 2 ^ 30)
    (v : Word) :
    read32 (write32 mem (a + BitVec.ofNat 32 (4 * j)) v) (a + BitVec.ofNat 32 (4 * i)) =
      if i = j then v else read32 mem (a + BitVec.ofNat 32 (4 * i)) := by
  by_cases same : i = j
  · rw [if_pos same, same]
    exact read32_writeWords_singleton _ _ _
  · rw [if_neg same]
    apply read32_writeWords_of_disjoint
    apply Range.disjoint_of_apart
    · change 4 ≤ _
      bv_omega
    · bv_omega

theorem frame_copied {rs : List Range} {m m' : Mem} (h : Frame rs m m') {n : Nat} {r : Range}
    (hr : r ∈ rs) (inside : (⟨dst, n⟩ : Range).Subset r) : Frame rs m (copied m' dst src n) :=
  fun x hx => (copied_of_not_mem fun hit => hx r hr (inside x hit)).trans (h x hx)

theorem frame_filled {rs : List Range} {m m' : Mem} (h : Frame rs m m') {b : Byte} {r s : Range}
    (hr : r ∈ rs) (inside : s.Subset r) : Frame rs m (filled m' s b) :=
  fun x hx => (filled_of_not_mem fun hit => hx r hr (inside x hit)).trans (h x hx)

theorem frame_pair {r s : Range} {m m' : Mem} (h : Frame [r, s] m m') {x : Addr} (hr : x ∉ r)
    (hs : x ∉ s) : m' x = m x :=
  h x (by simp [hr, hs])

theorem frame_widen {rs rs' : List Range} {m m' : Mem} (h : Frame rs m m')
    (wider : ∀ r ∈ rs, ∃ r' ∈ rs', r.Subset r') : Frame rs' m m' := by
  intro x hx
  apply h x
  intro r hr inside
  obtain ⟨r', hr', sub⟩ := wider r hr
  exact hx r' hr' (sub x inside)

end LTZVisor.Lib.Block
