/- LTZVisor/Lib/Memory
   kind: library
   digest: Byte-addressed little-endian memory, wrapping address ranges and word blocks. -/

import Mathlib

set_option autoImplicit false
set_option relaxedAutoImplicit false

namespace LTZVisor.Lib.Memory

abbrev Byte := BitVec 8
abbrev Word := BitVec 32
abbrev Addr := BitVec 32

/-- A memory gives every address of the 32-bit space its byte. -/
abbrev Mem := Addr → Byte

/-- Byte `i` of a word, the least significant one first. -/
def byte (w : Word) (i : Nat) : Byte := w.extractLsb' (8 * i) 8

/-- The word with the given bytes, the least significant one first. -/
def wordOf (b0 b1 b2 b3 : Byte) : Word := b3 ++ b2 ++ b1 ++ b0

@[simp] theorem wordOf_byte (w : Word) :
    wordOf (byte w 0) (byte w 1) (byte w 2) (byte w 3) = w := by
  apply BitVec.eq_of_getLsbD_eq
  intro i hi
  simp only [wordOf, byte, BitVec.getLsbD_append, BitVec.getLsbD_extractLsb']
  split_ifs <;> grind

private theorem byte_wordOf (b : Nat → Byte) (i : Nat) (hi : i < 4) :
    byte (wordOf (b 0) (b 1) (b 2) (b 3)) i = b i := by
  apply BitVec.eq_of_getLsbD_eq
  intro j hj
  have cases : i = 0 ∨ i = 1 ∨ i = 2 ∨ i = 3 := by omega
  rcases cases with rfl | rfl | rfl | rfl <;>
    simp only [wordOf, byte, BitVec.getLsbD_append, BitVec.getLsbD_extractLsb', hj,
      decide_true, Bool.true_and] <;>
    split_ifs <;> grind

theorem word_ext {v w : Word} (h : ∀ i < 4, byte v i = byte w i) : v = w := by
  rw [← wordOf_byte v, ← wordOf_byte w, h 0 (by omega), h 1 (by omega), h 2 (by omega),
    h 3 (by omega)]

theorem sub_ofNat_sub_ofNat (a : Addr) (m n : Nat) :
    a - BitVec.ofNat 32 m - BitVec.ofNat 32 n = a - BitVec.ofNat 32 (m + n) := by
  bv_omega

-- Address ranges. A range is a first address and a number of bytes; it wraps at the top of the
-- address space, so no side condition on the sum is needed.

structure Range where
  base : Addr
  size : Nat
  deriving DecidableEq

instance : Membership Addr Range := ⟨fun r x => (x - r.base).toNat < r.size⟩

theorem mem_range {x a : Addr} {n : Nat} : x ∈ (⟨a, n⟩ : Range) ↔ (x - a).toNat < n := Iff.rfl

instance (x : Addr) (r : Range) : Decidable (x ∈ r) :=
  inferInstanceAs (Decidable ((x - r.base).toNat < r.size))

namespace Range

def Disjoint (r s : Range) : Prop := ∀ x : Addr, x ∈ r → x ∉ s

def Subset (r s : Range) : Prop := ∀ x : Addr, x ∈ r → x ∈ s

theorem Disjoint.symm {r s : Range} (h : r.Disjoint s) : s.Disjoint r :=
  fun x hs hr => h x hr hs

theorem Disjoint.mono {r r' s s' : Range} (h : r.Disjoint s) (hr : r'.Subset r)
    (hs : s'.Subset s) : r'.Disjoint s' :=
  fun x hx hy => h x (hr x hx) (hs x hy)

private theorem disjoint_iff (r s : Range) :
    r.Disjoint s ↔ ∀ i < r.size, r.base + BitVec.ofNat 32 i ∉ s := by
  constructor
  · intro h i hi
    apply h
    change (r.base + BitVec.ofNat 32 i - r.base).toNat < r.size
    bv_omega
  · intro h x hx
    have place : r.base + BitVec.ofNat 32 (x - r.base).toNat = x := by bv_omega
    have apart := h (x - r.base).toNat hx
    rwa [place] at apart

instance (r s : Range) : Decidable (r.Disjoint s) :=
  decidable_of_iff _ (disjoint_iff r s).symm

theorem Subset.refl (r : Range) : r.Subset r := fun _ h => h

theorem Subset.trans {r s t : Range} (h : r.Subset s) (h' : s.Subset t) : r.Subset t :=
  fun x hx => h' x (h x hx)

/-- A range inside another one, given by the offset of its base. -/
theorem subset_of_offset {a b : Addr} {m n : Nat} (h : (b - a).toNat + m ≤ n) :
    (⟨b, m⟩ : Range).Subset ⟨a, n⟩ := by
  intro x hx
  have hx' : (x - b).toNat < m := hx
  change (x - a).toNat < n
  bv_omega

/-- Two ranges are apart when each ends before the other one comes round again. -/
theorem disjoint_of_apart {a b : Addr} {m n : Nat} (h : m ≤ (b - a).toNat)
    (h' : n ≤ (a - b).toNat) : (⟨a, m⟩ : Range).Disjoint ⟨b, n⟩ := by
  intro x hx hy
  have hx' : (x - a).toNat < m := hx
  have hy' : (x - b).toNat < n := hy
  bv_omega

theorem disjoint_of_aligned {a b : Addr} (ha : a.toNat % 4 = 0) (hb : b.toNat % 4 = 0)
    (other : a ≠ b) : (⟨a, 4⟩ : Range).Disjoint ⟨b, 4⟩ := by
  have apart : a.toNat ≠ b.toNat := fun same => other (BitVec.eq_of_toNat_eq same)
  exact disjoint_of_apart (by bv_omega) (by bv_omega)

end Range

/-- Load the little-endian word at `a`; no alignment is asked for. -/
def read32 (m : Mem) (a : Addr) : Word := wordOf (m a) (m (a + 1#32)) (m (a + 2#32)) (m (a + 3#32))

/-- Store consecutive words from `a` upwards. -/
def writeWords (m : Mem) (a : Addr) (ws : List Word) : Mem := fun x =>
  match ws[(x - a).toNat / 4]? with
  | some w => byte w ((x - a).toNat % 4)
  | none => m x

@[simp] def write32 (m : Mem) (a : Addr) (w : Word) : Mem := writeWords m a [w]

/-- The `n` words from `a` upwards. -/
def readWords (m : Mem) (a : Addr) (n : Nat) : List Word :=
  (List.range n).map (fun i => read32 m (a + BitVec.ofNat 32 (4 * i)))

@[simp] theorem readWords_length (m : Mem) (a : Addr) (n : Nat) :
    (readWords m a n).length = n := by
  simp [readWords]

theorem byte_read32 (m : Mem) (a : Addr) (i : Nat) (hi : i < 4) :
    byte (read32 m a) i = m (a + BitVec.ofNat 32 i) := by
  have h := byte_wordOf (fun i => m (a + BitVec.ofNat 32 i)) i hi
  simpa only [read32, BitVec.add_zero] using h

theorem read32_congr {m m' : Mem} {a : Addr} (h : ∀ x ∈ (⟨a, 4⟩ : Range), m x = m' x) :
    read32 m a = read32 m' a := by
  apply word_ext
  intro i hi
  rw [byte_read32 m a i hi, byte_read32 m' a i hi]
  apply h
  rw [mem_range]
  bv_omega

theorem writeWords_of_not_mem {m : Mem} {a : Addr} {ws : List Word} {x : Addr}
    (h : x ∉ (⟨a, 4 * ws.length⟩ : Range)) : writeWords m a ws x = m x := by
  have h' : ws.length ≤ (x - a).toNat / 4 := by
    rw [mem_range] at h
    omega
  simp only [writeWords, List.getElem?_eq_none h']

private theorem writeWords_of_mem {m m' : Mem} {a : Addr} {ws : List Word} {x : Addr}
    (h : x ∈ (⟨a, 4 * ws.length⟩ : Range)) : writeWords m a ws x = writeWords m' a ws x := by
  have h' : (x - a).toNat / 4 < ws.length := by
    rw [mem_range] at h
    omega
  simp only [writeWords, List.getElem?_eq_getElem h']

theorem read32_writeWords_at (m : Mem) (a : Addr) (ws : List Word) (i : Nat) {w : Word}
    (at_i : ws[i]? = some w) (fits : 4 * ws.length ≤ 2 ^ 32) :
    read32 (writeWords m a ws) (a + BitVec.ofNat 32 (4 * i)) = w := by
  obtain ⟨hi, -⟩ := List.getElem?_eq_some_iff.mp at_i
  apply word_ext
  intro j hj
  rw [byte_read32 _ _ j hj]
  have offset : (a + BitVec.ofNat 32 (4 * i) + BitVec.ofNat 32 j - a).toNat = 4 * i + j := by
    bv_omega
  have word : (4 * i + j) / 4 = i := by omega
  have rest : (4 * i + j) % 4 = j := by omega
  simp only [writeWords, offset, word, rest, at_i]

@[simp] theorem read32_writeWords_singleton (m : Mem) (a : Addr) (w : Word) :
    read32 (writeWords m a [w]) a = w := by
  simpa using read32_writeWords_at m a [w] 0 rfl (by simp)

theorem write32_apply (m : Mem) (a : Addr) (v : Word) (x : Addr) :
    write32 m a v x = if x ∈ (⟨a, 4⟩ : Range) then byte v (x - a).toNat else m x := by
  by_cases inside : x ∈ (⟨a, 4⟩ : Range)
  · rw [if_pos inside]
    rw [mem_range] at inside
    have word : (x - a).toNat / 4 = 0 := by omega
    have rest : (x - a).toNat % 4 = (x - a).toNat := by omega
    simp only [write32, writeWords, word, rest, List.getElem?_cons_zero]
  · rw [if_neg inside]
    exact writeWords_of_not_mem inside

theorem read32_write32_eq_iff (m : Mem) (a b : Addr) (v : Word) :
    read32 (write32 m a v) b = read32 m b ↔
      ∀ x ∈ (⟨a, 4⟩ : Range), x ∈ (⟨b, 4⟩ : Range) → byte v (x - a).toNat = m x := by
  constructor
  · intro same x inside inside'
    rw [mem_range] at inside'
    have place : b + BitVec.ofNat 32 (x - b).toNat = x := by bv_omega
    have bytes := congrArg (fun w => byte w (x - b).toNat) same
    simp only [byte_read32 _ b _ inside', place] at bytes
    rw [← bytes, write32_apply, if_pos inside]
  · intro same
    apply read32_congr
    intro x hx
    rw [write32_apply]
    split
    case isTrue inside => exact same x inside hx
    case isFalse => rfl

theorem read32_writeWords_of_disjoint {m : Mem} {a b : Addr} {ws : List Word}
    (h : (⟨a, 4 * ws.length⟩ : Range).Disjoint ⟨b, 4⟩) :
    read32 (writeWords m a ws) b = read32 m b :=
  read32_congr fun x hx => writeWords_of_not_mem fun hw => h x hw hx

/-- Two adjacent blocks, the upper one stored first, are one block. -/
theorem writeWords_append (m : Mem) (a b : Addr) (xs ys : List Word)
    (adjacent : b = a + BitVec.ofNat 32 (4 * xs.length)) :
    writeWords (writeWords m b ys) a xs = writeWords m a (xs ++ ys) := by
  funext x
  subst adjacent
  have bound := (x - a).isLt
  by_cases low : (x - a).toNat / 4 < xs.length
  · simp only [writeWords, List.getElem?_append_left low, List.getElem?_eq_getElem low]
  · have high : xs.length ≤ (x - a).toNat / 4 := by omega
    have offset : (x - (a + BitVec.ofNat 32 (4 * xs.length))).toNat =
        (x - a).toNat - 4 * xs.length := by
      bv_omega
    have word : ((x - a).toNat - 4 * xs.length) / 4 = (x - a).toNat / 4 - xs.length := by omega
    have rest : ((x - a).toNat - 4 * xs.length) % 4 = (x - a).toNat % 4 := by omega
    simp only [writeWords, List.getElem?_append_right high, List.getElem?_eq_none high, offset,
      word, rest]

theorem writeWords_append_low (m : Mem) (a b : Addr) (xs ys : List Word)
    (adjacent : b = a + BitVec.ofNat 32 (4 * xs.length))
    (fits : 4 * (xs ++ ys).length ≤ 2 ^ 32) :
    writeWords (writeWords m a xs) b ys = writeWords m a (xs ++ ys) := by
  rw [← writeWords_append m a b xs ys adjacent]
  funext x
  subst adjacent
  rw [List.length_append] at fits
  have apart : (⟨a, 4 * xs.length⟩ : Range).Disjoint
      ⟨a + BitVec.ofNat 32 (4 * xs.length), 4 * ys.length⟩ := by
    intro y low high
    rw [mem_range] at low high
    bv_omega
  by_cases low : x ∈ (⟨a, 4 * xs.length⟩ : Range)
  · rw [writeWords_of_not_mem (apart x low)]
    exact writeWords_of_mem low
  · rw [writeWords_of_not_mem low]
    by_cases high : x ∈ (⟨a + BitVec.ofNat 32 (4 * xs.length), 4 * ys.length⟩ : Range)
    · exact writeWords_of_mem high
    · rw [writeWords_of_not_mem high, writeWords_of_not_mem high, writeWords_of_not_mem low]

private theorem writeWords_overwrite (m : Mem) (a : Addr) {xs ys : List Word}
    (len : xs.length ≤ ys.length) : writeWords (writeWords m a xs) a ys = writeWords m a ys := by
  funext x
  by_cases inside : x ∈ (⟨a, 4 * ys.length⟩ : Range)
  · exact writeWords_of_mem inside
  · have outside : x ∉ (⟨a, 4 * xs.length⟩ : Range) := by
      rw [mem_range] at inside ⊢
      omega
    rw [writeWords_of_not_mem inside, writeWords_of_not_mem inside, writeWords_of_not_mem outside]

theorem writeWords_pair_upper (m : Mem) (a : Addr) (v w u : Word) :
    writeWords (writeWords m a [v, w]) (a + 4#32) [u] = writeWords m a [v, u] := by
  have split : ∀ u, writeWords (writeWords m a [v]) (a + 4#32) [u] = writeWords m a [v, u] :=
    fun u => writeWords_append_low m a (a + 4#32) [v] [u] rfl (by simp)
  rw [← split w, writeWords_overwrite _ _ (by simp), split u]

@[simp] theorem writeWords_read32 (m : Mem) (a : Addr) : writeWords m a [read32 m a] = m := by
  funext x
  by_cases inside : x ∈ (⟨a, 4⟩ : Range)
  · rw [mem_range] at inside
    have word : (x - a).toNat / 4 = 0 := by omega
    have rest : (x - a).toNat % 4 = (x - a).toNat := by omega
    have place : a + BitVec.ofNat 32 (x - a).toNat = x := by bv_omega
    simp only [writeWords, word, rest, List.getElem?_cons_zero]
    rw [byte_read32 m a _ inside, place]
  · exact writeWords_of_not_mem inside

theorem readWords_congr {m m' : Mem} {a : Addr} {n : Nat}
    (h : ∀ x ∈ (⟨a, 4 * n⟩ : Range), m x = m' x) : readWords m a n = readWords m' a n := by
  apply List.map_congr_left
  intro i hi
  have hi' : i < n := List.mem_range.mp hi
  apply read32_congr
  intro x hx
  apply h
  rw [mem_range] at hx ⊢
  bv_omega

theorem readWords_writeWords (m : Mem) (a : Addr) (ws : List Word)
    (fits : 4 * ws.length ≤ 2 ^ 32) : readWords (writeWords m a ws) a ws.length = ws := by
  apply List.ext_getElem (by simp)
  intro i hi hi'
  simp only [readWords, List.getElem_map, List.getElem_range]
  exact read32_writeWords_at m a ws i (List.getElem?_eq_getElem hi') fits

def Frame (rs : List Range) (m m' : Mem) : Prop := ∀ x, (∀ r ∈ rs, x ∉ r) → m' x = m x

theorem Frame.refl (rs : List Range) (m : Mem) : Frame rs m m := fun _ _ => rfl

theorem Frame.trans {rs : List Range} {m m' m'' : Mem} (h : Frame rs m m')
    (h' : Frame rs m' m'') : Frame rs m m'' :=
  fun x hx => (h' x hx).trans (h x hx)

theorem Frame.writeWords {rs : List Range} {m m' : Mem} {a : Addr} {ws : List Word}
    (h : Frame rs m m') {r : Range} (hr : r ∈ rs)
    (inside : (⟨a, 4 * ws.length⟩ : Range).Subset r) : Frame rs m (writeWords m' a ws) :=
  fun x hx => (writeWords_of_not_mem fun hw => hx r hr (inside x hw)).trans (h x hx)

theorem Frame.readWords {rs : List Range} {m m' : Mem} (h : Frame rs m m') {a : Addr} {n : Nat}
    (apart : ∀ r ∈ rs, (⟨a, 4 * n⟩ : Range).Disjoint r) :
    readWords m' a n = Memory.readWords m a n :=
  readWords_congr fun x hx => h x fun r hr => apart r hr x hx

theorem Frame.read32 {rs : List Range} {m m' : Mem} (h : Frame rs m m') {a : Addr}
    (apart : ∀ r ∈ rs, (⟨a, 4⟩ : Range).Disjoint r) : read32 m' a = Memory.read32 m a :=
  read32_congr fun x hx => h x fun r hr => apart r hr x hx

end LTZVisor.Lib.Memory
