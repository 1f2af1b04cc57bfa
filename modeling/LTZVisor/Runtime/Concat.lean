/- LTZVisor/Runtime/Concat
   kind: property
   digest: Strings put together in memory by `strcpy` and `strcat`, and measured by `strlen`. -/

import LTZVisor.Runtime.Strings

set_option autoImplicit false
set_option relaxedAutoImplicit false

namespace LTZVisor.Runtime.Concat

open LTZVisor.Lib.Memory LTZVisor.Lib.Block LTZVisor.Runtime.Strings

/-- `for (; *s; ++s)`, which is also the loop over `*sc != '\0'`. -/
def seekEnd : Nat → Addr → Mem → Option Addr
  | 0, _, _ => none
  | fuel + 1, s, mem => if mem s = 0#8 then some s else seekEnd fuel (s + 1#32) mem

def strcat (dest src : Addr) (mem : Mem) : Option Mem := do
  let dest ← seekEnd (2 ^ 32) dest mem
  copyString (2 ^ 32) dest src mem

def strlen (s : Addr) (mem : Mem) : Option Word := (seekEnd (2 ^ 32) s mem).map (· - s)

/-- `for (str = s; *str != '\0' && n--; ++str)`. -/
def seekAtMost : Nat → Addr → Mem → Addr
  | 0, str, _ => str
  | n + 1, str, mem => if mem str = 0#8 then str else seekAtMost n (str + 1#32) mem

def strnlen (s : Addr) (n : Word) (mem : Mem) : Word := seekAtMost n.toNat s mem - s

def assemble (dest src : Addr) (srcs : List Addr) (mem : Mem) : Option Mem := do
  srcs.foldlM (fun mem src => strcat dest src mem) (← strcpy dest src mem)

/-- The bytes of a string and the NUL behind them. -/
structure IsString (mem : Mem) (a : Addr) (text : List Byte) : Prop where
  bytes : ∀ i, (h : i < text.length) → mem (a + BitVec.ofNat 32 i) = text[i]
  ends : mem (a + BitVec.ofNat 32 text.length) = 0#8
  proper : 0#8 ∉ text

namespace IsString

variable {mem mem' : Mem} {a : Addr} {text : List Byte}

private theorem endsAt (h : IsString mem a text) : EndsAt mem a text.length := by
  refine ⟨h.ends, fun j less nul => h.proper ?_⟩
  rw [h.bytes j less] at nul
  exact nul ▸ List.getElem_mem less

theorem congr (h : IsString mem a text) (size : text.length < 2 ^ 32)
    (same : ∀ x ∈ (⟨a, text.length + 1⟩ : Range), mem' x = mem x) : IsString mem' a text := by
  have inside (i : Nat) (le : i ≤ text.length) :
      a + BitVec.ofNat 32 i ∈ (⟨a, text.length + 1⟩ : Range) := by
    rw [mem_range]
    bv_omega
  constructor
  case bytes =>
    intro i less
    rw [same _ (inside i less.le)]
    exact h.bytes i less
  case ends =>
    rw [same _ (inside _ le_rfl)]
    exact h.ends
  case proper => exact h.proper

end IsString

section Loops

variable {mem : Mem} {a : Addr} {k : Nat}

private theorem seekEnd_eq (ends : EndsAt mem a k) (size : k < 2 ^ 32) :
    seekEnd (2 ^ 32) a mem = some (a + BitVec.ofNat 32 k) := by
  have from_ : ∀ fuel i, i ≤ k → k - i < fuel →
      seekEnd fuel (a + BitVec.ofNat 32 i) mem = some (a + BitVec.ofNat 32 k) := by
    intro fuel
    induction fuel with
    | zero => omega
    | succ fuel ih =>
      intro i le enough
      rw [seekEnd]
      by_cases last : i = k
      · rw [last, if_pos ends.1]
      · have next : a + BitVec.ofNat 32 i + 1#32 = a + BitVec.ofNat 32 (i + 1) := by bv_omega
        rw [if_neg (ends.2 i (by omega)), next]
        exact ih (i + 1) (by omega) (by omega)
  have whole := from_ (2 ^ 32) 0 (Nat.zero_le k) (by omega)
  rwa [BitVec.add_zero] at whole

private theorem seekAtMost_eq (ends : EndsAt mem a k) (n : Nat) :
    seekAtMost n a mem = a + BitVec.ofNat 32 (min n k) := by
  have from_ : ∀ n i, i ≤ k →
      seekAtMost n (a + BitVec.ofNat 32 i) mem = a + BitVec.ofNat 32 (min (i + n) k) := by
    intro n
    induction n with
    | zero =>
      intro i le
      rw [seekAtMost, Nat.add_zero, Nat.min_eq_left le]
    | succ n ih =>
      intro i le
      rw [seekAtMost]
      by_cases last : i = k
      · rw [last, if_pos ends.1, Nat.min_eq_right (Nat.le_add_right _ _)]
      · have next : a + BitVec.ofNat 32 i + 1#32 = a + BitVec.ofNat 32 (i + 1) := by bv_omega
        rw [if_neg (ends.2 i (by omega)), next, ih (i + 1) (by omega), Nat.add_right_comm,
          Nat.add_assoc]
  have whole := from_ n 0 (Nat.zero_le k)
  rwa [BitVec.add_zero, Nat.zero_add] at whole

private theorem strlen_eq {text : List Byte} (h : IsString mem a text)
    (size : text.length < 2 ^ 32) : strlen a mem = some (BitVec.ofNat 32 text.length) := by
  rw [strlen, seekEnd_eq h.endsAt size, Option.map_some, BitVec.add_comm, BitVec.add_sub_cancel]

private theorem strnlen_eq {text : List Byte} (h : IsString mem a text)
    (size : text.length < 2 ^ 32)
    (n : Word) : (strnlen a n mem).toNat = min n.toNat text.length := by
  rw [strnlen, seekAtMost_eq h.endsAt, BitVec.add_comm, BitVec.add_sub_cancel, BitVec.toNat_ofNat,
    Nat.mod_eq_of_lt (by omega)]

end Loops

section Append

variable {mem mem' : Mem} {dest src : Addr} {s t : List Byte}

/-- A string is copied together with its NUL. -/
private theorem copied_isString (source : IsString mem src t) (size : t.length < 2 ^ 32) :
    IsString (copied mem dest src (t.length + 1)) dest t := by
  constructor
  case bytes =>
    intro i less
    rw [copied_at (by omega) (by omega)]
    exact source.bytes i less
  case ends =>
    rw [copied_at (by omega) (by omega)]
    exact source.ends
  case proper => exact source.proper

private theorem append_isString
    (front : ∀ i, (h : i < s.length) → mem (dest + BitVec.ofNat 32 i) = s[i])
    (proper : 0#8 ∉ s) (rest : IsString mem (dest + BitVec.ofNat 32 s.length) t) :
    IsString mem dest (s ++ t) := by
  have behind (i : Nat) : dest + BitVec.ofNat 32 s.length + BitVec.ofNat 32 i =
      dest + BitVec.ofNat 32 (s.length + i) := by bv_omega
  constructor
  case bytes =>
    intro i less
    by_cases first : i < s.length
    · rw [List.getElem_append_left first]
      exact front i first
    · rw [List.length_append] at less
      rw [List.getElem_append_right (Nat.le_of_not_lt first)]
      have byte := rest.bytes (i - s.length) (by omega)
      rwa [behind, Nat.add_sub_cancel' (Nat.le_of_not_lt first)] at byte
  case ends =>
    have nul := rest.ends
    rwa [behind, ← List.length_append] at nul
  case proper =>
    rw [List.mem_append, not_or]
    exact ⟨proper, rest.proper⟩

private theorem strcat_appends (dst : IsString mem dest s) (source : IsString mem src t)
    (size : s.length + t.length < 2 ^ 32)
    (apart : (⟨src, t.length + 1⟩ : Range).Disjoint ⟨dest, s.length + t.length + 1⟩) :
    ∃ mem', strcat dest src mem = some mem' ∧ IsString mem' dest (s ++ t) ∧
      ∀ x ∉ (⟨dest, s.length + t.length + 1⟩ : Range), mem' x = mem x := by
  have inside : (⟨dest + BitVec.ofNat 32 s.length, t.length + 1⟩ : Range).Subset
      ⟨dest, s.length + t.length + 1⟩ := by
    apply Range.subset_of_offset
    bv_omega
  have copy := strcpy_eq mem source.endsAt (by omega)
    (apart.mono (Range.Subset.refl _) inside)
  refine ⟨_, ?_, append_isString ?_ dst.proper (copied_isString source (by omega)), ?_⟩
  · rw [strcat, seekEnd_eq dst.endsAt (by omega)]
    exact copy
  · intro i less
    have before : dest + BitVec.ofNat 32 i ∉
        (⟨dest + BitVec.ofNat 32 s.length, t.length + 1⟩ : Range) := by
      rw [mem_range]
      bv_omega
    rw [copied_of_not_mem before]
    exact dst.bytes i less
  · intro x outside
    exact copied_of_not_mem fun hit => outside (inside x hit)

private theorem strcpy_copies (source : IsString mem src t) (size : t.length < 2 ^ 32)
    (apart : (⟨src, t.length + 1⟩ : Range).Disjoint ⟨dest, t.length + 1⟩) :
    ∃ mem', strcpy dest src mem = some mem' ∧ IsString mem' dest t ∧
      ∀ x ∉ (⟨dest, t.length + 1⟩ : Range), mem' x = mem x :=
  ⟨_, strcpy_eq mem source.endsAt size apart, copied_isString source size,
    fun _ outside => copied_of_not_mem outside⟩

end Append

def joined (parts : List (Addr × List Byte)) : List Byte := parts.flatMap Prod.snd

section Assemble

variable {mem₀ mem : Mem} {dest : Addr} {total : Nat}

/-- A source that the destination, with its `total` bytes and a NUL, does not reach. -/
structure Source (mem : Mem) (dest : Addr) (total : Nat) (part : Addr × List Byte) : Prop where
  isString : IsString mem part.1 part.2
  apart : (⟨part.1, part.2.length + 1⟩ : Range).Disjoint ⟨dest, total + 1⟩

private theorem prefix_subset {n : Nat} (le : n ≤ total) (dest : Addr) :
    (⟨dest, n + 1⟩ : Range).Subset ⟨dest, total + 1⟩ := by
  intro x hit
  rw [mem_range] at hit ⊢
  omega

theorem Source.kept {part : Addr × List Byte} (source : Source mem₀ dest total part)
    (size : part.2.length < 2 ^ 32)
    (frame : ∀ x ∉ (⟨dest, total + 1⟩ : Range), mem x = mem₀ x) : IsString mem part.1 part.2 :=
  source.isString.congr size fun x hit => frame x (source.apart x hit)

private theorem foldl_strcat {parts : List (Addr × List Byte)} {s : List Byte}
    (sources : ∀ p ∈ parts, Source mem₀ dest total p) (dst : IsString mem dest s)
    (size : s.length + (joined parts).length ≤ total) (room : total < 2 ^ 32)
    (frame : ∀ x ∉ (⟨dest, total + 1⟩ : Range), mem x = mem₀ x) :
    ∃ mem', (parts.map Prod.fst).foldlM (fun mem src => strcat dest src mem) mem = some mem' ∧
      IsString mem' dest (s ++ joined parts) ∧
      ∀ x ∉ (⟨dest, total + 1⟩ : Range), mem' x = mem₀ x := by
  induction parts generalizing mem s with
  | nil =>
    refine ⟨mem, rfl, ?_, frame⟩
    rw [joined, List.flatMap_nil, List.append_nil]
    exact dst
  | cons p parts ih =>
    have whole : (joined (p :: parts)).length = p.2.length + (joined parts).length := by
      rw [joined, List.flatMap_cons, List.length_append, joined]
    have source := sources p (List.mem_cons_self ..)
    have grown : s.length + p.2.length ≤ total := by omega
    obtain ⟨mem₁, appended, dst₁, frame₁⟩ := strcat_appends dst
      (source.kept (by omega) frame) (by omega)
      (source.apart.mono (Range.Subset.refl _) (prefix_subset grown dest))
    have same : ∀ x ∉ (⟨dest, total + 1⟩ : Range), mem₁ x = mem₀ x := by
      intro x outside
      rw [frame₁ x fun hit => outside (prefix_subset grown dest x hit), frame x outside]
    obtain ⟨mem', run, dst', frame'⟩ := ih (fun q hq => sources q (List.mem_cons_of_mem p hq)) dst₁
      (by rw [List.length_append]; omega) same
    refine ⟨mem', ?_, ?_, frame'⟩
    · rw [List.map_cons, List.foldlM_cons, appended]
      exact run
    · rwa [List.append_assoc] at dst'

/-- Strings that the destination does not reach are put together in it, in their order, whatever
lies between them and however they overlap each other; nothing else in memory changes, and the
result measures what the strings measure together. -/
theorem assemble_joins (first : Addr × List Byte) (parts : List (Addr × List Byte))
    (room : (joined (first :: parts)).length < 2 ^ 32)
    (sources : ∀ p ∈ first :: parts, Source mem₀ dest (joined (first :: parts)).length p) :
    ∃ mem', assemble dest first.1 (parts.map Prod.fst) mem₀ = some mem' ∧
      IsString mem' dest (joined (first :: parts)) ∧
      (∀ x ∉ (⟨dest, (joined (first :: parts)).length + 1⟩ : Range), mem' x = mem₀ x) ∧
      strlen dest mem' = some (BitVec.ofNat 32 (joined (first :: parts)).length) ∧
      ∀ n : Word, (strnlen dest n mem').toNat = min n.toNat (joined (first :: parts)).length := by
  have whole : (joined (first :: parts)).length = first.2.length + (joined parts).length := by
    rw [joined, List.flatMap_cons, List.length_append, joined]
  have source := sources first (List.mem_cons_self ..)
  have front : first.2.length ≤ (joined (first :: parts)).length := by omega
  obtain ⟨mem₁, copy, dst₁, frame₁⟩ := strcpy_copies source.isString (by omega)
    (source.apart.mono (Range.Subset.refl _) (prefix_subset front dest))
  obtain ⟨mem', run, dst', frame'⟩ := foldl_strcat
    (fun q hq => sources q (List.mem_cons_of_mem first hq)) dst₁ whole.ge room
    fun x outside => frame₁ x fun hit => outside (prefix_subset front dest x hit)
  refine ⟨mem', ?_, dst', frame', strlen_eq dst' room, strnlen_eq dst' room⟩
  rw [assemble, copy]
  exact run

end Assemble

/-- Memory with the string `ab` at 0x100. -/
def withAb : Mem := fun x => if x = 0x100#32 then 0x61 else if x = 0x101#32 then 0x62 else 0

private theorem withAb_isString : IsString withAb 0x100#32 [0x61, 0x62] where
  bytes i less := by
    have cases : i = 0 ∨ i = 1 := by
      simp only [List.length_cons, List.length_nil] at less
      omega
    rcases cases with rfl | rfl <;> rfl
  ends := rfl
  proper := by decide

/-- The string `ab`, its last letter and `ab` again. -/
theorem assemble_joins_abbab : ∃ mem', assemble 0x200#32 0x100#32 [0x101#32, 0x100#32] withAb =
    some mem' ∧ IsString mem' 0x200#32 [0x61, 0x62, 0x62, 0x61, 0x62] ∧
    strlen 0x200#32 mem' = some 5#32 := by
  have letter : IsString withAb 0x101#32 [0x62] := by
    constructor
    case bytes =>
      intro i less
      obtain rfl : i = 0 := Nat.lt_one_iff.mp less
      rfl
    case ends => rfl
    case proper => decide
  have apart (a : Addr) (n : Nat) (low : a.toNat + n ≤ 0x200) :
      (⟨a, n⟩ : Range).Disjoint ⟨0x200#32, 6⟩ := by
    intro x inside hit
    rw [mem_range] at inside hit
    bv_omega
  have sources : ∀ p ∈ [(0x100#32, [0x61#8, 0x62#8]), (0x101#32, [0x62#8]),
      (0x100#32, [0x61#8, 0x62#8])], Source withAb 0x200#32 5 p := by
    intro p hp
    simp only [List.mem_cons, List.not_mem_nil, or_false] at hp
    rcases hp with rfl | rfl | rfl
    · exact ⟨withAb_isString, apart _ _ (by decide)⟩
    · exact ⟨letter, apart _ _ (by decide)⟩
    · exact ⟨withAb_isString, apart _ _ (by decide)⟩
  obtain ⟨mem', run, joins, -, length, -⟩ := assemble_joins _ _ (by decide) sources
  exact ⟨mem', run, joins, length⟩

end LTZVisor.Runtime.Concat
