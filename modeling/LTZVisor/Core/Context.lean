/- LTZVisor/Core/Context
   kind: spec
   digest: What each part of the creation of a guest leaves in its context. -/

import LTZVisor.Core.NsguestCreate

set_option autoImplicit false
set_option relaxedAutoImplicit false

namespace LTZVisor.Core.Context

open LTZVisor.Lib.Memory LTZVisor.Lib.Block LTZVisor.Arm LTZVisor.Arch.Vcpu
open LTZVisor.Arch.Cp15Switch LTZVisor.Monitor.Handlers LTZVisor.Runtime.Strings
open LTZVisor.Core.NsguestCreate

def coreRange (env : Env) : Range := ⟨env.nsGuest, 120⟩
def cp15Range (env : Env) : Range := ⟨env.nsGuest + BitVec.ofNat 32 cp15Offset, 80⟩
def attributeRange (env : Env) : Range := ⟨env.nsGuest + BitVec.ofNat 32 nameOffset, 40⟩

variable {env : Env} {c : Scratch env.stack} {g : Addr} {mem : Mem}

theorem frame_after {rs : List Range} {m m' : Mem} (c : Scratch env.stack) (h : Frame rs m m')
    (hs : env.stack ∈ rs) (k : Nat) : Frame rs m (c.after k m') :=
  fun x hx => (c.keeps k m' x (hx _ hs)).trans (h x hx)

private theorem core_subset (env : Env) : (coreRange env).Subset env.nsGuestRange :=
  Range.subset_of_offset (by simp [tzmachineSize])

private theorem cp15_subset (env : Env) : (cp15Range env).Subset env.nsGuestRange :=
  Range.subset_of_offset (by
    simp only [cp15Offset, tzmachineSize]
    bv_omega)

private theorem attribute_subset (env : Env) : (attributeRange env).Subset env.nsGuestRange :=
  Range.subset_of_offset (by
    simp only [nameOffset, tzmachineSize]
    bv_omega)

private theorem core_cp15 (env : Env) : (coreRange env).Disjoint (cp15Range env) := by
  apply Range.disjoint_of_apart <;> simp only [cp15Offset] <;> bv_omega

private theorem core_attribute (env : Env) : (coreRange env).Disjoint (attributeRange env) := by
  apply Range.disjoint_of_apart <;> simp only [nameOffset] <;> bv_omega

private theorem cp15_attribute (env : Env) : (cp15Range env).Disjoint (attributeRange env) := by
  apply Range.disjoint_of_apart <;> simp only [cp15Offset, nameOffset] <;> bv_omega

private theorem read32_after (c : Scratch env.stack) (k : Nat) (mem : Mem) {a : Addr}
    (apart : (⟨a, 4⟩ : Range).Disjoint env.stack) : read32 (c.after k mem) a = read32 mem a :=
  read32_congr fun x hx => c.keeps k mem x (apart x hx)

/-- The entry is an object of its own. -/
structure EntryApart (env : Env) (g : Addr) : Prop where
  nsGuest : (⟨g, nsguestConfEntrySize⟩ : Range).Disjoint env.nsGuestRange
  stack : (⟨g, nsguestConfEntrySize⟩ : Range).Disjoint env.stack

private theorem booting_inside (env : Env) :
    (⟨env.nsGuest + BitVec.ofNat 32 bootingOffset, 4⟩ : Range).Subset (attributeRange env) :=
  Range.subset_of_offset (by
    simp only [bootingOffset, nameOffset]
    bv_omega)

private theorem id_inside (env : Env) :
    (⟨env.nsGuest + BitVec.ofNat 32 idOffset, 4⟩ : Range).Subset (attributeRange env) :=
  Range.subset_of_offset (by
    simp only [idOffset, nameOffset]
    bv_omega)

theorem EntryApart.attribute (entry : EntryApart env g) :
    (⟨g, nsguestConfEntrySize⟩ : Range).Disjoint (attributeRange env) :=
  entry.nsGuest.mono (Range.Subset.refl _) (attribute_subset env)

def numbered (env : Env) (g : Addr) (mem : Mem) : Mem :=
  write32 (write32 mem (env.nsGuest + BitVec.ofNat 32 bootingOffset) 1#32)
    (env.nsGuest + BitVec.ofNat 32 idOffset) (gceId mem g)

private theorem initAttributes_eq (c : Scratch env.stack) (entry : EntryApart env g) :
    initAttributes env c g mem =
      (strcpy (env.nsGuest + BitVec.ofNat 32 nameOffset) (gceName g) (numbered env g mem)).map
        (c.after 0) := by
  have source : (⟨g + 32#32, 4⟩ : Range).Subset ⟨g, nsguestConfEntrySize⟩ :=
    Range.subset_of_offset (by
      simp only [nsguestConfEntrySize]
      bv_omega)
  have same : gceId (write32 mem (env.nsGuest + BitVec.ofNat 32 bootingOffset) 1#32) g =
      gceId mem g :=
    read32_writeWords_of_disjoint (entry.attribute.mono source (booting_inside env)).symm
  unfold initAttributes
  dsimp only
  rw [same, Option.map_eq_bind]
  rfl

private theorem numbered_frame : Frame [attributeRange env, env.stack] mem (numbered env g mem) :=
  Frame.writeWords (Frame.writeWords (Frame.refl _ _) (List.mem_cons_self ..) (booting_inside env))
    (List.mem_cons_self ..) (id_inside env)

private theorem attributes_initialized (c : Scratch env.stack) (entry : EntryApart env g) {k : Nat}
    (ends : EndsAt mem (gceName g) k) (fits : k < 30) :
    ∃ mem', initAttributes env c g mem = some mem' ∧
      Frame [attributeRange env, env.stack] mem mem' ∧
      read32 mem' (env.nsGuest + BitVec.ofNat 32 idOffset) = gceId mem g ∧
      ∀ i ≤ k, mem' (env.nsGuest + BitVec.ofNat 32 nameOffset + BitVec.ofNat 32 i) =
        mem (gceName g + BitVec.ofNat 32 i) := by
  have name : (⟨env.nsGuest + BitVec.ofNat 32 nameOffset, k + 1⟩ : Range).Subset
      (attributeRange env) :=
    Range.subset_of_offset (by bv_omega)
  have source : (⟨g, k + 1⟩ : Range).Subset ⟨g, nsguestConfEntrySize⟩ :=
    Range.subset_of_offset (by
      simp only [nsguestConfEntrySize]
      bv_omega)
  have frame : Frame [attributeRange env, env.stack] mem (numbered env g mem) := numbered_frame
  have same : ∀ i ≤ k, numbered env g mem (gceName g + BitVec.ofNat 32 i) =
      mem (gceName g + BitVec.ofNat 32 i) := by
    intro i hi
    have inside : gceName g + BitVec.ofNat 32 i ∈ (⟨g, nsguestConfEntrySize⟩ : Range) := by
      apply source
      rw [mem_range, gceName]
      bv_omega
    exact frame_pair frame (entry.attribute _ inside) (entry.stack _ inside)
  rw [initAttributes_eq c entry, strcpy_eq (numbered env g mem) (ends.congr same) (by omega)
    (entry.attribute.mono source name), Option.map_some]
  refine ⟨_, rfl, ?_, ?_, ?_⟩
  · exact frame_after c (frame_copied frame (List.mem_cons_self ..) name) (by simp) 0
  · have stored : read32 (numbered env g mem) (env.nsGuest + BitVec.ofNat 32 idOffset) =
        gceId mem g := read32_writeWords_singleton _ _ _
    have away := env.stack_nsGuest.symm.mono ((id_inside env).trans (attribute_subset env))
      (Range.Subset.refl _)
    rw [read32_after c 0 _ away, ← stored]
    apply read32_congr
    intro x hx
    apply copied_of_not_mem
    rw [mem_range, idOffset] at hx
    rw [mem_range, nameOffset]
    bv_omega
  · intro i hi
    have away : env.nsGuest + BitVec.ofNat 32 nameOffset + BitVec.ofNat 32 i ∉ env.stack := by
      refine env.stack_nsGuest.symm _ (attribute_subset env _ (name _ ?_))
      rw [mem_range]
      bv_omega
    rw [c.keeps 0 _ _ away, copied_at (by omega) (by omega), same i hi]

private theorem index_inj {f f' : CoreReg} : f.index = f'.index ↔ f = f' := by
  constructor
  · intro same
    have left := all_index f
    rw [same, all_index f', Option.some_inj] at left
    exact left.symm
  · exact congrArg _

private theorem core_initialized (c : Scratch env.stack) (entry : EntryApart env g) (mem : Mem) :
    Frame [coreRange env, env.stack] mem (initCore env c g mem) ∧
      ∀ f, coreField (initCore env c g mem) env.nsGuest f =
        if f = .lrMon then gceBinLoad mem g else if f = .spsrMon then 0x193#32 else 0#32 := by
  have inside : ∀ f : CoreReg, (⟨env.nsGuest + BitVec.ofNat 32 f.offset, 4⟩ : Range).Subset
      (coreRange env) := by
    intro f
    have bound := f.index_lt
    apply Range.subset_of_offset
    rw [CoreReg.offset]
    bv_omega
  have stack : ∀ f : CoreReg,
      (⟨env.nsGuest + BitVec.ofNat 32 f.offset, 4⟩ : Range).Disjoint env.stack := fun f =>
    env.stack_nsGuest.symm.mono ((inside f).trans (core_subset env)) (Range.Subset.refl _)
  have cleared : memset (env.nsGuest + BitVec.ofNat 32 coreOffset) 0#32 120#32 mem =
      filled mem (coreRange env) 0#8 := by
    rw [memset_eq, coreOffset, BitVec.add_zero]
    rfl
  have frame1 : Frame [coreRange env, env.stack] mem
      (c.after 1 (filled mem (coreRange env) 0#8)) :=
    frame_after c (frame_filled (Frame.refl _ _) (List.mem_cons_self ..) (Range.Subset.refl _))
      (by simp) 1
  have load : gceBinLoad (c.after 1 (filled mem (coreRange env) 0#8)) g = gceBinLoad mem g := by
    apply read32_congr
    intro x hx
    have member : x ∈ (⟨g, nsguestConfEntrySize⟩ : Range) :=
      Range.subset_of_offset (by
        simp only [nsguestConfEntrySize]
        bv_omega) x hx
    apply frame_pair frame1
    · exact fun hit => entry.nsGuest x member (core_subset env x hit)
    · exact entry.stack x member
  have zero : ∀ f : CoreReg, coreField (c.after 1 (filled mem (coreRange env) 0#8)) env.nsGuest f =
      0#32 := fun f =>
    (read32_after c 1 _ (stack f)).trans (read32_filled_zero (inside f))
  unfold initCore
  dsimp only
  rw [cleared, load]
  generalize c.after 1 (filled mem (coreRange env) 0#8) = mem1 at frame1 zero ⊢
  constructor
  · refine frame_after c ?_ (by simp) 2
    refine Frame.writeWords ?_ (List.mem_cons_self ..) (inside .spsrMon)
    exact Frame.writeWords frame1 (List.mem_cons_self ..) (inside .lrMon)
  · intro f
    have store : ∀ (m : Mem) (f' : CoreReg) (v : Word),
        coreField (write32 m (env.nsGuest + BitVec.ofNat 32 f'.offset) v) env.nsGuest f =
          if f = f' then v else coreField m env.nsGuest f := by
      intro m f' v
      have bound := f.index_lt
      have bound' := f'.index_lt
      rw [coreField, CoreReg.offset, CoreReg.offset,
        read32_write32_index m _ (by omega) (by omega)]
      simp only [index_inj]
      rfl
    rw [coreField, read32_after c 2 _ (stack f), ← coreField, store, store, zero]
    by_cases lr : f = .lrMon
    · rw [lr]
      rfl
    · rw [if_neg lr, if_neg lr]

private theorem cp15_initialized (c : Scratch env.stack) (mem : Mem) :
    Frame [cp15Range env, env.stack] mem (initCp15 env c mem) ∧
      ∀ i < 20, cp15Field (initCp15 env c mem) (env.nsGuest + BitVec.ofNat 32 cp15Offset) i =
        if i = 1 then 0x00c50078#32 else if i = 2 then 6#32 else 0#32 := by
  have inside : ∀ i < 20, (⟨env.nsGuest + BitVec.ofNat 32 cp15Offset + BitVec.ofNat 32 (4 * i), 4⟩ :
      Range).Subset (cp15Range env) := fun i hi => Range.subset_of_offset (by bv_omega)
  have stack : ∀ i < 20, (⟨env.nsGuest + BitVec.ofNat 32 cp15Offset + BitVec.ofNat 32 (4 * i), 4⟩ :
      Range).Disjoint env.stack := fun i hi =>
    env.stack_nsGuest.symm.mono ((inside i hi).trans (cp15_subset env)) (Range.Subset.refl _)
  have sctlr : cp15Place env .sctlr =
      env.nsGuest + BitVec.ofNat 32 cp15Offset + BitVec.ofNat 32 (4 * 1) := rfl
  have actlr : cp15Place env .actlr =
      env.nsGuest + BitVec.ofNat 32 cp15Offset + BitVec.ofNat 32 (4 * 2) := rfl
  have cleared : memset (env.nsGuest + BitVec.ofNat 32 cp15Offset) 0#32 80#32 mem =
      filled mem (cp15Range env) 0#8 := by
    rw [memset_eq]
    rfl
  unfold initCp15
  dsimp only
  rw [cleared, sctlr, actlr]
  constructor
  · refine frame_after c ?_ (by simp) 5
    refine Frame.writeWords ?_ (List.mem_cons_self ..) (inside 2 (by omega))
    refine frame_after c ?_ (by simp) 4
    refine Frame.writeWords ?_ (List.mem_cons_self ..) (inside 1 (by omega))
    refine frame_after c ?_ (by simp) 3
    exact frame_filled (Frame.refl _ _) (List.mem_cons_self ..) (Range.Subset.refl _)
  · intro i hi
    rw [cp15Field, read32_after c 5 _ (stack i hi), read32_write32_index _ _ (by omega) (by omega),
      read32_after c 4 _ (stack i hi), read32_write32_index _ _ (by omega) (by omega),
      read32_after c 3 _ (stack i hi), read32_filled_zero (inside i hi)]
    by_cases one : i = 1
    · rw [one]
      rfl
    · rw [if_neg one, if_neg one]

private theorem entry_same (entry : EntryApart env g) {mem' : Mem}
    (frame : Frame [env.nsGuestRange, env.stack] mem mem') {x : Addr}
    (hx : x ∈ (⟨g, nsguestConfEntrySize⟩ : Range)) : mem' x = mem x :=
  frame_pair frame (entry.nsGuest x hx) (entry.stack x hx)

theorem entry_word (entry : EntryApart env g) {mem' : Mem}
    (frame : Frame [env.nsGuestRange, env.stack] mem mem') {o : Nat}
    (inside : o + 4 ≤ nsguestConfEntrySize) :
    read32 mem' (g + BitVec.ofNat 32 o) = read32 mem (g + BitVec.ofNat 32 o) := by
  apply read32_congr
  intro x hx
  apply entry_same entry frame
  refine Range.subset_of_offset ?_ x hx
  rw [nsguestConfEntrySize] at *
  bv_omega

/-- The context describes the guest of the configuration in `mem0`, before its first instruction. -/
structure Described (env : Env) (g : Addr) (mem0 mem : Mem) : Prop where
  id : read32 mem (env.nsGuest + BitVec.ofNat 32 idOffset) = gceId mem0 g
  name : ∃ k < 30, EndsAt mem0 (gceName g) k ∧ ∀ i ≤ k,
    mem (env.nsGuest + BitVec.ofNat 32 nameOffset + BitVec.ofNat 32 i) =
      mem0 (gceName g + BitVec.ofNat 32 i)
  core : ∀ f, coreField mem env.nsGuest f =
    if f = .lrMon then gceBinLoad mem0 g else if f = .spsrMon then 0x193#32 else 0#32
  cp15 : ∀ i < 20, cp15Field mem (env.nsGuest + BitVec.ofNat 32 cp15Offset) i =
    if i = 1 then 0x00c50078#32 else if i = 2 then 6#32 else 0#32

theorem Described.congr {mem0 mem' : Mem} (described : Described env g mem0 mem)
    (same : ∀ x ∈ env.nsGuestRange, mem' x = mem x) : Described env g mem0 mem' := by
  constructor
  case id =>
    rw [← described.id]
    apply read32_congr
    intro x hx
    apply same
    refine Range.subset_of_offset ?_ x hx
    simp only [idOffset, tzmachineSize]
    bv_omega
  case name =>
    obtain ⟨k, fits, ends, bytes⟩ := described.name
    refine ⟨k, fits, ends, fun i hi => ?_⟩
    rw [← bytes i hi]
    apply same
    apply attribute_subset env
    rw [attributeRange, mem_range]
    bv_omega
  case core =>
    intro f
    rw [← described.core]
    exact coreField_congr f fun x hx => same x (core_subset env x hx)
  case cp15 =>
    intro i hi
    rw [← described.cp15 i hi]
    apply read32_congr
    intro x hx
    apply same
    apply cp15_subset env
    exact Range.subset_of_offset (by bv_omega) x hx

theorem context_described (c : Scratch env.stack) (entry : EntryApart env g)
    (name : ∃ k < 30, EndsAt mem (gceName g) k) :
    ∃ mem1, initAttributes env c g mem = some mem1 ∧
      Described env g mem (initCp15 env c (initCore env c g mem1)) ∧
      Frame [env.nsGuestRange, env.stack] mem (initCp15 env c (initCore env c g mem1)) := by
  obtain ⟨k, fits, ends⟩ := name
  obtain ⟨mem1, run, frame1, id1, name1⟩ := attributes_initialized c entry ends fits
  obtain ⟨frame2, core2⟩ := core_initialized c entry mem1
  obtain ⟨frame3, cp153⟩ := cp15_initialized c (initCore env c g mem1)
  refine ⟨mem1, run, ?_⟩
  generalize initCore env c g mem1 = mem2 at *
  generalize initCp15 env c mem2 = mem3 at *
  have widen : ∀ {r : Range} {m m' : Mem}, r.Subset env.nsGuestRange →
      Frame [r, env.stack] m m' → Frame [env.nsGuestRange, env.stack] m m' := by
    intro r m m' inside frame
    refine frame_widen frame fun r' hr' => ?_
    simp only [List.mem_cons, List.not_mem_nil, or_false] at hr'
    rcases hr' with rfl | rfl
    · exact ⟨_, List.mem_cons_self .., inside⟩
    · exact ⟨_, by simp, Range.Subset.refl _⟩
  have wide1 := widen (attribute_subset env) frame1
  -- A part of the context outlives the stores to another part and to the stack.
  have keep : ∀ (r s : Range) (m m' : Mem), Frame [r, env.stack] m m' → s.Disjoint r →
      s.Subset env.nsGuestRange → ∀ x ∈ s, m' x = m x := by
    intro r s m m' frame apart inside x hx
    apply frame_pair frame (apart x hx)
    exact fun hit => env.stack_nsGuest x hit (inside x hx)
  have attributesKept : ∀ x ∈ attributeRange env, mem3 x = mem1 x := by
    intro x hx
    have third : mem3 x = mem2 x :=
      keep _ _ _ _ frame3 (cp15_attribute env).symm (attribute_subset env) x hx
    have second : mem2 x = mem1 x :=
      keep _ _ _ _ frame2 (core_attribute env).symm (attribute_subset env) x hx
    exact third.trans second
  refine ⟨?_, (wide1.trans (widen (core_subset env) frame2)).trans
    (widen (cp15_subset env) frame3)⟩
  constructor
  case id =>
    rw [← id1]
    apply read32_congr
    intro x hx
    apply attributesKept
    rw [mem_range, idOffset] at hx
    rw [attributeRange, mem_range, nameOffset]
    bv_omega
  case name =>
    refine ⟨k, fits, ends, fun i hi => ?_⟩
    rw [← name1 i hi]
    apply attributesKept
    rw [attributeRange, mem_range]
    bv_omega
  case core =>
    intro f
    have load : gceBinLoad mem1 g = gceBinLoad mem g := entry_word entry wide1 (by decide)
    have same : coreField mem3 env.nsGuest f = coreField mem2 env.nsGuest f :=
      coreField_congr f (keep _ _ _ _ frame3 (core_cp15 env) (core_subset env))
    rw [same, core2, load]
  case cp15 => exact cp153

end LTZVisor.Core.Context
