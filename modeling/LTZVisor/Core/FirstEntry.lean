/- LTZVisor/Core/FirstEntry
   kind: property
   digest: From the creation of the non-secure guest to its first instruction. -/

import LTZVisor.Core.Context
import LTZVisor.Monitor.Guests

set_option autoImplicit false
set_option relaxedAutoImplicit false

namespace LTZVisor.Core.FirstEntry

open LTZVisor.Lib.Memory LTZVisor.Lib.Block LTZVisor.Arm LTZVisor.Arm.Instr LTZVisor.Arch.Vcpu
open LTZVisor.Arch.Cp15Switch LTZVisor.Boards.Zedboard LTZVisor.Monitor.Handlers
open LTZVisor.Monitor.Scheduler LTZVisor.Monitor.BoardSmc LTZVisor.Monitor.Switch
open LTZVisor.Monitor.Guests LTZVisor.Runtime.Strings LTZVisor.Core.NsguestCreate
open LTZVisor.Core.Context

def binSize (mem : Mem) (g : Addr) : Word := gceBinEnd mem g - gceBinStart mem g
def binSource (mem : Mem) (g : Addr) : Range := ⟨gceBinStart mem g, (binSize mem g).toNat⟩
def binTarget (mem : Mem) (g : Addr) : Range := ⟨gceBinLoad mem g, (binSize mem g).toNat⟩

def trdSize (mem : Mem) (g : Addr) : Word := gceTrdEnd mem g - gceTrdStart mem g
def trdSource (mem : Mem) (g : Addr) : Range := ⟨gceTrdStart mem g, (trdSize mem g).toNat⟩
def trdTarget (mem : Mem) (g : Addr) : Range := ⟨gceTrdLoad mem g, (trdSize mem g).toNat⟩

/-- The ranges that the configuration names, with the two that are the monitor's. -/
def regions (env : Env) (mem : Mem) (g : Addr) : List Range :=
  [env.nsGuestRange, env.stack, binSource mem g, binTarget mem g] ++
    if gceTrdInit mem g ≠ 0#32 then [trdSource mem g, trdTarget mem g] else []

structure WellFormed (env : Env) (mem : Mem) (g : Addr) : Prop where
  entry : EntryApart env g
  name : ∃ k < 30, EndsAt mem (gceName g) k
  bin : (binSize mem g).toNat < 2 ^ 31
  trd : gceTrdInit mem g ≠ 0#32 → (trdSize mem g).toNat < 2 ^ 31
  apart : (regions env mem g).Pairwise Range.Disjoint

def trdFields (g : Addr) : Range := ⟨g + 36#32, 16⟩

/-- What the configuration in `mem0` asks for is in `mem`. -/
structure Placed (env : Env) (g : Addr) (mem0 mem : Mem) : Prop extends
    Described env g mem0 mem where
  image : ∀ i < (binSize mem0 g).toNat,
    mem (gceBinLoad mem0 g + BitVec.ofNat 32 i) = mem0 (gceBinStart mem0 g + BitVec.ofNat 32 i)
  ramdisk : gceTrdInit mem0 g ≠ 0#32 → ∀ i < (trdSize mem0 g).toNat,
    mem (gceTrdLoad mem0 g + BitVec.ofNat 32 i) = mem0 (gceTrdStart mem0 g + BitVec.ofNat 32 i)

def NsCp15 (m : Core) : Prop := ∀ r : Cp15Reg, m.cp15 (r.bank .nonSecure) r =
  if r = .sctlr then 0x00c50078#32 else if r = .actlr then 6#32 else 0#32

/-- A byte of the image or of the ramdisk, once they are loaded. -/
def Loads (mem : Mem) (g x : Addr) : Prop :=
  x ∈ binTarget mem g ∨ gceTrdInit mem g ≠ 0#32 ∧ x ∈ trdTarget mem g

/-- The machine `m1` that creation leaves of `m`. -/
structure Created (env : Env) (g : Addr) (m m1 : Core) : Prop where
  placed : Placed env g m.mem m1.mem
  cp15 : NsCp15 m1
  world : m1.world = .secure
  pointer : m1.cp15 .secure .tpidrprw = env.nsGuest
  others : ∀ x, x ∉ env.nsGuestRange → x ∉ env.stack → ¬Loads m.mem g x → m1.mem x = m.mem x

/-- The secure guest has come from `m1` to its first call of the scheduler, and has left the guest
to be as it was created. -/
structure FirstYield (env : Env) (g : Addr) (m m1 s : Core) : Prop extends SecRun env m1 s where
  sched : s.regs .usr .r0 = ltzvisorSchedSyscall
  sp : s.regs .mon .sp = env.stackTop
  cp15 : ∀ r : Cp15Reg, s.cp15 (r.bank .nonSecure) r = m1.cp15 (r.bank .nonSecure) r
  loaded : ∀ x, Loads m.mem g x → s.mem x = m1.mem x

/-- The non-secure guest `n` at its entry point, when the secure guest has yielded in `s`. -/
structure Entered (env : Env) (g : Addr) (m s n : Core) : Prop where
  pc : n.pc = gceBinLoad m.mem g
  cpsr : n.cpsr = Psr.ofWord 0x193#32
  world : n.world = .nonSecure
  zero : ∀ f : CoreReg, f ≠ .lrMon → f ≠ .spsrMon → n.get f.slot = 0#32
  placed : Placed env g m.mem n.mem
  cp15 : NsCp15 n
  others : ∀ x, x ∉ env.stack → n.mem x = s.mem x

variable {env : Env} {c : Scratch env.stack} {g : Addr} {mem : Mem}

private theorem binTarget_byte {i : Nat} (hi : i < (binSize mem g).toNat) :
    gceBinLoad mem g + BitVec.ofNat 32 i ∈ binTarget mem g := by
  rw [binTarget, mem_range]
  bv_omega

private theorem trdTarget_byte {i : Nat} (hi : i < (trdSize mem g).toNat) :
    gceTrdLoad mem g + BitVec.ofNat 32 i ∈ trdTarget mem g := by
  rw [trdTarget, mem_range]
  bv_omega

def imageLoaded (c : Scratch env.stack) (g : Addr) (mem : Mem) : Mem :=
  c.after 6 (copied mem (gceBinLoad mem g) (gceBinStart mem g) (binSize mem g).toNat)

private theorem loadGuest_eq (c : Scratch env.stack) (small : (binSize mem g).toNat < 2 ^ 31)
    (apart : (binSource mem g).Disjoint (binTarget mem g)) :
    loadGuest env c g mem =
      (if gceTrdInit (imageLoaded c g mem) g ≠ 0#32 then
        memcpy (gceTrdLoad (imageLoaded c g mem) g) (gceTrdStart (imageLoaded c g mem) g)
          (trdSize (imageLoaded c g mem) g) (imageLoaded c g mem)
      else some (imageLoaded c g mem)).map (c.after 7) := by
  have image := memcpy_eq mem small apart
  unfold loadGuest
  rw [← binSize, image, Option.bind_eq_bind, Option.bind_some]
  change (if gceTrdInit (imageLoaded c g mem) g ≠ 0#32 then
      (memcpy (gceTrdLoad (imageLoaded c g mem) g) (gceTrdStart (imageLoaded c g mem) g)
        (trdSize (imageLoaded c g mem) g) (imageLoaded c g mem)).bind fun mem =>
          some (c.after 7 mem)
    else some (c.after 7 (imageLoaded c g mem))) = _
  split_ifs
  · rw [Option.map_eq_bind]
    rfl
  · rfl

/-- A block that can be loaded without a byte of it, or of the monitor's own, lost. -/
structure Loadable (env : Env) (source target : Range) : Prop where
  sourceNsGuest : source.Disjoint env.nsGuestRange
  sourceStack : source.Disjoint env.stack
  targetNsGuest : target.Disjoint env.nsGuestRange
  targetStack : target.Disjoint env.stack
  apart : source.Disjoint target

theorem WellFormed.bin_loadable (well : WellFormed env mem g) :
    Loadable env (binSource mem g) (binTarget mem g) := by
  have apart := well.apart.sublist (List.sublist_append_left ..)
  simp only [List.pairwise_cons, List.mem_cons, List.not_mem_nil, or_false, forall_eq_or_imp,
    forall_eq] at apart
  obtain ⟨⟨-, nsSource, nsTarget⟩, ⟨stackSource, stackTarget⟩, between, -⟩ := apart
  exact ⟨nsSource.symm, stackSource.symm, nsTarget.symm, stackTarget.symm, between⟩

theorem WellFormed.trd_loadable (well : WellFormed env mem g) (ramdisk : gceTrdInit mem g ≠ 0#32) :
    Loadable env (trdSource mem g) (trdTarget mem g) ∧
      (trdSource mem g).Disjoint (binTarget mem g) ∧
      (binTarget mem g).Disjoint (trdTarget mem g) := by
  have apart := well.apart
  rw [regions, if_pos ramdisk] at apart
  simp only [List.cons_append, List.nil_append, List.pairwise_cons, List.mem_cons,
    List.not_mem_nil, or_false, forall_eq_or_imp, forall_eq] at apart
  obtain ⟨⟨-, -, -, nsSource, nsTarget⟩, ⟨-, -, stackSource, stackTarget⟩, -,
    ⟨binSource, binTarget⟩, between, -⟩ := apart
  exact ⟨⟨nsSource.symm, stackSource.symm, nsTarget.symm, stackTarget.symm, between⟩,
    binSource.symm, binTarget⟩

private theorem block_loaded (c : Scratch env.stack) (k : Nat) {mem0 : Mem} {dst src : Addr}
    {n : Nat} (size : n < 2 ^ 31) (loadable : Loadable env ⟨src, n⟩ ⟨dst, n⟩)
    (same : ∀ x ∈ (⟨src, n⟩ : Range), mem x = mem0 x) :
    (∀ i < n, c.after k (copied mem dst src n) (dst + BitVec.ofNat 32 i) =
      mem0 (src + BitVec.ofNat 32 i)) ∧
    Frame [⟨dst, n⟩, env.stack] mem (c.after k (copied mem dst src n)) := by
  constructor
  · intro i hi
    have target : dst + BitVec.ofNat 32 i ∈ (⟨dst, n⟩ : Range) := by
      rw [mem_range]
      bv_omega
    have source : src + BitVec.ofNat 32 i ∈ (⟨src, n⟩ : Range) := by
      rw [mem_range]
      bv_omega
    rw [c.keeps _ _ _ (loadable.targetStack _ target), copied_at (by omega) hi, same _ source]
  · exact frame_after c
      (frame_copied (Frame.refl _ _) (List.mem_cons_self ..) (Range.Subset.refl _)) (by simp) k

/-- The memory `mem'` after both blocks are loaded into `mem`, which has the configuration and the
blocks of `mem0`. -/
structure GuestLoaded (env : Env) (g : Addr) (mem0 mem mem' : Mem) : Prop where
  image : ∀ i < (binSize mem0 g).toNat,
    mem' (gceBinLoad mem0 g + BitVec.ofNat 32 i) = mem0 (gceBinStart mem0 g + BitVec.ofNat 32 i)
  ramdisk : gceTrdInit mem0 g ≠ 0#32 → ∀ i < (trdSize mem0 g).toNat,
    mem' (gceTrdLoad mem0 g + BitVec.ofNat 32 i) = mem0 (gceTrdStart mem0 g + BitVec.ofNat 32 i)
  others : ∀ x, x ∉ env.stack → ¬Loads mem0 g x → mem' x = mem x

private theorem image_loaded (c : Scratch env.stack) {mem0 : Mem} (well : WellFormed env mem0 g)
    (frame : Frame [env.nsGuestRange, env.stack] mem0 mem) :
    (∀ i < (binSize mem0 g).toNat, imageLoaded c g mem (gceBinLoad mem0 g + BitVec.ofNat 32 i) =
      mem0 (gceBinStart mem0 g + BitVec.ofNat 32 i)) ∧
    Frame [binTarget mem0 g, env.stack] mem (imageLoaded c g mem) ∧
    loadGuest env c g mem =
      (if gceTrdInit (imageLoaded c g mem) g ≠ 0#32 then
        memcpy (gceTrdLoad (imageLoaded c g mem) g) (gceTrdStart (imageLoaded c g mem) g)
          (trdSize (imageLoaded c g mem) g) (imageLoaded c g mem)
      else some (imageLoaded c g mem)).map (c.after 7) := by
  have loadable := well.bin_loadable
  have load : gceBinLoad mem g = gceBinLoad mem0 g := entry_word well.entry frame (by decide)
  have start : gceBinStart mem g = gceBinStart mem0 g := entry_word well.entry frame (by decide)
  have stop : gceBinEnd mem g = gceBinEnd mem0 g := entry_word well.entry frame (by decide)
  have size : binSize mem g = binSize mem0 g := by rw [binSize, binSize, start, stop]
  have shape : imageLoaded c g mem = c.after 6 (copied mem (gceBinLoad mem0 g) (gceBinStart mem0 g)
      (binSize mem0 g).toNat) := by
    rw [imageLoaded, load, start, size]
  have apart : (binSource mem g).Disjoint (binTarget mem g) := by
    rw [binSource, binTarget, size, start, load]
    exact loadable.apart
  have small : (binSize mem g).toNat < 2 ^ 31 := by
    rw [size]
    exact well.bin
  obtain ⟨image, loaded⟩ := block_loaded c 6 well.bin loadable fun x hx =>
    frame_pair frame (loadable.sourceNsGuest x hx) (loadable.sourceStack x hx)
  rw [← shape] at image loaded
  exact ⟨image, loaded, loadGuest_eq c small apart⟩

private theorem guest_loaded (c : Scratch env.stack) {mem0 : Mem} (well : WellFormed env mem0 g)
    (kept : (binTarget mem0 g).Disjoint (trdFields g))
    (frame : Frame [env.nsGuestRange, env.stack] mem0 mem) :
    ∃ mem', loadGuest env c g mem = some mem' ∧ GuestLoaded env g mem0 mem mem' := by
  have binLoadable := well.bin_loadable
  obtain ⟨image, frame2, load_eq⟩ := image_loaded c well frame
  generalize imageLoaded c g mem = mem2 at *
  -- The image has left the fields about the ramdisk.
  have field : ∀ o, 36 ≤ o → o + 4 ≤ 52 →
      read32 mem2 (g + BitVec.ofNat 32 o) = read32 mem0 (g + BitVec.ofNat 32 o) := by
    intro o low high
    rw [← entry_word well.entry frame (o := o) (by rw [nsguestConfEntrySize]; omega)]
    apply read32_congr
    intro x hx
    have inside : x ∈ trdFields g := Range.subset_of_offset (by bv_omega) x hx
    have inEntry : x ∈ (⟨g, nsguestConfEntrySize⟩ : Range) :=
      Range.subset_of_offset (by
        rw [nsguestConfEntrySize]
        bv_omega) x hx
    exact frame_pair frame2 (kept.symm x inside) (well.entry.stack x inEntry)
  have init : gceTrdInit mem2 g = gceTrdInit mem0 g := field 36 (by omega) (by omega)
  have start : gceTrdStart mem2 g = gceTrdStart mem0 g := field 40 (by omega) (by omega)
  have stop : gceTrdEnd mem2 g = gceTrdEnd mem0 g := field 44 (by omega) (by omega)
  have load : gceTrdLoad mem2 g = gceTrdLoad mem0 g := field 48 (by omega) (by omega)
  have size : trdSize mem2 g = trdSize mem0 g := by rw [trdSize, trdSize, start, stop]
  rw [load_eq, init, load, start, size]
  by_cases ramdisk : gceTrdInit mem0 g ≠ 0#32
  · obtain ⟨trdLoadable, sourceApart, targetApart⟩ := well.trd_loadable ramdisk
    rw [if_pos ramdisk, memcpy_eq mem2 (well.trd ramdisk) trdLoadable.apart, Option.map_some]
    obtain ⟨disk, frame3⟩ := block_loaded c 7 (well.trd ramdisk) trdLoadable fun x hx =>
      (frame_pair frame2 (sourceApart x hx) (trdLoadable.sourceStack x hx)).trans
        (frame_pair frame (trdLoadable.sourceNsGuest x hx) (trdLoadable.sourceStack x hx))
    refine ⟨_, rfl, ?_⟩
    constructor
    case image =>
      intro i hi
      have byte := binTarget_byte hi
      exact (frame_pair frame3 (targetApart _ byte) (binLoadable.targetStack _ byte)).trans
        (image i hi)
    case ramdisk => exact fun _ => disk
    case others =>
      intro x notStack notLoads
      rw [Loads, not_or, not_and] at notLoads
      exact (frame_pair frame3 (notLoads.2 ramdisk) notStack).trans
        (frame_pair frame2 notLoads.1 notStack)
  · rw [if_neg ramdisk, Option.map_some]
    refine ⟨_, rfl, ?_⟩
    constructor
    case image =>
      intro i hi
      rw [c.keeps 7 _ _ (binLoadable.targetStack _ (binTarget_byte hi)), image i hi]
    case ramdisk => exact fun asked => absurd asked ramdisk
    case others =>
      intro x notStack notLoads
      rw [Loads, not_or] at notLoads
      exact (c.keeps 7 _ _ notStack).trans (frame_pair frame2 notLoads.1 notStack)

private theorem cp15Regs_at {i j : Nat} {r r' : Cp15Reg} (at_i : cp15Regs[i]? = some r)
    (at_j : cp15Regs[j]? = some r') : i = j ↔ r = r' := by
  obtain ⟨hi, rfl⟩ := List.getElem?_eq_some_iff.mp at_i
  obtain ⟨hj, rfl⟩ := List.getElem?_eq_some_iff.mp at_j
  exact (cp15Regs_nodup.getElem_inj_iff).symm

/-- The effect of the last two calls on a machine with the CP15 registers of the guest in its
context. -/
structure ReadyToRun (env : Env) (m m' : Core) : Prop where
  cp15 : (∀ i < 20, cp15Field m.mem (env.nsGuest + BitVec.ofNat 32 cp15Offset) i =
    if i = 1 then 0x00c50078#32 else if i = 2 then 6#32 else 0#32) → NsCp15 m'
  world : m'.world = .secure
  pointer : m'.cp15 .secure .tpidrprw = env.nsGuest
  mem : m'.mem = m.mem

private theorem readyToRun_spec (env : Env) (m : Core) :
    ReadyToRun env m (exec (readyToRun env) m) := by
  have first : ∀ v, ((m.setReg .r0 v).regs .usr .r0 = v) ∧ (m.setReg .r0 v).mem = m.mem := by
    intro v
    simp
  have whole : exec (readyToRun env) m = exec [movImm .r0 env.nsGuest, mcr .tpidrprw .r0]
      (exec cp15Restore (m.setReg .r0 (env.nsGuest + BitVec.ofNat 32 cp15Offset))) := by
    rw [readyToRun, exec_append, exec_append]
    rfl
  obtain ⟨pointer, memory⟩ := first (env.nsGuest + BitVec.ofNat 32 cp15Offset)
  have restored := cp15Restored _ pointer
  rw [whole]
  generalize exec cp15Restore (m.setReg .r0 (env.nsGuest + BitVec.ofNat 32 cp15Offset)) = m1 at *
  have same : ∀ m' : Core, m'.scr = m1.scr → m'.world = .secure :=
    fun _ scr => (Machine.world_congr scr).trans restored.world
  have last : ∀ w r, (exec [movImm .r0 env.nsGuest, mcr .tpidrprw .r0] m1).cp15 w r =
      if w = .secure ∧ r = .tpidrprw then env.nsGuest else m1.cp15 w r := by
    intro w r
    simp [same, Cp15Reg.bank]
  constructor
  case cp15 =>
    intro fields r
    obtain ⟨i, hi, at_i⟩ := cp15Regs_index r
    have other : ¬(r.bank .nonSecure = .secure ∧ r = .tpidrprw) := by
      rintro ⟨bank, rfl⟩
      cases bank
    rw [last, if_neg other, restored.field i r at_i, memory, fields i hi]
    simp only [cp15Regs_at at_i (j := 1) rfl, cp15Regs_at at_i (j := 2) rfl]
  case world =>
    apply same
    simp
  case pointer => rw [last, if_pos ⟨rfl, rfl⟩]
  case mem =>
    have kept : (exec [movImm .r0 env.nsGuest, mcr .tpidrprw .r0] m1).mem = m1.mem := by
      simp
    rw [kept, restored.mem, memory]

theorem Placed.congr {mem0 mem' : Mem} (placed : Placed env g mem0 mem)
    (context : ∀ x ∈ env.nsGuestRange, mem' x = mem x)
    (loads : ∀ x, Loads mem0 g x → mem' x = mem x) : Placed env g mem0 mem' where
  toDescribed := placed.toDescribed.congr context
  image i hi := (loads _ (.inl (binTarget_byte hi))).trans (placed.image i hi)
  ramdisk asked i hi :=
    (loads _ (.inr ⟨asked, trdTarget_byte hi⟩)).trans (placed.ramdisk asked i hi)

theorem WellFormed.loads_apart (well : WellFormed env mem g) {x : Addr} (loads : Loads mem g x) :
    x ∉ env.nsGuestRange ∧ x ∉ env.stack := by
  rcases loads with hit | ⟨ramdisk, hit⟩
  · exact ⟨well.bin_loadable.targetNsGuest x hit, well.bin_loadable.targetStack x hit⟩
  · obtain ⟨loadable, -, -⟩ := well.trd_loadable ramdisk
    exact ⟨loadable.targetNsGuest x hit, loadable.targetStack x hit⟩

private theorem create_run (c : Scratch env.stack) (m : Core) {mem1 mem2 : Mem}
    (attributes : initAttributes env c g m.mem = some mem1)
    (loads : loadGuest env c g (initCp15 env c (initCore env c g mem1)) = some mem2) :
    ∃ m2, ReadyToRun env { m with mem := mem2 } m2 ∧
      ltzvisorNsguestCreate env c g m = some (1#32, { m2 with mem := c.after 8 m2.mem }) := by
  refine ⟨_, readyToRun_spec env { m with mem := mem2 }, ?_⟩
  unfold ltzvisorNsguestCreate
  rw [attributes, Option.bind_eq_bind, Option.bind_some, loads, Option.bind_some]
  rfl

theorem created (c : Scratch env.stack) {m : Core} (well : WellFormed env m.mem g)
    (kept : (binTarget m.mem g).Disjoint (trdFields g)) :
    ∃ m1, ltzvisorNsguestCreate env c g m = some (1#32, m1) ∧ Created env g m m1 := by
  obtain ⟨mem1, run1, described, frame⟩ := context_described c well.entry well.name
  obtain ⟨mem2, run2, loaded⟩ := guest_loaded c well kept frame
  obtain ⟨m2, ready, run⟩ := create_run c m run1 run2
  have memory : m2.mem = mem2 := ready.mem
  have placed : Placed env g m.mem mem2 := by
    refine ⟨described.congr fun x hx => ?_, loaded.image, loaded.ramdisk⟩
    exact loaded.others x (fun hit => env.stack_nsGuest x hit hx) fun loads =>
      (well.loads_apart loads).1 hx
  refine ⟨_, run, ?_⟩
  constructor
  case placed =>
    rw [memory]
    apply placed.congr
    · exact fun x hx => c.keeps 8 _ _ fun hit => env.stack_nsGuest x hit hx
    · exact fun x hx => c.keeps 8 _ _ (well.loads_apart hx).2
  case cp15 => exact ready.cp15 placed.cp15
  case world => exact ready.world
  case pointer => exact ready.pointer
  case others =>
    intro x notNsGuest notStack notLoads
    rw [memory]
    have last : c.after 8 mem2 x = mem2 x := c.keeps 8 _ _ notStack
    have before : mem2 x = m.mem x :=
      (loaded.others x notStack notLoads).trans (frame_pair frame notNsGuest notStack)
    exact last.trans before

theorem FirstYield.atYield {m m1 s : Core} (made : Created env g m m1)
    (yield : FirstYield env g m m1 s) : AtYield env s := by
  refine ⟨yield.sched, ?_, yield.sp, yield.pointer.trans made.pointer⟩
  have world := made.world
  rw [Machine.world] at world ⊢
  rw [yield.scr, world]

/-- The scheduler takes the guest from its context to its entry point. -/
theorem entered {m m1 s n : Core} (well : WellFormed env m.mem g) (made : Created env g m m1)
    (yield : FirstYield env g m m1 s) (run : monSmcHandler env (takeSmc s) = some n) :
    Entered env g m s n := by
  have scheduled := (yield.atYield made).scheduled run
  have described := made.placed.toDescribed.congr yield.nsGuest
  have spared : ∀ x, x ∉ env.stack → n.mem x = s.mem x := by
    intro x notStack
    apply scheduled.frame
    intro r hr hit
    rw [List.mem_singleton] at hr
    rw [hr, yield.sp] at hit
    exact notStack (frame_subset_stack env x hit)
  constructor
  case pc => rw [scheduled.pc, described.core, if_pos rfl]
  case cpsr => rw [scheduled.cpsr, described.core, if_neg (by decide), if_pos rfl]
  case world => exact nsScr_world scheduled.scr
  case zero =>
    intro f notLr notSpsr
    rw [scheduled.context, described.core, if_neg notLr, if_neg notSpsr]
  case placed =>
    apply made.placed.congr
    · intro x hx
      rw [spared x fun hit => env.stack_nsGuest x hit hx, yield.nsGuest x hx]
    · intro x loads
      rw [spared x (well.loads_apart loads).2, yield.loaded x loads]
  case cp15 =>
    intro r
    rw [scheduled.cp15, yield.cp15, made.cp15]
  case others => exact spared

theorem first_entry (env : Env) (c : Scratch env.stack) (g : Addr) (m : Core)
    (well : WellFormed env m.mem g) (kept : (binTarget m.mem g).Disjoint (trdFields g)) :
    ∃ m1, ltzvisorNsguestCreate env c g m = some (1#32, m1) ∧ Created env g m m1 ∧
      ∀ s, FirstYield env g m m1 s →
        ∃ n, monSmcHandler env (takeSmc s) = some n ∧ Entered env g m s n := by
  obtain ⟨m1, run, made⟩ := created c well kept
  refine ⟨m1, run, made, fun s yield => ?_⟩
  obtain ⟨n, enter⟩ : ∃ n, monSmcHandler env (takeSmc s) = some n :=
    ⟨_, smc_sched env (takeSmc s) yield.sched⟩
  exact ⟨n, enter, entered well made yield enter⟩

-- An entry of the board: its name is a letter, its image a word of zeros and its ramdisk a byte.

def zedboardEntry : Addr := 0x00500000#32

/-- The words of the entry from `gce_trd_init` on, with the image to be loaded at `load`. -/
def entryWords (load : Word) : List Word :=
  [1#32, 0x00300000#32, 0x00300001#32, 0x00400000#32, 0x00200000#32, 0#32, 0x00200004#32, load]

def configured (load : Word) : Core :=
  { blankCore monMode with
    mem := store (store (writeWords (fun _ => 0#8) (zedboardEntry + 36#32) (entryWords load))
      0x00300000#32 0xFF#8) (gceName zedboardEntry) 0x41#8 }

def idle : Scratch zedboard.stack := ⟨fun _ mem => mem, fun _ _ _ _ => rfl⟩

private theorem configured_name (load : Word) : (configured load).mem (gceName zedboardEntry) =
    0x41#8 := by
  simp only [configured, store, if_pos]

private theorem configured_word (load : Word) {i : Nat} {w : Word}
    (at_i : (entryWords load)[i]? = some w) :
    read32 (configured load).mem (zedboardEntry + BitVec.ofNat 32 (36 + 4 * i)) = w := by
  obtain ⟨bound, -⟩ := List.getElem?_eq_some_iff.mp at_i
  have bound' : i < 8 := bound
  have place : zedboardEntry + BitVec.ofNat 32 (36 + 4 * i) =
      zedboardEntry + 36#32 + BitVec.ofNat 32 (4 * i) := by
    bv_omega
  rw [place, ← read32_writeWords_at (fun _ => 0#8) (zedboardEntry + 36#32) _ i at_i
    (by simp [entryWords])]
  apply read32_congr
  intro x hx
  rw [mem_range, zedboardEntry] at hx
  refine (if_neg ?_).trans (if_neg ?_)
  · rw [gceName, zedboardEntry]
    bv_omega
  · bv_omega

private theorem configured_blocks (load : Word) :
    gceTrdInit (configured load).mem zedboardEntry = 1#32 ∧
      binSource (configured load).mem zedboardEntry = ⟨0x00200000#32, 4⟩ ∧
      binTarget (configured load).mem zedboardEntry = ⟨load, 4⟩ ∧
      trdSource (configured load).mem zedboardEntry = ⟨0x00300000#32, 1⟩ ∧
      trdTarget (configured load).mem zedboardEntry = ⟨0x00400000#32, 1⟩ := by
  have trdStart : gceTrdStart (configured load).mem zedboardEntry = 0x00300000#32 :=
    configured_word load (i := 1) rfl
  have trdStop : gceTrdEnd (configured load).mem zedboardEntry = 0x00300001#32 :=
    configured_word load (i := 2) rfl
  have trdLoad : gceTrdLoad (configured load).mem zedboardEntry = 0x00400000#32 :=
    configured_word load (i := 3) rfl
  have binStart : gceBinStart (configured load).mem zedboardEntry = 0x00200000#32 :=
    configured_word load (i := 4) rfl
  have binStop : gceBinEnd (configured load).mem zedboardEntry = 0x00200004#32 :=
    configured_word load (i := 6) rfl
  have binLoad : gceBinLoad (configured load).mem zedboardEntry = load :=
    configured_word load (i := 7) rfl
  refine ⟨configured_word load (i := 0) rfl, ?_⟩
  rw [binSource, binTarget, trdSource, trdTarget, binSize, trdSize, trdStart, trdStop, trdLoad,
    binStart, binStop, binLoad]
  exact ⟨rfl, rfl, rfl, rfl⟩

private theorem configured_wellFormed (load : Word)
    (place : load = 0x00100000#32 ∨ load = zedboardEntry + 36#32) :
    WellFormed zedboard (configured load).mem zedboardEntry := by
  obtain ⟨init, binSource, binTarget, trdSource, trdTarget⟩ := configured_blocks load
  constructor
  case entry =>
    constructor
    · exact Range.disjoint_of_apart (by decide) (by decide)
    · exact Range.disjoint_of_apart (by decide) (by decide)
  case name =>
    have stops : (configured load).mem (gceName zedboardEntry + BitVec.ofNat 32 1) = 0#8 := by
      rcases place with rfl | rfl <;> decide
    refine ⟨1, by omega, stops, fun j hj => ?_⟩
    obtain rfl : j = 0 := by omega
    change (configured load).mem (gceName zedboardEntry) ≠ 0#8
    rw [configured_name]
    decide
  case bin =>
    change (FirstEntry.binSource _ _).size < 2 ^ 31
    rw [binSource]
    exact (by omega : 4 < 2 ^ 31)
  case trd =>
    intro _
    change (FirstEntry.trdSource _ _).size < 2 ^ 31
    rw [trdSource]
    exact (by omega : 1 < 2 ^ 31)
  case apart =>
    rw [regions, init, binSource, binTarget, trdSource, trdTarget]
    have apart : ([zedboard.nsGuestRange, zedboard.stack, ⟨0x00200000#32, 4⟩, ⟨load, 4⟩,
        ⟨0x00300000#32, 1⟩, ⟨0x00400000#32, 1⟩] : List Range).Pairwise fun r s =>
          r.size ≤ (s.base - r.base).toNat ∧ s.size ≤ (r.base - s.base).toNat := by
      rcases place with rfl | rfl <;> decide
    exact apart.imp fun ⟨after, before⟩ => Range.disjoint_of_apart after before

def firstCall (m : Core) : Core :=
  { (m.put (.reg .usr .r0) ltzvisorSchedSyscall).put (.reg .mon .sp) zedboard.stackTop with
    cpsr := (blankCore svcMode).cpsr }

private theorem firstCall_firstYield {m m1 : Core} :
    FirstYield zedboard zedboardEntry m m1 (firstCall m1) where
  scr := rfl
  pointer := rfl
  nsGuest _ _ := rfl
  sched := rfl
  sp := rfl
  cp15 _ := rfl
  loaded _ _ := rfl

theorem first_entry_zedboard : ∃ m1 n,
    ltzvisorNsguestCreate zedboard idle zedboardEntry (configured 0x00100000#32) = some (1#32, m1) ∧
      monSmcHandler zedboard (takeSmc (firstCall m1)) = some n ∧ n.pc = 0x00100000#32 ∧
      n.mem 0x00400000#32 = 0xFF#8 ∧
      n.mem (zedboard.nsGuest + BitVec.ofNat 32 nameOffset) = 0x41#8 := by
  obtain ⟨init, -, binTarget, trdSource, trdTarget⟩ := configured_blocks 0x00100000#32
  have kept : (FirstEntry.binTarget (configured 0x00100000#32).mem zedboardEntry).Disjoint
      (trdFields zedboardEntry) := by
    rw [binTarget]
    exact Range.disjoint_of_apart (by decide) (by decide)
  obtain ⟨m1, run, -, next⟩ := first_entry zedboard idle zedboardEntry (configured 0x00100000#32)
    (configured_wellFormed _ (.inl rfl)) kept
  obtain ⟨n, enter, entered⟩ := next (firstCall m1) firstCall_firstYield
  refine ⟨m1, n, run, enter, ?_, ?_, ?_⟩
  · exact entered.pc.trans (congrArg Range.base binTarget)
  · have ramdisk := entered.placed.ramdisk (by rw [init]; decide) 0
      ((congrArg Range.size trdTarget).trans_gt Nat.zero_lt_one)
    have load : gceTrdLoad (configured 0x00100000#32).mem zedboardEntry = 0x00400000#32 :=
      congrArg Range.base trdTarget
    have start : gceTrdStart (configured 0x00100000#32).mem zedboardEntry = 0x00300000#32 :=
      congrArg Range.base trdSource
    rw [load, start] at ramdisk
    exact ramdisk
  · obtain ⟨k, -, -, copied⟩ := entered.placed.name
    have letter := copied 0 (Nat.zero_le k)
    rw [BitVec.add_zero, BitVec.add_zero] at letter
    exact letter.trans (configured_name _)

private theorem trdInit_cleared {mem : Mem} (image : ∀ i < 4,
    mem (zedboardEntry + 36#32 + BitVec.ofNat 32 i) =
      (configured (zedboardEntry + 36#32)).mem (0x00200000#32 + BitVec.ofNat 32 i)) :
    gceTrdInit mem zedboardEntry = 0#32 := by
  have source : ∀ i < 4, (configured (zedboardEntry + 36#32)).mem
      (0x00200000#32 + BitVec.ofNat 32 i) = 0#8 := by
    decide
  have zero : gceTrdInit mem zedboardEntry = read32 (fun _ => 0#8) (zedboardEntry + 36#32) := by
    apply read32_congr
    intro x hx
    have index : (x - (zedboardEntry + 36#32)).toNat < 4 := hx
    have place : zedboardEntry + 36#32 + BitVec.ofNat 32 (x - (zedboardEntry + 36#32)).toNat =
        x := by
      bv_omega
    have byte := image _ index
    rw [source _ index, place] at byte
    exact byte
  rw [zero]
  rfl

/-- An image over the field `gce_trd_init` clears it, and the ramdisk is not loaded. -/
theorem ramdisk_forgotten :
    WellFormed zedboard (configured (zedboardEntry + 36#32)).mem zedboardEntry ∧
      gceTrdInit (configured (zedboardEntry + 36#32)).mem zedboardEntry ≠ 0#32 ∧
      ∃ m1, ltzvisorNsguestCreate zedboard idle zedboardEntry (configured (zedboardEntry + 36#32)) =
          some (1#32, m1) ∧
        ¬Placed zedboard zedboardEntry (configured (zedboardEntry + 36#32)).mem m1.mem := by
  have well := configured_wellFormed (zedboardEntry + 36#32) (.inr rfl)
  obtain ⟨init, binSource, binTarget, trdSource, trdTarget⟩ :=
    configured_blocks (zedboardEntry + 36#32)
  have asked : gceTrdInit (configured (zedboardEntry + 36#32)).mem zedboardEntry ≠ 0#32 := by
    rw [init]
    decide
  refine ⟨well, asked, ?_⟩
  obtain ⟨mem1, run1, -, frame⟩ := context_described idle well.entry well.name
  obtain ⟨image, loaded, load_eq⟩ := image_loaded idle well frame
  have load : gceBinLoad (configured (zedboardEntry + 36#32)).mem zedboardEntry =
      zedboardEntry + 36#32 :=
    congrArg Range.base binTarget
  have start : gceBinStart (configured (zedboardEntry + 36#32)).mem zedboardEntry = 0x00200000#32 :=
    congrArg Range.base binSource
  have size : (binSize (configured (zedboardEntry + 36#32)).mem zedboardEntry).toNat = 4 :=
    congrArg Range.size binTarget
  rw [load, start, size] at image
  generalize made : initCp15 zedboard idle (initCore zedboard idle zedboardEntry mem1) = mem at *
  generalize imageLoaded idle zedboardEntry mem = mem2 at *
  rw [trdInit_cleared image, if_neg (not_not_intro rfl), Option.map_some, ← made] at load_eq
  obtain ⟨m2, ready, run⟩ := create_run idle _ run1 load_eq
  refine ⟨_, run, fun placed => ?_⟩
  have ramdisk := placed.ramdisk asked 0
    ((congrArg Range.size trdTarget).trans_gt Nat.zero_lt_one)
  have trdLoad : gceTrdLoad (configured (zedboardEntry + 36#32)).mem zedboardEntry =
      0x00400000#32 :=
    congrArg Range.base trdTarget
  have trdStart : gceTrdStart (configured (zedboardEntry + 36#32)).mem zedboardEntry =
      0x00300000#32 :=
    congrArg Range.base trdSource
  have memory : m2.mem = mem2 := ready.mem
  rw [trdLoad, trdStart, memory] at ramdisk
  have untouched : mem2 0x00400000#32 = 0#8 := by
    have away : 0x00400000#32 ∉ FirstEntry.binTarget (configured (zedboardEntry + 36#32)).mem
        zedboardEntry := by
      rw [binTarget]
      decide
    have notNsGuest : 0x00400000#32 ∉ zedboard.nsGuestRange := by decide
    have notStack : 0x00400000#32 ∉ zedboard.stack := by decide
    rw [frame_pair loaded away notStack, frame_pair frame notNsGuest notStack]
    rfl
  have wanted : mem2 0x00400000#32 = 0xFF#8 := ramdisk
  rw [untouched] at wanted
  cases wanted

end LTZVisor.Core.FirstEntry
