/- LTZVisor/Boards/Slcr
   kind: property
   digest: The set-up of the board behind the lock of the SLCR, called in any order. -/

import LTZVisor.Boards.Zedboard
import LTZVisor.Lib.LockedRegs

set_option autoImplicit false
set_option relaxedAutoImplicit false

namespace LTZVisor.Boards.Slcr

open LTZVisor.Lib.Memory LTZVisor.Lib.LockedRegs LTZVisor.Boards.Zedboard

def slcrBase : Addr := 0xF8000000#32
def slcrLockKey : Word := 0x767B#32
def slcrUnlockKey : Word := 0xDF0D#32
def slcrLock : Addr := slcrBase + 0x4#32
def slcrUnlock : Addr := slcrBase + 0x8#32
def tzOcmRam0 : Addr := slcrBase + 0x400#32
def tzOcmRam1 : Addr := slcrBase + 0x404#32
def tzOcm : Addr := slcrBase + 0x408#32
def tzDdrRamAddr : Addr := slcrBase + 0x430#32
def tzDmaNs : Addr := slcrBase + 0x440#32
def tzDmaIrqNs : Addr := slcrBase + 0x444#32
def tzGem : Addr := slcrBase + 0x450#32
def slcrGem0RclkCtrlAddr : Addr := slcrBase + 0x138#32
def slcrGem0ClkCtrlAddr : Addr := slcrBase + 0x140#32

def securityMod2 : Addr := 0xE0200000#32
def security2Sdio0 : Addr := securityMod2 + 0x8#32
def security3Sdio1 : Addr := securityMod2 + 0xC#32
def security4Qspi : Addr := securityMod2 + 0x10#32
def security6Apbsl : Addr := securityMod2 + 0x18#32
def securityMod3 : Addr := 0xF8900000#32
def securityApb : Addr := securityMod3 + 0x28#32

def aperClkCtrl : Addr := 0xF800012C#32
def spiRstCtrl : Addr := 0xF800021C#32
def spiClkCtrl : Addr := 0xF8000158#32
def mio10 : Addr := 0xF8000728#32
def mio11 : Addr := 0xF800072C#32
def mio12 : Addr := 0xF8000730#32
def mio13 : Addr := 0xF8000734#32

def guarded (a : Addr) : Bool := (a - slcrBase).toNat < 0x1000

abbrev Board := Regs Addr Word

def write32 (a : Addr) (v : Word) : Access Addr Word :=
  if a = slcrLock ∧ v = slcrLockKey then .lock
  else if a = slcrUnlock ∧ v = slcrUnlockKey then .unlock
  else .modify a fun _ => v

def store (a : Addr) (v : Word) : Addr × (Word → Word) := (a, fun _ => v)

def orInto (a : Addr) (v : Word) : Addr × (Word → Word) := (a, fun old => old ||| v)

def boardInitMods : List (Addr × (Word → Word)) := [
  store tzOcmRam0 0xffffffff#32,
  store tzOcmRam1 0xffffffff#32,
  store tzOcm 0xffffffff#32,
  store tzDdrRamAddr tzDdrRam,
  store security2Sdio0 0x1#32,
  store security3Sdio1 0x1#32,
  store security4Qspi 0x1#32,
  store security6Apbsl 0x00007dff#32,
  store tzDmaNs 0x0#32,
  store tzDmaIrqNs 0x0#32,
  store tzGem 0x3#32,
  store slcrGem0ClkCtrlAddr 0x00500801#32,
  store slcrGem0RclkCtrlAddr 0x00000001#32,
  store securityApb 0x3F#32]

def spi1ResetMods : List (Addr × (Word → Word)) := [
  orInto spiRstCtrl (1#32 <<< 3 ||| 1#32 <<< 1),
  store spiRstCtrl 0#32]

def spi1ClockEnableMods : List (Addr × (Word → Word)) := [
  orInto aperClkCtrl (1#32 <<< 15),
  store spiClkCtrl 0x00003F03#32,
  store spiClkCtrl 0#32,
  orInto spiClkCtrl (0x28#32 <<< 8),
  orInto spiClkCtrl (1#32 <<< 1)]

def mioResetVal : Word := 0x00001601#32
def mioTriDis : Word := 0x0#32
def mioTriEn : Word := 0x1#32
/-- The decimal number 101 of the source, at bit 5. -/
def mioL3SelSpi1 : Word := 101#32 <<< 5
def mioSpeedSlow : Word := 0#32 <<< 8
/-- The octal number 011 of the source, at bit 9. -/
def mioIoTypeCmos33 : Word := 9#32 <<< 9
def mioPullupEn : Word := 1#32 <<< 12
def mioPullupDis : Word := 0#32 <<< 12
def mioHstlRecDis : Word := 1#32 <<< 13

def route (pin : Addr) (tri pullup : Word) : List (Addr × (Word → Word)) := [
  store pin mioResetVal,
  store pin (mioL3SelSpi1 ||| tri ||| mioIoTypeCmos33),
  orInto pin (mioSpeedSlow ||| pullup ||| mioHstlRecDis)]

def spi1SignalRouteMods : List (Addr × (Word → Word)) :=
  route mio10 mioTriDis mioPullupDis ++ route mio11 mioTriEn mioPullupDis ++
    route mio12 mioTriDis mioPullupDis ++ route mio13 mioTriDis mioPullupEn

inductive Call
  | boardInit
  | spi1Reset
  | spi1ClockEnable
  | spi1SignalRoute
  deriving DecidableEq

def Call.mods : Call → List (Addr × (Word → Word))
  | .boardInit => boardInitMods
  | .spi1Reset => spi1ResetMods
  | .spi1ClockEnable => spi1ClockEnableMods
  | .spi1SignalRoute => spi1SignalRouteMods

/-- A call unlocks the SLCR, does its work and locks it again. -/
def Call.accesses (c : Call) : List (Access Addr Word) :=
  write32 slcrUnlock slcrUnlockKey :: c.mods.map (fun m => .modify m.1 m.2) ++
    [write32 slcrLock slcrLockKey]

def Call.run (b : Board) (c : Call) : Board := runAll guarded b c.accesses

def setUp (b : Board) (cs : List Call) : Board := cs.foldl Call.run b

private theorem accesses_eq (c : Call) : c.accesses = bracket c.mods := by
  have lock : write32 slcrLock slcrLockKey = .lock := if_pos ⟨rfl, rfl⟩
  have unlock : write32 slcrUnlock slcrUnlockKey = .unlock := by
    have other : ¬(slcrUnlock = slcrLock ∧ slcrUnlockKey = slcrLockKey) := by decide
    exact (if_neg other).trans (if_pos ⟨rfl, rfl⟩)
  rw [Call.accesses, lock, unlock]
  rfl

def act (c : Call) (a : Addr) (v : Word) : Word := modified c.mods a v

theorem run_eq (b : Board) (c : Call) : c.run b = ⟨fun a => act c a (b.reg a), true⟩ := by
  rw [Call.run, accesses_eq, runAll_bracket]
  rfl

private theorem setUp_eq (b : Board) (cs : List Call) :
    setUp b cs = ⟨applyAll act b.reg cs, b.locked || !cs.isEmpty⟩ := by
  induction cs generalizing b with
  | nil => simp [setUp, applyAll]
  | cons c cs ih =>
    have rest : setUp b (c :: cs) = setUp (c.run b) cs := rfl
    rw [rest, ih, run_eq, applyAll_cons]
    simp

def Call.regs (c : Call) : List Addr := c.mods.map Prod.fst

private theorem regs_apart {c c' : Call} (different : c ≠ c') {a : Addr} (own : a ∈ c.regs) :
    a ∉ c'.regs := by
  have apart : (c.regs.all fun a => !c'.regs.contains a) = true := by
    cases c <;> cases c' <;> first | exact absurd rfl different | decide
  have none := List.all_eq_true.mp apart a own
  simpa using none

private theorem act_of_not_mem {c : Call} {a : Addr} (away : a ∉ c.regs) (v : Word) :
    act c a v = v :=
  modified_of_not_mem away v

/-- A modification that stores a word, or sets some bits. -/
def Sets (f : Word → Word) : Prop := (∃ k, ∀ v, f v = k) ∨ ∃ k, ∀ v, f v = v ||| k

theorem Sets.comp {f g : Word → Word} (first : Sets f) (second : Sets g) :
    Sets fun v => g (f v) := by
  rcases second with ⟨k, const⟩ | ⟨k, bits⟩
  · exact .inl ⟨k, fun v => const (f v)⟩
  · rcases first with ⟨k', const'⟩ | ⟨k', bits'⟩
    · exact .inl ⟨k' ||| k, fun v => by simp only [bits, const']⟩
    · exact .inr ⟨k' ||| k, fun v => by simp only [bits, bits', BitVec.or_assoc]⟩

theorem Sets.idem {f : Word → Word} (sets : Sets f) (v : Word) : f (f v) = f v := by
  rcases sets with ⟨k, const⟩ | ⟨k, bits⟩
  · rw [const, const]
  · rw [bits, bits, BitVec.or_assoc, BitVec.or_self]

private theorem sets_modified {mods : List (Addr × (Word → Word))} (sets : ∀ m ∈ mods, Sets m.2)
    (a : Addr) : Sets (modified mods a) := by
  induction mods with
  | nil => exact .inr ⟨0#32, fun v => (BitVec.or_zero).symm⟩
  | cons m mods ih =>
    have rest := ih fun m' mem => sets m' (List.mem_cons_of_mem _ mem)
    by_cases here : m.1 = a
    · have whole : modified (m :: mods) a = fun v => modified mods a (m.2 v) := by
        funext v
        rw [modified, List.foldl_cons, if_pos here]
        rfl
      rw [whole]
      exact (sets m (by simp)).comp rest
    · have whole : modified (m :: mods) a = modified mods a := by
        funext v
        rw [modified, List.foldl_cons, if_neg here]
        rfl
      rw [whole]
      exact rest

private theorem sets_store (a : Addr) (v : Word) : Sets (store a v).2 := .inl ⟨v, fun _ => rfl⟩

private theorem sets_orInto (a : Addr) (v : Word) : Sets (orInto a v).2 := .inr ⟨v, fun _ => rfl⟩

private theorem sets_mods (c : Call) : ∀ m ∈ c.mods, Sets m.2 := by
  cases c <;>
    simp only [Call.mods, boardInitMods, spi1ResetMods, spi1ClockEnableMods, spi1SignalRouteMods,
      route, List.forall_mem_append, List.forall_mem_cons, List.not_mem_nil, sets_store,
      sets_orInto, false_implies, implies_true, and_true]

private theorem act_owned : Owned act where
  idem := fun c a v => (sets_modified (sets_mods c) a).idem v
  apart := by
    intro c c' a different
    by_cases own : a ∈ c.regs
    · exact .inr (act_of_not_mem (regs_apart different own))
    · exact .inl (act_of_not_mem own)

def partition : List (Addr × Word) := [
  (tzOcmRam0, 0xffffffff#32), (tzOcmRam1, 0xffffffff#32), (tzOcm, 0xffffffff#32),
  (tzDdrRamAddr, tzDdrRam), (security2Sdio0, 0x1#32), (security3Sdio1, 0x1#32),
  (security4Qspi, 0x1#32), (security6Apbsl, 0x00007dff#32), (tzDmaNs, 0x0#32),
  (tzDmaIrqNs, 0x0#32), (tzGem, 0x3#32), (securityApb, 0x3F#32)]

/-- The board after some calls that leave it as `b'`. -/
structure SetUp (b b' : Board) (cs : List Call) : Prop where
  locked : cs ≠ [] → b'.locked = true
  partition : ∀ p ∈ partition, b'.reg p.1 = if .boardInit ∈ cs then p.2 else b.reg p.1
  clock : b'.reg aperClkCtrl = if .spi1ClockEnable ∈ cs then b.reg aperClkCtrl ||| 0x8000#32
    else b.reg aperClkCtrl
  others : ∀ a, (∀ c ∈ cs, a ∉ c.regs) → b'.reg a = b.reg a

private theorem setUp_reg {b : Board} {cs : List Call} {c : Call} {a : Addr} (own : a ∈ c.regs) :
    (setUp b cs).reg a = if c ∈ cs then act c a (b.reg a) else b.reg a := by
  have others : ∀ c' ≠ c, ∀ v, act c' a v = v := fun c' other v =>
    act_of_not_mem (regs_apart (Ne.symm other) own) v
  rw [setUp_eq]
  split_ifs with made
  · exact applyAll_of_mem act_owned made others b.reg
  · exact applyAll_untouched (fun c' mem => others c' fun e => made (e ▸ mem)) b.reg

private theorem partition_regs (p : Addr × Word) (mem : p ∈ partition) :
    p.1 ∈ Call.boardInit.regs := by
  have all : (partition.all fun p => Call.boardInit.regs.contains p.1) = true := by decide
  simpa using List.all_eq_true.mp all p mem

theorem act_partition (p : Addr × Word) (mem : p ∈ partition) (v : Word) :
    act .boardInit p.1 v = p.2 := by
  simp only [partition, List.mem_cons, List.not_mem_nil, or_false] at mem
  rcases mem with rfl | rfl | rfl | rfl | rfl | rfl | rfl | rfl | rfl | rfl | rfl | rfl <;> rfl

private theorem act_aper (v : Word) : act .spi1ClockEnable aperClkCtrl v = v ||| 0x8000#32 := rfl

/-- Whatever set-up calls are made, in whatever order and however often: each is done in full
behind the lock, the lock is on afterwards, the security of the memories and of the devices is what
`board_init` has decided, and only which calls have been made counts. -/
theorem set_up_any_order (b : Board) (cs : List Call) : SetUp b (setUp b cs) cs ∧
    ∀ cs', (∀ c, c ∈ cs ↔ c ∈ cs') → setUp b cs' = setUp b cs := by
  refine ⟨?_, fun cs' same => ?_⟩
  · constructor
    case locked =>
      intro some
      rw [setUp_eq]
      simp [some]
    case partition =>
      intro p mem
      rw [setUp_reg (partition_regs p mem), act_partition p mem]
    case clock => rw [setUp_reg (c := .spi1ClockEnable) (by decide), act_aper]
    case others =>
      intro a away
      rw [setUp_eq]
      exact applyAll_untouched (fun c mem => act_of_not_mem (away c mem)) b.reg
  · have empty : cs'.isEmpty = cs.isEmpty := by
      rw [Bool.eq_iff_iff, List.isEmpty_iff, List.isEmpty_iff, List.eq_nil_iff_forall_not_mem,
        List.eq_nil_iff_forall_not_mem]
      exact forall_congr' fun c => not_congr (same c).symm
    rw [setUp_eq, setUp_eq, empty, applyAll_congr act_owned same]

end LTZVisor.Boards.Slcr
