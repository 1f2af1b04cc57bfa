/- LTZVisor/Drivers/GicInit
   kind: property
   digest: What the initialisation of the distributor leaves in the registers of each interrupt. -/

import LTZVisor.Drivers.Gic
import LTZVisor.Lib.Bits
import LTZVisor.Lib.LastWrite

set_option autoImplicit false
set_option relaxedAutoImplicit false

namespace LTZVisor.Drivers.GicInit

open LTZVisor.Lib.Memory LTZVisor.Lib.Bits LTZVisor.Lib.LastWrite LTZVisor.Drivers.Gic

variable {d : Distributor}

/-- Register `x` of a family of registers that hold `n` interrupts each. -/
def index (n id : Nat) : Word := BitVec.ofNat 32 (id / n)

/-- A one was written to the bit of an interrupt in the registers of a family. -/
def Marked (family : Word → Reg) (writes : List (Reg × Word)) (id : Nat) : Prop :=
  ∃ v : Word, (family (index 32 id), v) ∈ writes ∧ v.getLsbD (id % 32) = true

/-- A shared interrupt after an initialisation that wrote `new`. -/
structure Initialised (d : Distributor) (new : List (Reg × Word)) (id : Nat) : Prop where
  clearEnable : Marked .icdicer new id
  disabled : (d.reg (.icdiser (index 32 id))).getLsbD (id % 32) = false
  clearPending : Marked .icdicpr new id
  idle : (d.reg (.icdispr (index 32 id))).getLsbD (id % 32) = false
  priority : (d.reg (.icdipr (index 4 id))).extractLsb' (id % 4 * 8) 8 = 0#8
  target : (d.reg (.icdiptr (index 4 id))).extractLsb' (id % 4 * 8) 8 = 0#8
  config : (d.reg (.icdicfr (index 16 id))).extractLsb' (id % 16 * 2) 2 = 1#2

/-- An initialisation of `d` that returns `ok` and leaves `d'`. -/
structure Complete (d : Distributor) (ok : Bool) (d' : Distributor) : Prop where
  identified : Identified d → ok = true ∧ d'.reg .icddcr &&& 3#32 = 3#32 ∧
    ∃ new, d'.writes = d.writes ++ new ∧ ∀ id, 32 ≤ id → id < 96 → Initialised d' new id
  unknown : ¬Identified d → ok = false ∧ d' = d

def writeAll (d : Distributor) (ws : List (Reg × Word)) : Distributor :=
  ws.foldl (fun d w => d.write w.1 w.2) d

def eachOf (r : Word → Reg) (first limit : Nat) (v : Word) : List (Reg × Word) :=
  (List.range' first (limit - first)).map fun i => (r (BitVec.ofNat 32 i), v)

def initWrites : List (Reg × Word) :=
  [(.icddcr, 0#32)] ++ eachOf .icdicer 0 3 0xFFFFFFFF#32 ++ eachOf .icdicpr 1 3 0xFFFFFFFF#32 ++
    eachOf .icdipr 8 24 0#32 ++ eachOf .icdiptr 0 24 0#32 ++ eachOf .icdicfr 2 4 0x55555555#32 ++
    [(.icddcr, 1#32), (.icddcr, 3#32)]

theorem writeEach_eq (d : Distributor) (r : Word → Reg) (first limit : Nat) (v : Word) :
    d.writeEach r first limit v = writeAll d (eachOf r first limit v) := by
  rw [writeAll, eachOf, List.foldl_map]
  rfl

theorem writeAll_append (d : Distributor) (ws ws' : List (Reg × Word)) :
    writeAll d (ws ++ ws') = writeAll (writeAll d ws) ws' :=
  List.foldl_append

private theorem writeAll_writes (d : Distributor) (ws : List (Reg × Word)) :
    (writeAll d ws).writes = d.writes ++ ws := by
  induction ws generalizing d with
  | nil => exact (List.append_nil _).symm
  | cons w ws ih =>
    rw [writeAll, List.foldl_cons, ← writeAll, ih]
    exact List.append_assoc ..

theorem interruptDistributorInit_eq (identified : Identified d) :
    interruptDistributorInit d = (true, writeAll d initWrites) := by
  have enable (d : Distributor) : (d.write .icddcr 1).write .icddcr
      ((d.write .icddcr 1).reg .icddcr ||| 2) = writeAll d [(.icddcr, 1#32), (.icddcr, 3#32)] := by
    have one : (d.write .icddcr 1).reg .icddcr = 1#32 :=
      Function.update_self Reg.icddcr _ d.reg
    rw [one]
    rfl
  unfold interruptDistributorInit
  rw [if_neg (not_not_intro identified)]
  dsimp only
  rw [enable]
  simp only [writeEach_eq, initWrites, writeAll_append]
  rfl

/-- The writes that fix their register, whatever was in it, and what they fix it to. -/
def fixes (w : Reg × Word) (q : Reg) : Option Word :=
  if q = w.1.storage then some (w.1.stored 0xFFFFFFFF#32 w.2) else none

/-- A write that sets or clears nothing or everything. -/
def Fixing (w : Reg × Word) : Prop := ∀ old, w.1.stored old w.2 = w.1.stored 0xFFFFFFFF#32 w.2

theorem overwrites_of_fixing {w : Reg × Word} (fixing : Fixing w) :
    Overwrites Distributor.reg (fun d w => d.write w.1 w.2) fixes w := by
  intro d q
  unfold fixes
  split_ifs with here
  · rw [here]
    exact (Function.update_self ..).trans (fixing _)
  · exact Function.update_of_ne here ..

theorem eachOf_fixing {r : Word → Reg} {first limit : Nat} {v : Word}
    (fixing : ∀ x, Fixing (r x, v)) : ∀ w ∈ eachOf r first limit v, Fixing w := by
  intro w mem
  obtain ⟨i, -, rfl⟩ := List.mem_map.mp mem
  exact fixing _

theorem initWrites_fixing : ∀ w ∈ initWrites, Fixing w := by
  intro w mem
  have clear (old : Word) : old &&& ~~~0xFFFFFFFF#32 = 0xFFFFFFFF#32 &&& ~~~0xFFFFFFFF#32 :=
    BitVec.and_zero
  simp only [initWrites, List.mem_append, List.mem_cons, List.not_mem_nil, or_false] at mem
  rcases mem with (((((rfl | mem) | mem) | mem) | mem) | mem) | rfl | rfl
  · exact fun _ => rfl
  · exact eachOf_fixing (r := .icdicer) (fun _ => clear) w mem
  · exact eachOf_fixing (r := .icdicpr) (fun _ => clear) w mem
  · exact eachOf_fixing (fun _ _ => rfl) w mem
  · exact eachOf_fixing (fun _ _ => rfl) w mem
  · exact eachOf_fixing (fun _ _ => rfl) w mem
  · exact fun _ => rfl
  · exact fun _ => rfl

theorem init_reg (d : Distributor) (q : Reg) :
    (writeAll d initWrites).reg q = (lastWrite fixes initWrites q).getD (d.reg q) :=
  view_run (fun w mem => overwrites_of_fixing (initWrites_fixing w mem)) d q

/-- The registers after an initialisation. -/
structure InitRegs (d d' : Distributor) : Prop where
  control : d'.reg .icddcr = 3#32
  disabled : ∀ i < 3, d'.reg (.icdiser (BitVec.ofNat 32 i)) = 0#32
  idle : ∀ i, 1 ≤ i → i < 3 → d'.reg (.icdispr (BitVec.ofNat 32 i)) = 0#32
  priority : ∀ i, 8 ≤ i → i < 24 → d'.reg (.icdipr (BitVec.ofNat 32 i)) = 0#32
  target : ∀ i < 24, d'.reg (.icdiptr (BitVec.ofNat 32 i)) = 0#32
  config : ∀ i, 2 ≤ i → i < 4 → d'.reg (.icdicfr (BitVec.ofNat 32 i)) = 0x55555555#32
  configHigh : ∀ i, 4 ≤ i → i < 6 → d'.reg (.icdicfr (BitVec.ofNat 32 i)) =
    d.reg (.icdicfr (BitVec.ofNat 32 i))

private theorem initRegs (d : Distributor) : InitRegs d (writeAll d initWrites) := by
  have fixed {q : Reg} {v : Word} (last : lastWrite fixes initWrites q = some v) :
      (writeAll d initWrites).reg q = v := by
    rw [init_reg, last]
    rfl
  constructor
  case control => exact fixed (by decide)
  case disabled =>
    have last : ∀ i < 3, lastWrite fixes initWrites (.icdiser (BitVec.ofNat 32 i)) = some 0#32 := by
      decide
    exact fun i high => fixed (last i high)
  case idle =>
    have last : ∀ i, 1 ≤ i → i < 3 →
        lastWrite fixes initWrites (.icdispr (BitVec.ofNat 32 i)) = some 0#32 := by decide
    exact fun i low high => fixed (last i low high)
  case priority =>
    have last : ∀ i, 8 ≤ i → i < 24 →
        lastWrite fixes initWrites (.icdipr (BitVec.ofNat 32 i)) = some 0#32 := by decide
    exact fun i low high => fixed (last i low high)
  case target =>
    have last : ∀ i < 24,
        lastWrite fixes initWrites (.icdiptr (BitVec.ofNat 32 i)) = some 0#32 := by decide
    exact fun i high => fixed (last i high)
  case config =>
    have last : ∀ i, 2 ≤ i → i < 4 →
        lastWrite fixes initWrites (.icdicfr (BitVec.ofNat 32 i)) = some 0x55555555#32 := by decide
    exact fun i low high => fixed (last i low high)
  case configHigh =>
    have last : ∀ i, 4 ≤ i → i < 6 →
        lastWrite fixes initWrites (.icdicfr (BitVec.ofNat 32 i)) = none := by decide
    intro i low high
    rw [init_reg, last i low high]
    rfl

private theorem mem_eachOf {r : Word → Reg} {first limit i : Nat} {v : Word} (low : first ≤ i)
    (high : i < limit) : (r (BitVec.ofNat 32 i), v) ∈ eachOf r first limit v :=
  List.mem_map.mpr ⟨i, List.mem_range'_1.mpr ⟨low, by omega⟩, rfl⟩

private theorem initialised {id : Nat} (low : 32 ≤ id) (high : id < 96)
    (config : (writeAll d initWrites).reg (.icdicfr (index 16 id)) = 0x55555555#32) :
    Initialised (writeAll d initWrites) initWrites id := by
  have regs := initRegs d
  have ones : ∀ i < 32, (0xFFFFFFFF#32).getLsbD i = true := by decide
  have levels : ∀ i < 16, (0x55555555#32).extractLsb' (i * 2) 2 = 1#2 := by decide
  constructor
  case clearEnable =>
    have mem := mem_eachOf (r := .icdicer) (v := 0xFFFFFFFF#32) (Nat.zero_le (id / 32))
      (show id / 32 < 3 by omega)
    refine ⟨0xFFFFFFFF#32, ?_, ones _ (by omega)⟩
    simp only [initWrites, List.mem_append, index, mem, true_or, or_true]
  case disabled =>
    rw [index, regs.disabled _ (by omega), BitVec.getLsbD_zero]
  case clearPending =>
    have mem := mem_eachOf (r := .icdicpr) (v := 0xFFFFFFFF#32) (show 1 ≤ id / 32 by omega)
      (show id / 32 < 3 by omega)
    refine ⟨0xFFFFFFFF#32, ?_, ones _ (by omega)⟩
    simp only [initWrites, List.mem_append, index, mem, true_or, or_true]
  case idle =>
    rw [index, regs.idle _ (by omega) (by omega), BitVec.getLsbD_zero]
  case priority =>
    rw [index, regs.priority _ (by omega) (by omega)]
    exact BitVec.extractLsb'_zero
  case target =>
    rw [index, regs.target _ (by omega)]
    exact BitVec.extractLsb'_zero
  case config =>
    rw [config]
    exact levels _ (by omega)

/-- The initialisation does all that is asked of it exactly when the two configuration registers
that its loop leaves out already hold what it writes to the others. -/
theorem complete_iff (d : Distributor) :
    Complete d (interruptDistributorInit d).1 (interruptDistributorInit d).2 ↔
      ¬Identified d ∨
        d.reg (.icdicfr 4#32) = 0x55555555#32 ∧ d.reg (.icdicfr 5#32) = 0x55555555#32 := by
  by_cases identified : Identified d
  · rw [interruptDistributorInit_eq identified, or_iff_right (not_not_intro identified)]
    have regs := initRegs d
    constructor
    · intro complete
      obtain ⟨-, -, new, -, each⟩ := complete.identified identified
      have levels : ∀ i < 16, (0x55555555#32).extractLsb' (i * 2) 2 = 1#2 := by decide
      have word : ∀ k, 4 ≤ k → k < 6 → d.reg (.icdicfr (BitVec.ofNat 32 k)) = 0x55555555#32 := by
        intro k low high
        apply eq_of_fields (Nat.zero_lt_two)
        intro j inside
        have config := (each (16 * k + j) (by omega) (by omega)).config
        have word : (16 * k + j) / 16 = k := by omega
        have field : (16 * k + j) % 16 = j := by omega
        rw [index, word, field, regs.configHigh k low high] at config
        rw [config, levels j (by omega)]
      exact ⟨word 4 (by omega) (by omega), word 5 (by omega) (by omega)⟩
    · rintro ⟨four, five⟩
      constructor
      case identified =>
        intro _
        refine ⟨rfl, ?_, initWrites, writeAll_writes d initWrites, ?_⟩
        · rw [regs.control]
          rfl
        · intro id low high
          apply initialised low high
          rw [index]
          by_cases covered : id / 16 < 4
          · exact regs.config _ (by omega) covered
          · rw [regs.configHigh _ (by omega) (by omega)]
            have last : id / 16 = 4 ∨ id / 16 = 5 := by omega
            rcases last with last | last <;> rw [last]
            · exact four
            · exact five
      case unknown => exact fun unknown => absurd identified unknown
  · refine iff_of_true ?_ (Or.inl identified)
    rw [interruptDistributorInit, if_pos identified]
    exact ⟨fun known => absurd known identified, fun _ => ⟨rfl, rfl⟩⟩

/-- The controller of the board at reset, with every interrupt level sensitive and N-N. -/
def resetDistributor : Distributor :=
  ⟨fun q => (legacyIdentification.lookup q).getD 0#32, []⟩

/-- Interrupt 64 keeps its configuration. -/
theorem config_of_64_kept :
    ¬∀ d, Complete d (interruptDistributorInit d).1 (interruptDistributorInit d).2 := by
  intro claim
  have identified : Identified resetDistributor := by decide
  obtain ⟨-, -, new, -, each⟩ := (claim resetDistributor).identified identified
  have config := (each 64 (by omega) (by omega)).config
  rw [interruptDistributorInit_eq identified] at config
  have kept := (initRegs resetDistributor).configHigh 4 (by omega) (by omega)
  change ((writeAll resetDistributor initWrites).reg (.icdicfr (BitVec.ofNat 32 4))).extractLsb'
    0 2 = 1#2 at config
  rw [kept] at config
  revert config
  decide

end LTZVisor.Drivers.GicInit
