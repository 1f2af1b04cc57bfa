/- LTZVisor/Arch/Cp15Context
   kind: property
   digest: The CP15 context saved and restored, register by register, in one bank. -/

import LTZVisor.Arm.Cond
import LTZVisor.Arch.Cp15Switch

set_option autoImplicit false
set_option relaxedAutoImplicit false

namespace LTZVisor.Arch.Cp15Context

open LTZVisor.Lib.Memory LTZVisor.Lib.Bits LTZVisor.Arm LTZVisor.Arm.Instr LTZVisor.Arch.Vcpu
open LTZVisor.Arch.Cp15Switch

variable {D : Type}

/-- The operands of an access `p15, opc1, rt, CRn, CRm, opc2`. -/
structure Encoding where
  opc1 : Nat
  crn : Nat
  crm : Nat
  opc2 : Nat
  deriving DecidableEq

def Encoding.decode : Encoding → Option Cp15Reg
  | ⟨2, 0, 0, 0⟩ => some .csselr
  | ⟨0, 1, 0, 0⟩ => some .sctlr
  | ⟨0, 1, 0, 1⟩ => some .actlr
  | ⟨0, 2, 0, 0⟩ => some .ttbr0
  | ⟨0, 2, 0, 1⟩ => some .ttbr1
  | ⟨0, 2, 0, 2⟩ => some .ttbcr
  | ⟨0, 3, 0, 0⟩ => some .dacr
  | ⟨0, 5, 0, 0⟩ => some .dfsr
  | ⟨0, 5, 0, 1⟩ => some .ifsr
  | ⟨0, 6, 0, 0⟩ => some .dfar
  | ⟨0, 6, 0, 2⟩ => some .ifar
  | ⟨0, 7, 4, 0⟩ => some .par
  | ⟨0, 10, 2, 0⟩ => some .prrr
  | ⟨0, 10, 2, 1⟩ => some .nmrr
  | ⟨0, 12, 0, 0⟩ => some .vbar
  | ⟨0, 13, 0, 0⟩ => some .fcseidr
  | ⟨0, 13, 0, 1⟩ => some .contextidr
  | ⟨0, 13, 0, 2⟩ => some .tpidrurw
  | ⟨0, 13, 0, 3⟩ => some .tpidruro
  | ⟨0, 13, 0, 4⟩ => some .tpidrprw
  | _ => none

/-- No access of the macros names another register: see `saveEncodings_decode`. -/
@[simp] def mrcP15 (rd : Reg) (e : Encoding) : Instr D :=
  match e.decode with
  | some r => mrc rd r
  | none => id

@[simp] def mcrP15 (e : Encoding) (rn : Reg) : Instr D :=
  match e.decode with
  | some r => mcr r rn
  | none => id

def saveEncodings : List Encoding := [
  ⟨2, 0, 0, 0⟩, ⟨0, 1, 0, 0⟩, ⟨0, 1, 0, 1⟩, ⟨0, 2, 0, 0⟩, ⟨0, 2, 0, 1⟩,
  ⟨0, 2, 0, 2⟩, ⟨0, 3, 0, 0⟩, ⟨0, 5, 0, 0⟩, ⟨0, 5, 0, 1⟩, ⟨0, 6, 0, 0⟩,
  ⟨0, 6, 0, 2⟩, ⟨0, 7, 4, 0⟩, ⟨0, 10, 2, 0⟩, ⟨0, 10, 2, 1⟩, ⟨0, 12, 0, 0⟩,
  ⟨0, 13, 0, 0⟩, ⟨0, 13, 0, 1⟩, ⟨0, 13, 0, 2⟩, ⟨0, 13, 0, 3⟩, ⟨0, 13, 0, 4⟩]

def restoreEncodings : List Encoding := [
  ⟨2, 0, 0, 0⟩, ⟨0, 1, 0, 0⟩, ⟨0, 1, 0, 1⟩, ⟨0, 2, 0, 0⟩, ⟨0, 2, 0, 1⟩,
  ⟨0, 2, 0, 2⟩, ⟨0, 3, 0, 0⟩, ⟨0, 5, 0, 0⟩, ⟨0, 5, 0, 1⟩, ⟨0, 6, 0, 0⟩,
  ⟨0, 6, 0, 2⟩, ⟨0, 7, 4, 0⟩, ⟨0, 10, 2, 0⟩, ⟨0, 10, 2, 1⟩, ⟨0, 12, 0, 0⟩,
  ⟨0, 13, 0, 0⟩, ⟨0, 13, 0, 1⟩, ⟨0, 13, 0, 2⟩, ⟨0, 13, 0, 3⟩, ⟨0, 13, 0, 4⟩]

def saveCp15Context : List (Instr D) :=
  saveEncodings.flatMap fun e => [mrcP15 .r2 e, strPost .r2 .r0]

/-- `cp15_restore` by the encodings of its accesses. -/
def cp15RestoreEncoded : List (Instr D) :=
  scrNsbitSet .r2 ++ (restoreEncodings.flatMap fun e => [ldrPost .r2 .r0, mcrP15 e .r2]) ++
    scrNsbitClear .r2

private theorem saveEncodings_decode : saveEncodings.map Encoding.decode = cp15Regs.map some := rfl

private theorem restoreEncodings_decode : restoreEncodings.map Encoding.decode =
    cp15Regs.map some := rfl

def saveCp15Reg (r : Cp15Reg) : List (Instr D) := [mrc .r2 r, strPost .r2 .r0]

/-- Accesses by encodings are accesses by the registers that these decode to. -/
private theorem flatMap_decoded {α : Type} {byEncoding : Encoding → List α}
    {byReg : Cp15Reg → List α}
    (same : ∀ e r, e.decode = some r → byEncoding e = byReg r) {es : List Encoding}
    {rs : List Cp15Reg} (decoded : es.map Encoding.decode = rs.map some) :
    es.flatMap byEncoding = rs.flatMap byReg := by
  induction es generalizing rs with
  | nil => rw [List.map_eq_nil_iff.mp decoded.symm, List.flatMap_nil, List.flatMap_nil]
  | cons e es ih =>
    cases rs with
    | nil => cases decoded
    | cons r rs =>
      obtain ⟨first, rest⟩ := List.cons.inj decoded
      rw [List.flatMap_cons, List.flatMap_cons, same e r first, ih rest]

private theorem saveCp15Context_eq : (saveCp15Context : List (Instr D)) =
    cp15Regs.flatMap saveCp15Reg :=
  flatMap_decoded (fun e r decodes => by simp only [mrcP15, decodes, saveCp15Reg])
    saveEncodings_decode

private theorem cp15RestoreEncoded_eq : (cp15RestoreEncoded : List (Instr D)) = cp15Restore := by
  have same (e : Encoding) (r : Cp15Reg) (decodes : e.decode = some r) :
      ([ldrPost .r2 .r0, mcrP15 e .r2] : List (Instr D)) = [ldrPost .r2 .r0, mcr r .r2] := by
    simp only [mcrP15, decodes]
  rw [cp15RestoreEncoded, flatMap_decoded same restoreEncodings_decode]
  rfl

private theorem exec_saveCp15Reg (r : Cp15Reg) (m : Machine D) :
    (exec (saveCp15Reg r) m).mem = writeWords m.mem (m.regs .usr .r0) [m.readCp15 r] ∧
      (exec (saveCp15Reg r) m).regs .usr .r0 = m.regs .usr .r0 + 4#32 ∧
      (exec (saveCp15Reg r) m).cp15 = m.cp15 ∧ (exec (saveCp15Reg r) m).scr = m.scr := by
  simp [saveCp15Reg]

private theorem readCp15_congr {m m' : Machine D} (cp15 : m'.cp15 = m.cp15) (scr : m'.scr = m.scr) :
    m'.readCp15 = m.readCp15 := by
  funext r
  rw [Machine.readCp15, cp15, Machine.world_congr scr, Machine.readCp15]

private theorem saved_mem {rs : List Cp15Reg} (fits : 4 * rs.length ≤ 2 ^ 32) (m : Machine D) :
    (exec (rs.flatMap saveCp15Reg) m).mem =
      writeWords m.mem (m.regs .usr .r0) (rs.map m.readCp15) := by
  induction rs generalizing m with
  | nil =>
    funext x
    exact (writeWords_of_not_mem (Nat.not_lt_zero _)).symm
  | cons r rs ih =>
    obtain ⟨mem, pointer, cp15, scr⟩ := exec_saveCp15Reg r m
    rw [List.length_cons] at fits
    have rest := ih (by omega) (exec (saveCp15Reg r) m)
    have joined := writeWords_append_low m.mem (m.regs .usr .r0) (m.regs .usr .r0 + 4#32)
      [m.readCp15 r] (rs.map m.readCp15) rfl (by simp; omega)
    rw [List.flatMap_cons, exec_append, rest, pointer, mem, readCp15_congr cp15 scr, joined]
    rfl

private theorem saveCp15Context_mem (m : Machine D) :
    (exec saveCp15Context m).mem =
      writeWords m.mem (m.regs .usr .r0) (cp15Regs.map m.readCp15) := by
  rw [saveCp15Context_eq]
  exact saved_mem (by decide) m

private theorem cp15Restore_scr {m : Machine D} (secure : m.world = .secure) :
    (exec cp15Restore m).scr = m.scr := by
  have clear : m.scr &&& scrNs = 0#32 := by
    by_contra set
    rw [Machine.world, if_neg set] at secure
    cases secure
  rw [scr_of_cp15Restore, and_not_eq_assign, assign_eq_self_iff, clear, BitVec.zero_and]

def cp15Words (mem : Mem) (ctx : Addr) : List Word := readWords mem ctx 20

private theorem cp15Words_eq_iff {mem : Mem} {ctx : Addr} {value : Cp15Reg → Word} :
    cp15Words mem ctx = cp15Regs.map value ↔
      ∀ i r, cp15Regs[i]? = some r → value r = cp15Field mem ctx i := by
  constructor
  · intro words i r at_i
    obtain ⟨hi, -⟩ := List.getElem?_eq_some_iff.mp at_i
    have bound : i < 20 := hi
    have word := congrArg (·[i]?) words
    simp only [cp15Words, readWords, List.getElem?_map, at_i, Option.map_some,
      List.getElem?_range bound, Option.some_inj] at word
    exact word.symm
  · intro field
    apply List.ext_getElem
    · rw [cp15Words, readWords_length, List.length_map]
      rfl
    · intro i hi hi'
      rw [List.length_map] at hi'
      rw [List.getElem_map, field i _ (List.getElem?_eq_getElem hi'), cp15Field]
      simp [cp15Words, readWords]

/-- The non-secure registers hold the context at `ctx`; the secure ones and SCR are as before. -/
structure ContextLoaded (ctx : Addr) (m m' : Machine D) : Prop where
  field : ∀ i r, cp15Regs[i]? = some r → m'.cp15 (r.bank .nonSecure) r = cp15Field m.mem ctx i
  secure : ∀ r, r ≠ .actlr → m'.cp15 .secure r = m.cp15 .secure r
  scr : m'.scr = m.scr

private theorem contextLoaded {m : Machine D} (secure : m.world = .secure) :
    ContextLoaded (m.regs .usr .r0) m (exec cp15RestoreEncoded m) := by
  have restored := cp15Restored m rfl
  rw [cp15RestoreEncoded_eq]
  exact ⟨restored.field, restored.secure, cp15Restore_scr secure⟩

private theorem saved_nonSecure {n : Machine D} (world : n.world = .nonSecure) :
    (exec saveCp15Context n).mem = writeWords n.mem (n.regs .usr .r0)
      (cp15Regs.map fun r => n.cp15 (r.bank .nonSecure) r) := by
  have read : n.readCp15 = fun r => n.cp15 (r.bank .nonSecure) r := by
    funext r
    rw [Machine.readCp15, world]
  rw [saveCp15Context_mem, read]

/-- Loading a context and saving the registers undo each other, in the non-secure bank alone. -/
theorem cp15_save_restore (m : Machine D) (secure : m.world = .secure) :
    ContextLoaded (m.regs .usr .r0) m (exec cp15RestoreEncoded m) ∧
      (∀ n : Machine D, n.world = .nonSecure →
        (∀ r, n.cp15 (r.bank .nonSecure) r =
          (exec cp15RestoreEncoded m).cp15 (r.bank .nonSecure) r) →
        (exec saveCp15Context n).mem =
          writeWords n.mem (n.regs .usr .r0) (cp15Words m.mem (m.regs .usr .r0))) ∧
      ∀ s : Machine D, s.world = .nonSecure →
        (∀ r, m.cp15 (r.bank .nonSecure) r = s.cp15 (r.bank .nonSecure) r) →
        cp15Words m.mem (m.regs .usr .r0) =
          cp15Words (exec saveCp15Context s).mem (s.regs .usr .r0) →
        ∀ r, (exec cp15RestoreEncoded m).cp15 (r.bank .nonSecure) r =
          m.cp15 (r.bank .nonSecure) r := by
  have loaded := contextLoaded secure
  refine ⟨loaded, ?_, ?_⟩
  · intro n world same
    have words := cp15Words_eq_iff.mpr loaded.field
    rw [saved_nonSecure world, words, funext same]
  · intro s world same saved r
    obtain ⟨i, -, at_i⟩ := cp15Regs_index r
    have stored : cp15Words (exec saveCp15Context s).mem (s.regs .usr .r0) =
        cp15Regs.map fun r => s.cp15 (r.bank .nonSecure) r := by
      rw [saved_nonSecure world]
      exact readWords_writeWords s.mem _ _ (by simp [cp15Regs])
    have field := cp15Words_eq_iff.mp (saved.trans stored) i r at_i
    rw [loaded.field i r at_i, same, ← field]

/-- A core with a context at 0x100: SCR as given, and a word for every CP15 register. -/
def withContext (scr : Word) : Machine Unit where
  regs _ _ := 0x100#32
  spsr _ := 0#32
  cpsr := Psr.ofWord 0x1D3#32
  pc := 0#32
  scr := scr
  cp15 w _ := if w = .secure then 1#32 else 2#32
  mem x := x.extractLsb' 0 8
  dev := ()

theorem cp15_save_restore_instance :
    (withContext 0x30#32).world = .secure ∧
      ContextLoaded 0x100#32 (withContext 0x30#32)
        (exec cp15RestoreEncoded (withContext 0x30#32)) ∧
      (exec saveCp15Context
          { exec cp15RestoreEncoded (withContext 0x30#32) with scr := 0x31#32 }).mem =
        writeWords (exec cp15RestoreEncoded (withContext 0x30#32)).mem
          ((exec cp15RestoreEncoded (withContext 0x30#32)).regs .usr .r0)
          (cp15Words (withContext 0x30#32).mem 0x100#32) := by
  have secure : (withContext 0x30#32).world = .secure := by decide
  obtain ⟨loaded, saved, -⟩ := cp15_save_restore (withContext 0x30#32) secure
  generalize exec cp15RestoreEncoded (withContext 0x30#32) = m' at *
  have bit : (0x31#32).getLsbD 0 = true := by decide
  have world : { m' with scr := 0x31#32 }.world = .nonSecure := Machine.world_of_bit bit
  exact ⟨secure, loaded, saved { m' with scr := 0x31#32 } world fun _ => rfl⟩

end LTZVisor.Arch.Cp15Context
