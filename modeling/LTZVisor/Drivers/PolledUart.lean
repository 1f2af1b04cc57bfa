/- LTZVisor/Drivers/PolledUart
   kind: property
   digest: The polled UART calls of three boards, on any trace of values of the status register. -/

import LTZVisor.Lib.Memory
import LTZVisor.Lib.Polling

set_option autoImplicit false
set_option relaxedAutoImplicit false

namespace LTZVisor.Drivers.PolledUart

open LTZVisor.Lib.Memory LTZVisor.Lib.Polling

def uartChStatusRtrig : Word := 1#32 <<< 0
def uartChStatusTful : Word := 1#32 <<< 4

inductive Board
  | zedboard | zybo | zc702
  deriving DecidableEq

/-- An access to the register `tx_rx_fifo`. -/
inductive Access
  | readFifo (data : Word)
  | writeFifo (data : Word)
  deriving DecidableEq

def lnot (x : Word) : Word := if x = 0#32 then 1#32 else 0#32

/-- The condition of the loop in `uart_getc`. Only on the zedboard does the negation apply to the
bit; on the other boards it applies to the whole status. -/
def getcWaits : Board → Word → Bool
  | .zedboard, chStatus => (chStatus &&& uartChStatusRtrig).setWidth 8 == 0#8
  | .zybo, chStatus => lnot chStatus &&& uartChStatusRtrig != 0#32
  | .zc702, chStatus => lnot chStatus &&& uartChStatusRtrig != 0#32

/-- What the call does on a trace, and the data it returns unless the trace ends in the wait. -/
def uartGetc (b : Board) (data : Word) (trace : List Word) :
    List (Event Word Access) × Option Word :=
  let (log, rest) := accessWhen (getcWaits b) (.readFifo data) trace
  (log, rest.map fun _ => data)

def putcWaits : Board → Word → Bool
  | _, chStatus => chStatus &&& uartChStatusTful != 0#32

def uartPutc (b : Board) (c : Byte) (trace : List Word) : Outcome Word Access :=
  accessWhen (putcWaits b) (.writeFifo (c.signExtend 32)) trace

/-- The call on the bytes from `s` on; it does not end within bytes that do not end the string. -/
def uartPuts (b : Board) : List Byte → List Word → Outcome Word Access
  | [], _ => ([], none)
  | c :: s, trace =>
    if c = 0#8 then ([], some trace) else andThen (uartPutc b c trace) (uartPuts b s)

def Received (chStatus : Word) : Prop := chStatus &&& uartChStatusRtrig ≠ 0#32

def HasRoom (chStatus : Word) : Prop := chStatus &&& uartChStatusTful = 0#32

def writesOf (s : List Byte) : List Access :=
  (s.takeWhile fun c => c != 0#8).map fun c => .writeFifo (c.signExtend 32)

/-- The driver of a board on a trace. -/
structure Conforms (b : Board) (trace : List Word) : Prop where
  getcGuarded : ∀ data, Guarded Received (uartGetc b data trace).1
  getcReturns : ∀ data, (uartGetc b data trace).2 = none ∧ accesses (uartGetc b data trace).1 = [] ∨
    (uartGetc b data trace).2 = some data ∧ accesses (uartGetc b data trace).1 = [.readFifo data]
  putsGuarded : ∀ s, 0#8 ∈ s → Guarded HasRoom (uartPuts b s trace).1
  putsInOrder : ∀ s, 0#8 ∈ s → InOrder (writesOf s) (uartPuts b s trace)

/-- The drivers obey the protocol on a trace, and do the same. -/
structure Agree (trace : List Word) : Prop where
  conforms : ∀ b, Conforms b trace
  getc : ∀ b b' data, uartGetc b data trace = uartGetc b' data trace
  puts : ∀ b b' s, uartPuts b s trace = uartPuts b' s trace

private theorem getc_guarded_iff (b : Board) (data : Word) (trace : List Word) :
    Guarded Received (uartGetc b data trace).1 ↔
      ∀ status, trace.find? (fun status => !getcWaits b status) = some status → Received status :=
  accessWhen_guarded_iff (getcWaits b) (Access.readFifo data) trace

private theorem getc_returns (b : Board) (data : Word) (trace : List Word) :
    (uartGetc b data trace).2 = none ∧ accesses (uartGetc b data trace).1 = [] ∨
      (uartGetc b data trace).2 = some data ∧
        accesses (uartGetc b data trace).1 = [.readFifo data] := by
  unfold uartGetc
  rcases accessWhen_cases (getcWaits b) (Access.readFifo data) trace with
    ⟨access, -⟩ | ⟨polled, status, rest, access, -⟩
  · rw [access]
    exact Or.inl ⟨rfl, accesses_polls trace⟩
  · rw [access]
    refine Or.inr ⟨rfl, ?_⟩
    rw [accesses_append, accesses_polls]
    rfl

theorem uartPuts_eq (b : Board) {s : List Byte} (ends : 0#8 ∈ s) (trace : List Word) :
    uartPuts b s trace = accessAll (putcWaits b) (writesOf s) trace := by
  induction s generalizing trace with
  | nil => cases ends
  | cons c s ih =>
    by_cases last : c = 0#8
    · rw [uartPuts, if_pos last, writesOf, List.takeWhile_cons_of_neg (by simp [last])]
      rfl
    · have later : 0#8 ∈ s := (List.mem_cons.mp ends).resolve_left (Ne.symm last)
      have bytes : writesOf (c :: s) = .writeFifo (c.signExtend 32) :: writesOf s := by
        rw [writesOf, List.takeWhile_cons_of_pos (by simp [last])]
        rfl
      rw [uartPuts, if_neg last, bytes, accessAll, funext (ih later)]
      rfl

private theorem puts_guarded (b : Board) {s : List Byte} (ends : 0#8 ∈ s) (trace : List Word) :
    Guarded HasRoom (uartPuts b s trace).1 := by
  have room : ∀ status, putcWaits b status = false → HasRoom status := by
    intro status go
    exact bne_eq_false_iff_eq.mp go
  rw [uartPuts_eq b ends]
  exact accessAll_guarded room _ _

private theorem puts_inOrder (b : Board) {s : List Byte} (ends : 0#8 ∈ s) (trace : List Word) :
    InOrder (writesOf s) (uartPuts b s trace) := by
  rw [uartPuts_eq b ends]
  exact accessAll_inOrder _ _ _

private theorem uartPuts_board (b b' : Board) (s : List Byte) (trace : List Word) :
    uartPuts b s trace = uartPuts b' s trace := by
  induction s generalizing trace with
  | nil => rfl
  | cons c s ih =>
    rw [uartPuts, uartPuts, funext ih]
    rfl

private theorem rtrig_cases (status : Word) :
    status &&& uartChStatusRtrig = 0#32 ∨ status &&& uartChStatusRtrig = 1#32 := by
  have small : (status &&& uartChStatusRtrig).toNat ≤ 1 := by
    rw [BitVec.toNat_and]
    exact Nat.and_le_right
  have cases : (status &&& uartChStatusRtrig).toNat = 0 ∨
      (status &&& uartChStatusRtrig).toNat = 1 := by omega
  rcases cases with none | one
  · exact Or.inl (BitVec.eq_of_toNat_eq none)
  · exact Or.inr (BitVec.eq_of_toNat_eq one)

private theorem zedboard_waits_iff (status : Word) :
    getcWaits .zedboard status = false ↔ Received status := by
  rw [getcWaits, Received]
  rcases rtrig_cases status with bit | bit <;> rw [bit] <;> decide

private theorem other_waits_iff {b : Board} (other : b ≠ .zedboard) (status : Word) :
    getcWaits b status = false ↔ status ≠ 0#32 := by
  have wait : (lnot status &&& uartChStatusRtrig != 0#32) = false ↔ status ≠ 0#32 := by
    unfold lnot
    split_ifs with zero
    · exact iff_of_false (by decide) (not_not_intro zero)
    · exact iff_of_true (by decide) zero
  cases b with
  | zedboard => exact absurd rfl other
  | zybo => exact wait
  | zc702 => exact wait

/-- The first value of a trace that is not zero, if any, shows the receive trigger. -/
def TriggerFirst (trace : List Word) : Prop :=
  ∀ status, trace.find? (fun status => status != 0#32) = some status → Received status

private theorem other_find {b : Board} (other : b ≠ .zedboard) (trace : List Word) :
    trace.find? (fun status => !getcWaits b status) =
      trace.find? (fun status => status != 0#32) := by
  congr 1
  funext status
  have wait := other_waits_iff other status
  cases stop : getcWaits b status with
  | false => simp [wait.mp stop]
  | true =>
    have zero : status = 0#32 := by
      by_contra nonzero
      rw [wait.mpr nonzero] at stop
      cases stop
    simp [zero]

private theorem zedboard_guarded (data : Word) (trace : List Word) :
    Guarded Received (uartGetc .zedboard data trace).1 := by
  rw [getc_guarded_iff]
  intro status found
  have ends := List.find?_some found
  exact (zedboard_waits_iff status).mp (by simpa using ends)

private theorem uartGetc_eq_zedboard {trace : List Word} (first : TriggerFirst trace) (b : Board)
    (data : Word) : uartGetc b data trace = uartGetc .zedboard data trace := by
  by_cases other : b = .zedboard
  · rw [other]
  · have weaker : ∀ status, getcWaits b status = true → getcWaits .zedboard status = true := by
      intro status wait
      by_contra go
      have received := (zedboard_waits_iff status).mp (Bool.eq_false_of_not_eq_true go)
      have nonzero : status ≠ 0#32 := by
        rintro rfl
        exact received rfl
      rw [(other_waits_iff other status).mpr nonzero] at wait
      cases wait
    have same : waitWhile (getcWaits b) trace = waitWhile (getcWaits .zedboard) trace := by
      apply waitWhile_congr weaker
      intro status found
      rw [other_find other] at found
      exact (zedboard_waits_iff status).mpr (first status found)
    unfold uartGetc accessWhen
    rw [same]

/-- The drivers of the boards obey the protocol and agree exactly on the traces whose first value
other than zero shows the receive trigger. -/
theorem agree_iff (trace : List Word) : Agree trace ↔ TriggerFirst trace := by
  constructor
  · intro agree status found
    have guarded := (agree.conforms .zybo).getcGuarded 0#32
    rw [getc_guarded_iff, other_find (by decide)] at guarded
    exact guarded status found
  · intro first
    refine ⟨fun b => ?_, ?_, fun b b' s => uartPuts_board b b' s trace⟩
    · refine ⟨fun data => ?_, fun data => getc_returns b data trace,
        fun s ends => puts_guarded b ends trace, fun s ends => puts_inOrder b ends trace⟩
      rw [uartGetc_eq_zedboard first]
      exact zedboard_guarded data trace
    · intro b b' data
      rw [uartGetc_eq_zedboard first b, uartGetc_eq_zedboard first b']

/-- With an empty transmit FIFO and nothing received the zybo returns at once. -/
theorem zybo_reads_before_trigger : ¬∀ trace, Agree trace := by
  intro claim
  have same := (claim [0x8#32]).getc .zybo .zedboard 0#32
  have returned := congrArg Prod.snd same
  revert returned
  decide

end LTZVisor.Drivers.PolledUart
