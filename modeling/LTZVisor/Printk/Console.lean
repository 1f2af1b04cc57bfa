/- LTZVisor/Printk/Console
   kind: property
   digest: The messages of the hypervisor on their way through the polled UART. -/

import LTZVisor.Drivers.PolledUart
import LTZVisor.Printk.Buffer

set_option autoImplicit false
set_option relaxedAutoImplicit false

namespace LTZVisor.Printk.Console

open LTZVisor.Lib.Memory LTZVisor.Lib.Polling LTZVisor.Printk.Vsprintk LTZVisor.Printk.Format
open LTZVisor.Printk.Buffer LTZVisor.Drivers.PolledUart

/-- A call of `printk` that fits in its buffer, and what the buffer holds before. -/
structure Message where
  args : Args
  its : List Item
  buf : Nat → Byte
  passed : Passed args 0 its
  fits : (render its).length ≤ 255

/-- What the message says: its rendering up to the first NUL, with the strings cut to what the old
contents of the buffer leave them. -/
def Message.text (m : Message) : List Byte := sent (render (trim (stringBudget m.buf) m.its))

def console (b : Board) : List Message → List Word → Except Fault (Outcome Word Access)
  | [], trace => return ([], some trace)
  | m :: ms, trace => do
    let format := formatOf m.its
    let (bytes, _) ← printk .hypervisor m.args format.length m.buf (format ++ [chNul])
    match uartPuts b (bytes ++ [chNul]) trace with
    | (log, none) => return (log, none)
    | (log, some rest) =>
      let (log', rest') ← console b ms rest
      return (log ++ log', rest')

private theorem text_noNul (m : Message) : chNul ∉ m.text := by
  intro mem
  have shown := List.mem_takeWhile_imp mem
  simp at shown

private theorem writesOf_text (m : Message) :
    writesOf (m.text ++ [chNul]) = m.text.map fun c => .writeFifo (c.signExtend 32) := by
  have all : ∀ c ∈ m.text, (c != 0#8) = true := by
    intro c mem
    rw [bne_iff_ne]
    rintro rfl
    exact text_noNul m mem
  have none : [chNul].takeWhile (fun c => c != 0#8) = [] := rfl
  rw [writesOf, List.takeWhile_append_of_pos all, none, List.append_nil]

private theorem console_eq (b : Board) (ms : List Message) (trace : List Word) :
    console b ms trace = .ok (accessAll (putcWaits b)
      (ms.flatMap fun m => m.text.map fun c => .writeFifo (c.signExtend 32)) trace) := by
  induction ms generalizing trace with
  | nil => rfl
  | cons m ms ih =>
    have sends := uartPuts_eq b (s := m.text ++ [chNul])
      (List.mem_append_right _ (List.mem_singleton_self _)) trace
    rw [writesOf_text] at sends
    have printed := printk_eq m.args m.its m.passed m.fits m.buf
    rw [console, printed, List.flatMap_cons, accessAll_append, ← sends]
    change (match uartPuts b (m.text ++ [chNul]) trace with
      | (log, none) => _
      | (log, some rest) => _) = _
    rcases uartPuts b (m.text ++ [chNul]) trace with ⟨log, rest⟩
    cases rest with
    | none => rfl
    | some rest =>
      change (console b ms rest >>= _) = _
      rw [ih rest]
      rfl

/-- The messages come out as one stream, whatever the buffers held before and however the UART
takes the bytes: each byte once and in order, right after a status that shows room; and all of
them as soon as room has been seen as often as there are bytes. -/
theorem console_streams (b : Board) (ms : List Message) (trace : List Word) :
    ∃ out, console b ms trace = .ok out ∧ Guarded HasRoom out.1 ∧
      InOrder (ms.flatMap fun m => m.text.map fun c => .writeFifo (c.signExtend 32)) out ∧
      (out.2.isSome ↔ (ms.flatMap Message.text).length ≤
        trace.countP fun status => status &&& uartChStatusTful == 0#32) := by
  refine ⟨_, console_eq b ms trace, ?_, accessAll_inOrder _ _ trace, ?_⟩
  · exact accessAll_guarded (fun status go => bne_eq_false_iff_eq.mp go) _ trace
  · have room : (fun status => status &&& uartChStatusTful == 0#32) =
        fun status => !putcWaits b status := by
      funext status
      rw [putcWaits, bne, Bool.not_not]
    rw [accessAll_isSome_iff, room, List.length_flatMap, List.length_flatMap]
    simp only [List.length_map]

def abTwice : List Message :=
  [⟨ab, printAb, fun _ => 0, passed_ab, by decide⟩, ⟨ab, printAb, residue, passed_ab, by decide⟩]

/-- Both come out through a UART that is full once. -/
theorem console_streams_ab : ∃ out,
    console .zedboard abTwice [0#32, uartChStatusTful, 0#32, 0#32] = .ok out ∧
      Guarded HasRoom out.1 ∧ out.2.isSome ∧
      InOrder ([0x61, 0x62, 0x61].map fun c : Byte => .writeFifo (c.signExtend 32)) out := by
  obtain ⟨out, run, guarded, order, whole⟩ :=
    console_streams .zedboard abTwice [0#32, uartChStatusTful, 0#32, 0#32]
  have text : abTwice.flatMap Message.text = [0x61, 0x62, 0x61] := by decide +kernel
  rw [text] at whole
  rw [← List.map_flatMap, text] at order
  exact ⟨out, run, guarded, whole.mpr (by decide), order⟩

end LTZVisor.Printk.Console
