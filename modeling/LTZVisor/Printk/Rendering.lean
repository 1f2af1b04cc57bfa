/- LTZVisor/Printk/Rendering
   kind: property
   digest: The formatter writes the rendering of a well-formed format that fits. -/

import LTZVisor.Printk.Printing

set_option autoImplicit false
set_option relaxedAutoImplicit false

namespace LTZVisor.Printk.Rendering

open LTZVisor.Lib LTZVisor.Lib.Memory LTZVisor.Printk.Vsprintk LTZVisor.Printk.Format
open LTZVisor.Printk.Printing

private theorem digitByte_ne_nul {d : Nat} (small : d < 16) : digitByte d ≠ chNul := by
  have digits : ∀ d : Fin 16, digitByte d ≠ chNul := by decide
  exact digits ⟨d, small⟩

private theorem numeralBytes_noNul {b : Nat} (base : 1 < b) (most : b ≤ 16) (pad : Option (Fin 8))
    (n : Nat) :
    chNul ∉ numeralBytes b pad n := by
  intro mem
  obtain ⟨d, digit, nul⟩ := List.mem_map.mp mem
  exact digitByte_ne_nul ((Numeral.numeral_lt base d digit).trans_le most) nul

private theorem signedBytes_noNul (pad : Option (Fin 8)) (n : Word) :
    chNul ∉ signedBytes pad n := by
  have digits := numeralBytes_noNul (by decide) (by decide) pad n.toInt.natAbs (b := 10)
  unfold signedBytes
  split_ifs
  · intro mem
    rcases List.mem_cons.mp mem with minus | digit
    · exact absurd minus (by decide)
    · exact digits digit
  · exact digits

theorem item_noNul {it : Item} (shown : it.nul = false) : chNul ∉ it.render := by
  obtain ⟨piece, arg⟩ := it
  cases piece with
  | byte c ordinary =>
    change chNul ∉ if c = chLf then [chCr, chLf] else [c]
    split_ifs
    · decide
    · rw [List.mem_singleton]
      exact ordinary.1.symm
  | conv pad long kind =>
    cases kind with
    | x => exact numeralBytes_noNul (by decide) le_rfl pad _
    | u => exact numeralBytes_noNul (by decide) (by decide) pad _
    | d => exact signedBytes_noNul pad _
    | i => exact signedBytes_noNul pad _
    | o => exact numeralBytes_noNul (by decide) (by decide) pad _
    | s => exact Text.noNul arg
    | c =>
      have other : ¬(arg = chNul) := of_decide_eq_false shown
      change chNul ∉ [arg]
      rw [List.mem_singleton]
      exact Ne.symm other
    | percent => change chNul ∉ [chPercent]; decide

theorem Text.take_eq_self {t : Text} {n : Nat} (short : t.bytes.length ≤ n) : t.take n = t := by
  obtain ⟨bytes, noNul⟩ := t
  unfold Text.take
  congr
  exact List.take_of_length_le short

theorem item_trim_eq_self {it : Item} {budget : Nat} (enough : it.stringBytes ≤ budget) :
    it.trim budget = it := by
  rcases it.string_or_whole with ⟨pad, long, t, rfl⟩ | ⟨-, whole⟩
  · exact congrArg (Item.mk (.conv pad long .s)) (Text.take_eq_self enough)
  · exact whole budget

private theorem stringBytes_le_render (it : Item) : it.stringBytes ≤ it.render.length := by
  rcases it.string_or_whole with ⟨pad, long, t, rfl⟩ | ⟨none, -⟩
  · exact le_rfl
  · rw [none]
    exact Nat.zero_le _

private theorem trim_eq_self {its : List Item} {budget : Nat}
    (enough : (render its).length ≤ budget) : trim budget its = its := by
  induction its generalizing budget with
  | nil => rfl
  | cons it its ih =>
    have first := stringBytes_le_render it
    rw [render, List.flatMap_cons, List.length_append] at enough
    rw [trim, item_trim_eq_self (by omega), ih (by rw [render]; omega)]

private theorem render_noNul {its : List Item} (shown : ∀ it ∈ its, it.nul = false) :
    chNul ∉ render its := by
  intro mem
  obtain ⟨it, it_mem, nul⟩ := List.mem_flatMap.mp mem
  exact item_noNul (shown it it_mem) nul

private theorem strnlen_of_text {buf : Nat → Byte} {text : List Byte} (noNul : chNul ∉ text)
    (written : ∀ i, (h : i < text.length) → buf i = text[i]) (terminated : buf text.length = chNul)
    (fits : text.length ≤ 255) : strnlen buf printTextLen 0 = text.length := by
  obtain ⟨-, -, before, stop⟩ := strnlen_spec buf printTextLen 0
  have most : strnlen buf printTextLen 0 ≤ text.length := strnlen_le terminated
  apply le_antisymm most
  by_contra early
  have inside : strnlen buf printTextLen 0 < text.length := by omega
  have nul := stop (by change _ < 0 + 256; omega)
  have mem := List.getElem_mem inside
  rw [← written _ inside, nul] at mem
  exact noNul mem

/-- Into an empty buffer `vsprintk` writes exactly the rendering and a NUL, and it returns the
length of the rendering. -/
theorem vsprintk_renders (args : Args) (its : List Item) (passed : Passed args 0 its)
    (shown : ∀ it ∈ its, it.nul = false) (fits : (render its).length ≤ 255) (buf : Nat → Byte)
    (empty : buf 0 = chNul) :
    ∃ o, vsprintk .hypervisor args (formatOf its).length buf (formatOf its ++ [chNul]) =
        .ok ((render its).length, o) ∧
      (∀ i, (h : i < (render its).length) → o.buf i = (render its)[i]) ∧
      o.buf (render its).length = chNul ∧
      ∀ i, (render its).length < i → o.buf i = buf i := by
  obtain ⟨o, run, holds⟩ := vsprintk_prints args its passed buf
  have first : strnlen buf printTextLen 0 = 0 := Nat.le_zero.mp (strnlen_le empty)
  have whole : trim (printTextLen - 0) its = its := trim_eq_self (by change _ ≤ 256; omega)
  rw [first, whole] at holds
  have length := strnlen_of_text (render_noNul shown) holds.written holds.terminated fits
  rw [length] at run
  exact ⟨o, run, holds.written, holds.terminated, holds.behind⟩

/-- The format `%03d%%` and the argument -5. -/
def minusFive : List Item :=
  [⟨.conv (some 2) false .d, (-5 : Word)⟩, ⟨.conv none false .percent, ()⟩]

private theorem render_minusFive : render minusFive = [0x2d, 0x30, 0x30, 0x35, 0x25] := by
  have digits : Nat.digits 10 5 = [5] := by norm_num
  change (chMinus :: (List.replicate (3 - (Nat.digits 10 5).length) 0 ++
    (Nat.digits 10 5).reverse).map digitByte) ++ [chPercent] = _
  rw [digits]
  decide

theorem vsprintk_renders_minusFive :
    ∃ o, vsprintk .hypervisor ⟨fun _ => -5, fun _ => 0⟩ (formatOf minusFive).length (fun _ => 0)
        (formatOf minusFive ++ [chNul]) = .ok ((render minusFive).length, o) ∧
      (∀ i, (h : i < (render minusFive).length) → o.buf i = (render minusFive)[i]) ∧
      o.buf (render minusFive).length = chNul ∧
      ∀ i, (render minusFive).length < i → o.buf i = 0 := by
  refine vsprintk_renders ⟨fun _ => -5, fun _ => 0⟩ minusFive ⟨rfl, trivial, trivial⟩ ?_ ?_
    (fun _ => 0) rfl
  · intro it mem
    rcases List.mem_cons.mp mem with rfl | mem
    · rfl
    · rw [List.mem_singleton.mp mem]
      rfl
  · rw [render_minusFive]
    decide

end LTZVisor.Printk.Rendering
