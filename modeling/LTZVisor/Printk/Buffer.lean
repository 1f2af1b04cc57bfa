/- LTZVisor/Printk/Buffer
   kind: property
   digest: When the print buffer is enough, and when its old contents show in the output. -/

import LTZVisor.Printk.Rendering

set_option autoImplicit false
set_option relaxedAutoImplicit false

namespace LTZVisor.Printk.Buffer

open LTZVisor.Lib.Memory LTZVisor.Printk.Vsprintk LTZVisor.Printk.Format
open LTZVisor.Printk.Printing LTZVisor.Printk.Rendering

/-- `print_buffer` has 256 bytes. -/
def printBufferSize : Nat := 256

/-- The formatter stays in `print_buffer`, and leaves a NUL in it. -/
def StaysInBuffer (args : Args) (its : List Item) (buf : Nat → Byte) : Prop :=
  ∃ i o, vsprintk .hypervisor args (formatOf its).length buf (formatOf its ++ [chNul]) =
      .ok (i, o) ∧
    o.touched ≤ printBufferSize ∧ ∃ j < printBufferSize, o.buf j = chNul

/-- What the counter leaves to the strings when the buffer holds `buf` before. -/
def stringBudget (buf : Nat → Byte) : Nat := printTextLen - strnlen buf printTextLen 0

private theorem strnlen_lt_iff (buf : Nat → Byte) :
    strnlen buf printTextLen 0 < printBufferSize ↔ ∃ j < printBufferSize, buf j = chNul := by
  obtain ⟨-, -, -, stop⟩ := strnlen_spec buf printTextLen 0
  constructor
  · intro inside
    exact ⟨_, inside, stop (by rw [Nat.zero_add]; exact inside)⟩
  · rintro ⟨j, inside, nul⟩
    exact (strnlen_le nul).trans_lt inside

/-- `vsprintk` stays in the buffer exactly when that holds a NUL before, and the rendering, with
the strings cut to what the counter leaves them, is at most 255 bytes long. -/
theorem staysInBuffer_iff (args : Args) (its : List Item) (passed : Passed args 0 its)
    (buf : Nat → Byte) :
    StaysInBuffer args its buf ↔
      (∃ j < printBufferSize, buf j = chNul) ∧
        (render (trim (stringBudget buf) its)).length ≤ 255 := by
  obtain ⟨o, run, holds⟩ := vsprintk_prints args its passed buf
  have touched := holds.touched
  rw [← strnlen_lt_iff]
  constructor
  · rintro ⟨i, o', run', inside, -⟩
    rw [run] at run'
    cases run'
    rw [touched] at inside
    change max _ _ ≤ 256 at inside
    constructor
    · change _ < 256
      omega
    · change (render (trim (printTextLen - _) its)).length ≤ _
      omega
  · rintro ⟨nul, fits⟩
    change _ < 256 at nul
    change (render (trim (printTextLen - _) its)).length ≤ _ at fits
    refine ⟨_, o, run, ?_, _, ?_, holds.terminated⟩
    · rw [touched]
      change max _ _ ≤ 256
      omega
    · change _ < 256
      omega

def letters (n : Nat) : List Item := List.replicate n ⟨.byte 0x61 (by decide), ()⟩

private theorem passed_letters_append (args : Args) {k : Nat} (its : List Item)
    (passed : Passed args k its) (n : Nat) : Passed args k (letters n ++ its) := by
  induction n with
  | zero => exact passed
  | succ n ih => exact ⟨trivial, ih⟩

private theorem letters_length (n budget : Nat) : (render (trim budget (letters n))).length =
    n := by
  induction n generalizing budget with
  | zero => rfl
  | succ n ih => exact congrArg (· + 1) (ih budget)

/-- The string `ab`, at the address 0. -/
def ab : Args := ⟨fun _ => 0, fun a => if a = 0 then 0x61 else if a = 1 then 0x62 else 0⟩

def printAb : List Item := [⟨.conv none false .s, ⟨[0x61, 0x62], by decide⟩⟩]

/-- Old contents whose first NUL is the last byte of the buffer. -/
def residue (i : Nat) : Byte := if i = 255 then 0 else 0x78

theorem passed_ab : Passed ab 0 printAb := ⟨⟨rfl, rfl, rfl⟩, trivial⟩

/-- 254 letters and the string `ab`, of which the old contents leave one letter. -/
theorem staysInBuffer_iff_letters : StaysInBuffer ab (letters 254 ++ printAb) residue ∧
    (render (letters 254 ++ printAb)).length = 256 := by
  have passed : Passed ab 0 (letters 254 ++ printAb) := passed_letters_append ab _ passed_ab 254
  have nul : ∃ j < printBufferSize, residue j = chNul := ⟨255, by decide, rfl⟩
  have one : stringBudget residue = 1 := by decide +kernel
  have fits : (render (trim 1 (letters 254 ++ printAb))).length ≤ 255 := by decide +kernel
  refine ⟨(staysInBuffer_iff ab _ passed residue).mpr ⟨nul, ?_⟩, by decide +kernel⟩
  rw [one]
  exact fits

/-- The NUL behind 256 letters is written behind the buffer. -/
theorem letters_overrun :
    ¬∀ (args : Args) (its : List Item), Passed args 0 its → ∀ buf, StaysInBuffer args its buf := by
  intro claim
  have passed : Passed ⟨fun _ => 0, fun _ => 0⟩ 0 (letters 256 ++ []) :=
    passed_letters_append _ [] trivial 256
  rw [List.append_nil] at passed
  obtain ⟨i, o, run, inside, -⟩ := claim _ _ passed fun _ => 0
  obtain ⟨o', run', holds⟩ := vsprintk_prints _ _ passed fun _ => 0
  rw [run] at run'
  cases run'
  have touched := holds.touched
  rw [letters_length] at touched
  change o.touched ≤ 256 at inside
  omega

def sent (text : List Byte) : List Byte := text.takeWhile fun c => c ≠ chNul

/-- The bytes of the strings that are sent when none is cut. -/
def sentStrings : List Item → Nat
  | [] => 0
  | it :: its => if it.nul then 0 else it.stringBytes + sentStrings its

private theorem sent_cons (b : Byte) (text : List Byte) :
    sent (b :: text) = if b ≠ chNul then b :: sent text else [] := by
  unfold sent
  rw [List.takeWhile_cons]
  by_cases nul : b = chNul
  · rw [if_neg (not_not_intro nul), if_neg (by simp [nul])]
  · rw [if_pos nul, if_pos (decide_eq_true nul)]

private theorem sent_render_cons (it : Item) (its : List Item) :
    sent (render (it :: its)) = if it.nul then [] else it.render ++ sent (render its) := by
  rw [render, List.flatMap_cons]
  by_cases nul : it.nul = true
  · rw [if_pos nul]
    obtain ⟨piece, arg⟩ := it
    cases piece with
    | byte c ordinary => cases nul
    | conv pad long kind =>
      cases kind with
      | c =>
        have zero : arg = chNul := of_decide_eq_true nul
        subst zero
        rfl
      | _ => cases nul
  · rw [if_neg nul]
    apply List.takeWhile_append_of_pos
    intro b mem
    apply decide_eq_true
    rintro rfl
    exact item_noNul (Bool.eq_false_of_not_eq_true nul) mem

private theorem trim_nul (budget : Nat) (it : Item) : (it.trim budget).nul = it.nul := by
  rcases it.string_or_whole with ⟨pad, long, t, rfl⟩ | ⟨-, whole⟩
  · rfl
  · rw [whole]

private theorem trim_render_length (budget : Nat) (it : Item) :
    (it.trim budget).render.length = (it.trim 0).render.length + min it.stringBytes budget := by
  rcases it.string_or_whole with ⟨pad, long, t, rfl⟩ | ⟨none, whole⟩
  · change (t.bytes.take budget).length = (t.bytes.take 0).length + min t.bytes.length budget
    rw [List.length_take, List.take_zero, List.length_nil, Nat.zero_add, Nat.min_comm]
  · rw [whole, whole, none, Nat.zero_min, Nat.add_zero]

private theorem trim_min (budget more : Nat) (it : Item) :
    it.trim (min budget (it.stringBytes + more)) = it.trim budget := by
  rcases it.string_or_whole with ⟨pad, long, t, rfl⟩ | ⟨-, whole⟩
  · have same : t.take (min budget (t.bytes.length + more)) = t.take budget := by
      unfold Text.take
      congr 1
      rw [List.take_eq_take_iff]
      omega
    exact congrArg (Item.mk (.conv pad long .s)) same
  · rw [whole, whole]

/-- What is sent depends on the budget only as far as the strings that are sent use it. -/
private theorem sent_trim_min (budget : Nat) (its : List Item) :
    sent (render (trim (min budget (sentStrings its)) its)) = sent (render (trim budget its)) := by
  induction its generalizing budget with
  | nil => rfl
  | cons it its ih =>
    rw [trim, trim, sent_render_cons, sent_render_cons, trim_nul, trim_nul, sentStrings]
    split_ifs with nul
    · rfl
    · have rest : min budget (it.stringBytes + sentStrings its) - it.stringBytes =
          min (budget - it.stringBytes) (sentStrings its) := by
        omega
      rw [trim_min, rest, ih]

private theorem sent_trim_length (budget : Nat) (its : List Item) :
    (sent (render (trim budget its))).length =
      (sent (render (trim 0 its))).length + min budget (sentStrings its) := by
  induction its generalizing budget with
  | nil =>
    change 0 = 0 + min budget 0
    rw [Nat.min_zero]
  | cons it its ih =>
    rw [trim, trim, sent_render_cons, sent_render_cons, trim_nul, trim_nul, sentStrings]
    split_ifs with nul
    · rw [Nat.min_zero, Nat.add_zero]
    · rw [List.length_append, List.length_append, Nat.zero_sub, trim_render_length, ih]
      omega

private theorem trim_length_le (budget : Nat) (its : List Item) :
    (render (trim budget its)).length ≤ (render its).length := by
  induction its generalizing budget with
  | nil => exact le_rfl
  | cons it its ih =>
    have rest := ih (budget - it.stringBytes)
    have cut := trim_render_length budget it
    have whole := trim_render_length it.stringBytes it
    rw [item_trim_eq_self le_rfl, Nat.min_self] at whole
    rw [trim, render, render, List.flatMap_cons, List.flatMap_cons, List.length_append,
      List.length_append]
    change _ + (render _).length ≤ _ + (render its).length
    omega

private theorem strnlen_eq_length (buf : Nat → Byte) (n s : Nat) :
    strnlen buf n s = s + (serialPuts buf n s).length := by
  induction n generalizing s with
  | zero => rfl
  | succ n ih =>
    rw [strnlen, serialPuts]
    split_ifs
    · rw [ih, List.length_cons]
      omega
    · rfl

private theorem serialPuts_text {buf : Nat → Byte} (text : List Byte) {n s : Nat}
    (enough : text.length ≤ n)
    (written : ∀ i, (h : i < text.length) → buf (s + i) = text[i])
    (terminated : buf (s + text.length) = chNul) : serialPuts buf n s = sent text := by
  induction text generalizing n s with
  | nil =>
    cases n with
    | zero => rfl
    | succ n => exact if_neg (not_not_intro terminated)
  | cons b text ih =>
    obtain ⟨n, rfl⟩ := Nat.exists_eq_succ_of_ne_zero (Nat.ne_zero_of_lt enough)
    have here : buf s = b := written 0 (Nat.zero_lt_succ _)
    have behind : serialPuts buf n (s + 1) = sent text := by
      apply ih (Nat.le_of_succ_le_succ enough)
      · intro i hi
        have next := written (i + 1) (Nat.succ_lt_succ hi)
        rw [← Nat.add_assoc, Nat.add_right_comm] at next
        exact next
      · rw [List.length_cons, ← Nat.add_assoc, Nat.add_right_comm] at terminated
        exact terminated
    rw [serialPuts, here, behind, sent_cons]
    rfl

theorem printk_eq (args : Args) (its : List Item) (passed : Passed args 0 its)
    (fits : (render its).length ≤ 255) (buf : Nat → Byte) :
    printk .hypervisor args (formatOf its).length buf (formatOf its ++ [chNul]) =
      .ok (sent (render (trim (stringBudget buf) its)),
        (sent (render (trim (stringBudget buf) its))).length) := by
  obtain ⟨o, run, holds⟩ := vsprintk_prints args its passed buf
  have short := (trim_length_le (stringBudget buf) its).trans fits
  change Holds buf (render (trim (stringBudget buf) its)) o at holds
  generalize render (trim (stringBudget buf) its) = text at holds short ⊢
  have written : ∀ i, (h : i < text.length) → o.buf (0 + i) = text[i] := by
    intro i hi
    rw [Nat.zero_add]
    exact holds.written i hi
  have terminated : o.buf (0 + text.length) = chNul := by
    rw [Nat.zero_add]
    exact holds.terminated
  have puts := serialPuts_text text holds.str.ge written terminated
  have length : strnlen o.buf printTextLen 0 = (sent text).length := by
    rw [strnlen_eq_length, Nat.zero_add,
      serialPuts_text text (short.trans (by decide)) written terminated]
  rw [printk, run, length]
  change Except.ok (serialPuts o.buf o.str 0, _) = _
  rw [puts]

/-- `printk` does the same over two old contents of its buffer exactly when these leave the same
budget to the strings that are sent. -/
theorem printk_same_iff (args : Args) (its : List Item) (passed : Passed args 0 its)
    (fits : (render its).length ≤ 255) (buf₁ buf₂ : Nat → Byte) :
    printk .hypervisor args (formatOf its).length buf₁ (formatOf its ++ [chNul]) =
        printk .hypervisor args (formatOf its).length buf₂ (formatOf its ++ [chNul]) ↔
      min (stringBudget buf₁) (sentStrings its) = min (stringBudget buf₂) (sentStrings its) := by
  rw [printk_eq args its passed fits, printk_eq args its passed fits]
  constructor
  · intro same
    injection same with pair
    have lengths := congrArg Prod.snd pair
    dsimp only at lengths
    rw [sent_trim_length, sent_trim_length (stringBudget buf₂)] at lengths
    exact Nat.add_left_cancel lengths
  · intro same
    rw [← sent_trim_min (stringBudget buf₁), ← sent_trim_min (stringBudget buf₂), same]

theorem printk_same_iff_ab :
    printk .hypervisor ab (formatOf printAb).length (fun _ => 0) (formatOf printAb ++ [chNul]) =
        printk .hypervisor ab (formatOf printAb).length residue (formatOf printAb ++ [chNul]) ↔
      min (stringBudget fun _ => 0) (sentStrings printAb) =
        min (stringBudget residue) (sentStrings printAb) :=
  printk_same_iff ab printAb passed_ab (by decide) (fun _ => 0) residue

/-- Over such contents `%s` prints one letter of the two. -/
theorem residue_shows :
    ¬∀ (args : Args) (its : List Item), Passed args 0 its → (render its).length ≤ 255 →
      ∀ buf₁ buf₂ : Nat → Byte,
        printk .hypervisor args (formatOf its).length buf₁ (formatOf its ++ [chNul]) =
          printk .hypervisor args (formatOf its).length buf₂ (formatOf its ++ [chNul]) := by
  intro claim
  have fits : (render printAb).length ≤ 255 := by decide
  have same := claim ab printAb passed_ab fits (fun _ => 0) residue
  have one : stringBudget residue = 1 := by decide +kernel
  rw [printk_eq ab printAb passed_ab fits, printk_eq ab printAb passed_ab fits, one] at same
  injection same with pair
  exact absurd (congrArg Prod.snd pair) (by decide)

end LTZVisor.Printk.Buffer
