/- LTZVisor/Printk/Printing
   kind: property
   digest: What the buffer holds after the pieces of a format with their arguments. -/

import LTZVisor.Printk.Conversions

set_option autoImplicit false
set_option relaxedAutoImplicit false

namespace LTZVisor.Printk.Printing

open LTZVisor.Lib.Memory LTZVisor.Printk.Vsprintk LTZVisor.Printk.Format LTZVisor.Printk.Cursor
open LTZVisor.Printk.Conversions

/-- The formatter has printed `text` over `buf`, with `strings` bytes of it from strings, and has
taken `taken` arguments. The byte behind the text may be anything. -/
structure Printed (buf : Nat → Byte) (touched len : Nat) (text : List Byte) (strings taken : Nat)
    (o : Out) : Prop where
  str : o.str = text.length
  written : ∀ i, (h : i < text.length) → o.buf i = text[i]
  behind : ∀ i, text.length < i → o.buf i = buf i
  least : touched ≤ o.touched
  most : o.touched ≤ max touched (text.length + 1)
  len : o.len = len + strings
  taken : o.taken = taken

variable {buf : Nat → Byte} {touched len strings taken : Nat} {text : List Byte} {o : Out}

theorem Printed.write (h : Printed buf touched len text strings taken o) (c : Byte) :
    Printed buf touched len text strings taken (o.write c) := by
  refine ⟨h.str, ?_, ?_, ?_, ?_, h.len, h.taken⟩
  · intro i hi
    have other : i ≠ o.str := by
      rw [h.str]
      omega
    exact (Function.update_of_ne other _ _).trans (h.written i hi)
  · intro i hi
    have other : i ≠ o.str := by
      rw [h.str]
      omega
    exact (Function.update_of_ne other _ _).trans (h.behind i hi)
  · exact h.least.trans (le_max_left _ _)
  · have most := h.most
    change max o.touched (o.str + 1) ≤ _
    rw [h.str]
    omega

theorem Printed.put (h : Printed buf touched len text strings taken o) (c : Byte) :
    Printed buf touched len (text ++ [c]) strings taken (o.put c) := by
  have grown : (text ++ [c]).length = text.length + 1 := by simp
  refine ⟨?_, ?_, ?_, ?_, ?_, h.len, h.taken⟩
  · change o.str + 1 = _
    rw [grown, h.str]
  · intro i hi
    change Function.update o.buf o.str c i = _
    by_cases here : i = text.length
    · subst here
      rw [h.str, Function.update_self, List.getElem_concat_length rfl]
    · have before : i < text.length := by omega
      rw [h.str, Function.update_of_ne here, List.getElem_append_left before]
      exact h.written i before
  · intro i hi
    have other : i ≠ o.str := by
      rw [h.str]
      omega
    exact (Function.update_of_ne other _ _).trans (h.behind i (by omega))
  · exact h.least.trans (le_max_left _ _)
  · have most := h.most
    change max o.touched (o.str + 1) ≤ _
    rw [h.str]
    omega

theorem Printed.puts (h : Printed buf touched len text strings taken o) (bs : List Byte) :
    Printed buf touched len (text ++ bs) strings taken (puts o bs) := by
  induction bs generalizing text o with
  | nil =>
    rw [List.append_nil]
    exact h
  | cons b bs ih =>
    have next := ih (h.put b)
    rw [List.append_assoc, List.singleton_append] at next
    exact next

theorem Printed.skipArg (h : Printed buf touched len text strings taken o) :
    Printed buf touched len text strings (taken + 1) o.skipArg :=
  ⟨h.str, h.written, h.behind, h.least, h.most, h.len, congrArg (· + 1) h.taken⟩

theorem Printed.copyString {mem : Mem} {bs : List Byte} (noNul : chNul ∉ bs) {a : Addr}
    (at_ : StringAt mem a bs) (h : Printed buf touched len text strings taken o) {n : Nat}
    (enough : min bs.length (printTextLen - (len + strings)) < n) :
    Printed buf touched len (text ++ bs.take (printTextLen - (len + strings)))
      (strings + (bs.take (printTextLen - (len + strings))).length) taken
      (copyString mem n a o) := by
  induction bs generalizing n a text strings o with
  | nil =>
    obtain ⟨n, rfl⟩ := Nat.exists_eq_succ_of_ne_zero (Nat.ne_zero_of_lt enough)
    have stop : ¬(mem a ≠ 0 ∧ o.len < printTextLen) := fun more => more.1 at_
    rw [Vsprintk.copyString, if_neg stop, List.take_nil, List.append_nil]
    exact h.write _
  | cons b bs ih =>
    obtain ⟨n, rfl⟩ := Nat.exists_eq_succ_of_ne_zero (Nat.ne_zero_of_lt enough)
    obtain ⟨here, rest⟩ := at_
    have b_ne : b ≠ 0 := by
      rintro rfl
      exact noNul List.mem_cons_self
    rw [Vsprintk.copyString, here]
    by_cases room : o.len < printTextLen
    · rw [if_pos ⟨b_ne, room⟩]
      rw [h.len] at room
      obtain ⟨m, budget⟩ : ∃ m, printTextLen - (len + strings) = m + 1 :=
        Nat.exists_eq_succ_of_ne_zero (by omega)
      have budget' : printTextLen - (len + (strings + 1)) = m := by omega
      have first : Printed buf touched len (text ++ [b]) (strings + 1) taken
          { o.put b with len := o.len + 1 } := by
        have put := h.put b
        exact ⟨put.str, put.written, put.behind, put.least, put.most,
          congrArg (· + 1) h.len, put.taken⟩
      have enough' : min bs.length (printTextLen - (len + (strings + 1))) < n := by
        rw [budget, List.length_cons] at enough
        rw [budget']
        omega
      have next := ih (fun mem => noNul (List.mem_cons_of_mem _ mem)) rest first enough'
      rw [budget', List.append_assoc, List.singleton_append, Nat.add_assoc, Nat.add_comm 1] at next
      rw [budget, List.take_succ_cons, List.length_cons]
      exact next
    · rw [if_neg fun more => room more.2]
      rw [h.len] at room
      have spent : printTextLen - (len + strings) = 0 := by omega
      rw [spent, List.take_zero, List.append_nil]
      exact h.write b

theorem endOfLine_kind (kind : Kind) (o : Out) : endOfLine kind.char o = o := by
  obtain ⟨-, -, -, notLf, notTab⟩ := kind.char_ne
  unfold endOfLine
  rw [if_neg notTab, if_neg notLf]

theorem signed_pad (number : Word) (pad : Option (Fin 8)) (o : Out) :
    signed number (zeroPadding (pad.map padByte)) o = puts o (signedBytes pad number) := by
  have magnitude : number.toInt < 0 → (-number).toNat = number.toInt.natAbs := by
    intro negative
    rw [BitVec.toInt_eq_toNat_cond] at negative ⊢
    bv_omega
  have same : ¬number.toInt < 0 → number.toNat = number.toInt.natAbs := by
    intro positive
    rw [BitVec.toInt_eq_toNat_cond] at positive ⊢
    have bound := number.isLt
    omega
  unfold signed signedBytes
  split_ifs with negative
  · rw [decimal_pad, magnitude negative]
    rfl
  · rw [decimal_pad, same negative]

theorem Printed.item {args : Args} {it : Item}
    (h : Printed buf touched len text strings taken o)
    (carried : it.carriedBy args (args.word taken)) :
    Printed buf touched len
      (text ++ (it.trim (printTextLen - (len + strings))).render)
      (strings + (it.trim (printTextLen - (len + strings))).stringBytes) (taken + it.takes)
      (exec .hypervisor args o it.piece.chunk) := by
  obtain ⟨piece, arg⟩ := it
  cases piece with
  | byte c ordinary =>
    change Printed buf touched len (text ++ if c = chLf then [chCr, chLf] else [c]) strings taken
      (if c = chLf then (o.put chCr).put chLf else o.put c)
    split_ifs
    · exact h.puts [chCr, chLf]
    · exact h.put c
  | conv pad long kind =>
    change Printed _ _ _ _ _ _ (endOfLine kind.char
      (convert .hypervisor args kind.char (zeroPadding (pad.map padByte)) o))
    rw [endOfLine_kind]
    rw [← h.taken] at carried
    cases kind with
    | x =>
      rw [convert_x, show args.word o.taken = arg from carried, hexLoop_pad]
      exact h.skipArg.puts _
    | u =>
      rw [convert_u, show args.word o.taken = arg from carried, decimal_pad]
      exact h.skipArg.puts _
    | d =>
      rw [convert_d, show args.word o.taken = arg from carried, signed_pad]
      exact h.skipArg.puts _
    | i =>
      rw [convert_i, show args.word o.taken = arg from carried, signed_pad]
      exact h.skipArg.puts _
    | o =>
      rw [convert_o, show args.word o.taken = arg from carried, octal_pad]
      exact h.skipArg.puts _
    | s =>
      have enough : min (Text.bytes arg).length (printTextLen - (len + strings)) <
          printTextLen + 1 := by
        omega
      rw [convert_s]
      exact h.skipArg.copyString (Text.noNul arg) carried enough
    | c =>
      rw [convert_c, show (args.word o.taken).setWidth 8 = arg from carried]
      exact h.skipArg.put _
    | percent =>
      rw [convert_percent]
      exact h.put chPercent

private theorem trim_stringBytes (budget : Nat) (it : Item) :
    (it.trim budget).stringBytes = min it.stringBytes budget := by
  rcases it.string_or_whole with ⟨pad, long, t, rfl⟩ | ⟨none, whole⟩
  · change (t.bytes.take budget).length = _
    rw [List.length_take, Nat.min_comm]
    rfl
  · rw [whole, none, Nat.zero_min]

/-- The items print one after the other. -/
theorem Printed.items {args : Args} (its : List Item)
    (h : Printed buf touched len text strings taken o) (passed : Passed args taken its) :
    ∃ strings' taken', Printed buf touched len
      (text ++ render (trim (printTextLen - (len + strings)) its)) strings' taken'
      ((its.map fun it => it.piece.chunk).foldl (exec .hypervisor args) o) := by
  induction its generalizing text strings taken o with
  | nil =>
    refine ⟨strings, taken, ?_⟩
    rw [trim, render, List.flatMap_nil, List.append_nil]
    exact h
  | cons it its ih =>
    obtain ⟨carried, rest⟩ := passed
    obtain ⟨strings', taken', final⟩ := ih (h.item carried) rest
    have left : printTextLen - (len + (strings +
        (it.trim (printTextLen - (len + strings))).stringBytes)) =
        printTextLen - (len + strings) - it.stringBytes := by
      rw [trim_stringBytes]
      omega
    rw [left, List.append_assoc] at final
    exact ⟨strings', taken', final⟩

theorem strnlen_spec (buf : Nat → Byte) (n s : Nat) :
    s ≤ strnlen buf n s ∧ strnlen buf n s ≤ s + n ∧
      (∀ i, s ≤ i → i < strnlen buf n s → buf i ≠ 0) ∧
      (strnlen buf n s < s + n → buf (strnlen buf n s) = 0) := by
  induction n generalizing s with
  | zero => exact ⟨le_rfl, le_rfl, fun i hi hi' => absurd hi' (by rw [strnlen]; omega),
      fun h => absurd h (lt_irrefl _)⟩
  | succ n ih =>
    rw [strnlen]
    split_ifs with more
    · obtain ⟨low, high, before, stop⟩ := ih (s + 1)
      refine ⟨by omega, by omega, ?_, fun inside => stop (by omega)⟩
      intro i hi hi'
      by_cases first : i = s
      · rw [first]
        exact more
      · exact before i (by omega) hi'
    · exact ⟨le_rfl, by omega, fun i hi hi' => by omega, fun _ => not_not.mp more⟩

theorem strnlen_le {n j : Nat} (nul : buf j = 0) : strnlen buf n 0 ≤ j := by
  obtain ⟨-, -, before, -⟩ := strnlen_spec buf n 0
  by_contra beyond
  exact before j (Nat.zero_le j) (by omega) nul

/-- What `vsprintk` leaves of a buffer: the text, a NUL, and what was behind. -/
structure Holds (buf : Nat → Byte) (text : List Byte) (o : Out) : Prop where
  str : o.str = text.length
  written : ∀ i, (h : i < text.length) → o.buf i = text[i]
  terminated : o.buf text.length = chNul
  behind : ∀ i, text.length < i → o.buf i = buf i
  touched : o.touched = max (strnlen buf printTextLen 0 + 1) (text.length + 1)

/-- The formatter prints the rendering of a well-formed format. The strings share a budget: what
the counter, which starts at the first NUL of the old contents, leaves up to its limit. -/
theorem vsprintk_prints (args : Args) (its : List Item) (passed : Passed args 0 its)
    (buf : Nat → Byte) :
    ∃ o, vsprintk .hypervisor args (formatOf its).length buf (formatOf its ++ [chNul]) =
        .ok (strnlen o.buf printTextLen 0, o) ∧
      Holds buf (render (trim (printTextLen - strnlen buf printTextLen 0) its)) o := by
  have run := vsprintk_spelled .hypervisor args (its.map Item.piece) buf
  rw [List.map_map] at run
  have start : Printed buf (strnlen buf printTextLen 0 + 1) (strnlen buf printTextLen 0) [] 0 0
      (entry buf) :=
    ⟨rfl, nofun, fun _ _ => rfl, le_rfl, le_max_left _ _, rfl, rfl⟩
  obtain ⟨strings, taken, printed⟩ := start.items its passed
  rw [Nat.add_zero, List.nil_append] at printed
  generalize render (trim (printTextLen - strnlen buf printTextLen 0) its) = text at printed ⊢
  change _ = Except.ok
    (Out.strnlen (Out.write ((its.map fun it => it.piece.chunk).foldl _ _) _)) at run
  generalize (its.map fun it => it.piece.chunk).foldl (exec .hypervisor args) (entry buf) = o
    at printed run
  have ended := printed.write chNul
  have nul : (o.write chNul).buf text.length = chNul := by
    change Function.update o.buf o.str chNul text.length = chNul
    rw [printed.str, Function.update_self]
  have touched : (o.write chNul).touched =
      max (strnlen buf printTextLen 0 + 1) (text.length + 1) := by
    have least := printed.least
    have most := printed.most
    change max o.touched (o.str + 1) = _
    rw [printed.str]
    omega
  have stops : strnlen (o.write chNul).buf printTextLen 0 ≤ text.length := strnlen_le nul
  refine ⟨(o.write chNul).strnlen.2, run, ended.str, ended.written, nul, ended.behind, ?_⟩
  change max (o.write chNul).touched _ = _
  rw [touched]
  omega

end LTZVisor.Printk.Printing
