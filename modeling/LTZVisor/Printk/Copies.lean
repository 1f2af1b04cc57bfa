/- LTZVisor/Printk/Copies
   kind: property
   digest: The two copies of the formatter agree on the formats without a `%u`. -/

import LTZVisor.Printk.Printing

set_option autoImplicit false
set_option relaxedAutoImplicit false

namespace LTZVisor.Printk.Copies

open LTZVisor.Lib.Memory LTZVisor.Printk.Vsprintk LTZVisor.Printk.Format LTZVisor.Printk.Cursor
open LTZVisor.Printk.Conversions LTZVisor.Printk.Printing

variable {args : Args} {o : Out}

private theorem hexPads_agree (pad : Option (Fin 8)) (i : Nat) :
    hexPads .hypervisor (zeroPadding (pad.map padByte)) i =
      hexPads .guest (zeroPadding (pad.map padByte)) i := by
  have same (d : Fin 8) : (7 - (zeroPadding (some (padByte d)) - 1)).toInt =
      (7 - (zeroPadding (some (padByte d)) - 1)).toNat := by
    revert d
    decide
  have here : (7 - (zeroPadding (pad.map padByte) - 1)).toInt =
      (7 - (zeroPadding (pad.map padByte) - 1)).toNat := by
    cases pad with
    | none => rfl
    | some d => exact same d
  unfold hexPads
  rw [here]
  simp only [Nat.cast_le]

private theorem hexLoop_agree (number : Word) (pad : Option (Fin 8)) (n i : Nat) (keepZeros : Bool)
    (o : Out) :
    hexLoop .hypervisor number (zeroPadding (pad.map padByte)) n i keepZeros o =
      hexLoop .guest number (zeroPadding (pad.map padByte)) n i keepZeros o := by
  induction n generalizing i keepZeros o with
  | zero => rfl
  | succ n ih =>
    rw [hexLoop, hexLoop, hexPads_agree]
    exact ih _ _ _

/-- Apart from `%u` the copies do the same for a piece. -/
private theorem exec_agree {p : Piece} (notU : ∀ pad long, p ≠ .conv pad long .u) :
    exec .hypervisor args o p.chunk = exec .guest args o p.chunk := by
  cases p with
  | byte c ordinary => rfl
  | conv pad long kind =>
    cases kind with
    | u => exact absurd rfl (notU pad long)
    | x =>
      have same := hexLoop_agree (args.word o.taken) pad 8 0 false o.skipArg
      rw [← convert_x, ← convert_x] at same
      exact congrArg (endOfLine Kind.x.char) same
    | _ => rfl

def takes (copy : Copy) : Piece → Nat
  | .byte _ _ => 0
  | .conv _ _ .percent => 0
  | .conv _ _ .u => if copy = .hypervisor then 1 else 0
  | .conv _ _ _ => 1

private theorem copyString_taken (mem : Mem) (n : Nat) (a : Addr) (o : Out) :
    (copyString mem n a o).taken = o.taken := by
  induction n generalizing a o with
  | zero => rfl
  | succ n ih =>
    rw [copyString]
    split_ifs
    · exact ih _ _
    · rfl

private theorem hexLoop_taken (copy : Copy) (number : Word) (pad : Option (Fin 8)) (o : Out) :
    (hexLoop copy number (zeroPadding (pad.map padByte)) 8 0 false o).taken = o.taken := by
  cases copy with
  | hypervisor => rw [hexLoop_pad, puts_taken]
  | guest => rw [← hexLoop_agree, hexLoop_pad, puts_taken]

private theorem exec_taken (copy : Copy) (args : Args) (o : Out) (p : Piece) :
    (exec copy args o p.chunk).taken = o.taken + takes copy p := by
  cases p with
  | byte c ordinary =>
    change (if c = chLf then (o.put chCr).put chLf else o.put c).taken = o.taken
    split_ifs <;> rfl
  | conv pad long kind =>
    change (endOfLine kind.char
      (convert copy args kind.char (zeroPadding (pad.map padByte)) o)).taken = _
    rw [endOfLine_kind]
    cases kind with
    | x =>
      rw [convert_x, hexLoop_taken]
      rfl
    | u =>
      cases copy with
      | hypervisor =>
        rw [convert_u, decimal_pad, puts_taken]
        rfl
      | guest =>
        rw [convert_u_guest]
        rfl
    | d =>
      rw [convert_d, signed_pad, puts_taken]
      rfl
    | i =>
      rw [convert_i, signed_pad, puts_taken]
      rfl
    | o =>
      rw [convert_o, octal_pad, puts_taken]
      rfl
    | s =>
      rw [convert_s, copyString_taken]
      rfl
    | c => rfl
    | percent => rfl

private theorem foldl_taken (copy : Copy) (args : Args) (ps : List Piece) (o : Out) :
    ((ps.map Piece.chunk).foldl (exec copy args) o).taken =
      o.taken + (ps.map (takes copy)).sum := by
  induction ps generalizing o with
  | nil => rfl
  | cons p ps ih =>
    rw [List.map_cons, List.foldl_cons, ih, exec_taken, List.map_cons, List.sum_cons, Nat.add_assoc]

private theorem takes_le (p : Piece) : takes .guest p ≤ takes .hypervisor p := by
  cases p with
  | byte c ordinary => exact le_rfl
  | conv pad long kind =>
    cases kind with
    | u => exact Nat.zero_le 1
    | _ => exact le_rfl

private theorem sum_takes_lt {ps : List Piece} {pad : Option (Fin 8)} {long : Bool}
    (mem : .conv pad long .u ∈ ps) :
    (ps.map (takes .guest)).sum < (ps.map (takes .hypervisor)).sum := by
  apply List.sum_lt_sum
  · exact fun p _ => takes_le p
  · exact ⟨_, mem, Nat.zero_lt_one⟩

/-- Both copies have a result, with the same bytes, the same value and the same arguments taken. -/
def Agree (args : Args) (buf : Nat → Byte) (fmt : List Byte) : Prop :=
  ∃ i o₁ o₂, vsprintk .hypervisor args fmt.length buf (fmt ++ [chNul]) = .ok (i, o₁) ∧
    vsprintk .guest args fmt.length buf (fmt ++ [chNul]) = .ok (i, o₂) ∧
    o₁.str = o₂.str ∧ (∀ j ≤ o₁.str, o₁.buf j = o₂.buf j) ∧ o₁.taken = o₂.taken

private theorem vsprintk_taken {copy : Copy} {ps : List Piece} {buf : Nat → Byte} {i : Nat}
    {o : Out}
    (run : vsprintk copy args (spelled ps).length buf (spelled ps ++ [chNul]) = .ok (i, o)) :
    o.taken = (ps.map (takes copy)).sum := by
  rw [vsprintk_spelled] at run
  have taken := foldl_taken copy args ps (entry buf)
  cases run
  change _ = 0 + _ at taken
  rw [Nat.zero_add] at taken
  exact taken

private theorem foldl_agree {ps : List Piece} (notU : ∀ pad long, .conv pad long .u ∉ ps)
    (o : Out) : (ps.map Piece.chunk).foldl (exec .hypervisor args) o =
      (ps.map Piece.chunk).foldl (exec .guest args) o := by
  induction ps generalizing o with
  | nil => rfl
  | cons p ps ih =>
    have first : exec .hypervisor args o p.chunk = exec .guest args o p.chunk := by
      apply exec_agree
      rintro pad long rfl
      exact notU pad long List.mem_cons_self
    rw [List.map_cons, List.foldl_cons, List.foldl_cons, first]
    exact ih (fun pad long mem => notU pad long (List.mem_cons_of_mem _ mem)) _

/-- The two copies agree on a well-formed format exactly when it has no `%u`. -/
theorem copies_agree_iff (args : Args) (ps : List Piece) (buf : Nat → Byte) :
    Agree args buf (spelled ps) ↔ ∀ pad long, .conv pad long .u ∉ ps := by
  constructor
  · rintro ⟨i, o₁, o₂, run₁, run₂, -, -, same⟩ pad long mem
    have fewer := sum_takes_lt mem
    rw [vsprintk_taken run₁, vsprintk_taken run₂] at same
    omega
  · intro notU
    have run := vsprintk_spelled .guest args ps buf
    have same := vsprintk_spelled .hypervisor args ps buf
    rw [foldl_agree notU] at same
    exact ⟨_, _, _, same, run, rfl, fun _ _ => rfl, rfl⟩

/-- The copies part at `%u`. -/
theorem unsigned_differs :
    ¬∀ (args : Args) (ps : List Piece) (buf : Nat → Byte), buf 0 = chNul →
      Agree args buf (spelled ps) := by
  intro claim
  obtain ⟨i, o₁, o₂, run₁, run₂, -, -, same⟩ :=
    claim ⟨fun _ => 7, fun _ => 0⟩ [.conv none false .u] (fun _ => 0) rfl
  rw [vsprintk_taken run₁, vsprintk_taken run₂] at same
  exact absurd same (by decide)

end LTZVisor.Printk.Copies
