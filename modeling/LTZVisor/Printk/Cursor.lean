/- LTZVisor/Printk/Cursor
   kind: property
   digest: The formatter stops at the end of a format unless that cuts off a conversion. -/

import LTZVisor.Printk.Format

set_option autoImplicit false
set_option relaxedAutoImplicit false

namespace LTZVisor.Printk.Cursor

open LTZVisor.Lib.Memory LTZVisor.Printk.Vsprintk LTZVisor.Printk.Format

variable {copy : Copy} {args : Args} {rest : List Byte} {o : Out}

def zeroPadding (pad : Option Byte) : Word := pad.elim 1 fun d => d.setWidth 32 - 0x30

/-- What the end of an iteration prints for the character under the cursor. -/
def endOfLine (c : Byte) (o : Out) : Out :=
  let o := if c = chLf then (o.put chCr).put chLf else o
  if c = chTab then o.put c else o

def exec (copy : Copy) (args : Args) (o : Out) : Chunk → Out
  | .byte c => if c = chLf then (o.put chCr).put chLf else o.put c
  | .conv pad _ c => endOfLine c (convert copy args c (zeroPadding pad) o)

@[simp] theorem peek_cons (c : Byte) (fmt : List Byte) : peek (c :: fmt) = .ok c := rfl

@[simp] theorem ok_bind {α β : Type} (a : α) (f : α → Except Fault β) : (Except.ok a >>= f) = f a :=
  rfl

private theorem padding_flags (pad : Option Byte) (long : Bool) (c : Byte)
    (notZero : pad = none → long = false → c ≠ chZero) :
    padding (Chunk.flags pad long ++ c :: rest) =
      .ok (zeroPadding pad, Chunk.flags none long ++ c :: rest) := by
  cases pad with
  | some d => rfl
  | none =>
    cases long with
    | true => rfl
    | false =>
      change padding (c :: rest) = .ok (1, c :: rest)
      rw [padding, peek_cons, ok_bind, if_neg (notZero rfl rfl)]
      rfl

private theorem percent_spell {pad : Option Byte} {long : Bool} {c : Byte}
    (notL : long = false → c ≠ chL) (notZero : pad = none → long = false → c ≠ chZero) :
    percent copy args ((Chunk.conv pad long c).spell ++ rest) o =
      .ok (c :: rest, convert copy args c (zeroPadding pad) o) := by
  have flags : ((Chunk.conv pad long c).spell ++ rest).tail =
      Chunk.flags pad long ++ c :: rest := by
    rw [Chunk.spell, List.cons_append, List.tail_cons, List.append_assoc, List.singleton_append]
  rw [percent, flags, padding_flags pad long c notZero, ok_bind]
  cases long with
  | true => rfl
  | false =>
    change (do
      let c' ← peek (c :: rest)
      let fmt := if c' = chL then (c :: rest).tail else c :: rest
      let c' ← peek fmt
      return (fmt, convert copy args c' (zeroPadding pad) o)) = _
    rw [peek_cons, ok_bind, if_neg (notL rfl)]
    rfl

private theorem iteration_conv (copy : Copy) (args : Args) (pad : Option Byte) (long : Bool)
    {c : Byte} (rest : List Byte) (o : Out) (notL : long = false → c ≠ chL)
    (notZero : pad = none → long = false → c ≠ chZero) :
    iteration copy args ((Chunk.conv pad long c).spell ++ rest) o =
      .ok (rest, exec copy args o (.conv pad long c)) := by
  have first : peek ((Chunk.conv pad long c).spell ++ rest) = .ok chPercent := rfl
  rw [iteration, first, ok_bind, if_neg (fun h => h.1 rfl), if_pos rfl,
    percent_spell notL notZero, ok_bind]
  rfl

private theorem iteration_chunk (copy : Copy) (args : Args) {c : Chunk} (rest : List Byte) (o : Out)
    (proper : c.Proper) :
    iteration copy args (c.spell ++ rest) o = .ok (rest, exec copy args o c) := by
  cases c with
  | byte c =>
    have notPercent := proper.2
    change iteration copy args (c :: rest) o = _
    rw [iteration, peek_cons, ok_bind]
    by_cases lf : c = chLf
    · rw [if_neg (fun h => h.2.1 lf), if_neg notPercent, exec, if_pos lf]
      subst lf
      rfl
    · rw [exec, if_neg lf]
      by_cases tab : c = chTab
      · rw [if_neg (fun h => h.2.2 tab), if_neg notPercent]
        subst tab
        rfl
      · rw [if_pos ⟨notPercent, lf, tab⟩]
        rfl
  | conv pad long c => exact iteration_conv copy args pad long rest o proper.2.2.1 proper.2.2.2

private theorem spell_first {c : Chunk} (proper : c.Proper) :
    ∃ b bs, c.spell = b :: bs ∧ b ≠ chNul := by
  cases c with
  | byte c => exact ⟨c, [], rfl, proper.1⟩
  | conv pad long c => exact ⟨chPercent, _, rfl, by decide⟩

private theorem loop_end (n : Nat) (o : Out) : loop copy args n [chNul] o = .ok o := by
  cases n <;> rfl

private theorem loop_succ {c : Byte} {fmt : List Byte} (more : c ≠ chNul) (n : Nat) (o : Out) :
    loop copy args (n + 1) (c :: fmt) o =
      iteration copy args (c :: fmt) o >>= fun r => loop copy args n r.1 r.2 := by
  rw [loop, peek_cons, ok_bind, if_neg more]

/-- The loop takes the pieces of the format one after the other. -/
private theorem loop_chunks (cs : List Chunk) (proper : ∀ c ∈ cs, c.Proper) (n : Nat) (o : Out) :
    loop copy args (n + cs.length) (cs.flatMap Chunk.spell ++ rest) o =
      loop copy args n rest (cs.foldl (exec copy args) o) := by
  induction cs generalizing o with
  | nil => rfl
  | cons c cs ih =>
    have first := proper c List.mem_cons_self
    obtain ⟨b, bs, spell, more⟩ := spell_first first
    have step := iteration_chunk copy args (cs.flatMap Chunk.spell ++ rest) o first
    rw [List.flatMap_cons, List.append_assoc, List.length_cons, ← Nat.add_assoc]
    rw [spell, List.cons_append] at step ⊢
    rw [loop_succ more, step, ok_bind, List.foldl_cons]
    exact ih (fun c mem => proper c (List.mem_cons_of_mem _ mem)) _

private theorem length_le_spelled (cs : List Chunk) (proper : ∀ c ∈ cs, c.Proper) :
    cs.length ≤ (cs.flatMap Chunk.spell).length := by
  induction cs with
  | nil => exact le_rfl
  | cons c cs ih =>
    obtain ⟨b, bs, spell, -⟩ := spell_first (proper c List.mem_cons_self)
    have rest := ih fun c mem => proper c (List.mem_cons_of_mem _ mem)
    rw [List.flatMap_cons, List.length_append, List.length_cons, spell, List.length_cons]
    omega

private theorem loop_spelled (copy : Copy) (args : Args) (cs : List Chunk)
    (proper : ∀ c ∈ cs, c.Proper)
    {n : Nat} (enough : (cs.flatMap Chunk.spell).length ≤ n) (o : Out) :
    loop copy args n (cs.flatMap Chunk.spell ++ [chNul]) o = .ok (cs.foldl (exec copy args) o) := by
  have short := length_le_spelled cs proper
  obtain ⟨k, rfl⟩ := Nat.exists_eq_add_of_le' (short.trans enough)
  rw [loop_chunks cs proper, loop_end]

def entry (buf : Nat → Byte) : Out :=
  ⟨buf, 0, strnlen buf printTextLen 0, 0, strnlen buf printTextLen 0 + 1⟩

private theorem vsprintk_eq (copy : Copy) (args : Args) (fuel : Nat) (buf : Nat → Byte)
    (fmt : List Byte) : vsprintk copy args fuel buf fmt =
      loop copy args fuel fmt (entry buf) >>= fun o => .ok (o.write chNul).strnlen := by
  unfold vsprintk entry
  dsimp only [Out.strnlen]
  rw [Nat.zero_max]
  rfl

theorem vsprintk_spelled (copy : Copy) (args : Args) (ps : List Piece) (buf : Nat → Byte) :
    vsprintk copy args (spelled ps).length buf (spelled ps ++ [chNul]) =
      .ok (((ps.map Piece.chunk).foldl (exec copy args) (entry buf)).write chNul).strnlen := by
  rw [vsprintk_eq, spelled_eq, loop_spelled copy args _ (chunks_proper ps) le_rfl, ok_bind]

/-- The end of the format cuts a conversion off. -/
def CutOff (s : List Byte) : Prop :=
  s = [chPercent, chZero] ∨ ∃ pad long, s = chPercent :: Chunk.flags pad long

private theorem piece_behind_padding (pad : Option Byte) (u : List Byte)
    (pads : ∀ d ∈ pad, d ≠ chNul)
    (noNul : chNul ∉ u) (notZero : pad = none → u.head? ≠ some chZero) :
    (∃ (c : Chunk) (rest : List Byte), c.Proper ∧
      chPercent :: ((pad.elim [] fun d => [chZero, d]) ++ u) = c.spell ++ rest) ∨
    CutOff (chPercent :: ((pad.elim [] fun d => [chZero, d]) ++ u)) := by
  have nonzero {c : Byte} {v : List Byte} (within : chNul ∉ c :: v) : c ≠ chNul := by
    rintro rfl
    exact within List.mem_cons_self
  cases u with
  | nil => exact Or.inr (Or.inr ⟨pad, false, rfl⟩)
  | cons l v =>
    by_cases long : l = chL
    · subst long
      cases v with
      | nil => exact Or.inr (Or.inr ⟨pad, true, rfl⟩)
      | cons c rest =>
        have c_ne := nonzero fun mem => noNul (List.mem_cons_of_mem _ mem)
        refine Or.inl ⟨.conv pad true c, rest, ⟨c_ne, pads, nofun, nofun⟩, ?_⟩
        simp [Chunk.spell, Chunk.flags]
    · refine Or.inl ⟨.conv pad false l, v, ⟨nonzero noNul, pads, fun _ => long, ?_⟩, ?_⟩
      · rintro none - rfl
        exact notZero none rfl
      · simp [Chunk.spell, Chunk.flags]

/-- What a format starts with: a whole piece, unless its end cuts that off. -/
private theorem first_piece {s : List Byte} (noNul : chNul ∉ s) (nonempty : s ≠ []) :
    (∃ (c : Chunk) (rest : List Byte), c.Proper ∧ s = c.spell ++ rest) ∨ CutOff s := by
  obtain ⟨b, t, rfl⟩ := List.exists_cons_of_ne_nil nonempty
  by_cases conv : b = chPercent
  · subst conv
    rw [List.mem_cons, not_or] at noNul
    obtain ⟨-, noNul⟩ := noNul
    cases t with
    | nil => exact piece_behind_padding none [] nofun noNul nofun
    | cons z u =>
      by_cases zero : z = chZero
      · subst zero
        cases u with
        | nil => exact Or.inr (Or.inl rfl)
        | cons d u =>
          simp only [List.mem_cons, not_or] at noNul
          refine piece_behind_padding (some d) u ?_ noNul.2.2 nofun
          rintro _ ⟨⟩
          exact Ne.symm noNul.2.1
      · refine piece_behind_padding none (z :: u) nofun noNul fun _ => ?_
        rintro ⟨⟩
        exact zero rfl
  · refine Or.inl ⟨.byte b, t, ⟨?_, conv⟩, rfl⟩
    rintro rfl
    exact noNul List.mem_cons_self

private theorem loop_cutOff {s : List Byte} (cut : CutOff s) (n : Nat) (o : Out) :
    loop copy args (n + 1) (s ++ [chNul]) o = .error .pastEnd := by
  rcases cut with rfl | ⟨pad, long, rfl⟩
  · rfl
  · have notL : chNul ≠ chL := by decide
    have notZero : chNul ≠ chZero := by decide
    have step := iteration_conv copy args pad long [] o (fun _ => notL) (fun _ _ => notZero)
    rw [List.append_nil] at step
    rw [List.cons_append, loop_succ (by decide)]
    change (iteration copy args (Chunk.conv pad long chNul).spell o >>= _) = _
    rw [step, ok_bind]
    cases n <;> rfl

/-- The cursor stays in the format, or a conversion is cut off and it leaves it. -/
private theorem complete_or_past (copy : Copy) (args : Args) (s : List Byte) (noNul : chNul ∉ s)
    {n : Nat} (enough : s.length ≤ n) :
    Complete s ∨ ∀ o, loop copy args n (s ++ [chNul]) o = .error .pastEnd := by
  induction n generalizing s with
  | zero =>
    obtain rfl := List.eq_nil_of_length_eq_zero (Nat.le_zero.mp enough)
    exact Or.inl ⟨[], nofun, rfl⟩
  | succ n ih =>
    by_cases empty : s = []
    · exact Or.inl ⟨[], nofun, by rw [empty]; rfl⟩
    · rcases first_piece noNul empty with ⟨c, rest, proper, rfl⟩ | cut
      · obtain ⟨b, bs, spell, more⟩ := spell_first proper
        have short : rest.length ≤ n := by
          rw [List.length_append, spell, List.length_cons] at enough
          omega
        rcases ih rest (fun mem => noNul (List.mem_append_right _ mem)) short with
          ⟨cs, propers, rfl⟩ | past
        · refine Or.inl ⟨c :: cs, ?_, rfl⟩
          intro d mem
          rcases List.mem_cons.mp mem with rfl | mem
          · exact proper
          · exact propers d mem
        · refine Or.inr fun o => ?_
          have step := iteration_chunk copy args (rest ++ [chNul]) o proper
          rw [List.append_assoc]
          rw [spell, List.cons_append] at step ⊢
          rw [loop_succ more, step, ok_bind]
          exact past _
      · exact Or.inr fun o => loop_cutOff cut n o

/-- The formatter reads a format to its NUL and no further, in at most as many iterations as the
format has bytes, exactly when the end of the format cuts no conversion off. -/
theorem vsprintk_stops_iff (copy : Copy) (args : Args) (buf : Nat → Byte) (fmt : Text) :
    (∃ r, vsprintk copy args fmt.bytes.length buf (fmt.bytes ++ [chNul]) = .ok r) ↔
      Complete fmt.bytes := by
  constructor
  · rintro ⟨r, ran⟩
    rcases complete_or_past copy args fmt.bytes fmt.noNul le_rfl with
      complete | past
    · exact complete
    · rw [vsprintk_eq, past] at ran
      cases ran
  · rintro ⟨cs, proper, spelled⟩
    rw [vsprintk_eq, spelled, loop_spelled copy args cs proper le_rfl]
    exact ⟨_, rfl⟩

/-- A lone `%` takes the formatter past the end. -/
theorem percent_reads_past :
    ¬∀ (copy : Copy) (args : Args) (buf : Nat → Byte) (fmt : Text),
      ∃ r, vsprintk copy args fmt.bytes.length buf (fmt.bytes ++ [chNul]) = .ok r := by
  intro claim
  obtain ⟨r, ran⟩ := claim .hypervisor ⟨fun _ => 0, fun _ => 0⟩ (fun _ => 0)
    ⟨[chPercent], by decide⟩
  cases ran

end LTZVisor.Printk.Cursor
