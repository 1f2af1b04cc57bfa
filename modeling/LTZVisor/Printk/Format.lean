/- LTZVisor/Printk/Format
   kind: spec
   digest: Formats as sequences of pieces, and what they stand for with their arguments. -/

import LTZVisor.Lib.Numeral
import LTZVisor.Printk.Vsprintk

set_option autoImplicit false
set_option relaxedAutoImplicit false

namespace LTZVisor.Printk.Format

open LTZVisor.Lib LTZVisor.Lib.Memory LTZVisor.Printk.Vsprintk

/-- The bytes of a string before its NUL. -/
structure Text where
  bytes : List Byte
  noNul : chNul ∉ bytes

def Text.take (t : Text) (n : Nat) : Text :=
  ⟨t.bytes.take n, fun nul => t.noNul (List.mem_of_mem_take nul)⟩

/-- A piece of any format: a byte, or a conversion of some character with the character after a
`0` and with an `l`. -/
inductive Chunk
  | byte (c : Byte)
  | conv (pad : Option Byte) (long : Bool) (c : Byte)
deriving DecidableEq

def Chunk.flags (pad : Option Byte) (long : Bool) : List Byte :=
  (pad.elim [] fun d => [chZero, d]) ++ if long then [chL] else []

def Chunk.spell : Chunk → List Byte
  | .byte c => [c]
  | .conv pad long c => chPercent :: (Chunk.flags pad long ++ [c])

/-- A piece has no NUL in it, and a formatter that reads it from the left reads it as that piece. -/
def Chunk.Proper : Chunk → Prop
  | .byte c => c ≠ chNul ∧ c ≠ chPercent
  | .conv pad long c => c ≠ chNul ∧ (∀ d ∈ pad, d ≠ chNul) ∧ (long = false → c ≠ chL) ∧
      (pad = none → long = false → c ≠ chZero)

/-- A format in which no conversion is cut off by the end. -/
def Complete (bytes : List Byte) : Prop :=
  ∃ cs : List Chunk, (∀ c ∈ cs, c.Proper) ∧ bytes = cs.flatMap Chunk.spell

/-- The conversions of a well-formed format. -/
inductive Kind
  | x | u | d | i | o | s | c | percent
deriving DecidableEq

def Kind.char : Kind → Byte
  | .x => chX
  | .u => chU
  | .d => chD
  | .i => chI
  | .o => chO
  | .s => chS
  | .c => chC
  | .percent => chPercent

/-- A piece of a well-formed format. -/
inductive Piece
  | byte (c : Byte) (ordinary : c ≠ chNul ∧ c ≠ chPercent)
  | conv (pad : Option (Fin 8)) (long : Bool) (kind : Kind)

/-- The pad digits are `1` to `8`. -/
def padByte (d : Fin 8) : Byte := BitVec.ofNat 8 (0x31 + d)

def Piece.chunk : Piece → Chunk
  | .byte c _ => .byte c
  | .conv pad long kind => .conv (pad.map padByte) long kind.char

def Piece.spell (p : Piece) : List Byte := p.chunk.spell

theorem Kind.char_ne (kind : Kind) :
    kind.char ≠ chNul ∧ kind.char ≠ chL ∧ kind.char ≠ chZero ∧ kind.char ≠ chLf ∧
      kind.char ≠ chTab := by
  cases kind <;> decide

private theorem padByte_ne_nul : ∀ d : Fin 8, padByte d ≠ chNul := by decide

theorem Piece.proper (p : Piece) : p.chunk.Proper := by
  cases p with
  | byte c ordinary => exact ordinary
  | conv pad long kind =>
    obtain ⟨notNul, notL, notZero, -, -⟩ := kind.char_ne
    refine ⟨notNul, ?_, fun _ => notL, fun _ _ => notZero⟩
    intro d hd
    obtain ⟨k, -, rfl⟩ := Option.mem_map.mp hd
    exact padByte_ne_nul k

abbrev Piece.Arg : Piece → Type
  | .byte _ _ => Unit
  | .conv _ _ .s => Text
  | .conv _ _ .c => Byte
  | .conv _ _ .percent => Unit
  | .conv _ _ _ => Word

/-- A piece with an argument for it. A well-formed format and a matching list of arguments are a
list of these. -/
structure Item where
  piece : Piece
  arg : piece.Arg

def spelled (ps : List Piece) : List Byte := ps.flatMap Piece.spell

def formatOf (its : List Item) : List Byte := spelled (its.map Item.piece)

theorem spelled_eq (ps : List Piece) : spelled ps = (ps.map Piece.chunk).flatMap Chunk.spell := by
  rw [List.flatMap_map]
  rfl

theorem chunks_proper (ps : List Piece) : ∀ c ∈ ps.map Piece.chunk, c.Proper := by
  intro c hc
  obtain ⟨p, -, rfl⟩ := List.mem_map.mp hc
  exact p.proper

def Item.takes : Item → Nat
  | ⟨.byte _ _, _⟩ => 0
  | ⟨.conv _ _ .percent, _⟩ => 0
  | ⟨.conv _ _ _, _⟩ => 1

/-- The bytes of a string at an address, and its NUL behind them. -/
def StringAt (mem : Mem) : Addr → List Byte → Prop
  | a, [] => mem a = chNul
  | a, b :: bs => mem a = b ∧ StringAt mem (a + 1) bs

/-- The argument word that carries the argument of an item. -/
def Item.carriedBy (args : Args) (w : Word) : Item → Prop
  | ⟨.byte _ _, _⟩ => True
  | ⟨.conv _ _ .percent, _⟩ => True
  | ⟨.conv _ _ .s, t⟩ => StringAt args.mem w (Text.bytes t)
  | ⟨.conv _ _ .c, b⟩ => w.setWidth 8 = b
  | ⟨.conv _ _ .x, n⟩ | ⟨.conv _ _ .u, n⟩ | ⟨.conv _ _ .d, n⟩ | ⟨.conv _ _ .i, n⟩
  | ⟨.conv _ _ .o, n⟩ => w = n

/-- The argument words, from number `k` on, carry the arguments. -/
def Passed (args : Args) : Nat → List Item → Prop
  | _, [] => True
  | k, it :: its => it.carriedBy args (args.word k) ∧ Passed args (k + it.takes) its

def minDigits (pad : Option (Fin 8)) : Nat := pad.elim 1 fun d => d + 1

/-- `0` to `9` and `a` to `f`. -/
def digitByte (d : Nat) : Byte := BitVec.ofNat 8 (if d < 10 then 0x30 + d else 0x57 + d)

def numeralBytes (b : Nat) (pad : Option (Fin 8)) (n : Nat) : List Byte :=
  (Numeral.numeral b (minDigits pad) n).map digitByte

def signedBytes (pad : Option (Fin 8)) (n : Word) : List Byte :=
  if n.toInt < 0 then chMinus :: numeralBytes 10 pad n.toInt.natAbs
  else numeralBytes 10 pad n.toInt.natAbs

def Item.render : Item → List Byte
  | ⟨.byte c _, _⟩ => if c = chLf then [chCr, chLf] else [c]
  | ⟨.conv pad _ .x, n⟩ => numeralBytes 16 pad (BitVec.toNat n)
  | ⟨.conv pad _ .u, n⟩ => numeralBytes 10 pad (BitVec.toNat n)
  | ⟨.conv pad _ .d, n⟩ => signedBytes pad n
  | ⟨.conv pad _ .i, n⟩ => signedBytes pad n
  | ⟨.conv pad _ .o, n⟩ => numeralBytes 8 pad (BitVec.toNat n)
  | ⟨.conv _ _ .s, t⟩ => Text.bytes t
  | ⟨.conv _ _ .c, b⟩ => [b]
  | ⟨.conv _ _ .percent, _⟩ => [chPercent]

def render (its : List Item) : List Byte := its.flatMap Item.render

/-- The bytes of the string that an item prints. -/
def Item.stringBytes : Item → Nat
  | ⟨.conv _ _ .s, t⟩ => t.bytes.length
  | _ => 0

/-- Whether an item prints a NUL. -/
def Item.nul : Item → Bool
  | ⟨.conv _ _ .c, b⟩ => decide (b = chNul)
  | _ => false

def Item.trim (budget : Nat) : Item → Item
  | ⟨.conv pad long .s, t⟩ => ⟨.conv pad long .s, Text.take t budget⟩
  | it => it

theorem Item.string_or_whole (it : Item) :
    (∃ (pad : Option (Fin 8)) (long : Bool) (t : Text), it = ⟨.conv pad long .s, t⟩) ∨
      it.stringBytes = 0 ∧ ∀ budget, it.trim budget = it := by
  obtain ⟨piece, arg⟩ := it
  cases piece with
  | byte c ordinary => exact Or.inr ⟨rfl, fun _ => rfl⟩
  | conv pad long kind =>
    cases kind with
    | s => exact Or.inl ⟨pad, long, arg, rfl⟩
    | _ => exact Or.inr ⟨rfl, fun _ => rfl⟩

/-- The strings cut to a number of bytes that they share, the first string first. -/
def trim : Nat → List Item → List Item
  | _, [] => []
  | budget, it :: its => it.trim budget :: trim (budget - it.stringBytes) its

end LTZVisor.Printk.Format
