/- LTZVisor/Printk/Vsprintk
   kind: model
   digest: The formatter of the hypervisor and its copy in the non-secure guest. -/

import LTZVisor.Lib.Memory

set_option autoImplicit false
set_option relaxedAutoImplicit false

namespace LTZVisor.Printk.Vsprintk

open LTZVisor.Lib.Memory

def printTextLen : Nat := 0x100

/-- The two copies of the source. -/
inductive Copy
  | hypervisor | guest
deriving DecidableEq

/-- The argument words of a call, in order, and the memory that its strings are in. -/
structure Args where
  word : Nat → Word
  mem : Mem

/-- The buffer and what lies behind it, the place that is written next, the counter of the bytes
of strings, the arguments taken so far, and a bound on the offsets of the buffer touched so far. -/
structure Out where
  buf : Nat → Byte
  str : Nat
  len : Nat
  taken : Nat
  touched : Nat

def Out.write (o : Out) (c : Byte) : Out :=
  { o with buf := Function.update o.buf o.str c, touched := max o.touched (o.str + 1) }

def Out.put (o : Out) (c : Byte) : Out := { o.write c with str := o.str + 1 }

def Out.skipArg (o : Out) : Out := { o with taken := o.taken + 1 }

/-- The offset at which `strnlen(s, n)` stops; it has read every byte up to and with that one. -/
def strnlen (s : Nat → Byte) : Nat → Nat → Nat
  | 0, str => str
  | n + 1, str => if s str ≠ 0 then strnlen s n (str + 1) else str

def Out.strnlen (o : Out) : Nat × Out :=
  let n := Vsprintk.strnlen o.buf printTextLen 0
  (n, { o with touched := max o.touched (n + 1) })

def hexByte (byte : Word) : Byte :=
  if byte ≤ 9 then (byte + 0x30).setWidth 8 else (byte + 0x57).setWidth 8

/-- Whether a zero at place `i` of eight belongs to the padding; the two copies compare in
different types. -/
def hexPads (copy : Copy) (zeroPadding : Word) (i : Nat) : Bool :=
  match copy with
  | .hypervisor => (7 - (zeroPadding - 1)).toNat ≤ i
  | .guest => (7 - (zeroPadding - 1)).toInt ≤ i

/-- The loop of `%x`, with the places that it still has to do. -/
def hexLoop (copy : Copy) (number zeroPadding : Word) : Nat → Nat → Bool → Out → Out
  | 0, _, _, o => o
  | n + 1, i, keepZeros, o =>
    let byte := (number >>> (32 - (i + 1) * 4)) &&& 0xF
    let keepZeros := keepZeros || byte != 0
    let o := if keepZeros || hexPads copy zeroPadding i then o.put (hexByte byte) else o
    hexLoop copy number zeroPadding n (i + 1) keepZeros o

def divide (divisor : Word) : Nat → Word → Word → Word × Word
  | 0, number, quotient => (number, quotient)
  | n + 1, number, quotient =>
    if number ≥ divisor then divide divisor n (number - divisor) (quotient + 1)
    else (number, quotient)

/-- The divisor that the loop of `%d` computes for the place after `i`. -/
def newDivVal (i : Nat) : Word := (List.range (8 - i)).foldl (fun v _ => v * 10) 1

/-- The loop of `%d` over the first nine places, and the last one. -/
def decLoop (zeroPadding : Word) : Nat → Nat → Word → Word → Bool → Out → Out
  | 0, _, number, _, _, o => o.put ((number + 0x30).setWidth 8)
  | n + 1, i, number, divisor, keepZeros, o =>
    let (number, quotient) := divide divisor number.toNat number 0
    let keepZeros := keepZeros || quotient != 0
    let o := if keepZeros || i > ((9 - 1) - (zeroPadding - 1)).toNat then
        o.put ((quotient + 0x30).setWidth 8)
      else o
    decLoop zeroPadding n (i + 1) number (newDivVal i) keepZeros o

def decimal (number zeroPadding : Word) (o : Out) : Out :=
  decLoop zeroPadding 9 0 number 1000000000 false o

/-- The loop of `%o` over the ten places after the first. -/
def octLoop (number zeroPadding : Word) : Nat → Nat → Bool → Out → Out
  | 0, _, _, o => o
  | n + 1, i, keepZeros, o =>
    let byte := (number >>> (32 - (i + 1) * 3)) &&& 0x7
    let keepZeros := keepZeros || byte != 0
    let o := if keepZeros || i ≥ (9 - (zeroPadding - 1)).toNat then
        o.put ((byte + 0x30).setWidth 8)
      else o
    octLoop number zeroPadding n (i + 1) keepZeros o

def octal (number zeroPadding : Word) (o : Out) : Out :=
  let byte := (number >>> 30) &&& 0x3
  let keepZeros := byte != 0
  let o := if keepZeros || zeroPadding > 10 then o.put ((byte + 0x30).setWidth 8) else o
  octLoop (number <<< 2) zeroPadding 10 0 keepZeros o

/-- `while ((*str = *arg++) && len < PRINT_TEXT_LEN) { ++str; len++; }`, with a bound on its
passes. -/
def copyString (mem : Mem) : Nat → Addr → Out → Out
  | 0, _, o => o
  | n + 1, arg, o =>
    if mem arg ≠ 0 ∧ o.len < printTextLen then
      copyString mem n (arg + 1) { o.put (mem arg) with len := o.len + 1 }
    else o.write (mem arg)

def chNul : Byte := 0
def chPercent : Byte := 0x25
def chZero : Byte := 0x30
def chMinus : Byte := 0x2d
def chTab : Byte := 0x09
def chLf : Byte := 0x0a
def chCr : Byte := 0x0d
def chC : Byte := 0x63
def chD : Byte := 0x64
def chI : Byte := 0x69
def chL : Byte := 0x6c
def chO : Byte := 0x6f
def chS : Byte := 0x73
def chU : Byte := 0x75
def chX : Byte := 0x78

def signed (number zeroPadding : Word) (o : Out) : Out :=
  if number.toInt < 0 then decimal (-number) zeroPadding (o.put chMinus)
  else decimal number zeroPadding o

def convert (copy : Copy) (args : Args) (fmt : Byte) (zeroPadding : Word) (o : Out) : Out :=
  let arg := args.word o.taken
  if fmt = chX then hexLoop copy arg zeroPadding 8 0 false o.skipArg
  else if fmt = chU then
    match copy with
    | .hypervisor => decimal arg zeroPadding o.skipArg
    -- the copy ends the case instead of falling through
    | .guest => o
  else if fmt = chI ∨ fmt = chD then signed arg zeroPadding o.skipArg
  else if fmt = chO then octal arg zeroPadding o.skipArg
  else if fmt = chS then copyString args.mem (printTextLen + 1) arg o.skipArg
  else if fmt = chC then o.skipArg.put (arg.setWidth 8)
  else if fmt = chPercent then o.put fmt
  else if fmt = chTab then (o.put chPercent).put fmt
  else if fmt = chLf then ((o.put chPercent).put chCr).put chLf
  else o

/-- Why a run of the formatter has no result: it read the format past its end, or the bound on
the iterations of its loop was too small. -/
inductive Fault
  | pastEnd | fuel
deriving DecidableEq

def peek : List Byte → Except Fault Byte
  | [] => .error .pastEnd
  | c :: _ => .ok c

def padding (fmt : List Byte) : Except Fault (Word × List Byte) := do
  if (← peek fmt) = chZero then
    let fmt := fmt.tail
    let c ← peek fmt
    return (c.setWidth 32 - 0x30, fmt.tail)
  else return (1, fmt)

def percent (copy : Copy) (args : Args) (fmt : List Byte) (o : Out) :
    Except Fault (List Byte × Out) := do
  let (zeroPadding, fmt) ← padding fmt.tail
  let c ← peek fmt
  let fmt := if c = chL then fmt.tail else fmt
  let c ← peek fmt
  return (fmt, convert copy args c zeroPadding o)

def iteration (copy : Copy) (args : Args) (fmt : List Byte) (o : Out) :
    Except Fault (List Byte × Out) := do
  let c ← peek fmt
  if c ≠ chPercent ∧ c ≠ chLf ∧ c ≠ chTab then return (fmt.tail, o.put c)
  else
    let (fmt, o) ← if c = chPercent then percent copy args fmt o else pure (fmt, o)
    let c ← peek fmt
    let o := if c = chLf then (o.put chCr).put chLf else o
    let o := if c = chTab then o.put c else o
    return (fmt.tail, o)

def loop (copy : Copy) (args : Args) : Nat → List Byte → Out → Except Fault Out
  | n, fmt, o => do
    if (← peek fmt) = chNul then return o
    else match n with
      | 0 => throw .fuel
      | n + 1 =>
        let (fmt, o) ← iteration copy args fmt o
        loop copy args n fmt o

/-- The value of `vsprintk` and its buffer, when its loop takes at most `fuel` iterations. -/
def vsprintk (copy : Copy) (args : Args) (fuel : Nat) (buf : Nat → Byte) (fmt : List Byte) :
    Except Fault (Nat × Out) := do
  let o : Out := ⟨buf, 0, 0, 0, 0⟩
  let (len, o) := o.strnlen
  let o ← loop copy args fuel fmt { o with len := len }
  return (o.write chNul).strnlen

/-- The bytes that `serial_puts` sends: those before the first NUL, which is at most `n` on. -/
def serialPuts (buf : Nat → Byte) : Nat → Nat → List Byte
  | 0, _ => []
  | n + 1, s => if buf s ≠ 0 then buf s :: serialPuts buf n (s + 1) else []

/-- What `printk` sends and returns; `print_buffer` holds `buf` before. -/
def printk (copy : Copy) (args : Args) (fuel : Nat) (buf : Nat → Byte) (fmt : List Byte) :
    Except Fault (List Byte × Nat) := do
  let (i, o) ← vsprintk copy args fuel buf fmt
  -- the NUL that `vsprintk` wrote is where its `str` was left
  return (serialPuts o.buf o.str 0, i)

end LTZVisor.Printk.Vsprintk
