/- LTZVisor/NsGuest/Uart
   kind: model
   digest: The search of the non-secure guest for the divisors of a baud rate. -/

import LTZVisor.Lib.Memory

set_option autoImplicit false
set_option relaxedAutoImplicit false

namespace LTZVisor.NsGuest.Uart

open LTZVisor.Lib.Memory

def uartBaudRate : Word := 115200#32
def uartFreqClk : Word := 50000000#32
def uartMaxError : Word := 5#32

def uartControlTxdis : Word := 1#32 <<< 5
def uartControlTxen : Word := 1#32 <<< 4
def uartControlRxdis : Word := 1#32 <<< 3
def uartControlRxen : Word := 1#32 <<< 2
def uartControlTxres : Word := 1#32 <<< 1
def uartControlRxres : Word := 1#32 <<< 0

inductive Register
  | control | brGen | brDiv
deriving DecidableEq

/-- A write to a register of one of the two controllers. -/
structure Write where
  uart : Fin 2
  register : Register
  value : Word
deriving DecidableEq

/-- A division, which has no value for the divisor zero. -/
def div? (x y : Word) : Option Word := if y = 0 then none else some (x / y)

/-- The three divisions of an iteration: the value for `br_gen`, and whether its error is
acceptable. -/
def tryBdiv (baudRate : Word) (bdiv : Byte) : Option (BitVec 16 × Bool) := do
  let bdivPlusOne := bdiv.setWidth 32 + 1
  let cdCalc := (← div? uartFreqClk (baudRate * bdivPlusOne)).setWidth 16
  let baudRateCalc ← div? uartFreqClk (cdCalc.setWidth 32 * bdivPlusOne)
  let errorCalc :=
    (if baudRate > baudRateCalc then baudRate - baudRateCalc
      else baudRateCalc - baudRate).setWidth 16
  let error ← div? (errorCalc.setWidth 32 * 1000) baudRate
  return (cdCalc, error < uartMaxError)

/-- The loop, with the iterations that it still has to do. -/
def search (baudRate : Word) : Nat → Byte → Option (Option (BitVec 16 × Byte))
  | 0, _ => some none
  | n + 1, bdiv => do
    let (cdCalc, acceptable) ← tryBdiv baudRate bdiv
    if acceptable then return some (cdCalc, bdiv)
    else search baudRate n (bdiv + 1)

/-- The value that is returned and the registers that are written, when no division is by zero. -/
def uartSetBaudRate (uartId : Fin 2) (baudRate : Word) : Option (Word × List Write) := do
  let baudRate := if baudRate = 0 then uartBaudRate else baudRate
  match ← search baudRate (255 - 4) 4 with
  | none => return (0, [])
  | some (cdCalc, bdiv) => return (1,
      [⟨uartId, .control, uartControlRxdis ||| uartControlTxdis⟩,
        ⟨uartId, .brGen, cdCalc.setWidth 32⟩,
        ⟨uartId, .brDiv, bdiv.setWidth 32⟩,
        ⟨uartId, .control, uartControlTxres ||| uartControlRxres⟩,
        ⟨uartId, .control, uartControlTxen ||| uartControlRxen⟩])

end LTZVisor.NsGuest.Uart
