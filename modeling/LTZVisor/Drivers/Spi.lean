/- LTZVisor/Drivers/Spi
   kind: model
   digest: The receive path of the SPI driver and the ring in which it keeps what it received. -/

import LTZVisor.Lib.Memory
import LTZVisor.Lib.Ring
import LTZVisor.Lib.Runs

set_option autoImplicit false
set_option relaxedAutoImplicit false

namespace LTZVisor.Drivers.Spi

open LTZVisor.Lib LTZVisor.Lib.Memory LTZVisor.Lib.Runs

def rxBuffSize : Nat := 128

def crMasterMode : Word := 1#32
def crClkPolHigh : Word := 1#32 <<< 1
def crClkPhaseInactive : Word := 1#32 <<< 2
def crBaudRateDiv4 : Word := 1#32 <<< 3
def crPeriSel1to3 : Word := 0#32 <<< 9
/-- The digits of the field are decimal in the header. -/
def crCsNs : Word := 1111#32 <<< 10
def crManStartAuto : Word := 0#32 <<< 15
def crModeFailEn : Word := 1#32 <<< 17

def srRxovrYes : Word := 1#32
def srModefYes : Word := 1#32 <<< 1
def srTxFull : Word := 1#32 <<< 3
def srRxNempty : Word := 1#32 <<< 4
def srTxUf : Word := 1#32 <<< 6

/-- The interrupt enable and disable registers have the same layout. -/
def iRxovr : Word := 1#32
def iModf : Word := 1#32 <<< 1
def iTxovr : Word := 1#32 <<< 2
def iRxNempty : Word := 1#32 <<< 4
def iRxfull : Word := 1#32 <<< 5

def rxThresVal : Word := 0x06#32
def txThresVal : Word := 0x01#32

/-- The controller, with its receive FIFO oldest byte first, and the variables of the driver. -/
structure State where
  crRegister : Word
  /-- The status bits, apart from the one that compares the FIFO with its threshold. -/
  status : Word
  imaskRegister : Word
  rxFifo : List Byte
  txwrRegister : Word
  rxThresReg : Word
  rxBuffer : Byte → Byte
  rxBufferHead : Byte
  rxBufferTail : Byte

def State.srRegister (s : State) : Word :=
  if s.rxThresReg.toNat ≤ s.rxFifo.length then s.status ||| srRxNempty
  else s.status &&& ~~~srRxNempty

/-- A one written to a status bit clears it. -/
def State.writeSr (s : State) (v : Word) : State := { s with status := s.status &&& ~~~v }

def State.writeIdis (s : State) (v : Word) : State :=
  { s with imaskRegister := s.imaskRegister &&& ~~~v }

def State.writeIen (s : State) (v : Word) : State :=
  { s with imaskRegister := s.imaskRegister ||| v }

/-- A read of `rxd_register`, or `none` when the FIFO is empty. -/
def State.readRxd (s : State) : Option (Word × State) :=
  match s.rxFifo with
  | [] => none
  | b :: fifo => some (b.setWidth 32, { s with rxFifo := fifo })

def spi1Config (s : State) : State :=
  { s with
    -- the first write, of the reset value, is overwritten by the second
    crRegister := crCsNs ||| crPeriSel1to3 ||| crBaudRateDiv4 |||
      (crClkPolHigh ||| crClkPhaseInactive)
      ||| crMasterMode ||| crModeFailEn ||| crManStartAuto
    rxBufferHead := 0
    rxBufferTail := 0
    rxThresReg := rxThresVal
    txwrRegister := txThresVal }

def rxHead (s : State) : Byte :=
  let head := s.rxBufferHead + 1
  if head.toNat = rxBuffSize then 0 else head

def rxPass (s : State) : Option State := do
  let (read, s) ← s.readRxd
  if rxHead s ≠ s.rxBufferTail then
    return { s with
      rxBuffer := fun i => if i = s.rxBufferHead then read.setWidth 8 else s.rxBuffer i
      rxBufferHead := rxHead s }
  else return s

def rxLoop : Nat → State → Option State
  | 0, s => some s
  | entries + 1, s => rxPass s >>= rxLoop entries

/-- Clears a status bit that was seen set, by a read, an OR and a write. -/
def clearSr (irqStatus flag : Word) (s : State) : State :=
  if irqStatus &&& flag ≠ 0 then s.writeSr (s.srRegister ||| flag) else s

/-- Clears the interrupts that the status read at the start reports. -/
def clearInterrupts (s : State) : State :=
  let irqStatus := s.srRegister
  clearSr irqStatus srTxUf
    (clearSr irqStatus srModefYes
      (clearSr irqStatus srRxovrYes (clearSr irqStatus srTxFull s)))

def spi1IrqHandler (s : State) : Option State :=
  let s := clearInterrupts (s.writeIdis (iRxovr ||| iModf ||| iRxfull))
  let s := if s.srRegister &&& srRxNempty ≠ 0 then rxLoop rxThresVal.toNat s else some s
  s.map fun s => s.writeIen (iRxovr ||| iModf ||| iRxNempty ||| iRxfull)

/-- The result of `SPI1_ReadData(&data)`, and `data` afterwards. -/
structure Read where
  ret : Byte
  data : Byte
deriving DecidableEq

/-- Takes a byte from the ring, if one is there. -/
def fetch (data : Byte) (s : State) : Read × State :=
  if s.rxBufferHead ≠ s.rxBufferTail then
    let tail := s.rxBufferTail + 1
    (⟨1, s.rxBuffer s.rxBufferTail⟩,
      { s with rxBufferTail := if tail.toNat = rxBuffSize then 0 else tail })
  else (⟨0, data⟩, s)

def spi1ReadData (data : Byte) (s : State) : Read × State :=
  let s := s.writeIdis (iRxovr ||| iModf ||| iTxovr ||| iRxNempty ||| iRxfull)
  let (out, s) := fetch data s
  let s := { s with crRegister := s.crRegister ||| crCsNs }
  (out, s.writeIen (iRxovr ||| iModf ||| iRxNempty ||| iRxfull))

/-- A call of the driver, or a change that the controller makes between two calls. -/
inductive Event
  | config
  | irq
  | readData (data : Byte)
  | arrive (b : Byte)
  | raise (status : Word)

def step (s : State) : Event → Option (State × Option Read)
  | .config => some (spi1Config s, none)
  | .irq => (spi1IrqHandler s).map fun s => (s, none)
  | .readData data => some ((spi1ReadData data s).2, some (spi1ReadData data s).1)
  | .arrive b => some ({ s with rxFifo := s.rxFifo ++ [b] }, none)
  | .raise status => some ({ s with status := status }, none)

-- What the driver is for: a queue of 127 bytes, filled from the controller's FIFO.

structure Receiver where
  fifo : List Byte
  queue : List Byte

def capacity : Nat := rxBuffSize - 1

def Receiver.step (r : Receiver) : Event → Receiver × Option Read
  | .config => ({ r with queue := [] }, none)
  | .irq =>
    if 6 ≤ r.fifo.length then
      (⟨r.fifo.drop 6, (r.fifo.take 6).foldl (Ring.offer capacity) r.queue⟩, none)
    else (r, none)
  | .readData data =>
    match r.queue with
    | [] => (r, some ⟨0, data⟩)
    | b :: queue => ({ r with queue := queue }, some ⟨1, b⟩)
  | .arrive b => ({ r with fifo := r.fifo ++ [b] }, none)
  | .raise _ => (r, none)

def queued (s : State) : List Byte :=
  Ring.contents rxBuffSize (fun i => s.rxBuffer (BitVec.ofNat 8 i)) s.rxBufferHead.toNat
    s.rxBufferTail.toNat

/-- A configured driver stands for a receiver. -/
structure Holds (s : State) (r : Receiver) : Prop where
  head : s.rxBufferHead.toNat < rxBuffSize
  tail : s.rxBufferTail.toNat < rxBuffSize
  thres : s.rxThresReg = rxThresVal
  fifo : s.rxFifo = r.fifo
  queue : queued s = r.queue

end LTZVisor.Drivers.Spi
