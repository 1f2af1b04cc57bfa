/- LTZVisor/Drivers/Gic
   kind: model
   digest: The calls of the interrupt controller driver on the registers of the distributor. -/

import LTZVisor.Lib.Memory

set_option autoImplicit false
set_option relaxedAutoImplicit false

namespace LTZVisor.Drivers.Gic

open LTZVisor.Lib.Memory

def noOfInterruptsImplemented : Nat := 96
def gicNumRegisters : Nat := noOfInterruptsImplemented / 32
def gicPriorityRegisters : Nat := 24
def gicTargetRegisters : Nat := 24

/-- The registers of the distributor that the driver reads or writes. -/
inductive Reg
  | icddcr
  | icdisr (x : Word)
  | icdiser (x : Word)
  | icdicer (x : Word)
  | icdispr (x : Word)
  | icdicpr (x : Word)
  | icdipr (x : Word)
  | icdiptr (x : Word)
  | icdicfr (x : Word)
  | icpidr47 (x : Word)
  | icpidr03 (x : Word)
  | iccidr (x : Word)
  deriving DecidableEq

/-- The registers and what was written to them; `icdiser` and `icdispr` show which interrupts are
enabled and which are pending. -/
structure Distributor where
  reg : Reg → Word
  writes : List (Reg × Word)

namespace Reg

def storage : Reg → Reg
  | .icdicer x => .icdiser x
  | .icdicpr x => .icdispr x
  | r => r

/-- A one written to a set or clear register acts on its interrupt alone; the other registers are
plain storage. -/
def stored : Reg → Word → Word → Word
  | .icdiser _, old, v => old ||| v
  | .icdicer _, old, v => old &&& ~~~v
  | .icdispr _, old, v => old ||| v
  | .icdicpr _, old, v => old &&& ~~~v
  | _, _, v => v

end Reg

namespace Distributor

def write (d : Distributor) (r : Reg) (v : Word) : Distributor where
  reg := Function.update d.reg r.storage (r.stored (d.reg r.storage) v)
  writes := d.writes ++ [(r, v)]

def writeEach (d : Distributor) (r : Word → Reg) (first limit : Nat) (v : Word) : Distributor :=
  (List.range' first (limit - first)).foldl (fun d i => d.write (r (BitVec.ofNat 32 i)) v) d

end Distributor

def legacyIdentification : List (Reg × Word) :=
  [(.icpidr03 0, 0x90), (.icpidr03 1, 0xB3), (.icpidr03 2, 0x1B), (.icpidr03 3, 0x00),
    (.icpidr47 0, 0x04), (.icpidr47 1, 0x00), (.icpidr47 2, 0x00), (.icpidr47 3, 0x00),
    (.iccidr 0, 0x0D), (.iccidr 1, 0xF0), (.iccidr 2, 0x05), (.iccidr 3, 0xB1)]

def Identified (d : Distributor) : Prop := ∀ id ∈ legacyIdentification, d.reg id.1 = id.2

instance (d : Distributor) : Decidable (Identified d) :=
  inferInstanceAs (Decidable (∀ id ∈ legacyIdentification, d.reg id.1 = id.2))

def interruptDistributorInit (d : Distributor) : Bool × Distributor :=
  if ¬Identified d then (false, d)
  else
    let d := d.write .icddcr 0x00000000
    let d := d.writeEach .icdicer 0 gicNumRegisters 0xFFFFFFFF
    let d := d.writeEach .icdicpr 1 gicNumRegisters 0xFFFFFFFF
    let d := d.writeEach .icdipr 8 gicPriorityRegisters 0x00000000
    let d := d.writeEach .icdiptr 0 gicTargetRegisters 0x00000000
    let d := d.writeEach .icdicfr 2 ((noOfInterruptsImplemented - 32) / 16) 0x55555555
    let d := d.write .icddcr 0x00000001
    let d := d.write .icddcr (d.reg .icddcr ||| 0x00000002)
    (true, d)

/-- What `interrupt_interface_init` writes to the registers that the distributor has for the CPU. -/
def interruptInterfaceRegisters (d : Distributor) : Distributor :=
  let d := d.write (.icdicpr 0) 0xFFFFFFFF
  let d := d.writeEach .icdipr 0 8 0x00000000
  let d := d.write (.icdicfr 0) 0xAAAAAAAA
  d.write (.icdicfr 1) 0xAAAAAAAA

def interruptEnable (interrupt enable : Word) (d : Distributor) : Distributor :=
  let word := interrupt / 32#32
  let interrupt := 1#32 <<< (interrupt % 32#32)
  if enable ≠ 0#32 then d.write (.icdiser word) interrupt else d.write (.icdicer word) interrupt

def interruptPrioritySet (interrupt priority : Word) (d : Distributor) : Word × Distributor :=
  let priority := priority &&& 0xF#32
  let word := interrupt / 4#32
  let bitShift := interrupt % 4#32 * 8#32 + 4#32
  let oldPriority := d.reg (.icdipr word)
  let temp := oldPriority &&& ~~~(0xF#32 <<< bitShift)
  let temp := temp ||| priority <<< bitShift
  ((oldPriority >>> bitShift) &&& 0xF#32, d.write (.icdipr word) temp)

def interruptTargetSet (interrupt cpu set : Word) (d : Distributor) : Distributor :=
  let word := interrupt / 4#32
  let bitShift := interrupt % 4#32 * 8#32
  let cpu := (1#32 <<< cpu) <<< bitShift
  let temp := d.reg (.icdiptr word)
  let temp := if set ≠ 0#32 then temp ||| cpu else temp &&& ~~~cpu
  d.write (.icdiptr word) temp

inductive IntSecurity
  | intS | intNs
  deriving DecidableEq

def interruptSecurityConfig (interrupt : Word) (security : IntSecurity) (d : Distributor) :
    Distributor :=
  let word := interrupt / 32#32
  let interrupt := 1#32 <<< (interrupt % 32#32)
  let temp := d.reg (.icdisr word)
  let temp := if security = .intNs then temp ||| interrupt else temp &&& ~~~interrupt
  d.write (.icdisr word) temp

def interruptSecurityConfigall (d : Distributor) : Distributor :=
  d.writeEach .icdisr 1 gicNumRegisters 0xFFFFFFFF

end LTZVisor.Drivers.Gic
