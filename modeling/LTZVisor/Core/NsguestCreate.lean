/- LTZVisor/Core/NsguestCreate
   kind: model
   digest: The creation of the non-secure guest from its configuration, and what each part
     leaves. -/

import LTZVisor.Arch.Cp15Switch
import LTZVisor.Monitor.Handlers
import LTZVisor.Runtime.Strings

set_option autoImplicit false
set_option relaxedAutoImplicit false

namespace LTZVisor.Core.NsguestCreate

open LTZVisor.Lib.Memory LTZVisor.Lib.Block LTZVisor.Arm LTZVisor.Arm.Instr LTZVisor.Arch.Vcpu
open LTZVisor.Arch.Cp15Switch LTZVisor.Monitor.Handlers LTZVisor.Runtime.Strings

-- The fields of `struct nsguest_conf_entry` behind the pointer `g`; `gce_shared_mem` at 56 is not
-- read.

def nsguestConfEntrySize : Nat := 68

def gceName (g : Addr) : Addr := g
def gceId (mem : Mem) (g : Addr) : Word := read32 mem (g + 32#32)
def gceTrdInit (mem : Mem) (g : Addr) : Word := read32 mem (g + 36#32)
def gceTrdStart (mem : Mem) (g : Addr) : Word := read32 mem (g + 40#32)
def gceTrdEnd (mem : Mem) (g : Addr) : Word := read32 mem (g + 44#32)
def gceTrdLoad (mem : Mem) (g : Addr) : Word := read32 mem (g + 48#32)
def gceBinStart (mem : Mem) (g : Addr) : Word := read32 mem (g + 52#32)
def gceBinEnd (mem : Mem) (g : Addr) : Word := read32 mem (g + 60#32)
def gceBinLoad (mem : Mem) (g : Addr) : Word := read32 mem (g + 64#32)

/-- What compiled code leaves on the stack of the monitor between two statements of the source, the
calls of `printk` among them. -/
structure Scratch (stack : Range) where
  after : Nat → Mem → Mem
  keeps : ∀ k mem x, x ∉ stack → after k mem x = mem x

section Source

variable (env : Env) (c : Scratch env.stack) (g : Addr)

def initAttributes (mem : Mem) : Option Mem := do
  let mem := write32 mem (env.nsGuest + BitVec.ofNat 32 bootingOffset) 1#32
  let mem := write32 mem (env.nsGuest + BitVec.ofNat 32 idOffset) (gceId mem g)
  let mem ← strcpy (env.nsGuest + BitVec.ofNat 32 nameOffset) (gceName g) mem
  return c.after 0 mem

def initCore (mem : Mem) : Mem :=
  let mem := c.after 1 (memset (env.nsGuest + BitVec.ofNat 32 coreOffset) 0#32 120#32 mem)
  let mem := write32 mem (env.nsGuest + BitVec.ofNat 32 (CoreReg.offset .lrMon)) (gceBinLoad mem g)
  let mem := write32 mem (env.nsGuest + BitVec.ofNat 32 (CoreReg.offset .spsrMon)) 0x193#32
  c.after 2 mem

/-- The place of a register in the CP15 part of the context. -/
def cp15Place (r : Cp15Reg) : Addr :=
  env.nsGuest + BitVec.ofNat 32 cp15Offset + BitVec.ofNat 32 (4 * cp15Regs.idxOf r)

def initCp15 (mem : Mem) : Mem :=
  let mem := c.after 3 (memset (env.nsGuest + BitVec.ofNat 32 cp15Offset) 0#32 80#32 mem)
  let mem := c.after 4 (write32 mem (cp15Place env .sctlr) 0x00c50078#32)
  c.after 5 (write32 mem (cp15Place env .actlr) 0x00000006#32)

def loadGuest (mem : Mem) : Option Mem := do
  let mem ← memcpy (gceBinLoad mem g) (gceBinStart mem g) (gceBinEnd mem g - gceBinStart mem g) mem
  let mem := c.after 6 mem
  let mem ← if gceTrdInit mem g ≠ 0#32 then
      memcpy (gceTrdLoad mem g) (gceTrdStart mem g) (gceTrdEnd mem g - gceTrdStart mem g) mem
    else some mem
  return c.after 7 mem

/-- `cp15_restore(&NS_Guest.core.vcpu_regs_cp15)` and `set_guest_context(&NS_Guest)`. -/
def readyToRun : List (Instr Devices) :=
  [movImm .r0 (env.nsGuest + BitVec.ofNat 32 cp15Offset)] ++ cp15Restore ++
    [movImm .r0 env.nsGuest, mcr .tpidrprw .r0]

/-- The result of `ltzvisor_nsguest_create(g)`, which runs in Monitor mode, and the machine that it
leaves; the registers of compiled code are not followed. -/
def ltzvisorNsguestCreate (m : Core) : Option (Word × Core) := do
  let mem ← initAttributes env c g m.mem
  let mem ← loadGuest env c g (initCp15 env c (initCore env c g mem))
  let m := exec (readyToRun env) { m with mem }
  return (1#32, { m with mem := c.after 8 m.mem })

end Source

end LTZVisor.Core.NsguestCreate
