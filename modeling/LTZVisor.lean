import LTZVisor.Lib.Memory
import LTZVisor.Arm.Psr
import LTZVisor.Arm.Instr
import LTZVisor.Arm.Exception
import LTZVisor.Arm.Slot
import LTZVisor.Arch.Vcpu
import LTZVisor.Lib.GicCpu
import LTZVisor.Monitor.Macros
import LTZVisor.Monitor.Handlers
import LTZVisor.Monitor.Fiq
import LTZVisor.Monitor.BoardSmc
import LTZVisor.Monitor.SmcReturn
import LTZVisor.Monitor.Switch
import LTZVisor.Lib.Runs
import LTZVisor.Monitor.Guests
import LTZVisor.Monitor.SecureIntegrity
import LTZVisor.Monitor.GuestContext
import LTZVisor.Monitor.InterruptPairing
import LTZVisor.Drivers.Spi
import LTZVisor.Drivers.ReceiveRing
import LTZVisor.Drivers.TimerPeriod
import LTZVisor.NsGuest.CriticalSection
import LTZVisor.Lib.Numeral
import LTZVisor.Printk.Format
import LTZVisor.Printk.Cursor
import LTZVisor.Printk.Copies
import LTZVisor.Printk.Conversions
import LTZVisor.Printk.Printing
import LTZVisor.Printk.Rendering
import LTZVisor.Printk.Buffer
import LTZVisor.Lib.FirstMatch
import LTZVisor.NsGuest.BaudRate
import LTZVisor.Monitor.Events
import LTZVisor.Monitor.EventInvariant
import LTZVisor.Monitor.StackBalance
import LTZVisor.Monitor.InterruptRouting
import LTZVisor.Monitor.SpatialIsolation
import LTZVisor.Lib.Block
import LTZVisor.Runtime.Strings
import LTZVisor.Arch.Cp15Switch
import LTZVisor.Core.NsguestCreate
import LTZVisor.Core.Context
import LTZVisor.Core.FirstEntry
import LTZVisor.Drivers.TimerRejection
import LTZVisor.Monitor.FiqDispatch
import LTZVisor.Drivers.Gic
import LTZVisor.Drivers.GicFields
import LTZVisor.Drivers.GicInit
import LTZVisor.Drivers.PolledUart
import LTZVisor.Drivers.SpiControl
import LTZVisor.Lib.CString
import LTZVisor.NsGuest.Echo
import LTZVisor.Core.Kickoff
import LTZVisor.Monitor.Trampoline
import LTZVisor.Lib.Loop
import LTZVisor.Arm.Cond
import LTZVisor.Core.Bss
import LTZVisor.Arch.Cache
import LTZVisor.Arch.SetWay
import LTZVisor.Arm.Frame
import LTZVisor.Arch.CacheEffects
import LTZVisor.Arch.Cp15Context
import LTZVisor.Monitor.MemoryService
import LTZVisor.Lib.Pauses
import LTZVisor.Monitor.Preemption
import LTZVisor.Boards.Slcr
import LTZVisor.Core.HwInit
import LTZVisor.Core.Reset
import LTZVisor.Arm.Sections
import LTZVisor.NsGuest.SystemControl
import LTZVisor.NsGuest.TranslationTable
import LTZVisor.Printk.Console
import LTZVisor.Runtime.Concat
import LTZVisor.SGuest.Blink
import LTZVisor.Arm.Stack
import LTZVisor.NsGuest.PortAsm
import LTZVisor.NsGuest.TaskContext
import LTZVisor.NsGuest.TaskStacks
import LTZVisor.NsGuest.PortIrq
import LTZVisor.NsGuest.TaskSwitch
import LTZVisor.NsGuest.Tasks
import LTZVisor.NsGuest.TaskRuns
