/- LTZVisor/Core/HwInit
   kind: property
   digest: The boot of the hypervisor, all or nothing, and the interrupts after that of the secure
     guest. -/

import LTZVisor.Boards.Slcr
import LTZVisor.Core.NsguestCreate
import LTZVisor.Drivers.GicInterface
import LTZVisor.Drivers.GicTable

set_option autoImplicit false
set_option relaxedAutoImplicit false

namespace LTZVisor.Core.HwInit

open LTZVisor.Lib.Memory LTZVisor.Lib.LastWrite LTZVisor.Lib.Loop LTZVisor.Boards.Slcr
open LTZVisor.Boards.Zedboard LTZVisor.Drivers.Gic LTZVisor.Drivers.GicFields
open LTZVisor.Drivers.GicInterface LTZVisor.Drivers.GicTable LTZVisor.Core.NsguestCreate
open LTZVisor.Monitor.Handlers

def uart1Interrupt : Word := 82#32
def ttc1Ttcx2Interrupt : Word := 70#32
def spi1Interrupt : Word := 81#32
def scutimerInterrupt : Word := 29#32
def gem0Interrupt : Word := 54#32
def ttc0Ttcx2Interrupt : Word := 43#32

/-- A register of UART 1 that `uart_init` writes. -/
inductive UartReg
  | control | brGen | brDiv | rxFifoTrig | rxTimeout | isrStatus | isrEn
  deriving DecidableEq

abbrev UartWrite := UartReg × Word

def uartControlStpbrk : Word := 1#32 <<< 8
def uartControlTxdis : Word := 1#32 <<< 5
def uartControlTxen : Word := 1#32 <<< 4
def uartControlRxdis : Word := 1#32 <<< 3
def uartControlRxen : Word := 1#32 <<< 2
def uartControlTxres : Word := 1#32 <<< 1
def uartControlRxres : Word := 1#32 <<< 0
def uartCd115200 : Word := 72#32
def uartBdiv115200 : Word := 5#32

/-- The result and the writes of `uart_set_baud_rate(1, UART_BAUD_RATE)`. -/
def uartSetBaudRate : Bool × List UartWrite := (true, [
  (.control, uartControlRxdis ||| uartControlTxdis),
  (.brGen, uartCd115200),
  (.brDiv, uartBdiv115200),
  (.control, uartControlTxres ||| uartControlRxres),
  (.control, uartControlTxen ||| uartControlRxen)])

def uartInit : Bool × List UartWrite :=
  let (ret, writes) := uartSetBaudRate
  if ¬ret then (false, writes)
  else (true, writes ++ [
    (.rxFifoTrig, 1#32),
    (.rxTimeout, 0#32),
    (.isrStatus, 0xFFFFFFFF#32),
    (.isrEn, 1#32),
    -- `control` still reads as it was written last.
    (.control, uartControlTxen ||| uartControlRxen |||
      (uartControlStpbrk ||| uartControlRxres ||| uartControlTxres))])

/-- A call of `printk`. -/
structure Line where
  fmt : String
  args : List String

def version : String := "0.2.2"
def arch : String := "ARMv7-A"
def cpu : String := "Cortex-A9"
def platform : String := "Zynq-7000"

/-- What the boot configures, and the writes to the registers of UART 1. `console` has the messages,
those of `ltzvisor_nsguest_create` left out; the UART takes them all. -/
structure Platform where
  uart : List UartWrite
  console : List Line
  gic : Distributor
  cpu : CpuInterface
  board : Board

def Platform.printk (p : Platform) (ls : List Line) : Platform :=
  { p with console := p.console ++ ls }

def banner : List Line := [
  ⟨"\n\n\t", []⟩,
  ⟨"----------------------------------------------------------\n\t", []⟩,
  ⟨"                 LTZVisor (version %s)        \n\t", [version]⟩,
  ⟨"----------------------------------------------------------\n\t", []⟩,
  ⟨" -> Arch (%s): CPU (%s) initialization ... \n\t", [arch, cpu]⟩,
  ⟨" -> Arch (%s): GIC initialization ... \n\t", [arch]⟩]

def configSecurity (d : Distributor) : Distributor :=
  let d := interruptSecurityConfigall d
  let d := interruptSecurityConfig uart1Interrupt .intNs d
  let d := interruptSecurityConfig ttc1Ttcx2Interrupt .intNs d
  let d := interruptSecurityConfig spi1Interrupt .intS d
  let d := interruptSecurityConfig scutimerInterrupt .intNs d
  let d := interruptSecurityConfig gem0Interrupt .intNs d
  interruptSecurityConfig ttc0Ttcx2Interrupt .intS d

def boardInit (p : Platform) : Bool × Platform :=
  (true, { p with board := Call.boardInit.run p.board }.printk [
    ⟨"      * Memory security - OK  \n\t", []⟩,
    ⟨"      * Devices security - OK  \n\t", []⟩])

def ltzvisorHwInit (fuel : Nat) (p : Platform) : Option (Bool × Platform) := do
  let (ret, writes) := uartInit
  let p := { p with uart := p.uart ++ writes }
  if ¬ret then return (ret, p)
  let p := p.printk banner
  let (ret, gic) := interruptDistributorInit p.gic
  let p := { p with gic }
  if ¬ret then return (ret, p.printk [⟨"ERROR: GIC distributor init!\n\r", []⟩])
  let p := p.printk [⟨"      * GIC distributor - OK  \n\t", []⟩]
  let (ret, gic, cpu) ← interruptInterfaceInit fuel p.gic p.cpu
  let p := { p with gic, cpu }
  if ¬ret then return (ret, p.printk [⟨"ERROR: GIC interface init!\n\r", []⟩])
  let p := p.printk [⟨"      * GIC interface - OK  \n\t", []⟩]
  let p := { p with gic := configSecurity p.gic }
  let p := p.printk [⟨"      * GIC security - OK  \n\t", []⟩,
    ⟨" -> Platform (%s): initialization ... \n\t", [platform]⟩]
  let (ret, p) := boardInit p
  if ¬ret then return (ret, p.printk [⟨"ERROR: Platform init!\n\r", []⟩])
  return (ret, p)

/-- Where `ltzvisor_main` comes to: one of its loops, or the call of `ltzvisor_kickoff`. -/
inductive Outcome
  | stopped (p : Platform) (m : Core)
  | kickoff (p : Platform) (m : Core)

/-- The calls of compiled code leave their frames on the stack of the monitor. -/
def afterCode {stack : Range} (c : Scratch stack) (k : Nat) (m : Core) : Core :=
  { m with mem := c.after k m.mem }

def kickingOff : List Line := [
  ⟨" -> LTZVisor: kicking off ... \n\t", [arch]⟩,
  ⟨" -> LTZVisor: starting S_Guest ... \n\t", [arch]⟩,
  ⟨"----------------------------------------------------------\n\n\t", []⟩]

def ltzvisorMain (fuel : Nat) (env : Env) (c : Scratch env.stack) (nsguestConfig : Addr)
    (p : Platform) (m : Core) : Option Outcome := do
  let (ret, p) ← ltzvisorHwInit fuel p
  let m := afterCode c 9 m
  if ¬ret then
    return .stopped (p.printk [⟨"ERROR: LTZVisor Init ... \n\t", []⟩]) (afterCode c 10 m)
  let p := p.printk [⟨" -> Guests: NS_Guest creation ... \n\t", [arch]⟩]
  let (ret, m) ← ltzvisorNsguestCreate env c nsguestConfig (afterCode c 10 m)
  if ret = 0#32 then
    return .stopped (p.printk [⟨"Error: LTZVisor NS_Guest Create\n\t", []⟩]) (afterCode c 11 m)
  return .kickoff (p.printk kickingOff) (afterCode c 11 m)

def gicSetUp : List DriverCall := [
  .distributorInit,
  .interfaceInit,
  .securityConfigall,
  .config (.securityConfig uart1Interrupt .intNs),
  .config (.securityConfig ttc1Ttcx2Interrupt .intNs),
  .config (.securityConfig spi1Interrupt .intS),
  .config (.securityConfig scutimerInterrupt .intNs),
  .config (.securityConfig gem0Interrupt .intNs),
  .config (.securityConfig ttc0Ttcx2Interrupt .intS)]

def hwInit : List DriverCall := [
  .enable ttc0Ttcx2Interrupt 1,
  .config (.targetSet ttc0Ttcx2Interrupt 0 1),
  .config (.prioritySet ttc0Ttcx2Interrupt 5),
  .enable spi1Interrupt 1,
  .config (.targetSet spi1Interrupt 0 1),
  .config (.prioritySet spi1Interrupt 4)]

def booted (d : Known) : Known := afterCalls d (gicSetUp ++ hwInit)

/-- The controller when the secure guest starts its loop: of the shared interrupts those of its
timer and of its SPI are enabled, for the first CPU, and they are the secure ones. -/
structure Booted (d : Distributor) (id : Word) : Prop where
  enabled : (Attr.enabled id).entry d = 1 ↔ id = ttc0Ttcx2Interrupt ∨ id = spi1Interrupt
  secure : (Attr.setting (.security id)).entry d = 0 ↔ (Attr.enabled id).entry d = 1
  target : ∀ cpu : Word, cpu.toNat < 8 → ((Attr.setting (.target id cpu)).entry d = 1 ↔
    cpu = 0#32 ∧ (Attr.enabled id).entry d = 1)
  idle : (Attr.pending id).entry d = 0
  handled : (Attr.enabled id).entry d = 1 → fiqHandlers id ≠ none

private theorem entry_of_last (d : Known) {cs : List DriverCall} (valid : ∀ c ∈ cs, c.Valid)
    {a : Attr} (validA : a.Valid) {n : Nat} (last : lastWrite DriverCall.sets cs a = some n) :
    a.entry (afterCalls d cs).1 = n := by
  have entry := entry_after d valid validA
  rw [last] at entry
  exact entry

def ofSecure (id : Word) : Nat := if id = ttc0Ttcx2Interrupt ∨ id = spi1Interrupt then 1 else 0

private theorem ofSecure_eq_one_iff (id : Word) :
    ofSecure id = 1 ↔ id = ttc0Ttcx2Interrupt ∨ id = spi1Interrupt := by
  unfold ofSecure
  split_ifs with own <;> simp [own]

private theorem ofSecure_le (id : Word) : ofSecure id ≤ 1 := by
  unfold ofSecure
  split_ifs <;> omega

/-- What calls make of the entries of the shared interrupts. -/
structure Leaves (cs : List DriverCall) (enabled security : Word → Nat)
    (target : Word → Word → Nat) : Prop where
  valid : ∀ c ∈ cs, c.Valid
  enabled : ∀ i < 96, lastWrite DriverCall.sets cs (.enabled (BitVec.ofNat 32 i)) =
    some (enabled (BitVec.ofNat 32 i))
  pending : ∀ i < 96, lastWrite DriverCall.sets cs (.pending (BitVec.ofNat 32 i)) = some 0
  security : ∀ i < 96, 32 ≤ i →
    lastWrite DriverCall.sets cs (.setting (.security (BitVec.ofNat 32 i))) =
      some (security (BitVec.ofNat 32 i))
  target : ∀ i < 96, ∀ cpu < 8, lastWrite DriverCall.sets cs
    (.setting (.target (BitVec.ofNat 32 i) (BitVec.ofNat 32 cpu))) =
      some (target (BitVec.ofNat 32 i) (BitVec.ofNat 32 cpu))

theorem Leaves.entry {cs : List DriverCall} {enabled security : Word → Nat}
    {target : Word → Word → Nat} (leaves : Leaves cs enabled security target) (d : Known)
    {id : Word} (below : id.toNat < 96) : (Attr.enabled id).entry (afterCalls d cs).1 = enabled id ∧
      (Attr.pending id).entry (afterCalls d cs).1 = 0 ∧
      (32 ≤ id.toNat → (Attr.setting (.security id)).entry (afterCalls d cs).1 = security id) ∧
      ∀ cpu : Word, cpu.toNat < 8 →
        (Attr.setting (.target id cpu)).entry (afterCalls d cs).1 = target id cpu := by
  have name (w : Word) : BitVec.ofNat 32 w.toNat = w := by simp
  refine ⟨?_, ?_, fun shared => ?_, fun cpu less => ?_⟩
  · have last := leaves.enabled id.toNat below
    rw [name] at last
    exact entry_of_last d leaves.valid (a := .enabled id) below last
  · have last := leaves.pending id.toNat below
    rw [name] at last
    exact entry_of_last d leaves.valid (a := .pending id) below last
  · have last := leaves.security id.toNat below shared
    rw [name] at last
    exact entry_of_last d leaves.valid (a := .setting (.security id)) below last
  · have last := leaves.target id.toNat below cpu.toNat less
    rw [name, name] at last
    exact entry_of_last d leaves.valid (a := .setting (.target id cpu)) ⟨below, less⟩ last

private theorem gicSetUp_leaves :
    Leaves gicSetUp (fun _ => 0) (fun id => 1 - ofSecure id) fun _ _ => 0 where
  valid := by decide
  enabled := by decide +kernel
  pending := by decide +kernel
  security := by decide +kernel
  target := by decide +kernel

private theorem boot_leaves : Leaves (gicSetUp ++ hwInit) ofSecure (fun id => 1 - ofSecure id)
    fun id cpu => if cpu = 0#32 then ofSecure id else 0 where
  valid := by decide
  enabled := by decide +kernel
  pending := by decide +kernel
  security := by decide +kernel
  target := by decide +kernel

theorem boot_interrupts (d : Known) {id : Word} (shared : 32 ≤ id.toNat) (below : id.toNat < 96) :
    Booted (booted d).1 id := by
  obtain ⟨enabled, pending, security, target⟩ := boot_leaves.entry d below
  have small := ofSecure_le id
  constructor
  case enabled => rw [booted, enabled, ofSecure_eq_one_iff]
  case secure =>
    rw [booted, security shared, enabled]
    omega
  case target =>
    intro cpu less
    rw [booted, target cpu less, enabled]
    split_ifs with first <;> simp [first]
  case idle => exact pending
  case handled =>
    rw [booted, enabled, ofSecure_eq_one_iff]
    rintro (rfl | rfl) <;> decide

theorem boot_interrupts_spi : ∃ d : Known, Booted (booted d).1 spi1Interrupt := by
  have identified : Identified Drivers.GicInit.resetDistributor := by decide
  exact ⟨⟨_, identified⟩, boot_interrupts _ (by decide) (by decide)⟩

/-- The platform `p'` with which the guests start, of one that was `p`. -/
structure Configured (p p' : Platform) : Prop where
  secure : ∀ id : Word, 32 ≤ id.toNat → id.toNat < 96 →
    ((Attr.setting (.security id)).entry p'.gic = 0 ↔
      id = ttc0Ttcx2Interrupt ∨ id = spi1Interrupt)
  quiet : ∀ id : Word, 32 ≤ id.toNat → id.toNat < 96 →
    (Attr.enabled id).entry p'.gic = 0 ∧ (Attr.pending id).entry p'.gic = 0
  interface : p'.cpu.iccicr = 11#32 ∧ p'.cpu.iccpmr = 0xF0#32
  taken : p'.cpu.gic.acked = p.cpu.gic.acked ∧ p'.cpu.gic.completed = p.cpu.gic.completed
  partition : ∀ q ∈ partition, p'.board.reg q.1 = q.2
  ddr : ∀ x, LeftSecure (p'.board.reg tzDdrRamAddr) x ↔ x ∈ secureDdr
  locked : p'.board.locked = true
  uart : p'.uart = p.uart ++ uartInit.2

/-- A platform of which the boot has set up the console only, and that says so. -/
structure Unconfigured (p p' : Platform) : Prop where
  gic : p'.gic = p.gic
  cpu : p'.cpu = p.cpu
  board : p'.board = p.board
  uart : p'.uart = p.uart ++ uartInit.2
  console : p'.console = p.console ++ banner ++
    [⟨"ERROR: GIC distributor init!\n\r", []⟩, ⟨"ERROR: LTZVisor Init ... \n\t", []⟩]

private theorem configSecurity_eq (d : Known) :
    configSecurity (interruptInterfaceRegisters (interruptDistributorInit d.1).2) =
      (afterCalls d gicSetUp).1 := rfl

private theorem ltzvisorHwInit_zero {p : Platform} (identified : Identified p.gic) :
    ltzvisorHwInit 0 p = none := by
  have known : (interruptDistributorInit p.gic).1 = true :=
    congrArg Prod.fst (Drivers.GicInit.interruptDistributorInit_eq identified)
  simp [ltzvisorHwInit, uartInit, uartSetBaudRate, Platform.printk, known, interruptInterfaceInit,
    loop]

private theorem ltzvisorHwInit_succ {p : Platform} (identified : Identified p.gic) (fuel : Nat) :
    ∃ p', ltzvisorHwInit (fuel + 1) p = some (true, p') ∧
      p'.gic = (afterCalls ⟨p.gic, identified⟩ gicSetUp).1 ∧
      p'.cpu = ⟨11#32, 0xF0#32, 3#32, p.cpu.gic.absorb⟩ ∧
      p'.board = Call.boardInit.run p.board ∧ p'.uart = p.uart ++ uartInit.2 := by
  have known : (interruptDistributorInit p.gic).1 = true :=
    congrArg Prod.fst (Drivers.GicInit.interruptDistributorInit_eq identified)
  have gic := configSecurity_eq ⟨p.gic, identified⟩
  simpa [ltzvisorHwInit, uartInit, uartSetBaudRate, Platform.printk, known,
    interruptInterfaceInit_succ, boardInit] using gic

/-- It succeeds on every controller that the driver knows, when the loop may make a pass. -/
private theorem ltzvisorHwInit_known {p : Platform} (identified : Identified p.gic) (fuel : Nat) :
    ∃ p', ltzvisorHwInit (fuel + 1) p = some (true, p') ∧ Configured p p' := by
  obtain ⟨p', run, gic, cpu, board, uart⟩ := ltzvisorHwInit_succ identified fuel
  refine ⟨p', run, ?_⟩
  constructor
  case secure =>
    intro id shared below
    obtain ⟨-, -, security, -⟩ := gicSetUp_leaves.entry ⟨p.gic, identified⟩ below
    have small := ofSecure_le id
    rw [gic, security shared, ← ofSecure_eq_one_iff]
    omega
  case quiet =>
    intro id _ below
    obtain ⟨enabled, pending, -, -⟩ := gicSetUp_leaves.entry ⟨p.gic, identified⟩ below
    rw [gic]
    exact ⟨enabled, pending⟩
  case interface => exact ⟨by rw [cpu], by rw [cpu]⟩
  case taken =>
    rw [cpu]
    exact ⟨rfl, rfl⟩
  case partition =>
    intro q mem
    rw [board, run_eq]
    exact act_partition q mem _
  case ddr =>
    intro x
    have set : p'.board.reg tzDdrRamAddr = tzDdrRam := by
      rw [board, run_eq]
      exact act_partition (tzDdrRamAddr, tzDdrRam) (by simp [partition]) (p.board.reg tzDdrRamAddr)
    rw [set]
    exact leftSecure_iff x
  case locked => rw [board, run_eq]
  case uart => exact uart

private theorem ltzvisorHwInit_unknown {p : Platform} (unknown : ¬Identified p.gic) (fuel : Nat) :
    ∃ p', ltzvisorHwInit fuel p = some (false, p') ∧
      Unconfigured p (p'.printk [⟨"ERROR: LTZVisor Init ... \n\t", []⟩]) := by
  have failed : interruptDistributorInit p.gic = (false, p.gic) := if_pos unknown
  let p' : Platform := { p with uart := p.uart ++ uartInit.2 }
  refine ⟨p'.printk (banner ++ [⟨"ERROR: GIC distributor init!\n\r", []⟩]), ?_, rfl, rfl, rfl, rfl, ?_⟩
  · simp [ltzvisorHwInit, uartInit, uartSetBaudRate, Platform.printk, failed, p']
  · simp [Platform.printk, p']

private theorem create_ret {env : Env} {c : Scratch env.stack} {g : Addr} {m m' : Core} {ret : Word}
    (run : ltzvisorNsguestCreate env c g m = some (ret, m')) : ret = 1#32 := by
  simp only [ltzvisorNsguestCreate, Option.bind_eq_bind, Option.bind_eq_some_iff,
    Option.pure_def, Option.some_inj, Prod.mk.injEq] at run
  obtain ⟨-, -, -, -, rfl, -⟩ := run
  rfl

def atCreation {stack : Range} (c : Scratch stack) (m : Core) : Core :=
  afterCode c 10 (afterCode c 9 m)

private theorem ltzvisorMain_known {p : Platform} (identified : Identified p.gic) (fuel : Nat)
    (env : Env) (c : Scratch env.stack) (g : Addr) (m : Core) : ∃ p', Configured p p' ∧
      ltzvisorMain (fuel + 1) env c g p m =
        (ltzvisorNsguestCreate env c g (atCreation c m)).map fun created =>
          .kickoff p' (afterCode c 11 created.2) := by
  obtain ⟨p', run, configured⟩ := ltzvisorHwInit_known identified fuel
  let creating : List Line := [⟨" -> Guests: NS_Guest creation ... \n\t", [arch]⟩]
  refine ⟨(p'.printk creating).printk kickingOff, ?_, ?_⟩
  · exact ⟨configured.secure, configured.quiet, configured.interface, configured.taken,
      configured.partition, configured.ddr, configured.locked, configured.uart⟩
  · rw [atCreation]
    cases created : ltzvisorNsguestCreate env c g (afterCode c 10 (afterCode c 9 m)) with
    | none => simp [ltzvisorMain, run, created]
    | some guest =>
      obtain ⟨ret, m'⟩ := guest
      obtain rfl := create_ret created
      simp [ltzvisorMain, run, created, creating]

/-- The guests are started with the whole configuration of the platform in place and the
non-secure one created, and that happens on every controller that the driver knows. On any other
the hypervisor stops with nothing configured but the console. -/
theorem boot_all_or_nothing (env : Env) (c : Scratch env.stack) (g : Addr) (p : Platform)
    (m : Core) :
    (∀ fuel p' m', ltzvisorMain fuel env c g p m = some (.kickoff p' m') →
      Configured p p' ∧ ∃ m'', ltzvisorNsguestCreate env c g (atCreation c m) = some (1#32, m'') ∧
        m' = afterCode c 11 m'') ∧
    ((∃ fuel p' m', ltzvisorMain fuel env c g p m = some (.kickoff p' m')) ↔
      Identified p.gic ∧ ltzvisorNsguestCreate env c g (atCreation c m) ≠ none) ∧
    (¬Identified p.gic → ∀ fuel, ∃ p' m', ltzvisorMain fuel env c g p m = some (.stopped p' m') ∧
      Unconfigured p p' ∧ ∀ x ∉ env.stack, m'.mem x = m.mem x) := by
  have stops (unknown : ¬Identified p.gic) (fuel : Nat) : ∃ p',
      ltzvisorMain fuel env c g p m = some (.stopped p' (afterCode c 10 (afterCode c 9 m))) ∧
        Unconfigured p p' := by
    obtain ⟨p', run, unconfigured⟩ := ltzvisorHwInit_unknown unknown fuel
    exact ⟨_, by simp [ltzvisorMain, run], unconfigured⟩
  have starts {fuel : Nat} {p' : Platform} {m' : Core}
      (run : ltzvisorMain fuel env c g p m = some (.kickoff p' m')) :
      Identified p.gic ∧ Configured p p' ∧
        ∃ m'', ltzvisorNsguestCreate env c g (atCreation c m) = some (1#32, m'') ∧
          m' = afterCode c 11 m'' := by
    by_cases identified : Identified p.gic
    · cases fuel with
      | zero => simp [ltzvisorMain, ltzvisorHwInit_zero identified] at run
      | succ fuel =>
        obtain ⟨p'', configured, known⟩ := ltzvisorMain_known identified fuel env c g m
        rw [known, Option.map_eq_some_iff] at run
        obtain ⟨⟨ret, m''⟩, created, outcome⟩ := run
        obtain rfl := create_ret created
        cases outcome
        exact ⟨identified, configured, m'', created, rfl⟩
    · obtain ⟨p'', stopped, -⟩ := stops identified fuel
      rw [stopped] at run
      cases run
  refine ⟨fun fuel p' m' run => (starts run).2, ?_, fun unknown fuel => ?_⟩
  · constructor
    · rintro ⟨fuel, p', m', run⟩
      obtain ⟨identified, -, m'', created, -⟩ := starts run
      exact ⟨identified, by simp [created]⟩
    · rintro ⟨identified, created⟩
      obtain ⟨out, created⟩ := Option.ne_none_iff_exists'.mp created
      obtain ⟨p', -, known⟩ := ltzvisorMain_known identified 0 env c g m
      exact ⟨1, p', _, by rw [known, created, Option.map_some]⟩
  · obtain ⟨p', run, unconfigured⟩ := stops unknown fuel
    refine ⟨p', _, run, unconfigured, fun x away => ?_⟩
    exact (c.keeps 10 _ x away).trans (c.keeps 9 _ x away)

end LTZVisor.Core.HwInit
