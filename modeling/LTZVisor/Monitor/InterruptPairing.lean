/- LTZVisor/Monitor/InterruptPairing
   kind: property
   digest: Which interrupts that the FIQ handler acknowledges it also handles and completes. -/

import LTZVisor.Monitor.Guests

set_option autoImplicit false
set_option relaxedAutoImplicit false

namespace LTZVisor.Monitor.InterruptPairing

open LTZVisor.Lib.Memory LTZVisor.Lib.GicCpu LTZVisor.Arm LTZVisor.Monitor.Handlers
open LTZVisor.Monitor.Fiq LTZVisor.Monitor.Switch LTZVisor.Monitor.Guests

/-- No interrupt is active, and nothing is recorded yet. -/
structure Idle (dev : Devices) : Prop where
  active : dev.gic.active = []
  acked : dev.gic.acked = []
  completed : dev.gic.completed = []
  handled : dev.handled = []

/-- Every interrupt that was acknowledged was handled once and completed once. -/
structure Paired (dev : Devices) : Prop where
  once : ∀ id ∈ dev.gic.acked,
    dev.handled.count id.word = 1 ∧ dev.gic.completed.count id.word = 1
  active : dev.gic.active = []
  running : dev.gic.runningPriority = idlePriority

/-- The devices after the handler has read the acknowledge register twice and completed what the
first read returned. -/
def afterFiq (dev : Devices) : Devices where
  gic := dev.gic.readIar.2.readIar.2.writeEoir dev.gic.readIar.1
  handled := dev.handled ++ [dev.gic.readIar.1]

theorem NsReady.dev {env : Env} {n : Core} (ready : NsReady env n) :
    (monFiqHandler env (takeFiq n)).dev = afterFiq n.dev := by
  have taken := ready.fiqTaken
  have dev : (takeFiq n).dev = n.dev := rfl
  generalize (monFiqHandler env (takeFiq n)) = s at *
  have gic := taken.gic
  have handled := taken.handled
  rw [dev] at gic handled
  cases devices : s.dev with
  | mk g h =>
    rw [devices] at gic handled
    rw [afterFiq, ← gic, ← handled]

private theorem word_beq_spurious (id : IntId) : (id.word == spurious &&& 0x3FF#32) = false := by
  have same : spurious &&& 0x3FF#32 = spurious := by decide
  rw [same]
  exact beq_false_of_ne (IntId.word_ne_spurious id)

private theorem word_beq_self (id : IntId) : (id.word == id.word &&& 0x3FF#32) = true := by
  rw [IntId.word_and_mask]
  exact beq_self_eq_true _

private theorem afterFiq_record {dev : Devices} (idle : Idle dev) {first second : Option IntId}
    (read : dev.gic.Read first) (read' : dev.gic.readIar.2.Read second) :
    let word := (first.map IntId.word).getD spurious
    (afterFiq dev).gic.acked = first.toList ++ second.toList ∧
      (afterFiq dev).handled = [word] ∧ (afterFiq dev).gic.completed = [word] ∧
      (afterFiq dev).gic.active =
        (second.toList ++ first.toList).eraseP fun id => id.word == word &&& 0x3FF#32 := by
  refine ⟨?_, ?_, ?_, ?_⟩
  · change dev.gic.readIar.2.readIar.2.acked = _
    rw [read'.acked, read.acked, idle.acked, List.nil_append]
  · change dev.handled ++ [dev.gic.readIar.1] = _
    rw [read.value, idle.handled, List.nil_append]
  · change dev.gic.readIar.2.readIar.2.completed ++ [dev.gic.readIar.1] = _
    rw [read'.completed, read.completed, read.value, idle.completed, List.nil_append]
  · change dev.gic.readIar.2.readIar.2.active.eraseP
      (fun id => id.word == dev.gic.readIar.1 &&& 0x3FF#32) = _
    rw [read'.active, read.active, read.value, idle.active, List.append_nil]

private theorem paired_of_quiet {dev : Devices} (idle : Idle dev)
    (quiet : dev.gic.readIar.2.absorb.candidate = none) : Paired (afterFiq dev) := by
  have read' := dev.gic.readIar.2.read
  rw [quiet] at read'
  obtain ⟨acked, handled, completed, active⟩ := afterFiq_record idle dev.gic.read read'
  have none : (afterFiq dev).gic.active = [] := by
    rw [active]
    cases dev.gic.absorb.candidate with
    | none => rfl
    | some id => simp [word_beq_self]
  constructor
  case once =>
    intro id hid
    rw [acked, Option.toList_none, List.append_nil, Option.mem_toList] at hid
    have first : dev.gic.absorb.candidate = some id := hid
    rw [handled, completed, first]
    simp
  case active => exact none
  case running => exact Gic.runningPriority_of_idle none

/-- An interrupt that the second read acknowledges stays active. -/
private theorem not_paired_of_second {dev : Devices} (idle : Idle dev) {id : IntId}
    (found : dev.gic.readIar.2.absorb.candidate = some id) : ¬ Paired (afterFiq dev) := by
  intro paired
  have read' := dev.gic.readIar.2.read
  rw [found] at read'
  obtain ⟨-, -, -, active⟩ := afterFiq_record idle dev.gic.read read'
  rw [paired.active] at active
  cases first : dev.gic.absorb.candidate with
  | none =>
    rw [first] at active
    simp [word_beq_spurious] at active
  | some j =>
    rw [first] at active
    have len := congrArg List.length active
    rw [List.length_eraseP] at len
    split at len <;> simp at len

theorem paired_iff (env : Env) {n : Core} (ready : NsReady env n) (idle : Idle n.dev) :
    Paired (monFiqHandler env (takeFiq n)).dev ↔ n.dev.gic.NoHigherArrival := by
  rw [NsReady.dev ready, ← Gic.second_read_quiet_iff idle.active]
  constructor
  · intro paired
    cases second : n.dev.gic.readIar.2.absorb.candidate with
    | none => rfl
    | some id => exact absurd paired (not_paired_of_second idle second)
  · exact paired_of_quiet idle

/-- The timer interrupt 43 is pending at the FIQ, and the interrupt 82 of the UART, of lower
priority, arrives between the two reads. -/
def uartAfterTimer : Core :=
  { zedboardGuest with
    dev :=
      { gic :=
          { prio := fun id => if id = 82 then 6 else 5
            pending := [43]
            active := []
            arrivals := [[], [82]]
            acked := []
            completed := [] }
        handled := [] } }

theorem paired_iff_zedboard : NsReady zedboard uartAfterTimer ∧ Idle uartAfterTimer.dev ∧
    Paired (monFiqHandler zedboard (takeFiq uartAfterTimer)).dev := by
  have ready : NsReady zedboard uartAfterTimer := ⟨rfl, rfl⟩
  have idle : Idle uartAfterTimer.dev := ⟨rfl, rfl, rfl, rfl⟩
  refine ⟨ready, idle, (paired_iff zedboard ready idle).mpr fun j hj => ?_⟩
  have uart : j = 82 := List.mem_singleton.mp hj
  subst uart
  exact .inr ⟨43, List.mem_singleton_self _, by decide⟩

/-- The timer interrupt 43 is pending at the FIQ, and the interrupt 81 of the SPI, of higher
priority, arrives between the two reads. -/
def spiAfterTimer : Core :=
  { zedboardGuest with
    dev :=
      { gic :=
          { prio := fun id => if id = 81 then 4 else 5
            pending := [43]
            active := []
            arrivals := [[], [81]]
            acked := []
            completed := [] }
        handled := [] } }

theorem second_acknowledge_is_lost : NsReady zedboard spiAfterTimer ∧ Idle spiAfterTimer.dev ∧
    ¬ Paired (monFiqHandler zedboard (takeFiq spiAfterTimer)).dev := by
  have ready : NsReady zedboard spiAfterTimer := ⟨rfl, rfl⟩
  have idle : Idle spiAfterTimer.dev := ⟨rfl, rfl, rfl, rfl⟩
  refine ⟨ready, idle, ?_⟩
  rw [NsReady.dev ready]
  have found : spiAfterTimer.dev.gic.readIar.2.absorb.candidate = some 81 := by decide
  exact not_paired_of_second idle found

end LTZVisor.Monitor.InterruptPairing
