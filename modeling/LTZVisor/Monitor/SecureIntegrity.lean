/- LTZVisor/Monitor/SecureIntegrity
   kind: property
   digest: What the secure guest finds in its registers when its call returns. -/

import LTZVisor.Monitor.Guests

set_option autoImplicit false
set_option relaxedAutoImplicit false

namespace LTZVisor.Monitor.SecureIntegrity

open LTZVisor.Lib.Memory LTZVisor.Lib.Runs LTZVisor.Arm LTZVisor.Arm.Instr LTZVisor.Arch.Vcpu
open LTZVisor.Boards.Zedboard LTZVisor.Monitor.Macros LTZVisor.Monitor.Handlers
open LTZVisor.Monitor.Scheduler LTZVisor.Monitor.BoardSmc LTZVisor.Monitor.Switch
open LTZVisor.Monitor.Guests

/-- The registers that the frame of a call leaves out. -/
def inheritedSlots : List Slot :=
  [.reg .svc .sp, .reg .svc .lr, .spsr .svc, .reg .abt .sp, .reg .abt .lr, .spsr .abt,
    .reg .und .sp, .reg .und .lr, .spsr .und, .reg .irq .sp, .reg .irq .lr, .spsr .irq]

private theorem inherited_not_saved {t : Slot} (ht : t ∈ inheritedSlots) :
    t ∉ secureSlots ∧ t ≠ .reg .mon .sp ∧ t.Architected := by
  simp only [inheritedSlots, List.mem_cons, List.not_mem_nil, or_false] at ht
  rcases ht with rfl | rfl | rfl | rfl | rfl | rfl | rfl | rfl | rfl | rfl | rfl | rfl <;>
    simp [secureSlots, Slot.Architected]

private theorem saved_or_inherited {t : Slot} (ht : t.Architected) :
    t ∈ secureSlots ∨ t = .reg .mon .sp ∨ t ∈ inheritedSlots := by
  cases t with
  | reg b r => cases b <;> cases r <;> simp [Slot.Architected, secureSlots, inheritedSlots] at ht ⊢
  | spsr b => cases b <;> simp [Slot.Architected, secureSlots, inheritedSlots] at ht ⊢

/-- Nothing tells two machines apart by their registers. -/
structure SameRegisters (m m' : Core) : Prop where
  slots : ∀ t : Slot, t.Architected → m.get t = m'.get t
  pc : m.pc = m'.pc
  cpsr : m.cpsr = m'.cpsr

/-- The two machines of the non-secure guest agree where the secure guest will inherit from
them. -/
structure SameLegacy (n n' : Core) : Prop where
  slots : ∀ t ∈ inheritedSlots, n.get t = n'.get t
  spsr : statusBytes (n.spsr .fiq) = statusBytes (n'.spsr .fiq)
  cpsr : statusBytes n.cpsr.toWord = statusBytes n'.cpsr.toWord

theorem Resumed.saved_eq {env : Env} {s n n' s1 s2 : Core} (back : Resumed env s n s1)
    (back' : Resumed env s n' s2) {b : Bank} {r : Reg} (hr : Slot.reg b r ∈ secureSlots) :
    s1.regs b r = s2.regs b r := by
  by_cases mon : b = .mon
  · subst mon
    have lr : r = .lr := by
      cases r <;> simp [secureSlots] at hr ⊢
    rw [lr, back.lr, back'.lr]
  · rw [back.regs b r hr mon, back'.regs b r hr mon]

private theorem sameRegisters_iff {env : Env} {s n n' s1 s2 : Core} (back : Resumed env s n s1)
    (back' : Resumed env s n' s2) : SameRegisters s1 s2 ↔ SameLegacy n n' := by
  constructor
  · intro same
    constructor
    case slots =>
      intro t ht
      obtain ⟨notSaved, notSp, exist⟩ := inherited_not_saved ht
      rw [← back.others t notSaved notSp, ← back'.others t notSaved notSp, same.slots t exist]
    case spsr =>
      have spsr : s1.spsr .fiq = s2.spsr .fiq :=
        same.slots (.spsr .fiq) (by simp [Slot.Architected])
      rwa [back.spsr, back'.spsr, msrFc_eq_iff] at spsr
    case cpsr =>
      have cpsr := congrArg Psr.toWord same.cpsr
      rwa [back.cpsr, back'.cpsr, Psr.toWord_ofWord, Psr.toWord_ofWord, msrFc_eq_iff] at cpsr
  · intro legacy
    constructor
    case slots =>
      intro t ht
      rcases saved_or_inherited ht with saved | rfl | inherited
      · cases t with
        | reg b r => exact Resumed.saved_eq back back' saved
        | spsr b =>
          have cases : b = .fiq ∨ b = .mon := by
            cases b <;> simp [secureSlots] at saved ⊢
          rcases cases with rfl | rfl
          · rw [Machine.get, Machine.get, back.spsr, back'.spsr, msrFc_eq_iff]
            exact legacy.spsr
          · rw [Machine.get, Machine.get, back.spsrMon, back'.spsrMon, msrFc_eq_iff]
            exact legacy.cpsr
      · exact back.sp.trans back'.sp.symm
      · obtain ⟨notSaved, notSp, -⟩ := inherited_not_saved inherited
        rw [back.others t notSaved notSp, back'.others t notSaved notSp, legacy.slots t inherited]
    case pc => rw [back.pc, back'.pc]
    case cpsr => rw [back.cpsr, back'.cpsr, (msrFc_eq_iff _ _ _).mpr legacy.cpsr]

theorem integrity_iff (env : Env) {s : Core} (yield : AtYield env s) :
    ∃ n, monSmcHandler env (takeSmc s) = some n ∧ ∀ n1 n2, NsRun env n n1 → NsRun env n n2 →
      (SameRegisters (monFiqHandler env (takeFiq n1)) (monFiqHandler env (takeFiq n2)) ↔
        SameLegacy n1 n2) := by
  have run := smc_sched env (takeSmc s) yield.sched
  refine ⟨_, run, fun n1 n2 first second => ?_⟩
  have waiting := yield.waiting run
  exact sameRegisters_iff (waiting_preserved env s waiting (.guest first)).resumed
    (waiting_preserved env s waiting (.guest second)).resumed

theorem integrity_iff_zedboard : AtYield zedboard zedboardYield ∧
    ∃ n, monSmcHandler zedboard (takeSmc zedboardYield) = some n ∧ ∀ n1 n2,
      NsRun zedboard n n1 → NsRun zedboard n n2 →
        (SameRegisters (monFiqHandler zedboard (takeFiq n1)) (monFiqHandler zedboard (takeFiq n2)) ↔
          SameLegacy n1 n2) :=
  ⟨zedboardYield_atYield, integrity_iff zedboard zedboardYield_atYield⟩

/-- The secure guest comes back on a stack that the non-secure guest chose. -/
theorem svc_stack_inherited : AtYield zedboard zedboardYield ∧
    ∃ n, monSmcHandler zedboard (takeSmc zedboardYield) = some n ∧ ∃ n1 n2,
      NsRun zedboard n n1 ∧ NsRun zedboard n n2 ∧ n1.dev = n2.dev ∧
        (monFiqHandler zedboard (takeFiq n1)).regs .svc .sp = 0x1000#32 ∧
        (monFiqHandler zedboard (takeFiq n2)).regs .svc .sp = 0x2000#32 ∧
        ¬ SameRegisters (monFiqHandler zedboard (takeFiq n1))
          (monFiqHandler zedboard (takeFiq n2)) := by
  have run := smc_sched zedboard (takeSmc zedboardYield) rfl
  refine ⟨zedboardYield_atYield, _, run, ?_⟩
  have waiting := zedboardYield_atYield.waiting run
  have entered := zedboardYield_atYield.scheduled run
  generalize exec monScheduler (atScheduler (takeSmc zedboardYield)) = n at *
  have mode : n.cpsr.mode ≠ monMode := by
    rw [entered.cpsr, zedboardYield_spsrMon]
    decide
  have act : ∀ v, NsRun zedboard n (n.put (.reg .svc .sp) v) := fun v => .put mode (by simp) v
  have stack : ∀ v, (monFiqHandler zedboard (takeFiq (n.put (.reg .svc .sp) v))).get
      (.reg .svc .sp) = v := by
    intro v
    have back := (waiting_preserved zedboard zedboardYield waiting (.guest (act v))).resumed
    rw [back.others _ (by simp [secureSlots]) (by simp), Machine.get_put, if_pos rfl]
  refine ⟨_, _, act 0x1000#32, act 0x2000#32, rfl, stack _, stack _, ?_⟩
  intro same
  have sp := same.slots (.reg .svc .sp) rfl
  rw [stack, stack] at sp
  exact absurd sp (by decide)

/-- What the frame of a call preserves of the secure guest. -/
structure Survives (s s' : Core) : Prop where
  user : ∀ r, s'.regs (Bank.home .usr r) r = s.regs (Bank.home .usr r) r
  fiq : ∀ r, Bank.home .fiq r = .fiq → s'.regs .fiq r = s.regs .fiq r
  spsr : flagBytes (s'.spsr .fiq) = flagBytes (s.spsr .fiq)
  pc : s'.pc = s.pc
  cpsr : flagBytes s'.cpsr.toWord = flagBytes s.cpsr.toWord
  sp : s'.regs .mon .sp = s.regs .mon .sp

theorem frame_survives (env : Env) {s : Core} (yield : AtYield env s) :
    ∃ n, monSmcHandler env (takeSmc s) = some n ∧ ∀ n', Run (NsStep env) n n' →
      Survives s (monFiqHandler env (takeFiq n')) := by
  have run := smc_sched env (takeSmc s) yield.sched
  refine ⟨_, run, fun n' away => ?_⟩
  have back := ((waiting_preserved env s).run (yield.waiting run) away).resumed
  generalize monFiqHandler env (takeFiq n') = s' at *
  constructor
  case user =>
    intro r
    exact back.regs _ r (by cases r <;> simp [secureSlots]) (by cases r <;> simp)
  case fiq =>
    intro r banked
    refine back.regs .fiq r ?_ (by simp)
    cases r <;> simp [secureSlots] at banked ⊢
  case spsr => rw [back.spsr, flagBytes_msrFc]
  case pc => exact back.pc
  case cpsr => rw [back.cpsr, Psr.toWord_ofWord, flagBytes_msrFc]
  case sp => rw [back.sp, yield.sp]

theorem frame_survives_zedboard : AtYield zedboard zedboardYield ∧
    ∃ n, monSmcHandler zedboard (takeSmc zedboardYield) = some n ∧ ∀ n',
      Run (NsStep zedboard) n n' → Survives zedboardYield (monFiqHandler zedboard (takeFiq n')) :=
  ⟨zedboardYield_atYield, frame_survives zedboard zedboardYield_atYield⟩

end LTZVisor.Monitor.SecureIntegrity
