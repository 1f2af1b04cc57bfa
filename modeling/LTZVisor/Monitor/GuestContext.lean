/- LTZVisor/Monitor/GuestContext
   kind: property
   digest: The context of the non-secure guest across its interruptions, and what leaks into it. -/

import LTZVisor.Monitor.Guests

set_option autoImplicit false
set_option relaxedAutoImplicit false

namespace LTZVisor.Monitor.GuestContext

open LTZVisor.Lib.Memory LTZVisor.Lib.Runs LTZVisor.Arm LTZVisor.Arm.Instr LTZVisor.Arch.Vcpu
open LTZVisor.Boards.Zedboard LTZVisor.Monitor.Macros LTZVisor.Monitor.Handlers
open LTZVisor.Monitor.Scheduler LTZVisor.Monitor.Fiq LTZVisor.Monitor.BoardSmc
open LTZVisor.Monitor.Switch LTZVisor.Monitor.Guests

/-- The context holds the guest `n` as an FIQ interrupted it. -/
structure InContext (env : Env) (n : Core) (mem : Mem) : Prop where
  field : ∀ f : CoreReg, f ≠ .spsrSys → f ≠ .spsrMon → f ≠ .lrMon →
    coreField mem env.nsGuest f = n.get f.slot
  psr : coreField mem env.nsGuest .spsrMon = n.cpsr.toWord
  pc : coreField mem env.nsGuest .lrMon = n.pc

/-- The guest goes on as `n'` where it was interrupted as `n`. -/
structure RoundTrip (n n' : Core) : Prop where
  user : ∀ r, n'.regs (Bank.home .usr r) r = n.regs (Bank.home .usr r) r
  banked : ∀ b ∈ [Bank.svc, .abt, .und, .irq],
    n'.regs b .sp = n.regs b .sp ∧ n'.regs b .lr = n.regs b .lr ∧ n'.spsr b = n.spsr b
  pc : n'.pc = n.pc
  cpsr : n'.cpsr = n.cpsr

theorem NsReady.inContext {env : Env} {n : Core} (ready : NsReady env n) :
    InContext env n (monFiqHandler env (takeFiq n)).mem := by
  have taken := ready.fiqTaken
  have saved : ∀ f : CoreReg, coreField (monFiqHandler env (takeFiq n)).mem env.nsGuest f =
      if f.slot = .reg .mon .lr then n.pc
      else if f.slot = .spsr .mon then n.cpsr.toWord else n.get f.slot := by
    intro f
    have lr : (takeFiq n).regs .mon .lr = n.pc + 4#32 := rfl
    rw [taken.context f, Machine.get_put, lr, BitVec.add_sub_cancel]
    split
    case isTrue => rfl
    case isFalse notLr => rw [takeFiq, get_monitorException, if_neg notLr]
  constructor
  case field =>
    intro f _ notSpsr notLr
    rw [saved, if_neg (by cases f <;> simp [CoreReg.slot] at notLr ⊢),
      if_neg (by cases f <;> simp [CoreReg.slot] at notSpsr ⊢)]
  case psr =>
    rw [saved]
    simp [CoreReg.slot]
  case pc =>
    rw [saved]
    simp [CoreReg.slot]

theorem InContext.congr {env : Env} {n : Core} {mem mem' : Mem} (saved : InContext env n mem)
    (same : ∀ x ∈ env.nsGuestRange, mem' x = mem x) : InContext env n mem' := by
  have fields : ∀ f, coreField mem' env.nsGuest f = coreField mem env.nsGuest f :=
    fun f => coreField_congr f fun x hx => same x (core_subset_nsGuest env x hx)
  constructor
  case field =>
    intro f notSys notSpsr notLr
    rw [fields, saved.field f notSys notSpsr notLr]
  case psr => rw [fields, saved.psr]
  case pc => rw [fields, saved.pc]

theorem Scheduled.roundTrip {env : Env} {s n n' : Core} (entered : Scheduled env.nsGuest s n')
    (saved : InContext env n s.mem) : RoundTrip n n' := by
  have kept : ∀ t ∈ coreSlots, t ≠ .spsr .usr → t ≠ .spsr .mon → t ≠ .reg .mon .lr →
      n'.get t = n.get t := by
    intro t ht notSys notSpsr notLr
    obtain ⟨f, -, rfl⟩ := List.mem_map.mp ht
    rw [entered.context]
    apply saved.field f
    · exact fun e => notSys (e ▸ rfl)
    · exact fun e => notSpsr (e ▸ rfl)
    · exact fun e => notLr (e ▸ rfl)
  constructor
  case user =>
    intro r
    refine kept (.reg _ r) ?_ (by simp) (by simp) ?_ <;>
      cases r <;> simp [coreSlots, CoreReg.all, CoreReg.slot]
  case banked =>
    intro b hb
    simp only [List.mem_cons, List.not_mem_nil, or_false] at hb
    have sp := kept (.reg b .sp)
    have lr := kept (.reg b .lr)
    have spsr := kept (.spsr b)
    rcases hb with rfl | rfl | rfl | rfl <;>
      simp [coreSlots, CoreReg.all, CoreReg.slot] at sp lr spsr <;>
      exact ⟨sp, lr, spsr⟩
  case pc => rw [entered.pc, saved.pc]
  case cpsr => rw [entered.cpsr, saved.psr, Psr.ofWord_toWord]

/-- The secure guest has come to a call of the scheduler after the FIQ that interrupted `n`, and
the frame that the call pushes misses the context. -/
structure YieldAfter (env : Env) (n s : Core) : Prop where
  secure : SecRun env (monFiqHandler env (takeFiq n)) s
  sched : s.regs .usr .r0 = ltzvisorSchedSyscall
  apart : (⟨s.regs .mon .sp - 108#32, 108⟩ : Range).Disjoint ⟨env.nsGuest, 120⟩

/-- The guests alternate: the non-secure one works, or an FIQ interrupts it and a call of the
secure guest on the stack of the monitor lets it go on. -/
inductive Alternation (env : Env) (n n' : Core) : Prop
  | work : NsStep env n n' → Alternation env n n'
  | switch {s : Core} : YieldAfter env n s → s.regs .mon .sp = env.stackTop →
      monSmcHandler env (takeSmc s) = some n' → Alternation env n n'

theorem YieldAfter.scheduled {env : Env} {n s n' : Core} (ready : NsReady env n)
    (yield : YieldAfter env n s) (run : monSmcHandler env (takeSmc s) = some n') :
    Scheduled env.nsGuest s n' ∧ s.cp15 .secure .tpidrprw = env.nsGuest := by
  have taken := ready.fiqTaken
  have pointer : s.cp15 .secure .tpidrprw = env.nsGuest := by
    rw [yield.secure.pointer, taken.cp15]
    exact ready.pointer
  have world : s.world = .secure := by
    rw [Machine.world, yield.secure.scr, taken.scr, secScr_ns, if_pos rfl]
  exact ⟨Switch.scheduled yield.sched run (world ▸ pointer) yield.apart, pointer⟩

theorem alternation_ready (env : Env) : Preserves (Alternation env) (NsReady env) := by
  intro n n' ready next
  cases next with
  | work next => exact ready_preserved env ready next
  | switch yield sp run =>
    obtain ⟨entered, pointer⟩ := yield.scheduled ready run
    exact entered.ready sp pointer

theorem context_round_trip (env : Env) {n0 n : Core} (ready0 : NsReady env n0)
    (run : Run (Alternation env) n0 n) :
    InContext env n (monFiqHandler env (takeFiq n)).mem ∧ ∀ s, YieldAfter env n s →
      InContext env n s.mem ∧ ∃ n', monSmcHandler env (takeSmc s) = some n' ∧ RoundTrip n n' := by
  have ready := (alternation_ready env).run ready0 run
  have saved := NsReady.inContext ready
  refine ⟨saved, fun s yield => ?_⟩
  have saved' := saved.congr yield.secure.nsGuest
  have run := smc_sched env (takeSmc s) yield.sched
  exact ⟨saved', _, run, Scheduled.roundTrip (yield.scheduled ready run).1 saved'⟩

theorem context_round_trip_zedboard : NsReady zedboard zedboardGuest ∧
    ∃ s n', YieldAfter zedboard zedboardGuest s ∧
      monSmcHandler zedboard (takeSmc s) = some n' ∧ RoundTrip zedboardGuest n' := by
  have taken := zedboardGuest_ready.fiqTaken
  have trips := (context_round_trip zedboard zedboardGuest_ready .refl).2
  generalize back : monFiqHandler zedboard (takeFiq zedboardGuest) = m at *
  have sp : m.regs .mon .sp = zedboard.stackTop := by
    have sp := taken.slots (.reg .mon .sp)
    rwa [Machine.get_put, if_pos rfl] at sp
  have yield : YieldAfter zedboard zedboardGuest (m.put (.reg .usr .r0) ltzvisorSchedSyscall) := by
    constructor
    case secure =>
      rw [back]
      exact ⟨rfl, rfl, fun _ _ => rfl⟩
    case sched => rfl
    case apart =>
      change (⟨m.regs .mon .sp - 108#32, 108⟩ : Range).Disjoint ⟨zedboard.nsGuest, 120⟩
      rw [sp]
      exact zedboard.stack_nsGuest.mono (frame_subset_stack zedboard) (core_subset_nsGuest zedboard)
  obtain ⟨-, n', run, trip⟩ := trips _ yield
  exact ⟨zedboardGuest_ready, _, n', yield, run, trip⟩

/-- The registers of FIQ mode, which the context has no fields for. -/
def fiqSlots : List Slot :=
  [.reg .fiq .r8, .reg .fiq .r9, .reg .fiq .r10, .reg .fiq .r11, .reg .fiq .r12, .reg .fiq .sp,
    .reg .fiq .lr, .spsr .fiq]

/-- The registers of Monitor mode, which the non-secure world cannot enter. -/
def monSlots : List Slot := [.reg .mon .sp, .reg .mon .lr, .spsr .mon]

private theorem loaded_or_fiq {t : Slot} (ht : t.Architected) (visible : t ∉ monSlots) :
    t ∈ coreSlots ∨ t ∈ fiqSlots := by
  cases t with
  | reg b r =>
    cases b <;> cases r <;>
      simp [Slot.Architected, monSlots, coreSlots, CoreReg.all, CoreReg.slot, fiqSlots]
        at ht visible ⊢
  | spsr b =>
    cases b <;> simp [Slot.Architected, monSlots, coreSlots, CoreReg.all, CoreReg.slot, fiqSlots]
      at ht visible ⊢

private theorem fiq_not_loaded {t : Slot} (ht : t ∈ fiqSlots) :
    t ∉ coreSlots ∧ t ∉ monSlots ∧ t.Architected := by
  simp only [fiqSlots, List.mem_cons, List.not_mem_nil, or_false] at ht
  rcases ht with rfl | rfl | rfl | rfl | rfl | rfl | rfl | rfl <;>
    simp [coreSlots, CoreReg.all, CoreReg.slot, monSlots, Slot.Architected]

/-- The non-secure guest cannot tell two machines apart by the registers it reads. -/
structure SameView (n n' : Core) : Prop where
  slots : ∀ t : Slot, t.Architected → t ∉ monSlots → n.get t = n'.get t
  pc : n.pc = n'.pc
  cpsr : n.cpsr = n'.cpsr

private theorem sameView_iff {ctx : Addr} {s s' n n' : Core} (entered : Scheduled ctx s n)
    (entered' : Scheduled ctx s' n')
    (context : ∀ f, coreField s.mem ctx f = coreField s'.mem ctx f) :
    SameView n n' ↔ ∀ t ∈ fiqSlots, s.get t = s'.get t := by
  have fiq : ∀ t ∈ fiqSlots, n.get t = s.get t ∧ n'.get t = s'.get t := by
    intro t ht
    obtain ⟨notLoaded, notMon, -⟩ := fiq_not_loaded ht
    have notSp : t ≠ .reg .mon .sp := fun e => notMon (by simp [monSlots, e])
    exact ⟨entered.others t notLoaded notSp, entered'.others t notLoaded notSp⟩
  constructor
  · intro same t ht
    obtain ⟨-, notMon, exist⟩ := fiq_not_loaded ht
    obtain ⟨left, right⟩ := fiq t ht
    rw [← left, ← right, same.slots t exist notMon]
  · intro same
    constructor
    case slots =>
      intro t exist visible
      rcases loaded_or_fiq exist visible with loaded | inFiq
      · obtain ⟨f, -, rfl⟩ := List.mem_map.mp loaded
        rw [entered.context, entered'.context, context]
      · obtain ⟨left, right⟩ := fiq t inFiq
        rw [left, right, same t inFiq]
    case pc => rw [entered.pc, entered'.pc, context]
    case cpsr => rw [entered.cpsr, entered'.cpsr, context]

theorem no_leak_iff (env : Env) {s s' : Core} (yield : AtYield env s) (yield' : AtYield env s')
    (context : ∀ f, coreField s.mem env.nsGuest f = coreField s'.mem env.nsGuest f) :
    ∃ n n', monSmcHandler env (takeSmc s) = some n ∧ monSmcHandler env (takeSmc s') = some n' ∧
      (SameView n n' ↔ ∀ t ∈ fiqSlots, s.get t = s'.get t) := by
  have run := smc_sched env (takeSmc s) yield.sched
  have run' := smc_sched env (takeSmc s') yield'.sched
  exact ⟨_, _, run, run', sameView_iff (yield.scheduled run) (yield'.scheduled run') context⟩

/-- What the secure guest has in r4 is reloaded, and the registers of FIQ mode are as they were. -/
theorem no_leak_iff_zedboard :
    let s := zedboardYield
    let s' := zedboardYield.put (.reg .usr .r4) 0x5EC3E7#32
    AtYield zedboard s ∧ AtYield zedboard s' ∧ s.regs .usr .r4 ≠ s'.regs .usr .r4 ∧
      ∃ n n', monSmcHandler zedboard (takeSmc s) = some n ∧
        monSmcHandler zedboard (takeSmc s') = some n' ∧ SameView n n' := by
  intro s s'
  have yield : AtYield zedboard s := zedboardYield_atYield
  have yield' : AtYield zedboard s' := ⟨rfl, yield.world, rfl, rfl⟩
  obtain ⟨n, n', run, run', same⟩ := no_leak_iff zedboard yield yield' fun _ => rfl
  refine ⟨yield, yield', by decide, n, n', run, run', same.mpr fun t ht => ?_⟩
  have other : t ≠ .reg .usr .r4 := by
    rintro rfl
    simp [fiqSlots] at ht
  rw [Machine.get_put, if_neg other]

/-- The non-secure guest reads in r8 of FIQ mode what the secure guest left there. -/
theorem fiq_register_leaks :
    let s := zedboardYield
    let s' := zedboardYield.put (.reg .fiq .r8) 0x5EC3E7#32
    AtYield zedboard s ∧ AtYield zedboard s' ∧ s'.mem = s.mem ∧
      ∃ n n', monSmcHandler zedboard (takeSmc s) = some n ∧
        monSmcHandler zedboard (takeSmc s') = some n' ∧
        n.regs .fiq .r8 = 0#32 ∧ n'.regs .fiq .r8 = 0x5EC3E7#32 ∧ ¬ SameView n n' := by
  intro s s'
  have yield : AtYield zedboard s := zedboardYield_atYield
  have yield' : AtYield zedboard s' := ⟨rfl, yield.world, rfl, rfl⟩
  have run := smc_sched zedboard (takeSmc s) yield.sched
  have run' := smc_sched zedboard (takeSmc s') yield'.sched
  refine ⟨yield, yield', rfl, _, _, run, run', ?_⟩
  have entered := yield.scheduled run
  have entered' := yield'.scheduled run'
  generalize exec monScheduler (atScheduler (takeSmc s)) = n at *
  generalize exec monScheduler (atScheduler (takeSmc s')) = n' at *
  have inFiq : Slot.reg .fiq .r8 ∈ fiqSlots := by simp [fiqSlots]
  obtain ⟨notLoaded, -, -⟩ := fiq_not_loaded inFiq
  have left : n.get (.reg .fiq .r8) = 0#32 := entered.others _ notLoaded (by simp)
  have right : n'.get (.reg .fiq .r8) = 0x5EC3E7#32 := entered'.others _ notLoaded (by simp)
  refine ⟨left, right, fun same => ?_⟩
  have leak := (sameView_iff entered entered' fun _ => rfl).mp same _ inFiq
  exact absurd leak (by decide)

end LTZVisor.Monitor.GuestContext
