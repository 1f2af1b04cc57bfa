/- LTZVisor/Monitor/Preemption
   kind: property
   digest: The non-secure guest does not see when the secure one takes its turns. -/

import LTZVisor.Lib.Pauses
import LTZVisor.Monitor.GuestContext

set_option autoImplicit false
set_option relaxedAutoImplicit false

namespace LTZVisor.Monitor.Preemption

open LTZVisor.Lib.Memory LTZVisor.Lib.Pauses LTZVisor.Arm LTZVisor.Arm.Instr LTZVisor.Arch.Vcpu
open LTZVisor.Boards.Zedboard LTZVisor.Monitor.Macros LTZVisor.Monitor.Handlers
open LTZVisor.Monitor.Scheduler LTZVisor.Monitor.Fiq LTZVisor.Monitor.BoardSmc
open LTZVisor.Monitor.Switch LTZVisor.Monitor.Guests LTZVisor.Monitor.GuestContext

section Memory

variable {env : Env} {x : Addr}

/-- From `m` to `m'` the byte at `x` changes at most when it lies in the frames of C code. -/
structure Spares (env : Env) (x : Addr) (m m' : Core) : Prop where
  mode : m'.cpsr.mode = m.cpsr.mode
  sp : m'.regs .mon .sp = m.regs .mon .sp
  mem : x ∉ framesBelow env m → m'.mem x = m.mem x

theorem Spares.trans {m m' m'' : Core} (first : Spares env x m m') (second : Spares env x m' m'') :
    Spares env x m m'' where
  mode := second.mode.trans first.mode
  sp := second.sp.trans first.sp
  mem := by
    intro away
    have away' : x ∉ framesBelow env m' := by rwa [framesBelow, first.sp]
    exact (second.mem away').trans (first.mem away)

private theorem spares_put (m : Core) {s : Slot} (notSp : s ≠ .reg .mon .sp) (v : Word) :
    Spares env x m (m.put s v) where
  mode := by cases s <;> rfl
  sp := by
    have kept := Machine.get_put m s (.reg .mon .sp) v
    rwa [if_neg (Ne.symm notSp)] at kept
  mem := by
    intro _
    cases s <;> rfl

private theorem spares_returnTo (m : Core) (mon : m.cpsr.mode = monMode) (mem : Mem) (dev : Devices)
    (same : mem x = m.mem x) : Spares env x m (env.abi.returnTo none { m with mem, dev }) where
  mode := rfl
  sp := by
    have sp := sp_obeyed (Aapcs.returnTo_obeyed env.abi none { m with mem, dev })
    exact sp
  mem := by
    intro away
    have outside : x ∉ env.abi.frames { m with mem, dev } := by
      simpa [Aapcs.frames, framesBelow, mon] using away
    exact (if_neg outside).trans same

private theorem spares_handleFiq (isr : ∀ i id mem, env.isr i id mem x = mem x) (m : Core)
    (mon : m.cpsr.mode = monMode) : Spares env x m (exec (handleFiq env) m) := by
  have load (m' : Core) : Spares env x m'
      (exec [movImm .r2 env.interrupt, ldr .r0 .r2 0#32] m') :=
    (spares_put m' (s := .reg .usr .r2) (by simp) _).trans
      (spares_put _ (s := .reg .usr .r0) (by simp) _)
  have handler (m' : Core) (mon' : m'.cpsr.mode = monMode) :
      Spares env x m' (callFiqHandler env m') := by
    apply spares_returnTo m' mon'
    cases handler : fiqHandlers (m'.reg .r0) with
    | none => rfl
    | some i => exact isr i _ m'.mem
  have clear (m' : Core) (mon' : m'.cpsr.mode = monMode) :
      Spares env x m' (callInterruptClear env m') := spares_returnTo m' mon' m'.mem _ rfl
  have argument (m' : Core) : Spares env x m' (movImm .r1 0#32 m') :=
    spares_put m' (s := .reg .usr .r1) (by simp) _
  have first := load m
  have second := first.trans (handler _ (first.mode.trans mon))
  have third := second.trans (load _)
  have fourth := third.trans (argument _)
  exact fourth.trans (clear _ (fourth.mode.trans mon))

private theorem fiq_mem {n : Core} (ready : NsReady env n)
    (isr : ∀ i id mem, env.isr i id mem x = mem x)
    (stack : x ∉ env.stack) (nsGuest : x ∉ env.nsGuestRange) (interrupt : x ∉ env.interruptRange) :
    (monFiqHandler env (takeFiq n)).mem x = n.mem x := by
  have room := env.room
  have size := env.stackSize_le
  have saved := nsSaved env (takeFiq n) rfl ready.sp ready.pointer
  have top : (takeFiq n).regs .mon .sp = env.stackTop - 100#32 := ready.sp
  have whole : monFiqHandler env (takeFiq n) =
      exec popSecureFrame (exec (handleFiq env) (exec (saveNsContext env) (takeFiq n))) := by
    simp only [monFiqHandler, exec_append]
  rw [whole]
  generalize exec (saveNsContext env) (takeFiq n) = m1 at *
  have mon : m1.cpsr.mode = monMode := saved.worked.mode
  have spares := spares_handleFiq isr m1 mon
  have low : (framesBelow env m1).Subset env.stack := by
    apply subset_stack <;> rw [saved.sp, top] <;> bv_omega
  have pushed : (⟨(takeFiq n).regs .mon .sp - 28#32, 28⟩ : Range).Subset env.stack := by
    apply subset_stack <;> rw [top] <;> bv_omega
  rw [(framePopped _ (spares.mode.trans mon)).mem, spares.mem fun hit => stack (low x hit)]
  apply saved.frame x
  intro r hr
  simp only [List.mem_cons, List.not_mem_nil, or_false] at hr
  rcases hr with rfl | rfl | rfl
  · exact fun hit => stack (pushed x hit)
  · exact fun hit => nsGuest (core_subset_nsGuest env x hit)
  · exact interrupt

end Memory

/-- The registers of the context, but for those that only Monitor mode has. -/
def guestSlots : List Slot :=
  coreSlots.filter fun t => t ≠ .spsr .usr ∧ t ≠ .spsr .mon ∧ t ≠ .reg .mon .lr

/-- The processor state of the guest outside FIQ mode, and its memory. -/
@[ext] structure View where
  get : Slot → Word
  pc : Word
  cpsr : Psr
  cp15 : Cp15Reg → Word
  mem : Mem

def view (own : Range) (m : Core) : View where
  get := fun t => if t ∈ guestSlots then m.get t else 0#32
  pc := m.pc
  cpsr := m.cpsr
  cp15 := fun r => if r = .actlr then 0#32 else m.cp15 .nonSecure r
  mem := fun x => if x ∈ own then m.mem x else 0#8

namespace View

def arg (v : View) (r : Reg) : Word := v.get (.reg .usr r)

/-- What a call accesses is memory of the guest. -/
def Within (own : Range) (v : View) : Prop :=
  v.arg .r0 = ltzvisorReadSyscall ∨ v.arg .r0 = ltzvisorWriteSyscall →
    (⟨v.arg .r1, 4⟩ : Range).Subset own

def called (own : Range) (v : View) : View :=
  let out := boardHandler (v.arg .r0) (v.arg .r1) (v.arg .r2) (v.arg .r3) v.mem
  { v with
    get := fun t => if t = .reg .usr .r0 then out.1 else v.get t
    mem := fun x => if x ∈ own then out.2 x else 0#8 }

end View

/-- The guest on a machine of its own: its program `prog`, and calls that are functions. -/
inductive Alone (prog : View → View → Prop) (own : Range) (v : View) : View → Prop
  | work {v' : View} : prog v v' → Alone prog own v v'
  | call : (v.arg .r0).msb = true → v.Within own → Alone prog own v (v.called own)

/-- A step of the guest on the machine that it shares. -/
inductive Own (env : Env) (own : Range) (prog : View → View → Prop) (n n' : Core) : Prop
  | work : prog (view own n) (view own n') → NsRun env n n' → Own env own prog n n'
  | call : BoardCall env n n' → (view own n).Within own → Own env own prog n n'

/-- An FIQ interrupts the guest, the secure guest runs on to a call of the scheduler without
touching what is the other's, and the guest goes on. -/
structure Turn (env : Env) (own : Range) (n n' : Core) : Prop where
  through : ∃ s, YieldAfter env n s ∧ s.regs .mon .sp = env.stackTop ∧
    monSmcHandler env (takeSmc s) = some n' ∧
    (∀ r, r ≠ .actlr → s.cp15 .nonSecure r =
      (monFiqHandler env (takeFiq n)).cp15 .nonSecure r) ∧
    ∀ x ∈ own, s.mem x = (monFiqHandler env (takeFiq n)).mem x

/-- Memory that neither the monitor nor the handlers of the secure guest use. -/
structure Private (env : Env) (own : Range) : Prop where
  stack : own.Disjoint env.stack
  nsGuest : own.Disjoint env.nsGuestRange
  interrupt : own.Disjoint env.interruptRange
  isr : ∀ i id mem, ∀ x ∈ own, env.isr i id mem x = mem x

variable {env : Env} {own : Range} {prog : View → View → Prop} {n n' : Core}

private theorem mem_guestSlots {t : Slot} : t ∈ guestSlots ↔
    t ∈ coreSlots ∧ t ≠ .spsr .usr ∧ t ≠ .spsr .mon ∧ t ≠ .reg .mon .lr := by
  rw [guestSlots, List.mem_filter, decide_eq_true_eq]

private theorem view_get (own : Range) (m : Core) {t : Slot} (inside : t ∈ guestSlots) :
    (view own m).get t = m.get t := if_pos inside

private theorem view_mem (m : Core) {x : Addr} (mine : x ∈ own) : (view own m).mem x = m.mem x :=
  if_pos mine

private theorem arg_view (own : Range) (m : Core) {r : Reg} (arg : Slot.reg .usr r ∈ guestSlots) :
    (view own m).arg r = m.regs .usr r := if_pos arg

private theorem arg_mem : ∀ r ∈ [Reg.r0, .r1, .r2, .r3], Slot.reg .usr r ∈ guestSlots := by
  decide

/-- The registers that the guest has when it goes on are those that it had. -/
theorem Scheduled.get {s : Core} (entered : Scheduled env.nsGuest s n')
    (saved : InContext env n s.mem) {t : Slot} (mem : t ∈ guestSlots) : n'.get t = n.get t := by
  obtain ⟨core, notSys, notSpsr, notLr⟩ := mem_guestSlots.mp mem
  obtain ⟨f, -, rfl⟩ := List.mem_map.mp core
  rw [entered.context]
  apply saved.field f
  · exact fun e => notSys (e ▸ rfl)
  · exact fun e => notSpsr (e ▸ rfl)
  · exact fun e => notLr (e ▸ rfl)

/-- A turn of the secure guest is not seen. -/
private theorem view_of_turn (turn : Turn env own n n') (ready : NsReady env n)
    (priv : Private env own) : view own n' = view own n := by
  obtain ⟨s, yield, sp, run, cp15, mem⟩ := turn.through
  obtain ⟨entered, -⟩ := yield.scheduled ready run
  have saved := (NsReady.inContext ready).congr yield.secure.nsGuest
  have trip := Scheduled.roundTrip entered saved
  ext1
  case get =>
    funext t
    by_cases inside : t ∈ guestSlots
    · rw [view_get own n' inside, view_get own n inside, Scheduled.get entered saved inside]
    · exact (if_neg inside).trans (if_neg inside).symm
  case pc => exact trip.pc
  case cpsr => exact trip.cpsr
  case cp15 =>
    funext r
    by_cases common : r = .actlr
    · exact (if_pos common).trans (if_pos common).symm
    · have bank : n'.cp15 .nonSecure r = n.cp15 .nonSecure r := by
        rw [entered.cp15, cp15 r common, ready.fiqTaken.cp15]
        rfl
      exact (if_neg common).trans (bank.trans (if_neg common).symm)
  case mem =>
    funext x
    by_cases mine : x ∈ own
    · have frame : x ∉ (⟨s.regs .mon .sp - 108#32, 108⟩ : Range) := by
        rw [sp]
        exact fun hit => priv.stack x mine (frame_subset_stack env x hit)
      have kept : n'.mem x = n.mem x := by
        rw [entered.frame x (by simpa using frame), mem x mine]
        exact fiq_mem ready (fun i id mem => priv.isr i id mem x mine) (priv.stack x mine)
          (priv.nsGuest x mine) (priv.interrupt x mine)
      rw [view_mem n' mine, view_mem n mine, kept]
    · exact (if_neg mine).trans (if_neg mine).symm

private theorem boardResult_eq (own : Range) (n : Core) (mem : Mem) : boardResult n mem =
    boardHandler ((view own n).arg .r0) ((view own n).arg .r1) ((view own n).arg .r2)
      ((view own n).arg .r3) mem := by
  rw [boardResult, arg_view own n (arg_mem .r0 (by simp)), arg_view own n (arg_mem .r1 (by simp)),
    arg_view own n (arg_mem .r2 (by simp)), arg_view own n (arg_mem .r3 (by simp))]

private theorem call_misses (priv : Private env own) (within : (view own n).Within own) :
    StoreMisses n env.stack := by
  intro write
  rw [View.Within, arg_view own n (arg_mem .r0 (by simp)),
    arg_view own n (arg_mem .r1 (by simp))] at within
  exact priv.stack.mono (within (.inr write)) (Range.Subset.refl _)

private theorem argFrame_own (priv : Private env own) (ready : NsReady env n) {x : Addr}
    (mine : x ∈ own) : argFrame (atBoardSmc (takeSmc n)) x = n.mem x := by
  have room := env.room
  have size := env.stackSize_le
  have pushed : (⟨n.regs .mon .sp - 56#32, 56⟩ : Range).Subset (callFrames env n) :=
    Range.subset_of_offset (by bv_omega)
  have frames := pushed.trans (callFrames_subset_stack (.inr ready.sp))
  rw [entry_frame_eq]
  apply writeWords_of_not_mem
  exact fun inside => priv.stack x mine (frames x inside)

/-- A call is seen as a function of what the guest sees. -/
private theorem view_of_call (call : BoardCall env n n') (ready : NsReady env n)
    (priv : Private env own) (within : (view own n).Within own) :
    view own n' = (view own n).called own := by
  have called := call.called (call_misses priv within) (.inr ready.sp)
  ext1
  case get =>
    funext t
    change _ = if t = .reg .usr .r0 then _ else _
    by_cases isR0 : t = .reg .usr .r0
    · subst isR0
      have r0 : n'.get (.reg .usr .r0) = _ := called.r0
      rw [if_pos rfl, view_get own n' (arg_mem .r0 (by simp)), r0, boardResult_eq own]
      refine boardHandler_result_congr fun read x hx => ?_
      have mine := within (.inl read) x hx
      rw [argFrame_own priv ready mine, view_mem n mine]
    · rw [if_neg isR0]
      by_cases inside : t ∈ guestSlots
      · obtain ⟨-, -, notSpsr, notLr⟩ := mem_guestSlots.mp inside
        rw [view_get own n' inside, view_get own n inside, called.others t isR0 notLr notSpsr]
      · exact (if_neg inside).trans (if_neg inside).symm
  case pc => exact called.pc
  case cpsr => exact called.cpsr
  case cp15 =>
    change (fun r => if r = .actlr then 0#32 else n'.cp15 .nonSecure r) = _
    rw [called.cp15]
    rfl
  case mem =>
    funext x
    change _ = if x ∈ own then _ else _
    by_cases mine : x ∈ own
    · have away : x ∉ callFrames env n := fun inside =>
        priv.stack x mine (callFrames_subset_stack (.inr ready.sp) x inside)
      rw [if_pos mine, view_mem n' mine, called.mem x away, boardResult_eq own, boardHandler_mem,
        boardHandler_mem, view_mem n mine]
    · rw [if_neg mine]
      exact if_neg mine

/-- The guest makes its own steps, and does not see those of the other. -/
private theorem turns_unseen (env : Env) (own : Range) (prog : View → View → Prop)
    (priv : Private env own) :
    Unseen (Own env own prog) (Turn env own) (view own) (NsReady env) (Alone prog own) where
  keeps := by
    intro n n' ready step
    rcases step with step | turn
    · cases step with
      | work _ run => exact ready_preserved env ready (.guest run)
      | call call within =>
        exact ready_preserved env ready (.call call (call_misses priv within))
    · obtain ⟨s, yield, sp, run, -, -⟩ := turn.through
      exact alternation_ready env ready (.switch yield sp run)
  own := by
    intro n n' ready step
    cases step with
    | work step _ => exact .work step
    | call call within =>
      rw [view_of_call call ready priv within]
      refine .call ?_ within
      rw [arg_view own n (arg_mem .r0 (by simp))]
      exact call.negative
  pause := fun n n' ready turn => view_of_turn turn ready priv

/-- However often an FIQ gives the processor to the secure guest, what the non-secure one sees is a
run of its own program on a machine without the other. -/
theorem preemption_unseen (env : Env) (own : Range) (prog : View → View → Prop)
    (priv : Private env own) {n n' : Core} (ready : NsReady env n) {vs : List View}
    (run : Sliced (Own env own prog) (Turn env own) (view own) n vs n') :
    List.IsChain (Alone prog own) (view own n :: vs) ∧
      (view own n :: vs).getLast? = some (view own n') :=
  (turns_unseen env own prog priv).alone ready run

private theorem turn_of_yield {s : Core} (yield : YieldAfter env n s) (ready : NsReady env n)
    (sp : s.regs .mon .sp = env.stackTop)
    (cp15 : s.cp15 = (monFiqHandler env (takeFiq n)).cp15)
    (mem : s.mem = (monFiqHandler env (takeFiq n)).mem) :
    ∃ n', Turn env own n n' ∧ n'.cpsr = n.cpsr := by
  have run := smc_sched env (takeSmc s) yield.sched
  have saved := (NsReady.inContext ready).congr yield.secure.nsGuest
  have trip := Scheduled.roundTrip (yield.scheduled ready run).1 saved
  refine ⟨_, ⟨s, yield, sp, run, fun r _ => ?_, fun x _ => ?_⟩, trip.cpsr⟩
  · rw [cp15]
  · rw [mem]

private theorem idle_turn (own : Range) (ready : NsReady env n) :
    ∃ n', Turn env own n n' ∧ n'.cpsr = n.cpsr := by
  have sp := ready.fiqTaken.slots (.reg .mon .sp)
  rw [Machine.get_put, if_pos rfl] at sp
  generalize back : monFiqHandler env (takeFiq n) = m at sp
  have yield : YieldAfter env n (m.put (.reg .usr .r0) ltzvisorSchedSyscall) := by
    constructor
    case secure =>
      rw [back]
      exact ⟨rfl, rfl, fun _ _ => rfl⟩
    case sched => rfl
    case apart =>
      have sp' : (m.put (.reg .usr .r0) ltzvisorSchedSyscall).regs .mon .sp = env.stackTop := sp
      rw [sp']
      exact env.stack_nsGuest.mono (frame_subset_stack env) (core_subset_nsGuest env)
  apply turn_of_yield yield ready sp
  · rw [back]
    rfl
  · rw [back]
    rfl

def zedboardOwn : Range := ⟨0x00100000#32, 0x00100000⟩

def counts (v v' : View) : Prop := v'.arg .r0 = v.arg .r0 + 1#32

private theorem own_counts {m : Core} (mode : m.cpsr.mode ≠ monMode) :
    Own env own counts m (m.put (.reg .usr .r0) (m.regs .usr .r0 + 1#32)) := by
  refine .work ?_ (NsRun.put mode (by simp) _)
  rw [counts, arg_view _ _ (arg_mem .r0 (by simp)), arg_view _ _ (arg_mem .r0 (by simp))]
  rfl

theorem preemption_unseen_zedboard : Private zedboard zedboardOwn ∧ NsReady zedboard zedboardGuest ∧
    ∃ n v v', Sliced (Own zedboard zedboardOwn counts) (Turn zedboard zedboardOwn)
        (view zedboardOwn) zedboardGuest [v, v'] n ∧
      List.IsChain (Alone counts zedboardOwn) [view zedboardOwn zedboardGuest, v, v'] ∧
      v' = view zedboardOwn n := by
  have priv : Private zedboard zedboardOwn := by
    constructor
    case stack => exact Range.disjoint_of_apart (by decide) (by decide)
    case nsGuest => exact Range.disjoint_of_apart (by decide) (by decide)
    case interrupt => exact Range.disjoint_of_apart (by decide) (by decide)
    case isr => exact fun _ _ _ _ _ => rfl
  have unseen := turns_unseen zedboard zedboardOwn counts priv
  have mode : zedboardGuest.cpsr.mode ≠ monMode := by decide
  have first : Own zedboard zedboardOwn counts zedboardGuest _ := own_counts mode
  have ready := unseen.keeps zedboardGuest_ready (.inl first)
  obtain ⟨n, turn, cpsr⟩ := idle_turn zedboardOwn ready
  have mode' : n.cpsr.mode ≠ monMode := by
    rw [cpsr]
    exact mode
  have run : Sliced (Own zedboard zedboardOwn counts) (Turn zedboard zedboardOwn)
      (view zedboardOwn) zedboardGuest _ _ :=
    .own first (.pause turn (.own (own_counts mode') (.nil _)))
  obtain ⟨chain, last⟩ := preemption_unseen zedboard zedboardOwn counts priv zedboardGuest_ready run
  exact ⟨priv, zedboardGuest_ready, _, _, _, run, chain, Option.some_inj.mp last⟩

end LTZVisor.Monitor.Preemption
