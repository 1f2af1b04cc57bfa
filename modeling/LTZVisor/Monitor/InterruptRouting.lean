/- LTZVisor/Monitor/InterruptRouting
   kind: property
   digest: The routing bits of SCR and the interrupt masks of both guests over whole runs. -/

import LTZVisor.Monitor.EventInvariant

set_option autoImplicit false
set_option relaxedAutoImplicit false

namespace LTZVisor.Monitor.InterruptRouting

open LTZVisor.Lib.Memory LTZVisor.Lib.Runs LTZVisor.Arm LTZVisor.Arch.Vcpu
open LTZVisor.Boards.Zedboard LTZVisor.Monitor.Macros LTZVisor.Monitor.Handlers
open LTZVisor.Monitor.Scheduler LTZVisor.Monitor.BoardSmc LTZVisor.Monitor.Switch
open LTZVisor.Monitor.Guests LTZVisor.Monitor.Events LTZVisor.Monitor.EventInvariant

-- Bits 0, 1 and 2 of SCR are NS, IRQ and FIQ; bit 4 is FW.

/-- An IRQ would be taken to Monitor mode. -/
def IrqToMonitor (m : Core) : Prop := m.scr.getLsbD 1 = true ∧ m.cpsr.i = false

/-- SCR and the masks are those of the guest that executes, and the bits of SCR that route nothing
are those of `scr0`. -/
structure Routed (scr0 : Word) (s : State) : Prop where
  nonSecure : s.runs = .nonSecure → s.core.scr.getLsbD 0 = true ∧ s.core.scr.getLsbD 2 = true ∧
    s.core.scr.getLsbD 1 = false ∧ s.core.cpsr.f = false
  secure : s.runs = .secure → s.core.scr.getLsbD 0 = false ∧ s.core.scr.getLsbD 2 = false ∧
    s.core.cpsr.i = true ∧ s.core.cpsr.f = true
  others : ∀ k, k ≠ 0 → k ≠ 1 → k ≠ 2 → s.core.scr.getLsbD k = scr0.getLsbD k
  irq : ¬IrqToMonitor s.core

/-- A disciplined step in which a secure guest keeps its masks. -/
def QuietStep (env : Env) (image : Range) (s s' : State) : Prop :=
  ∃ e, Disciplined env image e s ∧ Step env image e s s' ∧
    (e = .work → s.runs = .secure →
      s'.core.cpsr.i = s.core.cpsr.i ∧ s'.core.cpsr.f = s.core.cpsr.f)

/-- The secure guest masks all interrupts, the non-secure one no FIQ. -/
def Masked (w : World) (p : Psr) : Prop :=
  p.mode ≠ monMode ∧ match w with
    | .secure => p.i = true ∧ p.f = true
    | .nonSecure => p.f = false

private theorem masked_stable : Stable Masked where
  mode := And.left
  flags := by
    rintro old new ⟨mode, i, f⟩
    obtain ⟨sameMode, sameI, sameF⟩ := control_msrFc old new
    exact ⟨by rwa [sameMode], sameI.trans i, sameF.trans f⟩

/-- The bits of SCR while a world runs. -/
structure ScrOf (scr0 : Word) (w : World) (scr : Word) : Prop where
  nonSecure : w = .nonSecure → scr.getLsbD 0 = true ∧ scr.getLsbD 2 = true ∧ scr.getLsbD 1 = false
  secure : w = .secure → scr.getLsbD 0 = false ∧ scr.getLsbD 2 = false
  others : ∀ k, k ≠ 0 → k ≠ 1 → k ≠ 2 → scr.getLsbD k = scr0.getLsbD k

private theorem getLsbD_masks : ∀ k < 32, scrNs.getLsbD k = decide (k = 0) ∧
    scrFiq.getLsbD k = decide (k = 2) ∧ scrIrq.getLsbD k = decide (k = 1) := by
  decide

private theorem getLsbD_nsScr (scr : Word) (k : Nat) (hk : k < 32) :
    (nsScr scr).getLsbD k =
      if k = 1 then false else if k = 0 ∨ k = 2 then true else scr.getLsbD k := by
  obtain ⟨ns, fiq, irq⟩ := getLsbD_masks k hk
  simp only [nsScr, BitVec.getLsbD_and, BitVec.getLsbD_or, BitVec.getLsbD_not, ns, fiq, irq, hk]
  by_cases one : k = 1 <;> by_cases zero : k = 0 <;> by_cases two : k = 2 <;>
    simp [one, zero, two]

private theorem getLsbD_secScr (scr : Word) (k : Nat) (hk : k < 32) :
    (secScr scr).getLsbD k =
      if k = 1 then true else if k = 0 ∨ k = 2 then false else scr.getLsbD k := by
  obtain ⟨ns, fiq, irq⟩ := getLsbD_masks k hk
  simp only [secScr, BitVec.getLsbD_and, BitVec.getLsbD_or, BitVec.getLsbD_not, ns, fiq, irq, hk]
  by_cases one : k = 1 <;> by_cases zero : k = 0 <;> by_cases two : k = 2 <;>
    simp [one, zero, two]

variable {scr0 scr : Word}

private theorem scrOf_nsScr {w : World} (route : ScrOf scr0 w scr) :
    ScrOf scr0 .nonSecure (nsScr scr) where
  nonSecure := fun _ => ⟨getLsbD_nsScr scr 0 (by decide), getLsbD_nsScr scr 2 (by decide),
    getLsbD_nsScr scr 1 (by decide)⟩
  secure := fun isSecure => by cases isSecure
  others := by
    intro k zero one two
    by_cases hk : k < 32
    · rw [getLsbD_nsScr scr k hk, if_neg one, if_neg (by omega), route.others k zero one two]
    · rw [BitVec.getLsbD_of_ge _ _ (by omega), BitVec.getLsbD_of_ge _ _ (by omega)]

private theorem scrOf_secScr {w : World} (route : ScrOf scr0 w scr) :
    ScrOf scr0 .secure (secScr scr) where
  nonSecure := fun isNonSecure => by cases isNonSecure
  secure := fun _ => ⟨getLsbD_secScr scr 0 (by decide), getLsbD_secScr scr 2 (by decide)⟩
  others := by
    intro k zero one two
    by_cases hk : k < 32
    · rw [getLsbD_secScr scr k hk, if_neg one, if_neg (by omega), route.others k zero one two]
    · rw [BitVec.getLsbD_of_ge _ _ (by omega), BitVec.getLsbD_of_ge _ _ (by omega)]

/-- The invariant: both status registers are masked as they should, and SCR is that of the world
that runs, with FW clear. -/
structure Quiet (env : Env) (scr0 : Word) (s : State) : Prop where
  kept : Kept env Masked s
  route : ScrOf scr0 s.runs s.core.scr

variable {env : Env} {image : Range}

theorem Kickoff.quiet {s : State} (start : Kickoff env s) : Quiet env s.core.scr s := by
  obtain ⟨w, m⟩ := s
  obtain rfl : w = .secure := start.runs
  constructor
  case kept =>
    constructor
    case world => exact if_pos (and_eq_zero scrNs 0 (by decide) start.ns)
    case sp => exact start.sp
    case pointer => exact start.pointer
    case running =>
      refine ⟨?_, start.i, start.f⟩
      rw [start.mode]
      decide
    case waiting =>
      change Masked .nonSecure (Psr.ofWord (coreField m.mem env.nsGuest .spsrMon))
      rw [start.context]
      exact ⟨by decide, rfl⟩
  case route =>
    constructor
    case nonSecure =>
      intro isNonSecure
      cases isNonSecure
    case secure => exact fun _ => ⟨start.ns, start.fiq⟩
    case others => exact fun _ _ _ _ => rfl

private theorem quiet_preserved (env : Env) (image : Range) (fw : scr0.getLsbD 4 = false) :
    Preserves (QuietStep env image) (Quiet env scr0) := by
  rintro s s' quiet ⟨e, disciplined, next, masks⟩
  have safe := quiet.kept.safe masked_stable disciplined next
  constructor
  case kept =>
    refine quiet.kept.step masked_stable safe fun isWork => ?_
    subst isWork
    have own := quiet.kept.running
    have fixed := quiet.route.others 4 (by decide) (by decide) (by decide)
    cases safe with
    | nsWork ran =>
      have clear := and_eq_zero scrFw 4 (by decide) (fixed.trans fw)
      exact ⟨ran.mode, (ran.f clear).trans own.2⟩
    | secWork ran =>
      obtain ⟨i, f⟩ := masks rfl rfl
      exact ⟨ran.mode, i.trans own.2.1, f.trans own.2.2⟩
  case route =>
    rcases quiet.kept.route safe with ⟨runs, scr⟩ | ⟨runs, scr⟩ | ⟨runs, scr⟩
    · rw [runs, scr]
      exact quiet.route
    · rw [runs, scr]
      exact scrOf_nsScr quiet.route
    · rw [runs, scr]
      exact scrOf_secScr quiet.route

theorem Quiet.routed {s : State} (quiet : Quiet env scr0 s) : Routed scr0 s := by
  obtain ⟨w, m⟩ := s
  have own := quiet.kept.running
  constructor
  case nonSecure =>
    rintro rfl
    obtain ⟨ns, fiq, irq⟩ := quiet.route.nonSecure rfl
    exact ⟨ns, fiq, irq, own.2⟩
  case secure =>
    rintro rfl
    obtain ⟨ns, fiq⟩ := quiet.route.secure rfl
    exact ⟨ns, fiq, own.2.1, own.2.2⟩
  case others => exact quiet.route.others
  case irq =>
    rintro ⟨irq, open_⟩
    cases w with
    | secure => exact Bool.false_ne_true (open_.symm.trans own.2.1)
    | nonSecure => exact Bool.false_ne_true ((quiet.route.nonSecure rfl).2.2.symm.trans irq)

theorem routed_of_quiet (env : Env) (image : Range) {s0 s : State} (start : Kickoff env s0)
    (run : Run (QuietStep env image) s0 s) : Routed s0.core.scr s :=
  ((quiet_preserved env image start.fw).run (Kickoff.quiet start) run).routed

/-- The first switch of the board opens the FIQ to the monitor. -/
theorem routed_of_quiet_zedboard : Kickoff zedboard zedboardKickoff ∧
    ∃ n, QuietStep zedboard zedboardImage zedboardKickoff ⟨.nonSecure, n⟩ ∧
      Routed zedboardKickoff.core.scr ⟨.nonSecure, n⟩ := by
  obtain ⟨n, run⟩ : ∃ n, monSmcHandler zedboard (takeSmc zedboardKickoff.core) = some n :=
    ⟨_, smc_sched zedboard _ rfl⟩
  have next : QuietStep zedboard zedboardImage zedboardKickoff ⟨.nonSecure, n⟩ := by
    refine ⟨.smc, fun _ => ⟨fun _ => rfl, fun r _ write => ?_⟩, .sched (by decide) rfl run, ?_⟩
    · exact absurd write (by decide)
    · intro isWork
      cases isWork
  exact ⟨zedboardKickoff_kickoff, n, next,
    routed_of_quiet zedboard zedboardImage zedboardKickoff_kickoff (.single next)⟩

/-- A store over the status register that a call returns with: its new value has F set. -/
def maskOwnFiq (n : Core) : Core :=
  ((n.put (.reg .usr .r0) ltzvisorWriteSyscall).put (.reg .usr .r1)
    (zedboard.stackTop - 156#32)).put (.reg .usr .r2) 0x1D3#32

private theorem maskOwnFiq_nsRun {n : Core} (mode : n.cpsr.mode ≠ monMode) :
    NsRun zedboard n (maskOwnFiq n) where
  sp := rfl
  mode := mode
  f := fun _ => rfl
  scr := rfl
  pointer := rfl
  stack := fun _ _ => rfl
  nsGuest := fun _ _ => rfl

private theorem maskOwnFiq_negative (n : Core) : ((maskOwnFiq n).regs .usr .r0).msb = true := by
  change ltzvisorWriteSyscall.msb = true
  decide

private theorem maskOwnFiq_returns {n m' : Core} (sp : n.regs .mon .sp = zedboard.stackTop - 100#32)
    (run : monSmcHandler zedboard (takeSmc (maskOwnFiq n)) = some m') : m'.cpsr.f = true := by
  rw [smc_negative zedboard (takeSmc (maskOwnFiq n)) (maskOwnFiq_negative n)] at run
  have back := boardReturned zedboard (atBoardSmc (takeSmc (maskOwnFiq n))) m' rfl run
  have low : (atBoardSmc (takeSmc (maskOwnFiq n))).regs .mon .sp = zedboard.stackTop - 100#32 := sp
  have place : zedboard.stackTop - 100#32 - 56#32 = zedboard.stackTop - 156#32 := by decide
  have word : read32 m'.mem (zedboard.stackTop - 156#32) = 0x1D3#32 := by
    have stored : (boardOut (atBoardSmc (takeSmc (maskOwnFiq n)))).2 =
        write32 (argFrame (atBoardSmc (takeSmc (maskOwnFiq n)))) (zedboard.stackTop - 156#32)
          0x1D3#32 := rfl
    have kept : read32 m'.mem (zedboard.stackTop - 156#32) =
        read32 (boardOut (atBoardSmc (takeSmc (maskOwnFiq n)))).2 (zedboard.stackTop - 156#32) := by
      apply read32_congr
      intro x hx
      apply back.mem
      have apart := frame_apart zedboard (maskOwnFiq n)
      have same : (maskOwnFiq n).regs .mon .sp = zedboard.stackTop - 100#32 := sp
      rw [same, place] at apart
      rw [entry_frames]
      exact apart x (Range.subset_of_offset (by decide) x hx)
    rw [kept, stored]
    exact read32_writeWords_singleton _ _ _
  rw [back.cpsr, low, place, word, (control_msrFc _ _).2.2]
  rfl

theorem fiq_masked_by_store : ∃ s1 s2 s3,
    Kickoff zedboard zedboardKickoff ∧ Step zedboard zedboardImage .smc zedboardKickoff s1 ∧
      Step zedboard zedboardImage .work s1 s2 ∧ Step zedboard zedboardImage .smc s2 s3 ∧
      (s2.core.regs .usr .r0).msb = true ∧ s3.runs = .nonSecure ∧ s3.core.cpsr.f = true ∧
      ¬Routed zedboardKickoff.core.scr s3 := by
  obtain ⟨n, run⟩ : ∃ n, monSmcHandler zedboard (takeSmc zedboardKickoff.core) = some n :=
    ⟨_, smc_sched zedboard _ rfl⟩
  have yield : AtYield zedboard zedboardKickoff.core := ⟨rfl, rfl, rfl, rfl⟩
  have entered := yield.scheduled run
  have ready := (yield.waiting run).toNsReady
  have mode : n.cpsr.mode ≠ monMode := by
    have psr : coreField zedboardKickoff.core.mem zedboard.nsGuest .spsrMon = 0x193#32 :=
      zedboardKickoff_kickoff.context
    rw [entered.cpsr, psr]
    decide
  have some_ : monSmcHandler zedboard (takeSmc (maskOwnFiq n)) ≠ none := by
    rw [smc_negative zedboard (takeSmc (maskOwnFiq n)) (maskOwnFiq_negative n)]
    intro stuck
    obtain ⟨-, hits⟩ := (boardSmc_eq_none_iff zedboard _ rfl).mp stuck
    apply hits
    have apart := frame_apart zedboard (maskOwnFiq n)
    have same : (maskOwnFiq n).regs .mon .sp = zedboard.stackTop - 100#32 := ready.sp
    have place : zedboard.stackTop - 100#32 - 56#32 = zedboard.stackTop - 156#32 := by decide
    rw [same, place] at apart
    have target : (atBoardSmc (takeSmc (maskOwnFiq n))).regs .usr .r1 =
        zedboard.stackTop - 156#32 := rfl
    rw [entry_frames, target]
    exact apart.mono (Range.subset_of_offset (by decide)) (Range.Subset.refl _)
  obtain ⟨m', run'⟩ := Option.ne_none_iff_exists'.mp some_
  have misses : StoreMisses (maskOwnFiq n) zedboardImage := by
    have target : (maskOwnFiq n).regs .usr .r1 = zedboard.stackTop - 156#32 := rfl
    intro _
    rw [target]
    exact Range.disjoint_of_apart (by decide) (by decide)
  have set := maskOwnFiq_returns ready.sp run'
  refine ⟨_, _, _, zedboardKickoff_kickoff, .sched (by decide) rfl run,
    .nsWork mode (maskOwnFiq_nsRun mode), .call mode ⟨maskOwnFiq_negative n, run'⟩ misses,
    maskOwnFiq_negative n, rfl, set, ?_⟩
  intro routed
  have clear := (routed.nonSecure rfl).2.2.2
  rw [set] at clear
  cases clear

end LTZVisor.Monitor.InterruptRouting
