/- LTZVisor/Drivers/TimerRejection
   kind: property
   digest: What a timer request that is refused leaves in the registers of its timer. -/

import LTZVisor.Drivers.TimerPeriod
import LTZVisor.Lib.Bits

set_option autoImplicit false
set_option relaxedAutoImplicit false

namespace LTZVisor.Drivers.TimerRejection

open LTZVisor.Lib.Bits LTZVisor.Lib.Memory LTZVisor.Drivers.Ttc
open LTZVisor.Drivers.TimerPeriod (setTimer_same setTimer_other)

variable {ts : Timers} {ttcNum timerNum useconds : Word} {r : Timer}

def prescaler (useconds : Word) : Word :=
  if useconds ≥ 1 ∧ useconds ≤ 1000 then 0x3#32
  else if useconds > 1000 ∧ useconds ≤ 1000000 then 0x17#32
  else 0#32

/-- The timer is in neither interval nor match mode. -/
def Modeless (r : Timer) : Prop :=
  r.cntCntrl &&& ttcCntCntrlInt = 0 ∧ r.cntCntrl &&& ttcCntCntrlMatch = 0

/-- The time is in one of the two ranges and the timer has a register to take it. -/
def Grantable (useconds : Word) (r : Timer) : Prop := prescaler useconds ≠ 0 ∧ ¬Modeless r

/-- What a refused request has written by the time it is refused. -/
def marked (useconds : Word) (r : Timer) : Timer :=
  { r with
    clkCntrl := r.clkCntrl ||| prescaler useconds
    cntCntrl := r.cntCntrl ||| (ttcCntCntrlRst ||| ttcCntCntrlDis) }

def Holds (counter useconds : Word) (r : Timer) : Prop :=
  r.cntCntrl &&& (ttcCntCntrlRst ||| ttcCntCntrlDis) = counter ∧
    r.clkCntrl &&& prescaler useconds = prescaler useconds

/-- A call that returns FALSE leaves every register as it was. -/
def Atomic (call : Timers → Bool × Timers) (ts : Timers) : Prop :=
  (call ts).1 = false → (call ts).2 = ts

private theorem setTime_refused_iff : (setTime useconds r).1 = false ↔ Modeless r := by
  have int : r.cntCntrl &&& (ttcCntCntrlMatch ||| ttcCntCntrlInt) &&& ttcCntCntrlInt =
      r.cntCntrl &&& ttcCntCntrlInt := by
    rw [BitVec.and_assoc]
    rfl
  have hit : r.cntCntrl &&& (ttcCntCntrlMatch ||| ttcCntCntrlInt) &&& ttcCntCntrlMatch =
      r.cntCntrl &&& ttcCntCntrlMatch := by
    rw [BitVec.and_assoc]
    rfl
  unfold setTime Modeless
  dsimp only
  rw [int, hit]
  split_ifs with a b
  · exact iff_of_false (by simp) fun none => a none.1
  · exact iff_of_false (by simp) fun none => b none.2
  · exact iff_of_true rfl ⟨not_not.mp a, not_not.mp b⟩

private theorem setTime_refused (refused : (setTime useconds r).1 = false) :
    (setTime useconds r).2 = r := by
  unfold setTime at refused ⊢
  dsimp only at refused ⊢
  split_ifs at refused ⊢
  rfl

private theorem marked_modeless_iff : Modeless (marked useconds r) ↔ Modeless r := by
  have clear (bit : Word) (apart : (ttcCntCntrlRst ||| ttcCntCntrlDis) &&& bit = 0) :
      (r.cntCntrl ||| (ttcCntCntrlRst ||| ttcCntCntrlDis)) &&& bit = r.cntCntrl &&& bit := by
    rw [BitVec.and_comm, BitVec.and_or_distrib_left, BitVec.and_comm bit,
      BitVec.and_comm bit, apart]
    exact BitVec.or_zero
  unfold Modeless marked
  dsimp only
  rw [clear ttcCntCntrlInt rfl, clear ttcCntCntrlMatch rfl]

/-- A request marks its timer and then, when the time is in range, looks for the register. -/
private theorem requestTimer_eq (useconds : Word) (r : Timer) :
    ∃ ticks, requestTimer useconds r =
      if prescaler useconds ≠ 0 then setTime ticks (marked useconds r)
      else (false, marked useconds r) := by
  unfold requestTimer marked prescaler
  by_cases short : useconds ≥ 1 ∧ useconds ≤ 1000
  · simp only [if_pos short]
    exact ⟨_, rfl⟩
  · by_cases longer : useconds > 1000 ∧ useconds ≤ 1000000
    · simp only [if_neg short, if_pos longer]
      exact ⟨_, rfl⟩
    · refine ⟨0, ?_⟩
      simp only [if_neg short, if_neg longer]
      rw [if_neg (show ¬(0#32 ≠ (0 : Word)) from not_not_intro rfl), BitVec.or_zero]

private theorem requestTimer_refused_iff :
    (requestTimer useconds r).1 = false ↔ ¬Grantable useconds r := by
  obtain ⟨ticks, request⟩ := requestTimer_eq useconds r
  rw [request, Grantable, not_and_not_right]
  split_ifs with range
  · rw [setTime_refused_iff, marked_modeless_iff]
    exact ⟨fun none _ => none, fun h => h range⟩
  · exact iff_of_true rfl fun h => absurd h range

private theorem requestTimer_refused (refused : (requestTimer useconds r).1 = false) :
    (requestTimer useconds r).2 = marked useconds r := by
  obtain ⟨ticks, request⟩ := requestTimer_eq useconds r
  rw [request] at refused ⊢
  split_ifs at refused ⊢
  · exact setTime_refused refused
  · rfl

private theorem marked_eq_self_iff :
    marked useconds r = r ↔ Holds (ttcCntCntrlRst ||| ttcCntCntrlDis) useconds r := by
  have registers : marked useconds r = r ↔
      r.clkCntrl ||| prescaler useconds = r.clkCntrl ∧
        r.cntCntrl ||| (ttcCntCntrlRst ||| ttcCntCntrlDis) = r.cntCntrl := by
    cases r
    simp only [marked, Timer.mk.injEq, and_true]
  rw [registers, or_eq_assign, or_eq_assign, assign_eq_self_iff, assign_eq_self_iff,
    BitVec.and_self, BitVec.and_self, and_comm]
  rfl

private theorem enable_marked_eq_self_iff :
    enableTimer (marked useconds r) = r ↔ Holds ttcCntCntrlRst useconds r := by
  have counter : (r.cntCntrl ||| (ttcCntCntrlRst ||| ttcCntCntrlDis) ||| ttcCntCntrlRst) &&&
      ~~~ttcCntCntrlDis = assign (ttcCntCntrlRst ||| ttcCntCntrlDis) ttcCntCntrlRst r.cntCntrl := by
    rw [← set_clear_eq_assign rfl]
    apply BitVec.eq_of_getLsbD_eq
    intro i _
    simp only [BitVec.getLsbD_and, BitVec.getLsbD_or, BitVec.getLsbD_not]
    cases ttcCntCntrlRst.getLsbD i <;> cases ttcCntCntrlDis.getLsbD i <;> simp
  have registers : enableTimer (marked useconds r) = r ↔
      r.clkCntrl ||| prescaler useconds = r.clkCntrl ∧
        (r.cntCntrl ||| (ttcCntCntrlRst ||| ttcCntCntrlDis) ||| ttcCntCntrlRst) &&&
          ~~~ttcCntCntrlDis = r.cntCntrl := by
    cases r
    simp only [enableTimer, marked, Timer.mk.injEq, and_true]
  rw [registers, counter, or_eq_assign, assign_eq_self_iff, assign_eq_self_iff, BitVec.and_self,
    and_comm]
  rfl

private theorem setTimer_eq_self_iff : setTimer ts ttcNum timerNum r = ts ↔ r =
    ts ttcNum timerNum := by
  constructor
  · intro same
    rw [← congrFun (congrFun same ttcNum) timerNum, setTimer_same]
  · rintro rfl
    funext i j
    unfold setTimer
    split_ifs with named
    · rw [named.1, named.2]
    · rfl

private theorem setTimer_setTimer (r' : Timer) :
    setTimer (setTimer ts ttcNum timerNum r) ttcNum timerNum r' =
      setTimer ts ttcNum timerNum r' := by
  funext i j
  unfold setTimer
  split_ifs <;> rfl

private theorem ttcRequest_atomic_iff : Atomic (ttcRequest ttcNum timerNum useconds) ts ↔
    ttcNum > ttc1 ∨ timerNum > ttcx2 ∨ Grantable useconds (ts ttcNum timerNum) ∨
      Holds (ttcCntCntrlRst ||| ttcCntCntrlDis) useconds (ts ttcNum timerNum) := by
  rw [← or_assoc]
  unfold Atomic ttcRequest
  split_ifs with bad
  · exact iff_of_true (fun _ => rfl) (Or.inl bad)
  · dsimp only
    rw [or_iff_right bad, requestTimer_refused_iff, setTimer_eq_self_iff, ← marked_eq_self_iff,
      or_iff_not_imp_left]
    refine forall_congr' fun refused => ?_
    rw [requestTimer_refused (requestTimer_refused_iff.mpr refused)]

private theorem tickOn_eq (valid : ¬(ttcNum > ttc1 ∨ timerNum > ttcx2)) (time : Word) :
    tickOn ttcNum timerNum time ts =
      ((requestTimer time (ts ttcNum timerNum)).1,
        setTimer ts ttcNum timerNum (enableTimer (requestTimer time (ts ttcNum timerNum)).2)) := by
  unfold tickOn ttcRequest ttcEnable
  rw [if_neg valid]
  dsimp only
  rw [if_neg valid, setTimer_same, setTimer_setTimer]

private theorem tickOn_atomic_iff (valid : ¬(ttcNum > ttc1 ∨ timerNum > ttcx2)) {time : Word} :
    Atomic (tickOn ttcNum timerNum time) ts ↔
      Grantable time (ts ttcNum timerNum) ∨ Holds ttcCntCntrlRst time (ts ttcNum timerNum) := by
  unfold Atomic
  rw [tickOn_eq valid]
  dsimp only
  rw [requestTimer_refused_iff, setTimer_eq_self_iff, ← enable_marked_eq_self_iff,
    or_iff_not_imp_left]
  refine forall_congr' fun refused => ?_
  rw [requestTimer_refused (requestTimer_refused_iff.mpr refused)]

/-- A refused request leaves the timers alone exactly when they already hold what it writes. -/
theorem rejected_unchanged_iff (ts : Timers) (ttcNum timerNum useconds time : Word) :
    (Atomic (ttcRequest ttcNum timerNum useconds) ts ↔
      ttcNum > ttc1 ∨ timerNum > ttcx2 ∨ Grantable useconds (ts ttcNum timerNum) ∨
        Holds (ttcCntCntrlRst ||| ttcCntCntrlDis) useconds (ts ttcNum timerNum)) ∧
    (Atomic (tickSet time) ts ↔
      Grantable time (ts ttc0 ttcx2) ∨ Holds ttcCntCntrlRst time (ts ttc0 ttcx2)) :=
  ⟨ttcRequest_atomic_iff, tickOn_atomic_iff (by decide)⟩

/-- At reset a request of no time at all is refused after it has stopped the timer. -/
theorem rejected_request_writes :
    ¬∀ (ts : Timers) (ttcNum timerNum useconds time : Word),
      Atomic (ttcRequest ttcNum timerNum useconds) ts ∧ Atomic (tickSet time) ts := by
  intro claim
  have same := (claim reset 1 0 0 0).1 (by decide)
  have counter := congrArg (fun ts : Timers => (ts 1 0).cntCntrl) same
  revert counter
  decide

end LTZVisor.Drivers.TimerRejection
