/- LTZVisor/Drivers/TimerPeriod
   kind: property
   digest: Which requests the timers count as asked, after any calls. -/

import LTZVisor.Drivers.Ttc

set_option autoImplicit false
set_option relaxedAutoImplicit false

namespace LTZVisor.Drivers.TimerPeriod

open LTZVisor.Lib.Memory LTZVisor.Drivers.Ttc

variable {ts : Timers} {ttcNum timerNum useconds : Word} {r : Timer} {long : Prop}

def Long (ttcNum timerNum : Word) : Call → Prop
  | .request i j useconds => i = ttcNum ∧ j = timerNum ∧ useconds > 1000 ∧ useconds ≤ 1000000
  | _ => False

/-- The clock control register after calls of which some were long. -/
def Prescaled (long : Prop) (r : Timer) : Prop :=
  (long ∧ (r.clkCntrl = 0x16 ∨ r.clkCntrl = 0x17)) ∨
    (¬long ∧ (r.clkCntrl = 0 ∨ r.clkCntrl = 2 ∨ r.clkCntrl = 3))

@[simp] theorem setTimer_same (ts : Timers) (ttcNum timerNum : Word) (r : Timer) :
    setTimer ts ttcNum timerNum r ttcNum timerNum = r :=
  if_pos ⟨rfl, rfl⟩

theorem setTimer_other (ts : Timers) (ttcNum timerNum : Word) (r : Timer) {i j : Word}
    (other : ¬(i = ttcNum ∧ j = timerNum)) : setTimer ts ttcNum timerNum r i j = ts i j :=
  if_neg other

theorem Prescaled.of_clkCntrl {r' : Timer} (h : Prescaled long r)
    (same : r'.clkCntrl = r.clkCntrl) :
    Prescaled long r' := by
  unfold Prescaled
  rw [same]
  exact h

private theorem setTime_clkCntrl (useconds : Word) (r : Timer) :
    (setTime useconds r).2.clkCntrl = r.clkCntrl := by
  unfold setTime
  dsimp only
  split_ifs <;> rfl

private theorem requestTimer_clkCntrl (useconds : Word) (r : Timer) :
    (requestTimer useconds r).2.clkCntrl =
      if useconds ≥ 1 ∧ useconds ≤ 1000 then r.clkCntrl ||| 0x3
      else if useconds > 1000 ∧ useconds ≤ 1000000 then r.clkCntrl ||| 0x17 else r.clkCntrl := by
  unfold requestTimer
  dsimp only
  split_ifs
  · exact setTime_clkCntrl _ _
  · exact setTime_clkCntrl _ _
  · rfl

private theorem initTimer_clkCntrl (mode : Word) (r : Timer) :
    (initTimer mode r).clkCntrl = r.clkCntrl &&& ~~~ttcClkCntrlPsEn := by
  unfold initTimer
  dsimp only
  split_ifs <;> rfl

theorem Prescaled.init (h : Prescaled long r) (mode : Word) :
    Prescaled long (initTimer mode r) := by
  unfold Prescaled
  rw [initTimer_clkCntrl]
  rcases h with ⟨l, clk | clk⟩ | ⟨l, clk | clk | clk⟩ <;> rw [clk]
  · exact Or.inl ⟨l, Or.inl (by decide)⟩
  · exact Or.inl ⟨l, Or.inl (by decide)⟩
  · exact Or.inr ⟨l, Or.inl (by decide)⟩
  · exact Or.inr ⟨l, Or.inr (Or.inl (by decide))⟩
  · exact Or.inr ⟨l, Or.inr (Or.inl (by decide))⟩

theorem Prescaled.request (h : Prescaled long r) (useconds : Word) :
    Prescaled (long ∨ useconds > 1000 ∧ useconds ≤ 1000000) (requestTimer useconds r).2 := by
  unfold Prescaled
  rw [requestTimer_clkCntrl]
  split_ifs with short longer
  · have notLonger : ¬(useconds > 1000 ∧ useconds ≤ 1000000) := fun l => by bv_omega
    rw [or_iff_left notLonger]
    rcases h with ⟨l, clk | clk⟩ | ⟨l, clk | clk | clk⟩ <;> rw [clk]
    · exact Or.inl ⟨l, Or.inr (by decide)⟩
    · exact Or.inl ⟨l, Or.inr (by decide)⟩
    · exact Or.inr ⟨l, Or.inr (Or.inr (by decide))⟩
    · exact Or.inr ⟨l, Or.inr (Or.inr (by decide))⟩
    · exact Or.inr ⟨l, Or.inr (Or.inr (by decide))⟩
  · refine Or.inl ⟨Or.inr longer, Or.inr ?_⟩
    rcases h with ⟨-, clk | clk⟩ | ⟨-, clk | clk | clk⟩ <;> rw [clk] <;> decide
  · rw [or_iff_left longer]
    exact h

private theorem setTimer_prescaled (kept : Prescaled long (ts ttcNum timerNum)) {i j : Word}
    (set : i = ttcNum ∧ j = timerNum → Prescaled long r) :
    Prescaled long (setTimer ts i j r ttcNum timerNum) := by
  unfold setTimer
  split_ifs with same
  · exact set ⟨same.1.symm, same.2.symm⟩
  · exact kept

private theorem call_prescaled (h : Prescaled long (ts ttcNum timerNum))
    (valid : ¬(ttcNum > ttc1 ∨ timerNum > ttcx2)) (c : Call) :
    Prescaled (long ∨ Long ttcNum timerNum c) ((call ts c).2 ttcNum timerNum) := by
  have kept : Prescaled (long ∨ False) (ts ttcNum timerNum) := by
    rw [or_false]
    exact h
  cases c with
  | init i j mode =>
    change Prescaled (long ∨ False) ((ttcInit i j mode ts).2 ttcNum timerNum)
    unfold ttcInit
    split_ifs
    · exact kept
    · apply setTimer_prescaled kept
      rintro ⟨rfl, rfl⟩
      exact kept.init mode
  | enable i j =>
    change Prescaled (long ∨ False) ((ttcEnable i j ts).2 ttcNum timerNum)
    unfold ttcEnable
    split_ifs
    · exact kept
    · apply setTimer_prescaled kept
      rintro ⟨rfl, rfl⟩
      exact kept.of_clkCntrl rfl
  | disable i j =>
    change Prescaled (long ∨ False) ((ttcDisable i j ts).2 ttcNum timerNum)
    unfold ttcDisable
    split_ifs
    · exact kept
    · apply setTimer_prescaled kept
      rintro ⟨rfl, rfl⟩
      exact kept.of_clkCntrl rfl
  | request i j t =>
    rw [call, ttcRequest, Long]
    by_cases same : i = ttcNum ∧ j = timerNum
    · obtain ⟨rfl, rfl⟩ := same
      rw [if_neg valid]
      simp only [setTimer_same, true_and]
      exact h.request t
    · have short : ¬(i = ttcNum ∧ j = timerNum ∧ t > 1000 ∧ t ≤ 1000000) := by
        rintro ⟨hi, hj, -⟩
        exact same ⟨hi, hj⟩
      rw [eq_false short]
      split_ifs
      · exact kept
      · exact setTimer_prescaled kept fun named => absurd named same

private theorem after_prescaled (cs : List Call) (h : Prescaled long (ts ttcNum timerNum))
    (valid : ¬(ttcNum > ttc1 ∨ timerNum > ttcx2)) :
    Prescaled (long ∨ ∃ c ∈ cs, Long ttcNum timerNum c) (after ts cs ttcNum timerNum) := by
  induction cs generalizing ts long with
  | nil =>
    simp only [List.not_mem_nil, false_and, exists_false, or_false]
    exact h
  | cons c cs ih =>
    have next := ih (call_prescaled h valid c)
    rw [or_assoc] at next
    simp only [List.mem_cons, exists_eq_or_imp]
    exact next

private theorem reset_prescaled (cs : List Call) (valid : ¬(ttcNum > ttc1 ∨ timerNum > ttcx2)) :
    Prescaled (∃ c ∈ cs, Long ttcNum timerNum c) (after reset cs ttcNum timerNum) := by
  have start : Prescaled False (reset ttcNum timerNum) := Or.inr ⟨id, Or.inl rfl⟩
  have h := after_prescaled cs start valid
  rw [false_or] at h
  exact h

private theorem setTime_period (ok : (setTime useconds r).1 = true) :
    period (setTime useconds r).2 = useconds := by
  have masked : r.cntCntrl &&& (ttcCntCntrlMatch ||| ttcCntCntrlInt) &&& ttcCntCntrlInt =
      r.cntCntrl &&& ttcCntCntrlInt := by
    rw [BitVec.and_assoc]
    rfl
  unfold setTime at ok ⊢
  dsimp only at ok ⊢
  unfold period
  rw [masked] at ok ⊢
  by_cases int : r.cntCntrl &&& ttcCntCntrlInt = 0
  · by_cases hit : r.cntCntrl &&& (ttcCntCntrlMatch ||| ttcCntCntrlInt) &&& ttcCntCntrlMatch = 0
    · rw [if_neg (not_not_intro int), if_neg (not_not_intro hit)] at ok
      exact absurd ok Bool.false_ne_true
    · rw [if_neg (not_not_intro int), if_pos hit]
      exact if_neg (not_not_intro int)
  · rw [if_pos int]
    exact if_pos int

private theorem requestTimer_period (ok : (requestTimer useconds r).1 = true) :
    (useconds ≥ 1 ∧ useconds ≤ 1000 ∧
      period (requestTimer useconds r).2 = useconds * 27750 / 1000) ∨
    (useconds > 1000 ∧ useconds ≤ 1000000 ∧
      period (requestTimer useconds r).2 = useconds * 271 / 10000) := by
  unfold requestTimer at ok ⊢
  dsimp only at ok ⊢
  split_ifs at ok ⊢ with short longer
  · exact Or.inl ⟨short.1, short.2, setTime_period ok⟩
  · exact Or.inr ⟨longer.1, longer.2, setTime_period ok⟩

private theorem short_period_toNat (small : useconds.toNat ≤ 1000) :
    (useconds * 27750 / 1000).toNat = useconds.toNat * 27750 / 1000 := by
  rw [BitVec.toNat_udiv, BitVec.toNat_mul]
  change useconds.toNat * 27750 % 2 ^ 32 / 1000 = _
  rw [Nat.mod_eq_of_lt (by omega)]

private theorem long_period_toNat (small : useconds.toNat ≤ 1000000) :
    (useconds * 271 / 10000).toNat = useconds.toNat * 271 / 10000 := by
  rw [BitVec.toNat_udiv, BitVec.toNat_mul]
  change useconds.toNat * 271 % 2 ^ 32 / 10000 = _
  rw [Nat.mod_eq_of_lt (by omega)]

private theorem long_request_prescaler (h : Prescaled long r)
    (range : useconds > 1000 ∧ useconds ≤ 1000000) :
    (requestTimer useconds r).2.clkCntrl = 0x17 := by
  have notShort : ¬(useconds ≥ 1 ∧ useconds ≤ 1000) := fun short => by
    have large := range.1
    have small := short.2
    bv_omega
  rw [requestTimer_clkCntrl, if_neg notShort, if_pos range]
  rcases h with ⟨-, clk | clk⟩ | ⟨-, clk | clk | clk⟩ <;> rw [clk] <;> decide

/-- The prescaler of a short request is the smaller one unless a long request came before. -/
private theorem short_request_prescaler (h : Prescaled long r)
    (range : useconds ≥ 1 ∧ useconds ≤ 1000) :
    long ∧ (requestTimer useconds r).2.clkCntrl = 0x17 ∨
      ¬long ∧ (requestTimer useconds r).2.clkCntrl = 0x3 := by
  rw [requestTimer_clkCntrl, if_pos range]
  rcases h with ⟨l, clk | clk⟩ | ⟨l, clk | clk | clk⟩ <;> rw [clk]
  · exact Or.inl ⟨l, by decide⟩
  · exact Or.inl ⟨l, by decide⟩
  · exact Or.inr ⟨l, by decide⟩
  · exact Or.inr ⟨l, by decide⟩
  · exact Or.inr ⟨l, by decide⟩

private theorem prescale_small (clk : r.clkCntrl = 0x3) : prescale r = 1 := by
  unfold prescale
  rw [clk]
  decide

private theorem prescale_large (clk : r.clkCntrl = 0x17) : prescale r = 11 := by
  unfold prescale
  rw [clk]
  decide

private theorem requestTimer_realises_iff (h : Prescaled long r)
    (ok : (requestTimer useconds r).1 = true) :
    Realises useconds (requestTimer useconds r).2 ↔ useconds > 1000 ∨ ¬long := by
  rcases requestTimer_period ok with ⟨low, high, ticks⟩ | ⟨low, high, ticks⟩
  · have prescaler := short_request_prescaler h ⟨low, high⟩
    generalize (requestTimer useconds r).2 = r' at ticks prescaler ⊢
    have notLonger : ¬useconds > 1000 := by bv_omega
    have low' : 1 ≤ useconds.toNat := by bv_omega
    have high' : useconds.toNat ≤ 1000 := by bv_omega
    have value : (period r').toNat = useconds.toNat * 27750 / 1000 := by
      rw [ticks, short_period_toNat high']
    simp only [notLonger, false_or]
    rcases prescaler with ⟨l, clk⟩ | ⟨l, clk⟩
    · refine iff_of_false ?_ (not_not_intro l)
      intro real
      have close := real.close
      rw [prescale_large clk, value, abs_le] at close
      omega
    · refine iff_of_true ⟨?_, ?_, ?_, ?_⟩ l
      · rw [clk]
        decide
      · omega
      · rw [scale, if_pos high']
        omega
      · rw [prescale_small clk, value, abs_le]
        omega
  · have clk := long_request_prescaler h ⟨low, high⟩
    generalize (requestTimer useconds r).2 = r' at ticks clk ⊢
    have low' : ¬useconds.toNat ≤ 1000 := by bv_omega
    have high' : useconds.toNat ≤ 1000000 := by bv_omega
    have value : (period r').toNat = useconds.toNat * 271 / 10000 := by
      rw [ticks, long_period_toNat high']
    refine iff_of_true ⟨?_, ?_, ?_, ?_⟩ (Or.inl low)
    · rw [clk]
      decide
    · omega
    · rw [scale, if_neg low']
      omega
    · rw [prescale_large clk, value, abs_le]
      omega

/-- The timer counts what it was asked for, and the other timers are as they were. -/
structure Granted (useconds : Word) (ttcNum timerNum : Word) (before after : Timers) : Prop where
  realises : Realises useconds (after ttcNum timerNum)
  others : ∀ i j, ¬(i = ttcNum ∧ j = timerNum) → after i j = before i j

/-- After any calls from reset a granted request counts what it was asked for exactly when it is
long or no call before it was a long request of that timer. -/
theorem request_granted_iff (cs : List Call) (ttcNum timerNum useconds : Word)
    (ok : (ttcRequest ttcNum timerNum useconds (after reset cs)).1 = true) :
    Granted useconds ttcNum timerNum (after reset cs)
        (ttcRequest ttcNum timerNum useconds (after reset cs)).2 ↔
      useconds > 1000 ∨ ¬∃ c ∈ cs, Long ttcNum timerNum c := by
  unfold ttcRequest at ok ⊢
  split_ifs at ok ⊢ with bad
  have prescaled := reset_prescaled cs bad
  have iff := requestTimer_realises_iff prescaled ok
  dsimp only at ok ⊢
  constructor
  · intro granted
    have real := granted.realises
    rw [setTimer_same] at real
    exact iff.mp real
  · intro history
    refine ⟨?_, fun i j other => setTimer_other _ _ _ _ other⟩
    rw [setTimer_same]
    exact iff.mpr history

theorem request_granted_iff_fresh :
    (ttcRequest 1 0 10 (after reset [.init 1 0 interval])).1 = true ∧
      (Granted 10 1 0 (after reset [.init 1 0 interval])
          (ttcRequest 1 0 10 (after reset [.init 1 0 interval])).2 ↔
        (10 : Word) > 1000 ∨ ¬∃ c ∈ [Call.init 1 0 interval], Long 1 0 c) :=
  ⟨by decide, request_granted_iff [.init 1 0 interval] 1 0 10 (by decide)⟩

/-- One microsecond asked for after ten milliseconds is counted at the prescaler of those. -/
theorem short_after_long :
    ¬∀ (cs : List Call) (ttcNum timerNum useconds : Word),
      (ttcRequest ttcNum timerNum useconds (after reset cs)).1 = true →
      Granted useconds ttcNum timerNum (after reset cs)
        (ttcRequest ttcNum timerNum useconds (after reset cs)).2 := by
  intro claim
  have granted := claim [.init 1 0 interval, .request 1 0 10000] 1 0 1 (by decide)
  have close := granted.realises.close
  revert close
  decide

end LTZVisor.Drivers.TimerPeriod
