/- LTZVisor/Drivers/Ttc
   kind: model
   digest: The calls of the triple timer driver on the registers of its timers. -/

import LTZVisor.Lib.Memory

set_option autoImplicit false
set_option relaxedAutoImplicit false

namespace LTZVisor.Drivers.Ttc

open LTZVisor.Lib.Memory

def ttc0 : Word := 0#32
def ttc1 : Word := 1#32

def ttcx1 : Word := 0#32
def ttcx2 : Word := 1#32

def interval : Word := 0#32
def matchMode : Word := 1#32
def freeRunning : Word := 2#32

def ttcClkCntrlPsEn : Word := 1#32 <<< 0

def ttcCntCntrlRst : Word := 1#32 <<< 4
def ttcCntCntrlMatch : Word := 1#32 <<< 3
def ttcCntCntrlInt : Word := 1#32 <<< 1
def ttcCntCntrlDis : Word := 1#32 <<< 0

def ttcIntEnMatch1 : Word := 1#32 <<< 1
def ttcIntEnInterval : Word := 1#32 <<< 0

def ttcResetConfig : Word := 0x21#32
def ttcIntValue : Word := 111#32
def ttcMatch1Value : Word := 111#32

/-- The registers of one timer that the driver writes. -/
structure Timer where
  clkCntrl : Word
  cntCntrl : Word
  intervCnt : Word
  match1Cnt : Word
  interruptEn : Word
deriving DecidableEq

abbrev Timers := Word → Word → Timer

def reset : Timers := fun _ _ => ⟨0, 0, 0, 0, 0⟩

def setTimer (ts : Timers) (ttcNum timerNum : Word) (r : Timer) : Timers :=
  fun i j => if i = ttcNum ∧ j = timerNum then r else ts i j

def initTimer (mode : Word) (r : Timer) : Timer :=
  let r := { r with cntCntrl := ttcResetConfig }
  let r := { r with clkCntrl := r.clkCntrl &&& ~~~ttcClkCntrlPsEn }
  if mode = interval then
    { r with
      cntCntrl := ttcResetConfig ||| (ttcCntCntrlRst ||| ttcCntCntrlInt ||| ttcCntCntrlDis)
      intervCnt := ttcIntValue
      interruptEn := ttcIntEnInterval }
  else if mode = matchMode then
    { r with
      cntCntrl := ttcCntCntrlRst ||| ttcCntCntrlMatch ||| ttcCntCntrlDis
      match1Cnt := ttcMatch1Value
      interruptEn := ttcIntEnMatch1 }
  else r

def ttcInit (ttcNum timerNum mode : Word) (ts : Timers) : Bool × Timers :=
  if ttcNum > ttc1 ∨ timerNum > ttcx2 ∨ mode > freeRunning then (false, ts)
  else (true, setTimer ts ttcNum timerNum (initTimer mode (ts ttcNum timerNum)))

def enableTimer (r : Timer) : Timer :=
  { r with cntCntrl := (r.cntCntrl ||| ttcCntCntrlRst) &&& ~~~ttcCntCntrlDis }

def ttcEnable (ttcNum timerNum : Word) (ts : Timers) : Bool × Timers :=
  if ttcNum > ttc1 ∨ timerNum > ttcx2 then (false, ts)
  else (true, setTimer ts ttcNum timerNum (enableTimer (ts ttcNum timerNum)))

def disableTimer (r : Timer) : Timer := { r with cntCntrl := r.cntCntrl ||| ttcCntCntrlDis }

def ttcDisable (ttcNum timerNum : Word) (ts : Timers) : Bool × Timers :=
  if ttcNum > ttc1 ∨ timerNum > ttcx2 then (false, ts)
  else (true, setTimer ts ttcNum timerNum (disableTimer (ts ttcNum timerNum)))

/-- The mode of a timer decides which register takes the time. -/
def setTime (useconds : Word) (r : Timer) : Bool × Timer :=
  let cntCntrl := r.cntCntrl &&& (ttcCntCntrlMatch ||| ttcCntCntrlInt)
  if cntCntrl &&& ttcCntCntrlInt ≠ 0 then (true, { r with intervCnt := useconds })
  else if cntCntrl &&& ttcCntCntrlMatch ≠ 0 then (true, { r with match1Cnt := useconds })
  else (false, r)

def requestTimer (useconds : Word) (r : Timer) : Bool × Timer :=
  let r := { r with cntCntrl := r.cntCntrl ||| (ttcCntCntrlRst ||| ttcCntCntrlDis) }
  if useconds ≥ 1 ∧ useconds ≤ 1000 then
    let r := { r with clkCntrl := r.clkCntrl ||| ((2 - 1) <<< 1 ||| 0x1) }
    setTime (useconds * 27750 / 1000) r
  else if useconds > 1000 ∧ useconds ≤ 1000000 then
    let r := { r with clkCntrl := r.clkCntrl ||| ((12 - 1) <<< 1 ||| 0x1) }
    setTime (useconds * 271 / 10000) r
  else (false, r)

def ttcRequest (ttcNum timerNum useconds : Word) (ts : Timers) : Bool × Timers :=
  if ttcNum > ttc1 ∨ timerNum > ttcx2 then (false, ts)
  else
    let (ok, r) := requestTimer useconds (ts ttcNum timerNum)
    (ok, setTimer ts ttcNum timerNum r)

/-- The tick of the secure guest: its timer is started whether or not the time was taken. -/
def tickOn (ttcNum timerNum time : Word) (ts : Timers) : Bool × Timers :=
  let (ret, ts) := ttcRequest ttcNum timerNum time ts
  (ret, (ttcEnable ttcNum timerNum ts).2)

def tickSet (time : Word) (ts : Timers) : Bool × Timers := tickOn ttc0 ttcx2 time ts

inductive Call
  | init (ttcNum timerNum mode : Word)
  | enable (ttcNum timerNum : Word)
  | disable (ttcNum timerNum : Word)
  | request (ttcNum timerNum useconds : Word)
deriving DecidableEq

def call (ts : Timers) : Call → Bool × Timers
  | .init ttcNum timerNum mode => ttcInit ttcNum timerNum mode ts
  | .enable ttcNum timerNum => ttcEnable ttcNum timerNum ts
  | .disable ttcNum timerNum => ttcDisable ttcNum timerNum ts
  | .request ttcNum timerNum useconds => ttcRequest ttcNum timerNum useconds ts

def after (ts : Timers) (cs : List Call) : Timers := cs.foldl (fun ts c => (call ts c).2) ts

/-- The field of the clock control register that divides the clock by `2 ^ (prescale + 1)`. -/
def prescale (r : Timer) : Nat := (r.clkCntrl.extractLsb' 1 4).toNat

def period (r : Timer) : Word :=
  if r.cntCntrl &&& ttcCntCntrlInt ≠ 0 then r.intervCnt else r.match1Cnt

def scale (useconds : Word) : Nat := if useconds.toNat ≤ 1000 then 27750 else 271

/-- A timer counts `useconds` at 111 ticks a microsecond, to within one tick of its prescaled
clock, and computing the count did not overflow. -/
structure Realises (useconds : Word) (r : Timer) : Prop where
  enabled : r.clkCntrl &&& ttcClkCntrlPsEn ≠ 0
  fits : (period r).toNat < 2 ^ 16
  exact : useconds.toNat * scale useconds < 2 ^ 32
  close : |((period r).toNat * 2 ^ (prescale r + 1) : Int) - useconds.toNat * 111| ≤
    2 ^ (prescale r + 1)

end LTZVisor.Drivers.Ttc
