/- LTZVisor/Drivers/ReceiveRing
   kind: property
   digest: The receive ring of the SPI driver is a queue that loses only what does not fit. -/

import LTZVisor.Drivers.Spi

set_option autoImplicit false
set_option relaxedAutoImplicit false

namespace LTZVisor.Drivers.ReceiveRing

open LTZVisor.Lib LTZVisor.Lib.Memory LTZVisor.Lib.Runs LTZVisor.Drivers.Spi

variable {s : State} {r : Receiver}

private theorem mask_or_ne_zero (x : Word) : (x ||| srRxNempty) &&& srRxNempty ≠ 0 := by
  intro h
  have bit := congrArg (BitVec.getLsbD · 4) h
  simp [srRxNempty] at bit

private theorem mask_clear (x : Word) : (x &&& ~~~srRxNempty) &&& srRxNempty = 0 := by
  rw [BitVec.and_assoc, BitVec.and_comm (~~~srRxNempty), BitVec.and_not_self]
  exact BitVec.and_zero

private theorem rxNempty_iff (s : State) :
    s.srRegister &&& srRxNempty ≠ 0 ↔ s.rxThresReg.toNat ≤ s.rxFifo.length := by
  unfold State.srRegister
  split_ifs with reached
  · exact iff_of_true (mask_or_ne_zero _) reached
  · exact iff_of_false (not_not_intro (mask_clear _)) reached

private theorem wrap_toNat {i : Byte} (h : i.toNat < rxBuffSize) :
    (if (i + 1).toNat = rxBuffSize then (0 : Byte) else i + 1).toNat =
      Ring.next rxBuffSize i.toNat := by
  have small : i.toNat < 128 := h
  have succ : (i + 1).toNat = i.toNat + 1 := by
    rw [BitVec.toNat_add]
    change (i.toNat + 1) % 256 = i.toNat + 1
    omega
  unfold Ring.next
  rw [apply_ite BitVec.toNat, succ]
  rfl

private theorem toNat_ofNat_of_lt {i : Nat} (h : i < rxBuffSize) :
    (BitVec.ofNat 8 i).toNat = i := by
  have small : i < 128 := h
  rw [BitVec.toNat_ofNat]
  omega

theorem queue_length_le (holds : Holds s r) : r.queue.length ≤ capacity := by
  rw [← holds.queue, queued, Ring.contents_length]
  exact Nat.le_pred_of_lt (Ring.count_lt holds.head holds.tail)

private theorem pass_offers (holds : Holds s r) {b : Byte} {fifo : List Byte}
    (next : r.fifo = b :: fifo) :
    ∃ s', rxPass s = some s' ∧ Holds s' ⟨fifo, Ring.offer capacity r.queue b⟩ := by
  have read : s.readRxd = some (b.setWidth 32, { s with rxFifo := fifo }) := by
    unfold State.readRxd
    rw [holds.fifo, next]
  have moved : (rxHead s).toNat = Ring.next rxBuffSize s.rxBufferHead.toNat := wrap_toNat holds.head
  have full := Ring.next_eq_iff_full holds.head holds.tail
  have held : r.queue.length = Ring.count rxBuffSize s.rxBufferHead.toNat s.rxBufferTail.toNat := by
    rw [← holds.queue]
    exact Ring.contents_length _
  have bound := Ring.count_lt holds.head holds.tail
  unfold Spi.rxPass
  rw [read]
  by_cases room : rxHead s = s.rxBufferTail
  · have full' : r.queue.length = capacity := by
      rw [held]
      exact full.mp (moved.symm.trans (congrArg BitVec.toNat room))
    refine ⟨{ s with rxFifo := fifo }, ?_, ?_⟩
    · exact if_neg (not_not_intro room)
    · rw [Ring.offer, if_neg full'.not_lt]
      exact ⟨holds.head, holds.tail, holds.thres, rfl, holds.queue⟩
  · have room' : Ring.next rxBuffSize s.rxBufferHead.toNat ≠ s.rxBufferTail.toNat := by
      intro met
      exact room (BitVec.eq_of_toNat_eq (moved.trans met))
    have free : r.queue.length < capacity := by
      rw [held]
      have notFull := mt full.mpr room'
      change _ < rxBuffSize - 1
      omega
    refine ⟨_, if_pos room, ?_⟩
    refine ⟨?_, holds.tail, holds.thres, rfl, ?_⟩
    · exact moved ▸ Ring.next_lt holds.head
    · rw [Ring.offer, if_pos free, ← holds.queue]
      unfold queued
      change Ring.contents _ _ (rxHead s).toNat _ = _
      rw [moved]
      apply Ring.contents_push holds.head holds.tail room'
      · change (if BitVec.ofNat 8 s.rxBufferHead.toNat = s.rxBufferHead then _ else _) = b
        rw [BitVec.ofNat_toNat, BitVec.setWidth_eq, if_pos rfl]
        exact BitVec.setWidth_setWidth_of_le _ (by decide)
      · intro i hi other
        apply if_neg
        intro same
        apply other
        rw [← toNat_ofNat_of_lt hi, same]

private theorem loop_offers (n : Nat) (holds : Holds s r) (enough : n ≤ r.fifo.length) :
    ∃ s', rxLoop n s = some s' ∧
      Holds s' ⟨r.fifo.drop n, (r.fifo.take n).foldl (Ring.offer capacity) r.queue⟩ := by
  induction n generalizing s r with
  | zero => exact ⟨s, rfl, holds⟩
  | succ n ih =>
    obtain ⟨b, fifo, next⟩ := List.exists_cons_of_length_pos (Nat.zero_lt_of_lt enough)
    obtain ⟨s₁, first, holds₁⟩ := pass_offers holds next
    rw [next, List.length_cons] at enough
    obtain ⟨s₂, rest, holds₂⟩ := ih holds₁ (Nat.le_of_succ_le_succ enough)
    refine ⟨s₂, ?_, ?_⟩
    · rw [Spi.rxLoop, first]
      exact rest
    · rw [next]
      exact holds₂

theorem holds_of_eq (holds : Holds s r) {s' : State} (head : s'.rxBufferHead = s.rxBufferHead)
    (tail : s'.rxBufferTail = s.rxBufferTail) (thres : s'.rxThresReg = s.rxThresReg)
    (fifo : s'.rxFifo = s.rxFifo) (buffer : s'.rxBuffer = s.rxBuffer) : Holds s' r := by
  refine ⟨?_, ?_, thres.trans holds.thres, fifo.trans holds.fifo, ?_⟩
  · rw [head]
    exact holds.head
  · rw [tail]
    exact holds.tail
  · rw [← holds.queue]
    unfold queued
    rw [head, tail, buffer]

private theorem holds_clearSr (holds : Holds s r) (irqStatus flag : Word) :
    Holds (clearSr irqStatus flag s) r := by
  unfold clearSr
  split_ifs
  · exact holds_of_eq holds rfl rfl rfl rfl rfl
  · exact holds

private theorem holds_clearInterrupts (holds : Holds s r) : Holds (clearInterrupts s) r := by
  unfold clearInterrupts
  repeat apply holds_clearSr
  exact holds

/-- The interrupt handler empties one batch of the FIFO, if a whole one is there. -/
theorem irq_refines (holds : Holds s r) :
    ∃ s', spi1IrqHandler s = some s' ∧ Holds s' (r.step .irq).1 := by
  have disabled : Holds (s.writeIdis (iRxovr ||| iModf ||| iRxfull)) r :=
    holds_of_eq holds rfl rfl rfl rfl rfl
  have holds₁ := holds_clearInterrupts disabled
  unfold spi1IrqHandler Receiver.step
  generalize clearInterrupts _ = s₁ at holds₁ ⊢
  have reached := rxNempty_iff s₁
  rw [holds₁.thres, holds₁.fifo, show rxThresVal.toNat = 6 from rfl] at reached
  dsimp only
  by_cases batch : 6 ≤ r.fifo.length
  · obtain ⟨s₂, ran, holds₂⟩ := loop_offers 6 holds₁ batch
    rw [if_pos (reached.mpr batch), show rxThresVal.toNat = 6 from rfl, ran, if_pos batch]
    exact ⟨_, rfl, holds_of_eq holds₂ rfl rfl rfl rfl rfl⟩
  · rw [if_neg (mt reached.mp batch), if_neg batch]
    exact ⟨_, rfl, holds_of_eq holds₁ rfl rfl rfl rfl rfl⟩

theorem queued_eq_nil_iff (tail : s.rxBufferTail.toNat < rxBuffSize) :
    queued s = [] ↔ s.rxBufferHead = s.rxBufferTail :=
  (Ring.contents_eq_nil_iff tail _).trans BitVec.toNat_inj

private theorem fetch_refines (holds : Holds s r) (data : Byte) :
    some (fetch data s).1 = (r.step (.readData data)).2 ∧
      Holds (fetch data s).2 (r.step (.readData data)).1 := by
  have empty := queued_eq_nil_iff holds.tail
  unfold fetch Receiver.step
  by_cases same : s.rxBufferHead = s.rxBufferTail
  · rw [if_neg (not_not_intro same), ← holds.queue, empty.mpr same]
    exact ⟨rfl, holds⟩
  · have moved := wrap_toNat holds.tail
    have apart : s.rxBufferHead.toNat ≠ s.rxBufferTail.toNat := mt BitVec.eq_of_toNat_eq same
    have first : r.queue = s.rxBuffer s.rxBufferTail :: Ring.contents rxBuffSize
        (fun i => s.rxBuffer (BitVec.ofNat 8 i)) s.rxBufferHead.toNat
        (Ring.next rxBuffSize s.rxBufferTail.toNat) := by
      rw [← holds.queue, queued, Ring.contents_pop _ holds.head holds.tail apart,
        BitVec.ofNat_toNat, BitVec.setWidth_eq]
    rw [if_pos same, first]
    refine ⟨rfl, holds.head, ?_, holds.thres, holds.fifo, ?_⟩
    · exact moved ▸ Ring.next_lt holds.tail
    · unfold queued
      dsimp only
      rw [moved]

theorem readData_refines (holds : Holds s r) (data : Byte) :
    some (spi1ReadData data s).1 = (r.step (.readData data)).2 ∧
      Holds (spi1ReadData data s).2 (r.step (.readData data)).1 := by
  have disabled : Holds (s.writeIdis (iRxovr ||| iModf ||| iTxovr ||| iRxNempty ||| iRxfull)) r :=
    holds_of_eq holds rfl rfl rfl rfl rfl
  obtain ⟨out, fetched⟩ := fetch_refines disabled data
  unfold spi1ReadData
  exact ⟨out, holds_of_eq fetched rfl rfl rfl rfl rfl⟩

theorem config_holds (s : State) : Holds (spi1Config s) ⟨s.rxFifo, []⟩ := by
  have zero : (0 : Byte).toNat < rxBuffSize := by decide
  refine ⟨zero, zero, rfl, rfl, ?_⟩
  exact (queued_eq_nil_iff zero).mpr rfl

/-- Every call of the driver, and every change in the controller, refines the receiver's step. -/
private theorem step_refines : Refines Holds Spi.step Receiver.step := by
  intro s r e holds
  cases e with
  | config =>
    refine ⟨_, rfl, ?_⟩
    have configured := config_holds s
    rw [holds.fifo] at configured
    exact configured
  | irq =>
    obtain ⟨s', ran, holds'⟩ := irq_refines holds
    refine ⟨s', ?_, holds'⟩
    rw [Spi.step, ran, Receiver.step]
    split_ifs <;> rfl
  | readData data =>
    obtain ⟨out, holds'⟩ := readData_refines holds data
    refine ⟨_, ?_, holds'⟩
    rw [← out]
    rfl
  | arrive b =>
    refine ⟨_, rfl, holds.head, holds.tail, holds.thres, ?_, holds.queue⟩
    exact congrArg (· ++ [b]) holds.fifo
  | raise status => exact ⟨_, rfl, holds_of_eq holds rfl rfl rfl rfl rfl⟩

/-- After its configuration the driver never reads an empty FIFO, its indices stay in the ring,
and its outputs and its queue are those of a receiver that starts with an empty queue. -/
theorem driver_refines (s : State) (es : List Event) :
    ∃ s', attempt Spi.step (spi1Config s) es =
        some (s', (trace Receiver.step ⟨s.rxFifo, []⟩ es).2) ∧
      Holds s' (trace Receiver.step ⟨s.rxFifo, []⟩ es).1 :=
  step_refines.attempt es (config_holds s)

end LTZVisor.Drivers.ReceiveRing
