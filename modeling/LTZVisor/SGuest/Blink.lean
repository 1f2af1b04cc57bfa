/- LTZVisor/SGuest/Blink
   kind: property
   digest: The bytes that the secure guest takes from the SPI and shares with the non-secure guest,
     which reads them in the order in which they came. -/

import LTZVisor.Drivers.ReceiveRing
import LTZVisor.Drivers.SpiControl
import LTZVisor.Runtime.Strings

set_option autoImplicit false
set_option relaxedAutoImplicit false

namespace LTZVisor.SGuest.Blink

open LTZVisor.Lib LTZVisor.Lib.Memory LTZVisor.Lib.Block LTZVisor.Lib.Runs LTZVisor.Drivers.Spi
open LTZVisor.Drivers.ReceiveRing LTZVisor.Drivers.SpiControl LTZVisor.Runtime.Strings

/-- The word that both guests call `sensor_data`. -/
def sensorData : Addr := 0x100000#32 + 0x61A80#32

def sensorRange : Range := ⟨sensorData, 4⟩

/-- Where the secure guest stands in the loop of `main`: before one of its calls, or in the
non-secure guest behind `YIELD`. -/
inductive Pc
  | sendData | readData | memcpy | yield | nonSecure
  deriving DecidableEq

structure System where
  driver : Control
  pc : Pc
  mem : Mem
  /-- The bytes sent that the controller has not received the answer to. -/
  owed : Nat
  /-- The thread of the non-secure guest has cleared the word. -/
  started : Bool
  lastRead : Word

/-- A move of the secure guest or its handler, of the controller, or of the non-secure guest. -/
inductive Event
  | run
  | irq
  | arrive (b : Byte)
  | raise (status : Word)
  | clear
  | read
  | store (a : Addr) (v : Byte)
  | resume

/-- A byte taken from the ring, and a value read by the non-secure guest. -/
inductive Output
  | took (b : Byte)
  | reading (w : Word)

def write8 (mem : Mem) (a : Addr) (b : Byte) : Mem := fun x => if x = a then b else mem x

variable (lsb : Addr)

/-- One call of the loop, with the variable `lsb` at an address of its own. -/
def runMain (s : System) : Option (System × Option Output) :=
  match s.pc with
  | .sendData =>
    let (_, driver) := spi1SendData 0xbc s.driver
    some ({ s with driver, owed := s.owed + 1, pc := .readData }, none)
  | .readData =>
    let (out, received) := spi1ReadData (s.mem lsb) s.driver.toState
    let driver := { s.driver with toState := received }
    some ({ s with driver, mem := write8 s.mem lsb out.data, pc := .memcpy },
      if out.ret = 1 then some (.took out.data) else none)
  | .memcpy =>
    (memcpy sensorData lsb 1#32 s.mem).map fun mem => ({ s with mem, pc := .yield }, none)
  | .yield => some ({ s with pc := .nonSecure }, none)
  | .nonSecure => none

/-- The non-secure guest stores nothing in the memory of the secure one, and in the shared word
nothing but the 0 at the start of its thread. -/
def step (s : System) : Event → Option (System × Option Output)
  | .run => runMain lsb s
  | .irq =>
    if s.pc = .nonSecure then none
    else (spi1IrqHandler s.driver.toState).map fun received =>
      ({ s with driver := { s.driver with toState := received } }, none)
  | .arrive b =>
    if s.owed = 0 then none
    else some ({ s with
      driver := { s.driver with rxFifo := s.driver.rxFifo ++ [b] }, owed := s.owed - 1 }, none)
  | .raise status => some ({ s with driver := { s.driver with status } }, none)
  | .clear =>
    if s.pc = .nonSecure ∧ s.started = false then
      some ({ s with mem := write32 s.mem sensorData 0, started := true, lastRead := 0 }, none)
    else none
  | .read =>
    if s.pc = .nonSecure ∧ s.started = true then
      let w := read32 s.mem sensorData
      some ({ s with lastRead := w }, some (.reading w))
    else none
  | .store a v =>
    if s.pc = .nonSecure ∧ a ∉ sensorRange ∧ a ≠ lsb then
      some ({ s with mem := write8 s.mem a v }, none)
    else none
  | .resume => if s.pc = .nonSecure then some ({ s with pc := .sendData }, none) else none

def begun (driver : Control) (mem : Mem) : System where
  driver := spi1Enable (config driver)
  pc := .sendData
  mem := mem
  owed := 0
  started := false
  lastRead := 0

structure History where
  arrived : List Byte
  taken : List Byte
  readings : List Word

def arriving : Event → List Byte
  | .arrive b => [b]
  | _ => []

def takenBy : Option Output → List Byte
  | some (.took b) => [b]
  | _ => []

def readBy : Option Output → List Word
  | some (.reading w) => [w]
  | _ => []

def History.record (h : History) (e : Event) (o : Option Output) : History :=
  ⟨h.arrived ++ arriving e, h.taken ++ takenBy o, h.readings ++ readBy o⟩

def Next (p p' : System × History) : Prop :=
  ∃ e o, step lsb p.1 e = some (p'.1, o) ∧ p'.2 = p.2.record e o

def value (h : History) (k : Nat) : Word := ((0 :: h.taken).getD k 0).setWidth 32

/-- When the loop finds the ring empty, the controller has not fallen behind by more than 126
bytes. -/
def Timely (s : System) : Prop :=
  s.pc = .readData → s.driver.rxBufferHead = s.driver.rxBufferTail →
    s.driver.rxFifo.length + s.owed ≤ 126

section Feed

variable {s s' : System} {e : Event} {o : Option Output} {r : Receiver}

private theorem irq_sublist (held : r.queue.length ≤ capacity) :
    ((r.step .irq).1.queue ++ (r.step .irq).1.fifo).Sublist (r.queue ++ r.fifo) := by
  rw [Receiver.step]
  split_ifs with batch
  · change List.Sublist (List.foldl _ _ _ ++ _) _
    rw [Ring.foldl_offer held]
    have split : r.queue ++ r.fifo = (r.queue ++ r.fifo.take 6) ++ r.fifo.drop 6 := by
      rw [List.append_assoc, List.take_append_drop]
    rw [split]
    exact (List.take_sublist _ _).append_right _
  · exact List.Sublist.refl _

theorem irq_keeps (room : r.queue.length + r.fifo.length ≤ capacity) :
    (r.step .irq).1.queue ++ (r.step .irq).1.fifo = r.queue ++ r.fifo := by
  rw [Receiver.step]
  split_ifs with batch
  · change List.foldl _ _ _ ++ _ = _
    have fits : (r.queue ++ r.fifo.take 6).length ≤ capacity := by
      rw [List.length_append, List.length_take]
      omega
    rw [Ring.foldl_offer (by omega), List.take_of_length_le fits, List.append_assoc,
      List.take_append_drop]
  · rfl

/-- The bytes between the loop and the line, with the one that an iteration is about to take. -/
def Room (s : System) (r : Receiver) : Prop :=
  r.queue.length + r.fifo.length + s.owed ≤ 126 + if s.pc = .readData then 1 else 0

theorem Room.fits (room : Room s r) : r.queue.length + r.fifo.length ≤ capacity := by
  have whole : capacity = 127 := rfl
  rw [Room] at room
  split_ifs at room <;> omega

/-- A move hands the bytes on in their order, and loses none while there is room. -/
structure Fed (s s' : System) (e : Event) (o : Option Output) (r r' : Receiver) : Prop where
  holds : Holds s'.driver.toState r'
  ordered : (takenBy o ++ (r'.queue ++ r'.fifo)).Sublist (r.queue ++ r.fifo ++ arriving e)
  kept : Room s r → Timely s →
    takenBy o ++ (r'.queue ++ r'.fifo) = r.queue ++ r.fifo ++ arriving e ∧ Room s' r'

theorem Fed.of_eq {r' : Receiver} (holds : Holds s'.driver.toState r')
    (same : takenBy o ++ (r'.queue ++ r'.fifo) = r.queue ++ r.fifo ++ arriving e)
    (room : Room s r → Timely s → Room s' r') : Fed s s' e o r r' :=
  ⟨holds, same ▸ List.Sublist.refl _, fun before timely => ⟨same, room before timely⟩⟩

theorem Fed.idle (holds : Holds s'.driver.toState r) (noByte : arriving e = [])
    (none : takenBy o = []) (owed : s'.owed = s.owed) (before : s.pc ≠ .readData) (after : s'.pc ≠ .readData) :
    Fed s s' e o r r := by
  apply Fed.of_eq holds
  · rw [noByte, none, List.append_nil, List.nil_append]
  · intro room _
    rw [Room, if_neg before] at room
    rw [Room, if_neg after, owed]
    exact room

private theorem taken_append_queue {data : Byte} {out : Read}
    (read : some out = (r.step (.readData data)).2) :
    takenBy (if out.ret = 1 then some (.took out.data) else none) ++
        ((r.step (.readData data)).1.queue ++ (r.step (.readData data)).1.fifo) =
      r.queue ++ r.fifo ++ arriving .run := by
  cases queue : r.queue with
  | nil =>
    simp only [Receiver.step, queue, Option.some_inj] at read ⊢
    subst read
    simp [takenBy, arriving]
  | cons b queue' =>
    simp only [Receiver.step, queue, Option.some_inj] at read ⊢
    subst read
    simp [takenBy, arriving]

private theorem runMain_feeds (holds : Holds s.driver.toState r)
    (stepped : runMain lsb s = some (s', o)) : ∃ r', Fed s s' .run o r r' := by
  unfold runMain at stepped
  cases pc : s.pc with
  | sendData =>
    rw [pc] at stepped
    obtain ⟨rfl, rfl⟩ := Prod.mk.inj (Option.some.inj stepped)
    refine ⟨r, Fed.of_eq (holds_of_eq holds rfl rfl rfl rfl rfl) (List.append_nil _).symm ?_⟩
    intro room _
    rw [Room, pc] at room
    rw [Room]
    simp at room ⊢
    omega
  | readData =>
    rw [pc] at stepped
    obtain ⟨out, fetched⟩ := readData_refines holds (s.mem lsb)
    obtain ⟨rfl, rfl⟩ := Prod.mk.inj (Option.some.inj stepped)
    refine ⟨_, Fed.of_eq fetched ?_ ?_⟩
    case refine_1 => exact taken_append_queue out
    case refine_2 =>
      intro room timely
      rw [Room, if_pos pc] at room
      rw [Room]
      cases queue : r.queue with
      | nil =>
        have empty := (queued_eq_nil_iff holds.tail).mp (holds.queue.trans queue)
        have behind := timely pc empty
        rw [holds.fifo] at behind
        simp [Receiver.step, queue]
        exact behind
      | cons b queue' =>
        rw [queue, List.length_cons] at room
        simp [Receiver.step, queue]
        omega
  | memcpy =>
    rw [pc] at stepped
    obtain ⟨mem, -, same⟩ := Option.map_eq_some_iff.mp stepped
    obtain ⟨rfl, rfl⟩ := Prod.mk.inj same
    exact ⟨r, Fed.idle holds rfl rfl rfl (by simp [pc]) (by simp)⟩
  | yield =>
    rw [pc] at stepped
    obtain ⟨rfl, rfl⟩ := Prod.mk.inj (Option.some.inj stepped)
    exact ⟨r, Fed.idle holds rfl rfl rfl (by simp [pc]) (by simp)⟩
  | nonSecure =>
    rw [pc] at stepped
    cases stepped

private theorem step_feeds (holds : Holds s.driver.toState r)
    (stepped : step lsb s e = some (s', o)) : ∃ r', Fed s s' e o r r' := by
  cases e with
  | run => exact runMain_feeds lsb holds stepped
  | irq =>
    rw [step] at stepped
    split_ifs at stepped with outside
    obtain ⟨received, handled, same⟩ := Option.map_eq_some_iff.mp stepped
    obtain ⟨rfl, rfl⟩ := Prod.mk.inj same
    obtain ⟨s₁, ran, holds'⟩ := irq_refines holds
    obtain rfl := Option.some.inj (handled.symm.trans ran)
    refine ⟨_, holds', ?_, ?_⟩
    · simpa [takenBy, arriving] using irq_sublist (queue_length_le holds)
    · intro room _
      have same := irq_keeps room.fits
      refine ⟨?_, ?_⟩
      · simpa [takenBy, arriving] using same
      · have lengths := congrArg List.length same
        rw [List.length_append, List.length_append] at lengths
        rw [Room, lengths]
        exact room
  | arrive b =>
    rw [step] at stepped
    split_ifs at stepped with none
    obtain ⟨rfl, rfl⟩ := Prod.mk.inj (Option.some.inj stepped)
    refine ⟨⟨r.fifo ++ [b], r.queue⟩, Fed.of_eq ?_ ?_ ?_⟩
    · exact ⟨holds.head, holds.tail, holds.thres, congrArg (· ++ [b]) holds.fifo, holds.queue⟩
    · change r.queue ++ (r.fifo ++ [b]) = r.queue ++ r.fifo ++ [b]
      exact (List.append_assoc _ _ _).symm
    · intro room _
      rw [Room] at room
      change r.queue.length + (r.fifo ++ [b]).length + (s.owed - 1) ≤
        126 + if s.pc = .readData then 1 else 0
      rw [List.length_append, List.length_singleton]
      omega
  | raise status =>
    obtain ⟨rfl, rfl⟩ := Prod.mk.inj (Option.some.inj stepped)
    refine ⟨r, Fed.of_eq (holds_of_eq holds rfl rfl rfl rfl rfl) ?_ fun room _ => room⟩
    exact (List.append_nil _).symm
  | clear =>
    rw [step] at stepped
    split_ifs at stepped with ready
    obtain ⟨rfl, rfl⟩ := Prod.mk.inj (Option.some.inj stepped)
    exact ⟨r, Fed.idle holds rfl rfl rfl (by simp [ready.1]) (by simp [ready.1])⟩
  | read =>
    rw [step] at stepped
    split_ifs at stepped with ready
    obtain ⟨rfl, rfl⟩ := Prod.mk.inj (Option.some.inj stepped)
    exact ⟨r, Fed.idle holds rfl rfl rfl (by simp [ready.1]) (by simp [ready.1])⟩
  | store a v =>
    rw [step] at stepped
    split_ifs at stepped with ready
    obtain ⟨rfl, rfl⟩ := Prod.mk.inj (Option.some.inj stepped)
    exact ⟨r, Fed.idle holds rfl rfl rfl (by simp [ready.1]) (by simp [ready.1])⟩
  | resume =>
    rw [step] at stepped
    split_ifs at stepped with ready
    obtain ⟨rfl, rfl⟩ := Prod.mk.inj (Option.some.inj stepped)
    exact ⟨r, Fed.idle holds rfl rfl rfl (by simp [ready]) (by simp)⟩

end Feed

section Share

variable {lsb} {p p' : System × History} {s s' : System} {h : History} {e : Event}
  {o : Option Output} {k : Nat} {ks : List Nat}

private theorem value_record (bound : k ≤ h.taken.length) : value (h.record e o) k = value h k := by
  have inside : k < (0 :: h.taken).length := Nat.lt_succ_of_le bound
  rw [value, value, History.record]
  change BitVec.setWidth 32 (((0 :: h.taken) ++ takenBy o).getD k 0) = _
  rw [List.getD_append _ _ _ _ inside]

private theorem taken_record (none : takenBy o = []) : (h.record e o).taken = h.taken := by
  rw [History.record, none, List.append_nil]

private theorem map_value_record (bound : ∀ j ∈ ks, j ≤ h.taken.length) :
    ks.map (value (h.record e o)) = ks.map (value h) :=
  List.map_congr_left fun j mem => value_record (bound j mem)

private theorem read32_low {mem mem' : Mem} {a : Addr} {b c : Byte}
    (before : read32 mem a = c.setWidth 32)
    (low : mem' a = b) (kept : ∀ i, 0 < i → i < 4 → mem' (a + BitVec.ofNat 32 i) =
      mem (a + BitVec.ofNat 32 i)) : read32 mem' a = b.setWidth 32 := by
  have first (w : Byte) : byte (w.setWidth 32) 0 = w := by
    apply BitVec.eq_of_getLsbD_eq
    intro j less
    rw [byte, BitVec.getLsbD_extractLsb', BitVec.getLsbD_setWidth]
    simp [less, show j < 32 by omega]
  have zero (w : Byte) {i : Nat} (pos : 0 < i) : byte (w.setWidth 32) i = 0 := by
    apply BitVec.eq_of_getLsbD_eq
    intro j less
    rw [byte, BitVec.getLsbD_extractLsb', BitVec.getLsbD_setWidth,
      BitVec.getLsbD_of_ge w (8 * i + j) (by omega)]
    simp
  apply word_ext
  intro i less
  rw [byte_read32 mem' a i less]
  rcases Nat.eq_zero_or_pos i with rfl | pos
  · rw [first, BitVec.add_zero, low]
  · rw [kept i pos less, ← byte_read32 mem a i less, before, zero c pos, zero b pos]

/-- The variable holds the last byte, the word the one of index `k`, and the values read so far are
those of the indices `ks`. -/
structure Shown (lsb : Addr) (p : System × History) (k : Nat) (ks : List Nat) : Prop where
  last : p.1.mem lsb = (0 :: p.2.taken).getD p.2.taken.length 0
  bound : k ≤ p.2.taken.length
  word : p.1.started = true → read32 p.1.mem sensorData = value p.2 k
  ordered : ks.Pairwise (· ≤ ·)
  upTo : ∀ j ∈ ks, j ≤ k
  values : p.2.readings = ks.map (value p.2)
  fresh : p.1.started = false → ks = []

/-- A move that the non-secure guest reads nothing by. -/
theorem Shown.next (shown : Shown lsb (s, h) k ks) {k' : Nat} (le : k ≤ k')
    (bound : k' ≤ h.taken.length) (unread : readBy o = []) (started : s'.started = s.started)
    (last : s'.mem lsb = (0 :: (h.taken ++ takenBy o)).getD (h.taken ++ takenBy o).length 0)
    (word : s'.started = true → read32 s'.mem sensorData = value h k') :
    Shown lsb (s', h.record e o) k' ks := by
  constructor
  case last => exact last
  case bound =>
    rw [History.record, List.length_append]
    exact bound.trans (Nat.le_add_right _ _)
  case word =>
    intro started
    rw [value_record bound]
    exact word started
  case ordered => exact shown.ordered
  case upTo => exact fun j mem => (shown.upTo j mem).trans le
  case values =>
    rw [map_value_record fun j mem => (shown.upTo j mem).trans shown.bound, ← shown.values,
      History.record, unread, List.append_nil]
  case fresh => exact fun none => shown.fresh (started.symm.trans none)

theorem Shown.idle (shown : Shown lsb (s, h) k ks) (none : takenBy o = []) (unread : readBy o = [])
    (started : s'.started = s.started) (last : s'.mem lsb = s.mem lsb)
    (word : s'.started = true → read32 s'.mem sensorData = value h k) :
    Shown lsb (s', h.record e o) k ks := by
  apply shown.next (Nat.le_refl k) shown.bound unread started _ word
  rw [none, List.append_nil]
  exact last.trans shown.last

private theorem write8_apply (mem : Mem) (a : Addr) (b : Byte) : write8 mem a b a = b := if_pos rfl

private theorem read32_write8 {mem : Mem} {a : Addr} {b : Byte} (outside : a ∉ sensorRange) :
    read32 (write8 mem a b) sensorData = read32 mem sensorData := by
  apply read32_congr
  intro x inside
  apply if_neg
  rintro rfl
  exact outside inside

private theorem readData_out (data : Byte) (d : State) :
    (spi1ReadData data d).1.ret = 1 ∨ (spi1ReadData data d).1 = ⟨0, data⟩ := by
  have out : (spi1ReadData data d).1 =
      (fetch data (d.writeIdis (iRxovr ||| iModf ||| iTxovr ||| iRxNempty ||| iRxfull))).1 := rfl
  rw [out, fetch]
  split_ifs with some
  · exact .inl rfl
  · exact .inr rfl

private theorem runMain_readData (lsb : Addr) (pc : s.pc = .readData) :
    runMain lsb s = some (
      { s with
        driver := { s.driver with toState := (spi1ReadData (s.mem lsb) s.driver.toState).2 }
        mem := write8 s.mem lsb (spi1ReadData (s.mem lsb) s.driver.toState).1.data
        pc := .memcpy },
      if (spi1ReadData (s.mem lsb) s.driver.toState).1.ret = 1 then
        some (.took (spi1ReadData (s.mem lsb) s.driver.toState).1.data) else none) := by
  rw [runMain, pc]

variable (apart : lsb ∉ sensorRange)
include apart

private theorem readData_shown (shown : Shown lsb (s, h) k ks) (pc : s.pc = .readData)
    (stepped : runMain lsb s = some (s', o)) : Shown lsb (s', h.record .run o) k ks := by
  rw [runMain_readData lsb pc] at stepped
  obtain ⟨rfl, rfl⟩ := Prod.mk.inj (Option.some.inj stepped)
  have word : read32 (write8 s.mem lsb (spi1ReadData (s.mem lsb) s.driver.toState).1.data)
      sensorData = read32 s.mem sensorData := read32_write8 apart
  have last := write8_apply s.mem lsb (spi1ReadData (s.mem lsb) s.driver.toState).1.data
  rcases readData_out (s.mem lsb) s.driver.toState with some | none
  · apply shown.next (Nat.le_refl k) shown.bound
    case unread =>
      rw [if_pos some]
      rfl
    case started => rfl
    case last =>
      rw [if_pos some, takenBy, List.length_append]
      refine last.trans ?_
      simp
    case word => exact fun started => word.trans (shown.word started)
  · have zero : (spi1ReadData (s.mem lsb) s.driver.toState).1.ret ≠ 1 := by
      rw [none]
      change (0 : Byte) ≠ 1
      decide
    apply shown.idle
    case none =>
      rw [if_neg zero]
      rfl
    case unread =>
      rw [if_neg zero]
      rfl
    case started => rfl
    case last =>
      refine last.trans ?_
      rw [none]
    case word => exact fun started => word.trans (shown.word started)

private theorem memcpy_shown (shown : Shown lsb (s, h) k ks) (pc : s.pc = .memcpy)
    (stepped : runMain lsb s = some (s', o)) :
    Shown lsb (s', h.record .run o) h.taken.length ks := by
  unfold runMain at stepped
  rw [pc] at stepped
  have outside : lsb ∉ (⟨sensorData, 1⟩ : Range) := by
    rw [sensorRange, mem_range] at apart
    rw [mem_range]
    omega
  have disjoint : (⟨lsb, (1#32).toNat⟩ : Range).Disjoint ⟨sensorData, (1#32).toNat⟩ := by
    intro x inSource inWord
    rw [mem_range] at inSource inWord outside
    have here : x = lsb := by bv_omega
    exact outside (here ▸ inWord)
  obtain ⟨mem', copy, same⟩ := Option.map_eq_some_iff.mp stepped
  rw [memcpy_eq s.mem (by decide) disjoint] at copy
  obtain ⟨rfl, rfl⟩ := Prod.mk.inj same
  obtain rfl := Option.some.inj copy
  have low : copied s.mem sensorData lsb 1 (sensorData + BitVec.ofNat 32 0) =
      s.mem (lsb + BitVec.ofNat 32 0) := copied_at (by omega) (by omega)
  rw [BitVec.add_zero, BitVec.add_zero] at low
  have kept {x : Addr} (other : x ∉ (⟨sensorData, 1⟩ : Range)) :
      copied s.mem sensorData lsb 1 x = s.mem x := copied_of_not_mem other
  apply shown.next shown.bound (Nat.le_refl _) rfl
  case started => rfl
  case last =>
    change copied s.mem sensorData lsb 1 lsb = (0 :: (h.taken ++ [])).getD (h.taken ++ []).length 0
    rw [List.append_nil, kept outside]
    exact shown.last
  case word =>
    intro started
    refine (read32_low (shown.word started) low fun i pos less => kept ?_).trans ?_
    · rw [mem_range]
      bv_omega
    · rw [shown.last, value]

private theorem clear_shown (shown : Shown lsb (s, h) k ks)
    (stepped : step lsb s .clear = some (s', o)) : Shown lsb (s', h.record .clear o) 0 [] := by
  rw [step] at stepped
  split_ifs at stepped with ready
  obtain ⟨rfl, rfl⟩ := Prod.mk.inj (Option.some.inj stepped)
  obtain rfl := shown.fresh ready.2
  have none : h.readings = [] := shown.values
  have zero : read32 (write32 s.mem sensorData 0) sensorData = 0 :=
    read32_writeWords_singleton s.mem sensorData 0
  have outside : write32 s.mem sensorData 0 lsb = s.mem lsb := writeWords_of_not_mem apart
  refine ⟨?_, Nat.zero_le _, fun _ => zero, .nil, nofun, ?_, fun _ => rfl⟩
  · rw [taken_record rfl]
    exact outside.trans shown.last
  · change h.readings ++ [] = _
    rw [none]
    rfl

omit apart in
private theorem read_shown (shown : Shown lsb (s, h) k ks)
    (stepped : step lsb s .read = some (s', o)) :
    Shown lsb (s', h.record .read o) k (ks ++ [k]) := by
  rw [step] at stepped
  split_ifs at stepped with ready
  obtain ⟨rfl, rfl⟩ := Prod.mk.inj (Option.some.inj stepped)
  have current := shown.word ready.2
  have bound : ∀ j ∈ ks ++ [k], j ≤ k := by
    intro j mem
    rcases List.mem_append.mp mem with before | here
    · exact shown.upTo j before
    · exact (List.mem_singleton.mp here).le
  refine ⟨?_, ?_, fun started => ?_, ?_, bound, ?_, fun none => ?_⟩
  · rw [taken_record rfl]
    exact shown.last
  · rw [taken_record rfl]
    exact shown.bound
  · rw [value_record shown.bound]
    exact shown.word started
  · rw [List.pairwise_append]
    refine ⟨shown.ordered, List.pairwise_singleton _ _, fun j mem j' here => ?_⟩
    rw [List.mem_singleton.mp here]
    exact shown.upTo j mem
  · rw [map_value_record fun j mem => (bound j mem).trans shown.bound, List.map_append,
      ← shown.values, List.map_singleton, ← current]
    rfl
  · rw [ready.2] at none
    cases none

private theorem step_shown (shown : Shown lsb (s, h) k ks) (stepped : step lsb s e = some (s', o)) :
    ∃ k' ks', Shown lsb (s', h.record e o) k' ks' := by
  cases e with
  | run =>
    change runMain lsb s = some (s', o) at stepped
    cases pc : s.pc with
    | readData => exact ⟨k, ks, readData_shown apart shown pc stepped⟩
    | memcpy => exact ⟨_, ks, memcpy_shown apart shown pc stepped⟩
    | nonSecure =>
      unfold runMain at stepped
      rw [pc] at stepped
      cases stepped
    | sendData | yield =>
      unfold runMain at stepped
      rw [pc] at stepped
      obtain ⟨rfl, rfl⟩ := Prod.mk.inj (Option.some.inj stepped)
      exact ⟨k, ks, shown.idle rfl rfl rfl rfl shown.word⟩
  | irq =>
    rw [step] at stepped
    split_ifs at stepped
    obtain ⟨received, -, same⟩ := Option.map_eq_some_iff.mp stepped
    obtain ⟨rfl, rfl⟩ := Prod.mk.inj same
    exact ⟨k, ks, shown.idle rfl rfl rfl rfl shown.word⟩
  | clear => exact ⟨0, [], clear_shown apart shown stepped⟩
  | read => exact ⟨k, ks ++ [k], read_shown shown stepped⟩
  | store a v =>
    rw [step] at stepped
    split_ifs at stepped with ready
    obtain ⟨rfl, rfl⟩ := Prod.mk.inj (Option.some.inj stepped)
    refine ⟨k, ks, shown.idle rfl rfl rfl (if_neg ready.2.2.symm) fun started => ?_⟩
    exact (read32_write8 ready.2.1).trans (shown.word started)
  | arrive b =>
    rw [step] at stepped
    split_ifs at stepped
    obtain ⟨rfl, rfl⟩ := Prod.mk.inj (Option.some.inj stepped)
    exact ⟨k, ks, shown.idle rfl rfl rfl rfl shown.word⟩
  | raise status =>
    obtain ⟨rfl, rfl⟩ := Prod.mk.inj (Option.some.inj stepped)
    exact ⟨k, ks, shown.idle rfl rfl rfl rfl shown.word⟩
  | resume =>
    rw [step] at stepped
    split_ifs at stepped
    obtain ⟨rfl, rfl⟩ := Prod.mk.inj (Option.some.inj stepped)
    exact ⟨k, ks, shown.idle rfl rfl rfl rfl shown.word⟩

end Share

def start (driver : Control) (mem : Mem) : System × History := (begun driver mem, ⟨[], [], []⟩)

section Runs

variable {lsb} {driver : Control} {mem : Mem} {p p' : System × History}

private theorem begun_holds (driver : Control) (mem : Mem) :
    Holds (begun driver mem).driver.toState ⟨driver.rxFifo, []⟩ :=
  holds_of_eq (config_holds driver.toState) rfl rfl rfl rfl rfl

private theorem start_shown (zero : mem lsb = 0) : Shown lsb (start driver mem) 0 [] where
  last := zero
  bound := Nat.le_refl 0
  word := nofun
  ordered := .nil
  upTo := nofun
  values := rfl
  fresh _ := rfl

def delivered (h : History) (r : Receiver) : List Byte := h.taken ++ (r.queue ++ r.fifo)

private theorem delivered_record (h : History) (e : Event) (o : Option Output) (r : Receiver) :
    delivered (h.record e o) r = h.taken ++ (takenBy o ++ (r.queue ++ r.fifo)) :=
  List.append_assoc _ _ _

private theorem preserves_order (fifo : List Byte) : Preserves (Next lsb) fun p =>
    ∃ r, Holds p.1.driver.toState r ∧ (delivered p.2 r).Sublist (fifo ++ p.2.arrived) := by
  rintro ⟨s, h⟩ ⟨s', h'⟩ ⟨r, holds, ordered⟩ ⟨e, o, stepped, rfl⟩
  obtain ⟨r', fed⟩ := step_feeds lsb holds stepped
  refine ⟨r', fed.holds, ?_⟩
  rw [delivered_record]
  have handed := fed.ordered.append_left h.taken
  have before := ordered.append_right (arriving e)
  rw [delivered, List.append_assoc] at before
  have line : fifo ++ (h.record e o).arrived = fifo ++ h.arrived ++ arriving e :=
    (List.append_assoc _ _ _).symm
  rw [line]
  exact handed.trans before

private theorem preserves_all (fifo : List Byte) :
    Preserves (Guarded (fun p => Timely p.1) (Next lsb)) fun p =>
      ∃ r, Holds p.1.driver.toState r ∧ Room p.1 r ∧ delivered p.2 r = fifo ++ p.2.arrived := by
  rintro ⟨s, h⟩ ⟨s', h'⟩ ⟨r, holds, room, all⟩ ⟨timely, e, o, stepped, rfl⟩
  obtain ⟨r', fed⟩ := step_feeds lsb holds stepped
  obtain ⟨same, room'⟩ := fed.kept room timely
  refine ⟨r', fed.holds, room', ?_⟩
  rw [delivered_record, same, ← List.append_assoc, ← delivered, all]
  exact List.append_assoc _ _ _

/-- What the non-secure guest reads, however the two guests, the interrupts and the controller
interleave, are bytes from the line in their order, behind a 0: it may miss bytes or read one more
than once, but never one after a later one. -/
theorem readings_in_order (apart : lsb ∉ sensorRange) (zero : mem lsb = 0)
    (run : Run (Next lsb) (start driver mem) p) :
    (∃ ks : List Nat, ks.Pairwise (· ≤ ·) ∧ (∀ k ∈ ks, k ≤ p.2.taken.length) ∧
        p.2.readings = ks.map (value p.2)) ∧
      (p.2.taken ++ (queued p.1.driver.toState ++ p.1.driver.rxFifo)).Sublist
        (driver.rxFifo ++ p.2.arrived) := by
  have keeps : Preserves (Next lsb) fun p => ∃ k ks, Shown lsb p k ks := by
    rintro ⟨s, h⟩ ⟨s', h'⟩ ⟨k, ks, shown⟩ ⟨e, o, stepped, rfl⟩
    exact step_shown apart shown stepped
  obtain ⟨k, ks, shown⟩ := keeps.run ⟨0, [], start_shown zero⟩ run
  have first : (delivered ⟨[], [], []⟩ ⟨driver.rxFifo, []⟩).Sublist (driver.rxFifo ++ []) := by
    rw [List.append_nil]
    exact List.Sublist.refl _
  obtain ⟨r, holds, ordered⟩ :=
    (preserves_order driver.rxFifo).run ⟨_, begun_holds driver mem, first⟩ run
  have upTo (k' : Nat) (mem : k' ∈ ks) := (shown.upTo k' mem).trans shown.bound
  refine ⟨⟨ks, shown.ordered, upTo, shown.values⟩, ?_⟩
  rw [holds.queue, holds.fifo]
  exact ordered

/-- No byte is lost while the interrupts keep up: an iteration asks for a byte and takes one, so
the ring stays as full as it was. -/
theorem nothing_lost (few : driver.rxFifo.length ≤ 126)
    (run : Run (Guarded (fun p => Timely p.1) (Next lsb)) (start driver mem) p) :
    p.2.taken ++ (queued p.1.driver.toState ++ p.1.driver.rxFifo) =
      driver.rxFifo ++ p.2.arrived := by
  have room : Room (begun driver mem) ⟨driver.rxFifo, []⟩ := by
    change 0 + driver.rxFifo.length + 0 ≤ 126 + 0
    omega
  obtain ⟨r, holds, -, all⟩ := (preserves_all driver.rxFifo).run
    ⟨_, begun_holds driver mem, room, (List.append_nil _).symm⟩ run
  rw [holds.queue, holds.fifo]
  exact all

end Runs

instance (s : System) : Decidable (Timely s) :=
  inferInstanceAs (Decidable (_ → _ → _))

/-- The run through some events, if each of them is possible and comes in time. -/
def follow (lsb : Addr) : List Event → System × History → Option (System × History)
  | [], p => some p
  | e :: es, p =>
    if Timely p.1 then
      (step lsb p.1 e).bind fun next => follow lsb es (next.1, p.2.record e next.2)
    else none

private theorem run_of_follow {lsb : Addr} {es : List Event} {p p' : System × History}
    (followed : follow lsb es p = some p') :
    Run (Guarded (fun p => Timely p.1) (Next lsb)) p p' := by
  induction es generalizing p with
  | nil =>
    obtain rfl := Option.some.inj followed
    exact Relation.ReflTransGen.refl
  | cons e es ih =>
    rw [follow] at followed
    split_ifs at followed with timely
    obtain ⟨⟨s, o⟩, stepped, rest⟩ := Option.bind_eq_some_iff.mp followed
    exact Relation.ReflTransGen.head ⟨timely, e, o, stepped, rfl⟩ (ih rest)

theorem Run.unguarded {lsb : Addr} {p p' : System × History}
    (run : Run (Guarded (fun p => Timely p.1) (Next lsb)) p p') : Run (Next lsb) p p' := by
  have weaker : Guarded (fun p => Timely p.1) (Next lsb) ≤ Next lsb := fun _ _ step => step.2
  exact Relation.ReflTransGen.mono weaker _ _ run

/-- Six bytes are there, a seventh comes in; the thread of the non-secure guest starts behind the
first iteration, and reads behind the second one. -/
def events : List Event :=
  [.irq, .run, .arrive 7, .run, .run, .run, .clear, .resume, .run, .run, .run, .run, .read]

def controller : Control where
  crRegister := 0
  status := 0
  imaskRegister := 0
  rxFifo := [1, 2, 3, 4, 5, 6]
  txwrRegister := 0
  rxThresReg := 1
  rxBuffer _ := 0
  rxBufferHead := 0
  rxBufferTail := 0
  erRegister := 0
  txd := []

def lsbAddr : Addr := 0x200000#32

def memory : Mem := fun x => if x = lsbAddr then 0 else 0xFF

private theorem seven_received : ∃ p, Run (Guarded (fun p => Timely p.1) (Next lsbAddr))
    (start controller memory) p ∧ p.2.arrived = [7] ∧ p.2.taken = [1, 2] ∧ p.2.readings = [2] := by
  have outcome : ((follow lsbAddr events (start controller memory)).map
      fun p => (p.2.arrived, p.2.taken, p.2.readings)) = some ([7], [1, 2], [2]) := by decide
  obtain ⟨p, run, seen⟩ := Option.map_eq_some_iff.mp outcome
  obtain ⟨arrived, rest⟩ := Prod.mk.inj seen
  obtain ⟨taken, readings⟩ := Prod.mk.inj rest
  exact ⟨p, run_of_follow run, arrived, taken, readings⟩

/-- The first byte is overwritten by the 0 before it is read, and the second one is read. -/
theorem readings_in_order_seven : ∃ p, Run (Next lsbAddr) (start controller memory) p ∧
    p.2.readings = [2] ∧ (∃ ks : List Nat, ks.Pairwise (· ≤ ·) ∧ [2] = ks.map (value p.2)) ∧
      ([1, 2] ++ (queued p.1.driver.toState ++ p.1.driver.rxFifo)).Sublist
        ([1, 2, 3, 4, 5, 6] ++ [7]) := by
  obtain ⟨p, run, arrived, taken, readings⟩ := seven_received
  have plain := Run.unguarded run
  obtain ⟨⟨ks, ordered, -, values⟩, line⟩ := readings_in_order (by decide) (by decide) plain
  rw [taken, arrived] at line
  exact ⟨p, plain, readings, ⟨ks, ordered, readings ▸ values⟩, line⟩

theorem nothing_lost_seven : ∃ p, Run (Next lsbAddr) (start controller memory) p ∧
    [1, 2] ++ (queued p.1.driver.toState ++ p.1.driver.rxFifo) = [1, 2, 3, 4, 5, 6] ++ [7] := by
  obtain ⟨p, run, arrived, taken, -⟩ := seven_received
  have all := nothing_lost (by decide) run
  rw [taken, arrived] at all
  exact ⟨p, Run.unguarded run, all⟩

end LTZVisor.SGuest.Blink
