/- LTZVisor/Drivers/SpiControl
   kind: property
   digest: The control register of the SPI controller under the calls of its driver. -/

import LTZVisor.Drivers.Spi

set_option autoImplicit false
set_option relaxedAutoImplicit false

namespace LTZVisor.Drivers.SpiControl

open LTZVisor.Lib.Memory LTZVisor.Drivers.Spi

def crCs0 : Word := 0#32 <<< 10
def crManCs : Word := 1#32 <<< 14

def iTxfull : Word := 1#32 <<< 3

def erSpiEnable : Word := 1#32
def erSpiDisable : Word := 0#32

/-- The controller with the registers of its transmit path: what was written to `txd_register`,
oldest word first. -/
structure Control extends State where
  erRegister : Word
  txd : List Word

def config (c : Control) : Control := { c with toState := spi1Config c.toState }

def spi1Enable (c : Control) : Control :=
  let s := { c.toState with crRegister := c.crRegister ||| crManCs }
  { c with toState := s.writeIen iRxfull, erRegister := erSpiEnable }

def spi1Disable (c : Control) : Control :=
  let s := { c.toState with crRegister := c.crRegister ||| crCsNs }
  { c with
    toState := s.writeIdis (iRxovr ||| iModf ||| iTxovr ||| iRxfull ||| iTxfull ||| iRxNempty)
    erRegister := erSpiDisable }

def csMask : Word := 0xFFFFC3FF#32

/-- The number of bytes sent, and the controller. -/
def spi1SendData (data : Byte) (c : Control) : Byte × Control :=
  let reg := c.crRegister &&& csMask
  (1, { c with crRegister := reg ||| crCs0, txd := c.txd ++ [data.setWidth 32] })

/-- A slave other than 0 is not selected, nor is slave 0 left. -/
def spi1AssertSlave (slaveNmr : Byte) (c : Control) : Control :=
  let reg := c.crRegister &&& csMask
  if slaveNmr = 0 then { c with crRegister := reg ||| crCs0 } else c

def spi1DeassertSlave (c : Control) : Control := { c with crRegister := c.crRegister ||| crCsNs }

inductive Call
  | sendData (data : Byte)
  | readData (data : Byte)
  | assertSlave (slaveNmr : Byte)
  | deassertSlave
  | enable
  | disable
  deriving DecidableEq

def call (c : Control) : Call → Control
  | .sendData data => (spi1SendData data c).2
  | .readData data => { c with toState := (spi1ReadData data c.toState).2 }
  | .assertSlave slaveNmr => spi1AssertSlave slaveNmr c
  | .deassertSlave => spi1DeassertSlave c
  | .enable => spi1Enable c
  | .disable => spi1Disable c

def after (c : Control) (calls : List Call) : Control := calls.foldl call (config c)

def csField (cr : Word) : BitVec 4 := cr.extractLsb' 10 4

def others (cr : Word) : Word := cr &&& ~~~0x7C00#32

def configured : Word :=
  crMasterMode ||| crClkPolHigh ||| crClkPhaseInactive ||| crBaudRateDiv4 ||| crModeFailEn

def noSlave : BitVec 4 := 0b1111#4
def slave0 : BitVec 4 := 0b0000#4

/-- The chip select that a call leaves, where it has one to leave. -/
def Call.selects : Call → Option (BitVec 4)
  | .sendData _ => some slave0
  | .readData _ => some noSlave
  | .assertSlave slaveNmr => if slaveNmr = 0 then some slave0 else none
  | .deassertSlave => some noSlave
  | .enable => none
  | .disable => some noSlave

def selected (calls : List Call) : Option (BitVec 4) :=
  (calls.getLast?.map Call.selects).getD (some noSlave)

structure AsRequired (calls : List Call) (cr : Word) : Prop where
  select : ∀ cs, selected calls = some cs → csField cr = cs
  others : others cr = configured

/-- The bits of the field macro for no slave that lie outside the field. -/
def spilled : Word := 1#32 <<< 16 ||| 1#32 <<< 20

def noSlaveMacro : BitVec 4 := 0b0111#4

/-- The register holds its configuration and what the macro spilled, and one of two selections. -/
structure Spilled (cr : Word) : Prop where
  others : others cr = configured ||| spilled
  select : csField cr = slave0 ∨ csField cr = noSlaveMacro

private theorem others_or (cr bits : Word) : others (cr ||| bits) = others cr ||| others bits :=
  BitVec.and_or_distrib_right

private theorem csField_or (cr bits : Word) : csField (cr ||| bits) =
    csField cr ||| csField bits := by
  apply BitVec.eq_of_getLsbD_eq
  intro i less
  simp only [csField, BitVec.getLsbD_or, BitVec.getLsbD_extractLsb', less, decide_true,
    Bool.true_and]

private theorem csField_and (cr bits : Word) : csField (cr &&& bits) =
    csField cr &&& csField bits := by
  apply BitVec.eq_of_getLsbD_eq
  intro i less
  simp only [csField, BitVec.getLsbD_and, BitVec.getLsbD_extractLsb', less, decide_true,
    Bool.true_and]

private theorem others_csMask (cr : Word) : others (cr &&& csMask) = others cr := by
  have mask : csMask &&& ~~~0x7C00#32 = ~~~0x7C00#32 := by decide
  rw [others, BitVec.and_assoc, mask]
  rfl

private theorem config_crRegister (c : Control) : (config c).crRegister =
    crCsNs ||| crPeriSel1to3 ||| crBaudRateDiv4 ||| (crClkPolHigh ||| crClkPhaseInactive) |||
      crMasterMode ||| crModeFailEn ||| crManStartAuto :=
  rfl

private theorem spilled_config (c : Control) : Spilled (config c).crRegister := by
  rw [config_crRegister]
  exact ⟨by decide, Or.inr (by decide)⟩

variable {cr : Word}

theorem Spilled.selectNone (h : Spilled cr) :
    Spilled (cr ||| crCsNs) ∧ csField (cr ||| crCsNs) = noSlaveMacro := by
  have select : csField (cr ||| crCsNs) = noSlaveMacro := by
    rw [csField_or]
    rcases h.select with cs | cs <;> rw [cs] <;> decide
  refine ⟨⟨?_, Or.inr select⟩, select⟩
  rw [others_or, h.others]
  decide

theorem Spilled.select0 (h : Spilled cr) :
    Spilled (cr &&& csMask ||| crCs0) ∧ csField (cr &&& csMask ||| crCs0) = slave0 := by
  have none : csField csMask = 0#4 := by decide
  have select : csField (cr &&& csMask ||| crCs0) = slave0 := by
    rw [csField_or, csField_and, none, BitVec.and_zero]
    decide
  refine ⟨⟨?_, Or.inl select⟩, select⟩
  rw [others_or, others_csMask, h.others]
  decide

theorem Spilled.manual (h : Spilled cr) : Spilled (cr ||| crManCs) := by
  have none : csField crManCs = 0#4 := by decide
  constructor
  · rw [others_or, h.others]
    decide
  · rw [csField_or, none, BitVec.or_zero]
    exact h.select

/-- The chip select that the driver leaves where all four bits are asked for. -/
def selectedByMacro (cs : BitVec 4) : BitVec 4 := if cs = noSlave then noSlaveMacro else cs

private theorem call_spilled {c : Control} (h : Spilled c.crRegister) (op : Call) :
    Spilled (call c op).crRegister ∧
      ∀ cs, op.selects = some cs → csField (call c op).crRegister = selectedByMacro cs := by
  cases op with
  | sendData data =>
    refine ⟨h.select0.1, ?_⟩
    rintro cs ⟨⟩
    exact h.select0.2
  | readData data =>
    have read : (call c (.readData data)).crRegister = c.crRegister ||| crCsNs := by
      change ((fetch data _).2).crRegister ||| crCsNs = _
      unfold fetch
      split_ifs <;> rfl
    rw [read]
    refine ⟨h.selectNone.1, ?_⟩
    rintro cs ⟨⟩
    exact h.selectNone.2
  | assertSlave slaveNmr =>
    by_cases zero : slaveNmr = 0
    · rw [call, spi1AssertSlave, if_pos zero, Call.selects, if_pos zero]
      refine ⟨h.select0.1, ?_⟩
      rintro cs ⟨⟩
      exact h.select0.2
    · rw [call, spi1AssertSlave, if_neg zero, Call.selects, if_neg zero]
      exact ⟨h, fun cs none => nomatch none⟩
  | deassertSlave =>
    refine ⟨h.selectNone.1, ?_⟩
    rintro cs ⟨⟩
    exact h.selectNone.2
  | enable => exact ⟨h.manual, fun cs none => nomatch none⟩
  | disable =>
    refine ⟨h.selectNone.1, ?_⟩
    rintro cs ⟨⟩
    exact h.selectNone.2

private theorem after_append_singleton (c : Control) (calls : List Call) (op : Call) :
    after c (calls ++ [op]) = call (after c calls) op := by
  rw [after, List.foldl_append]
  rfl

/-- In every run the register is as it should be but for the spilled bits and the fourth select
bit. -/
private theorem after_spilled (c : Control) (calls : List Call) :
    Spilled (after c calls).crRegister ∧ ∀ cs, selected calls = some cs →
      csField (after c calls).crRegister = selectedByMacro cs := by
  induction calls using List.reverseRecOn with
  | nil =>
    refine ⟨spilled_config c, ?_⟩
    rintro cs ⟨⟩
    change csField (config c).crRegister = _
    rw [config_crRegister]
    decide
  | append_singleton calls op ih =>
    rw [after_append_singleton, selected, List.getLast?_concat]
    exact call_spilled ih.1 op

/-- No run brings the register into the state that is required of it: the spilled bits stay set. -/
theorem never_as_required (c : Control) (calls : List Call) :
    ¬AsRequired calls (after c calls).crRegister := by
  intro required
  have actual := (after_spilled c calls).1.others
  rw [required.others] at actual
  revert actual
  decide

def resetControl : Control where
  crRegister := 0x00020000#32
  status := 0x04#32
  imaskRegister := 0#32
  rxFifo := []
  txwrRegister := 1#32
  rxThresReg := 1#32
  rxBuffer := fun _ => 0
  rxBufferHead := 0
  rxBufferTail := 0
  erRegister := erSpiDisable
  txd := []

/-- The configuration itself selects the reserved slave and issues a manual start. -/
theorem config_selects_reserved :
    ¬∀ (c : Control) (calls : List Call), AsRequired calls (after c calls).crRegister := by
  intro claim
  have select := (claim resetControl []).select noSlave rfl
  revert select
  decide

end LTZVisor.Drivers.SpiControl
