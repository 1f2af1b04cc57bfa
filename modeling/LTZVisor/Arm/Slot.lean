/- LTZVisor/Arm/Slot
   kind: library
   digest: Save areas: registers captured as a block of words and put back from one. -/

import LTZVisor.Arm.Exception

set_option autoImplicit false
set_option relaxedAutoImplicit false

namespace LTZVisor.Arm

open LTZVisor.Lib.Memory

variable {D : Type}

/-- A register that a context switch can save. The SPSR slot of the User bank stands for the
unspecified value that System mode, which has no SPSR, gives to an access. -/
inductive Slot
  | reg (b : Bank) (r : Reg)
  | spsr (b : Bank)
  deriving DecidableEq

/-- The slots that exist: a register has one home, and System mode no SPSR. -/
def Slot.Architected : Slot → Prop
  | .reg b r => b.home r = b
  | .spsr b => b ≠ .usr

namespace Machine

def get (m : Machine D) : Slot → Word
  | .reg b r => m.regs b r
  | .spsr b => m.spsr b

def put (m : Machine D) : Slot → Word → Machine D
  | .reg b r, v => m.setPhys b r v
  | .spsr b, v => m.setSpsr b v

/-- What a slot holds after a word was moved to it by `mov` or, into an SPSR, by `msr` without a
field suffix. -/
def landed (m : Machine D) : Slot → Word → Word
  | .reg _ _, w => w
  | .spsr b, w => msrFc (m.spsr b) w

theorem get_put (m : Machine D) (s t : Slot) (v : Word) :
    (m.put s v).get t = if t = s then v else m.get t := by
  cases s <;> cases t <;> simp [put, get]

/-- Put a block of words into a list of slots. -/
def putAll (m : Machine D) : List Slot → List Word → Machine D
  | s :: ss, w :: ws => (m.put s w).putAll ss ws
  | _, _ => m

private theorem putAll_frame (ss : List Slot) (ws : List Word) (m : Machine D) :
    m.putAll ss ws =
      { m with regs := (m.putAll ss ws).regs, spsr := (m.putAll ss ws).spsr } := by
  induction ss generalizing ws m with
  | nil => simp [putAll]
  | cons s ss ih =>
    cases ws with
    | nil => simp [putAll]
    | cons w ws =>
      rw [putAll, ih ws (m.put s w)]
      cases s <;> simp [put]

section Fields

variable (m : Machine D) (ss : List Slot) (ws : List Word)

@[simp] theorem putAll_cpsr : (m.putAll ss ws).cpsr = m.cpsr := by rw [putAll_frame]
@[simp] theorem putAll_pc : (m.putAll ss ws).pc = m.pc := by rw [putAll_frame]
@[simp] theorem putAll_scr : (m.putAll ss ws).scr = m.scr := by rw [putAll_frame]
@[simp] theorem putAll_cp15 : (m.putAll ss ws).cp15 = m.cp15 := by rw [putAll_frame]
@[simp] theorem putAll_mem : (m.putAll ss ws).mem = m.mem := by rw [putAll_frame]
@[simp] theorem putAll_dev : (m.putAll ss ws).dev = m.dev := by rw [putAll_frame]

end Fields

theorem get_putAll_of_not_mem {s : Slot} {ss : List Slot} (h : s ∉ ss) (ws : List Word)
    (m : Machine D) : (m.putAll ss ws).get s = m.get s := by
  induction ss generalizing ws m with
  | nil => simp [putAll]
  | cons t ss ih =>
    cases ws with
    | nil => simp [putAll]
    | cons w ws =>
      simp only [List.mem_cons, not_or] at h
      rw [putAll, ih h.2, get_put, if_neg h.1]

theorem get_putAll (m : Machine D) {ss : List Slot} (nodup : ss.Nodup) {ws : List Word} {i : Nat}
    {s : Slot} {w : Word} (slot : ss[i]? = some s) (word : ws[i]? = some w) :
    (m.putAll ss ws).get s = w := by
  induction ss generalizing ws m i with
  | nil => simp at slot
  | cons t ss ih =>
    obtain ⟨fresh, nodup⟩ := List.nodup_cons.mp nodup
    cases ws with
    | nil => simp at word
    | cons v ws =>
      cases i with
      | zero =>
        simp only [List.getElem?_cons_zero, Option.some.injEq] at slot word
        subst slot word
        rw [putAll, get_putAll_of_not_mem fresh, get_put, if_pos rfl]
      | succ i =>
        simp only [List.getElem?_cons_succ] at slot word
        exact ih (m.put t v) nodup slot word

theorem get_putAll_congr {m m' : Machine D} {ss : List Slot} (nodup : ss.Nodup) {ws : List Word}
    (len : ws.length = ss.length) {s : Slot} (outside : s ∉ ss → m.get s = m'.get s) :
    (m.putAll ss ws).get s = (m'.putAll ss ws).get s := by
  by_cases inside : s ∈ ss
  · obtain ⟨i, slot⟩ := List.mem_iff_getElem?.mp inside
    obtain ⟨hi, -⟩ := List.getElem?_eq_some_iff.mp slot
    have word : ws[i]? = some (ws.get ⟨i, by omega⟩) := by simp
    rw [get_putAll m nodup slot word, get_putAll m' nodup slot word]
  · rw [get_putAll_of_not_mem inside, get_putAll_of_not_mem inside, outside inside]

private theorem ext_get {m m' : Machine D} (slots : ∀ s, m.get s = m'.get s)
    (cpsr : m.cpsr = m'.cpsr)
    (pc : m.pc = m'.pc) (scr : m.scr = m'.scr) (cp15 : m.cp15 = m'.cp15) (mem : m.mem = m'.mem)
    (dev : m.dev = m'.dev) : m = m' :=
  Machine.ext (funext fun b => funext fun r => slots (.reg b r)) (funext fun b => slots (.spsr b))
    cpsr pc scr cp15 mem dev

theorem putAll_put_of_mem (m : Machine D) {s : Slot} {ss : List Slot} (nodup : ss.Nodup)
    {ws : List Word} (len : ws.length = ss.length) (inside : s ∈ ss) (v : Word) :
    (m.put s v).putAll ss ws = m.putAll ss ws := by
  apply ext_get
  case slots =>
    intro t
    apply get_putAll_congr nodup len
    intro ht
    have other : t ≠ s := fun same => ht (same ▸ inside)
    rw [get_put, if_neg other]
  all_goals cases s <;> simp [put]

theorem putAll_put_of_not_mem (m : Machine D) {s : Slot} {ss : List Slot} (nodup : ss.Nodup)
    {ws : List Word} (len : ws.length = ss.length) (outside : s ∉ ss) (v : Word) :
    (m.put s v).putAll ss ws = (m.putAll ss ws).put s v := by
  apply ext_get
  case slots =>
    intro t
    rw [get_put]
    by_cases same : t = s
    · rw [if_pos same, same, get_putAll_of_not_mem outside, get_put, if_pos rfl]
    · rw [if_neg same]
      apply get_putAll_congr nodup len
      intro _
      rw [get_put, if_neg same]
  all_goals cases s <;> simp [put]

theorem putAll_withMem (m : Machine D) (mem : Mem) (ss : List Slot) (ws : List Word) :
    ({ m with mem } : Machine D).putAll ss ws = { m.putAll ss ws with mem } := by
  induction ss generalizing ws m with
  | nil => rfl
  | cons s ss ih =>
    cases ws with
    | nil => rfl
    | cons w ws =>
      cases s with
      | reg b r => exact ih (m.setPhys b r w) ws
      | spsr b => exact ih (m.setSpsr b w) ws

/-- The block a save area holds after `m` was captured. -/
def capture (m : Machine D) (ss : List Slot) : List Word := ss.map m.get

@[simp] theorem capture_length (m : Machine D) (ss : List Slot) :
    (m.capture ss).length = ss.length := by
  simp [capture]

theorem capture_putAll (m : Machine D) {ss : List Slot} (nodup : ss.Nodup) {ws : List Word}
    (len : ws.length = ss.length) : (m.putAll ss ws).capture ss = ws := by
  apply List.ext_getElem?
  intro i
  by_cases hi : i < ss.length
  · have slot := List.getElem?_eq_getElem hi
    have word := List.getElem?_eq_getElem (len.symm ▸ hi)
    rw [capture, List.getElem?_map, slot, word, Option.map_some,
      get_putAll m nodup slot word]
  · rw [List.getElem?_eq_none (by simpa using hi), List.getElem?_eq_none (by omega)]

theorem read32_of_capture {m : Machine D} {ss : List Slot} {mem : Mem} {a : Addr} {n : Nat}
    (block : readWords mem a n = m.capture ss) {i : Nat} {t : Slot} (slot : ss[i]? = some t) :
    read32 mem (a + BitVec.ofNat 32 (4 * i)) = m.get t := by
  have len : n = ss.length := by simpa using congrArg List.length block
  obtain ⟨bound, -⟩ := List.getElem?_eq_some_iff.mp slot
  have word := congrArg (fun ws => ws[i]?) block
  simpa [readWords, capture, slot, List.getElem?_range (len.symm ▸ bound : i < n)] using word

theorem capture_congr {m m' : Machine D} {ss : List Slot} (same : ∀ s ∈ ss, m.get s = m'.get s) :
    m.capture ss = m'.capture ss :=
  List.map_congr_left same

theorem get_putAll_capture (m m' : Machine D) {ss : List Slot} (nodup : ss.Nodup) {s : Slot}
    (hs : s ∈ ss) : (m'.putAll ss (m.capture ss)).get s = m.get s := by
  obtain ⟨i, slot⟩ := List.mem_iff_getElem?.mp hs
  exact get_putAll m' nodup slot (by simp [capture, slot])

/-- Words captured from `m'` and moved into the slots of `m` one by one. -/
theorem get_putAll_landed (m m' : Machine D) {ss : List Slot} (nodup : ss.Nodup) {s : Slot}
    (hs : s ∈ ss) :
    (m.putAll ss (List.zipWith m.landed ss (m'.capture ss))).get s = m.landed s (m'.get s) := by
  obtain ⟨i, slot⟩ := List.mem_iff_getElem?.mp hs
  exact get_putAll m nodup slot (by simp [capture, List.getElem?_zipWith, slot])

end Machine

end LTZVisor.Arm
