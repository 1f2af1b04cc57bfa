/- LTZVisor/Arm/Psr
   kind: library
   digest: Program status registers, processor modes and the byte masks of MSR. -/

import LTZVisor.Lib.Memory

set_option autoImplicit false
set_option relaxedAutoImplicit false

namespace LTZVisor.Arm

open LTZVisor.Lib.Memory (Word byte word_ext)

/-- The current program status register, split where a context switch looks at it.
`mid` holds bits 27 to 8: Q, IT, J, GE, E and A. -/
@[ext] structure Psr where
  n : Bool
  z : Bool
  c : Bool
  v : Bool
  mid : BitVec 20
  i : Bool
  f : Bool
  t : Bool
  mode : BitVec 5
  deriving DecidableEq

namespace Psr

def toWord (p : Psr) : Word :=
  BitVec.ofBool p.n ++ BitVec.ofBool p.z ++ BitVec.ofBool p.c ++ BitVec.ofBool p.v ++ p.mid ++
    BitVec.ofBool p.i ++ BitVec.ofBool p.f ++ BitVec.ofBool p.t ++ p.mode

def ofWord (w : Word) : Psr where
  n := w.getLsbD 31
  z := w.getLsbD 30
  c := w.getLsbD 29
  v := w.getLsbD 28
  mid := w.extractLsb' 8 20
  i := w.getLsbD 7
  f := w.getLsbD 6
  t := w.getLsbD 5
  mode := w.extractLsb' 0 5

private theorem mid_toWord (p : Psr) : p.toWord.extractLsb' 8 20 = p.mid := by
  apply BitVec.eq_of_getLsbD_eq
  intro k hk
  simp only [toWord, BitVec.getLsbD_extractLsb', BitVec.getLsbD_append, hk, decide_true,
    Bool.true_and]
  rw [if_neg (by omega), if_neg (by omega), if_neg (by omega), if_neg (by omega),
    if_pos (by omega)]
  exact congrArg _ (by omega)

private theorem mode_toWord (p : Psr) : p.toWord.extractLsb' 0 5 = p.mode := by
  apply BitVec.eq_of_getLsbD_eq
  intro k hk
  simp only [toWord, BitVec.getLsbD_extractLsb', BitVec.getLsbD_append, hk, decide_true,
    Bool.true_and, Nat.zero_add, if_true]

@[simp] theorem ofWord_toWord (p : Psr) : ofWord p.toWord = p := by
  ext1
  case mid => exact mid_toWord p
  case mode => exact mode_toWord p
  all_goals simp only [ofWord, toWord, BitVec.getLsbD_append, BitVec.getLsbD_ofBool]
  all_goals simp

@[simp] theorem toWord_ofWord (w : Word) : (ofWord w).toWord = w := by
  apply BitVec.eq_of_getLsbD_eq
  intro k hk
  simp only [toWord, ofWord, BitVec.getLsbD_append, BitVec.getLsbD_extractLsb',
    BitVec.getLsbD_ofBool]
  split_ifs <;> grind

end Psr

/-- The status and extension bytes of a program status register: the GE, E, A and upper
IT bits, which `msr spsr, rN` without a field suffix leaves alone. -/
def statusBytes (w : Word) : Word := w &&& 0x00FFFF00#32

/-- The flag and control bytes, which it writes. -/
def flagBytes (w : Word) : Word := w &&& 0xFF0000FF#32

/-- `msr spsr, rN` without a field suffix, that is `spsr_fc`. -/
def msrFc (old new : Word) : Word := statusBytes old ||| flagBytes new

@[simp] theorem statusBytes_or_flagBytes (w : Word) : statusBytes w ||| flagBytes w = w := by
  have split : w &&& (0x00FFFF00#32 ||| 0xFF0000FF#32) = w := by
    rw [show 0x00FFFF00#32 ||| 0xFF0000FF#32 = BitVec.allOnes 32 from rfl, BitVec.and_allOnes]
  rw [statusBytes, flagBytes, ← BitVec.and_or_distrib_left, split]

@[simp] theorem msrFc_self (w : Word) : msrFc w w = w := statusBytes_or_flagBytes w

private theorem mask_masked (w m k : Word) : w &&& m &&& k = w &&& (m &&& k) :=
  BitVec.and_assoc w m k

@[simp] theorem statusBytes_msrFc (old new : Word) :
    statusBytes (msrFc old new) = statusBytes old := by
  simp only [msrFc, statusBytes, flagBytes, BitVec.and_or_distrib_right, mask_masked]
  simp

@[simp] theorem flagBytes_msrFc (old new : Word) :
    flagBytes (msrFc old new) = flagBytes new := by
  simp only [msrFc, statusBytes, flagBytes, BitVec.and_or_distrib_right, mask_masked]
  simp

private theorem psr_word_ext {v w : Word} (status : statusBytes v = statusBytes w)
    (flags : flagBytes v = flagBytes w) : v = w := by
  rw [← statusBytes_or_flagBytes v, status, flags, statusBytes_or_flagBytes]

private theorem byte_and (v w : Word) (i : Nat) : byte (v &&& w) i = byte v i &&& byte w i := by
  apply BitVec.eq_of_getLsbD_eq
  intro k hk
  simp [byte, hk]

theorem flagBytes_eq_iff (v w : Word) :
    flagBytes v = flagBytes w ↔ byte v 0 = byte w 0 ∧ byte v 3 = byte w 3 := by
  have ones : byte 0xFF0000FF#32 0 = BitVec.allOnes 8 ∧
      byte 0xFF0000FF#32 3 = BitVec.allOnes 8 := by
    decide
  have zeros : byte 0xFF0000FF#32 1 = 0#8 ∧ byte 0xFF0000FF#32 2 = 0#8 := by decide
  constructor
  · intro same
    have low := congrArg (fun u => byte u 0) same
    have high := congrArg (fun u => byte u 3) same
    simp only [flagBytes, byte_and, ones, BitVec.and_allOnes] at low high
    exact ⟨low, high⟩
  · rintro ⟨low, high⟩
    apply word_ext
    intro i hi
    have cases : i = 0 ∨ i = 1 ∨ i = 2 ∨ i = 3 := by omega
    rcases cases with rfl | rfl | rfl | rfl <;>
      simp only [flagBytes, byte_and, ones, zeros, low, high, BitVec.and_zero]

theorem msrFc_eq_iff (a b new : Word) :
    msrFc a new = msrFc b new ↔ statusBytes a = statusBytes b := by
  constructor
  · intro h
    simpa using congrArg statusBytes h
  · intro h
    rw [msrFc, msrFc, h]

theorem msrFc_eq_old_iff (old new : Word) :
    msrFc old new = old ↔ flagBytes new = flagBytes old := by
  constructor
  · intro h
    simpa using congrArg flagBytes h
  · intro h
    exact psr_word_ext (by simp) (by simpa using h)

private theorem getLsbD_msrFc_flag (old new : Word) (k : Nat) (hk : k < 8 ∨ 24 ≤ k) :
    (msrFc old new).getLsbD k = new.getLsbD k := by
  by_cases bound : k < 32
  · have masks : ∀ k < 32, k < 8 ∨ 24 ≤ k →
        (0x00FFFF00#32).getLsbD k = false ∧ (0xFF0000FF#32).getLsbD k = true := by decide
    obtain ⟨status, flag⟩ := masks k bound hk
    simp only [msrFc, statusBytes, flagBytes, BitVec.getLsbD_or, BitVec.getLsbD_and, status, flag,
      Bool.and_false, Bool.false_or, Bool.and_true]
  · rw [BitVec.getLsbD_of_ge _ _ (by omega), BitVec.getLsbD_of_ge _ _ (by omega)]

theorem control_msrFc (old new : Word) :
    (Psr.ofWord (msrFc old new)).mode = (Psr.ofWord new).mode ∧
      (Psr.ofWord (msrFc old new)).i = (Psr.ofWord new).i ∧
      (Psr.ofWord (msrFc old new)).f = (Psr.ofWord new).f := by
  refine ⟨?_, getLsbD_msrFc_flag old new 7 (by omega), getLsbD_msrFc_flag old new 6 (by omega)⟩
  apply BitVec.eq_of_getLsbD_eq
  intro k hk
  have low : 0 + k < 8 := by omega
  simp only [Psr.ofWord, BitVec.getLsbD_extractLsb', getLsbD_msrFc_flag old new (0 + k) (.inl low)]

end LTZVisor.Arm
