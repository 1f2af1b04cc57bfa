/- LTZVisor/Monitor/MemoryService
   kind: property
   digest: The register-access calls of the non-secure guest to its DDR, in any sequence, are a
   memory of words. -/

import LTZVisor.Lib.LastWrite
import LTZVisor.Monitor.SpatialIsolation

set_option autoImplicit false
set_option relaxedAutoImplicit false

namespace LTZVisor.Monitor.MemoryService

open LTZVisor.Lib.Memory LTZVisor.Lib.Runs LTZVisor.Lib.LastWrite LTZVisor.Arm
open LTZVisor.Boards.Zedboard LTZVisor.Monitor.Handlers LTZVisor.Monitor.Switch
open LTZVisor.Monitor.Guests LTZVisor.Monitor.SpatialIsolation

/-- An aligned word of the non-secure DDR. On an unaligned one the access aborts. -/
structure IsWord (a : Addr) : Prop where
  aligned : a.toNat % 4 = 0
  inside : (⟨a, 4⟩ : Range).Subset ddrNs

/-- The calls that go to the board; those that access a word access one of the DDR. -/
structure DdrCall extends Call where
  negative : r0.msb = true
  word : r0 = ltzvisorReadSyscall ∨ r0 = ltzvisorWriteSyscall → IsWord r1

def stores (c : DdrCall) (a : Addr) : Option Word :=
  if c.r0 = ltzvisorWriteSyscall ∧ a = c.r1 then some c.r2 else none

/-- The words after some calls: each is the one stored there last. -/
def latest (words : Addr → Word) (calls : List DdrCall) : Addr → Word := fun a =>
  (lastWrite stores calls a).getD (words a)

def answer (words : Addr → Word) (c : DdrCall) : Word :=
  if c.r0 = ltzvisorReadSyscall then words c.r1 else c.r0

def wordStep (words : Addr → Word) (c : DdrCall) : (Addr → Word) × Word :=
  (fun a => (stores c a).getD (words a), answer words c)

private theorem foldl_wordStep (words : Addr → Word) (calls : List DdrCall) :
    calls.foldl (fun words c => (wordStep words c).1) words = latest words calls := by
  funext a
  have overwrites (c : DdrCall) : Overwrites (fun (words : Addr → Word) a => words a)
      (fun words c => (wordStep words c).1) stores c := fun _ _ => rfl
  exact view_run (fun c _ => overwrites c) words a

private theorem result_word (c : DdrCall) (mem : Mem) {a : Addr} (word : IsWord a) :
    read32 (c.result mem).2 a = (stores c a).getD (read32 mem a) := by
  have other : ltzvisorWriteSyscall ≠ ltzvisorReadSyscall := by decide
  by_cases write : c.r0 = ltzvisorWriteSyscall
  · rw [Call.result, boardHandler, if_neg (write ▸ other), if_pos write]
    by_cases same : a = c.r1
    · rw [stores, if_pos ⟨write, same⟩, same]
      exact read32_writeWords_singleton mem c.r1 c.r2
    · have apart := Range.disjoint_of_aligned (c.word (.inr write)).aligned word.aligned
        (Ne.symm same)
      rw [stores, if_neg fun hit => same hit.2]
      exact read32_writeWords_of_disjoint apart
  · rw [stores, if_neg fun hit => write hit.1]
    refine read32_congr fun x _ => ?_
    rw [Call.result, boardHandler_mem, if_neg fun hit => write hit.1]

private theorem result_answer (c : DdrCall) (mem : Mem) :
    (c.result mem).1 = answer (read32 mem) c := by
  unfold Call.result boardHandler answer
  split_ifs <;> rfl

/-- The words of the DDR are `words`, and the rest of the memory is `mem`, the part of the stack
apart that the calls use. -/
structure Shows (env : Env) (mem : Mem) (n : Core) (words : Addr → Word) : Prop where
  ready : NsReady env n
  words : ∀ a, IsWord a → read32 n.mem a = words a
  frame : ∀ x ∉ ddrNs, x ∉ callStack env → n.mem x = mem x

def serveDdr (env : Env) (n : Core) (c : DdrCall) : Option (Core × Word) := serve env n c.toCall

variable {env : Env}

private theorem Shows.read {mem : Mem} {n : Core} {words : Addr → Word}
    (shows : Shows env mem n words) (c : DdrCall) :
    answer (read32 n.mem) c = answer words c := by
  unfold answer
  split_ifs with read
  · exact shows.words c.r1 (c.word (.inl read))
  · rfl

/-- The calls refine the memory of words. -/
private theorem serveDdr_refines (placed : env.stack.Subset secureDdr) (mem : Mem) :
    Refines (Shows env mem) (serveDdr env) wordStep := by
  intro n words c shows
  have ddr : ddrNs.Disjoint env.stack := ddrNs_disjoint.mono (Range.Subset.refl _) placed
  have apart : c.r0 = ltzvisorReadSyscall ∨ c.r0 = ltzvisorWriteSyscall →
      (⟨c.r1, 4⟩ : Range).Disjoint env.stack :=
    fun access => ddr.mono (c.word access).inside (Range.Subset.refl _)
  obtain ⟨m, served, ready, stored⟩ := serve_apart shows.ready c.negative apart
  refine ⟨m, ?_, ready, fun a word => ?_, fun x outside unused => ?_⟩
  · rw [serveDdr, served, result_answer, shows.read]
    rfl
  · have away : ∀ x ∈ (⟨a, 4⟩ : Range), m.mem x = (c.result n.mem).2 x := fun x hx =>
      stored x fun used => ddr x (word.inside x hx) (callStack_subset shows.ready x used)
    rw [read32_congr away, result_word c n.mem word, shows.words a word]
    rfl
  · rw [stored x unused, Call.result, boardHandler_mem, if_neg, shows.frame x outside unused]
    exact fun hit => outside ((c.word (.inr hit.1)).inside x hit.2)

/-- Every sequence of calls to the DDR is served: each is answered from the words that the calls
before it have left, which are those stored last, and nothing else changes. -/
theorem calls_are_memory (env : Env) (placed : env.stack.Subset secureDdr) {n : Core}
    (ready : NsReady env n) (calls : List DdrCall) :
    ∃ m results, attempt (serveDdr env) n calls = some (m, results) ∧
      (∀ k : Nat,
        results[k]? = calls[k]?.map (answer (latest (read32 n.mem) (calls.take k)))) ∧
      (∀ a, IsWord a → read32 m.mem a = latest (read32 n.mem) calls a) ∧
      ∀ x ∉ ddrNs, x ∉ callStack env → m.mem x = n.mem x := by
  have start : Shows env n.mem n (read32 n.mem) := ⟨ready, fun _ _ => rfl, fun _ _ _ => rfl⟩
  obtain ⟨m, run, shows⟩ := (serveDdr_refines placed n.mem).attempt calls start
  refine ⟨m, _, run, fun k => ?_, fun a word => ?_, shows.frame⟩
  · rw [trace_output, foldl_wordStep]
    rfl
  · rw [shows.words a word, trace_state, foldl_wordStep]

private theorem zedboardWord (i : Fin 2) : IsWord (0x00100000#32 + BitVec.ofNat 32 (4 * i)) where
  aligned := by
    revert i
    decide
  inside := Range.subset_of_offset (by
    revert i
    decide)

/-- A guest of the board stores twice to a word and once to the next, and reads both. -/
theorem calls_are_memory_zedboard : ∃ calls m results,
    attempt (serveDdr zedboard) zedboardGuest calls = some (m, results) ∧
      calls.map DdrCall.toCall =
        [⟨ltzvisorWriteSyscall, 0x00100000#32, 0x11223344#32, 0#32⟩,
          ⟨ltzvisorWriteSyscall, 0x00100004#32, 0x55667788#32, 0#32⟩,
          ⟨ltzvisorWriteSyscall, 0x00100000#32, 0x99AABBCC#32, 0#32⟩,
          ⟨ltzvisorReadSyscall, 0x00100000#32, 0#32, 0#32⟩,
          ⟨ltzvisorReadSyscall, 0x00100004#32, 0#32, 0#32⟩] ∧
      results[3]? = some 0x99AABBCC#32 ∧ results[4]? = some 0x55667788#32 := by
  let calls : List DdrCall :=
    [⟨⟨ltzvisorWriteSyscall, 0x00100000#32, 0x11223344#32, 0#32⟩, by decide,
        fun _ => zedboardWord 0⟩,
      ⟨⟨ltzvisorWriteSyscall, 0x00100004#32, 0x55667788#32, 0#32⟩, by decide,
        fun _ => zedboardWord 1⟩,
      ⟨⟨ltzvisorWriteSyscall, 0x00100000#32, 0x99AABBCC#32, 0#32⟩, by decide,
        fun _ => zedboardWord 0⟩,
      ⟨⟨ltzvisorReadSyscall, 0x00100000#32, 0#32, 0#32⟩, by decide, fun _ => zedboardWord 0⟩,
      ⟨⟨ltzvisorReadSyscall, 0x00100004#32, 0#32, 0#32⟩, by decide, fun _ => zedboardWord 1⟩]
  obtain ⟨m, results, run, answers, -⟩ :=
    calls_are_memory zedboard zedboard_placed zedboardGuest_ready calls
  refine ⟨calls, m, results, run, rfl, ?_, ?_⟩
  · rw [answers 3]
    decide +kernel
  · rw [answers 4]
    decide +kernel

end LTZVisor.Monitor.MemoryService
