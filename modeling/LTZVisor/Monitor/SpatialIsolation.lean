/- LTZVisor/Monitor/SpatialIsolation
   kind: property
   digest: What sequences of board calls change and reveal of the memory that stays secure. -/

import LTZVisor.Monitor.Guests

set_option autoImplicit false
set_option relaxedAutoImplicit false

namespace LTZVisor.Monitor.SpatialIsolation

open LTZVisor.Lib.Memory LTZVisor.Lib.Runs LTZVisor.Arm LTZVisor.Arch.Vcpu
open LTZVisor.Boards.Zedboard LTZVisor.Monitor.Macros LTZVisor.Monitor.Handlers
open LTZVisor.Monitor.Scheduler LTZVisor.Monitor.BoardSmc LTZVisor.Monitor.Switch
open LTZVisor.Monitor.Guests

/-- The arguments of an SMC. -/
structure Call where
  r0 : Word
  r1 : Word
  r2 : Word
  r3 : Word

namespace Call

/-- The guest that has put the arguments in place. -/
def on (c : Call) (n : Core) : Core :=
  (((n.put (.reg .usr .r0) c.r0).put (.reg .usr .r1) c.r1).put (.reg .usr .r2) c.r2).put
    (.reg .usr .r3) c.r3

def result (c : Call) (mem : Mem) : Word × Mem := boardHandler c.r0 c.r1 c.r2 c.r3 mem

/-- The word that the call accesses, when it accesses one, is not in secure memory. -/
def Outside (c : Call) : Prop :=
  c.r0 = ltzvisorReadSyscall ∨ c.r0 = ltzvisorWriteSyscall →
    (⟨c.r1, 4⟩ : Range).Disjoint secureDdr

end Call

def serve (env : Env) (n : Core) (c : Call) : Option (Core × Word) :=
  (monSmcHandler env (takeSmc (c.on n))).map fun m => (m, m.regs .usr .r0)

/-- The part of the stack that the calls of the non-secure guest use and leave. -/
def callStack (env : Env) : Range :=
  ⟨env.stackTop - 100#32 - BitVec.ofNat 32 (56 + env.abi.depth), 56 + env.abi.depth⟩

/-- The calls leave the secure memory, the used part of the stack apart, as it was, and give the
same results whatever it holds. -/
def Isolated (env : Env) (n : Core) (calls : List Call) : Prop :=
  ∃ m results, attempt (serve env) n calls = some (m, results) ∧
    (∀ x ∈ secureDdr, x ∉ callStack env → m.mem x = n.mem x) ∧
    ∀ mem : Mem, (∀ x ∉ secureDdr, mem x = n.mem x) →
      ∃ m', attempt (serve env) { n with mem } calls = some (m', results)

variable {env : Env} {c : Call} {n : Core}

theorem Call.on_ready (c : Call) (ready : NsReady env n) : NsReady env (c.on n) :=
  ⟨ready.sp, ready.pointer⟩

private theorem callFrames_eq (ready : NsReady env n) : callFrames env n = callStack env := by
  rw [callFrames, ready.sp, callStack]

theorem callStack_subset (ready : NsReady env n) : (callStack env).Subset env.stack := by
  rw [← callFrames_eq ready]
  exact callFrames_subset_stack (.inr ready.sp)

theorem serve_apart (ready : NsReady env n) (negative : c.r0.msb = true)
    (apart : c.r0 = ltzvisorReadSyscall ∨ c.r0 = ltzvisorWriteSyscall →
      (⟨c.r1, 4⟩ : Range).Disjoint env.stack) :
    ∃ m, serve env n c = some (m, (c.result n.mem).1) ∧ NsReady env m ∧
      ∀ x ∉ callStack env, m.mem x = (c.result n.mem).2 x := by
  have ready' := c.on_ready ready
  have misses : StoreMisses (c.on n) env.stack := fun write => apart (.inr write)
  obtain ⟨m, run⟩ := Option.ne_none_iff_exists'.mp (call_ne_none (.inr ready'.sp) negative misses)
  have call : BoardCall env (c.on n) m := ⟨negative, run⟩
  have called := call.called misses (.inr ready'.sp)
  have frames : callFrames env (c.on n) = callStack env := callFrames_eq ready'
  refine ⟨m, ?_, ready_preserved env ready' (.call call misses), ?_⟩
  · have answer : m.regs .usr .r0 = (c.result n.mem).1 := by
      rw [called.r0]
      refine boardHandler_result_congr fun read x hx => ?_
      -- The registers that the call pushes lie in the stack, and the word it reads does not.
      have pushed : (⟨(c.on n).regs .mon .sp - 56#32, 56⟩ : Range).Subset env.stack :=
        Range.Subset.trans (Range.subset_of_offset (by
          have room := env.room
          have size := env.stackSize_le
          bv_omega)) (callFrames_subset_stack (.inr ready'.sp))
      rw [entry_frame_eq]
      apply writeWords_of_not_mem
      exact fun inside => apart (.inl read) x hx (pushed x inside)
    rw [serve, run, Option.map_some, answer]
  · intro x hx
    rw [← frames] at hx
    exact called.mem x hx

theorem Call.Outside.apart (outside : c.Outside) (placed : env.stack.Subset secureDdr) :
    c.r0 = ltzvisorReadSyscall ∨ c.r0 = ltzvisorWriteSyscall →
      (⟨c.r1, 4⟩ : Range).Disjoint env.stack :=
  fun access => (outside access).mono (Range.Subset.refl _) placed

private theorem attempt_outside (placed : env.stack.Subset secureDdr) (calls : List Call)
    (fit : ∀ c ∈ calls, c.r0.msb = true ∧ c.Outside) {n n' : Core} (ready : NsReady env n)
    (ready' : NsReady env n') (same : ∀ x ∉ secureDdr, n'.mem x = n.mem x) :
    ∃ m m' results, attempt (serve env) n calls = some (m, results) ∧
      attempt (serve env) n' calls = some (m', results) ∧
      ∀ x ∈ secureDdr, x ∉ callStack env → m.mem x = n.mem x := by
  induction calls generalizing n n' with
  | nil => exact ⟨n, n', [], rfl, rfl, fun _ _ _ => rfl⟩
  | cons c calls ih =>
    obtain ⟨negative, outside⟩ := fit c (List.mem_cons_self ..)
    obtain ⟨n1, first, ready1, mem1⟩ := serve_apart ready negative (outside.apart placed)
    obtain ⟨n1', first', ready1', mem1'⟩ := serve_apart ready' negative (outside.apart placed)
    have stack := callStack_subset ready
    have answer : (c.result n'.mem).1 = (c.result n.mem).1 :=
      boardHandler_result_congr fun read x hx => same x (outside (.inl read) x hx)
    have same1 : ∀ x ∉ secureDdr, n1'.mem x = n1.mem x := by
      intro x hx
      have away : x ∉ callStack env := fun inside => hx (placed x (stack x inside))
      rw [mem1 x away, mem1' x away, Call.result, Call.result, boardHandler_mem, boardHandler_mem,
        same x hx]
    obtain ⟨m, m', results, rest, rest', kept⟩ :=
      ih (fun c hc => fit c (List.mem_cons_of_mem _ hc)) ready1 ready1' same1
    refine ⟨m, m', (c.result n.mem).1 :: results, ?_, ?_, ?_⟩
    · rw [attempt, first]
      simp only [Option.bind_eq_bind, Option.bind_some, rest]
      rfl
    · rw [attempt, first', answer]
      simp only [Option.bind_eq_bind, Option.bind_some, rest']
      rfl
    · intro x hx away
      rw [kept x hx away, mem1 x away, Call.result, boardHandler_mem, if_neg]
      exact fun hit => outside (.inr hit.1) x hit.2 hx

theorem isolated_of_outside (env : Env) (placed : env.stack.Subset secureDdr) {n : Core}
    (ready : NsReady env n) (calls : List Call)
    (fit : ∀ c ∈ calls, c.r0.msb = true ∧ c.Outside) : Isolated env n calls := by
  obtain ⟨m, -, results, run, -, kept⟩ :=
    attempt_outside placed calls fit ready ready fun _ _ => rfl
  refine ⟨m, results, run, kept, fun mem same => ?_⟩
  have ready' : NsReady env { n with mem } := ⟨ready.sp, ready.pointer⟩
  obtain ⟨m1, m', results', run', other, -⟩ := attempt_outside placed calls fit ready ready' same
  rw [run, Option.some_inj, Prod.mk.injEq] at run'
  exact ⟨m', run'.2 ▸ other⟩

theorem zedboard_placed : zedboard.stack.Subset secureDdr := Range.subset_of_offset (by decide)

/-- A guest of the board reads and writes a word of its own memory. -/
theorem isolated_of_outside_zedboard :
    Isolated zedboard zedboardGuest [⟨ltzvisorWriteSyscall, 0x00100000#32, 0xBAD#32, 0#32⟩,
      ⟨ltzvisorReadSyscall, 0x00100000#32, 0#32, 0#32⟩] := by
  refine isolated_of_outside zedboard zedboard_placed zedboardGuest_ready _ fun c hc => ?_
  have apart : (⟨0x00100000#32, 4⟩ : Range).Disjoint secureDdr :=
    Range.disjoint_of_apart (by decide) (by decide)
  simp only [List.mem_cons, List.not_mem_nil, or_false] at hc
  rcases hc with rfl | rfl
  · exact ⟨by decide, fun _ => apart⟩
  · exact ⟨by decide, fun _ => apart⟩

/-- Calls with a word of the secure memory: one stores to it, one loads from it. -/
def storeSecure : Call := ⟨ltzvisorWriteSyscall, 0x1C050000#32, 0xBAD#32, 0#32⟩
def loadSecure : Call := ⟨ltzvisorReadSyscall, 0x1C050000#32, 0#32, 0#32⟩

private theorem secure_word_apart : (⟨0x1C050000#32, 4⟩ : Range).Disjoint zedboard.stack :=
  Range.disjoint_of_apart (by decide) (by decide)

/-- Neither call leaves the secure memory to itself. -/
theorem secure_memory_reached : ¬Isolated zedboard zedboardGuest [storeSecure] ∧
    ¬Isolated zedboard zedboardGuest [loadSecure] := by
  have secure : (0x1C050000#32 : Addr) ∈ secureDdr := by decide
  have used : (0x1C050000#32 : Addr) ∉ callStack zedboard := by decide
  constructor
  · rintro ⟨m', results, run, kept, -⟩
    obtain ⟨m, first, -, mem⟩ :=
      serve_apart (c := storeSecure) zedboardGuest_ready (by decide) fun _ => secure_word_apart
    rw [attempt, first] at run
    obtain rfl : m = m' := by
      cases run
      rfl
    have same := kept _ secure used
    rw [mem _ used] at same
    exact absurd same (by decide +kernel)
  · rintro ⟨m', results, run, -, alike⟩
    -- The same core over a memory whose secure part holds ones.
    let mem : Mem := fun x => if x ∈ secureDdr then 1#8 else zedboardGuest.mem x
    obtain ⟨m'', run'⟩ := alike mem fun x hx => if_neg hx
    have ready : NsReady zedboard { zedboardGuest with mem } := ⟨rfl, rfl⟩
    obtain ⟨m1, first, -, -⟩ :=
      serve_apart (c := loadSecure) zedboardGuest_ready (by decide) fun _ => secure_word_apart
    obtain ⟨m2, second, -, -⟩ :=
      serve_apart (c := loadSecure) ready (by decide) fun _ => secure_word_apart
    rw [attempt, first] at run
    rw [attempt, second] at run'
    have zero : results = [(loadSecure.result zedboardGuest.mem).1] := by
      cases run
      rfl
    have ones : results = [(loadSecure.result mem).1] := by
      cases run'
      rfl
    rw [zero] at ones
    exact absurd (List.head_eq_of_cons_eq ones) (by decide +kernel)

end LTZVisor.Monitor.SpatialIsolation
