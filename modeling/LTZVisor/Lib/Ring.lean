/- LTZVisor/Lib/Ring
   kind: library
   digest: A ring of `n` slots with a write and a read index holds a queue of at most `n - 1`. -/

import Mathlib

set_option autoImplicit false
set_option relaxedAutoImplicit false

namespace LTZVisor.Lib.Ring

universe u

variable {α : Type u} {n head tail : Nat}

/-- A bounded queue takes an entry unless it is full. -/
def offer (capacity : Nat) (queue : List α) (x : α) : List α :=
  if queue.length < capacity then queue ++ [x] else queue

/-- A batch offered to a bounded queue: what does not fit is lost at the end. -/
theorem foldl_offer {capacity : Nat} {queue : List α} (fits : queue.length ≤ capacity)
    (xs : List α) : xs.foldl (offer capacity) queue = (queue ++ xs).take capacity := by
  induction xs generalizing queue with
  | nil => rw [List.foldl_nil, List.append_nil, List.take_of_length_le fits]
  | cons x xs ih =>
    rw [List.foldl_cons]
    by_cases room : queue.length < capacity
    · have grown : (queue ++ [x]).length ≤ capacity := by
        rw [List.length_append, List.length_singleton]
        omega
      rw [offer, if_pos room, ih grown, List.append_assoc, List.singleton_append]
    · have full : queue.length = capacity := by omega
      rw [offer, if_neg room, ih fits, List.take_append_of_le_length full.ge,
        List.take_append_of_le_length full.ge]

def next (n i : Nat) : Nat := if i + 1 = n then 0 else i + 1

def count (n head tail : Nat) : Nat := if tail ≤ head then head - tail else n + head - tail

def slot (n tail i : Nat) : Nat := if tail + i < n then tail + i else tail + i - n

def contents (n : Nat) (data : Nat → α) (head tail : Nat) : List α :=
  (List.range (count n head tail)).map fun i => data (slot n tail i)

@[simp] theorem contents_length (data : Nat → α) :
    (contents n data head tail).length = count n head tail := by
  simp [contents]

theorem next_lt (h : head < n) : next n head < n := by
  unfold next
  split <;> omega

theorem count_lt (h : head < n) (t : tail < n) : count n head tail < n := by
  unfold count
  split <;> omega

private theorem count_eq_zero_iff (t : tail < n) : count n head tail = 0 ↔ head = tail := by
  unfold count
  split <;> omega

theorem next_eq_iff_full (h : head < n) (t : tail < n) :
    next n head = tail ↔ count n head tail = n - 1 := by
  unfold next count
  split <;> split <;> omega

theorem contents_eq_nil_iff (t : tail < n) (data : Nat → α) :
    contents n data head tail = [] ↔ head = tail := by
  rw [← List.length_eq_zero_iff, contents_length, count_eq_zero_iff t]

private theorem slot_lt (t : tail < n) {i : Nat} (hi : i < n) : slot n tail i < n := by
  unfold slot
  split <;> omega

private theorem slot_ne_head (t : tail < n) {i : Nat} (hi : i < count n head tail) :
    slot n tail i ≠ head := by
  unfold slot
  unfold count at hi
  split at hi <;> split <;> omega

private theorem slot_count (h : head < n) (t : tail < n) :
    slot n tail (count n head tail) = head := by
  unfold slot count
  split <;> split <;> omega

/-- An entry stored at the write index joins the end of the queue. -/
theorem contents_push {data data' : Nat → α} {x : α} (h : head < n) (t : tail < n)
    (room : next n head ≠ tail) (stored : data' head = x)
    (kept : ∀ i < n, i ≠ head → data' i = data i) :
    contents n data' (next n head) tail = contents n data head tail ++ [x] := by
  have grown : count n (next n head) tail = count n head tail + 1 := by
    unfold next at room
    unfold count next
    split_ifs at room ⊢ <;> omega
  have bound := count_lt h t
  rw [contents, grown, List.range_succ, List.map_append, List.map_singleton, slot_count h t, stored]
  congr 1
  apply List.map_congr_left
  intro i hi
  have hi' : i < count n head tail := List.mem_range.mp hi
  exact kept _ (slot_lt t (hi'.trans bound)) (slot_ne_head t hi')

/-- The entry at the read index is the first of the queue, and the rest follows it. -/
theorem contents_pop (data : Nat → α) (h : head < n) (t : tail < n) (some : head ≠ tail) :
    contents n data head tail = data tail :: contents n data head (next n tail) := by
  have shrunk : count n head tail = count n head (next n tail) + 1 := by
    unfold count next
    split_ifs <;> omega
  have first : slot n tail 0 = tail := by
    unfold slot
    split <;> omega
  rw [contents, contents, shrunk, List.range_succ_eq_map, List.map_cons, first, List.map_map]
  congr 1
  apply List.map_congr_left
  intro i hi
  have hi' : i < count n head (next n tail) := List.mem_range.mp hi
  have bound := count_lt h (next_lt t)
  have same : slot n tail (i + 1) = slot n (next n tail) i := by
    unfold slot
    unfold count at hi'
    unfold next at hi' ⊢
    split_ifs at hi' ⊢ <;> omega
  exact congrArg data same

end LTZVisor.Lib.Ring
