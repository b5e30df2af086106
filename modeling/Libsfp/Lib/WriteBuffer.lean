import Libsfp.Lib.Runs

/-!
# Write Buffers

A buffer of bounded capacity in front of a sink. An item that finds the buffer full has it flushed
first, so the sink is given the items in chunks. Nothing an item is followed or preceded by has a
part in where the chunks end, and the chunks say nothing but the items:

1. what the sink was given and what waits is what was pushed, in order (`contents_run`),
2. every chunk is full, except for one that is flushed at the end (`filled_run`), and that one is
   not empty either.
-/

namespace Libsfp.Lib

variable {α : Type*}

/-- The chunks given to the sink so far, and the items that wait in front of it. -/
structure WriteBuffer (α : Type*) where
  chunks : List (List α)
  pending : List α
  deriving DecidableEq, Repr

namespace WriteBuffer

/-- Nothing waits, and the sink was given nothing. -/
def empty : WriteBuffer α := ⟨[], []⟩

/-- The items that wait become a chunk, even if there are none. -/
def flush (b : WriteBuffer α) : WriteBuffer α := ⟨b.chunks ++ [b.pending], []⟩

/-- An item is put behind the others, once there is room for it. -/
def push (capacity : Nat) (b : WriteBuffer α) (a : α) : WriteBuffer α :=
  let b := if capacity ≤ b.pending.length then b.flush else b
  { b with pending := b.pending ++ [a] }

/-- All the items, given to the sink or waiting. -/
def contents (b : WriteBuffer α) : List α := b.chunks.flatten ++ b.pending

/-- The same buffer in front of a sink that was given `chunks` before. -/
def after (chunks : List (List α)) (b : WriteBuffer α) : WriteBuffer α :=
  { b with chunks := chunks ++ b.chunks }

/-- Every chunk is full, and no more items wait than there is room for. -/
structure Filled (capacity : Nat) (b : WriteBuffer α) : Prop where
  chunks : ∀ c ∈ b.chunks, c.length = capacity
  pending : b.pending.length ≤ capacity

variable {capacity : Nat} {b : WriteBuffer α}

/-- A full buffer is flushed to make room. -/
theorem push_of_full (h : capacity ≤ b.pending.length) (a : α) :
    b.push capacity a = ⟨b.chunks ++ [b.pending], [a]⟩ := by
  rw [push, if_pos h]
  rfl

/-- With room left the sink is given nothing. -/
theorem push_of_room (h : b.pending.length < capacity) (a : α) :
    b.push capacity a = ⟨b.chunks, b.pending ++ [a]⟩ := by
  rw [push, if_neg (Nat.not_le_of_lt h)]

/-! ## Contents -/

/-- A flush moves what waits and changes no item. -/
theorem contents_flush (b : WriteBuffer α) : b.flush.contents = b.contents := by
  simp [flush, contents]

/-- An item is put behind all the others. -/
theorem contents_push (capacity : Nat) (b : WriteBuffer α) (a : α) :
    (b.push capacity a).contents = b.contents ++ [a] := by
  rcases Nat.lt_or_ge b.pending.length capacity with hroom | hfull
  · rw [push_of_room hroom]
    simp [contents]
  · rw [push_of_full hfull]
    simp [contents]

/-- **Nothing is lost, doubled or moved.** -/
theorem contents_run (capacity : Nat) (b : WriteBuffer α) (as : List α) :
    (run (push capacity) b as).contents = b.contents ++ as := by
  induction as generalizing b with
  | nil => rw [run_nil, List.append_nil]
  | cons a as ih => rw [run_cons, ih, contents_push, List.append_assoc, List.singleton_append]

/-! ## Chunks -/

/-- The empty buffer is as it should be. -/
theorem filled_empty (capacity : Nat) : (empty : WriteBuffer α).Filled capacity :=
  ⟨fun _ hc => absurd hc List.not_mem_nil, Nat.zero_le _⟩

/-- An item that makes the buffer overflow leaves a full chunk behind. -/
theorem Filled.push (hcapacity : 0 < capacity) (h : b.Filled capacity) (a : α) :
    (b.push capacity a).Filled capacity := by
  rcases Nat.lt_or_ge b.pending.length capacity with hroom | hfull
  · rw [push_of_room hroom]
    refine ⟨h.chunks, ?_⟩
    rw [List.length_append, List.length_singleton]
    exact hroom
  · rw [push_of_full hfull]
    refine ⟨?_, hcapacity⟩
    intro c hc
    rcases List.mem_append.mp hc with hc | hc
    · exact h.chunks c hc
    · -- the chunk that made room
      rw [List.mem_singleton.mp hc]
      exact Nat.le_antisymm h.pending hfull

/-- **Chunks are full** in front of whatever still waits. -/
theorem filled_run (hcapacity : 0 < capacity) (h : b.Filled capacity) (as : List α) :
    (run (push capacity) b as).Filled capacity :=
  run_invariant_of_step (fun _ a hb => hb.push hcapacity a) as h

/-- An item that was pushed waits. -/
theorem pending_push_ne_nil (capacity : Nat) (b : WriteBuffer α) (a : α) :
    (b.push capacity a).pending ≠ [] :=
  List.append_ne_nil_of_right_ne_nil _ (List.cons_ne_nil a [])

/-- The last item pushed always waits. -/
theorem pending_run_ne_nil (capacity : Nat) (b : WriteBuffer α) {as : List α} (has : as ≠ []) :
    (run (push capacity) b as).pending ≠ [] := by
  induction as generalizing b with
  | nil => exact absurd rfl has
  | cons a as ih =>
    rw [run_cons]
    by_cases hnil : as = []
    · rw [hnil]
      exact pending_push_ne_nil capacity b a
    · exact ih _ hnil

/-! ## A sink that was used before -/

/-- What the sink was given before has no part in what a push does, -/
theorem push_after (capacity : Nat) (chunks : List (List α)) (b : WriteBuffer α) (a : α) :
    (b.after chunks).push capacity a = (b.push capacity a).after chunks := by
  rcases Nat.lt_or_ge b.pending.length capacity with hroom | hfull
  · rw [push_of_room hroom]
    exact push_of_room (b := b.after chunks) hroom a
  · rw [push_of_full hfull]
    refine (push_of_full (b := b.after chunks) hfull a).trans ?_
    simp [after]

/-- nor in what a run does. -/
theorem run_push_after (capacity : Nat) (chunks : List (List α)) (b : WriteBuffer α)
    (as : List α) :
    run (push capacity) (b.after chunks) as = (run (push capacity) b as).after chunks := by
  induction as generalizing b with
  | nil => rfl
  | cons a as ih => rw [run_cons, push_after, ih, run_cons]

/-- **Buffered output.** Items pushed into an empty buffer that is flushed at the end reach the sink
in chunks that are not empty and not longer than the buffer, and that are the items when they are
put together. -/
theorem chunks_flush_run (hcapacity : 0 < capacity) (chunks : List (List α)) {as : List α}
    (has : as ≠ []) :
    ∃ new, (run (push capacity) ⟨chunks, []⟩ as).flush.chunks = chunks ++ new ∧
      new.flatten = as ∧ ∀ c ∈ new, c ≠ [] ∧ c.length ≤ capacity := by
  -- start from an unused sink, and put the earlier chunks in front at the end
  have hused : (⟨chunks, []⟩ : WriteBuffer α) = empty.after chunks := by simp [after, empty]
  have hfilled := filled_run hcapacity (filled_empty capacity) as
  have hpending := pending_run_ne_nil capacity empty has
  have hcontents := contents_run capacity empty as
  rw [hused, run_push_after]
  generalize run (push capacity) empty as = b at *
  refine ⟨b.flush.chunks, ?_, ?_, ?_⟩
  · simp [flush, after]
  · -- nothing waits any more
    rw [← contents_flush, contents, flush, List.append_nil] at hcontents
    exact hcontents
  · intro c hc
    rcases List.mem_append.mp hc with hc | hc
    · have hlen := hfilled.chunks c hc
      refine ⟨?_, Nat.le_of_eq hlen⟩
      rintro rfl
      exact absurd hlen (Nat.ne_of_lt hcapacity)
    · -- the rest that is flushed at the end
      rw [List.mem_singleton.mp hc]
      exact ⟨hpending, hfilled.pending⟩

end WriteBuffer

end Libsfp.Lib
