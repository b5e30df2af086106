import Mathlib.Data.List.Basic
import Mathlib.Logic.Function.Iterate

/-!
# Containers by Contract

Two queues that a program may take from elsewhere, each as a type with its operations, what an
observer sees of it, and the laws that the operations keep. What is proved of a program over such a
class holds for every container that keeps the laws; a model over lists shows that they can be kept.

1. `RingBuffer`: a bounded queue that makes room for a new entry by dropping its oldest one;
2. `ProducerConsumer`: a queue at which items wait for consumers or consumers for items.
-/

namespace Libsfp.Lib

universe u v

/-! ## Ring buffers -/

/-- Queues of at most `capacity` entries. -/
class RingBuffer where
  Buffer : Type u → Nat → Type u
  /-- What the buffer holds, oldest entry first. -/
  entries {α : Type u} {capacity : Nat} : Buffer α capacity → List α
  empty {α : Type u} {capacity : Nat} : Buffer α capacity
  size {α : Type u} {capacity : Nat} : Buffer α capacity → Nat
  pushBack {α : Type u} {capacity : Nat} : Buffer α capacity → α → Buffer α capacity
  popFront {α : Type u} {capacity : Nat} : Buffer α capacity → Buffer α capacity
  length_entries_le {α : Type u} {capacity : Nat} (r : Buffer α capacity) :
    (entries r).length ≤ capacity
  entries_empty {α : Type u} {capacity : Nat} : entries (empty : Buffer α capacity) = []
  size_eq {α : Type u} {capacity : Nat} (r : Buffer α capacity) : size r = (entries r).length
  /-- A full buffer drops its oldest entry. -/
  entries_pushBack {α : Type u} {capacity : Nat} (r : Buffer α capacity) (a : α) :
    entries (pushBack r a)
      = (entries r ++ [a]).drop ((entries r).length + 1 - capacity)
  entries_popFront {α : Type u} {capacity : Nat} (r : Buffer α capacity) :
    entries (popFront r) = (entries r).tail

/-- A list that is not too long. -/
structure BoundedList (α : Type u) (capacity : Nat) where
  entries : List α
  length_le : entries.length ≤ capacity

namespace BoundedList

variable {α : Type u} {capacity : Nat}

def pushBack (r : BoundedList α capacity) (a : α) : BoundedList α capacity where
  entries := (r.entries ++ [a]).drop (r.entries.length + 1 - capacity)
  length_le := by simp; omega

def popFront (r : BoundedList α capacity) : BoundedList α capacity where
  entries := r.entries.tail
  length_le := by
    have hle := r.length_le
    simp only [List.length_tail]
    omega

end BoundedList

/-- Bounded lists keep the laws of ring buffers. -/
@[reducible] def RingBuffer.ofLists : RingBuffer where
  Buffer := BoundedList
  entries := BoundedList.entries
  empty := ⟨[], Nat.zero_le _⟩
  size r := r.entries.length
  pushBack := BoundedList.pushBack
  popFront := BoundedList.popFront
  length_entries_le := BoundedList.length_le
  entries_empty := rfl
  size_eq _ := rfl
  entries_pushBack _ _ := rfl
  entries_popFront _ := rfl

/-! ## Producers and consumers -/

/-- Queues at which items and consumers meet: those that come first wait for the others, so never
both of them wait. -/
class ProducerConsumer (Consumer : Type u) (Item : Type v) where
  Queue : Type (max u v)
  /-- The consumers that wait, oldest first. -/
  consumers : Queue → List Consumer
  /-- The items that wait, oldest first. -/
  items : Queue → List Item
  empty : Queue
  /-- A negative depth counts the waiting consumers. -/
  depth : Queue → Int
  /-- Hands the item to the oldest consumer, if there is one. -/
  produce : Item → Queue → Option Consumer × Queue
  /-- Takes the oldest item, or waits. -/
  consume : Consumer → Queue → Option Item × Queue
  one_sided (q : Queue) : consumers q = [] ∨ items q = []
  consumers_empty : consumers empty = []
  items_empty : items empty = []
  depth_eq (q : Queue) : depth q = (items q).length - (consumers q).length
  produce_handed {q : Queue} {c : Consumer} {cs : List Consumer} (x : Item)
    (h : consumers q = c :: cs) :
    (produce x q).1 = some c ∧ consumers (produce x q).2 = cs ∧ items (produce x q).2 = []
  produce_stored {q : Queue} (x : Item) (h : consumers q = []) :
    (produce x q).1 = none ∧ consumers (produce x q).2 = [] ∧
      items (produce x q).2 = items q ++ [x]
  consume_taken {q : Queue} {x : Item} {xs : List Item} (c : Consumer) (h : items q = x :: xs) :
    (consume c q).1 = some x ∧ consumers (consume c q).2 = [] ∧ items (consume c q).2 = xs
  consume_waits {q : Queue} (c : Consumer) (h : items q = []) :
    (consume c q).1 = none ∧ consumers (consume c q).2 = consumers q ++ [c] ∧
      items (consume c q).2 = []

namespace ProducerConsumer

variable {Consumer : Type u} {Item : Type v}

section Laws

variable [ProducerConsumer Consumer Item]

/-- A consumer waits exactly when the depth is negative. -/
theorem depth_neg_iff (q : Queue Consumer Item) : depth q < 0 ↔ consumers q ≠ [] := by
  rw [depth_eq]
  rcases one_sided q with h | h
  · rw [h]
    simp
  · rw [h, ← List.length_pos_iff]
    simp only [List.length_nil]
    omega

/-- A positive depth counts the waiting items. -/
theorem depth_toNat (q : Queue Consumer Item) : (depth q).toNat = (items q).length := by
  rw [depth_eq]
  rcases one_sided q with h | h
  · rw [h]
    simp
  · rw [h]
    simp only [List.length_nil]
    omega

/-- `c` consumes as long as items wait: each round takes one. -/
def drain (c : Consumer) (q : Queue Consumer Item) : Queue Consumer Item :=
  (fun q => (consume c q).2)^[(depth q).toNat] q

/-- Items go, and nobody waits for them. -/
theorem iterate_consume (c : Consumer) {n : Nat} {q : Queue Consumer Item}
    (hn : (items q).length = n) :
    items ((fun q => (consume c q).2)^[n] q) = [] ∧
      consumers ((fun q => (consume c q).2)^[n] q) = consumers q := by
  induction n generalizing q with
  | zero => exact ⟨List.length_eq_zero_iff.mp hn, rfl⟩
  | succ n ih =>
    obtain ⟨x, xs, hitems⟩ := List.exists_cons_of_length_eq_add_one hn
    obtain ⟨-, hconsumers, hrest⟩ := consume_taken c hitems
    have hlength : (items (consume c q).2).length = n := by
      rw [hitems] at hn
      rw [hrest]
      exact Nat.succ.inj hn
    obtain ⟨hnone, hsame⟩ := ih hlength
    -- items waited, so no consumer did
    have hnobody : consumers q = [] := (one_sided q).resolve_right (by simp [hitems])
    rw [Function.iterate_succ_apply]
    exact ⟨hnone, hsame.trans (hconsumers.trans hnobody.symm)⟩

/-- Nothing waits behind a consumer that takes everything, -/
theorem items_drain (c : Consumer) (q : Queue Consumer Item) : items (drain c q) = [] :=
  (iterate_consume c (depth_toNat q).symm).1

/-- and nobody waits who did not wait before. -/
theorem consumers_drain (c : Consumer) (q : Queue Consumer Item) :
    consumers (drain c q) = consumers q :=
  (iterate_consume c (depth_toNat q).symm).2

end Laws

/-- A list of consumers and a list of items, not both with something in it. -/
structure TwoLists (Consumer : Type u) (Item : Type v) where
  consumers : List Consumer
  items : List Item
  one_sided : consumers = [] ∨ items = []

namespace TwoLists

def produce (x : Item) (q : TwoLists Consumer Item) :
    Option Consumer × TwoLists Consumer Item :=
  match q.consumers with
  | c :: cs => (some c, ⟨cs, [], .inr rfl⟩)
  | [] => (none, ⟨[], q.items ++ [x], .inl rfl⟩)

def consume (c : Consumer) (q : TwoLists Consumer Item) :
    Option Item × TwoLists Consumer Item :=
  match q.items with
  | x :: xs => (some x, ⟨[], xs, .inl rfl⟩)
  | [] => (none, ⟨q.consumers ++ [c], [], .inr rfl⟩)

end TwoLists

/-- Pairs of lists keep the laws. -/
@[reducible] def ofLists : ProducerConsumer Consumer Item where
  Queue := TwoLists Consumer Item
  consumers := TwoLists.consumers
  items := TwoLists.items
  empty := ⟨[], [], .inl rfl⟩
  depth q := q.items.length - q.consumers.length
  produce := TwoLists.produce
  consume := TwoLists.consume
  one_sided := TwoLists.one_sided
  consumers_empty := rfl
  items_empty := rfl
  depth_eq _ := rfl
  produce_handed x h := by simp [TwoLists.produce, h]
  produce_stored x h := by simp [TwoLists.produce, h]
  consume_taken c h := by simp [TwoLists.consume, h]
  consume_waits c h := by simp [TwoLists.consume, h]

end ProducerConsumer

end Libsfp.Lib
