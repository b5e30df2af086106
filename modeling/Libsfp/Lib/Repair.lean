import Mathlib.Data.List.Basic

/-!
# Gaps That Repair Themselves

A sender sends items numbered 0, 1, 2, …, each one once as a fresh one and possibly again in bursts.
A receiver that has the first `g` items takes the item number `g` and ignores every other one; a
fresh item that it ignores makes it ask for a burst from number `g` on. `Repairs g items w` says of
the items in flight that they either bring the receiver to number `w` or make it ask again:

1. a fresh item at the end of any sequence repairs it,
2. so does a burst that begins early enough.
-/

namespace Libsfp.Lib

/-- An item in flight. -/
structure Item where
  fresh : Bool
  pos : Nat
  deriving DecidableEq, Repr

/-- How many items the receiver has after it hears one. -/
def Item.next (i : Item) (g : Nat) : Nat := if i.pos = g then g + 1 else g

/-- The receiver asks again. -/
def Item.Refused (i : Item) (g : Nat) : Prop := i.fresh = true ∧ i.pos ≠ g

def Repairs : Nat → List Item → Nat → Prop
  | g, [], w => g = w
  | g, i :: items, w => i.Refused g ∨ Repairs (i.next g) items w

/-- All items from number `n` to number `w - 1`, sent again. -/
def burst (n w : Nat) : List Item := (List.range' n (w - n)).map fun pos => ⟨false, pos⟩

variable {g n w : Nat} {i : Item} {items : List Item}

/-- The item that is expected is taken. -/
theorem Item.next_of_eq (h : i.pos = g) : i.next g = g + 1 := if_pos h

/-- Every other one is ignored. -/
theorem Item.next_of_ne (h : i.pos ≠ g) : i.next g = g := if_neg h

/-- The receiver never loses an item. -/
theorem Item.le_next (i : Item) (g : Nat) : g ≤ i.next g := by
  unfold Item.next
  split
  · exact Nat.le_succ g
  · exact Nat.le_refl g

/-- It has no more items than were sent. -/
theorem Item.next_le (hi : i.pos < w) (hg : g ≤ w) : i.next g ≤ w := by
  by_cases hpos : i.pos = g
  · rw [Item.next_of_eq hpos, ← hpos]
    exact hi
  · rw [Item.next_of_ne hpos]
    exact hg

/-- Either the fresh item is the one that is expected, or it is refused. -/
theorem repairs_append_fresh (g : Nat) (items : List Item) (w : Nat) :
    Repairs g (items ++ [⟨true, w⟩]) (w + 1) := by
  induction items generalizing g with
  | nil =>
    -- it is the expected one, or it makes the receiver ask
    by_cases hpos : w = g
    · right
      show Item.next ⟨true, w⟩ g = w + 1
      rw [Item.next_of_eq hpos, hpos]
    · exact .inl ⟨rfl, hpos⟩
  | cons i items ih => exact .inr (ih (i.next g))

/-- A receiver that has everything ignores the rest. -/
theorem repairs_of_all (h : ∀ i ∈ items, i.pos < w) : Repairs w items w := by
  induction items with
  | nil => rfl
  | cons i items ih =>
    right
    -- the receiver waits for an item that was not sent yet
    have hpos : i.pos ≠ w := Nat.ne_of_lt (h i (by simp))
    rw [Item.next_of_ne hpos]
    exact ih fun j hj => h j (List.mem_cons_of_mem i hj)

/-- A burst begins with its first item. -/
theorem burst_of_lt (h : n < w) : burst n w = ⟨false, n⟩ :: burst (n + 1) w := by
  obtain ⟨k, rfl⟩ := Nat.exists_eq_add_of_lt h
  have hlen : n + k + 1 - n = k + 1 := by omega
  have hlen' : n + k + 1 - (n + 1) = k := by omega
  rw [burst, burst, hlen, hlen', List.range'_succ]
  rfl

/-- Nothing is left to be sent again. -/
theorem burst_of_le (h : w ≤ n) : burst n w = [] := by
  rw [burst, Nat.sub_eq_zero_of_le h]
  rfl

/-- The items of a burst are those it is made of. -/
theorem pos_of_mem_burst (h : i ∈ burst n w) : n ≤ i.pos ∧ i.pos < w := by
  obtain ⟨pos, hpos, rfl⟩ := List.mem_map.mp h
  rw [List.mem_range'_1] at hpos
  show n ≤ pos ∧ pos < w
  omega

/-- What is not too far ahead of the receiver takes it to the end. -/
theorem repairs_burst (hn : n ≤ g) (hg : g ≤ w) : Repairs g (burst n w) w := by
  induction hk : w - n generalizing n g with
  | zero =>
    have hwn : w ≤ n := Nat.le_of_sub_eq_zero hk
    rw [burst_of_le hwn]
    exact Nat.le_antisymm hg (Nat.le_trans hwn hn)
  | succ k ih =>
    have hlt : n < w := Nat.lt_of_sub_eq_succ hk
    have hk' : w - (n + 1) = k := by omega
    rw [burst_of_lt hlt]
    right
    -- the burst has reached the expected item, or is still behind it
    by_cases hpos : n = g
    · subst hpos
      rw [Item.next_of_eq rfl]
      exact ih (Nat.le_refl _) hlt hk'
    · rw [Item.next_of_ne hpos]
      exact ih (Nat.lt_of_le_of_ne hn hpos) hg hk'

/-- Whatever is in flight in front of it only brings the receiver further. -/
theorem repairs_append_burst (h : ∀ i ∈ items, i.pos < w) (hn : n ≤ g) (hg : g ≤ w) :
    Repairs g (items ++ burst n w) w := by
  induction items generalizing g with
  | nil => exact repairs_burst hn hg
  | cons i items ih =>
    right
    apply ih
    · exact fun j hj => h j (List.mem_cons_of_mem i hj)
    · exact Nat.le_trans hn (i.le_next g)
    · exact Item.next_le (h i (by simp)) hg

end Libsfp.Lib
