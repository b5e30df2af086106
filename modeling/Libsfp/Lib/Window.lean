import Mathlib.Data.List.Basic

/-!
# Positions Behind Cyclic Labels

A stream of items numbered 0, 1, 2, … is sent under labels modulo `N`. Stale and repeated items may
be in flight in any order, so a label alone does not say which item it stands for. It does as long
as no item in flight is `N` or more behind an item in front of it (`Near`): then an item whose label
is the expected one, and that is not too far ahead either, is the expected one.
-/

namespace Libsfp.Lib

/-- Going through the positions, none is `N` or more below the bound; the bound starts at `m` and is
always above the positions passed. -/
def Near (N : Nat) : Nat → List Nat → Prop
  | _, [] => True
  | m, p :: ps => m < p + N ∧ Near N (max m (p + 1)) ps

variable {N m m' s k : Nat} {ps qs : List Nat}

/-- A lower bound is less to keep up with. -/
theorem Near.anti (h : Near N m ps) (hm : m' ≤ m) : Near N m' ps := by
  induction ps generalizing m m' with
  | nil => trivial
  | cons p ps ih =>
    obtain ⟨hp, hps⟩ := h
    exact ⟨Nat.lt_of_le_of_lt hm hp, ih hps (by omega)⟩

/-- Losing items brings nothing closer to the limit. -/
theorem Near.sublist (h : Near N m ps) (hs : qs.Sublist ps) : Near N m qs := by
  induction hs generalizing m with
  | slnil => trivial
  | cons p _ ih => exact ih (h.2.anti (Nat.le_max_left _ _))
  | cons_cons p _ ih => exact ⟨h.1, ih h.2⟩

/-- A burst of consecutive positions that ends at the top. -/
theorem near_range' (hm : m ≤ s + k) (hk : k < N) : Near N m (List.range' s k) := by
  induction k generalizing s m with
  | zero => trivial
  | succ k ih =>
    rw [List.range'_succ]
    -- the burst is shorter than a cycle of labels, so its first item is near enough
    exact ⟨by omega, ih (by omega) (by omega)⟩

/-- Such a burst may follow anything below the top. -/
theorem Near.append_range' (h : Near N m ps) (hps : ∀ p ∈ ps, p < s + k) (hm : m ≤ s + k)
    (hk : k < N) : Near N m (ps ++ List.range' s k) := by
  induction ps generalizing m with
  | nil => exact near_range' hm hk
  | cons p ps ih =>
    obtain ⟨hp, hrest⟩ := h
    have hlt : p < s + k := hps p (by simp)
    exact ⟨hp, ih hrest (fun q hq => hps q (by simp [hq])) (by omega)⟩

/-- Two positions less than `N` apart with the same label are the same. -/
theorem eq_of_label_eq {p d : Nat} (h : p % N = d % N) (hd : d < p + N) (hp : p < d + N) :
    p = d := by
  -- hle | the difference is a multiple of `N` below `N`
  rcases Nat.le_total p d with hle | hle
  · have hmod : (d - p) % N = 0 := Nat.sub_mod_eq_zero_of_mod_eq h.symm
    rw [Nat.mod_eq_of_lt (by omega)] at hmod
    omega
  · have hmod : (p - d) % N = 0 := Nat.sub_mod_eq_zero_of_mod_eq h
    rw [Nat.mod_eq_of_lt (by omega)] at hmod
    omega

end Libsfp.Lib
