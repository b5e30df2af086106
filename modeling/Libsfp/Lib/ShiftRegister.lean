import Mathlib.Data.List.Count
import Mathlib.Dynamics.PeriodicPts.Defs
import Mathlib.Data.Nat.Prime.Basic

/-!
# Linear Shift Registers

A register that is shifted once for each input bit, where shifting is linear over exclusive or and
loses nothing. Checking a string of bits against such a register detects an error pattern exactly
when the pattern alone, fed into the empty register, does not leave it empty. From that:

1. a single flipped bit is always detected,
2. an odd number of flipped bits is, if the register has a parity that shifting preserves,
3. two flipped bits are, unless their distance is a period of the input position,
4. flipped bits within the width of the register are, if the positions are independent; so strings
   that fit the register leave it in different places.
-/

namespace Libsfp.Lib

/-- A point that returns after `n` steps, and after no `n / p` for a prime `p`, has period `n`. -/
theorem isPeriodicPt_iff_dvd {α : Type*} {f : α → α} {x : α} {n : Nat} (hn : 0 < n)
    (hreturn : Function.IsPeriodicPt f n x)
    (hprime : ∀ p, p.Prime → p ∣ n → ¬ Function.IsPeriodicPt f (n / p) x) (m : Nat) :
    Function.IsPeriodicPt f m x ↔ n ∣ m := by
  have hpos : 0 < Function.minimalPeriod f x := hreturn.minimalPeriod_pos hn
  obtain ⟨a, ha⟩ := hreturn.minimalPeriod_dvd
  -- `n` is a multiple of the period; the cofactor must be 1
  have ha1 : a = 1 := by
    by_contra hne
    -- a prime factor of the cofactor would leave a shorter return
    have hdvd : a.minFac ∣ n := ha ▸ (a.minFac_dvd.trans (Nat.dvd_mul_left a _))
    apply hprime a.minFac (Nat.minFac_prime hne) hdvd
    rw [Function.isPeriodicPt_iff_minimalPeriod_dvd]
    obtain ⟨b, hb⟩ := a.minFac_dvd
    have hquot : n / a.minFac = Function.minimalPeriod f x * b := by
      apply Nat.div_eq_of_eq_mul_left (Nat.minFac_pos a)
      rw [ha, Nat.mul_assoc, Nat.mul_comm b, ← hb]
    rw [hquot]
    exact Nat.dvd_mul_right _ _
  rw [ha1, Nat.mul_one] at ha
  rw [ha, Function.isPeriodicPt_iff_minimalPeriod_dvd]

/-- A linear shift register. -/
structure ShiftRegister (R : Type*) where
  xor : R → R → R
  zero : R
  xor_assoc : ∀ a b c, xor (xor a b) c = xor a (xor b c)
  xor_comm : ∀ a b, xor a b = xor b a
  xor_self : ∀ a, xor a a = zero
  xor_zero : ∀ a, xor a zero = a
  shift : R → R
  shift_xor : ∀ a b, shift (xor a b) = xor (shift a) (shift b)
  shift_eq_zero : ∀ a, shift a = zero → a = zero
  /-- What an input bit that is set adds to the register. -/
  one : R
  one_ne_zero : one ≠ zero

namespace ShiftRegister

variable {R : Type*} (S : ShiftRegister R)

/-! ## The group -/

/-- Zero is neutral on the left as well. -/
theorem zero_xor (a : R) : S.xor S.zero a = a := by rw [S.xor_comm, S.xor_zero]

/-- Adding twice is adding nothing. -/
theorem xor_cancel_left (a b : R) : S.xor a (S.xor a b) = b := by
  rw [← S.xor_assoc, S.xor_self, S.zero_xor]

/-- Two registers that differ by nothing are equal. -/
theorem xor_eq_zero {a b : R} : S.xor a b = S.zero ↔ a = b := by
  refine ⟨fun h => ?_, fun h => h ▸ S.xor_self a⟩
  calc a = S.xor a S.zero := (S.xor_zero a).symm
    _ = S.xor a (S.xor a b) := by rw [h]
    _ = b := S.xor_cancel_left a b

/-- The inner two of four can be exchanged. -/
theorem xor_xor_xor_comm (a b c d : R) :
    S.xor (S.xor a b) (S.xor c d) = S.xor (S.xor a c) (S.xor b d) := by
  rw [S.xor_assoc, S.xor_assoc, ← S.xor_assoc b c d, S.xor_comm b c, S.xor_assoc]

/-- The empty register stays empty. -/
theorem shift_zero : S.shift S.zero = S.zero := by
  have h := S.shift_xor S.zero S.zero
  rw [S.xor_self, S.xor_self] at h
  exact h

/-- Any number of shifts is linear, -/
theorem iterate_shift_xor (n : Nat) (a b : R) :
    S.shift^[n] (S.xor a b) = S.xor (S.shift^[n] a) (S.shift^[n] b) := by
  induction n generalizing a b with
  | zero => rfl
  | succ n ih => rw [Function.iterate_succ_apply, S.shift_xor, ih]; rfl

/-- loses nothing, -/
theorem iterate_shift_eq_zero {n : Nat} {a : R} (h : S.shift^[n] a = S.zero) : a = S.zero := by
  induction n generalizing a with
  | zero => exact h
  | succ n ih => exact S.shift_eq_zero a (ih h)

/-- and leaves the empty register empty. -/
theorem iterate_shift_zero (n : Nat) : S.shift^[n] S.zero = S.zero :=
  Function.iterate_fixed S.shift_zero n

/-! ## Feeding -/

/-- What an input bit adds to the register. -/
def input (b : Bool) : R := if b then S.one else S.zero

/-- Input bits add up as registers do. -/
theorem input_xor (a b : Bool) : S.input (a ^^ b) = S.xor (S.input a) (S.input b) := by
  cases a <;> cases b <;> simp [input, S.xor_self, S.xor_zero, S.zero_xor]

/-- The register after the bits of a string. -/
def feed (r : R) (bits : List Bool) : R :=
  bits.foldl (fun r b => S.shift (S.xor r (S.input b))) r

@[simp] theorem feed_nil (r : R) : S.feed r [] = r := rfl

@[simp] theorem feed_cons (r : R) (b : Bool) (bits : List Bool) :
    S.feed r (b :: bits) = S.feed (S.shift (S.xor r (S.input b))) bits := rfl

/-- A string can be fed in two parts. -/
theorem feed_append (r : R) (l k : List Bool) : S.feed r (l ++ k) = S.feed (S.feed r l) k := by
  simp [feed]

/-- Feeding is linear in the register and the string together. -/
theorem feed_xor (r s : R) {l k : List Bool} (hlen : l.length = k.length) :
    S.feed (S.xor r s) (List.zipWith (· ^^ ·) l k) = S.xor (S.feed r l) (S.feed s k) := by
  induction l generalizing r s k with
  | nil =>
    obtain rfl : k = [] := List.eq_nil_of_length_eq_zero hlen.symm
    rfl
  | cons a l ih =>
    cases k with
    | nil => cases hlen
    | cons b k =>
      rw [List.zipWith_cons_cons, feed_cons, feed_cons, feed_cons, S.input_xor,
        S.xor_xor_xor_comm, S.shift_xor]
      exact ih _ _ (Nat.succ.inj hlen)

/-- Bits that are not set only shift the register. -/
theorem feed_replicate_false (r : R) (n : Nat) :
    S.feed r (List.replicate n false) = S.shift^[n] r := by
  induction n generalizing r with
  | zero => rfl
  | succ n ih =>
    rw [List.replicate_succ, feed_cons, ih, Function.iterate_succ_apply]
    rw [show S.input false = S.zero from rfl, S.xor_zero]

/-- The syndrome of an error pattern: what it leaves in the empty register. -/
def syndrome (errors : List Bool) : R := S.feed S.zero errors

/-- **An error is noticed exactly when its syndrome is not zero.** -/
theorem feed_eq_iff (r : R) {l k : List Bool} (hlen : l.length = k.length) :
    S.feed r l = S.feed r k ↔ S.syndrome (List.zipWith (· ^^ ·) l k) = S.zero := by
  have h := S.feed_xor r r hlen
  rw [S.xor_self] at h
  rw [syndrome, h, S.xor_eq_zero]

/-- What comes before the first flipped bit has no part in the syndrome. -/
theorem syndrome_replicate_append (n : Nat) (l : List Bool) :
    S.syndrome (List.replicate n false ++ l) = S.syndrome l := by
  rw [syndrome, feed_append, feed_replicate_false, S.iterate_shift_zero, syndrome]

/-- What comes after the last flipped bit only shifts it. -/
theorem syndrome_append_replicate (l : List Bool) (n : Nat) :
    S.syndrome (l ++ List.replicate n false) = S.shift^[n] (S.syndrome l) := by
  rw [syndrome, feed_append, feed_replicate_false, syndrome]

/-- A first flipped bit is in the register when the rest is fed. -/
theorem syndrome_true_cons (l : List Bool) :
    S.syndrome (true :: l) = S.feed (S.shift S.one) l := by
  rw [syndrome, feed_cons, S.zero_xor]
  rfl

/-! ## Error patterns -/

/-- The pattern up to its first flipped bit. -/
theorem exists_first_true {l : List Bool} (h : true ∈ l) :
    ∃ i rest, l = List.replicate i false ++ true :: rest := by
  induction l with
  | nil => cases h
  | cons b l ih =>
    cases b with
    | true => exact ⟨0, l, rfl⟩
    | false =>
      obtain ⟨i, rest, rfl⟩ := ih (by simpa using h)
      exact ⟨i + 1, rest, rfl⟩

/-- A pattern without flipped bits. -/
theorem eq_replicate_of_notMem {l : List Bool} (h : true ∉ l) :
    l = List.replicate l.length false := by
  rw [List.eq_replicate_iff]
  refine ⟨rfl, fun b hb => ?_⟩
  cases b with
  | true => exact absurd hb h
  | false => rfl

/-- Strings that no bit is flipped between are equal. -/
theorem eq_of_notMem_zipWith_xor {l k : List Bool} (hlen : l.length = k.length)
    (h : true ∉ List.zipWith (· ^^ ·) l k) : l = k := by
  induction l generalizing k with
  | nil => exact (List.eq_nil_of_length_eq_zero hlen.symm).symm
  | cons a l ih =>
    cases k with
    | nil => cases hlen
    | cons b k =>
      rw [List.zipWith_cons_cons, List.mem_cons, not_or] at h
      have hhead : a = b := by
        cases a <;> cases b <;> first | rfl | exact absurd rfl h.1
      rw [hhead, ih (Nat.succ.inj hlen) h.2]

/-- The pattern of two flipped bits. -/
theorem exists_two_true {l : List Bool} (h : l.count true = 2) :
    ∃ i d k, l = List.replicate i false ++ true :: (List.replicate d false ++
      true :: List.replicate k false) := by
  have hmem : true ∈ l := List.count_pos_iff.mp (by omega)
  -- the first flipped bit, then the first one behind it
  obtain ⟨i, rest, rfl⟩ := exists_first_true hmem
  have hrest : rest.count true = 1 := by
    simpa [List.count_append, List.count_replicate] using h
  have hmem' : true ∈ rest := List.count_pos_iff.mp (by omega)
  obtain ⟨d, rest, rfl⟩ := exists_first_true hmem'
  -- and there is no third one
  have hlast : true ∉ rest := by
    apply List.count_eq_zero.mp
    simpa [List.count_append, List.count_replicate] using hrest
  exact ⟨i, d, rest.length, by rw [← eq_replicate_of_notMem hlast]⟩

/-- The two flipped bits are where the pattern says. -/
theorem getElem?_two_true (i d k p : Nat) :
    (List.replicate i false ++ true :: (List.replicate d false ++
      true :: List.replicate k false))[p]? = some true ↔ p = i ∨ p = i + d + 1 := by
  -- rfl | h | in front of the first flipped bit, at it, or behind it
  rcases Nat.lt_trichotomy p i with h | rfl | h
  · rw [List.getElem?_append_left (by simpa using h)]
    simp [h]
    omega
  · simp
  · obtain ⟨q, rfl⟩ := Nat.exists_eq_add_of_lt h
    rw [List.getElem?_append_right (by simp; omega), List.length_replicate,
      show i + q + 1 - i = q + 1 by omega, List.getElem?_cons_succ]
    -- rfl | h | the same around the second one
    rcases Nat.lt_trichotomy q d with h | rfl | h
    · rw [List.getElem?_append_left (by simpa using h)]
      simp [h]
      omega
    · simp
    · obtain ⟨r, rfl⟩ := Nat.exists_eq_add_of_lt h
      rw [List.getElem?_append_right (by simp; omega), List.length_replicate,
        show d + r + 1 - d = r + 1 by omega, List.getElem?_cons_succ]
      simp [List.getElem?_replicate]
      omega

/-- A parity of the register that every shift preserves. -/
structure Parity where
  parity : R → Bool
  parity_xor : ∀ a b, parity (S.xor a b) = (parity a ^^ parity b)
  parity_shift : ∀ a, parity (S.shift a) = parity a
  parity_one : parity S.one = true

/-- The parity of the register counts the set bits that were fed. -/
theorem Parity.parity_feed {S : ShiftRegister R} (φ : S.Parity) (r : R) (l : List Bool) :
    φ.parity (S.feed r l) = (φ.parity r ^^ decide (l.count true % 2 = 1)) := by
  -- the parity is linear, so the empty register has none
  have hzero : φ.parity S.zero = false := by
    have h := φ.parity_xor S.zero S.zero
    rw [S.xor_self] at h
    rw [h, Bool.xor_self]
  induction l generalizing r with
  | nil => simp
  | cons b l ih =>
    rw [feed_cons, ih, φ.parity_shift, φ.parity_xor, Bool.xor_assoc]
    congr 1
    cases b with
    | false =>
      rw [show S.input false = S.zero from rfl, hzero, Bool.false_xor]
      simp
    | true =>
      rw [show S.input true = S.one from rfl, φ.parity_one, Bool.true_xor, List.count_cons_self]
      rcases Nat.mod_two_eq_zero_or_one (l.count true) with h | h
      · simp [Nat.add_mod, h]
      · simp [Nat.add_mod, h]

/-- An odd number of flipped bits. -/
theorem Parity.syndrome_odd {S : ShiftRegister R} (φ : S.Parity) {l : List Bool}
    (h : l.count true % 2 = 1) : S.syndrome l ≠ S.zero := by
  intro hzero
  have hparity := φ.parity_feed S.zero l
  rw [← syndrome, hzero, h] at hparity
  cases hp : φ.parity S.zero <;> simp [hp] at hparity

/-- Two flipped bits, `d + 1` positions apart. -/
theorem syndrome_two (i d k : Nat) :
    S.syndrome (List.replicate i false ++ true :: (List.replicate d false ++
        true :: List.replicate k false)) = S.zero ↔
      Function.IsPeriodicPt S.shift (d + 1) S.one := by
  have hvalue : S.syndrome (List.replicate i false ++ true :: (List.replicate d false ++
      true :: List.replicate k false))
      = S.shift^[k + 1] (S.xor (S.shift^[d + 1] S.one) S.one) := by
    rw [S.syndrome_replicate_append, syndrome_true_cons, feed_append, feed_replicate_false,
      feed_cons, feed_replicate_false, ← Function.iterate_succ_apply, ← Function.iterate_succ_apply]
    rfl
  rw [hvalue]
  -- the trailing shifts lose nothing, so only the distance counts
  refine ⟨fun h => S.xor_eq_zero.mp (S.iterate_shift_eq_zero h), fun h => ?_⟩
  have hperiod : S.shift^[d + 1] S.one = S.one := h
  rw [hperiod, S.xor_self, S.iterate_shift_zero]

/-- The positions of a register: what an input bit looks like that is still to be shifted in. They
are independent up to the width of the register. -/
structure Positions (width : Nat) where
  position : Nat → R
  position_zero : position 0 = S.one
  shift_position : ∀ i, i + 1 < width → S.shift (position (i + 1)) = position i
  /-- A string of bits that are all still to be shifted in. -/
  load : Nat → List Bool → R
  load_nil : ∀ i, load i [] = S.zero
  load_cons : ∀ i b bits, load i (b :: bits)
    = S.xor (if b then position i else S.zero) (load (i + 1) bits)
  independent : ∀ bits, bits.length ≤ width → load 0 bits = S.zero → true ∉ bits

namespace Positions

variable {S} {width : Nat} (p : S.Positions width)

include p

/-- A shift moves every loaded bit by one position. -/
theorem shift_load (i : Nat) (bits : List Bool) (h : i + bits.length < width) :
    S.shift (p.load (i + 1) bits) = p.load i bits := by
  induction bits generalizing i with
  | nil => rw [p.load_nil, p.load_nil, S.shift_zero]
  | cons b bits ih =>
    rw [List.length_cons] at h
    rw [p.load_cons, p.load_cons, S.shift_xor, ih (i + 1) (by omega)]
    cases b with
    | false => rw [if_neg Bool.false_ne_true, if_neg Bool.false_ne_true, S.shift_zero]
    | true => rw [if_pos rfl, if_pos rfl, p.shift_position i (by omega)]

/-- Bits that fit the register may be added to it all at once. -/
theorem feed_eq (r : R) (bits : List Bool) (h : bits.length ≤ width) :
    S.feed r bits = S.shift^[bits.length] (S.xor r (p.load 0 bits)) := by
  induction bits generalizing r with
  | nil => rw [p.load_nil, S.xor_zero]; rfl
  | cons b bits ih =>
    rw [List.length_cons] at h
    have hinput : S.input b = if b then p.position 0 else S.zero := by
      rw [p.position_zero]
      rfl
    rw [feed_cons, ih _ (by omega), p.load_cons, List.length_cons, Function.iterate_succ_apply,
      ← S.xor_assoc, ← hinput, S.shift_xor (S.xor r (S.input b)), p.shift_load 0 bits (by omega)]

/-- A pattern that fits the register is noticed, unless nothing is flipped. -/
theorem notMem_of_syndrome_eq_zero {l : List Bool} (h : l.length ≤ width)
    (hzero : S.syndrome l = S.zero) : true ∉ l := by
  rw [syndrome, p.feed_eq _ _ h, S.zero_xor] at hzero
  exact p.independent l h (S.iterate_shift_eq_zero hzero)

/-- **Strings that fit the register are told apart**, from wherever it starts. -/
theorem feed_injective {r : R} {l k : List Bool} (hlen : l.length = k.length)
    (hwidth : l.length ≤ width) (h : S.feed r l = S.feed r k) : l = k := by
  have hzero := (S.feed_eq_iff r hlen).mp h
  have hfit : (List.zipWith (· ^^ ·) l k).length ≤ width := by
    rw [List.length_zipWith, ← hlen, Nat.min_self]
    exact hwidth
  exact eq_of_notMem_zipWith_xor hlen (p.notMem_of_syndrome_eq_zero hfit hzero)

/-- **Flipped bits that all lie within the width of the register.** -/
theorem syndrome_burst {l : List Bool} (hne : true ∈ l) {s : Nat}
    (hburst : ∀ j, l[j]? = some true → s ≤ j ∧ j < s + width) : S.syndrome l ≠ S.zero := by
  obtain ⟨i, rest, rfl⟩ := exists_first_true hne
  have hfirst := hburst i (by simp)
  -- behind the width of the register nothing is flipped
  have htail : true ∉ rest.drop (width - 1) := by
    intro hmem
    obtain ⟨j, hj⟩ := List.getElem?_of_mem hmem
    rw [List.getElem?_drop] at hj
    -- such a bit would be too far behind the first one
    have hlate := hburst (i + 1 + (width - 1 + j)) (by
      rw [List.getElem?_append_right (by simp; omega), List.length_replicate,
        show i + 1 + (width - 1 + j) - i = (width - 1 + j) + 1 by omega, List.getElem?_cons_succ]
      exact hj)
    omega
  have hsplit : true :: rest = (true :: rest.take (width - 1)) ++
      List.replicate (rest.drop (width - 1)).length false := by
    rw [← eq_replicate_of_notMem htail, List.cons_append, List.take_append_drop]
  have hlen : (true :: rest.take (width - 1)).length ≤ width := by
    rw [List.length_cons, List.length_take]
    omega
  -- drop both ends; what is left fits the register
  rw [S.syndrome_replicate_append, hsplit, S.syndrome_append_replicate]
  intro hzero
  exact p.notMem_of_syndrome_eq_zero hlen (S.iterate_shift_eq_zero hzero) (by simp)

end Positions

end ShiftRegister

end Libsfp.Lib
