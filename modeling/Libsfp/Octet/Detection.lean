import Mathlib.Tactic.NormNum.Prime
import Libsfp.Lib.ShiftRegister
import Libsfp.Octet.Crc

/-!
# Error Detection

The rolling CRC is a linear shift register, taken eight bits at a time: `_crc_ccitt_update` is eight
shifts of the register with the octet added to it. So an accepted string with some bits flipped is
rejected if one or three bits are flipped, if the flipped bits lie within 16 positions, and if two
are, unless their distance is a multiple of the period of the register, 32767. Octets that fit the
register leave it in different places, so no trailer but the one that is sent is accepted.
-/

namespace Libsfp

open Lib (ShiftRegister)

/-! ## The register, bit by bit -/

/-- One shift of the register: the bit that falls out is fed back. -/
def crcShift (crc : SFPcrc) : SFPcrc :=
  if crc.toBitVec.getLsbD 0 then (crc >>> 1) ^^^ 0x8408 else crc >>> 1

/-- Shifting is linear: what falls out of a sum is the sum of what falls out. -/
theorem crcShift_xor (a b : SFPcrc) : crcShift (a ^^^ b) = crcShift a ^^^ crcShift b := by
  have hshift : (a ^^^ b) >>> 1 = (a >>> 1) ^^^ (b >>> 1) := by
    apply UInt16.toBitVec_inj.1
    show (a.toBitVec ^^^ b.toBitVec) >>> 1 = a.toBitVec >>> 1 ^^^ b.toBitVec >>> 1
    exact BitVec.ushiftRight_xor_distrib _ _ _
  have hassoc : ∀ x y p : SFPcrc, x ^^^ y ^^^ p = x ^^^ (y ^^^ p) := UInt16.xor_assoc
  unfold crcShift
  rw [UInt16.toBitVec_xor, BitVec.getLsbD_xor, hshift]
  generalize a >>> 1 = x, b >>> 1 = y, (0x8408 : SFPcrc) = p
  cases a.toBitVec.getLsbD 0 <;> cases b.toBitVec.getLsbD 0
  · rfl
  · exact hassoc _ _ _
  · show x ^^^ y ^^^ p = x ^^^ p ^^^ y
    rw [hassoc, UInt16.xor_comm y, ← hassoc]
  · -- fed back twice is not fed back
    show x ^^^ y = x ^^^ p ^^^ (y ^^^ p)
    rw [UInt16.xor_comm y, hassoc, ← hassoc p, UInt16.xor_self, UInt16.zero_xor]

/-- The bit that falls out says whether the register is odd. -/
theorem getLsbD_zero (crc : SFPcrc) : crc.toBitVec.getLsbD 0 = decide (crc.toNat % 2 = 1) := by
  rw [← UInt16.toNat_toBitVec, BitVec.getLsbD, Nat.testBit_zero]

/-- The bit that is fed back comes in where nothing else does. -/
theorem crcShift_eq_zero (crc : SFPcrc) (h : crcShift crc = 0) : crc = 0 := by
  have hlt : crc.toNat < 65536 := crc.toNat_lt
  unfold crcShift at h
  rw [getLsbD_zero] at h
  by_cases hbit : crc.toNat % 2 = 1
  · rw [if_pos (decide_eq_true hbit)] at h
    have heq : crc >>> 1 = 0x8408 := UInt16.xor_eq_zero_iff.mp h
    have hnat := congrArg UInt16.toNat heq
    rw [UInt16.toNat_shiftRight] at hnat
    simp [Nat.shiftRight_eq_div_pow] at hnat
    omega
  · rw [if_neg (fun h => hbit (of_decide_eq_true h))] at h
    have hnat := congrArg UInt16.toNat h
    rw [UInt16.toNat_shiftRight] at hnat
    simp [Nat.shiftRight_eq_div_pow] at hnat
    apply UInt16.toNat_inj.mp
    show crc.toNat = 0
    omega

/-- The register of the rolling CRC. -/
def crcRegister : ShiftRegister SFPcrc where
  xor a b := a ^^^ b
  zero := 0
  xor_assoc := UInt16.xor_assoc
  xor_comm := UInt16.xor_comm
  xor_self _ := UInt16.xor_self
  xor_zero _ := UInt16.xor_zero
  shift := crcShift
  shift_xor := crcShift_xor
  shift_eq_zero := crcShift_eq_zero
  one := 1
  one_ne_zero := by decide

/-! ## Octets -/

/-- The bits of an octet, least significant first. -/
def octetBits (octet : UInt8) : List Bool :=
  (List.range 8).map octet.toNat.testBit

/-- The bits of an octet string, in the order in which they are checked. -/
def bitsOf (octets : List UInt8) : List Bool :=
  octets.flatMap octetBits

theorem length_octetBits (octet : UInt8) : (octetBits octet).length = 8 := rfl

@[simp] theorem bitsOf_cons (octet : UInt8) (octets : List UInt8) :
    bitsOf (octet :: octets) = octetBits octet ++ bitsOf octets := rfl

@[simp] theorem bitsOf_append (l k : List UInt8) : bitsOf (l ++ k) = bitsOf l ++ bitsOf k :=
  List.flatMap_append

/-- An octet string has eight bits for each octet. -/
theorem length_bitsOf (octets : List UInt8) : (bitsOf octets).length = 8 * octets.length := by
  induction octets with
  | nil => rfl
  | cons a octets ih =>
    rw [bitsOf_cons, List.length_append, length_octetBits, ih, List.length_cons]
    omega

/-- Eight shifts of a low octet, for all of them. -/
private theorem crcShift_low : ∀ n : Fin 256,
    crcShift^[8] (UInt8.ofNat n).toUInt16 = crcCcittUpdate 0 (UInt8.ofNat n) := by
  decide +kernel

/-- Eight shifts bring the high octet down unchanged, for all of them. -/
private theorem crcShift_high : ∀ n : Fin 256,
    crcShift^[8] ((UInt8.ofNat n).toUInt16 <<< 8) = (UInt8.ofNat n).toUInt16 := by
  decide +kernel

/-- The halves do not overlap, so they may be added. -/
private theorem or_high (x : UInt8) (crc : SFPcrc) :
    (x.toUInt16 <<< 8) ||| ((crc >>> 8) &&& (0xff : UInt16))
      = (x.toUInt16 <<< 8) ^^^ (crc >>> 8) := by
  apply UInt16.toBitVec_inj.1
  simp only [UInt16.toBitVec_xor, UInt16.toBitVec_or, UInt16.toBitVec_and,
    UInt16.toBitVec_shiftRight]
  ext i hi
  interval_cases i <;> simp

/-- The update of the empty register, in terms of exclusive or. -/
private theorem crcCcittUpdate_zero (octet : UInt8) :
    crcCcittUpdate 0 octet = ((octet ^^^ (octet <<< 4)).toUInt16 <<< 8)
      ^^^ ((octet ^^^ (octet <<< 4)) >>> 4).toUInt16
      ^^^ ((octet ^^^ (octet <<< 4)).toUInt16 <<< 3) := by
  have hzero : octet ^^^ ((0 : SFPcrc) &&& (0xff : UInt16)).toUInt8 = octet := UInt8.xor_zero
  unfold crcCcittUpdate
  simp only [hzero]
  rw [or_high, UInt16.zero_shiftRight, UInt16.xor_zero]

/-- The update depends on the octet and the low half of the register together. -/
private theorem crcCcittUpdate_split (crc : SFPcrc) (octet : UInt8) :
    crcCcittUpdate crc octet
      = crcCcittUpdate 0 (octet ^^^ (crc &&& (0xff : UInt16)).toUInt8) ^^^ (crc >>> 8) := by
  rw [crcCcittUpdate_zero]
  unfold crcCcittUpdate
  simp only []
  generalize octet ^^^ (crc &&& (0xff : UInt16)).toUInt8 = z
  rw [or_high]
  ac_rfl

/-- The register with an octet added to it, in its two halves. -/
private theorem xor_halves (crc : SFPcrc) (octet : UInt8) :
    crc ^^^ octet.toUInt16 = (octet ^^^ (crc &&& (0xff : UInt16)).toUInt8).toUInt16
      ^^^ ((crc >>> 8).toUInt8.toUInt16 <<< 8) := by
  apply UInt16.toBitVec_inj.1
  simp only [UInt16.toBitVec_xor, UInt8.toBitVec_xor, UInt8.toBitVec_toUInt16,
    UInt16.toBitVec_toUInt8, UInt16.toBitVec_and, UInt16.toBitVec_shiftLeft,
    UInt16.toBitVec_shiftRight]
  ext i hi
  interval_cases i <;> simp [BitVec.getElem_xor, -BitVec.setWidth_setWidth,
    BitVec.getElem_setWidth, Bool.xor_comm]

/-- The high half, as an octet and back. -/
private theorem toUInt16_high (crc : SFPcrc) : (crc >>> 8).toUInt8.toUInt16 = crc >>> 8 := by
  apply UInt16.toBitVec_inj.1
  simp only [UInt8.toBitVec_toUInt16, UInt16.toBitVec_toUInt8, UInt16.toBitVec_shiftRight]
  ext i hi
  interval_cases i <;> simp [-BitVec.setWidth_setWidth, BitVec.getElem_setWidth]

/-- **`_crc_ccitt_update` is eight shifts of the register with the octet added to it.** -/
theorem crcCcittUpdate_eq_shift (crc : SFPcrc) (octet : UInt8) :
    crcCcittUpdate crc octet = crcShift^[8] (crc ^^^ octet.toUInt16) := by
  have hlow : ∀ z : UInt8, crcShift^[8] z.toUInt16 = crcCcittUpdate 0 z := by
    intro z
    have h := crcShift_low ⟨z.toNat, z.toNat_lt⟩
    rwa [UInt8.ofNat_toNat] at h
  have hhigh : ∀ z : UInt8, crcShift^[8] (z.toUInt16 <<< 8) = z.toUInt16 := by
    intro z
    have h := crcShift_high ⟨z.toNat, z.toNat_lt⟩
    rwa [UInt8.ofNat_toNat] at h
  calc crcCcittUpdate crc octet
      = crcShift^[8] (octet ^^^ (crc &&& (0xff : UInt16)).toUInt8).toUInt16
          ^^^ crcShift^[8] ((crc >>> 8).toUInt8.toUInt16 <<< 8) := by
        rw [crcCcittUpdate_split, hlow, hhigh, toUInt16_high]
    _ = crcShift^[8] (crc ^^^ octet.toUInt16) := by
        rw [xor_halves]
        exact (crcRegister.iterate_shift_xor 8 _ _).symm

/-! ## Positions -/

/-- The input bit that falls out of the register after `i` more shifts. -/
def crcPosition (i : Nat) : SFPcrc := UInt16.ofBitVec (BitVec.twoPow 16 i)

/-- The input bits that fall out of the register from `i` on. -/
def crcLoad : Nat → List Bool → SFPcrc
  | _, [] => 0
  | i, b :: bits => (if b then crcPosition i else 0) ^^^ crcLoad (i + 1) bits

/-- The bits of a loaded register are the bits loaded into it. -/
theorem getLsbD_crcLoad (i : Nat) (bits : List Bool) (j : Nat) :
    (crcLoad i bits).toBitVec.getLsbD j
      = (decide (j < 16) && decide (i ≤ j) && bits.getD (j - i) false) := by
  induction bits generalizing i with
  | nil => simp [crcLoad]
  | cons b bits ih =>
    -- the first bit is at position `i` alone
    have hhead : (if b then crcPosition i else 0 : SFPcrc).toBitVec.getLsbD j
        = (decide (j < 16) && decide (i = j) && b) := by
      cases b with
      | false => simp
      | true =>
        by_cases hij : i = j
        · subst hij
          simp [crcPosition]
        · simp [crcPosition, hij]
    rw [crcLoad, UInt16.toBitVec_xor, BitVec.getLsbD_xor, hhead, ih (i + 1)]
    rcases Nat.lt_trichotomy i j with h | rfl | h
    · -- behind the first bit
      obtain ⟨k, rfl⟩ := Nat.exists_eq_add_of_lt h
      have hne : i ≠ i + k + 1 := by omega
      rw [show i + k + 1 - i = k + 1 by omega, show i + k + 1 - (i + 1) = k by omega]
      simp [hne, show i ≤ i + k + 1 by omega]
    · simp
    · have hne : i ≠ j := by omega
      simp [hne, show ¬ i ≤ j by omega, show ¬ i + 1 ≤ j by omega]

/-- A shift moves each position down by one. -/
private theorem crcShift_position : ∀ i : Fin 15,
    crcShift (crcPosition (i + 1)) = crcPosition i := by
  decide +kernel

/-- The sixteen positions of the register are independent. -/
def crcPositions : crcRegister.Positions 16 where
  position := crcPosition
  position_zero := by decide
  shift_position i h := crcShift_position ⟨i, by omega⟩
  load := crcLoad
  load_nil _ := rfl
  load_cons _ _ _ := rfl
  independent bits hlen hzero hmem := by
    -- a bit that is set would be set in the register
    obtain ⟨j, hj⟩ := List.getElem?_of_mem hmem
    have hlt : j < bits.length := (List.getElem?_eq_some_iff.mp hj).1
    have hbit := getLsbD_crcLoad 0 bits j
    rw [show crcLoad 0 bits = 0 from hzero, List.getD_eq_getElem?_getD, Nat.sub_zero, hj] at hbit
    simp [show j < 16 by omega] at hbit

/-- The bits of an octet that is widened. -/
theorem getLsbD_octet (octet : UInt8) (j : Nat) :
    octet.toUInt16.toBitVec.getLsbD j = (octetBits octet).getD j false := by
  rw [UInt8.toBitVec_toUInt16, BitVec.getLsbD_setWidth, octetBits, List.getD_eq_getElem?_getD]
  by_cases h : j < 8
  · simp [h, show j < 16 by omega, BitVec.getLsbD]
  · rw [BitVec.getLsbD_of_ge _ _ (by omega)]
    simp [h]

/-- The bits of an octet, loaded, are the octet. -/
theorem crcLoad_octetBits (octet : UInt8) : crcLoad 0 (octetBits octet) = octet.toUInt16 := by
  apply UInt16.toBitVec_inj.1
  apply BitVec.eq_of_getLsbD_eq
  intro j hj
  rw [getLsbD_crcLoad, getLsbD_octet]
  simp [hj]

/-- **The rolling CRC is the register after the bits of the octets.** -/
theorem crcOf_eq_feed (crc : SFPcrc) (octets : List UInt8) :
    crcOf crc octets = crcRegister.feed crc (bitsOf octets) := by
  induction octets generalizing crc with
  | nil => rfl
  | cons octet octets ih =>
    have hoctet : crcRegister.feed crc (octetBits octet) = crcCcittUpdate crc octet := by
      have hlen : (octetBits octet).length ≤ 16 := by rw [length_octetBits]; decide
      rw [crcPositions.feed_eq crc _ hlen, length_octetBits, crcCcittUpdate_eq_shift]
      exact congrArg (fun r => crcShift^[8] (crc ^^^ r)) (crcLoad_octetBits octet)
    rw [crcOf_cons, ih, bitsOf_cons, crcRegister.feed_append, hoctet]

/-! ## Parity -/

/-- The parity of the bits below `n`. -/
def parityBelow : Nat → BitVec 16 → Bool
  | 0, _ => false
  | n + 1, x => x.getLsbD n ^^ parityBelow n x

/-- Parities add up. -/
theorem parityBelow_xor (n : Nat) (x y : BitVec 16) :
    parityBelow n (x ^^^ y) = (parityBelow n x ^^ parityBelow n y) := by
  induction n with
  | zero => rfl
  | succ n ih =>
    rw [parityBelow, ih, BitVec.getLsbD_xor, parityBelow, parityBelow]
    cases x.getLsbD n <;> cases y.getLsbD n <;> simp

/-- The polynomial has an odd number of bits, so what falls out is made up for. -/
theorem parityBelow_crcShift (crc : SFPcrc) :
    parityBelow 16 (crcShift crc).toBitVec = parityBelow 16 crc.toBitVec := by
  have hshift : parityBelow 16 (crc >>> 1).toBitVec
      = (parityBelow 16 crc.toBitVec ^^ crc.toBitVec.getLsbD 0) := by
    -- all bits move down, and the lowest one is lost
    have hbit : ∀ i, (crc >>> 1).toBitVec.getLsbD i = crc.toBitVec.getLsbD (i + 1) := by
      intro i
      show (crc.toBitVec >>> 1).getLsbD i = _
      rw [BitVec.getLsbD_ushiftRight, Nat.add_comm]
    have htop : crc.toBitVec.getLsbD 16 = false := BitVec.getLsbD_of_ge _ _ (by omega)
    simp only [parityBelow, hbit, htop, Nat.reduceAdd]
    cases crc.toBitVec.getLsbD 0 <;> simp
  unfold crcShift
  cases hlow : crc.toBitVec.getLsbD 0 with
  | false =>
    rw [if_neg Bool.false_ne_true, hshift, hlow, Bool.xor_false]
  | true =>
    -- the bit that falls out adds the polynomial, whose parity is odd
    rw [if_pos rfl, UInt16.toBitVec_xor, parityBelow_xor, hshift, hlow,
      show parityBelow 16 (0x8408 : SFPcrc).toBitVec = true by decide]
    simp

def crcParity : crcRegister.Parity where
  parity crc := parityBelow 16 crc.toBitVec
  parity_xor a b := parityBelow_xor 16 a.toBitVec b.toBitVec
  parity_shift := parityBelow_crcShift
  parity_one := by decide

/-! ## The period -/

/-- Octets of zeros shift the register eight times each. -/
theorem iterate_crcShift (n k : Nat) (crc : SFPcrc) :
    crcShift^[8 * n + k] crc = crcShift^[k] ((crcCcittUpdate · 0)^[n] crc) := by
  have hoctet : (crcCcittUpdate · 0) = crcShift^[8] := by
    funext r
    rw [crcCcittUpdate_eq_shift]
    exact congrArg crcShift^[8] UInt16.xor_zero
  rw [hoctet, ← Function.iterate_mul, Nat.add_comm, Function.iterate_add_apply]

set_option maxRecDepth 100000 in
/-- The register is back after 32767 shifts, and not after 32767 / 7, / 31 or / 151. -/
private theorem crcShift_period :
    crcShift^[7] ((crcCcittUpdate · 0)^[4095] 1) = 1
      ∧ crcShift^[1] ((crcCcittUpdate · 0)^[585] 1) ≠ 1
      ∧ crcShift^[1] ((crcCcittUpdate · 0)^[132] 1) ≠ 1
      ∧ crcShift^[1] ((crcCcittUpdate · 0)^[27] 1) ≠ 1 := by
  decide +kernel

/-- **The period of the register is 32767 shifts.** -/
theorem isPeriodicPt_crcShift (m : Nat) :
    Function.IsPeriodicPt crcShift m 1 ↔ 32767 ∣ m := by
  obtain ⟨hreturn, h7, h31, h151⟩ := crcShift_period
  apply Lib.isPeriodicPt_iff_dvd (by decide)
  · show crcShift^[8 * 4095 + 7] 1 = 1
    rw [iterate_crcShift, hreturn]
  · intro p hp hdvd
    -- 32767 = 7 * 31 * 151
    have hfactors : p = 7 ∨ p = 31 ∨ p = 151 := by
      rw [show 32767 = 7 * (31 * 151) by norm_num, hp.dvd_mul, hp.dvd_mul] at hdvd
      rcases hdvd with h | h | h
      · exact .inl ((Nat.prime_dvd_prime_iff_eq hp (by norm_num)).mp h)
      · exact .inr (.inl ((Nat.prime_dvd_prime_iff_eq hp (by norm_num)).mp h))
      · exact .inr (.inr ((Nat.prime_dvd_prime_iff_eq hp (by norm_num)).mp h))
    rcases hfactors with rfl | rfl | rfl
    · show ¬ crcShift^[8 * 585 + 1] 1 = 1
      rw [iterate_crcShift]
      exact h7
    · show ¬ crcShift^[8 * 132 + 1] 1 = 1
      rw [iterate_crcShift]
      exact h31
    · show ¬ crcShift^[8 * 27 + 1] 1 = 1
      rw [iterate_crcShift]
      exact h151

/-! ## What the check rejects -/

/-- The receiver's check of a content with its trailer. -/
abbrev CrcAccepts (octets : List UInt8) : Prop := crcOf sfpCrcPreset octets = sfpCrcGood

/-- The bits in which two octet strings differ. -/
def flippedBits (octets octets' : List UInt8) : List Bool :=
  List.zipWith (· ^^ ·) (bitsOf octets) (bitsOf octets')

/-- Strings of one length differ in as many places as they have bits. -/
theorem length_flippedBits {octets octets' : List UInt8} (hlen : octets'.length = octets.length) :
    (flippedBits octets octets').length = 8 * octets.length := by
  rw [flippedBits, List.length_zipWith, length_bitsOf, length_bitsOf, hlen, Nat.min_self]

/-- A changed string is accepted exactly when its change has no syndrome. -/
theorem crcAccepts_iff_syndrome {octets octets' : List UInt8}
    (hlen : octets'.length = octets.length) (haccept : CrcAccepts octets) :
    CrcAccepts octets' ↔ crcRegister.syndrome (flippedBits octets octets') = crcRegister.zero := by
  have hbits : (bitsOf octets).length = (bitsOf octets').length := by
    rw [length_bitsOf, length_bitsOf, hlen]
  rw [flippedBits, ← crcRegister.feed_eq_iff sfpCrcPreset hbits, ← crcOf_eq_feed, ← crcOf_eq_feed]
  constructor
  · intro h
    exact haccept.trans h.symm
  · intro h
    exact h.symm.trans haccept

/-- Two flipped bits go unnoticed exactly when a whole number of periods is between them. -/
theorem syndrome_two_flips {flips : List Bool} (h : flips.count true = 2) :
    crcRegister.syndrome flips = crcRegister.zero ↔
      ∃ i j, i < j ∧ flips[i]? = some true ∧ flips[j]? = some true ∧ 32767 ∣ j - i := by
  obtain ⟨i, d, k, rfl⟩ := Lib.ShiftRegister.exists_two_true h
  rw [crcRegister.syndrome_two]
  constructor
  · intro hperiod
    refine ⟨i, i + d + 1, by omega, ?_, ?_, ?_⟩
    · exact (Lib.ShiftRegister.getElem?_two_true i d k _).mpr (.inl rfl)
    · exact (Lib.ShiftRegister.getElem?_two_true i d k _).mpr (.inr rfl)
    · rw [show i + d + 1 - i = d + 1 by omega]
      exact (isPeriodicPt_crcShift (d + 1)).mp hperiod
  · rintro ⟨i', j', hlt, hi, hj, hdvd⟩
    -- the two positions are the ones of the pattern
    have hi' := (Lib.ShiftRegister.getElem?_two_true i d k i').mp hi
    have hj' := (Lib.ShiftRegister.getElem?_two_true i d k j').mp hj
    have hdist : j' - i' = d + 1 := by omega
    rw [hdist] at hdvd
    exact (isPeriodicPt_crcShift (d + 1)).mpr hdvd

/-- **Error detection**: one or three flipped bits, and any flipped bits within 16 positions, are
rejected; two are unless a multiple of 32767 positions lies between them, so always if the packet
size is at most 4094. -/
theorem crcAccepts_detects [SfpConfig] {octets octets' : List UInt8}
    (hlen : octets'.length = octets.length) (haccept : CrcAccepts octets) :
    ((flippedBits octets octets').count true = 1 ∨ (flippedBits octets octets').count true = 3 →
        ¬ CrcAccepts octets')
      ∧ ((flippedBits octets octets').count true = 2 →
          (CrcAccepts octets' ↔ ∃ i j, i < j ∧ (flippedBits octets octets')[i]? = some true
            ∧ (flippedBits octets octets')[j]? = some true ∧ 32767 ∣ j - i))
      ∧ ((flippedBits octets octets').count true = 2 → sfpConfigMaxPacketSize ≤ 4094 →
          octets.length ≤ sfpConfigMaxPacketSize + 1 → ¬ CrcAccepts octets')
      ∧ (∀ s, true ∈ flippedBits octets octets' →
          (∀ j, (flippedBits octets octets')[j]? = some true → s ≤ j ∧ j < s + 16) →
          ¬ CrcAccepts octets') := by
  have hiff := crcAccepts_iff_syndrome hlen haccept
  refine ⟨?_, ?_, ?_, ?_⟩
  · intro hcount haccept'
    -- one and three are odd
    apply crcParity.syndrome_odd _ (hiff.mp haccept')
    rcases hcount with h | h
    · rw [h]
    · rw [h]
  · intro hcount
    exact hiff.trans (syndrome_two_flips hcount)
  · intro hcount hmax hshort haccept'
    obtain ⟨i, j, hlt, -, hj, hdvd⟩ := (syndrome_two_flips hcount).mp (hiff.mp haccept')
    -- both bits lie in the string, which is shorter than a period
    have hbound : j < 8 * octets.length := by
      rw [← length_flippedBits hlen]
      exact (List.getElem?_eq_some_iff.mp hj).1
    have hle : 32767 ≤ j - i := Nat.le_of_dvd (by omega) hdvd
    omega
  · intro s hne hburst haccept'
    exact crcPositions.syndrome_burst hne hburst (hiff.mp haccept')

/-- Two bits flipped in a frame without payload. -/
theorem crcAccepts_detects_two : ¬ CrcAccepts [0x42, 0x7c, 0xb3] :=
  (@crcAccepts_detects headerDefaults [0x40, 0x7c, 0xb2] [0x42, 0x7c, 0xb3] rfl
    (by decide)).2.2.1 (by decide) (by decide) (by decide)

/-! ## The trailer -/

/-- The bits of an octet determine it, -/
theorem octetBits_injective {a b : UInt8} (h : octetBits a = octetBits b) : a = b := by
  have hload := congrArg (crcLoad 0) h
  rw [crcLoad_octetBits, crcLoad_octetBits] at hload
  exact UInt8.toUInt16_inj.mp hload

/-- and those of a string the string. -/
theorem bitsOf_injective {octets octets' : List UInt8} (hlen : octets.length = octets'.length)
    (h : bitsOf octets = bitsOf octets') : octets = octets' := by
  induction octets generalizing octets' with
  | nil => exact (List.eq_nil_of_length_eq_zero hlen.symm).symm
  | cons octet octets ih =>
    cases octets' with
    | nil => cases hlen
    | cons octet' octets' =>
      rw [bitsOf_cons, bitsOf_cons] at h
      obtain ⟨hfirst, hrest⟩ := List.append_inj h rfl
      rw [octetBits_injective hfirst, ih (Nat.succ.inj hlen) hrest]

/-- As many octets as the register is wide are told apart by it. -/
theorem crcOf_injective {crc : SFPcrc} {octets octets' : List UInt8}
    (hlen : octets.length = octets'.length) (hsize : octets.length ≤ sfpCrcSize)
    (h : crcOf crc octets = crcOf crc octets') : octets = octets' := by
  have hbits : (bitsOf octets).length = (bitsOf octets').length := by
    rw [length_bitsOf, length_bitsOf, hlen]
  have hwidth : (bitsOf octets).length ≤ 16 := by
    rw [length_bitsOf]
    exact Nat.mul_le_mul_left 8 hsize
  rw [crcOf_eq_feed, crcOf_eq_feed] at h
  exact bitsOf_injective hlen (crcPositions.feed_injective hbits hwidth h)

/-- **The only trailer**: behind any content, the check accepts the low and the high octet of the
complement of the register, and no other two octets. -/
theorem crcAccepts_append_iff (octets : List UInt8) (low high : UInt8) :
    CrcAccepts (octets ++ [low, high])
      ↔ [low, high] = crcTrailer (crcOf sfpCrcPreset octets) := by
  rw [CrcAccepts, crcOf_append]
  constructor
  · intro haccept
    -- both trailers take the register to the same place
    have hsame : crcOf (crcOf sfpCrcPreset octets) [low, high]
        = crcOf (crcOf sfpCrcPreset octets) (crcTrailer (crcOf sfpCrcPreset octets)) := by
      rw [haccept, crcOf_crcTrailer]
    exact crcOf_injective rfl (Nat.le_refl _) hsame
  · intro htrailer
    rw [htrailer, crcOf_crcTrailer]

/-! ## Large packets -/

/-- Equal strings differ nowhere. -/
private theorem zipWith_xor_self (bits : List Bool) :
    List.zipWith (· ^^ ·) bits bits = List.replicate bits.length false := by
  induction bits with
  | nil => rfl
  | cons b bits ih => rw [List.zipWith_cons_cons, ih, Bool.xor_self]; rfl

/-- The bits flipped in an octet are those of the mask. -/
theorem octetBits_flip (octet mask : UInt8) :
    List.zipWith (· ^^ ·) (octetBits octet) (octetBits (octet ^^^ mask)) = octetBits mask := by
  have hbit : ∀ i, (octet.toNat.testBit i ^^ (octet ^^^ mask).toNat.testBit i)
      = mask.toNat.testBit i := by
    intro i
    rw [UInt8.toNat_xor, Nat.testBit_xor, ← Bool.xor_assoc, Bool.xor_self, Bool.false_xor]
  rw [octetBits, octetBits, List.zipWith_map, List.zipWith_self]
  exact List.map_congr_left fun i _ => hbit i

/-- Flipping the first and the last bit of a string. -/
theorem flippedBits_ends (first last : UInt8) (octets : List UInt8) :
    flippedBits (first :: (octets ++ [last])) ((first ^^^ 0x01) :: (octets ++ [last ^^^ 0x80]))
      = true :: (List.replicate (8 * octets.length + 14) false ++ [true]) := by
  -- only the first bit of all and the last one are flipped
  have hfirst : octetBits 0x01 = true :: List.replicate 7 false := by decide
  have hlast : octetBits 0x80 = List.replicate 7 false ++ [true] := by decide
  have hnil : ∀ octet, bitsOf [octet] = octetBits octet := fun octet => List.append_nil _
  rw [flippedBits, bitsOf_cons, bitsOf_cons, bitsOf_append, bitsOf_append, hnil, hnil,
    List.zipWith_append (by simp only [length_octetBits]), List.zipWith_append rfl,
    octetBits_flip, octetBits_flip, hfirst, hlast, zipWith_xor_self, length_bitsOf,
    List.cons_append, ← List.append_assoc, ← List.append_assoc,
    List.replicate_append_replicate, List.replicate_append_replicate]
  congr 3
  omega

/-- In strings of 4096 octets the first and the last bit are one period apart. -/
theorem crcAccepts_flip_ends {first last : UInt8} {octets : List UInt8}
    (hlen : octets.length = 4094) (haccept : CrcAccepts (first :: (octets ++ [last]))) :
    CrcAccepts ((first ^^^ 0x01) :: (octets ++ [last ^^^ 0x80])) := by
  apply (crcAccepts_iff_syndrome (by simp) haccept).mpr
  rw [flippedBits_ends, hlen]
  apply (crcRegister.syndrome_two 0 32766 0).mpr
  exact (isPeriodicPt_crcShift 32767).mpr (Nat.dvd_refl _)

/-- A build whose packets have up to 4095 octets. -/
@[reducible] def largePackets : SfpConfig where
  toRingBuffer := .ofLists
  historyCapacity := 8
  maxPacketSize := 4095
  writebufSize := 512
  historyCapacity_pos := headerDefaults.historyCapacity_pos
  two_le_maxPacketSize := by decide
  writebufSize_pos := headerDefaults.writebufSize_pos

/-- Two flipped bits of a frame that `largePackets` admits go unnoticed. -/
theorem crcAccepts_two_flips_accepted :
    ¬ ∀ (config : SfpConfig) (octets octets' : List UInt8), 3 ≤ octets.length →
      octets.length ≤ config.maxPacketSize + 1 → octets'.length = octets.length →
      CrcAccepts octets →
      ((flippedBits octets octets').count true ∈ [1, 2, 3] ∨
        (true ∈ flippedBits octets octets' ∧
          ∃ s, ∀ j, (flippedBits octets octets')[j]? = some true → s ≤ j ∧ j < s + 16)) →
      ¬ CrcAccepts octets' := by
  intro hdetects
  obtain ⟨first, octets, last, hlen, haccept⟩ : ∃ first octets last, octets.length = 4094 ∧
      CrcAccepts (first :: (octets ++ [last])) := by
    obtain ⟨low, high, htrailer⟩ : ∃ low high,
        crcTrailer (crcOf sfpCrcPreset (List.replicate 4094 0)) = [low, high] := ⟨_, _, rfl⟩
    refine ⟨0, List.replicate 4093 0 ++ [low], high, ?_, ?_⟩
    · rw [List.length_append, List.length_replicate, List.length_singleton]
    · have h := crcOf_append_crcTrailer (List.replicate 4094 0)
      rw [htrailer, List.replicate_succ] at h
      rw [List.append_assoc]
      exact h
  apply hdetects largePackets _ _ _ _ _ haccept _ (crcAccepts_flip_ends hlen haccept)
  · simp [hlen]
  · show _ ≤ 4095 + 1
    simp [hlen]
  · simp
  · left
    rw [flippedBits_ends]
    simp [List.count_replicate]

end Libsfp
