import Mathlib.Tactic.IntervalCases
import Libsfp.Model.Transmitter

/-!
# The Frame Check

The transmitter sends the complement of its rolling CRC, least significant octet first; the
receiver runs its own rolling CRC over the content and the trailer together and compares one
residue. This module shows that the residue is `sfpCrcGood` for every content.

Each of the two trailer octets cancels one octet of the register: the first leaves the constant
`0x0f78` combined with the high octet of the old register, the second a constant altogether.
-/

namespace Libsfp

/-- The rolling CRC of an octet string, from a given register. -/
def crcOf (crc : SFPcrc) (octets : List UInt8) : SFPcrc :=
  octets.foldl crcCcittUpdate crc

@[simp] theorem crcOf_nil (crc : SFPcrc) : crcOf crc [] = crc := rfl

@[simp] theorem crcOf_cons (crc : SFPcrc) (octet : UInt8) (octets : List UInt8) :
    crcOf crc (octet :: octets) = crcOf (crcCcittUpdate crc octet) octets := rfl

/-- The register runs through a concatenation part by part. -/
@[simp] theorem crcOf_append (crc : SFPcrc) (l k : List UInt8) :
    crcOf crc (l ++ k) = crcOf (crcOf crc l) k := by
  simp [crcOf]

/-- The two octets `sfpTransmitFrameWithHeader` sends for a final register. -/
def crcTrailer (crc : SFPcrc) : List UInt8 :=
  [(~~~crc &&& (0x00ff : UInt16)).toUInt8, ((~~~crc >>> 8) &&& (0x00ff : UInt16)).toUInt8]

/-- The trailer has the size of the register. -/
@[simp] theorem length_crcTrailer (crc : SFPcrc) : (crcTrailer crc).length = sfpCrcSize := rfl

/-! ## The two trailer octets -/

/-- The low trailer octet meets the low half of the register: their bits are complements. -/
private theorem low_octet_xor (crc : SFPcrc) :
    (~~~crc &&& (0x00ff : UInt16)).toUInt8 ^^^ (crc &&& (0xff : UInt16)).toUInt8 = 0xff := by
  apply UInt8.toBitVec_inj.1
  simp only [UInt8.toBitVec_xor, UInt16.toBitVec_toUInt8, UInt16.toBitVec_and,
    UInt16.toBitVec_not]
  ext i hi
  interval_cases i <;> simp [BitVec.getElem_xor]

/-- Only the high octet of the register survives the first trailer octet. -/
private theorem crcCcittUpdate_low (crc : SFPcrc) :
    crcCcittUpdate crc (~~~crc &&& (0x00ff : UInt16)).toUInt8
      = (0x0f78 : UInt16) ^^^ (crc >>> 8) := by
  unfold crcCcittUpdate
  simp only [low_octet_xor]
  apply UInt16.toBitVec_inj.1
  simp only [UInt16.toBitVec_xor, UInt16.toBitVec_or, UInt16.toBitVec_and,
    UInt16.toBitVec_shiftRight]
  ext i hi
  interval_cases i <;> simp

/-- The high trailer octet meets what the first update has left. -/
private theorem high_octet_xor (crc : SFPcrc) :
    ((~~~crc >>> 8) &&& (0x00ff : UInt16)).toUInt8 ^^^
      (((0x0f78 : UInt16) ^^^ (crc >>> 8)) &&& (0xff : UInt16)).toUInt8 = 0x87 := by
  apply UInt8.toBitVec_inj.1
  simp only [UInt8.toBitVec_xor, UInt16.toBitVec_toUInt8, UInt16.toBitVec_and,
    UInt16.toBitVec_not, UInt16.toBitVec_xor, UInt16.toBitVec_shiftRight]
  ext i hi
  interval_cases i <;> simp [BitVec.getElem_xor]

/-- The second trailer octet leaves the same register whatever the content was. -/
private theorem crcCcittUpdate_high (crc : SFPcrc) :
    crcCcittUpdate ((0x0f78 : UInt16) ^^^ (crc >>> 8))
      ((~~~crc >>> 8) &&& (0x00ff : UInt16)).toUInt8 = sfpCrcGood := by
  unfold crcCcittUpdate
  simp only [high_octet_xor]
  apply UInt16.toBitVec_inj.1
  simp only [UInt16.toBitVec_xor, UInt16.toBitVec_or, UInt16.toBitVec_and,
    UInt16.toBitVec_shiftRight]
  ext i hi
  interval_cases i <;> simp [sfpCrcGood]

/-- **Residue**: the register after its own complemented trailer is `sfpCrcGood`. -/
theorem crcOf_crcTrailer (crc : SFPcrc) : crcOf crc (crcTrailer crc) = sfpCrcGood := by
  -- one octet of the register goes with each octet of the trailer
  rw [crcTrailer, crcOf_cons, crcOf_cons, crcOf_nil, crcCcittUpdate_low, crcCcittUpdate_high]

/-- A content with its trailer always passes the receiver's check. -/
theorem crcOf_append_crcTrailer (octets : List UInt8) :
    crcOf sfpCrcPreset (octets ++ crcTrailer (crcOf sfpCrcPreset octets)) = sfpCrcGood := by
  rw [crcOf_append, crcOf_crcTrailer]

-- the CRC-16 check value: the complement of the register over the ASCII digits 1 to 9
example :
    ~~~crcOf sfpCrcPreset [0x31, 0x32, 0x33, 0x34, 0x35, 0x36, 0x37, 0x38, 0x39] = 0x906e := by
  decide

end Libsfp
