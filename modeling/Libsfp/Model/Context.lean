import Mathlib.Data.List.Basic
import Libsfp.Lib.Containers

/-!
# SFP Contexts

The data model of `serial_framing_protocol.h`: the configuration macros, the reserved octets, the
frame header layout, packets, the history ring buffer and the context with its transmitter and
receiver halves.

The three size macros may be overridden at build time, and `util::PotRingbuffer` is defined in
another library; so they are a parameter of the whole development. `headerDefaults` are the values
the header falls back to, over ring buffers that are lists.

Callbacks appear only as "set" or "not set": what they are told is recorded in the trace
(`Libsfp.Model.Machine`). Their user-data pointers and the debug name are not modelled.
-/

namespace Libsfp

/-! ## Configuration -/

/-- The configuration macros `SFP_CONFIG_*`, and the ring buffer that the code is compiled with.
Nothing in the code bounds the history capacity from above: results that need it to be below
`SFP_SEQ_RANGE` say so. -/
class SfpConfig extends Lib.RingBuffer.{0} where
  historyCapacity : Nat
  maxPacketSize : Nat
  writebufSize : Nat
  historyCapacity_pos : 0 < historyCapacity
  /-- Room for the trailing CRC in the receive buffer. -/
  two_le_maxPacketSize : 2 ≤ maxPacketSize
  writebufSize_pos : 0 < writebufSize

/-- The values of the `#ifndef` defaults in the header. -/
@[reducible] def headerDefaults : SfpConfig where
  toRingBuffer := .ofLists
  historyCapacity := 8
  maxPacketSize := 256
  writebufSize := 512
  historyCapacity_pos := by decide
  two_le_maxPacketSize := by decide
  writebufSize_pos := by decide

def sfpConfigHistoryCapacity [c : SfpConfig] : Nat := c.historyCapacity
def sfpConfigMaxPacketSize [c : SfpConfig] : Nat := c.maxPacketSize
def sfpConfigWritebufSize [c : SfpConfig] : Nat := c.writebufSize

theorem sfpConfigHistoryCapacity_pos [c : SfpConfig] : 0 < sfpConfigHistoryCapacity :=
  c.historyCapacity_pos

theorem two_le_sfpConfigMaxPacketSize [c : SfpConfig] : 2 ≤ sfpConfigMaxPacketSize :=
  c.two_le_maxPacketSize

theorem sfpConfigWritebufSize_pos [c : SfpConfig] : 0 < sfpConfigWritebufSize :=
  c.writebufSize_pos

/-! ## Octets, headers and sequence numbers -/

abbrev SFPseq := UInt8
abbrev SFPheader := UInt8
abbrev SFPcrc := UInt16

def sfpEsc : UInt8 := 0x7d
def sfpFlag : UInt8 := 0x7e
def sfpEscFlipBit : UInt8 := (1 : UInt8) <<< 5

/-- `sizeof(SFPcrc)`. -/
def sfpCrcSize : Nat := 2
def sfpCrcPreset : SFPcrc := 0xffff
def sfpCrcGood : SFPcrc := 0xf0b8

def sfpFirstSeqBit : UInt8 := 0
def sfpNumSeqBits : UInt8 := 6
def sfpFirstControlBit : UInt8 := sfpNumSeqBits
def sfpNumControlBits : UInt8 := 2
def sfpSeqRange : UInt8 := (1 : UInt8) <<< sfpNumSeqBits
def sfpInitialSeq : SFPseq := 0

/-- The two control bits of a header. -/
inductive SFPframetype where
  | usr | rtx | nak | syn
  deriving DecidableEq, Repr

def SFPframetype.code : SFPframetype → UInt8
  | .usr => 0
  | .rtx => 1
  | .nak => 2
  | .syn => 3

/-- The cast of a two-bit value to the enumeration. -/
def SFPframetype.ofCode (c : UInt8) : SFPframetype :=
  if c = 0 then .usr else if c = 1 then .rtx else if c = 2 then .nak else .syn

/-- The `SEQ` of a `SYN` frame says which synchronization packet it is. -/
def sfpSeqSyn0 : SFPseq := 0
def sfpSeqSyn1 : SFPseq := 1
def sfpSeqSyn2 : SFPseq := 2
def sfpSeqSynDis : SFPseq := 3

def isReservedOctet (octet : UInt8) : Bool :=
  octet == sfpEsc || octet == sfpFlag

def nextSeq (seq : SFPseq) : SFPseq :=
  (seq + 1) &&& (sfpSeqRange - 1)

def getFrameType (header : SFPheader) : SFPframetype :=
  .ofCode ((header >>> sfpFirstControlBit) &&& (((1 : UInt8) <<< sfpNumControlBits) - 1))

def getFrameSeq (header : SFPheader) : SFPseq :=
  (header >>> sfpFirstSeqBit) &&& (((1 : UInt8) <<< sfpNumSeqBits) - 1)

/-! ## Packets -/

/-- A packet: a fixed array of which the first `len` octets are meaningful. -/
structure SFPpacket [SfpConfig] where
  buf : Vector UInt8 sfpConfigMaxPacketSize
  len : Nat
  len_le : len ≤ sfpConfigMaxPacketSize

namespace SFPpacket

variable [SfpConfig]

/-- The bound on an empty packet. -/
theorem zero_le_maxPacketSize : 0 ≤ sfpConfigMaxPacketSize := Nat.zero_le _

/-- The meaningful octets of a packet. -/
def octets (p : SFPpacket) : List UInt8 :=
  p.buf.toList.take p.len

@[simp] theorem length_octets (p : SFPpacket) : p.octets.length = p.len := by
  simp [octets, p.len_le]

/-- `memcpy` of a short enough octet string into a packet whose remaining octets are `rest`. -/
def copyIn (rest : Vector UInt8 sfpConfigMaxPacketSize) (buf : List UInt8)
    (h : buf.length ≤ sfpConfigMaxPacketSize) : SFPpacket where
  buf := ⟨(buf ++ rest.toList.drop buf.length).toArray, by simp; omega⟩
  len := buf.length
  len_le := h

@[simp] theorem octets_copyIn (rest : Vector UInt8 sfpConfigMaxPacketSize) (buf : List UInt8)
    (h : buf.length ≤ sfpConfigMaxPacketSize) : (copyIn rest buf h).octets = buf := by
  simp [octets, copyIn, Vector.toList]

/-- `packet.buf[packet.len++] = octet`, possible only while there is room. -/
def push (p : SFPpacket) (octet : UInt8) (h : p.len < sfpConfigMaxPacketSize) : SFPpacket where
  buf := p.buf.set p.len octet h
  len := p.len + 1
  len_le := h

@[simp] theorem octets_push (p : SFPpacket) (octet : UInt8) (h : p.len < sfpConfigMaxPacketSize) :
    (p.push octet h).octets = p.octets ++ [octet] := by
  have hlen : p.len < p.buf.toList.length := by simpa using h
  simp only [octets, push, Vector.toList_set]
  rw [List.take_succ_eq_append_getElem (by simpa using h), List.take_set_of_le (Nat.le_refl _)]
  simp

end SFPpacket

/-! ## The history ring buffer -/

/-- `util::PotRingbuffer`: a bounded queue. Of its source only the laws are used. -/
def PotRingbuffer [SfpConfig] (α : Type) (capacity : Nat) : Type :=
  Lib.RingBuffer.Buffer α capacity

namespace PotRingbuffer

variable [SfpConfig] {α : Type} {capacity : Nat}

/-- What `at` reads from index 0 up to the size: the oldest entry comes first. -/
def entries (r : PotRingbuffer α capacity) : List α := Lib.RingBuffer.entries r

def size (r : PotRingbuffer α capacity) : Nat := Lib.RingBuffer.size r

def empty : PotRingbuffer α capacity := (Lib.RingBuffer.empty : Lib.RingBuffer.Buffer α capacity)

def pushBack (r : PotRingbuffer α capacity) (a : α) : PotRingbuffer α capacity :=
  Lib.RingBuffer.pushBack r a

def popFront (r : PotRingbuffer α capacity) : PotRingbuffer α capacity :=
  Lib.RingBuffer.popFront r

theorem length_entries_le (r : PotRingbuffer α capacity) : r.entries.length ≤ capacity :=
  Lib.RingBuffer.length_entries_le r

@[simp] theorem size_eq (r : PotRingbuffer α capacity) : r.size = r.entries.length :=
  Lib.RingBuffer.size_eq r

@[simp] theorem entries_empty : (empty : PotRingbuffer α capacity).entries = [] :=
  Lib.RingBuffer.entries_empty

theorem entries_pushBack (r : PotRingbuffer α capacity) (a : α) :
    (r.pushBack a).entries = (r.entries ++ [a]).drop (r.entries.length + 1 - capacity) :=
  Lib.RingBuffer.entries_pushBack r a

@[simp] theorem entries_popFront (r : PotRingbuffer α capacity) :
    r.popFront.entries = r.entries.tail :=
  Lib.RingBuffer.entries_popFront r

/-- `popFront`, `n` times. -/
def popFrontN : Nat → PotRingbuffer α capacity → PotRingbuffer α capacity
  | 0, r => r
  | n + 1, r => popFrontN n r.popFront

@[simp] theorem entries_popFrontN (n : Nat) (r : PotRingbuffer α capacity) :
    (popFrontN n r).entries = r.entries.drop n := by
  induction n generalizing r with
  | zero => rfl
  | succ n ih => rw [popFrontN, ih, entries_popFront, List.drop_tail]

end PotRingbuffer

/-! ## Contexts -/

inductive SFPescapestate where
  | normal | escaping
  deriving DecidableEq, Repr

inductive SFPframestate where
  | new | receiving
  deriving DecidableEq, Repr

inductive SFPconnectstate where
  | disconnected | sentSyn0 | sentSyn1 | connected
  deriving DecidableEq, Repr

structure SFPtransmitter [SfpConfig] where
  seq : SFPseq
  crc : SFPcrc
  history : PotRingbuffer SFPpacket sfpConfigHistoryCapacity
  writebuf : Vector UInt8 sfpConfigWritebufSize
  writebufn : Nat
  /-- The write callback is set. -/
  write : Bool
  /-- The lock callback is set. -/
  lock : Bool
  /-- The unlock callback is set. -/
  unlock : Bool

structure SFPreceiver [SfpConfig] where
  seq : SFPseq
  crc : SFPcrc
  escapeState : SFPescapestate
  frameState : SFPframestate
  header : SFPheader
  packet : SFPpacket
  /-- The deliver callback is set. -/
  deliver : Bool

structure SFPcontext [SfpConfig] where
  tx : SFPtransmitter
  rx : SFPreceiver
  connectState : SFPconnectstate

/-- Zeroed memory. -/
def SFPcontext.zero [SfpConfig] : SFPcontext where
  tx := ⟨0, 0, .empty, .replicate _ 0, 0, false, false, false⟩
  rx := ⟨0, 0, .normal, .new, 0, ⟨.replicate _ 0, 0, Nat.zero_le _⟩, false⟩
  connectState := .disconnected

end Libsfp
