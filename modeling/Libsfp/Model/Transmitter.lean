import Libsfp.Model.Context

/-!
# The Transmitter

Everything in `serial_framing_protocol.cpp` that ends in the write callback: the rolling CRC, the
write buffer with its mid-frame flush, octet stuffing, the frame writer, the control frames, and
the history with its retransmission.

A `Machine` is a context together with the trace of the callbacks made so far. Functions of the
source that return nothing are functions `Machine → Machine`; those with an `outlen` also return
the number of octets they account for.
-/

namespace Libsfp

/-! ## Machines -/

/-- What a context does to the outside: callbacks, log lines that mark a decision of the receiver,
and `fault` for a failed assertion, a null callback called or a store out of bounds. -/
inductive Event where
  | lock
  | unlock
  | write (octets : List UInt8)
  | deliver (octets : List UInt8)
  /-- "Received frame: (type | SEQ) | packet", logged right before the frame is dispatched. -/
  | frameReceived (header : SFPheader) (octets : List UInt8)
  /-- "short frame received, sending NAK." -/
  | shortFrame
  /-- "CRC mismatch, sending NAK." -/
  | crcMismatch
  | fault
  deriving DecidableEq, Repr

/-- A context and its trace; each event comes with the context at that moment. -/
structure Machine [SfpConfig] where
  ctx : SFPcontext
  trace : List (Event × SFPcontext)

variable [SfpConfig]

namespace Machine

/-- A context that has done nothing yet. -/
def of (c : SFPcontext) : Machine := ⟨c, []⟩

def emit (e : Event) (m : Machine) : Machine :=
  { m with trace := m.trace ++ [(e, m.ctx)] }

/-- `assert`. -/
def assert (b : Bool) (m : Machine) : Machine :=
  if b then m else m.emit .fault

def setConnectState (s : SFPconnectstate) (m : Machine) : Machine :=
  { m with ctx.connectState := s }

def setTxSeq (seq : SFPseq) (m : Machine) : Machine :=
  { m with ctx.tx.seq := seq }

def setTxCrc (crc : SFPcrc) (m : Machine) : Machine :=
  { m with ctx.tx.crc := crc }

def setHistory (h : PotRingbuffer SFPpacket sfpConfigHistoryCapacity) (m : Machine) : Machine :=
  { m with ctx.tx.history := h }

def setRxSeq (seq : SFPseq) (m : Machine) : Machine :=
  { m with ctx.rx.seq := seq }

end Machine

/-! ## Rolling CRC -/

/-- `_crc_ccitt_update`, with the truncations of the C integer types. -/
def crcCcittUpdate (crc : SFPcrc) (octet : UInt8) : SFPcrc :=
  let octet := octet ^^^ (crc &&& (0xff : UInt16)).toUInt8
  let octet := octet ^^^ (octet <<< 4)
  (((octet.toUInt16 <<< 8) ||| ((crc >>> 8) &&& (0xff : UInt16))) ^^^ (octet >>> 4).toUInt16)
    ^^^ (octet.toUInt16 <<< 3)

/-! ## Write buffer -/

def sfpFlushWriteBuffer (m : Machine) : Machine :=
  let octets := m.ctx.tx.writebuf.toList.take m.ctx.tx.writebufn
  let m := if m.ctx.tx.write then m.emit (.write octets) else m.emit .fault
  { m with ctx.tx.writebufn := 0 }

/-- `writebuf[writebufn++] = octet`. -/
def storeWritebuf (octet : UInt8) (m : Machine) : Machine :=
  if h : m.ctx.tx.writebufn < sfpConfigWritebufSize then
    { m with
      ctx.tx.writebuf := m.ctx.tx.writebuf.set m.ctx.tx.writebufn octet h
      ctx.tx.writebufn := m.ctx.tx.writebufn + 1 }
  else m.emit .fault

def sfpBufferedWrite (octet : UInt8) (m : Machine) : Machine × Nat :=
  let m := m.assert m.ctx.tx.write
  let m := if sfpConfigWritebufSize ≤ m.ctx.tx.writebufn then sfpFlushWriteBuffer m else m
  (storeWritebuf octet m, 1)

def sfpWriteNoCRC (octet : UInt8) (m : Machine) : Machine × Nat :=
  if isReservedOctet octet then
    let (m, n) := sfpBufferedWrite sfpEsc m
    let (m, k) := sfpBufferedWrite (octet ^^^ sfpEscFlipBit) m
    (m, n + k)
  else sfpBufferedWrite octet m

def sfpWrite (octet : UInt8) (m : Machine) : Machine × Nat :=
  sfpWriteNoCRC octet (m.setTxCrc (crcCcittUpdate m.ctx.tx.crc octet))

/-! ## Frames -/

/-- The payload loop of `sfpTransmitFrameWithHeader`. -/
def sfpWriteOctets : List UInt8 → Machine → Machine × Nat
  | [], m => (m, 0)
  | octet :: octets, m =>
    let (m, n) := sfpWrite octet m
    let (m, k) := sfpWriteOctets octets m
    (m, n + k)

/-- The CRC loop of `sfpTransmitFrameWithHeader`: the complement, least significant octet first. -/
def sfpWriteCrc (m : Machine) : Machine × Nat :=
  let crc := ~~~m.ctx.tx.crc
  let (m, n) := sfpWriteNoCRC (crc &&& (0x00ff : UInt16)).toUInt8 m
  let crc := crc >>> 8
  let (m, k) := sfpWriteNoCRC (crc &&& (0x00ff : UInt16)).toUInt8 m
  (m, n + k)

def sfpTransmitFrameWithHeader (header : SFPheader) (packet : Option SFPpacket) (m : Machine) :
    Machine × Nat :=
  let m := m.setTxCrc sfpCrcPreset
  let (m, nFlag) := sfpBufferedWrite sfpFlag m
  let (m, nHeader) := sfpWrite header m
  let (m, nPacket) := match packet with
    | some packet => sfpWriteOctets packet.octets m
    | none => (m, 0)
  let (m, nCrc) := sfpWriteCrc m
  let (m, nEnd) := sfpBufferedWrite sfpFlag m
  (sfpFlushWriteBuffer m, nFlag + nHeader + nPacket + nCrc + nEnd)

/-- A header from its sequence number bits and its control bits. -/
def makeHeader (type : SFPframetype) (seq : SFPseq) : SFPheader :=
  (seq <<< sfpFirstSeqBit) ||| (type.code <<< sfpFirstControlBit)

/-- A frame without a packet. -/
def sfpTransmitControl (type : SFPframetype) (seq : SFPseq) (m : Machine) : Machine :=
  (sfpTransmitFrameWithHeader (makeHeader type seq) none m).1

def sfpTransmitNAK (seq : SFPseq) : Machine → Machine := sfpTransmitControl .nak seq
def sfpTransmitDIS : Machine → Machine := sfpTransmitControl .syn sfpSeqSynDis
def sfpTransmitSYN0 : Machine → Machine := sfpTransmitControl .syn sfpSeqSyn0
def sfpTransmitSYN1 : Machine → Machine := sfpTransmitControl .syn sfpSeqSyn1
def sfpTransmitSYN2 : Machine → Machine := sfpTransmitControl .syn sfpSeqSyn2

def sfpTransmitFrameImpl (packet : SFPpacket) (retransmit : Bool) (m : Machine) : Machine × Nat :=
  let header := makeHeader (if retransmit then .rtx else .usr) m.ctx.tx.seq
  -- retransmissions come from the history, so they are not put back in
  let m := if retransmit then m else m.setHistory (m.ctx.tx.history.pushBack packet)
  let (m, n) := sfpTransmitFrameWithHeader header (some packet) m
  (m.setTxSeq (nextSeq m.ctx.tx.seq), n)

def sfpTransmitUSR (packet : SFPpacket) (m : Machine) : Machine × Nat :=
  sfpTransmitFrameImpl packet false m

def sfpTransmitRTX (packet : SFPpacket) (m : Machine) : Machine :=
  (sfpTransmitFrameImpl packet true m).1

/-! ## History -/

/-- The loop runs over the entries the history has on entry; `sfpTransmitRTX` changes none. -/
def sfpTransmitHistory (m : Machine) : Machine :=
  m.ctx.tx.history.entries.foldl (fun m packet => sfpTransmitRTX packet m) m

/-- The number of entries to drop so that the oldest one is the packet labelled `seq`: unsigned
arithmetic that wraps on purpose, masked to the width of a sequence number. -/
def fastforward (seq txSeq : SFPseq) (size : Nat) : Nat :=
  ((seq.toUInt32 - (txSeq.toUInt32 - UInt32.ofNat size)) &&& (sfpSeqRange - 1).toUInt32).toNat

def sfpTransmitHistoryFromSeq (seq : SFPseq) (m : Machine) : Machine :=
  let ff := fastforward seq m.ctx.tx.seq m.ctx.tx.history.size
  -- otherwise the frames asked for are gone: resynchronize and send what is left
  let m := if ff < m.ctx.tx.history.size then
      m.setHistory (m.ctx.tx.history.popFrontN ff)
    else m
  sfpTransmitHistory (m.setTxSeq seq)

/-- `sfpClearHistory`: pop until the buffer is empty. -/
def sfpClearHistory (m : Machine) : Machine :=
  m.setHistory (m.ctx.tx.history.popFrontN m.ctx.tx.history.size)

end Libsfp
