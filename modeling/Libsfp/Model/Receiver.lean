import Libsfp.Model.Transmitter

/-!
# The Receiver and the API

The octet-at-a-time receiver, the frame handlers with the connection state machine, and the entry
points `sfpInit`, `sfpConnect`, `sfpWritePacket`, `sfpDeliverOctet` and `sfpIsConnected`.

Callbacks do not call back into the context.
-/

namespace Libsfp

variable [SfpConfig]

/-! ## Locking -/

def sfpIsTransmitterLockable (m : Machine) : Bool :=
  m.ctx.tx.lock && m.ctx.tx.unlock

def sfpLockTransmitter (m : Machine) : Machine :=
  if sfpIsTransmitterLockable m then m.emit .lock else m

def sfpUnlockTransmitter (m : Machine) : Machine :=
  if sfpIsTransmitterLockable m then m.emit .unlock else m

/-- A scope holding a `TransmitterLock`. -/
def transmitterLock (body : Machine → Machine) (m : Machine) : Machine :=
  sfpUnlockTransmitter (body (sfpLockTransmitter m))

/-! ## Receiver state -/

def sfpResetReceiver (m : Machine) : Machine :=
  { m with
    ctx.rx.crc := sfpCrcPreset
    ctx.rx.escapeState := .normal
    ctx.rx.frameState := .new
    ctx.rx.packet.len := 0
    ctx.rx.packet.len_le := SFPpacket.zero_le_maxPacketSize }

def sfpBufferOctet (octet : UInt8) (m : Machine) : Machine :=
  if h : m.ctx.rx.packet.len < sfpConfigMaxPacketSize then
    { m with ctx.rx.packet := m.ctx.rx.packet.push octet h }
  else
    -- frame buffer overrun: go on as if nothing had been received
    sfpResetReceiver m

/-! ## Frame handlers -/

/-- `sfpHandleUSR`, on the header and packet of the receiver. Returns 1 on delivery. -/
def sfpHandleUSR (m : Machine) : Machine × Int :=
  match m.ctx.connectState with
  | .disconnected => (transmitterLock sfpTransmitDIS m, 0)
  | .sentSyn0 => (transmitterLock sfpTransmitSYN0 m, 0)
  | .sentSyn1 => (transmitterLock sfpTransmitSYN1 m, 0)
  | .connected =>
    let m := transmitterLock id m
    if getFrameSeq m.ctx.rx.header ≠ m.ctx.rx.seq then
      if getFrameType m.ctx.rx.header = .usr then
        (transmitterLock (sfpTransmitNAK m.ctx.rx.seq) m, 0)
      else
        (m, 0)
    else
      let m := if m.ctx.rx.deliver then m.emit (.deliver m.ctx.rx.packet.octets) else m
      (m.setRxSeq (nextSeq m.ctx.rx.seq), 1)

def sfpHandleSYN0 (m : Machine) : Machine :=
  let m := sfpResetReceiver m
  let m := m.setRxSeq sfpInitialSeq
  let m := m.setTxSeq sfpInitialSeq
  let m := sfpClearHistory m
  let m := sfpTransmitSYN1 m
  m.setConnectState .sentSyn1

/-- Replay of the whole session, unless nothing was written (or the label wrapped to zero). -/
def replayIfWritten (m : Machine) : Machine :=
  if m.ctx.tx.seq ≠ sfpInitialSeq then sfpTransmitHistoryFromSeq sfpInitialSeq m else m

def sfpHandleSYN1 (m : Machine) : Machine :=
  match m.ctx.connectState with
  | .disconnected => sfpTransmitDIS m
  | _ => (replayIfWritten (sfpTransmitSYN2 m)).setConnectState .connected

def sfpHandleSYN2 (m : Machine) : Machine :=
  match m.ctx.connectState with
  | .disconnected => sfpTransmitDIS m
  | .sentSyn0 => sfpTransmitSYN0 m
  | _ => (replayIfWritten m).setConnectState .connected

def sfpHandleNAK (m : Machine) : Machine :=
  match m.ctx.connectState with
  | .disconnected => sfpTransmitDIS m
  | .sentSyn0 => sfpTransmitSYN0 m
  | .sentSyn1 => sfpTransmitSYN1 m
  | .connected =>
    let seq := getFrameSeq m.ctx.rx.header
    if seq ≠ m.ctx.tx.seq then sfpTransmitHistoryFromSeq seq m else m

def sfpHandleSYN (m : Machine) : Machine :=
  let seq := getFrameSeq m.ctx.rx.header
  if seq = sfpSeqSyn0 then sfpHandleSYN0 m
  else if seq = sfpSeqSyn1 then sfpHandleSYN1 m
  else if seq = sfpSeqSyn2 then sfpHandleSYN2 m
  else if seq = sfpSeqSynDis then m.setConnectState .disconnected
  else m

/-- The frame-type dispatch at the end of `sfpHandleFrame`. -/
def dispatchFrame (m : Machine) : Machine × Int :=
  let m := m.emit (.frameReceived m.ctx.rx.header m.ctx.rx.packet.octets)
  match getFrameType m.ctx.rx.header with
  | .usr => sfpHandleUSR m
  | .rtx => sfpHandleUSR m
  | .nak => (transmitterLock sfpHandleNAK m, 0)
  | .syn => (transmitterLock sfpHandleSYN m, 0)

/-- `packet.len -= SFP_CRC_SIZE`: rewind over the trailing CRC. -/
def rewindCrc (m : Machine) : Machine :=
  { m with
    ctx.rx.packet.len := m.ctx.rx.packet.len - sfpCrcSize
    ctx.rx.packet.len_le := Nat.le_trans (Nat.sub_le _ _) m.ctx.rx.packet.len_le }

def sfpHandleFrame (m : Machine) : Machine × Int :=
  if m.ctx.rx.packet.len < sfpCrcSize then
    (transmitterLock (sfpTransmitNAK m.ctx.rx.seq) (m.emit .shortFrame), 0)
  else
    let m := rewindCrc m
    if m.ctx.rx.crc ≠ sfpCrcGood then
      (transmitterLock (sfpTransmitNAK m.ctx.rx.seq) (m.emit .crcMismatch), 0)
    else dispatchFrame m

/-! ## API -/

def sfpSetDeliverCallback (cbfun : Bool) (c : SFPcontext) : SFPcontext :=
  { c with rx.deliver := cbfun }

def sfpSetWriteCallback (cbfun : Bool) (c : SFPcontext) : SFPcontext :=
  { c with tx.write := cbfun }

def sfpSetLockCallback (cbfun : Bool) (c : SFPcontext) : SFPcontext :=
  { c with tx.lock := cbfun }

def sfpSetUnlockCallback (cbfun : Bool) (c : SFPcontext) : SFPcontext :=
  { c with tx.unlock := cbfun }

/-- `sfpInit`. The history, the received header and the contents of the buffers stay as they
were. -/
def sfpInit (c : SFPcontext) : SFPcontext :=
  let c := { c with connectState := .disconnected, rx.seq := sfpInitialSeq }
  let c := (sfpResetReceiver (Machine.of c)).ctx
  let c := sfpSetDeliverCallback false c
  let c := { c with
    tx.seq := sfpInitialSeq
    tx.crc := sfpCrcPreset
    tx.writebufn := 0 }
  sfpSetUnlockCallback false (sfpSetLockCallback false (sfpSetWriteCallback false c))

def sfpConnect (m : Machine) : Machine :=
  let m := sfpResetReceiver m
  let m := m.setRxSeq sfpInitialSeq
  transmitterLock (fun m =>
    let m := m.setTxSeq sfpInitialSeq
    let m := sfpClearHistory m
    let m := sfpTransmitSYN0 m
    m.setConnectState .sentSyn0) m

def sfpIsConnected (c : SFPcontext) : Bool :=
  c.connectState == .connected

/-- `sfpCopyOutPacket` into a buffer of `len` octets: -1 if it is too small. -/
def sfpCopyOutPacket (len : Nat) (m : Machine) : Int × Option (List UInt8) :=
  if len < m.ctx.rx.packet.len then (-1, none) else (1, some m.ctx.rx.packet.octets)

/-- What `sfpDeliverOctet` hands back: its return value and what it copied into `buf`. -/
structure DeliverResult where
  ret : Int
  copied : Option (List UInt8)
  deriving DecidableEq, Repr

/-- A pending escape flips the octet. -/
def unescapeOctet : SFPescapestate → UInt8 → UInt8
  | .escaping, octet => octet ^^^ sfpEscFlipBit
  | .normal, octet => octet

/-- `sfpDeliverOctet`; `buf` is the length of the caller's buffer, if there is one. -/
def sfpDeliverOctet (octet : UInt8) (buf : Option Nat) (m : Machine) : Machine × DeliverResult :=
  if sfpFlag = octet then
    match m.ctx.rx.frameState with
    | .receiving =>
      let (m, ret) := sfpHandleFrame m
      let result : DeliverResult :=
        match buf with
        | some len =>
          if ret ≠ 0 then ⟨(sfpCopyOutPacket len m).1, (sfpCopyOutPacket len m).2⟩
          else ⟨ret, none⟩
        | none => ⟨ret, none⟩
      (sfpResetReceiver m, result)
    | .new => (sfpResetReceiver m, ⟨0, none⟩)
  else if sfpEsc = octet then
    ({ m with ctx.rx.escapeState := .escaping }, ⟨0, none⟩)
  else
    let octet := unescapeOctet m.ctx.rx.escapeState octet
    let m : Machine := { m with
      ctx.rx.escapeState := .normal
      ctx.rx.crc := crcCcittUpdate m.ctx.rx.crc octet }
    match m.ctx.rx.frameState with
    | .new => ({ m with ctx.rx.header := octet, ctx.rx.frameState := .receiving }, ⟨0, none⟩)
    | .receiving => (sfpBufferOctet octet m, ⟨0, none⟩)

/-- `sfpDeliverOctet` on each octet of a string, without a caller's buffer. -/
def deliverOctets (octets : List UInt8) (m : Machine) : Machine :=
  octets.foldl (fun m octet => (sfpDeliverOctet octet none m).1) m

/-- `sfpWritePacket`. The bound is the assertion on `len`; `stack` is whatever the local packet
held before the `memcpy`. -/
def sfpWritePacket (stack : Vector UInt8 sfpConfigMaxPacketSize) (buf : List UInt8)
    (h : buf.length ≤ sfpConfigMaxPacketSize) (m : Machine) : Machine × Nat :=
  let packet := SFPpacket.copyIn stack buf h
  let m := sfpLockTransmitter m
  let (m, outlen) := sfpTransmitUSR packet m
  (sfpUnlockTransmitter m, outlen)

end Libsfp
