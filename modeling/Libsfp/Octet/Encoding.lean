import Libsfp.Lib.Runs
import Libsfp.Lib.Stuffing
import Libsfp.Octet.Crc

/-!
# What the Transmitter Puts on the Wire

The frame writer pushes one octet at a time through a buffer that flushes itself when it is full,
so the chunks handed to the write callback depend on how many octets happened to be stuffed. Seen
through `out` (the octets already written followed by those still in the buffer) every layer just
appends. The result is `sfpTransmitFrameWithHeader_spec`: from an idle transmitter a frame is
written as `FLAG`, the stuffed content with its CRC, `FLAG`, the buffer is empty again, and
nothing but the CRC register and the buffer changed.
-/

namespace Libsfp

open Lib (run)

/-! ## The stuffing discipline of SFP -/

/-- `SFP_ESC`, `SFP_FLAG` and the flip of bit 5. -/
def sfpStuffing : Lib.Stuffing UInt8 where
  esc := sfpEsc
  flag := sfpFlag
  flip := fun a => a ^^^ sfpEscFlipBit
  esc_ne_flag := by decide
  flip_flip := by
    intro a
    rw [UInt8.xor_assoc, UInt8.xor_self, UInt8.xor_zero]
  flip_esc_ne_esc := by decide
  flip_esc_ne_flag := by decide
  flip_flag_ne_flag := by decide

@[simp] theorem sfpStuffing_esc : sfpStuffing.esc = sfpEsc := rfl
@[simp] theorem sfpStuffing_flag : sfpStuffing.flag = sfpFlag := rfl
@[simp] theorem sfpStuffing_flip (a : UInt8) : sfpStuffing.flip a = a ^^^ sfpEscFlipBit := rfl

/-- The reserved octets are the two special ones. -/
theorem isReservedOctet_iff (a : UInt8) : isReservedOctet a = true ↔ a = sfpEsc ∨ a = sfpFlag := by
  simp [isReservedOctet]

/-- The content of a frame: header, payload, trailer. -/
def frameContent (header : SFPheader) (payload : List UInt8) : List UInt8 :=
  header :: payload ++ crcTrailer (crcOf sfpCrcPreset (header :: payload))

/-- The octets of a frame between its flags. -/
def frameSegment (header : SFPheader) (payload : List UInt8) : List UInt8 :=
  sfpStuffing.stuff (frameContent header payload)

/-- The octets of a frame. -/
def frameOctets (header : SFPheader) (payload : List UInt8) : List UInt8 :=
  sfpFlag :: (frameSegment header payload ++ [sfpFlag])

variable [SfpConfig]

/-! ## Observations of a machine -/

namespace Machine

/-- The octets a callback event puts on the wire. -/
def eventOctets : Event → List UInt8
  | .write octets => octets
  | _ => []

/-- The events other than writes. -/
def isCall : Event → Bool
  | .write _ => false
  | _ => true

/-- Everything passed to the write callback so far. -/
def wire (m : Machine) : List UInt8 :=
  m.trace.flatMap fun e => eventOctets e.1

/-- Every event so far that is not a write. -/
def calls (m : Machine) : List Event :=
  (m.trace.map Prod.fst).filter isCall

/-- The octets waiting in the write buffer. -/
def pending (m : Machine) : List UInt8 :=
  m.ctx.tx.writebuf.toList.take m.ctx.tx.writebufn

/-- The octets written or waiting to be. -/
def out (m : Machine) : List UInt8 :=
  m.wire ++ m.pending

@[simp] theorem ctx_of (c : SFPcontext) : (of c).ctx = c := rfl
@[simp] theorem wire_of (c : SFPcontext) : (of c).wire = [] := rfl
@[simp] theorem calls_of (c : SFPcontext) : (of c).calls = [] := rfl

/-- A write callback puts its octets on the wire, any other event puts none. -/
theorem wire_emit (e : Event) (m : Machine) : (m.emit e).wire = m.wire ++ eventOctets e := by
  simp [wire, emit]

/-- Any event but a write is a call. -/
theorem calls_emit (e : Event) (m : Machine) :
    (m.emit e).calls = m.calls ++ if isCall e then [e] else [] := by
  cases e <;> simp [calls, emit, isCall]

@[simp] theorem ctx_emit (e : Event) (m : Machine) : (m.emit e).ctx = m.ctx := rfl

/-- At index 0 nothing waits in the buffer. -/
theorem pending_eq_nil {m : Machine} (h : m.ctx.tx.writebufn = 0) : m.pending = [] := by
  simp [pending, h]

end Machine

/-! ## The steps of the frame writer -/

/-- What the frame writer does to a machine. -/
inductive WriteStep where
  | setCrc (crc : SFPcrc)
  | put (octet : UInt8)

namespace WriteStep

def perform (m : Machine) : WriteStep → Machine
  | setCrc crc => m.setTxCrc crc
  | put octet => (sfpBufferedWrite octet m).1

/-- The octets that a step puts into the write buffer. -/
def octets : WriteStep → List UInt8
  | setCrc _ => []
  | put octet => [octet]

/-- Octets that are stuffed but not counted in the CRC. -/
def ofRaw (content : List UInt8) : List WriteStep :=
  (sfpStuffing.stuff content).map put

/-- Octets that are counted in the CRC, which is `crc` before them. -/
def ofContent : SFPcrc → List UInt8 → List WriteStep
  | _, [] => []
  | crc, octet :: content =>
    setCrc (crcCcittUpdate crc octet) :: (ofRaw [octet] ++
      ofContent (crcCcittUpdate crc octet) content)

/-- A frame, from `FLAG` to `FLAG`. -/
def ofFrame (header : SFPheader) (payload : List UInt8) : List WriteStep :=
  setCrc sfpCrcPreset :: put sfpFlag :: (ofContent sfpCrcPreset (header :: payload) ++
    (ofRaw (crcTrailer (crcOf sfpCrcPreset (header :: payload))) ++ [put sfpFlag]))

omit [SfpConfig] in
/-- Raw octets are stuffed. -/
theorem flatMap_octets_ofRaw (content : List UInt8) :
    (ofRaw content).flatMap octets = sfpStuffing.stuff content := by
  rw [ofRaw, List.flatMap_map]
  exact List.flatMap_singleton' _

omit [SfpConfig] in
/-- Content is stuffed as well; the steps in between only set the register. -/
theorem flatMap_octets_ofContent (crc : SFPcrc) (content : List UInt8) :
    (ofContent crc content).flatMap octets = sfpStuffing.stuff content := by
  induction content generalizing crc with
  | nil => rfl
  | cons octet content ih =>
    rw [ofContent, List.flatMap_cons, List.flatMap_append, flatMap_octets_ofRaw, ih,
      ← Lib.Stuffing.stuff_append]
    rfl

omit [SfpConfig] in
/-- The steps of a frame put its octets into the write buffer. -/
theorem flatMap_octets_ofFrame (header : SFPheader) (payload : List UInt8) :
    (ofFrame header payload).flatMap octets = frameOctets header payload := by
  rw [ofFrame, List.flatMap_cons, List.flatMap_cons, List.flatMap_append, List.flatMap_append,
    flatMap_octets_ofContent, flatMap_octets_ofRaw, frameOctets, frameSegment, frameContent,
    Lib.Stuffing.stuff_append, List.append_assoc]
  rfl

end WriteStep

open WriteStep (perform ofRaw ofContent ofFrame)

/-- The buffer is flushed without regard to the CRC, -/
@[simp] theorem crc_sfpFlushWriteBuffer (m : Machine) :
    (sfpFlushWriteBuffer m).ctx.tx.crc = m.ctx.tx.crc := by
  unfold sfpFlushWriteBuffer
  split <;> rfl

/-- as are octets stored -/
theorem crc_storeWritebuf (octet : UInt8) (m : Machine) :
    (storeWritebuf octet m).ctx.tx.crc = m.ctx.tx.crc := by
  unfold storeWritebuf
  split <;> rfl

/-- and written. -/
theorem crc_sfpBufferedWrite (octet : UInt8) (m : Machine) :
    (sfpBufferedWrite octet m).1.ctx.tx.crc = m.ctx.tx.crc := by
  have hassert : (m.assert m.ctx.tx.write).ctx = m.ctx := by
    unfold Machine.assert
    split <;> rfl
  simp only [sfpBufferedWrite, crc_storeWritebuf]
  split
  · rw [crc_sfpFlushWriteBuffer, hassert]
  · rw [hassert]

/-- The trailer is not counted. -/
theorem crc_run_ofRaw (content : List UInt8) (m : Machine) :
    (run perform m (ofRaw content)).ctx.tx.crc = m.ctx.tx.crc := by
  unfold ofRaw
  induction sfpStuffing.stuff content generalizing m with
  | nil => rfl
  | cons octet octets ih =>
    rw [List.map_cons, Lib.run_cons, ih]
    exact crc_sfpBufferedWrite octet m

/-- The register has run over the content, and not over the escapes put in. -/
theorem crc_run_ofContent (content : List UInt8) (m : Machine) :
    (run perform m (ofContent m.ctx.tx.crc content)).ctx.tx.crc = crcOf m.ctx.tx.crc content := by
  induction content generalizing m with
  | nil => rfl
  | cons octet content ih =>
    -- the register is set before the octet is put, so putting it must leave the register alone
    have hraw := crc_run_ofRaw [octet] (m.setTxCrc (crcCcittUpdate m.ctx.tx.crc octet))
    have hrest := ih (run perform (m.setTxCrc (crcCcittUpdate m.ctx.tx.crc octet))
      (ofRaw [octet]))
    rw [hraw] at hrest
    rw [ofContent, Lib.run_cons, Lib.run_append, crcOf_cons]
    exact hrest

/-- One octet of content takes one or two of the wire. -/
theorem sfpWriteNoCRC_eq (octet : UInt8) (m : Machine) :
    sfpWriteNoCRC octet m
      = (run perform m (ofRaw [octet]), (sfpStuffing.stuff [octet]).length) := by
  -- a reserved octet goes out behind an `ESC`, flipped
  by_cases hres : octet = sfpEsc ∨ octet = sfpFlag
  · have hstuff : sfpStuffing.stuff [octet] = [sfpEsc, octet ^^^ sfpEscFlipBit] := by
      simp [Lib.Stuffing.stuffOne, hres]
    rw [sfpWriteNoCRC, if_pos ((isReservedOctet_iff octet).mpr hres), ofRaw, hstuff]
    rfl
  · have hstuff : sfpStuffing.stuff [octet] = [octet] := by
      simp [Lib.Stuffing.stuffOne, hres]
    rw [sfpWriteNoCRC, if_neg (fun h => hres ((isReservedOctet_iff octet).mp h)), ofRaw, hstuff]
    rfl

/-- The loop over the octets of a packet. -/
theorem sfpWriteOctets_eq (octets : List UInt8) (m : Machine) :
    sfpWriteOctets octets m
      = (run perform m (ofContent m.ctx.tx.crc octets), (sfpStuffing.stuff octets).length) := by
  induction octets generalizing m with
  | nil => rfl
  | cons octet octets ih =>
    have hcrc := crc_run_ofRaw [octet] (m.setTxCrc (crcCcittUpdate m.ctx.tx.crc octet))
    simp only [sfpWriteOctets, sfpWrite, sfpWriteNoCRC_eq, ih, hcrc]
    rw [ofContent, Lib.run_cons, Lib.run_append, ← List.length_append,
      ← Lib.Stuffing.stuff_append]
    rfl

/-- The trailer goes out low octet first. -/
theorem sfpWriteCrc_eq (m : Machine) :
    sfpWriteCrc m = (run perform m (ofRaw (crcTrailer m.ctx.tx.crc)),
      (sfpStuffing.stuff (crcTrailer m.ctx.tx.crc)).length) := by
  simp only [sfpWriteCrc, sfpWriteNoCRC_eq]
  rw [← Lib.run_append, ofRaw, ofRaw, ← List.map_append, ← Lib.Stuffing.stuff_append,
    ← List.length_append, ← Lib.Stuffing.stuff_append]
  rfl

/-- The packet argument as payload octets: control frames have none. -/
def packetOctets : Option SFPpacket → List UInt8
  | some packet => packet.octets
  | none => []

/-- **The frame writer is a run of its steps**, and it counts the octets of the frame. -/
theorem sfpTransmitFrameWithHeader_eq (header : SFPheader) (packet : Option SFPpacket)
    (m : Machine) :
    sfpTransmitFrameWithHeader header packet m
      = (sfpFlushWriteBuffer (run perform m (ofFrame header (packetOctets packet))),
        (frameOctets header (packetOctets packet)).length) := by
  obtain ⟨start, hstart⟩ : ∃ start, run perform m [.setCrc sfpCrcPreset, .put sfpFlag] = start :=
    ⟨_, rfl⟩
  have hpreset : start.ctx.tx.crc = sfpCrcPreset := hstart ▸ crc_sfpBufferedWrite _ _
  -- header and payload are written alike; without a packet there is only the header
  have hcontent : sfpTransmitFrameWithHeader header packet m
      = (sfpFlushWriteBuffer (perform (sfpWriteCrc
            (sfpWriteOctets (header :: packetOctets packet) start).1).1 (.put sfpFlag)),
          1 + (sfpWriteOctets (header :: packetOctets packet) start).2 + (sfpWriteCrc
            (sfpWriteOctets (header :: packetOctets packet) start).1).2 + 1) := by
    subst hstart
    cases packet with
    | none => rfl
    | some packet =>
      simp only [sfpTransmitFrameWithHeader, sfpWriteOctets, packetOctets, ← Nat.add_assoc]
      rfl
  -- the trailer is that of the whole content
  have hregister := crc_run_ofContent (header :: packetOctets packet) start
  rw [hpreset] at hregister
  rw [hcontent, sfpWriteOctets_eq, sfpWriteCrc_eq, hpreset]
  dsimp only
  rw [hregister]
  refine Prod.ext ?_ ?_
  · show sfpFlushWriteBuffer _ = _
    rw [ofFrame, Lib.run_cons, Lib.run_cons, Lib.run_append, Lib.run_append, ← hstart]
    rfl
  · show 1 + _ + _ + 1 = _
    rw [frameOctets, frameSegment, frameContent, Lib.Stuffing.stuff_append, List.length_cons,
      List.length_append, List.length_append, List.length_singleton]
    omega

/-! ## Transmitting -/

/-- The write callback is set and the buffer index is in range. -/
structure SFPtransmitter.Ready (tx : SFPtransmitter) : Prop where
  write : tx.write = true
  writebufn_le : tx.writebufn ≤ sfpConfigWritebufSize

/-- `m'` is `m` after transmitting `octets`: only the CRC register, the write buffer and the
octets handed out differ. -/
structure Transmits (m m' : Machine) (octets : List UInt8) : Prop where
  ready : m'.ctx.tx.Ready
  rx : m'.ctx.rx = m.ctx.rx
  connectState : m'.ctx.connectState = m.ctx.connectState
  seq : m'.ctx.tx.seq = m.ctx.tx.seq
  history : m'.ctx.tx.history = m.ctx.tx.history
  lock : m'.ctx.tx.lock = m.ctx.tx.lock
  unlock : m'.ctx.tx.unlock = m.ctx.tx.unlock
  calls : m'.calls = m.calls
  out : m'.out = m.out ++ octets

/-- What is transmitted in two parts. -/
theorem Transmits.trans {m m' m'' : Machine} {l k : List UInt8} (h : Transmits m m' l)
    (h' : Transmits m' m'' k) : Transmits m m'' (l ++ k) where
  ready := h'.ready
  rx := h'.rx.trans h.rx
  connectState := h'.connectState.trans h.connectState
  seq := h'.seq.trans h.seq
  history := h'.history.trans h.history
  lock := h'.lock.trans h.lock
  unlock := h'.unlock.trans h.unlock
  calls := h'.calls.trans h.calls
  out := by rw [h'.out, h.out, List.append_assoc]

/-- The assertion on the write callback holds. -/
theorem Machine.assert_write {m : Machine} (hm : m.ctx.tx.Ready) :
    m.assert m.ctx.tx.write = m := if_pos hm.write

/-- Setting the register transmits nothing. -/
theorem transmits_setTxCrc (crc : SFPcrc) {m : Machine} (hm : m.ctx.tx.Ready) :
    Transmits m (m.setTxCrc crc) [] := by
  constructor <;> first
    | exact ⟨hm.write, hm.writebufn_le⟩
    | rfl
    | simp [Machine.out, Machine.setTxCrc, Machine.wire, Machine.pending]

/-- A flush moves octets from the buffer to the wire and transmits none. -/
theorem sfpFlushWriteBuffer_spec {m : Machine} (hm : m.ctx.tx.Ready) :
    Transmits m (sfpFlushWriteBuffer m) [] where
  ready := ⟨by simp [sfpFlushWriteBuffer, hm.write], by simp [sfpFlushWriteBuffer]⟩
  rx := by simp [sfpFlushWriteBuffer, hm.write]
  connectState := by simp [sfpFlushWriteBuffer, hm.write]
  seq := by simp [sfpFlushWriteBuffer, hm.write]
  history := by simp [sfpFlushWriteBuffer, hm.write]
  lock := by simp [sfpFlushWriteBuffer, hm.write]
  unlock := by simp [sfpFlushWriteBuffer, hm.write]
  calls := by
    simp [sfpFlushWriteBuffer, hm.write, Machine.calls, Machine.emit, Machine.isCall]
  out := by
    simp [sfpFlushWriteBuffer, hm.write, Machine.out, Machine.wire, Machine.emit,
      Machine.eventOctets, Machine.pending]

@[simp] theorem writebufn_sfpFlushWriteBuffer (m : Machine) :
    (sfpFlushWriteBuffer m).ctx.tx.writebufn = 0 := rfl

/-- The octets behind the end of the buffer do not matter. -/
theorem pending_storeWritebuf (octet : UInt8) {m : Machine}
    (hroom : m.ctx.tx.writebufn < sfpConfigWritebufSize) :
    (storeWritebuf octet m).pending = m.pending ++ [octet] := by
  simp only [storeWritebuf, hroom, Machine.pending, dite_true, Vector.toList_set]
  rw [List.take_succ_eq_append_getElem (by simpa using hroom),
    List.take_set_of_le (Nat.le_refl _)]
  simp

/-- Where there is room an octet is transmitted by storing it. -/
theorem storeWritebuf_spec (octet : UInt8) {m : Machine} (hm : m.ctx.tx.Ready)
    (hroom : m.ctx.tx.writebufn < sfpConfigWritebufSize) :
    Transmits m (storeWritebuf octet m) [octet] where
  ready := by
    rw [storeWritebuf, dif_pos hroom]
    exact ⟨hm.write, hroom⟩
  rx := by simp [storeWritebuf, hroom]
  connectState := by simp [storeWritebuf, hroom]
  seq := by simp [storeWritebuf, hroom]
  history := by simp [storeWritebuf, hroom]
  lock := by simp [storeWritebuf, hroom]
  unlock := by simp [storeWritebuf, hroom]
  calls := by simp [storeWritebuf, hroom, Machine.calls]
  out := by
    -- the wire stays as it is, the octet is pending
    have hwire : (storeWritebuf octet m).wire = m.wire := by
      simp [storeWritebuf, hroom, Machine.wire]
    rw [Machine.out, hwire, pending_storeWritebuf octet hroom, Machine.out, List.append_assoc]

/-- One octet goes out, whether or not the full buffer has to be flushed first. -/
theorem sfpBufferedWrite_spec (octet : UInt8) {m : Machine} (hm : m.ctx.tx.Ready) :
    Transmits m (sfpBufferedWrite octet m).1 [octet] := by
  simp only [sfpBufferedWrite, Machine.assert_write hm]
  split
  next hfull =>
    -- after the flush there is room
    have hflush := sfpFlushWriteBuffer_spec hm
    exact hflush.trans (storeWritebuf_spec octet hflush.ready sfpConfigWritebufSize_pos)
  next hroom => exact storeWritebuf_spec octet hm (Nat.lt_of_not_le hroom)

/-- Each step transmits the octets it puts, -/
theorem transmits_perform (step : WriteStep) {m : Machine} (hm : m.ctx.tx.Ready) :
    Transmits m (perform m step) step.octets := by
  cases step with
  | setCrc crc => exact transmits_setTxCrc crc hm
  | put octet => exact sfpBufferedWrite_spec octet hm

/-- and a run of steps those of all of them. -/
theorem transmits_run (steps : List WriteStep) {m : Machine} (hm : m.ctx.tx.Ready) :
    Transmits m (run perform m steps) (steps.flatMap WriteStep.octets) := by
  induction steps generalizing m with
  | nil => exact transmits_setTxCrc m.ctx.tx.crc hm
  | cons step steps ih =>
    have hfirst := transmits_perform step hm
    exact hfirst.trans (ih hfirst.ready)

/-- **The frame writer** emits `FLAG`, the stuffed content, `FLAG`, and leaves the buffer empty. -/
theorem sfpTransmitFrameWithHeader_spec (header : SFPheader) (packet : Option SFPpacket)
    {m : Machine} (hm : m.ctx.tx.Ready) :
    Transmits m (sfpTransmitFrameWithHeader header packet m).1
        (frameOctets header (packetOctets packet)) ∧
      (sfpTransmitFrameWithHeader header packet m).1.ctx.tx.writebufn = 0 := by
  -- all of the frame is out; the flush only empties the buffer
  have hrun := transmits_run (ofFrame header (packetOctets packet)) hm
  have hall := hrun.trans (sfpFlushWriteBuffer_spec hrun.ready)
  rw [WriteStep.flatMap_octets_ofFrame, List.append_nil] at hall
  rw [sfpTransmitFrameWithHeader_eq]
  exact ⟨hall, rfl⟩

end Libsfp
