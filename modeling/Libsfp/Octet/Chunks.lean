import Libsfp.Lib.WriteBuffer
import Libsfp.Octet.Encoding

/-!
# The Chunks of a Frame

The write callback is handed a chunk whenever the write buffer is full, and the rest at the end of
the frame. Where in the frame a full buffer is flushed depends on how many octets of the content
are reserved: it may be between an escape and the octet it announces, or inside the trailer.

None of this can be seen in the octets. Seen through the chunks of its trace, a machine is the
write buffer of the library, and every layer of the frame writer pushes octets into it. The result
is `sfpTransmitFrameWithHeader_chunks`: put together, the chunks of a frame are the plain encoding.
-/

namespace Libsfp

open Lib (run WriteBuffer)

section Contexts

variable [SfpConfig]

namespace Machine

/-- What an event hands to the write callback. -/
def eventChunk : Event → Option (List UInt8)
  | .write octets => some octets
  | _ => none

/-- The chunks handed to the write callback so far. -/
def chunks (m : Machine) : List (List UInt8) :=
  m.trace.filterMap fun e => eventChunk e.1

/-- The transmitter as a write buffer. -/
def buffer (m : Machine) : WriteBuffer UInt8 := ⟨m.chunks, m.pending⟩

/-- A call of the write callback is a chunk. -/
theorem chunks_emit_write (octets : List UInt8) (m : Machine) :
    (m.emit (.write octets)).chunks = m.chunks ++ [octets] := by
  simp [chunks, emit, eventChunk]

/-- The index counts the octets that wait in the buffer. -/
theorem length_pending {m : Machine} (hm : m.ctx.tx.Ready) :
    m.pending.length = m.ctx.tx.writebufn := by
  simp [pending, hm.writebufn_le]

/-- At index 0 nothing waits. -/
theorem buffer_of_writebufn_eq_zero {m : Machine} (h : m.ctx.tx.writebufn = 0) :
    m.buffer = ⟨m.chunks, []⟩ := by
  rw [buffer, pending_eq_nil h]

end Machine

/-! ## The layers -/

/-- `sfpFlushWriteBuffer` is the flush of the write buffer. -/
theorem buffer_sfpFlushWriteBuffer {m : Machine} (hm : m.ctx.tx.Ready) :
    (sfpFlushWriteBuffer m).buffer = m.buffer.flush := by
  have hchunks : (sfpFlushWriteBuffer m).chunks = m.chunks ++ [m.pending] := by
    rw [sfpFlushWriteBuffer, if_pos hm.write]
    exact Machine.chunks_emit_write m.pending m
  rw [Machine.buffer_of_writebufn_eq_zero (writebufn_sfpFlushWriteBuffer m), hchunks]
  rfl

/-- An octet that is stored waits behind the others. -/
theorem buffer_storeWritebuf (octet : UInt8) {m : Machine}
    (hroom : m.ctx.tx.writebufn < sfpConfigWritebufSize) :
    (storeWritebuf octet m).buffer = ⟨m.chunks, m.pending ++ [octet]⟩ := by
  have hchunks : (storeWritebuf octet m).chunks = m.chunks := by
    rw [storeWritebuf, dif_pos hroom]
    rfl
  rw [Machine.buffer, hchunks, pending_storeWritebuf octet hroom]

/-- **One octet is pushed**, and it never finds the buffer full. -/
theorem buffer_sfpBufferedWrite (octet : UInt8) {m : Machine} (hm : m.ctx.tx.Ready) :
    (sfpBufferedWrite octet m).1.buffer = m.buffer.push sfpConfigWritebufSize octet := by
  have hlen := Machine.length_pending hm
  simp only [sfpBufferedWrite, Machine.assert_write hm]
  by_cases hfull : sfpConfigWritebufSize ≤ m.ctx.tx.writebufn
  · -- the buffer is flushed first, and the octet goes to its front
    have hflush := buffer_sfpFlushWriteBuffer hm
    rw [if_pos hfull, buffer_storeWritebuf octet sfpConfigWritebufSize_pos,
      WriteBuffer.push_of_full (hlen.symm ▸ hfull)]
    show WriteBuffer.mk (sfpFlushWriteBuffer m).buffer.chunks
      ((sfpFlushWriteBuffer m).buffer.pending ++ [octet]) = _
    rw [hflush]
    rfl
  · have hroom : m.ctx.tx.writebufn < sfpConfigWritebufSize := Nat.lt_of_not_le hfull
    rw [if_neg hfull, buffer_storeWritebuf octet hroom,
      WriteBuffer.push_of_room (hlen.symm ▸ hroom)]
    rfl

/-- Each step of the frame writer is a push for every octet it puts. -/
theorem buffer_perform {m : Machine} (hm : m.ctx.tx.Ready) (step : WriteStep) :
    (step.perform m).buffer
      = run (WriteBuffer.push sfpConfigWritebufSize) m.buffer step.octets := by
  cases step with
  | setCrc crc => rfl
  | put octet => exact buffer_sfpBufferedWrite octet hm

/-- Any steps of the frame writer push the octets they put. -/
theorem buffer_run {m : Machine} (hm : m.ctx.tx.Ready) (steps : List WriteStep) :
    (run WriteStep.perform m steps).buffer
      = run (WriteBuffer.push sfpConfigWritebufSize) m.buffer
          (steps.flatMap WriteStep.octets) :=
  Lib.run_simulates_flatMap (fun _ step hm => (transmits_perform step hm).ready)
    (fun _ step hm => buffer_perform hm step) hm steps

/-! ## Frames -/

/-- **Buffered output is the plain encoding.** From an empty buffer, a frame reaches the write
callback in chunks that fit the buffer, none of them empty. Put together they are `FLAG`, the
stuffed content and `FLAG`; no other `FLAG` is among them. Nothing but the chunks is added to the
trace, so no store is out of bounds. All the octets are counted, and the buffer is empty again. -/
theorem sfpTransmitFrameWithHeader_chunks (header : SFPheader) (packet : Option SFPpacket)
    {m : Machine} (hwrite : m.ctx.tx.write = true) (hempty : m.ctx.tx.writebufn = 0) :
    ∃ chunks : List (List UInt8),
      (sfpTransmitFrameWithHeader header packet m).1.chunks = m.chunks ++ chunks
        ∧ (sfpTransmitFrameWithHeader header packet m).1.calls = m.calls
        ∧ chunks.flatten = sfpFlag :: (frameSegment header (packetOctets packet) ++ [sfpFlag])
        ∧ sfpFlag ∉ frameSegment header (packetOctets packet)
        ∧ (∀ chunk ∈ chunks, chunk ≠ [] ∧ chunk.length ≤ sfpConfigWritebufSize)
        ∧ (sfpTransmitFrameWithHeader header packet m).2 = chunks.flatten.length
        ∧ (sfpTransmitFrameWithHeader header packet m).1.ctx.tx.writebufn = 0 := by
  have hm : m.ctx.tx.Ready := ⟨hwrite, hempty ▸ Nat.zero_le _⟩
  have hspec := sfpTransmitFrameWithHeader_spec header packet hm
  -- the frame up to its last `FLAG`, as pushes into an empty buffer
  have hready := (transmits_run (WriteStep.ofFrame header (packetOctets packet)) hm).ready
  have hbuffer := buffer_run hm (WriteStep.ofFrame header (packetOctets packet))
  rw [WriteStep.flatMap_octets_ofFrame, Machine.buffer_of_writebufn_eq_zero hempty] at hbuffer
  obtain ⟨chunks, hchunks, hflatten, hfit⟩ := WriteBuffer.chunks_flush_run
    sfpConfigWritebufSize_pos m.chunks (List.cons_ne_nil sfpFlag
      (frameSegment header (packetOctets packet) ++ [sfpFlag]))
  refine ⟨chunks, ?_, hspec.1.calls, hflatten, ?_, hfit, ?_, hspec.2⟩
  · -- the last chunk is what the flush at the end finds in the buffer
    have hflush := congrArg WriteBuffer.chunks (buffer_sfpFlushWriteBuffer hready)
    rw [hbuffer] at hflush
    rw [sfpTransmitFrameWithHeader_eq]
    exact hflush.trans hchunks
  · exact Lib.Stuffing.flag_notMem_stuff sfpStuffing _
  · rw [hflatten, sfpTransmitFrameWithHeader_eq]
    rfl

end Contexts

section HeaderDefaults

attribute [local instance] headerDefaults

/-- A frame whose header is reserved. -/
theorem sfpTransmitFrameWithHeader_chunks_esc :
    let sent := sfpTransmitFrameWithHeader sfpEsc none
      (.of { SFPcontext.zero with tx.write := true })
    sent.1.chunks.flatten = [0x7e, 0x7d, 0x5d, 0x1a, 0x58, 0x7e] ∧ sent.2 = 6 ∧
      ∀ chunk ∈ sent.1.chunks, chunk ≠ [] ∧ chunk.length ≤ sfpConfigWritebufSize := by
  intro sent
  obtain ⟨chunks, hchunks, -, hflatten, -, hfit, hcount, -⟩ :=
    sfpTransmitFrameWithHeader_chunks sfpEsc none
      (m := .of { SFPcontext.zero with tx.write := true }) rfl rfl
  have hframe : sfpFlag :: (frameSegment sfpEsc (packetOctets none) ++ [sfpFlag])
      = [0x7e, 0x7d, 0x5d, 0x1a, 0x58, 0x7e] := by
    decide
  have hsent : sent.1.chunks = chunks := hchunks
  rw [hframe] at hflatten
  refine ⟨?_, ?_, ?_⟩
  · rw [hsent, hflatten]
  · rw [show sent.2 = chunks.flatten.length from hcount, hflatten]
    rfl
  · rw [hsent]
    exact hfit

end HeaderDefaults

end Libsfp
