import Libsfp.Api.Calls

/-!
# What Is Added to the Trace

`Transmits` and `Does` say which octets and packets a step adds to the trace. Here is what else:
everything that runs under the transmitter lock only ever calls the write callback, so the other
events of a call can be written down.

`Inside` is that statement. It composes, and each handler that runs under the lock has it.
-/

namespace Libsfp

open Lib (run)

variable [SfpConfig]

/-- `m'` is `m` after something that called nothing but the write callback. -/
structure Inside (m m' : Machine) : Prop where
  ready : m'.ctx.tx.Ready
  lock : m'.ctx.tx.lock = m.ctx.tx.lock
  unlock : m'.ctx.tx.unlock = m.ctx.tx.unlock
  trace : ∃ writes : List (List UInt8 × SFPcontext),
    m'.trace = m.trace ++ writes.map fun w => (.write w.1, w.2)

namespace Inside

variable {m m' m'' : Machine}

/-- One thing after another inside the same scope. -/
theorem trans (h : Inside m m') (h' : Inside m' m'') : Inside m m'' where
  ready := h'.ready
  lock := h'.lock.trans h.lock
  unlock := h'.unlock.trans h.unlock
  trace := by
    obtain ⟨writes, hwrites⟩ := h.trace
    obtain ⟨writes', hwrites'⟩ := h'.trace
    exact ⟨writes ++ writes', by rw [hwrites', hwrites, List.map_append, List.append_assoc]⟩

/-- A change of the context alone. -/
theorem of_trace (hready : m'.ctx.tx.Ready) (hlock : m'.ctx.tx.lock = m.ctx.tx.lock)
    (hunlock : m'.ctx.tx.unlock = m.ctx.tx.unlock) (htrace : m'.trace = m.trace) : Inside m m' :=
  ⟨hready, hlock, hunlock, [], by rw [htrace, List.map_nil, List.append_nil]⟩

theorem refl (hm : m.ctx.tx.Ready) : Inside m m := of_trace hm rfl rfl rfl

end Inside

/-! ## Setters -/

section Setters

variable {m : Machine} (hm : m.ctx.tx.Ready)

include hm

theorem inside_setTxCrc (crc : SFPcrc) : Inside m (m.setTxCrc crc) :=
  .of_trace ⟨hm.write, hm.writebufn_le⟩ rfl rfl rfl

theorem inside_setTxSeq (seq : SFPseq) : Inside m (m.setTxSeq seq) :=
  .of_trace ⟨hm.write, hm.writebufn_le⟩ rfl rfl rfl

theorem inside_setHistory (h : PotRingbuffer SFPpacket sfpConfigHistoryCapacity) :
    Inside m (m.setHistory h) :=
  .of_trace ⟨hm.write, hm.writebufn_le⟩ rfl rfl rfl

theorem inside_setRxSeq (seq : SFPseq) : Inside m (m.setRxSeq seq) :=
  .of_trace hm rfl rfl rfl

theorem inside_setConnectState (s : SFPconnectstate) : Inside m (m.setConnectState s) :=
  .of_trace hm rfl rfl rfl

theorem inside_sfpResetReceiver : Inside m (sfpResetReceiver m) :=
  .of_trace hm rfl rfl rfl

end Setters

/-! ## The frame writer -/

section Writer

variable {m : Machine} (hm : m.ctx.tx.Ready)

include hm

/-- A chunk is written inside, -/
theorem inside_sfpFlushWriteBuffer : Inside m (sfpFlushWriteBuffer m) := by
  refine ⟨(sfpFlushWriteBuffer_spec hm).ready, (sfpFlushWriteBuffer_spec hm).lock,
    (sfpFlushWriteBuffer_spec hm).unlock, [(m.ctx.tx.writebuf.toList.take m.ctx.tx.writebufn,
      m.ctx)], ?_⟩
  simp [sfpFlushWriteBuffer, hm.write, Machine.emit]

/-- an octet stored, -/
theorem inside_storeWritebuf (octet : UInt8) (hroom : m.ctx.tx.writebufn < sfpConfigWritebufSize) :
    Inside m (storeWritebuf octet m) := by
  have hspec := storeWritebuf_spec octet hm hroom
  exact .of_trace hspec.ready hspec.lock hspec.unlock (by simp [storeWritebuf, hroom])

/-- an octet written, -/
theorem inside_sfpBufferedWrite (octet : UInt8) : Inside m (sfpBufferedWrite octet m).1 := by
  simp only [sfpBufferedWrite, Machine.assert_write hm]
  split
  next hfull =>
    -- the flush in mid-frame makes room, so the store succeeds
    have hflush := inside_sfpFlushWriteBuffer hm
    exact hflush.trans (inside_storeWritebuf hflush.ready octet sfpConfigWritebufSize_pos)
  next hroom => exact inside_storeWritebuf hm octet (Nat.lt_of_not_le hroom)

omit hm in
/-- and any steps of the frame writer are taken. -/
theorem inside_run (steps : List WriteStep) {m : Machine} (hm : m.ctx.tx.Ready) :
    Inside m (run WriteStep.perform m steps) := by
  induction steps generalizing m with
  | nil => exact .refl hm
  | cons step steps ih =>
    have hfirst : Inside m (WriteStep.perform m step) := by
      cases step with
      | setCrc crc => exact inside_setTxCrc hm crc
      | put octet => exact inside_sfpBufferedWrite hm octet
    exact hfirst.trans (ih hfirst.ready)

/-- **Frames are transmitted inside the scope of the lock** that the caller holds, -/
theorem inside_sfpTransmitFrameWithHeader (header : SFPheader) (packet : Option SFPpacket) :
    Inside m (sfpTransmitFrameWithHeader header packet m).1 := by
  rw [sfpTransmitFrameWithHeader_eq]
  have hrun := inside_run (WriteStep.ofFrame header (packetOctets packet)) hm
  exact hrun.trans (inside_sfpFlushWriteBuffer hrun.ready)

theorem inside_sfpTransmitControl (type : SFPframetype) (seq : SFPseq) :
    Inside m (sfpTransmitControl type seq m) :=
  inside_sfpTransmitFrameWithHeader hm (makeHeader type seq) none

/-- those with a packet -/
theorem inside_sfpTransmitFrameImpl (packet : SFPpacket) (retransmit : Bool) :
    Inside m (sfpTransmitFrameImpl packet retransmit m).1 := by
  obtain ⟨header, hheader⟩ :
      ∃ h, makeHeader (if retransmit then .rtx else .usr) m.ctx.tx.seq = h := ⟨_, rfl⟩
  have hrest : ∀ m' : Machine, Inside m m' →
      Inside m ((sfpTransmitFrameWithHeader header (some packet) m').1.setTxSeq
        (nextSeq (sfpTransmitFrameWithHeader header (some packet) m').1.ctx.tx.seq)) := by
    intro m' h
    have hframe := h.trans (inside_sfpTransmitFrameWithHeader h.ready header (some packet))
    exact hframe.trans (inside_setTxSeq hframe.ready _)
  unfold sfpTransmitFrameImpl
  rw [hheader]
  cases retransmit with
  -- a retransmission leaves the history alone
  | true => exact hrest m (.refl hm)
  | false => exact hrest _ (inside_setHistory hm (m.ctx.tx.history.pushBack packet))

end Writer

/-! ## Handlers -/

section Handlers

/-- and those of the history alike. -/
theorem inside_foldl_sfpTransmitRTX (packets : List SFPpacket) {m : Machine}
    (hm : m.ctx.tx.Ready) :
    Inside m (packets.foldl (fun m packet => sfpTransmitRTX packet m) m) := by
  induction packets generalizing m with
  | nil => exact .refl hm
  | cons packet packets ih =>
    have hfirst : Inside m (sfpTransmitRTX packet m) := inside_sfpTransmitFrameImpl hm packet true
    exact hfirst.trans (ih hfirst.ready)

variable {m : Machine} (hm : m.ctx.tx.Ready)

include hm

/-- So is a replay, -/
theorem inside_sfpTransmitHistoryFromSeq (seq : SFPseq) :
    Inside m (sfpTransmitHistoryFromSeq seq m) := by
  have hrest : ∀ m' : Machine, Inside m m' →
      Inside m (sfpTransmitHistory (m'.setTxSeq seq)) := by
    intro m' h
    have hset := h.trans (inside_setTxSeq h.ready seq)
    exact hset.trans (inside_foldl_sfpTransmitRTX _ hset.ready)
  unfold sfpTransmitHistoryFromSeq
  simp only
  split
  · exact hrest _ (inside_setHistory hm _)
  · -- the underrun branch: the history stays whole
    exact hrest m (.refl hm)

theorem inside_sfpClearHistory : Inside m (sfpClearHistory m) := inside_setHistory hm _

/-- if there is any. -/
theorem inside_replayIfWritten : Inside m (replayIfWritten m) := by
  unfold replayIfWritten
  split
  · exact inside_sfpTransmitHistoryFromSeq hm sfpInitialSeq
  · exact .refl hm

/-- What `sfpConnect` does with the lock held. -/
theorem inside_newSession : Inside m ((sfpTransmitSYN0 (sfpClearHistory
    (m.setTxSeq sfpInitialSeq))).setConnectState .sentSyn0) := by
  have htx := inside_setTxSeq hm sfpInitialSeq
  have hclear := htx.trans (inside_sfpClearHistory htx.ready)
  have hsyn := hclear.trans (inside_sfpTransmitControl hclear.ready .syn sfpSeqSyn0)
  exact hsyn.trans (inside_setConnectState hsyn.ready .sentSyn0)

/-- The handlers of control frames run inside the scope as a whole. -/
theorem inside_sfpHandleSYN0 : Inside m (sfpHandleSYN0 m) := by
  have hreset := inside_sfpResetReceiver hm
  have hrx := hreset.trans (inside_setRxSeq hreset.ready sfpInitialSeq)
  have htx := hrx.trans (inside_setTxSeq hrx.ready sfpInitialSeq)
  have hclear := htx.trans (inside_sfpClearHistory htx.ready)
  have hsyn := hclear.trans (inside_sfpTransmitControl hclear.ready .syn sfpSeqSyn1)
  exact hsyn.trans (inside_setConnectState hsyn.ready .sentSyn1)

theorem inside_sfpHandleSYN1 : Inside m (sfpHandleSYN1 m) := by
  have hsyn := inside_sfpTransmitControl hm .syn sfpSeqSyn2
  have hreplay := hsyn.trans (inside_replayIfWritten hsyn.ready)
  have hstate := hreplay.trans (inside_setConnectState hreplay.ready .connected)
  unfold sfpHandleSYN1
  cases m.ctx.connectState with
  | disconnected => exact inside_sfpTransmitControl hm .syn sfpSeqSynDis
  | _ => exact hstate

theorem inside_sfpHandleSYN2 : Inside m (sfpHandleSYN2 m) := by
  have hreplay := inside_replayIfWritten hm
  have hstate := hreplay.trans (inside_setConnectState hreplay.ready .connected)
  unfold sfpHandleSYN2
  cases m.ctx.connectState with
  | disconnected => exact inside_sfpTransmitControl hm .syn sfpSeqSynDis
  | sentSyn0 => exact inside_sfpTransmitControl hm .syn sfpSeqSyn0
  | _ => exact hstate

theorem inside_sfpHandleNAK : Inside m (sfpHandleNAK m) := by
  unfold sfpHandleNAK
  cases m.ctx.connectState with
  | disconnected => exact inside_sfpTransmitControl hm .syn sfpSeqSynDis
  | sentSyn0 => exact inside_sfpTransmitControl hm .syn sfpSeqSyn0
  | sentSyn1 => exact inside_sfpTransmitControl hm .syn sfpSeqSyn1
  | connected =>
    simp only
    split
    · -- the only answer that reads the history
      exact inside_sfpTransmitHistoryFromSeq hm _
    · exact .refl hm

theorem inside_sfpHandleSYN : Inside m (sfpHandleSYN m) := by
  unfold sfpHandleSYN
  simp only
  split
  · exact inside_sfpHandleSYN0 hm
  split
  · exact inside_sfpHandleSYN1 hm
  split
  · exact inside_sfpHandleSYN2 hm
  split
  · exact inside_setConnectState hm .disconnected
  · exact .refl hm

end Handlers

/-! ## Octets -/

/-- Before the end of a frame only the receiver changes, and nothing is returned. -/
theorem sfpDeliverOctet_tacit {octet : UInt8} {m : Machine} (buf : Option Nat)
    (h : ¬ (sfpFlag = octet ∧ m.ctx.rx.frameState = .receiving)) :
    (sfpDeliverOctet octet buf m).1.trace = m.trace ∧
      (sfpDeliverOctet octet buf m).1.ctx.tx = m.ctx.tx ∧
      (sfpDeliverOctet octet buf m).1.ctx.connectState = m.ctx.connectState ∧
      (sfpDeliverOctet octet buf m).1.ctx.rx.seq = m.ctx.rx.seq ∧
      (sfpDeliverOctet octet buf m).2 = ⟨0, none⟩ := by
  unfold sfpDeliverOctet
  by_cases hflag : sfpFlag = octet
  · rw [if_pos hflag]
    -- a `FLAG` between frames only resets the receiver
    cases hstate : m.ctx.rx.frameState with
    | new => exact ⟨rfl, rfl, rfl, rfl, rfl⟩
    | receiving => exact absurd ⟨hflag, hstate⟩ h
  · rw [if_neg hflag]
    split
    · -- `ESC`
      exact ⟨rfl, rfl, rfl, rfl, rfl⟩
    · simp only
      cases m.ctx.rx.frameState with
      | new => exact ⟨rfl, rfl, rfl, rfl, rfl⟩
      | receiving =>
        -- the octet is stored, or there is no room and the frame is dropped
        simp only [sfpBufferOctet]
        split <;> exact ⟨rfl, rfl, rfl, rfl, trivial⟩

end Libsfp
