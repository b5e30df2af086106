import Libsfp.Api.History
import Libsfp.Api.Safety

/-!
# Deliveries

What a context delivers depends on the octets it is fed and on nothing else: not on what is written
in between, and not on how often it is fed. `SameRx` relates two machines whose receiver and
connection state agree; an octet keeps it and has the same result in both.
-/

namespace Libsfp

open Lib (run)

variable [SfpConfig]

/-! ## The receiving half -/

/-- Two machines that will hear the same. -/
structure SameRx (m m' : Machine) : Prop where
  rx : m.ctx.rx = m'.ctx.rx
  connectState : m.ctx.connectState = m'.ctx.connectState

namespace SameRx

variable {m m' m'' : Machine}

theorem refl (m : Machine) : SameRx m m := ⟨rfl, rfl⟩

theorem symm (h : SameRx m m') : SameRx m' m := ⟨h.rx.symm, h.connectState.symm⟩

theorem trans (h : SameRx m m') (h' : SameRx m' m'') : SameRx m m'' :=
  ⟨h.rx.trans h'.rx, h.connectState.trans h'.connectState⟩

/-- Two machines that changed nothing of it. -/
theorem of_quiet (h : SameRx m m') {n n' : Machine} (hn : SameRx n m) (hn' : SameRx n' m') :
    SameRx n n' := (hn.trans h).trans hn'.symm

/-- Events have no part in it. -/
theorem emit (h : SameRx m m') (e e' : Event) : SameRx (m.emit e) (m'.emit e') :=
  ⟨h.rx, h.connectState⟩

theorem setConnectState (h : SameRx m m') (s : SFPconnectstate) :
    SameRx (m.setConnectState s) (m'.setConnectState s) := ⟨h.rx, rfl⟩

theorem sfpResetReceiver (h : SameRx m m') :
    SameRx (Libsfp.sfpResetReceiver m) (Libsfp.sfpResetReceiver m') := by
  refine ⟨?_, h.connectState⟩
  simp only [Libsfp.sfpResetReceiver, h.rx]

end SameRx

/-! ## What leaves it alone -/

section Quiet

variable {m : Machine}

/-- A scope is as quiet as its body. -/
theorem quiet_transmitterLock {body : Machine → Machine}
    (hbody : SameRx (body (sfpLockTransmitter m)) m) : SameRx (transmitterLock body m) m := by
  refine ⟨?_, ?_⟩
  · rw [transmitterLock, ctx_sfpUnlockTransmitter]
    exact hbody.rx
  · rw [transmitterLock, ctx_sfpUnlockTransmitter]
    exact hbody.connectState

theorem quiet_sfpLockTransmitter : SameRx (sfpLockTransmitter m) m := by
  refine ⟨?_, ?_⟩ <;> rw [ctx_sfpLockTransmitter]

/-- Control frames leave the receiver alone, -/
theorem quiet_control (hm : m.ctx.tx.Ready) (type : SFPframetype) (seq : SFPseq) :
    SameRx (sfpTransmitControl type seq m) m := by
  have hspec := (sfpTransmitFrameWithHeader_spec (makeHeader type seq) none hm).1
  exact ⟨hspec.rx, hspec.connectState⟩

/-- A control frame sent under the lock. -/
theorem quiet_lockedControl (hm : m.ctx.tx.Ready) (type : SFPframetype) (seq : SFPseq) :
    SameRx (transmitterLock (sfpTransmitControl type seq) m) m := by
  apply quiet_transmitterLock
  have hready : (sfpLockTransmitter m).ctx.tx.Ready := by rwa [ctx_sfpLockTransmitter]
  exact (quiet_control hready type seq).trans quiet_sfpLockTransmitter

/-- replays do too, -/
theorem quiet_sfpTransmitHistoryFromSeq (hm : m.ctx.Idle) {seq : SFPseq}
    (hseq : seq.toNat < seqRange) : SameRx (sfpTransmitHistoryFromSeq seq m) m := by
  obtain ⟨-, hrx, hstate⟩ := entries_sfpTransmitHistoryFromSeq hm hseq
  exact ⟨hrx, hstate⟩

/-- from whatever label. -/
theorem quiet_replayIfWritten (hm : m.ctx.Idle) : SameRx (replayIfWritten m) m := by
  unfold replayIfWritten
  split
  · exact quiet_sfpTransmitHistoryFromSeq hm (by decide)
  · exact .refl m

/-- Writing a packet. -/
theorem quiet_sfpWritePacket (hm : m.ctx.Idle) (stack : Vector UInt8 sfpConfigMaxPacketSize)
    (packet : List UInt8) (le : packet.length ≤ sfpConfigMaxPacketSize) :
    SameRx (sfpWritePacket stack packet le m).1 m := by
  have habs := (does_sfpWritePacket hm stack packet le).abs
  exact ⟨rx_sfpWritePacket hm stack packet le, congrArg Endpoint.connectState habs⟩

end Quiet

/-! ## Handlers -/

section Handlers

/-- A scope on both machines. -/
theorem sameRx_locked {m m' : Machine} {body : Machine → Machine}
    (hbody : SameRx (body (sfpLockTransmitter m)) (body (sfpLockTransmitter m'))) :
    SameRx (transmitterLock body m) (transmitterLock body m') := by
  refine ⟨?_, ?_⟩
  · rw [transmitterLock, transmitterLock, ctx_sfpUnlockTransmitter, ctx_sfpUnlockTransmitter]
    exact hbody.rx
  · rw [transmitterLock, transmitterLock, ctx_sfpUnlockTransmitter, ctx_sfpUnlockTransmitter]
    exact hbody.connectState

variable {m m' : Machine} (h : SameRx m m')

include h

/-- Control frames on both machines, whatever labels they carry. -/
theorem sameRx_control (hm : m.ctx.tx.Ready) (hm' : m'.ctx.tx.Ready) (type : SFPframetype)
    (seq seq' : SFPseq) :
    SameRx (sfpTransmitControl type seq m) (sfpTransmitControl type seq' m') :=
  h.of_quiet (quiet_control hm type seq) (quiet_control hm' type seq')

/-- **The handlers** do to the receiver what the receiver and the state say. -/
theorem sameRx_sfpHandleSYN0 (hm : m.ctx.Idle) (hm' : m'.ctx.Idle) :
    SameRx (sfpHandleSYN0 m) (sfpHandleSYN0 m') := by
  unfold sfpHandleSYN0
  apply SameRx.setConnectState
  apply sameRx_control
  · -- both receivers are reset, whatever was in the transmitters
    refine ⟨?_, h.connectState⟩
    simp only [sfpClearHistory, Machine.setHistory, Machine.setTxSeq, Machine.setRxSeq,
      sfpResetReceiver, h.rx]
  · exact ⟨hm.write, hm.ready.writebufn_le⟩
  · exact ⟨hm'.write, hm'.ready.writebufn_le⟩

theorem sameRx_sfpHandleSYN1 (hm : m.ctx.Idle) (hm' : m'.ctx.Idle) :
    SameRx (sfpHandleSYN1 m) (sfpHandleSYN1 m') := by
  -- what is replayed differs, but replaying is not heard
  have hquiet : ∀ m : Machine, m.ctx.Idle → SameRx (replayIfWritten (sfpTransmitSYN2 m)) m := by
    intro m hm
    exact (quiet_replayIfWritten (does_sfpTransmitSYN2 hm).idle).trans
      (quiet_control hm.ready .syn sfpSeqSyn2)
  unfold sfpHandleSYN1
  rw [h.connectState]
  cases m'.ctx.connectState with
  | disconnected => exact sameRx_control h hm.ready hm'.ready .syn _ _
  | _ => exact (h.of_quiet (hquiet m hm) (hquiet m' hm')).setConnectState .connected

theorem sameRx_sfpHandleSYN2 (hm : m.ctx.Idle) (hm' : m'.ctx.Idle) :
    SameRx (sfpHandleSYN2 m) (sfpHandleSYN2 m') := by
  unfold sfpHandleSYN2
  rw [h.connectState]
  cases m'.ctx.connectState with
  | disconnected => exact sameRx_control h hm.ready hm'.ready .syn _ _
  | sentSyn0 => exact sameRx_control h hm.ready hm'.ready .syn _ _
  | _ =>
    have hquiet := h.of_quiet (quiet_replayIfWritten hm) (quiet_replayIfWritten hm')
    exact hquiet.setConnectState .connected

/-- A retransmission changes nothing that is heard. -/
theorem sameRx_sfpHandleNAK (hm : m.ctx.Idle) (hm' : m'.ctx.Idle) :
    SameRx (sfpHandleNAK m) (sfpHandleNAK m') := by
  -- the histories may differ: only one side of each machine matters
  have hquiet : ∀ m : Machine, m.ctx.Idle → m.ctx.connectState = .connected →
      SameRx (sfpHandleNAK m) m := by
    intro m hm hstate
    obtain ⟨hrx, hconnected⟩ := sfpHandleNAK_keeps hm hstate
    exact ⟨hrx, hconnected.trans hstate.symm⟩
  cases hstate : m'.ctx.connectState with
  | disconnected =>
    simp only [sfpHandleNAK, h.connectState, hstate]
    exact sameRx_control h hm.ready hm'.ready .syn _ _
  | sentSyn0 =>
    simp only [sfpHandleNAK, h.connectState, hstate]
    exact sameRx_control h hm.ready hm'.ready .syn _ _
  | sentSyn1 =>
    simp only [sfpHandleNAK, h.connectState, hstate]
    exact sameRx_control h hm.ready hm'.ready .syn _ _
  | connected =>
    exact h.of_quiet (hquiet m hm (h.connectState.trans hstate)) (hquiet m' hm' hstate)

/-- The `SEQ` of the header chooses the same handler. -/
theorem sameRx_sfpHandleSYN (hm : m.ctx.Idle) (hm' : m'.ctx.Idle) :
    SameRx (sfpHandleSYN m) (sfpHandleSYN m') := by
  unfold sfpHandleSYN
  rw [h.rx]
  simp only
  split
  · exact sameRx_sfpHandleSYN0 h hm hm'
  split
  · exact sameRx_sfpHandleSYN1 h hm hm'
  split
  · exact sameRx_sfpHandleSYN2 h hm hm'
  split
  · exact h.setConnectState .disconnected
  · exact h

/-- The handler of packets, with what it returns. -/
theorem sameRx_sfpHandleUSR (hm : m.ctx.Idle) (hm' : m'.ctx.Idle) :
    SameRx (sfpHandleUSR m).1 (sfpHandleUSR m').1 ∧ (sfpHandleUSR m).2 = (sfpHandleUSR m').2 := by
  have hcontrol : ∀ type seq, SameRx (transmitterLock (sfpTransmitControl type seq) m)
      (transmitterLock (sfpTransmitControl type seq) m') := fun type seq =>
    h.of_quiet (quiet_lockedControl hm.ready type seq) (quiet_lockedControl hm'.ready type seq)
  unfold sfpHandleUSR
  rw [h.connectState]
  cases m'.ctx.connectState with
  | disconnected => exact ⟨hcontrol .syn sfpSeqSynDis, rfl⟩
  | sentSyn0 => exact ⟨hcontrol .syn sfpSeqSyn0, rfl⟩
  | sentSyn1 => exact ⟨hcontrol .syn sfpSeqSyn1, rfl⟩
  | connected =>
    -- the lock is taken and released before the packet is looked at
    have hscope : SameRx (transmitterLock id m) (transmitterLock id m') :=
      h.of_quiet (quiet_transmitterLock quiet_sfpLockTransmitter)
        (quiet_transmitterLock quiet_sfpLockTransmitter)
    have hready : ∀ m : Machine, m.ctx.Idle → (transmitterLock id m).ctx.tx.Ready := by
      intro m hm
      rw [transmitterLock, ctx_sfpUnlockTransmitter, id, ctx_sfpLockTransmitter]
      exact hm.ready
    simp only [hscope.rx]
    split
    · -- out of order: at most a `NAK`
      split
      · exact ⟨hscope.of_quiet (quiet_lockedControl (hready m hm) .nak _)
          (quiet_lockedControl (hready m' hm') .nak _), rfl⟩
      · exact ⟨hscope, rfl⟩
    · -- in order: it is handed over, and the next one is expected
      refine ⟨⟨?_, ?_⟩, rfl⟩
      · split
        · simp only [Machine.setRxSeq, Machine.emit, hscope.rx]
        · simp only [Machine.setRxSeq, hscope.rx]
      · split
        · exact hscope.connectState
        · exact hscope.connectState

/-- The same frame is dispatched, and the same length is returned. -/
theorem sameRx_dispatchFrame (hm : m.ctx.Idle) (hm' : m'.ctx.Idle) :
    SameRx (dispatchFrame m).1 (dispatchFrame m').1 ∧
      (dispatchFrame m).2 = (dispatchFrame m').2 := by
  have hlocked : ∀ body : Machine → Machine, ∀ e : Event,
      (∀ m m' : Machine, SameRx m m' → m.ctx.Idle → m'.ctx.Idle → SameRx (body m) (body m')) →
      SameRx (transmitterLock body (m.emit e)) (transmitterLock body (m'.emit e)) := by
    intro body e hbody
    apply sameRx_locked
    apply hbody
    · exact (h.emit e e).of_quiet quiet_sfpLockTransmitter quiet_sfpLockTransmitter
    · rw [ctx_sfpLockTransmitter]
      exact hm
    · rw [ctx_sfpLockTransmitter]
      exact hm'
  unfold dispatchFrame
  rw [h.rx]
  -- the same frame was received, so the same is logged
  generalize Event.frameReceived _ _ = e
  have hemit : (m.emit e).ctx.rx = (m'.emit e).ctx.rx := h.rx
  simp only [hemit]
  cases getFrameType (m'.emit e).ctx.rx.header with
  | usr => exact sameRx_sfpHandleUSR (h.emit e e) hm hm'
  | rtx => exact sameRx_sfpHandleUSR (h.emit e e) hm hm'
  | nak => exact ⟨hlocked sfpHandleNAK e fun _ _ => sameRx_sfpHandleNAK, rfl⟩
  | syn => exact ⟨hlocked sfpHandleSYN e fun _ _ => sameRx_sfpHandleSYN, rfl⟩

/-- What was collected is judged alike. -/
theorem sameRx_sfpHandleFrame (hm : m.ctx.Idle) (hm' : m'.ctx.Idle) :
    SameRx (sfpHandleFrame m).1 (sfpHandleFrame m').1 := by
  have hcontrol : ∀ (n n' : Machine) (seq seq' : SFPseq), SameRx n n' → n.ctx.Idle → n'.ctx.Idle →
      SameRx (transmitterLock (sfpTransmitNAK seq) n) (transmitterLock (sfpTransmitNAK seq') n') :=
    fun n n' seq seq' hn hidle hidle' => hn.of_quiet (quiet_lockedControl hidle.ready .nak seq)
      (quiet_lockedControl hidle'.ready .nak seq')
  have hrewind : SameRx (rewindCrc m) (rewindCrc m') := by
    refine ⟨?_, h.connectState⟩
    simp only [rewindCrc, h.rx]
  -- taking the CRC off the packet touches the receiver only
  have hidle : (rewindCrc m).ctx.Idle := ⟨hm.write, hm.writebufn, hm.txSeq_lt, hm.rxSeq_lt⟩
  have hidle' : (rewindCrc m').ctx.Idle := ⟨hm'.write, hm'.writebufn, hm'.txSeq_lt, hm'.rxSeq_lt⟩
  unfold sfpHandleFrame
  rw [h.rx]
  split
  · exact hcontrol _ _ _ _ (h.emit .shortFrame .shortFrame) hm hm'
  · simp only [hrewind.rx]
    split
    · exact hcontrol _ _ _ _ (hrewind.emit .crcMismatch .crcMismatch) hidle hidle'
    · exact (sameRx_dispatchFrame hrewind hidle hidle').1

/-- **One octet does the same to both**, and has the same result. -/
theorem sameRx_sfpDeliverOctet (hm : m.ctx.Idle) (hm' : m'.ctx.Idle) (octet : UInt8) (len : Nat) :
    SameRx (sfpDeliverOctet octet (some len) m).1 (sfpDeliverOctet octet (some len) m').1 ∧
      (sfpDeliverOctet octet (some len) m).2 = (sfpDeliverOctet octet (some len) m').2 := by
  -- the machines first, then the results
  constructor
  · by_cases hcloses : sfpFlag = octet ∧ m.ctx.rx.frameState = .receiving
    · have hcall : ∀ n : Machine, n.ctx.rx.frameState = .receiving →
          (sfpDeliverOctet octet (some len) n).1
            = Libsfp.sfpResetReceiver (sfpHandleFrame n).1 := by
        intro n hstate
        rw [sfpDeliverOctet, if_pos hcloses.1, hstate]
      rw [hcall m hcloses.2, hcall m' (h.rx ▸ hcloses.2)]
      exact (sameRx_sfpHandleFrame h hm hm').sfpResetReceiver
    · -- nothing but the receiver changes
      have hcloses' : ¬ (sfpFlag = octet ∧ m'.ctx.rx.frameState = .receiving) := h.rx ▸ hcloses
      obtain ⟨-, -, hstate, -, -⟩ := sfpDeliverOctet_tacit (some len) hcloses
      obtain ⟨-, -, hstate', -, -⟩ := sfpDeliverOctet_tacit (some len) hcloses'
      refine ⟨?_, hstate.trans (h.connectState.trans hstate'.symm)⟩
      unfold sfpDeliverOctet
      -- a `FLAG` between frames, an `ESC`, or an octet of the frame
      by_cases hflag : sfpFlag = octet
      · have hnew : m'.ctx.rx.frameState = .new := by
          cases hnew : m'.ctx.rx.frameState with
          | new => rfl
          | receiving => exact absurd ⟨hflag, hnew⟩ hcloses'
        simp only [if_pos hflag, h.rx, hnew]
        exact h.sfpResetReceiver.rx
      · rw [if_neg hflag, if_neg hflag]
        split
        · simp only [h.rx]
        · cases hnew : m'.ctx.rx.frameState with
          | new => simp only [h.rx, hnew]
          | receiving =>
            simp only [sfpBufferOctet, h.rx, hnew]
            split
            · rfl
            · rfl
  · obtain ⟨-, hresult⟩ := sfpDeliverOctet_notes hm.ready octet len
    obtain ⟨-, hresult'⟩ := sfpDeliverOctet_notes hm'.ready octet len
    have hrewound : m.ctx.rewound.rx = m'.ctx.rewound.rx := by
      simp only [SFPcontext.rewound, rewindCrc, Machine.of, h.rx]
    -- whether a packet is handed out can be read off the receiving half
    have hdelivers : m.ctx.Delivers octet ↔ m'.ctx.Delivers octet := by
      have hstate : m.ctx.rewound.connectState = m'.ctx.rewound.connectState := h.connectState
      unfold SFPcontext.Delivers SFPcontext.Closes SFPcontext.Good SFPcontext.Accepts
      rw [hrewound, hstate, h.rx]
    rw [hresult, hresult', hrewound]
    by_cases hd : m.ctx.Delivers octet
    · rw [if_pos hd, if_pos (hdelivers.mp hd)]
    · rw [if_neg hd, if_neg fun h' => hd (hdelivers.mpr h')]

end Handlers

/-! ## A delivery leaves the context connected -/

/-- A packet is returned in a session only. -/
theorem connected_of_sfpHandleUSR {m : Machine} (h : (sfpHandleUSR m).2 ≠ 0) :
    (sfpHandleUSR m).1.ctx.connectState = .connected := by
  unfold sfpHandleUSR at h ⊢
  cases hstate : m.ctx.connectState with
  | disconnected => simp [hstate] at h
  | sentSyn0 => simp [hstate] at h
  | sentSyn1 => simp [hstate] at h
  | connected =>
    have hscope : (transmitterLock id m).ctx.connectState = .connected := by
      rw [transmitterLock, ctx_sfpUnlockTransmitter, id, ctx_sfpLockTransmitter, hstate]
    simp only [hstate] at h ⊢
    -- out of order, the handler returns 0
    split at h
    · split at h
      · exact absurd rfl h
      · exact absurd rfl h
    · rename_i hseq
      rw [if_neg hseq]
      split
      · exact hscope
      · exact hscope

/-- The same for whatever frame was received, -/
theorem connected_of_sfpHandleFrame {m : Machine} (h : (sfpHandleFrame m).2 ≠ 0) :
    (sfpHandleFrame m).1.ctx.connectState = .connected := by
  rcases sfpHandleFrame_cases m with ⟨-, heq⟩ | ⟨-, -, heq⟩ | ⟨-, -, heq⟩
  · rw [heq] at h
    exact absurd rfl h
  · rw [heq] at h
    exact absurd rfl h
  rw [heq] at h ⊢
  -- only the handler of packets returns anything
  unfold dispatchFrame at h ⊢
  generalize Machine.emit _ (rewindCrc m) = m' at h ⊢
  simp only at h ⊢
  cases htype : getFrameType m'.ctx.rx.header with
  | usr =>
    simp only [htype] at h ⊢
    exact connected_of_sfpHandleUSR h
  | rtx =>
    simp only [htype] at h ⊢
    exact connected_of_sfpHandleUSR h
  | nak =>
    simp only [htype] at h
    exact absurd rfl h
  | syn =>
    simp only [htype] at h
    exact absurd rfl h

/-- and for what was copied to the caller. -/
theorem connected_of_copied {m : Machine} {octet : UInt8} {len : Nat} {packet : List UInt8}
    (h : (sfpDeliverOctet octet (some len) m).2.copied = some packet) :
    (sfpDeliverOctet octet (some len) m).1.ctx.connectState = .connected := by
  by_cases hcloses : sfpFlag = octet ∧ m.ctx.rx.frameState = .receiving
  · unfold sfpDeliverOctet at h ⊢
    rw [if_pos hcloses.1, hcloses.2] at h ⊢
    simp only at h ⊢
    split at h
    · rename_i hret
      exact connected_of_sfpHandleFrame hret
    · cases h
  · -- nothing is copied in the middle of a frame
    rw [(sfpDeliverOctet_tacit (some len) hcloses).2.2.2.2] at h
    cases h

/-! ## Deliveries -/

/-- The packet that a call handed out, if it was not empty. -/
def DeliverResult.message (r : DeliverResult) : List (List UInt8) :=
  (r.copied.toList).filter (· ≠ [])

/-- The packets of nonzero length that `sfpDeliverOctet` hands out when it is fed the octets. -/
def deliveries : List UInt8 → Machine → List (List UInt8)
  | [], _ => []
  | octet :: octets, m =>
    let (m', result) := sfpDeliverOctet octet (some sfpConfigMaxPacketSize) m
    result.message ++ deliveries octets m'

@[simp] theorem deliveries_nil (m : Machine) : deliveries [] m = [] := rfl

theorem deliveries_cons (octet : UInt8) (octets : List UInt8) (m : Machine) :
    deliveries (octet :: octets) m
      = (sfpDeliverOctet octet (some sfpConfigMaxPacketSize) m).2.message
        ++ deliveries octets (sfpDeliverOctet octet none m).1 := by
  rw [← fst_sfpDeliverOctet octet (some sfpConfigMaxPacketSize)]
  rfl

/-- Deliveries of a string in two parts. -/
theorem deliveries_append (l k : List UInt8) (m : Machine) :
    deliveries (l ++ k) m = deliveries l m ++ deliveries k (deliverOctets l m) := by
  induction l generalizing m with
  | nil => rfl
  | cons octet l ih =>
    rw [List.cons_append, deliveries_cons, ih, deliveries_cons, deliverOctets_cons,
      List.append_assoc]

/-- An octet leaves the context between API calls, -/
theorem between_sfpDeliverOctet {m : Machine} (hm : m.ctx.Between) (octet : UInt8) :
    (sfpDeliverOctet octet none m).1.ctx.Between := by
  rw [← call_deliver m octet none]
  exact (serves_call hm _).between

/-- and so does a string of them. -/
theorem between_deliverOctets {m : Machine} (hm : m.ctx.Between) (octets : List UInt8) :
    (deliverOctets octets m).ctx.Between := by
  induction octets generalizing m with
  | nil => exact hm
  | cons octet octets ih => exact ih (between_sfpDeliverOctet hm octet)

/-- **What is delivered depends on the receiving half alone.** -/
theorem deliveries_sameRx {m m' : Machine} (h : SameRx m m') (hm : m.ctx.Between)
    (hm' : m'.ctx.Between) (octets : List UInt8) :
    deliveries octets m = deliveries octets m' ∧
      SameRx (deliverOctets octets m) (deliverOctets octets m') := by
  induction octets generalizing m m' with
  | nil => exact ⟨rfl, h⟩
  | cons octet octets ih =>
    obtain ⟨hnext, hresult⟩ :=
      sameRx_sfpDeliverOctet h hm.idle hm'.idle octet sfpConfigMaxPacketSize
    rw [fst_sfpDeliverOctet, fst_sfpDeliverOctet octet _ m'] at hnext
    obtain ⟨hrest, hlast⟩ :=
      ih hnext (between_sfpDeliverOctet hm octet) (between_sfpDeliverOctet hm' octet)
    refine ⟨?_, hlast⟩
    rw [deliveries_cons, deliveries_cons, hresult, hrest]

end Libsfp
