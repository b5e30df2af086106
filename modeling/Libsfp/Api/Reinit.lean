import Libsfp.Api.Trace

/-!
# Re-initialisation

`sfpInit` leaves memory behind: the history, the received header, and the contents of the buffers.
None of it can be seen from outside. `Alike P` relates two machines that differ only in what cannot
be read: the buffers behind their ends, the header while no frame is being received, and the
history unless `P`; every operation keeps it, and what is read of the history is read only where `P`
holds. Between calls, `P` is that the context is not disconnected.
-/

namespace Libsfp

open Lib (run)

variable [SfpConfig]

/-! ## The relation -/

/-- What a machine did so far, without the contexts. -/
def Machine.events (m : Machine) : List Event := m.trace.map Prod.fst

/-- An event is recorded behind the others. -/
theorem events_emit (e : Event) (m : Machine) : (m.emit e).events = m.events ++ [e] := by
  simp [Machine.events, Machine.emit]

/-- Two machines that did the same and differ only in memory that is not read; in the history they
may differ unless `P`. -/
structure Alike (P : Prop) (m m' : Machine) : Prop where
  events : m.events = m'.events
  connectState : m.ctx.connectState = m'.ctx.connectState
  txSeq : m.ctx.tx.seq = m'.ctx.tx.seq
  txCrc : m.ctx.tx.crc = m'.ctx.tx.crc
  history : P → m.ctx.tx.history.entries.map SFPpacket.octets
    = m'.ctx.tx.history.entries.map SFPpacket.octets
  writebufn : m.ctx.tx.writebufn = m'.ctx.tx.writebufn
  pending : m.pending = m'.pending
  write : m.ctx.tx.write = m'.ctx.tx.write
  lock : m.ctx.tx.lock = m'.ctx.tx.lock
  unlock : m.ctx.tx.unlock = m'.ctx.tx.unlock
  rxSeq : m.ctx.rx.seq = m'.ctx.rx.seq
  rxCrc : m.ctx.rx.crc = m'.ctx.rx.crc
  escapeState : m.ctx.rx.escapeState = m'.ctx.rx.escapeState
  frameState : m.ctx.rx.frameState = m'.ctx.rx.frameState
  header : m.ctx.rx.frameState = .receiving → m.ctx.rx.header = m'.ctx.rx.header
  packet : m.ctx.rx.packet.octets = m'.ctx.rx.packet.octets
  deliver : m.ctx.rx.deliver = m'.ctx.rx.deliver

namespace Alike

variable {P Q : Prop} {m m' : Machine}

/-- Less is claimed under a stronger condition. -/
theorem mono (h : Alike P m m') (hPQ : Q → P) : Alike Q m m' :=
  { h with history := fun hq => h.history (hPQ hq) }

/-- Packets of equal content have one length. -/
theorem len (h : Alike P m m') : m.ctx.rx.packet.len = m'.ctx.rx.packet.len := by
  rw [← SFPpacket.length_octets, h.packet, SFPpacket.length_octets]

/-- Histories of equal content have one size. -/
theorem size (h : Alike P m m') (hP : P) :
    m.ctx.tx.history.size = m'.ctx.tx.history.size := by
  have hlen := congrArg List.length (h.history hP)
  simpa using hlen

/-! ## Setters -/

theorem emit (h : Alike P m m') (e : Event) : Alike P (m.emit e) (m'.emit e) :=
  { h with events := by rw [events_emit, events_emit, h.events] }

theorem setTxCrc (h : Alike P m m') {crc crc' : SFPcrc} (hcrc : crc = crc') :
    Alike P (m.setTxCrc crc) (m'.setTxCrc crc') :=
  { h with txCrc := hcrc }

theorem setTxSeq (h : Alike P m m') {seq seq' : SFPseq} (hseq : seq = seq') :
    Alike P (m.setTxSeq seq) (m'.setTxSeq seq') :=
  { h with txSeq := hseq }

theorem setRxSeq (h : Alike P m m') {seq seq' : SFPseq} (hseq : seq = seq') :
    Alike P (m.setRxSeq seq) (m'.setRxSeq seq') :=
  { h with rxSeq := hseq }

theorem setConnectState (h : Alike P m m') (s : SFPconnectstate) :
    Alike P (m.setConnectState s) (m'.setConnectState s) :=
  { h with connectState := rfl }

/-- Histories are alike if their packets are. -/
theorem setHistory (h : Alike P m m')
    {r r' : PotRingbuffer SFPpacket sfpConfigHistoryCapacity}
    (hr : Q → r.entries.map SFPpacket.octets = r'.entries.map SFPpacket.octets) :
    Alike Q (m.setHistory r) (m'.setHistory r') :=
  { h with history := hr }

theorem sfpResetReceiver (h : Alike P m m') :
    Alike P (Libsfp.sfpResetReceiver m) (Libsfp.sfpResetReceiver m') :=
  { h with
    rxCrc := rfl
    escapeState := rfl
    frameState := rfl
    header := fun hstate => by cases hstate
    packet := rfl }

end Alike

/-! ## The frame writer -/

section Writer

variable {P : Prop} {m m' : Machine}

/-- The same assertion holds or fails. -/
theorem alike_assert (h : Alike P m m') {b b' : Bool} (hb : b = b') :
    Alike P (m.assert b) (m'.assert b') := by
  subst hb
  cases b with
  | true => exact h
  | false => exact h.emit .fault

/-- The same chunk is written, -/
theorem alike_sfpFlushWriteBuffer (h : Alike P m m') :
    Alike P (sfpFlushWriteBuffer m) (sfpFlushWriteBuffer m') := by
  have hempty : ∀ {m m' : Machine}, Alike P m m' →
      Alike P { m with ctx.tx.writebufn := 0 } { m' with ctx.tx.writebufn := 0 } :=
    fun h => { h with writebufn := rfl, pending := rfl }
  have hpending : m.ctx.tx.writebuf.toList.take m.ctx.tx.writebufn
      = m'.ctx.tx.writebuf.toList.take m'.ctx.tx.writebufn := h.pending
  unfold sfpFlushWriteBuffer
  rw [← h.write, ← hpending]
  cases m.ctx.tx.write with
  | true => exact hempty (h.emit _)
  | false => exact hempty (h.emit .fault)

/-- the same octet stored, -/
theorem alike_storeWritebuf (h : Alike P m m') (octet : UInt8) :
    Alike P (storeWritebuf octet m) (storeWritebuf octet m') := by
  by_cases hroom : m.ctx.tx.writebufn < sfpConfigWritebufSize
  · have hroom' : m'.ctx.tx.writebufn < sfpConfigWritebufSize := h.writebufn ▸ hroom
    have hpending := pending_storeWritebuf octet hroom
    have hpending' := pending_storeWritebuf octet hroom'
    rw [h.pending] at hpending
    -- the octets behind the end of the buffer may differ, those before it do not
    have hboth := hpending.trans hpending'.symm
    unfold storeWritebuf at hboth ⊢
    rw [dif_pos hroom, dif_pos hroom'] at *
    exact { h with writebufn := congrArg (· + 1) h.writebufn, pending := hboth }
  · have hroom' : ¬ m'.ctx.tx.writebufn < sfpConfigWritebufSize := h.writebufn ▸ hroom
    unfold storeWritebuf
    rw [dif_neg hroom, dif_neg hroom']
    exact h.emit .fault

/-- Two results of a transmission: machines alike, and the same number of octets. -/
def AlikeWith (P : Prop) (r r' : Machine × Nat) : Prop :=
  Alike P r.1 r'.1 ∧ r.2 = r'.2

/-- the same octet written, -/
theorem alike_sfpBufferedWrite (h : Alike P m m') (octet : UInt8) :
    Alike P (sfpBufferedWrite octet m).1 (sfpBufferedWrite octet m').1 := by
  have hassert := alike_assert h h.write
  unfold sfpBufferedWrite
  simp only
  rw [← hassert.writebufn]
  -- both buffers are equally full, so both are flushed or none is
  split
  · exact alike_storeWritebuf (alike_sfpFlushWriteBuffer hassert) octet
  · exact alike_storeWritebuf hassert octet

/-- and the same steps taken. -/
theorem alike_run (steps : List WriteStep) {m m' : Machine} (h : Alike P m m') :
    Alike P (run WriteStep.perform m steps) (run WriteStep.perform m' steps) := by
  induction steps generalizing m m' with
  | nil => exact h
  | cons step steps ih =>
    apply ih
    cases step with
    | setCrc crc => exact h.setTxCrc rfl
    | put octet => exact alike_sfpBufferedWrite h octet

/-- Two packets with the same octets give the same frame. -/
theorem alike_sfpTransmitFrameWithHeader (h : Alike P m m') (header : SFPheader)
    (packet packet' : Option SFPpacket) (hpacket : packet.map SFPpacket.octets
      = packet'.map SFPpacket.octets) :
    AlikeWith P (sfpTransmitFrameWithHeader header packet m)
      (sfpTransmitFrameWithHeader header packet' m') := by
  -- the same octets, though not the same memory behind them
  have hoctets : packetOctets packet = packetOctets packet' := by
    cases packet with
    | none =>
      cases packet' with
      | none => rfl
      | some packet' => cases hpacket
    | some packet =>
      cases packet' with
      | none => cases hpacket
      | some packet' => exact Option.some.inj hpacket
  rw [sfpTransmitFrameWithHeader_eq, sfpTransmitFrameWithHeader_eq, hoctets]
  exact ⟨alike_sfpFlushWriteBuffer (alike_run _ h), rfl⟩

/-- The same control frame is transmitted. -/
theorem alike_sfpTransmitControl (h : Alike P m m') (type : SFPframetype) {seq seq' : SFPseq}
    (hseq : seq = seq') :
    Alike P (sfpTransmitControl type seq m) (sfpTransmitControl type seq' m') := by
  subst hseq
  exact (alike_sfpTransmitFrameWithHeader h (makeHeader type seq) none none rfl).1

/-- Pushing equal packets keeps histories of equal content alike. -/
theorem entries_pushBack_map {r r' : PotRingbuffer SFPpacket sfpConfigHistoryCapacity}
    {p p' : SFPpacket}
    (hr : r.entries.map SFPpacket.octets = r'.entries.map SFPpacket.octets)
    (hp : p.octets = p'.octets) :
    (r.pushBack p).entries.map SFPpacket.octets
      = (r'.pushBack p').entries.map SFPpacket.octets := by
  have hlen : r.entries.length = r'.entries.length := by simpa using congrArg List.length hr
  simp only [PotRingbuffer.entries_pushBack, List.map_drop, List.map_append, hr, hlen,
    List.map_cons, List.map_nil, hp]

/-- The same packet is transmitted, under the same label. -/
theorem alike_sfpTransmitFrameImpl (h : Alike P m m') (packet packet' : SFPpacket)
    (hpacket : packet.octets = packet'.octets) (retransmit : Bool) :
    AlikeWith P (sfpTransmitFrameImpl packet retransmit m)
      (sfpTransmitFrameImpl packet' retransmit m') := by
  have hrest : ∀ {n n' : Machine}, Alike P n n' → ∀ header : SFPheader,
      AlikeWith P
        ((sfpTransmitFrameWithHeader header (some packet) n).1.setTxSeq
            (nextSeq (sfpTransmitFrameWithHeader header (some packet) n).1.ctx.tx.seq),
          (sfpTransmitFrameWithHeader header (some packet) n).2)
        ((sfpTransmitFrameWithHeader header (some packet') n').1.setTxSeq
            (nextSeq (sfpTransmitFrameWithHeader header (some packet') n').1.ctx.tx.seq),
          (sfpTransmitFrameWithHeader header (some packet') n').2) := by
    intro n n' hn header
    have hframe := alike_sfpTransmitFrameWithHeader hn header (some packet) (some packet')
      (congrArg some hpacket)
    exact ⟨hframe.1.setTxSeq (congrArg nextSeq hframe.1.txSeq), hframe.2⟩
  unfold sfpTransmitFrameImpl
  rw [h.txSeq]
  cases retransmit with
  | true => exact hrest h _
  -- what is pushed is the same, so the histories agree wherever they did
  | false => exact hrest (h.setHistory fun hp => entries_pushBack_map (h.history hp) hpacket) _

end Writer

/-! ## The history -/

section History

variable {P : Prop} {m m' : Machine}

/-- The same packets are sent again. -/
theorem alike_foldl_sfpTransmitRTX {packets packets' : List SFPpacket} {m m' : Machine}
    (h : Alike P m m')
    (hpackets : packets.map SFPpacket.octets = packets'.map SFPpacket.octets) :
    Alike P (packets.foldl (fun m packet => sfpTransmitRTX packet m) m)
      (packets'.foldl (fun m packet => sfpTransmitRTX packet m) m') := by
  induction packets generalizing packets' m m' with
  | nil =>
    obtain rfl : packets' = [] := by simpa using hpackets.symm
    exact h
  | cons packet packets ih =>
    cases packets' with
    | nil => cases hpackets
    | cons packet' packets' =>
      obtain ⟨hfirst, hrest⟩ := List.cons_eq_cons.mp hpackets
      rw [List.foldl_cons, List.foldl_cons]
      exact ih (alike_sfpTransmitFrameImpl h packet packet' hfirst true).1 hrest

/-- The history is read, so it has to be the same. -/
theorem alike_sfpTransmitHistoryFromSeq (h : Alike P m m') (hP : P) {seq seq' : SFPseq}
    (hseq : seq = seq') :
    Alike P (sfpTransmitHistoryFromSeq seq m) (sfpTransmitHistoryFromSeq seq' m') := by
  subst hseq
  have hrest : ∀ {n n' : Machine}, Alike P n n' →
      Alike P (sfpTransmitHistory (n.setTxSeq seq)) (sfpTransmitHistory (n'.setTxSeq seq)) :=
    fun hn => alike_foldl_sfpTransmitRTX (hn.setTxSeq rfl) (hn.history hP)
  unfold sfpTransmitHistoryFromSeq
  rw [h.size hP, h.txSeq]
  simp only
  -- both histories are long enough, or both have underrun
  split
  · refine hrest (h.setHistory fun _ => ?_)
    rw [PotRingbuffer.entries_popFrontN, PotRingbuffer.entries_popFrontN, List.map_drop,
      List.map_drop, h.history hP]
  · exact hrest h

/-- Once it is cleared, nothing is left to differ in. -/
theorem alike_sfpClearHistory (h : Alike P m m') :
    Alike True (sfpClearHistory m) (sfpClearHistory m') := by
  refine h.setHistory fun _ => ?_
  simp

/-- Histories that are alike are replayed alike. -/
theorem alike_replayIfWritten (h : Alike P m m') (hP : P) :
    Alike P (replayIfWritten m) (replayIfWritten m') := by
  unfold replayIfWritten
  rw [h.txSeq]
  split
  · exact alike_sfpTransmitHistoryFromSeq h hP rfl
  · exact h

end History

/-! ## The lock -/

section Locks

variable {P Q : Prop} {m m' : Machine}

theorem alike_sfpLockTransmitter (h : Alike P m m') :
    Alike P (sfpLockTransmitter m) (sfpLockTransmitter m') := by
  unfold sfpLockTransmitter sfpIsTransmitterLockable
  rw [h.lock, h.unlock]
  split
  · exact h.emit .lock
  · exact h

theorem alike_sfpUnlockTransmitter (h : Alike P m m') :
    Alike P (sfpUnlockTransmitter m) (sfpUnlockTransmitter m') := by
  unfold sfpUnlockTransmitter sfpIsTransmitterLockable
  rw [h.lock, h.unlock]
  split
  · exact h.emit .unlock
  · exact h

/-- A scope on both machines. -/
theorem alike_transmitterLock (h : Alike P m m') (body body' : Machine → Machine)
    (hbody : ∀ {n n' : Machine}, n.ctx = m.ctx → n'.ctx = m'.ctx → Alike P n n' →
      Alike Q (body n) (body' n')) :
    Alike Q (transmitterLock body m) (transmitterLock body' m') :=
  alike_sfpUnlockTransmitter (hbody (ctx_sfpLockTransmitter m) (ctx_sfpLockTransmitter m')
    (alike_sfpLockTransmitter h))

end Locks

/-! ## Handlers -/

/-- Between calls the histories may differ only while disconnected. -/
abbrev AlikeBetween (m m' : Machine) : Prop := Alike (m.ctx.connectState ≠ .disconnected) m m'

section Handlers

variable {P Q : Prop} {m m' : Machine}

/-- Where the history is the same, nothing depends on the connection state. -/
theorem Alike.total (h : Alike P m m') (hP : P) : Alike Q m m' := h.mono fun _ => hP

theorem connectState_sfpTransmitControl (type : SFPframetype) (seq : SFPseq)
    (hm : m.ctx.tx.Ready) :
    (sfpTransmitControl type seq m).ctx.connectState = m.ctx.connectState :=
  (sfpTransmitFrameWithHeader_spec (makeHeader type seq) none hm).1.connectState

/-- A frame sent in answer leaves the connection state as it is. -/
theorem alikeBetween_control (hm : m.ctx.tx.Ready) (h : AlikeBetween m m') (type : SFPframetype)
    {seq seq' : SFPseq} (hseq : seq = seq') :
    AlikeBetween (sfpTransmitControl type seq m) (sfpTransmitControl type seq' m') := by
  have hstate := connectState_sfpTransmitControl type seq hm
  exact (alike_sfpTransmitControl h type hseq).mono fun h => by rwa [hstate] at h

/-- A scope on both machines, between API calls. -/
theorem alikeBetween_scope (hm : m.ctx.tx.Ready) (h : AlikeBetween m m')
    (body body' : Machine → Machine)
    (hbody : ∀ {n n' : Machine}, n.ctx = m.ctx → n'.ctx = m'.ctx → n.ctx.tx.Ready →
      AlikeBetween n n' → AlikeBetween (body n) (body' n')) :
    AlikeBetween (transmitterLock body m) (transmitterLock body' m') := by
  have hctx := ctx_sfpLockTransmitter m
  have hlock : AlikeBetween (sfpLockTransmitter m) (sfpLockTransmitter m') :=
    (alike_sfpLockTransmitter h).mono fun h => by rwa [hctx] at h
  have hinside := hbody hctx (ctx_sfpLockTransmitter m') (hctx ▸ hm) hlock
  have hstate : (transmitterLock body m).ctx = (body (sfpLockTransmitter m)).ctx :=
    ctx_sfpUnlockTransmitter _
  exact (alike_sfpUnlockTransmitter hinside).mono fun h => by rwa [hstate] at h

/-- **The handlers** on machines that are alike; each is an assembly of the functions it calls. -/
theorem alikeBetween_sfpHandleSYN0 (h : AlikeBetween m m') :
    AlikeBetween (sfpHandleSYN0 m) (sfpHandleSYN0 m') := by
  have hreset := h.sfpResetReceiver
  have hseqs := (hreset.setRxSeq (rfl : sfpInitialSeq = sfpInitialSeq)).setTxSeq
    (rfl : sfpInitialSeq = sfpInitialSeq)
  have hsyn := alike_sfpTransmitControl (alike_sfpClearHistory hseqs) .syn
    (rfl : sfpSeqSyn1 = sfpSeqSyn1)
  exact (hsyn.setConnectState .sentSyn1).total trivial

theorem alikeBetween_sfpHandleSYN1 (hm : m.ctx.tx.Ready) (h : AlikeBetween m m') :
    AlikeBetween (sfpHandleSYN1 m) (sfpHandleSYN1 m') := by
  have hsyn := alike_sfpTransmitControl h .syn (rfl : sfpSeqSyn2 = sfpSeqSyn2)
  -- the history is read only when the context is not disconnected
  have hrest : m.ctx.connectState ≠ .disconnected →
      AlikeBetween ((replayIfWritten (sfpTransmitSYN2 m)).setConnectState .connected)
        ((replayIfWritten (sfpTransmitSYN2 m')).setConnectState .connected) := fun hP =>
    ((alike_replayIfWritten hsyn hP).setConnectState .connected).total hP
  unfold sfpHandleSYN1
  rw [← h.connectState]
  cases hstate : m.ctx.connectState with
  | disconnected => exact alikeBetween_control hm h .syn rfl
  | _ => exact hrest (by simp [hstate])

theorem alikeBetween_sfpHandleSYN2 (hm : m.ctx.tx.Ready) (h : AlikeBetween m m') :
    AlikeBetween (sfpHandleSYN2 m) (sfpHandleSYN2 m') := by
  have hrest : m.ctx.connectState ≠ .disconnected →
      AlikeBetween ((replayIfWritten m).setConnectState .connected)
        ((replayIfWritten m').setConnectState .connected) := fun hP =>
    ((alike_replayIfWritten h hP).setConnectState .connected).total hP
  unfold sfpHandleSYN2
  rw [← h.connectState]
  cases hstate : m.ctx.connectState with
  | disconnected => exact alikeBetween_control hm h .syn rfl
  | sentSyn0 => exact alikeBetween_control hm h .syn rfl
  | _ => exact hrest (by simp [hstate])

/-- The same label is asked for. -/
theorem alikeBetween_sfpHandleNAK (hm : m.ctx.tx.Ready) (h : AlikeBetween m m')
    (hheader : m.ctx.rx.header = m'.ctx.rx.header) :
    AlikeBetween (sfpHandleNAK m) (sfpHandleNAK m') := by
  unfold sfpHandleNAK
  rw [← h.connectState]
  cases hstate : m.ctx.connectState with
  | disconnected => exact alikeBetween_control hm h .syn rfl
  | sentSyn0 => exact alikeBetween_control hm h .syn rfl
  | sentSyn1 => exact alikeBetween_control hm h .syn rfl
  | connected =>
    have hP : m.ctx.connectState ≠ .disconnected := by simp [hstate]
    simp only [hheader, h.txSeq]
    split
    · exact (alike_sfpTransmitHistoryFromSeq h hP rfl).total hP
    · exact h

/-- The `SEQ` of the header chooses the same handler. -/
theorem alikeBetween_sfpHandleSYN (hm : m.ctx.tx.Ready) (h : AlikeBetween m m')
    (hheader : m.ctx.rx.header = m'.ctx.rx.header) :
    AlikeBetween (sfpHandleSYN m) (sfpHandleSYN m') := by
  unfold sfpHandleSYN
  rw [hheader]
  simp only
  split
  · exact alikeBetween_sfpHandleSYN0 h
  split
  · exact alikeBetween_sfpHandleSYN1 hm h
  split
  · exact alikeBetween_sfpHandleSYN2 hm h
  split
  · -- a disconnected context never reads its history again
    exact (h.setConnectState .disconnected).mono fun hne => absurd rfl hne
  · exact h

/-- Two results of a frame handler. -/
def AlikeRet (r r' : Machine × Int) : Prop := AlikeBetween r.1 r'.1 ∧ r.2 = r'.2

/-- The same packet is taken or refused, and the same length returned. -/
theorem alikeRet_sfpHandleUSR (hm : m.ctx.tx.Ready) (h : AlikeBetween m m')
    (hheader : m.ctx.rx.header = m'.ctx.rx.header) :
    AlikeRet (sfpHandleUSR m) (sfpHandleUSR m') := by
  have hcontrol : ∀ {m m' : Machine}, m.ctx.tx.Ready → AlikeBetween m m' →
      ∀ (type : SFPframetype) {seq seq' : SFPseq}, seq = seq' →
      AlikeRet (transmitterLock (sfpTransmitControl type seq) m, 0)
        (transmitterLock (sfpTransmitControl type seq') m', 0) :=
    fun hm h type _ _ hseq =>
      ⟨alikeBetween_scope hm h _ _ fun _ _ hn hall => alikeBetween_control hn hall type hseq, rfl⟩
  unfold sfpHandleUSR
  rw [← h.connectState]
  cases hstate : m.ctx.connectState with
  | disconnected => exact hcontrol hm h .syn rfl
  | sentSyn0 => exact hcontrol hm h .syn rfl
  | sentSyn1 => exact hcontrol hm h .syn rfl
  | connected =>
    have hctx : (transmitterLock id m).ctx = m.ctx := by simp [transmitterLock]
    have hctx' : (transmitterLock id m').ctx = m'.ctx := by simp [transmitterLock]
    have hfirst : AlikeBetween (transmitterLock id m) (transmitterLock id m') :=
      alikeBetween_scope hm h id id fun _ _ _ hall => hall
    have hready : (transmitterLock id m).ctx.tx.Ready := hctx ▸ hm
    simp only [hctx, hctx', ← hheader, ← h.rxSeq, ← h.deliver, ← h.packet]
    split
    · -- out of order: at most a `NAK`
      split
      · exact hcontrol hready hfirst .nak rfl
      · exact ⟨hfirst, rfl⟩
    · -- in order: the callbacks are told the same packet
      have hseq : ∀ {n n' : Machine}, AlikeBetween n n' →
          AlikeRet (n.setRxSeq (nextSeq n.ctx.rx.seq), 1)
            (n'.setRxSeq (nextSeq n'.ctx.rx.seq), 1) :=
        fun hn => ⟨hn.setRxSeq (congrArg nextSeq hn.rxSeq), rfl⟩
      split
      · exact hseq (hfirst.emit _)
      · exact hseq hfirst

/-- The type of the header chooses the same handler. -/
theorem alikeRet_dispatchFrame (hm : m.ctx.tx.Ready) (h : AlikeBetween m m')
    (hheader : m.ctx.rx.header = m'.ctx.rx.header) :
    AlikeRet (dispatchFrame m) (dispatchFrame m') := by
  obtain ⟨n, hn⟩ : ∃ n, m.emit (.frameReceived m.ctx.rx.header m.ctx.rx.packet.octets) = n :=
    ⟨_, rfl⟩
  obtain ⟨n', hn'⟩ : ∃ n', m'.emit (.frameReceived m.ctx.rx.header m.ctx.rx.packet.octets) = n' :=
    ⟨_, rfl⟩
  have hctx : n.ctx = m.ctx := hn ▸ rfl
  have hctx' : n'.ctx = m'.ctx := hn' ▸ rfl
  have hready : n.ctx.tx.Ready := hctx ▸ hm
  have hlog : AlikeBetween n n' := by
    rw [← hn, ← hn']
    exact h.emit _
  have hsame : n.ctx.rx.header = n'.ctx.rx.header := by rw [hctx, hctx', hheader]
  unfold dispatchFrame
  rw [← hheader, ← h.packet]
  simp only [hn, hn', hctx, hctx', ← hheader]
  -- a packet of either kind, a `NAK`, a `SYN`
  split
  · exact alikeRet_sfpHandleUSR hready hlog hsame
  · exact alikeRet_sfpHandleUSR hready hlog hsame
  · refine ⟨alikeBetween_scope hready hlog _ _ fun hk hk' hready' hall => ?_, rfl⟩
    exact alikeBetween_sfpHandleNAK hready' hall (by rw [hk, hk', hsame])
  · refine ⟨alikeBetween_scope hready hlog _ _ fun hk hk' hready' hall => ?_, rfl⟩
    exact alikeBetween_sfpHandleSYN hready' hall (by rw [hk, hk', hsame])

/-- The trailer is taken off both packets. -/
theorem alike_rewindCrc (h : Alike P m m') : Alike P (rewindCrc m) (rewindCrc m') := by
  have hpacket : ∀ n : Machine, (rewindCrc n).ctx.rx.packet.octets
      = n.ctx.rx.packet.octets.take (n.ctx.rx.packet.len - sfpCrcSize) := by
    intro n
    simp only [rewindCrc, SFPpacket.octets, List.take_take]
    rw [Nat.min_eq_left (Nat.sub_le _ _)]
  exact { h with packet := by rw [hpacket, hpacket, h.packet, h.len] }

/-- The same content is judged alike. -/
theorem alikeRet_sfpHandleFrame (hm : m.ctx.tx.Ready) (h : AlikeBetween m m')
    (hstate : m.ctx.rx.frameState = .receiving) :
    AlikeRet (sfpHandleFrame m) (sfpHandleFrame m') := by
  have hrefuse : ∀ (e : Event) (n n' : Machine), n.ctx.tx.Ready → AlikeBetween n n' →
      AlikeRet (transmitterLock (sfpTransmitNAK n.ctx.rx.seq) (n.emit e), 0)
        (transmitterLock (sfpTransmitNAK n'.ctx.rx.seq) (n'.emit e), 0) := by
    intro e n n' hn hall
    have hready : (n.emit e).ctx.tx.Ready := hn
    have hlog : AlikeBetween (n.emit e) (n'.emit e) := hall.emit e
    refine ⟨alikeBetween_scope hready hlog _ _ fun _ _ hready' hall' => ?_, rfl⟩
    exact alikeBetween_control hready' hall' .nak hall.rxSeq
  have hready : (rewindCrc m).ctx.tx.Ready := hm
  have hrewind : AlikeBetween (rewindCrc m) (rewindCrc m') := alike_rewindCrc h
  have hcrc : (rewindCrc m).ctx.rx.crc = (rewindCrc m').ctx.rx.crc := h.rxCrc
  unfold sfpHandleFrame
  simp only [← h.len, ← hcrc]
  -- too short, damaged, or a frame; only then is the header read
  split
  · exact hrefuse .shortFrame m m' hm h
  split
  · exact hrefuse .crcMismatch (rewindCrc m) (rewindCrc m') hready hrewind
  · exact alikeRet_dispatchFrame hready hrewind (h.header hstate)

end Handlers

/-! ## Calls -/

section Calls

variable {P : Prop} {m m' : Machine}

/-- The same octet is stored, or overruns both buffers. -/
theorem alike_sfpBufferOctet (h : Alike P m m') (octet : UInt8) :
    Alike P (sfpBufferOctet octet m) (sfpBufferOctet octet m') := by
  unfold sfpBufferOctet
  by_cases hroom : m.ctx.rx.packet.len < sfpConfigMaxPacketSize
  · have hroom' : m'.ctx.rx.packet.len < sfpConfigMaxPacketSize := h.len ▸ hroom
    rw [dif_pos hroom, dif_pos hroom']
    exact { h with packet := by rw [SFPpacket.octets_push, SFPpacket.octets_push, h.packet] }
  · have hroom' : ¬ m'.ctx.rx.packet.len < sfpConfigMaxPacketSize := h.len ▸ hroom
    rw [dif_neg hroom, dif_neg hroom']
    exact h.sfpResetReceiver

/-- Before the end of a frame: the first content octet is the header, so from then on the headers
agree. -/
theorem alike_sfpDeliverOctet_tacit (h : Alike P m m') {octet : UInt8} (buf : Option Nat)
    (hno : ¬ (sfpFlag = octet ∧ m.ctx.rx.frameState = .receiving)) :
    Alike P (sfpDeliverOctet octet buf m).1 (sfpDeliverOctet octet buf m').1 := by
  have hstate' := h.frameState
  unfold sfpDeliverOctet
  by_cases hflag : sfpFlag = octet
  · rw [if_pos hflag, if_pos hflag]
    cases hstate : m.ctx.rx.frameState with
    | receiving => exact absurd ⟨hflag, hstate⟩ hno
    | new =>
      rw [hstate] at hstate'
      simp only [← hstate']
      exact h.sfpResetReceiver
  · rw [if_neg hflag, if_neg hflag]
    by_cases hesc : sfpEsc = octet
    · rw [if_pos hesc, if_pos hesc]
      exact { h with escapeState := rfl }
    · rw [if_neg hesc, if_neg hesc]
      have hoctet : unescapeOctet m.ctx.rx.escapeState octet
          = unescapeOctet m'.ctx.rx.escapeState octet := by rw [h.escapeState]
      have hcrc : crcCcittUpdate m.ctx.rx.crc (unescapeOctet m.ctx.rx.escapeState octet)
          = crcCcittUpdate m'.ctx.rx.crc (unescapeOctet m'.ctx.rx.escapeState octet) := by
        rw [h.rxCrc, hoctet]
      cases hstate : m.ctx.rx.frameState with
      -- the first octet of a frame is the header of both
      | new =>
        rw [hstate] at hstate'
        simp only [hstate, ← hstate']
        exact { h with
          rxCrc := hcrc
          escapeState := rfl
          frameState := rfl
          header := fun _ => hoctet }
      | receiving =>
        rw [hstate] at hstate'
        simp only [hstate, ← hstate', hoctet]
        refine alike_sfpBufferOctet ?_ _
        exact { h with
          rxCrc := hoctet ▸ hcrc
          escapeState := rfl
          frameState := rfl
          header := fun _ => h.header hstate }

theorem alikeBetween_reset (h : AlikeBetween m m') :
    AlikeBetween (sfpResetReceiver m) (sfpResetReceiver m') := h.sfpResetReceiver

/-- **One octet**: the same is done and returned. -/
theorem alikeBetween_sfpDeliverOctet (hm : m.ctx.tx.Ready) (h : AlikeBetween m m') (octet : UInt8)
    (buf : Option Nat) :
    AlikeBetween (sfpDeliverOctet octet buf m).1 (sfpDeliverOctet octet buf m').1 ∧
      (sfpDeliverOctet octet buf m).2 = (sfpDeliverOctet octet buf m').2 := by
  by_cases hcloses : sfpFlag = octet ∧ m.ctx.rx.frameState = .receiving
  · obtain ⟨hflag, hstate⟩ := hcloses
    obtain ⟨hframe, hret⟩ := alikeRet_sfpHandleFrame hm h hstate
    unfold sfpDeliverOctet
    rw [if_pos hflag, if_pos hflag, ← h.frameState]
    simp only [hstate]
    refine ⟨alikeBetween_reset hframe, ?_⟩
    simp only [hret, sfpCopyOutPacket, hframe.len, hframe.packet]
  · have hcloses' : ¬ (sfpFlag = octet ∧ m'.ctx.rx.frameState = .receiving) := by
      rwa [← h.frameState]
    obtain ⟨-, -, hstate, -, hresult⟩ := sfpDeliverOctet_tacit buf hcloses
    obtain ⟨-, -, -, -, hresult'⟩ := sfpDeliverOctet_tacit buf hcloses'
    refine ⟨?_, hresult.trans hresult'.symm⟩
    exact (alike_sfpDeliverOctet_tacit h buf hcloses).mono fun hne => by rwa [hstate] at hne

/-- An `sfpConnect` forgets the histories. -/
theorem alikeBetween_sfpConnect (h : AlikeBetween m m') :
    AlikeBetween (sfpConnect m) (sfpConnect m') := by
  have hreset := h.sfpResetReceiver.setRxSeq (rfl : sfpInitialSeq = sfpInitialSeq)
  have hscope : Alike True (sfpConnect m) (sfpConnect m') := by
    refine alike_transmitterLock hreset
      (fun m => (sfpTransmitSYN0 (sfpClearHistory
        (m.setTxSeq sfpInitialSeq))).setConnectState .sentSyn0)
      (fun m => (sfpTransmitSYN0 (sfpClearHistory
        (m.setTxSeq sfpInitialSeq))).setConnectState .sentSyn0) fun _ _ hn => ?_
    -- from here on there is no history to differ in
    have hclear := alike_sfpClearHistory (hn.setTxSeq (rfl : sfpInitialSeq = sfpInitialSeq))
    have hsyn := alike_sfpTransmitControl hclear .syn (rfl : sfpSeqSyn0 = sfpSeqSyn0)
    exact hsyn.setConnectState .sentSyn0
  exact hscope.total trivial

/-- The memory of the local packet of `sfpWritePacket` makes no difference either. -/
theorem alikeBetween_sfpWritePacket (hm : m.ctx.Idle) (h : AlikeBetween m m')
    (stack stack' : Vector UInt8 sfpConfigMaxPacketSize) (packet : List UInt8)
    (le : packet.length ≤ sfpConfigMaxPacketSize) :
    AlikeBetween (sfpWritePacket stack packet le m).1 (sfpWritePacket stack' packet le m').1 ∧
      (sfpWritePacket stack packet le m).2 = (sfpWritePacket stack' packet le m').2 := by
  have hlock := alike_sfpLockTransmitter h
  have husr := alike_sfpTransmitFrameImpl hlock (.copyIn stack packet le)
    (.copyIn stack' packet le) (by rw [SFPpacket.octets_copyIn, SFPpacket.octets_copyIn]) false
  have hstate : (sfpWritePacket stack packet le m).1.ctx.connectState = m.ctx.connectState :=
    congrArg Endpoint.connectState (does_sfpWritePacket hm stack packet le).abs
  refine ⟨?_, husr.2⟩
  exact (alike_sfpUnlockTransmitter husr.1).mono fun hne => by rwa [hstate] at hne

/-- The same call with other memory for the local packet of `sfpWritePacket`. -/
def Call.onStack (stack : Vector UInt8 sfpConfigMaxPacketSize) : Call → Call
  | .write _ packet le => .write stack packet le
  | c => c

/-- **Every call** does and returns the same. -/
theorem alikeBetween_perform (hm : m.ctx.Idle) (h : AlikeBetween m m') (c : Call)
    (stack : Vector UInt8 sfpConfigMaxPacketSize) :
    AlikeBetween (c.perform m).1 ((c.onStack stack).perform m').1 ∧
      (c.perform m).2 = ((c.onStack stack).perform m').2 := by
  cases c with
  | connect => exact ⟨alikeBetween_sfpConnect h, rfl⟩
  | write stack' packet le =>
    obtain ⟨hmachine, houtlen⟩ := alikeBetween_sfpWritePacket hm h stack' stack packet le
    exact ⟨hmachine, congrArg Answer.written houtlen⟩
  | deliver octet buf =>
    obtain ⟨hmachine, hresult⟩ := alikeBetween_sfpDeliverOctet hm.ready h octet buf
    exact ⟨hmachine, congrArg Answer.received hresult⟩
  | isConnected =>
    refine ⟨h, congrArg Answer.connected ?_⟩
    rw [sfpIsConnected, sfpIsConnected, h.connectState]

end Calls

/-! ## Sessions -/

/-- What a program sees of a sequence of calls: what the callbacks were told, and the answers. -/
def observe (m : Machine) : List Call → List Event × List Answer
  | [] => (m.events, [])
  | c :: cs =>
    let (events, answers) := observe (c.perform m).1 cs
    (events, (c.perform m).2 :: answers)

/-- **Nothing tells the machines apart**, whatever calls follow. -/
theorem observe_alike {m m' : Machine} (hm : m.ctx.Between) (h : AlikeBetween m m')
    (cs : List Call) (stack : Vector UInt8 sfpConfigMaxPacketSize) :
    observe m cs = observe m' (cs.map (Call.onStack stack)) := by
  induction cs generalizing m m' with
  | nil =>
    show (m.events, _) = (m'.events, _)
    rw [h.events]
  | cons c cs ih =>
    obtain ⟨hmachine, hanswer⟩ := alikeBetween_perform hm.idle h c stack
    have hbetween : (c.perform m).1.ctx.Between := (serves_call hm c).between
    have hrest := ih hbetween hmachine
    rw [List.map_cons, observe, observe, hrest, hanswer]

/-- Two contexts that were set up the same way differ in nothing that is read. -/
theorem alikeBetween_initWith (cb : Callbacks) (used fresh : SFPcontext) :
    AlikeBetween (.of (used.initWith cb)) (.of (fresh.initWith cb)) where
  events := rfl
  connectState := rfl
  txSeq := rfl
  txCrc := rfl
  history h := absurd rfl h
  writebufn := rfl
  pending := rfl
  write := rfl
  lock := rfl
  unlock := rfl
  rxSeq := rfl
  rxCrc := rfl
  escapeState := rfl
  frameState := rfl
  header h := by cases h
  packet := rfl
  deliver := rfl

/-- **Re-initialisation forgets everything**: whatever session a context went through, after
`sfpInit` and with the same callbacks it does and answers what any other context would. -/
theorem observe_initWith (cb₀ cb : Callbacks) (memory fresh : SFPcontext) (before cs : List Call)
    (stack : Vector UInt8 sfpConfigMaxPacketSize) :
    observe (.of ((afterCalls cb₀ memory before).ctx.initWith cb)) cs
      = observe (.of (fresh.initWith cb)) (cs.map (Call.onStack stack)) :=
  observe_alike (SFPcontext.between_initWith cb _) (alikeBetween_initWith cb _ fresh) cs stack

end Libsfp
