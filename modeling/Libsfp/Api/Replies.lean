import Libsfp.Api.Locking
import Libsfp.Api.Reinit
import Libsfp.Api.Safety

/-!
# A Callback that Replies

The deliver callback is called in the middle of `sfpHandleUSR`: the label that the receiver expects
next is not set yet, and the receiver still holds the frame. A callback that calls `sfpWritePacket`
there might as well have waited until `sfpDeliverOctet` has returned (`run_callWith`).

What `sfpWritePacket` does it does without the receiver: it commutes with putting another one in its
place, in the context and in all that was seen of it, and so with what happened before (`Deaf`).
-/

namespace Libsfp

open Lib (run)

variable [SfpConfig]

/-! ## Deaf functions -/

/-- The machine, had its receiver always been `rx` and had `past` happened before. -/
def Machine.hearing (rx : SFPreceiver) (past : List (Event × SFPcontext)) (m : Machine) : Machine :=
  ⟨{ m.ctx with rx }, past ++ m.trace.map fun e => (e.1, { e.2 with rx })⟩

/-- The function neither reads nor changes the receiver, and does not read the past. -/
structure Deaf (f : Machine → Machine) : Prop where
  hearing : ∀ rx past m, f (m.hearing rx past) = (f m).hearing rx past
  rx : ∀ m, (f m).ctx.rx = m.ctx.rx

/-- Deaf functions compose, -/
theorem Deaf.comp {f g : Machine → Machine} (hg : Deaf g) (hf : Deaf f) :
    Deaf fun m => g (f m) where
  hearing rx past m := by rw [hf.hearing, hg.hearing]
  rx m := by rw [hg.rx, hf.rx]

/-- can be repeated -/
theorem deaf_foldl {α : Type*} {f : Machine → α → Machine} (hf : ∀ a, Deaf fun m => f m a)
    (as : List α) : Deaf fun m => as.foldl f m where
  hearing rx past m := by
    induction as generalizing m with
    | nil => rfl
    | cons a as ih => rw [List.foldl_cons, (hf a).hearing, ih, List.foldl_cons]
  rx m := by
    induction as generalizing m with
    | nil => rfl
    | cons a as ih => rw [List.foldl_cons, ih, (hf a).rx]

/-- What is done depends on what the transmitter holds. -/
theorem deaf_of_transmitter {α : Type*} {f : α → Machine → Machine} (g : SFPtransmitter → α)
    (hf : ∀ a, Deaf (f a)) : Deaf fun m => f (g m.ctx.tx) m where
  hearing rx past m := (hf (g m.ctx.tx)).hearing rx past m
  rx m := (hf (g m.ctx.tx)).rx m

theorem deaf_id : Deaf id := ⟨fun _ _ _ => rfl, fun _ => rfl⟩

/-- An event is recorded whatever the receiver has collected. -/
theorem deaf_emit (e : Event) : Deaf (Machine.emit e) where
  hearing rx past m := by simp [Machine.emit, Machine.hearing]
  rx _ := rfl

/-- and chosen between. -/
theorem deaf_ite (b : Bool) {f g : Machine → Machine} (hf : Deaf f) (hg : Deaf g) :
    Deaf fun m => if b then f m else g m := by
  cases b with
  | true => exact hf
  | false => exact hg

/-- The fields of the transmitter are set without regard to the receiver. -/
theorem deaf_setTxCrc (crc : SFPcrc) : Deaf (Machine.setTxCrc crc) :=
  ⟨fun _ _ _ => rfl, fun _ => rfl⟩

theorem deaf_setTxSeq (seq : SFPseq) : Deaf (Machine.setTxSeq seq) :=
  ⟨fun _ _ _ => rfl, fun _ => rfl⟩

theorem deaf_setHistory (h : PotRingbuffer SFPpacket sfpConfigHistoryCapacity) :
    Deaf (Machine.setHistory h) :=
  ⟨fun _ _ _ => rfl, fun _ => rfl⟩

/-! ## The frame writer -/

/-- **The frame writer is deaf**, layer by layer. -/
theorem deaf_sfpFlushWriteBuffer : Deaf sfpFlushWriteBuffer := by
  have hempty : Deaf fun m : Machine => { m with ctx.tx.writebufn := 0 } :=
    ⟨fun _ _ _ => rfl, fun _ => rfl⟩
  -- whether there is a write callback is the transmitter's own
  have hflush : ∀ tx : SFPtransmitter, Deaf fun m =>
      if tx.write then m.emit (.write (tx.writebuf.toList.take tx.writebufn))
      else m.emit .fault :=
    fun tx => deaf_ite tx.write (deaf_emit _) (deaf_emit _)
  exact hempty.comp (deaf_of_transmitter id hflush)

theorem deaf_storeWritebuf (octet : UInt8) : Deaf (storeWritebuf octet) where
  hearing rx past m := by
    unfold storeWritebuf
    -- the bound is the transmitter's own
    by_cases hroom : m.ctx.tx.writebufn < sfpConfigWritebufSize
    · have hroom' : (m.hearing rx past).ctx.tx.writebufn < sfpConfigWritebufSize := hroom
      rw [dif_pos hroom, dif_pos hroom']
      rfl
    · have hroom' : ¬ (m.hearing rx past).ctx.tx.writebufn < sfpConfigWritebufSize := hroom
      rw [dif_neg hroom, dif_neg hroom']
      exact (deaf_emit .fault).hearing rx past m
  rx m := by
    unfold storeWritebuf
    split <;> rfl

theorem deaf_sfpBufferedWrite (octet : UInt8) : Deaf fun m => (sfpBufferedWrite octet m).1 := by
  have hassert : ∀ b : Bool, Deaf (Machine.assert b) :=
    fun b => deaf_ite b deaf_id (deaf_emit .fault)
  have hflush : ∀ tx : SFPtransmitter, Deaf fun m =>
      if sfpConfigWritebufSize ≤ tx.writebufn then sfpFlushWriteBuffer m else m := by
    intro tx
    by_cases hfull : sfpConfigWritebufSize ≤ tx.writebufn
    · simp only [hfull, if_true]
      exact deaf_sfpFlushWriteBuffer
    · simp only [hfull, if_false]
      exact deaf_id
  have hready := (deaf_of_transmitter id hflush).comp
    (deaf_of_transmitter (fun tx => tx.write) hassert)
  exact (deaf_storeWritebuf octet).comp hready

/-- A whole frame. -/
theorem deaf_sfpTransmitFrameWithHeader (header : SFPheader) (packet : Option SFPpacket) :
    Deaf fun m => (sfpTransmitFrameWithHeader header packet m).1 := by
  have hstep : ∀ step : WriteStep, Deaf fun m => WriteStep.perform m step := by
    intro step
    cases step with
    | setCrc crc => exact deaf_setTxCrc crc
    | put octet => exact deaf_sfpBufferedWrite octet
  have hrun := deaf_foldl hstep (WriteStep.ofFrame header (packetOctets packet))
  -- a frame is a list of steps that does not depend on the machine
  have heq : (fun m => (sfpTransmitFrameWithHeader header packet m).1)
      = fun m => sfpFlushWriteBuffer
          (run WriteStep.perform m (WriteStep.ofFrame header (packetOctets packet))) := by
    funext m
    rw [sfpTransmitFrameWithHeader_eq]
  rw [heq]
  exact deaf_sfpFlushWriteBuffer.comp hrun

/-- A new packet goes into the history, on the line, and moves the label. -/
theorem deaf_sfpTransmitUSR (packet : SFPpacket) : Deaf fun m => (sfpTransmitUSR packet m).1 := by
  have hhistory : Deaf fun m : Machine => m.setHistory (m.ctx.tx.history.pushBack packet) :=
    deaf_of_transmitter (fun tx => tx.history.pushBack packet) deaf_setHistory
  have hnext : Deaf fun m : Machine => m.setTxSeq (nextSeq m.ctx.tx.seq) :=
    deaf_of_transmitter (fun tx => nextSeq tx.seq) deaf_setTxSeq
  exact deaf_of_transmitter (fun tx => makeHeader .usr tx.seq) fun header =>
    hnext.comp ((deaf_sfpTransmitFrameWithHeader header (some packet)).comp hhistory)

/-- So `sfpWritePacket` is deaf. -/
theorem deaf_perform (w : Writing) : Deaf fun m => Writing.perform m w := by
  have hlock : Deaf sfpLockTransmitter :=
    deaf_of_transmitter (fun tx => tx.lock && tx.unlock)
      fun b => deaf_ite b (deaf_emit .lock) deaf_id
  have hunlock : Deaf sfpUnlockTransmitter :=
    deaf_of_transmitter (fun tx => tx.lock && tx.unlock)
      fun b => deaf_ite b (deaf_emit .unlock) deaf_id
  exact hunlock.comp ((deaf_sfpTransmitUSR (.copyIn w.stack w.packet w.le)).comp hlock)

/-- What a deaf function does is added to the past, whatever the past is. -/
structure Adds (m m' n : Machine) : Prop where
  ctx : m'.ctx = n.ctx
  wire : m'.wire = m.wire ++ n.wire
  delivered : m'.delivered = m.delivered ++ n.delivered

/-- What a deaf function adds to a trace does not depend on the trace. -/
theorem Deaf.adds {f : Machine → Machine} (hf : Deaf f) (m : Machine) :
    Adds m (f m) (f (.of m.ctx)) := by
  -- the past is put in front of a machine without one
  have hpast : (Machine.of m.ctx).hearing m.ctx.rx m.trace = m := by
    rw [Machine.hearing, Machine.of, List.map_nil, List.append_nil]
  have hsame := hf.hearing m.ctx.rx m.trace (.of m.ctx)
  rw [hpast] at hsame
  have hrx : (f (.of m.ctx)).ctx.rx = m.ctx.rx := hf.rx (.of m.ctx)
  refine ⟨?_, ?_, ?_⟩
  · rw [hsame, Machine.hearing, ← hrx]
  · rw [hsame]
    simp [Machine.hearing, Machine.wire, List.flatMap_map]
  · rw [hsame]
    simp [Machine.hearing, Machine.delivered, Machine.calls, Function.comp_def]

/-! ## Inside and behind -/

/-- Two machines that did the same and are in the same state. -/
structure SameCourse (m m' : Machine) : Prop where
  ctx : m.ctx = m'.ctx
  events : m.events = m'.events

namespace SameCourse

variable {m m' m'' : Machine}

theorem refl (m : Machine) : SameCourse m m := ⟨rfl, rfl⟩

/-- The same octets were written, -/
theorem wire (h : SameCourse m m') : m.wire = m'.wire := by
  have hevents : ∀ m : Machine, m.wire = m.events.flatMap Machine.eventOctets := by
    intro m
    simp [Machine.wire, Machine.events, List.flatMap_map]
  rw [hevents, hevents m', h.events]

/-- and the same packets delivered. -/
theorem delivered (h : SameCourse m m') : m.delivered = m'.delivered := by
  have hevents : ∀ m : Machine, m.delivered = (m.events.filter Machine.isCall).filterMap
      Machine.deliveredEvent := fun _ => rfl
  rw [hevents, hevents m', h.events]

end SameCourse

/-- What is done to the receiver alone may be done before or after what is deaf. -/
theorem sameCourse_of_deaf {f g : Machine → Machine} (hf : Deaf f)
    (change : SFPreceiver → SFPreceiver)
    (hchange : ∀ n : Machine, g n = { n with ctx.rx := change n.ctx.rx }) (m : Machine) :
    SameCourse (g (f m)) (f (g m)) := by
  -- with the same receiver put in, both are the same
  have hsame : (g (f m)).hearing m.ctx.rx [] = (f (g m)).hearing m.ctx.rx [] := by
    rw [← hf.hearing, hchange m, hchange (f m)]
    exact (hf.hearing m.ctx.rx [] m).symm
  have hrx : (g (f m)).ctx.rx = (f (g m)).ctx.rx := by
    rw [hf.rx, hchange, hchange, hf.rx]
  refine ⟨?_, ?_⟩
  · -- the receivers agree, and so do the other fields
    have htx : (g (f m)).ctx.tx = (f (g m)).ctx.tx := by
      have htx := congrArg (fun n : Machine => n.ctx.tx) hsame
      exact htx
    have hstate : (g (f m)).ctx.connectState = (f (g m)).ctx.connectState := by
      have hstate := congrArg (fun n : Machine => n.ctx.connectState) hsame
      exact hstate
    rcases hleft : (g (f m)).ctx with ⟨tx, rx, state⟩
    rcases hright : (f (g m)).ctx with ⟨tx', rx', state'⟩
    rw [hleft, hright] at htx hrx hstate
    simp only at htx hrx hstate
    rw [htx, hrx, hstate]
  · have hevents := congrArg (fun n : Machine => n.trace.map Prod.fst) hsame
    simpa [Machine.hearing, Machine.events, List.map_map, Function.comp_def] using hevents

/-! ## Replies -/

/-- The machine when `sfpHandleUSR` calls the deliver callback. -/
def Machine.atCallback (m : Machine) : Machine :=
  let m := rewindCrc m
  let m := m.emit (.frameReceived m.ctx.rx.header m.ctx.rx.packet.octets)
  let m := transmitterLock id m
  m.emit (.deliver m.ctx.rx.packet.octets)

/-- What the callback writes in the course of a call. -/
def Machine.replies (reply : Reply) (m : Machine) : Call → List Writing
  | .deliver octet _ =>
    if m.ctx.Delivers octet ∧ m.ctx.rx.deliver = true then
      reply m.atCallback m.atCallback.ctx.rx.packet.octets
    else []
  | _ => []

def Writing.call (w : Writing) : Call := .write w.stack w.packet w.le

/-- The calls of a program that replies after `sfpDeliverOctet` has returned. -/
def repliesAfter (reply : Reply) : Machine → List Call → List Call
  | _, [] => []
  | m, c :: cs =>
    c :: ((m.replies reply c).map Writing.call ++ repliesAfter reply (m.callWith reply c) cs)

/-- Writings are calls of `sfpWritePacket`. -/
theorem run_writings (ws : List Writing) (m : Machine) :
    run Machine.call m (ws.map Writing.call) = ws.foldl Writing.perform m := by
  induction ws generalizing m with
  | nil => rfl
  | cons w ws ih => exact ih _

/-- Behind the callback the label moves on and the receiver is reset. -/
def afterCallback (m : Machine) : Machine :=
  sfpResetReceiver (m.setRxSeq (nextSeq m.ctx.rx.seq))

/-- What is deaf may be done behind the callback as well as in it. -/
theorem sameCourse_afterCallback {f : Machine → Machine} (hf : Deaf f) (m : Machine) :
    SameCourse (afterCallback (f m)) (f (afterCallback m)) :=
  sameCourse_of_deaf hf (fun rx => (sfpResetReceiver ((Machine.of { m.ctx with rx }).setRxSeq
    (nextSeq rx.seq))).ctx.rx) (fun _ => rfl) m

/-- Packets, fresh or not, have the same handler. -/
theorem dispatchFrameWith_of_user (reply : Reply) {m : Machine}
    (h : getFrameType m.ctx.rx.header = .usr ∨ getFrameType m.ctx.rx.header = .rtx) :
    dispatchFrameWith reply m = sfpHandleUSRWith reply
      (m.emit (.frameReceived m.ctx.rx.header m.ctx.rx.packet.octets)) := by
  have hemit : ∀ e, (m.emit e).ctx = m.ctx := fun _ => rfl
  unfold dispatchFrameWith
  rcases h with h | h
  · simp only [hemit, h]
  · simp only [hemit, h]

theorem ctx_transmitterLock_id (m : Machine) : (transmitterLock id m).ctx = m.ctx := by
  simp [transmitterLock]

/-- The callback is called for a packet that is accepted. -/
theorem sfpHandleUSRWith_of_accepts (reply : Reply) {m : Machine} (h : m.ctx.Accepts)
    (hdeliver : m.ctx.rx.deliver = true) :
    sfpHandleUSRWith reply m = ((callDeliver reply (transmitterLock id m)).setRxSeq
      (nextSeq (callDeliver reply (transmitterLock id m)).ctx.rx.seq), 1) := by
  obtain ⟨hstate, -, hseq⟩ := h
  unfold sfpHandleUSRWith
  rw [hstate]
  simp only [ctx_transmitterLock_id, hseq, ne_eq, not_true, if_false, hdeliver, if_true]

/-- Otherwise it is not, and nobody replies. -/
theorem sfpHandleUSRWith_of_not (reply : Reply) {m : Machine}
    (htype : getFrameType m.ctx.rx.header = .usr ∨ getFrameType m.ctx.rx.header = .rtx)
    (h : ¬ (m.ctx.Accepts ∧ m.ctx.rx.deliver = true)) :
    sfpHandleUSRWith reply m = sfpHandleUSR m := by
  unfold sfpHandleUSRWith sfpHandleUSR
  cases hstate : m.ctx.connectState with
  | disconnected | sentSyn0 | sentSyn1 => rfl
  | connected =>
    simp only [ctx_transmitterLock_id]
    -- in order but without a callback, or out of order
    by_cases hseq : getFrameSeq m.ctx.rx.header = m.ctx.rx.seq
    · have hsilent : ¬ m.ctx.rx.deliver = true := fun hdeliver =>
        h ⟨⟨hstate, htype, hseq⟩, hdeliver⟩
      simp only [hseq, ne_eq, not_true, if_false]
      rw [if_neg hsilent, if_neg hsilent]
    · simp only [hseq, ne_eq, not_false_iff, if_true]

/-- Without a delivery there is no reply. -/
theorem dispatchFrameWith_of_not (reply : Reply) {m : Machine}
    (h : ¬ (m.ctx.Accepts ∧ m.ctx.rx.deliver = true)) :
    dispatchFrameWith reply m = dispatchFrame m := by
  have hemit : ∀ e, (m.emit e).ctx = m.ctx := fun _ => rfl
  -- a packet that is not accepted, or another frame
  by_cases htype : getFrameType m.ctx.rx.header = .usr ∨ getFrameType m.ctx.rx.header = .rtx
  · rw [dispatchFrameWith_of_user reply htype, sfpHandleUSRWith_of_not reply
      (m := m.emit (.frameReceived m.ctx.rx.header m.ctx.rx.packet.octets)) htype h]
    unfold dispatchFrame
    rcases htype with htype | htype
    · simp only [hemit, htype]
    · simp only [hemit, htype]
  · unfold dispatchFrameWith dispatchFrame
    simp only [hemit]
    cases hcase : getFrameType m.ctx.rx.header with
    | usr => exact absurd (.inl hcase) htype
    | rtx => exact absurd (.inr hcase) htype
    | nak | syn => rfl

/-- A `FLAG` behind some content closes a frame. -/
theorem deliverOctetWith_of_closes (reply : Reply) {m : Machine} {octet : UInt8}
    (h : m.ctx.Closes octet) :
    deliverOctetWith reply octet m = sfpResetReceiver (sfpHandleFrameWith reply m).1 := if_pos h

/-- At the end of a frame that is accepted the callback is called. -/
theorem deliverOctetWith_of_delivers (reply : Reply) {m : Machine} {octet : UInt8}
    (h : m.ctx.Delivers octet) (hdeliver : m.ctx.rx.deliver = true) :
    deliverOctetWith reply octet m = afterCallback
      ((reply m.atCallback m.atCallback.ctx.rx.packet.octets).foldl Writing.perform
        m.atCallback) := by
  obtain ⟨hcloses, hgood, haccept⟩ := h
  have haccept' : ((rewindCrc m).emit (.frameReceived (rewindCrc m).ctx.rx.header
      (rewindCrc m).ctx.rx.packet.octets)).ctx.Accepts := haccept
  -- both checks of `sfpHandleFrame` are passed
  have hlen : ¬ m.ctx.rx.packet.len < sfpCrcSize := Nat.not_lt_of_le hgood.1
  have hcrc : ¬ (rewindCrc m).ctx.rx.crc ≠ sfpCrcGood := not_not.mpr hgood.2
  rw [deliverOctetWith_of_closes reply hcloses, sfpHandleFrameWith, if_neg hlen]
  simp only
  rw [if_neg hcrc, dispatchFrameWith_of_user reply (m := rewindCrc m) haccept.2.1,
    sfpHandleUSRWith_of_accepts reply haccept' hdeliver]
  rfl

/-- A delivery is what comes before the callback and what comes after it. -/
theorem call_of_delivers {m : Machine} {octet : UInt8} (h : m.ctx.Delivers octet)
    (hdeliver : m.ctx.rx.deliver = true) (buf : Option Nat) :
    m.call (.deliver octet buf) = afterCallback m.atCallback := by
  rw [← callWith_none m (.deliver octet buf)]
  exact deliverOctetWith_of_delivers .none h hdeliver

/-- The callback is told the packet without its CRC. -/
theorem packet_atCallback (m : Machine) :
    m.atCallback.ctx.rx.packet = m.ctx.rewound.rx.packet := by
  rw [Machine.atCallback, Machine.ctx_emit, ctx_transmitterLock_id]
  rfl

/-- To take the lock and give it back writes and delivers nothing. -/
theorem silent_transmitterLock_id (m : Machine) :
    (transmitterLock id m).wire = m.wire ∧ (transmitterLock id m).delivered = m.delivered := by
  have hlock : (sfpLockTransmitter m).wire = m.wire ∧
      (sfpLockTransmitter m).delivered = m.delivered := by
    unfold sfpLockTransmitter
    split
    · simp [Machine.wire_emit, Machine.delivered_emit, Machine.eventOctets, Machine.deliveredEvent]
    · exact ⟨rfl, rfl⟩
  have hunlock : ∀ m : Machine, (sfpUnlockTransmitter m).wire = m.wire ∧
      (sfpUnlockTransmitter m).delivered = m.delivered := by
    intro m
    unfold sfpUnlockTransmitter
    split
    · simp [Machine.wire_emit, Machine.delivered_emit, Machine.eventOctets, Machine.deliveredEvent]
    · exact ⟨rfl, rfl⟩
  obtain ⟨hwire, hdelivered⟩ := hunlock (sfpLockTransmitter m)
  exact ⟨hwire.trans hlock.1, hdelivered.trans hlock.2⟩

/-- Nothing is written before the callback. -/
theorem wire_atCallback (m : Machine) : m.atCallback.wire = m.wire := by
  rw [Machine.atCallback, Machine.wire_emit, (silent_transmitterLock_id _).1, Machine.wire_emit]
  simp only [Machine.eventOctets, List.append_nil]
  rfl

/-- The callback is given the packet. -/
theorem delivered_atCallback (m : Machine) :
    m.atCallback.delivered = m.delivered ++ [m.atCallback.ctx.rx.packet.octets] := by
  rw [Machine.atCallback, Machine.delivered_emit, (silent_transmitterLock_id _).2,
    Machine.delivered_emit]
  simp only [Machine.deliveredEvent, Option.toList_none, List.append_nil]
  rfl

/-- What the callback is told when an octet arrives. -/
theorem delivered_deliver {m : Machine} (hm : m.ctx.tx.Ready) (hdeliver : m.ctx.rx.deliver = true)
    (octet : UInt8) (buf : Option Nat) : (m.call (.deliver octet buf)).delivered
      = m.delivered ++ if m.ctx.Delivers octet then [m.ctx.rewound.rx.packet.octets] else [] := by
  obtain ⟨hnotes, -⟩ := sfpDeliverOctet_notes hm octet 0
  rw [call_deliver, ← fst_sfpDeliverOctet octet (some 0), delivered_eq_notes, hnotes,
    List.filterMap_append, ← delivered_eq_notes, delivered_newNotes hdeliver octet]

/-- No other octet reaches the callback. -/
theorem deliverOctetWith_of_not (reply : Reply) {m : Machine} {octet : UInt8}
    (h : ¬ (m.ctx.Delivers octet ∧ m.ctx.rx.deliver = true)) :
    deliverOctetWith reply octet m = deliverOctetWith .none octet m := by
  by_cases hcloses : m.ctx.Closes octet
  · rw [deliverOctetWith_of_closes reply hcloses, deliverOctetWith_of_closes .none hcloses]
    congr 2
    unfold sfpHandleFrameWith
    split
    · rfl
    · rename_i hlen
      simp only
      split
      · rfl
      · rename_i hcrc
        have hno : ¬ ((rewindCrc m).ctx.Accepts ∧ (rewindCrc m).ctx.rx.deliver = true) :=
          fun hboth => h ⟨⟨hcloses, ⟨Nat.le_of_not_lt hlen, not_not.mp hcrc⟩, hboth.1⟩, hboth.2⟩
        rw [dispatchFrameWith_of_not reply hno, dispatchFrameWith_of_not .none hno]
  · have hopen : ∀ reply, deliverOctetWith reply octet m = (sfpDeliverOctet octet none m).1 :=
      fun _ => if_neg hcloses
    rw [hopen, hopen]

/-- **One call**: to reply in the callback or after the call makes no difference. -/
theorem sameCourse_callWith (reply : Reply) (m : Machine) (c : Call) :
    SameCourse (m.callWith reply c)
      (run Machine.call (m.call c) ((m.replies reply c).map Writing.call)) := by
  cases c with
  | connect | write | isConnected => exact .refl _
  | deliver octet buf =>
    rw [run_writings]
    by_cases h : m.ctx.Delivers octet ∧ m.ctx.rx.deliver = true
    · rw [Machine.replies, if_pos h, call_of_delivers h.1 h.2]
      show SameCourse (deliverOctetWith reply octet m) _
      rw [deliverOctetWith_of_delivers reply h.1 h.2]
      exact sameCourse_afterCallback (deaf_foldl deaf_perform _) _
    · rw [Machine.replies, if_neg h, ← callWith_none m (.deliver octet buf)]
      show SameCourse (deliverOctetWith reply octet m) (deliverOctetWith .none octet m)
      rw [deliverOctetWith_of_not reply h]
      exact .refl _

/-! ## Runs -/

theorem alikeBetween_refl (m : Machine) : AlikeBetween m m where
  events := rfl
  connectState := rfl
  txSeq := rfl
  txCrc := rfl
  history _ := rfl
  writebufn := rfl
  pending := rfl
  write := rfl
  lock := rfl
  unlock := rfl
  rxSeq := rfl
  rxCrc := rfl
  escapeState := rfl
  frameState := rfl
  header _ := rfl
  packet := rfl
  deliver := rfl

/-- The same course and then alike is alike. -/
theorem SameCourse.trans_alike {m m' m'' : Machine} (h : SameCourse m m')
    (h' : AlikeBetween m' m'') : AlikeBetween m m'' := by
  obtain ⟨ctx, trace⟩ := m
  obtain ⟨ctx', trace'⟩ := m'
  obtain rfl : ctx = ctx' := h.ctx
  exact { h' with events := h.events.trans h'.events }

/-- Machines that differ in nothing that is read go on so, with the same calls. -/
theorem alikeBetween_call {m m' : Machine} (hm : m.ctx.Idle) (h : AlikeBetween m m') (c : Call) :
    AlikeBetween (m.call c) (m'.call c) := by
  cases c with
  | write stack packet le => exact (alikeBetween_perform hm h (.write stack packet le) stack).1
  | connect => exact (alikeBetween_perform hm h .connect (.replicate _ 0)).1
  | deliver octet buf => exact (alikeBetween_perform hm h (.deliver octet buf) (.replicate _ 0)).1
  | isConnected => exact (alikeBetween_perform hm h .isConnected (.replicate _ 0)).1

/-- Machines that are alike stay alike over any calls. -/
theorem alikeBetween_run {m m' : Machine} (hm : m.ctx.Between) (h : AlikeBetween m m')
    (cs : List Call) : AlikeBetween (run Machine.call m cs) (run Machine.call m' cs) := by
  induction cs generalizing m m' with
  | nil => exact h
  | cons c cs ih => exact ih (serves_call hm c).between (alikeBetween_call hm.idle h c)

/-- A call with replies leaves the context between API calls, -/
theorem between_callWith (reply : Reply) {m : Machine} (hm : m.ctx.Between) (c : Call) :
    (m.callWith reply c).ctx.Between := by
  rw [(sameCourse_callWith reply m c).ctx]
  exact between_run (serves_call hm c).between _

/-- and so does a run of them. -/
theorem between_runWith (reply : Reply) {m : Machine} (hm : m.ctx.Between) (cs : List Call) :
    (run (Machine.callWith reply) m cs).ctx.Between := by
  induction cs generalizing m with
  | nil => exact hm
  | cons c cs ih => exact ih (between_callWith reply hm c)

/-- Calls with replies, and the calls and replies one after the other. -/
theorem alikeBetween_replies (reply : Reply) {m m' : Machine} (hm : m.ctx.Between)
    (h : AlikeBetween m m') (cs : List Call) :
    AlikeBetween (run (Machine.callWith reply) m cs)
      (run Machine.call m' (repliesAfter reply m cs)) := by
  induction cs generalizing m m' with
  | nil => exact h
  | cons c cs ih =>
    have hsame := sameCourse_callWith reply m c
    have hcall := alikeBetween_run (serves_call hm c).between (alikeBetween_call hm.idle h c)
      ((m.replies reply c).map Writing.call)
    rw [repliesAfter, Lib.run_cons, Lib.run_cons, Lib.run_append]
    exact ih (between_callWith reply hm c) (hsame.trans_alike hcall)

/-- **Replying in the callback.** A program whose deliver callback writes, whatever it writes and
whatever that depends on, does what the program does that writes the same right after each
`sfpDeliverOctet`, and no later call can tell which of the two it was. -/
theorem run_callWith (reply : Reply) (cb : Callbacks) (memory : SFPcontext)
    (cs more : List Call) :
    let start := Machine.of (memory.initWith cb)
    observe (run (Machine.callWith reply) start cs) more
      = observe (afterCalls cb memory (repliesAfter reply start cs)) more := by
  intro start
  have hstart : start.ctx.Between := SFPcontext.between_initWith cb memory
  have halike := alikeBetween_replies reply hstart (alikeBetween_refl _) cs
  have hplain : (afterCalls cb memory (repliesAfter reply start cs)).ctx.Between :=
    between_run hstart _
  have hleft := observe_alike (between_runWith reply hstart cs) halike more (.replicate _ 0)
  have hright := observe_alike hplain (alikeBetween_refl _) more (.replicate _ 0)
  exact hleft.trans hright.symm

end Libsfp
