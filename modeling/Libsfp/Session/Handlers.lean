import Libsfp.Model.Receiver
import Libsfp.Octet.Encoding
import Libsfp.Session.Endpoint

/-!
# The Handlers Refine the Endpoint

Each handler of the context, run on a machine that is idle (write callback set, write buffer empty,
sequence numbers in range), does exactly what the corresponding endpoint operation says: the same
next state, the octets of the same frames on the wire, the same deliveries (unless there is no
deliver callback). `Does` is that
statement; it composes, so every handler is assembled from the operations it calls.
-/

namespace Libsfp

/-! ## Headers and sequence numbers -/

/-- The type of a frame can be read back from its header, for every label. -/
theorem getFrameType_makeHeader_ofNat :
    ∀ (n : Fin 64), getFrameType (makeHeader .usr (UInt8.ofNat n)) = .usr ∧
      getFrameType (makeHeader .rtx (UInt8.ofNat n)) = .rtx ∧
      getFrameType (makeHeader .nak (UInt8.ofNat n)) = .nak ∧
      getFrameType (makeHeader .syn (UInt8.ofNat n)) = .syn := by
  decide

/-- So can the label. -/
theorem getFrameSeq_makeHeader_ofNat :
    ∀ (n : Fin 64), getFrameSeq (makeHeader .usr (UInt8.ofNat n)) = UInt8.ofNat n ∧
      getFrameSeq (makeHeader .rtx (UInt8.ofNat n)) = UInt8.ofNat n ∧
      getFrameSeq (makeHeader .nak (UInt8.ofNat n)) = UInt8.ofNat n ∧
      getFrameSeq (makeHeader .syn (UInt8.ofNat n)) = UInt8.ofNat n := by
  decide

/-- The control bits do not depend on the label. -/
theorem getFrameType_makeHeader (type : SFPframetype) {seq : SFPseq} (h : seq.toNat < seqRange) :
    getFrameType (makeHeader type seq) = type := by
  -- for all 64 labels at once
  have hall := getFrameType_makeHeader_ofNat ⟨seq.toNat, h⟩
  simp only [UInt8.ofNat_toNat] at hall
  cases type
  · exact hall.1
  · exact hall.2.1
  · exact hall.2.2.1
  · exact hall.2.2.2

/-- The label does not depend on the control bits. -/
theorem getFrameSeq_makeHeader (type : SFPframetype) {seq : SFPseq} (h : seq.toNat < seqRange) :
    getFrameSeq (makeHeader type seq) = seq := by
  have hall := getFrameSeq_makeHeader_ofNat ⟨seq.toNat, h⟩
  simp only [UInt8.ofNat_toNat] at hall
  cases type
  · exact hall.1
  · exact hall.2.1
  · exact hall.2.2.1
  · exact hall.2.2.2

/-- `nextSeq` counts modulo `SFP_SEQ_RANGE`. -/
theorem toNat_nextSeq (seq : SFPseq) : (nextSeq seq).toNat = (seq.toNat + 1) % seqRange := by
  have hmask : (sfpSeqRange - 1).toNat = 2 ^ 6 - 1 := by decide
  rw [nextSeq, UInt8.toNat_and, hmask, Nat.and_two_pow_sub_one_eq_mod, UInt8.toNat_add]
  simp only [seqRange, UInt8.toNat_one]
  -- the octet wraps at 256, a multiple of the range
  omega

/-- Whatever octet came in as a header, its label is in range. -/
theorem toNat_getFrameSeq_lt (header : SFPheader) : (getFrameSeq header).toNat < seqRange := by
  have hmask : (((1 : UInt8) <<< sfpNumSeqBits) - 1).toNat = 2 ^ 6 - 1 := by decide
  rw [getFrameSeq, UInt8.toNat_and, hmask, Nat.and_two_pow_sub_one_eq_mod]
  exact Nat.mod_lt _ (by decide)

/-- The wrapping, masked subtraction of the source is subtraction modulo `SFP_SEQ_RANGE`. -/
theorem fastforward_eq {seq txSeq : SFPseq} (htx : txSeq.toNat < seqRange) (size : Nat) :
    fastforward seq txSeq size = (seq.toNat + seqRange + size - txSeq.toNat) % seqRange := by
  -- the mask takes the remainder, also of what wrapped below zero
  have hmask : (sfpSeqRange - 1).toUInt32.toNat = 2 ^ 6 - 1 := by decide
  have hseq : seq.toNat < 256 := seq.toNat_lt
  rw [fastforward, UInt32.toNat_and, hmask, Nat.and_two_pow_sub_one_eq_mod, UInt32.toNat_sub,
    UInt32.toNat_sub, UInt8.toNat_toUInt32, UInt8.toNat_toUInt32, UInt32.toNat_ofNat']
  simp only [seqRange] at *
  omega

/-! ## Abstraction -/

/-- The payload of a frame. -/
def Frame.payload : Frame (List UInt8) → List UInt8
  | .usr _ p => p
  | .rtx _ p => p
  | _ => []

/-- The header of a frame; noise has none. -/
def Frame.header : Frame (List UInt8) → SFPheader
  | .usr seq _ => makeHeader .usr (UInt8.ofNat seq)
  | .rtx seq _ => makeHeader .rtx (UInt8.ofNat seq)
  | .nak seq => makeHeader .nak (UInt8.ofNat seq)
  | .syn seq => makeHeader .syn (UInt8.ofNat seq)
  | _ => 0

/-- The octets a transmitter writes for a frame. -/
def Frame.octets (f : Frame (List UInt8)) : List UInt8 :=
  frameOctets f.header f.payload

variable [SfpConfig]

/-- The protocol state of a context. -/
def SFPcontext.abs (c : SFPcontext) : Endpoint (List UInt8) where
  connectState := c.connectState
  txSeq := c.tx.seq.toNat
  rxSeq := c.rx.seq.toNat
  history := c.tx.history.entries.map SFPpacket.octets

/-- A context between API calls: somewhere to write to, write buffer empty, sequence numbers in
range. -/
structure SFPcontext.Idle (c : SFPcontext) : Prop where
  write : c.tx.write = true
  writebufn : c.tx.writebufn = 0
  txSeq_lt : c.tx.seq.toNat < seqRange
  rxSeq_lt : c.rx.seq.toNat < seqRange

/-- Between API calls the transmitter is ready. -/
theorem SFPcontext.Idle.ready {c : SFPcontext} (h : c.Idle) : c.tx.Ready :=
  ⟨h.write, by rw [h.writebufn]; exact Nat.zero_le _⟩

/-- A context as a program sets it up: `sfpInit` on memory with arbitrary content, then the write
and deliver callbacks. -/
def SFPcontext.setUp (memory : SFPcontext) : SFPcontext :=
  sfpSetDeliverCallback true (sfpSetWriteCallback true (sfpInit memory))

/-- A context that was set up is between API calls, -/
theorem SFPcontext.idle_setUp (memory : SFPcontext) : memory.setUp.Idle := by
  refine ⟨rfl, rfl, ?_, ?_⟩
  · show sfpInitialSeq.toNat < seqRange
    decide
  · show sfpInitialSeq.toNat < seqRange
    decide

/-- A context in the middle of a session in which nothing was written yet. -/
def SFPcontext.inSession (memory : SFPcontext) : SFPcontext :=
  { memory.setUp with connectState := .connected, tx.history := .empty }

/-- and so is one in the middle of a session. -/
theorem SFPcontext.idle_inSession (memory : SFPcontext) : memory.inSession.Idle :=
  ⟨rfl, rfl, memory.idle_setUp.txSeq_lt, memory.idle_setUp.rxSeq_lt⟩

/-- The session begins at label 0 on both sides, with nothing to be sent again. -/
theorem SFPcontext.abs_inSession (memory : SFPcontext) :
    memory.inSession.abs = ⟨.connected, 0, 0, []⟩ := by
  show Endpoint.mk .connected 0 0 ((PotRingbuffer.empty).entries.map SFPpacket.octets) = _
  rw [PotRingbuffer.entries_empty]
  rfl

namespace Machine

def deliveredEvent : Event → Option (List UInt8)
  | .deliver octets => some octets
  | _ => none

/-- Whether a received frame was dispatched or refused. -/
def isFraming : Event → Bool
  | .frameReceived _ _ => true
  | .shortFrame => true
  | .crcMismatch => true
  | _ => false

/-- The packets passed to the deliver callback so far. -/
def delivered (m : Machine) : List (List UInt8) :=
  m.calls.filterMap deliveredEvent

/-- The verdicts of `sfpHandleFrame` so far. -/
def framing (m : Machine) : List Event :=
  m.calls.filter isFraming

@[simp] theorem delivered_of (c : SFPcontext) : (of c).delivered = [] := rfl
@[simp] theorem framing_of (c : SFPcontext) : (of c).framing = [] := rfl

theorem delivered_emit (e : Event) (m : Machine) :
    (m.emit e).delivered = m.delivered ++ (deliveredEvent e).toList := by
  unfold delivered
  rw [calls_emit]
  cases e <;> simp [isCall, deliveredEvent]

theorem framing_emit (e : Event) (m : Machine) :
    (m.emit e).framing = m.framing ++ if isFraming e then [e] else [] := by
  unfold framing
  rw [calls_emit]
  cases e <;> simp [isCall, isFraming]

end Machine

/-- `m'` is `m` after a reaction: same next state, same frames on the wire, same deliveries. -/
structure Does (m m' : Machine) (r : Reaction (List UInt8)) : Prop where
  idle : m'.ctx.Idle
  abs : m'.ctx.abs = r.endpoint
  deliver : m'.ctx.rx.deliver = m.ctx.rx.deliver
  wire : m'.wire = m.wire ++ r.sent.flatMap Frame.octets
  delivered : m'.delivered = m.delivered ++ if m.ctx.rx.deliver then r.got else []
  framing : m'.framing = m.framing

/-- One function after another. -/
theorem Does.trans {m m' m'' : Machine} {r r' : Reaction (List UInt8)} (h : Does m m' r)
    (h' : Does m' m'' r') :
    Does m m'' ⟨r'.endpoint, r.sent ++ r'.sent, r.got ++ r'.got⟩ where
  idle := h'.idle
  abs := h'.abs
  deliver := h'.deliver.trans h.deliver
  wire := by rw [h'.wire, h.wire, List.flatMap_append, List.append_assoc]
  delivered := by
    rw [h'.delivered, h.delivered, h.deliver, List.append_assoc]
    cases m.ctx.rx.deliver <;> simp
  framing := h'.framing.trans h.framing

/-- A change of the context alone. -/
theorem does_of_ctx {m m' : Machine} (htrace : m'.trace = m.trace)
    (hdeliver : m'.ctx.rx.deliver = m.ctx.rx.deliver) (hidle : m'.ctx.Idle) :
    Does m m' ⟨m'.ctx.abs, [], []⟩ where
  idle := hidle
  abs := rfl
  deliver := hdeliver
  wire := by simp [Machine.wire, htrace]
  delivered := by simp [Machine.delivered, Machine.calls, htrace]
  framing := by simp [Machine.framing, Machine.calls, htrace]

/-- An event that is neither a write, a delivery nor a verdict. -/
theorem does_emit {m : Machine} (hm : m.ctx.Idle) {e : Event} (hwire : Machine.eventOctets e = [])
    (hdel : Machine.deliveredEvent e = none) (hframing : Machine.isFraming e = false) :
    Does m (m.emit e) ⟨m.ctx.abs, [], []⟩ where
  idle := hm
  abs := rfl
  deliver := rfl
  wire := by simp [Machine.wire_emit, hwire]
  delivered := by simp [Machine.delivered_emit, hdel]
  framing := by simp [Machine.framing_emit, hframing]

/-! ## Locking -/

/-- The lock changes nothing of the protocol, -/
theorem does_sfpLockTransmitter {m : Machine} (hm : m.ctx.Idle) :
    Does m (sfpLockTransmitter m) ⟨m.ctx.abs, [], []⟩ := by
  unfold sfpLockTransmitter
  split
  · exact does_emit hm rfl rfl rfl
  · exact does_of_ctx rfl rfl hm

/-- nor does the unlock. -/
theorem does_sfpUnlockTransmitter {m : Machine} (hm : m.ctx.Idle) :
    Does m (sfpUnlockTransmitter m) ⟨m.ctx.abs, [], []⟩ := by
  unfold sfpUnlockTransmitter
  split
  · exact does_emit hm rfl rfl rfl
  · exact does_of_ctx rfl rfl hm

/-- Callbacks find the context and leave it as it is. -/
@[simp] theorem ctx_sfpLockTransmitter (m : Machine) : (sfpLockTransmitter m).ctx = m.ctx := by
  unfold sfpLockTransmitter
  split <;> rfl

@[simp] theorem ctx_sfpUnlockTransmitter (m : Machine) :
    (sfpUnlockTransmitter m).ctx = m.ctx := by
  unfold sfpUnlockTransmitter
  split <;> rfl

/-- Holding the lock adds nothing to what the body does. -/
theorem does_transmitterLock (body : Machine → Machine) {m : Machine}
    {r : Reaction (List UInt8)} (hm : m.ctx.Idle)
    (hbody : Does (sfpLockTransmitter m) (body (sfpLockTransmitter m)) r) :
    Does m (transmitterLock body m) r := by
  have hlock := does_sfpLockTransmitter hm
  have hunlock := does_sfpUnlockTransmitter hbody.idle
  have hall := (hlock.trans hbody).trans hunlock
  -- the unlock is silent too, so the reaction is that of the body
  rw [hbody.abs] at hall
  simpa [transmitterLock] using hall

/-! ## Transmitting frames -/

/-- A control frame that is transmitted is all that a function does. -/
theorem does_of_transmits {m m' : Machine} (hm : m.ctx.Idle) {f : Frame (List UInt8)}
    (h : Transmits m m' f.octets) (hn : m'.ctx.tx.writebufn = 0) :
    Does m m' ⟨m.ctx.abs, [f], []⟩ where
  idle := by
    refine ⟨h.ready.write, hn, ?_, ?_⟩
    · rw [h.seq]; exact hm.txSeq_lt
    · rw [h.rx]; exact hm.rxSeq_lt
  abs := by simp [SFPcontext.abs, h.connectState, h.seq, h.rx, h.history]
  deliver := by rw [h.rx]
  wire := by
    -- nothing is pending before or after, so the output is what was written
    have hout := h.out
    simp only [Machine.out, Machine.pending_eq_nil hn, Machine.pending_eq_nil hm.writebufn,
      List.append_nil] at hout
    simpa using hout
  delivered := by simp [Machine.delivered, h.calls]
  framing := by simp [Machine.framing, h.calls]

/-- A `NAK` carries the label that is expected. -/
theorem does_sfpTransmitNAK {m : Machine} (hm : m.ctx.Idle) (seq : SFPseq) :
    Does m (sfpTransmitNAK seq m) ⟨m.ctx.abs, [.nak seq.toNat], []⟩ := by
  have hspec := sfpTransmitFrameWithHeader_spec (makeHeader .nak seq) none hm.ready
  refine does_of_transmits hm ?_ hspec.2
  simpa [sfpTransmitNAK, sfpTransmitControl, Frame.octets, Frame.header, Frame.payload,
    packetOctets] using hspec.1

/-- A synchronization packet. -/
theorem does_sfpTransmitSYN {m : Machine} (hm : m.ctx.Idle) (seq : SFPseq) :
    Does m (sfpTransmitControl .syn seq m) ⟨m.ctx.abs, [.syn seq.toNat], []⟩ := by
  have hspec := sfpTransmitFrameWithHeader_spec (makeHeader .syn seq) none hm.ready
  refine does_of_transmits hm ?_ hspec.2
  simpa [sfpTransmitControl, Frame.octets, Frame.header, Frame.payload, packetOctets]
    using hspec.1

theorem does_sfpTransmitDIS {m : Machine} (hm : m.ctx.Idle) :
    Does m (sfpTransmitDIS m) (m.ctx.abs.answer .dis) :=
  does_sfpTransmitSYN hm sfpSeqSynDis

theorem does_sfpTransmitSYN0 {m : Machine} (hm : m.ctx.Idle) :
    Does m (sfpTransmitSYN0 m) (m.ctx.abs.answer .syn0) :=
  does_sfpTransmitSYN hm sfpSeqSyn0

theorem does_sfpTransmitSYN1 {m : Machine} (hm : m.ctx.Idle) :
    Does m (sfpTransmitSYN1 m) (m.ctx.abs.answer .syn1) :=
  does_sfpTransmitSYN hm sfpSeqSyn1

theorem does_sfpTransmitSYN2 {m : Machine} (hm : m.ctx.Idle) :
    Does m (sfpTransmitSYN2 m) (m.ctx.abs.answer .syn2) :=
  does_sfpTransmitSYN hm sfpSeqSyn2

/-! ## History -/

theorem does_setTxSeq {m : Machine} (hm : m.ctx.Idle) (seq : SFPseq) (hseq : seq.toNat < seqRange) :
    Does m (m.setTxSeq seq) ⟨{ m.ctx.abs with txSeq := seq.toNat }, [], []⟩ :=
  does_of_ctx rfl rfl ⟨hm.write, hm.writebufn, hseq, hm.rxSeq_lt⟩

theorem does_setRxSeq {m : Machine} (hm : m.ctx.Idle) (seq : SFPseq) (hseq : seq.toNat < seqRange) :
    Does m (m.setRxSeq seq) ⟨{ m.ctx.abs with rxSeq := seq.toNat }, [], []⟩ :=
  does_of_ctx rfl rfl ⟨hm.write, hm.writebufn, hm.txSeq_lt, hseq⟩

theorem does_setConnectState {m : Machine} (hm : m.ctx.Idle) (s : SFPconnectstate) :
    Does m (m.setConnectState s) ⟨{ m.ctx.abs with connectState := s }, [], []⟩ :=
  does_of_ctx rfl rfl ⟨hm.write, hm.writebufn, hm.txSeq_lt, hm.rxSeq_lt⟩

/-- The protocol sees the octets of the history and nothing else of it. -/
theorem does_setHistory {m : Machine} (hm : m.ctx.Idle)
    (h : PotRingbuffer SFPpacket sfpConfigHistoryCapacity) :
    Does m (m.setHistory h)
      ⟨{ m.ctx.abs with history := h.entries.map SFPpacket.octets }, [], []⟩ :=
  does_of_ctx rfl rfl ⟨hm.write, hm.writebufn, hm.txSeq_lt, hm.rxSeq_lt⟩

/-- Popping until the buffer is empty clears the history. -/
theorem does_sfpClearHistory {m : Machine} (hm : m.ctx.Idle) :
    Does m (sfpClearHistory m) ⟨{ m.ctx.abs with history := [] }, [], []⟩ := by
  have hset := does_setHistory hm (m.ctx.tx.history.popFrontN m.ctx.tx.history.size)
  simpa [sfpClearHistory] using hset

/-- The protocol does not see what is being received. -/
theorem does_sfpResetReceiver {m : Machine} (hm : m.ctx.Idle) :
    Does m (sfpResetReceiver m) ⟨m.ctx.abs, [], []⟩ :=
  does_of_ctx rfl rfl ⟨hm.write, hm.writebufn, hm.txSeq_lt, hm.rxSeq_lt⟩

/-- A retransmission takes the next label and leaves the history. -/
theorem does_sfpTransmitRTX {m : Machine} (hm : m.ctx.Idle) (packet : SFPpacket) :
    Does m (sfpTransmitRTX packet m)
      ⟨{ m.ctx.abs with txSeq := (m.ctx.tx.seq.toNat + 1) % seqRange },
        [.rtx m.ctx.tx.seq.toNat packet.octets], []⟩ := by
  have hspec := sfpTransmitFrameWithHeader_spec (makeHeader .rtx m.ctx.tx.seq) (some packet)
    hm.ready
  have hframe := does_of_transmits (f := .rtx m.ctx.tx.seq.toNat packet.octets) hm
    (by simpa [Frame.octets, Frame.header, Frame.payload, packetOctets] using hspec.1) hspec.2
  have hnext := toNat_nextSeq m.ctx.tx.seq
  have hseq := hspec.1.seq
  -- the label is counted up after the frame was written
  have hset := does_setTxSeq hframe.idle (nextSeq m.ctx.tx.seq)
    (by rw [hnext]; exact Nat.mod_lt _ (by decide))
  have hall := hframe.trans hset
  rw [hframe.abs, hnext] at hall
  simpa [sfpTransmitRTX, sfpTransmitFrameImpl, hseq] using hall

/-- The retransmission loop over any list of packets. -/
theorem does_foldl_sfpTransmitRTX (packets : List SFPpacket) {m : Machine} (hm : m.ctx.Idle) :
    Does m (packets.foldl (fun m packet => sfpTransmitRTX packet m) m)
      ⟨{ m.ctx.abs with txSeq := (m.ctx.tx.seq.toNat + packets.length) % seqRange },
        Endpoint.retransmissions m.ctx.tx.seq.toNat (packets.map SFPpacket.octets), []⟩ := by
  induction packets generalizing m with
  | nil =>
    have hmod : m.ctx.tx.seq.toNat % seqRange = m.ctx.tx.seq.toNat :=
      Nat.mod_eq_of_lt hm.txSeq_lt
    have hnone : Does m m _ := does_of_ctx rfl rfl hm
    simpa [hmod, Endpoint.retransmissions, SFPcontext.abs] using hnone
  | cons packet packets ih =>
    have hfirst := does_sfpTransmitRTX hm packet
    have hrest := ih hfirst.idle
    have hall := hfirst.trans hrest
    have hseq : (sfpTransmitRTX packet m).ctx.tx.seq.toNat = (m.ctx.tx.seq.toNat + 1) % seqRange :=
      congrArg Endpoint.txSeq hfirst.abs
    -- the labels wrap once in a while, which the remainder absorbs
    have hsum : ((m.ctx.tx.seq.toNat + 1) % seqRange + packets.length) % seqRange
        = (m.ctx.tx.seq.toNat + (packets.length + 1)) % seqRange := by
      rw [Nat.mod_add_mod]
      congr 1
      omega
    rw [hfirst.abs, hseq, hsum] at hall
    simpa [Endpoint.retransmissions] using hall

/-- The number of entries the code skips is the number of packets in front of the label. -/
theorem fastforward_eq_skipTo {c : SFPcontext} (hc : c.Idle) (seq : SFPseq) :
    fastforward seq c.tx.seq c.tx.history.size = c.abs.skipTo seq.toNat := by
  rw [PotRingbuffer.size_eq, fastforward_eq hc.txSeq_lt]
  simp [Endpoint.skipTo, SFPcontext.abs]

/-- The underrun branch of `sfpTransmitHistoryFromSeq`, in the words of the code. -/
theorem underrun_iff {c : SFPcontext} (hc : c.Idle) (seq : SFPseq) :
    c.abs.Underrun seq.toNat ↔
      ¬ c.tx.history.size > fastforward seq c.tx.seq c.tx.history.size := by
  rw [fastforward_eq_skipTo hc, Endpoint.Underrun, gt_iff_lt, Nat.not_lt]
  simp [SFPcontext.abs]

/-- **`sfpTransmitHistoryFromSeq`** is the replay of the endpoint from the same label, underruns
included. -/
theorem does_sfpTransmitHistoryFromSeq {m : Machine} (hm : m.ctx.Idle) (seq : SFPseq)
    (hseq : seq.toNat < seqRange) :
    Does m (sfpTransmitHistoryFromSeq seq m) (m.ctx.abs.replayFrom seq.toNat) := by
  have hsize : m.ctx.tx.history.size = m.ctx.abs.history.length := by
    simp [SFPcontext.abs]
  unfold sfpTransmitHistoryFromSeq sfpTransmitHistory Endpoint.replayFrom Endpoint.kept
  rw [fastforward_eq_skipTo hm]
  generalize m.ctx.abs.skipTo seq.toNat = ff
  rw [← hsize]
  by_cases hin : ff < m.ctx.tx.history.size
  · -- the packets before the one asked for are dropped
    simp only [hin, if_true]
    have hdrop := does_setHistory hm (m.ctx.tx.history.popFrontN ff)
    have hset := does_setTxSeq hdrop.idle seq hseq
    have hloop := does_foldl_sfpTransmitRTX (m.ctx.tx.history.entries.drop ff)
      (hdrop.trans hset).idle
    have hall := (hdrop.trans hset).trans hloop
    rw [hset.abs, hdrop.abs] at hall
    simpa [Machine.setTxSeq, Machine.setHistory, SFPcontext.abs, List.map_drop] using hall
  · -- underrun: the whole history goes out, relabelled
    simp only [hin, if_false]
    have hset := does_setTxSeq hm seq hseq
    have hloop := does_foldl_sfpTransmitRTX m.ctx.tx.history.entries hset.idle
    have hall := hset.trans hloop
    rw [hset.abs] at hall
    simpa [Machine.setTxSeq, SFPcontext.abs] using hall

/-! ## Frame handlers -/

/-- A history without entries is not replayed. -/
theorem does_replayIfWritten {m : Machine} (hm : m.ctx.Idle) :
    Does m (replayIfWritten m) m.ctx.abs.replay := by
  unfold replayIfWritten Endpoint.replay
  -- the octets are compared in the code, their numbers in the endpoint
  have hiff : m.ctx.tx.seq ≠ sfpInitialSeq ↔ m.ctx.abs.txSeq ≠ 0 := by
    simp [SFPcontext.abs, sfpInitialSeq, ← UInt8.toNat_inj]
  by_cases hseq : m.ctx.abs.txSeq ≠ 0
  · simp only [if_pos hseq, if_pos (hiff.mpr hseq)]
    exact does_sfpTransmitHistoryFromSeq hm sfpInitialSeq (by decide)
  · simp only [if_neg hseq, if_neg (fun h => hseq (hiff.mp h))]
    exact does_of_ctx rfl rfl hm

/-- **The handlers of `SYN` frames** do what the endpoint does on the same frame. -/
theorem does_sfpHandleSYN0 {m : Machine} (hm : m.ctx.Idle) :
    Does m (sfpHandleSYN0 m) (m.ctx.abs.receiveSyn 0) := by
  have hreset := does_sfpResetReceiver hm
  have hrx := does_setRxSeq hreset.idle sfpInitialSeq (by decide)
  have htx := does_setTxSeq hrx.idle sfpInitialSeq (by decide)
  have hclear := does_sfpClearHistory htx.idle
  have hsyn := does_sfpTransmitSYN1 hclear.idle
  have hstate := does_setConnectState hsyn.idle .sentSyn1
  -- the six steps in the order of the code
  have hall := hreset.trans (hrx.trans (htx.trans (hclear.trans (hsyn.trans hstate))))
  rw [hsyn.abs, Endpoint.answer, hclear.abs, htx.abs, hrx.abs, hreset.abs] at hall
  exact hall

theorem does_sfpHandleSYN1 {m : Machine} (hm : m.ctx.Idle) :
    Does m (sfpHandleSYN1 m) (m.ctx.abs.receiveSyn 1) := by
  have hsyn := does_sfpTransmitSYN2 hm
  have hreplay := does_replayIfWritten hsyn.idle
  have hstate := does_setConnectState hreplay.idle .connected
  have hall := hsyn.trans (hreplay.trans hstate)
  rw [hreplay.abs, hsyn.abs, Endpoint.answer] at hall
  simp only [Endpoint.receiveSyn, Endpoint.receiveSyn1, sfpHandleSYN1]
  have habs : m.ctx.abs.connectState = m.ctx.connectState := rfl
  rw [habs]
  cases m.ctx.connectState
  case disconnected => exact does_sfpTransmitDIS hm
  all_goals simpa [Endpoint.got_replay] using hall

theorem does_sfpHandleSYN2 {m : Machine} (hm : m.ctx.Idle) :
    Does m (sfpHandleSYN2 m) (m.ctx.abs.receiveSyn 2) := by
  have hreplay := does_replayIfWritten hm
  have hstate := does_setConnectState hreplay.idle .connected
  have hall := hreplay.trans hstate
  rw [hreplay.abs] at hall
  simp only [Endpoint.receiveSyn, Endpoint.receiveSyn2, sfpHandleSYN2]
  have habs : m.ctx.abs.connectState = m.ctx.connectState := rfl
  rw [habs]
  cases m.ctx.connectState
  case disconnected => exact does_sfpTransmitDIS hm
  case sentSyn0 => exact does_sfpTransmitSYN0 hm
  all_goals simpa [Endpoint.got_replay] using hall

/-- **`sfpHandleNAK`** replays from the label asked for, or ignores the frame. -/
theorem does_sfpHandleNAK {m : Machine} (hm : m.ctx.Idle) :
    Does m (sfpHandleNAK m) (m.ctx.abs.receiveNak (getFrameSeq m.ctx.rx.header).toNat) := by
  simp only [Endpoint.receiveNak, sfpHandleNAK]
  have habs : m.ctx.abs.connectState = m.ctx.connectState := rfl
  rw [habs]
  cases m.ctx.connectState
  case disconnected => exact does_sfpTransmitDIS hm
  case sentSyn0 => exact does_sfpTransmitSYN0 hm
  case sentSyn1 => exact does_sfpTransmitSYN1 hm
  case connected =>
    -- an answer unless the next packet is asked for
    have hiff : getFrameSeq m.ctx.rx.header ≠ m.ctx.tx.seq ↔
        (getFrameSeq m.ctx.rx.header).toNat ≠ m.ctx.abs.txSeq := by
      simp [SFPcontext.abs, ← UInt8.toNat_inj]
    by_cases hseq : (getFrameSeq m.ctx.rx.header).toNat ≠ m.ctx.abs.txSeq
    · simp only [if_pos hseq, if_pos (hiff.mpr hseq)]
      exact does_sfpTransmitHistoryFromSeq hm _ (toNat_getFrameSeq_lt _)
    · simp only [if_neg hseq, if_neg (fun h => hseq (hiff.mp h))]
      exact does_of_ctx rfl rfl hm

/-- The `SEQ` of a `SYN` frame chooses the handler. -/
theorem does_sfpHandleSYN {m : Machine} (hm : m.ctx.Idle) :
    Does m (sfpHandleSYN m) (m.ctx.abs.receiveSyn (getFrameSeq m.ctx.rx.header).toNat) := by
  unfold sfpHandleSYN
  generalize getFrameSeq m.ctx.rx.header = seq
  have hne : ∀ {a : SFPseq}, seq ≠ a → seq.toNat ≠ a.toNat :=
    fun h heq => h (UInt8.toNat_inj.mp heq)
  simp only
  split
  next h0 => subst h0; exact does_sfpHandleSYN0 hm
  next h0 =>
  split
  next h1 => subst h1; exact does_sfpHandleSYN1 hm
  next h1 =>
  split
  next h2 => subst h2; exact does_sfpHandleSYN2 hm
  next h2 =>
  split
  next h3 => subst h3; exact does_setConnectState hm .disconnected
  next h3 =>
    -- a SYN with an unknown SEQ is ignored
    have hignored : m.ctx.abs.receiveSyn seq.toNat = ⟨m.ctx.abs, [], []⟩ := by
      unfold Endpoint.receiveSyn
      split
      next heq => exact absurd heq (hne h0)
      next heq => exact absurd heq (hne h1)
      next heq => exact absurd heq (hne h2)
      next heq => exact absurd heq (hne h3)
      next => rfl
    rw [hignored]
    exact does_of_ctx rfl rfl hm

/-- The `USR` and `RTX` handler. -/
theorem does_sfpHandleUSR {m : Machine} (hm : m.ctx.Idle) :
    Does m (sfpHandleUSR m).1
      (m.ctx.abs.receiveUser (getFrameType m.ctx.rx.header == .usr)
        (getFrameSeq m.ctx.rx.header).toNat m.ctx.rx.packet.octets) := by
  have hlock : (sfpLockTransmitter m).ctx.Idle := by rw [ctx_sfpLockTransmitter]; exact hm
  simp only [Endpoint.receiveUser, sfpHandleUSR]
  have habs : m.ctx.abs.connectState = m.ctx.connectState := rfl
  rw [habs]
  cases hcs : m.ctx.connectState
  case disconnected =>
    have hbody := does_sfpTransmitDIS hlock
    rw [ctx_sfpLockTransmitter] at hbody
    exact does_transmitterLock _ hm hbody
  case sentSyn0 =>
    have hbody := does_sfpTransmitSYN0 hlock
    rw [ctx_sfpLockTransmitter] at hbody
    exact does_transmitterLock _ hm hbody
  case sentSyn1 =>
    have hbody := does_sfpTransmitSYN1 hlock
    rw [ctx_sfpLockTransmitter] at hbody
    exact does_transmitterLock _ hm hbody
  case connected =>
    -- the lock around the comparison has no effect
    have hid : Does (sfpLockTransmitter m) (sfpLockTransmitter m) ⟨m.ctx.abs, [], []⟩ := by
      simpa using does_of_ctx (m := sfpLockTransmitter m) rfl rfl hlock
    have hfirst : Does m (transmitterLock id m) ⟨m.ctx.abs, [], []⟩ :=
      does_transmitterLock id hm hid
    have hctx : (transmitterLock id m).ctx = m.ctx := by simp [transmitterLock]
    have hidle := hfirst.idle
    simp only [hctx]
    have hiff : getFrameSeq m.ctx.rx.header ≠ m.ctx.rx.seq ↔
        (getFrameSeq m.ctx.rx.header).toNat ≠ m.ctx.abs.rxSeq := by
      simp [SFPcontext.abs, ← UInt8.toNat_inj]
    by_cases hseq : (getFrameSeq m.ctx.rx.header).toNat ≠ m.ctx.abs.rxSeq
    · simp only [if_pos hseq, if_pos (hiff.mpr hseq)]
      by_cases htype : getFrameType m.ctx.rx.header = .usr
      · -- out of order: ask for the packet that is missing
        simp only [htype, if_true, beq_self_eq_true]
        have hlock' : (sfpLockTransmitter (transmitterLock id m)).ctx.Idle := by
          rw [ctx_sfpLockTransmitter]; exact hidle
        have hnak := does_transmitterLock _ hidle (does_sfpTransmitNAK hlock' m.ctx.rx.seq)
        rw [ctx_sfpLockTransmitter, hctx] at hnak
        exact hfirst.trans hnak
      · simpa [htype] using hfirst
    · simp only [if_neg hseq, if_neg (fun h => hseq (hiff.mp h))]
      have hnext := toNat_nextSeq m.ctx.rx.seq
      -- in order: the packet goes to the callback, if there is one
      have hdeliver : Does (transmitterLock id m)
          (if m.ctx.rx.deliver then
            (transmitterLock id m).emit (.deliver m.ctx.rx.packet.octets)
          else transmitterLock id m)
          ⟨m.ctx.abs, [], [m.ctx.rx.packet.octets]⟩ := by
        by_cases hd : m.ctx.rx.deliver = true
        · rw [if_pos hd]
          refine ⟨hidle, congrArg SFPcontext.abs hctx, rfl, ?_, ?_, ?_⟩
          · simp [Machine.wire_emit, Machine.eventOctets]
          · simp [Machine.delivered_emit, Machine.deliveredEvent, hctx, hd]
          · simp [Machine.framing_emit, Machine.isFraming]
        · rw [if_neg hd]
          refine ⟨hidle, congrArg SFPcontext.abs hctx, rfl, ?_, ?_, rfl⟩
          · simp
          · simp [hctx, hd]
      -- whatever became of the packet, it is counted
      have hset := does_setRxSeq hdeliver.idle (nextSeq m.ctx.rx.seq)
        (by rw [hnext]; exact Nat.mod_lt _ (by decide))
      have hall := (hfirst.trans hdeliver).trans hset
      rw [hdeliver.abs, hnext] at hall
      have hseq' : (if m.ctx.rx.deliver then
            (transmitterLock id m).emit (.deliver m.ctx.rx.packet.octets)
          else transmitterLock id m).ctx.rx.seq = m.ctx.rx.seq := by
        split <;> simp [hctx]
      simpa [hctx, hcs, hseq', SFPcontext.abs] using hall

/-! ## API -/

/-- **`sfpConnect`** clears the history and starts over with a `SYN0`. -/
theorem does_sfpConnect {m : Machine} (hm : m.ctx.Idle) :
    Does m (sfpConnect m) m.ctx.abs.connect := by
  have hreset := does_sfpResetReceiver hm
  have hrx := does_setRxSeq hreset.idle sfpInitialSeq (by decide)
  have hlock : (sfpLockTransmitter ((sfpResetReceiver m).setRxSeq sfpInitialSeq)).ctx.Idle := by
    rw [ctx_sfpLockTransmitter]; exact hrx.idle
  have htx := does_setTxSeq hlock sfpInitialSeq (by decide)
  have hclear := does_sfpClearHistory htx.idle
  have hsyn := does_sfpTransmitSYN0 hclear.idle
  have hstate := does_setConnectState hsyn.idle .sentSyn0
  -- under the lock: label, history, `SYN0`, state
  have hbody := htx.trans (hclear.trans (hsyn.trans hstate))
  have hscope := does_transmitterLock (fun m => (sfpTransmitSYN0 (sfpClearHistory
    (m.setTxSeq sfpInitialSeq))).setConnectState .sentSyn0) hrx.idle hbody
  have hall := hreset.trans (hrx.trans hscope)
  rw [hsyn.abs, Endpoint.answer, hclear.abs, htx.abs, ctx_sfpLockTransmitter, hrx.abs,
    hreset.abs] at hall
  exact hall

/-- A packet goes into the history before it is transmitted. -/
theorem does_sfpTransmitUSR {m : Machine} (hm : m.ctx.Idle) (packet : SFPpacket) :
    Does m (sfpTransmitUSR packet m).1
      (m.ctx.abs.write sfpConfigHistoryCapacity packet.octets) := by
  have hhist := does_setHistory hm (m.ctx.tx.history.pushBack packet)
  have hspec := sfpTransmitFrameWithHeader_spec (makeHeader .usr m.ctx.tx.seq) (some packet)
    hhist.idle.ready
  have hframe := does_of_transmits (f := .usr m.ctx.tx.seq.toNat packet.octets) hhist.idle
    (by simpa [Frame.octets, Frame.header, Frame.payload, packetOctets] using hspec.1) hspec.2
  have hnext := toNat_nextSeq m.ctx.tx.seq
  have hset := does_setTxSeq hframe.idle (nextSeq m.ctx.tx.seq)
    (by rw [hnext]; exact Nat.mod_lt _ (by decide))
  have hall := hhist.trans (hframe.trans hset)
  rw [hframe.abs, hhist.abs, hnext] at hall
  -- the label that is counted up is the one in the header
  have hseq : (sfpTransmitFrameWithHeader (makeHeader .usr m.ctx.tx.seq) (some packet)
      (m.setHistory (m.ctx.tx.history.pushBack packet))).1.ctx.tx.seq = m.ctx.tx.seq :=
    hspec.1.seq
  simp only [sfpTransmitUSR, sfpTransmitFrameImpl, Bool.false_eq_true, if_false, hseq]
  simpa [Endpoint.write, SFPcontext.abs, PotRingbuffer.entries_pushBack] using hall

/-- **`sfpWritePacket`** is a write of the endpoint, if the packet is admitted. -/
theorem does_sfpWritePacket {m : Machine} (hm : m.ctx.Idle)
    (stack : Vector UInt8 sfpConfigMaxPacketSize) (buf : List UInt8)
    (h : buf.length ≤ sfpConfigMaxPacketSize) :
    Does m (sfpWritePacket stack buf h m).1
      (m.ctx.abs.write sfpConfigHistoryCapacity buf) := by
  have hlock := does_sfpLockTransmitter hm
  have husr := does_sfpTransmitUSR hlock.idle (SFPpacket.copyIn stack buf h)
  have hunlock := does_sfpUnlockTransmitter husr.idle
  have hall := hlock.trans (husr.trans hunlock)
  rw [husr.abs, hlock.abs, SFPpacket.octets_copyIn] at hall
  simpa [sfpWritePacket, Endpoint.write] using hall

end Libsfp
