import Libsfp.Lib.Link
import Libsfp.Octet.RoundTrip

/-!
# Two Contexts on a Line

The system the protocol is about: two contexts joined by two FIFO channels of frames. The same
link is built twice, from the contexts of the library, which hand octets to each other, and from
endpoints, which hand frames to each other; `sfpAbstraction` says that the second is an abstraction
of the first. What the session modules prove about endpoints holds of the contexts for that reason.
-/

namespace Libsfp

open Lib (Side Outcome Party Parcel Link Action Abstraction Meets run)

/-! ## Frames in range -/

namespace Frame

variable {α : Type*}

/-- The label of a frame is a sequence number. -/
def InRange : Frame α → Prop
  | usr seq _ => seq < seqRange
  | rtx seq _ => seq < seqRange
  | nak seq => seq < seqRange
  | syn seq => seq < seqRange
  | _ => True

/-- A frame of the protocol, with a label in range and a packet that satisfies `A`. -/
def Sendable (A : α → Prop) : Frame α → Prop
  | usr seq p => seq < seqRange ∧ A p
  | rtx seq p => seq < seqRange ∧ A p
  | nak seq => seq < seqRange
  | syn seq => seq < seqRange
  | _ => False

/-- A frame with a packet. -/
def isUser : Frame α → Bool
  | usr _ _ => true
  | rtx _ _ => true
  | _ => false

instance : DecidablePred (IsNoise : Frame α → Prop)
  | bad => isTrue trivial
  | silent => isTrue trivial
  | usr _ _ => isFalse id
  | rtx _ _ => isFalse id
  | nak _ => isFalse id
  | syn _ => isFalse id

/-- The label and the packet of a frame with a packet. -/
def user? : Frame α → Option (Nat × α)
  | usr seq p => some (seq, p)
  | rtx seq p => some (seq, p)
  | _ => none

/-- The frames with a payload. -/
theorem isUser_eq (f : Frame α) : f.isUser = f.user?.isSome := by cases f <;> rfl

end Frame

namespace Endpoint

variable {α : Type*} {A : α → Prop}

/-- Everything that can be retransmitted satisfies `A`. A disconnected endpoint retransmits
nothing, and forgets its history before it connects. -/
def Keeps (A : α → Prop) (e : Endpoint α) : Prop :=
  e.connectState ≠ .disconnected → ∀ p ∈ e.history, A p

/-- What is sent again is fit to be sent. -/
theorem retransmissions_sendable {seq : Nat} (hseq : seq < seqRange) {ps : List α}
    (hps : ∀ p ∈ ps, A p) : ∀ f ∈ retransmissions seq ps, f.Sendable A := by
  induction ps generalizing seq with
  | nil => simp [retransmissions]
  | cons p ps ih =>
    intro f hf
    rw [retransmissions, List.mem_cons] at hf
    rcases hf with rfl | hf
    · exact ⟨hseq, hps p (by simp)⟩
    · exact ih (Nat.mod_lt _ (by decide)) (fun q hq => hps q (by simp [hq])) f hf

/-- A replay drops packets and adds none. -/
theorem mem_history_of_mem_kept {e : Endpoint α} {seq : Nat} {p : α} (h : p ∈ e.kept seq) :
    p ∈ e.history :=
  (e.kept_sublist seq).subset h

/-- So what is in the history after a replay was there before, -/
theorem mem_history_of_mem_replay {e : Endpoint α} {p : α} (h : p ∈ e.replay.endpoint.history) :
    p ∈ e.history := by
  unfold replay at h
  split at h
  · exact mem_history_of_mem_kept h
  · exact h

/-- and what is sent again came out of it. -/
theorem replay_sendable {e : Endpoint α} (h : ∀ p ∈ e.history, A p) :
    ∀ f ∈ e.replay.sent, f.Sendable A := by
  unfold replay
  split
  · exact retransmissions_sendable (by decide) fun p hp => h p (mem_history_of_mem_kept hp)
  · simp

/-- What an endpoint sends is in range and comes from its history. -/
theorem receive_sendable {e : Endpoint α} {f : Frame α} (hrx : e.rxSeq < seqRange)
    (hkeeps : e.Keeps A) (hf : f.InRange) : ∀ s ∈ (e.receive f).sent, s.Sendable A := by
  -- a `USR` and an `RTX` differ only in the `NAK`
  have huser : ∀ fresh seq p, ∀ s ∈ (e.receiveUser fresh seq p).sent, s.Sendable A := by
    intro fresh seq p s hs
    unfold receiveUser at hs
    cases hstate : e.connectState <;> simp only [hstate, answer, List.mem_singleton] at hs
    case connected =>
      split at hs
      · cases fresh <;> simp at hs
        subst hs
        exact hrx
      · simp at hs
    -- before the session is open there is one `SYN`
    all_goals subst hs; show _ < seqRange; decide
  cases f with
  | usr seq p => exact huser true seq p
  | rtx seq p => exact huser false seq p
  | nak seq =>
    intro s hs
    simp only [receive, receiveNak] at hs
    cases hstate : e.connectState <;> simp only [hstate, answer, List.mem_singleton] at hs
    case connected =>
      have hall := hkeeps (by simp [hstate])
      split at hs
      · exact retransmissions_sendable hf (fun p hp => hall p (mem_history_of_mem_kept hp)) s hs
      · simp at hs
    all_goals subst hs; show _ < seqRange; decide
  | syn seq =>
    intro s hs
    simp only [receive, receiveSyn] at hs
    split at hs
    · -- `SYN0`
      simp only [List.mem_singleton] at hs
      subst hs
      show _ < seqRange
      decide
    · -- `SYN1`: the confirmation, then what was written
      unfold receiveSyn1 at hs
      cases hstate : e.connectState <;>
        simp only [hstate, answer, List.mem_cons, List.not_mem_nil, or_false] at hs
      case disconnected => subst hs; show _ < seqRange; decide
      all_goals
        have hall := hkeeps (by simp [hstate])
        rcases hs with rfl | hs
        · show _ < seqRange
          decide
        · exact replay_sendable hall s hs
    · -- `SYN2`: what was written
      unfold receiveSyn2 at hs
      cases hstate : e.connectState <;> simp only [hstate, answer, List.mem_singleton] at hs
      case disconnected => subst hs; show _ < seqRange; decide
      case sentSyn0 => subst hs; show _ < seqRange; decide
      all_goals exact replay_sendable (hkeeps (by simp [hstate])) s hs
    · simp at hs
    · simp at hs
  | bad =>
    intro s hs
    simp only [receive, answer, List.mem_singleton] at hs
    subst hs
    exact hrx
  | silent => simp [receive]

/-- No reaction puts anything into the history. -/
theorem receive_keeps {e : Endpoint α} (hkeeps : e.Keeps A) (f : Frame α) :
    (e.receive f).endpoint.Keeps A := by
  have huser : ∀ fresh seq p, (e.receiveUser fresh seq p).endpoint.Keeps A := by
    intro fresh seq p
    unfold receiveUser
    cases hstate : e.connectState <;> simp only [answer]
    case connected =>
      split
      · exact hkeeps
      · intro _
        exact hkeeps (by simp [hstate])
    all_goals exact hkeeps
  cases f with
  | usr seq p => exact huser true seq p
  | rtx seq p => exact huser false seq p
  | nak seq =>
    simp only [receive, receiveNak]
    cases hstate : e.connectState <;> simp only [answer]
    case connected =>
      split
      · intro _ p hp
        exact hkeeps (by simp [hstate]) p (mem_history_of_mem_kept hp)
      · exact hkeeps
    all_goals exact hkeeps
  | syn seq =>
    simp only [receive, receiveSyn]
    split
    · -- `SYN0` clears the history
      intro _ p hp
      simp [restart] at hp
    · unfold receiveSyn1
      cases hstate : e.connectState <;> simp only [answer]
      case disconnected => exact hkeeps
      all_goals
        intro _ p hp
        exact hkeeps (by simp [hstate]) p (mem_history_of_mem_replay hp)
    · unfold receiveSyn2
      cases hstate : e.connectState <;> simp only [answer]
      case disconnected => exact hkeeps
      case sentSyn0 => exact hkeeps
      all_goals
        intro _ p hp
        exact hkeeps (by simp [hstate]) p (mem_history_of_mem_replay hp)
    · -- `DIS` leaves the session
      intro h
      exact absurd rfl h
    · exact hkeeps
  | bad => exact hkeeps
  | silent => exact hkeeps

end Endpoint

/-! ## Parties -/

/-- What the user of an endpoint can ask for. -/
inductive EndpointRequest (α : Type*) where
  | connect
  | write (packet : α)
  deriving DecidableEq, Repr

def EndpointRequest.written {α : Type*} : EndpointRequest α → List α
  | .connect => []
  | .write p => [p]

def Reaction.outcome {α : Type*} (r : Reaction α) : Outcome (Endpoint α) (Frame α) α :=
  ⟨r.endpoint, r.sent, r.got⟩

/-- An endpoint as a party. -/
def endpointParty (α : Type*) (capacity : Nat) :
    Party (Endpoint α) (Frame α) (EndpointRequest α) α where
  request e r :=
    match r with
    | .connect => e.connect.outcome
    | .write p => (e.write capacity p).outcome
  hear e f := (e.receive f).outcome
  written := EndpointRequest.written
  carries := Frame.isUser

variable [SfpConfig]

/-- What the user of a context can ask for: `sfpConnect`, or `sfpWritePacket` of a packet that
leaves room for the CRC in the peer's buffer; `stack` is the memory of its local variable. -/
inductive Request where
  | connect
  | write (stack : Vector UInt8 sfpConfigMaxPacketSize) (packet : List UInt8)
      (fits : packet.length + sfpCrcSize ≤ sfpConfigMaxPacketSize)

def Request.written : Request → List (List UInt8)
  | .connect => []
  | .write _ packet _ => [packet]

/-- What a context did: its frames are what it wrote between `FLAG`s. -/
def Machine.outcome (m : Machine) : Outcome SFPcontext (List UInt8) (List UInt8) :=
  ⟨m.ctx, sfpStuffing.frames m.wire, m.delivered⟩

/-- A context as a party. Its messages are the segments between the `FLAG`s on the wire. -/
def sfpParty : Party SFPcontext (List UInt8) Request (List UInt8) where
  request c r :=
    match r with
    | .connect => (sfpConnect (.of c)).outcome
    | .write stack packet fits =>
      (sfpWritePacket stack packet (Nat.le_trans (Nat.le_add_right _ _) fits) (.of c)).1.outcome
  hear c segment := (deliverOctets (sfpFlag :: (segment ++ [sfpFlag])) (.of c)).outcome
  written := Request.written
  carries segment := (segmentVerdict segment).toFrame.isUser

/-! ## The abstraction -/

/-- Packets that leave room for the CRC. -/
def Fits (packet : List UInt8) : Prop :=
  packet.length + sfpCrcSize ≤ sfpConfigMaxPacketSize

/-- The octets of a frame between its `FLAG`s. -/
def Frame.segment (f : Frame (List UInt8)) : List UInt8 :=
  frameSegment f.header f.payload

/-- The frame that a type, a label and a payload stand for. -/
def frameOfType (seq : Nat) (payload : List UInt8) : SFPframetype → Frame (List UInt8)
  | .usr => .usr seq payload
  | .rtx => .rtx seq payload
  | .nak => .nak seq
  | .syn => .syn seq

/-- A frame that fits is decoded to what was encoded, whatever its type. -/
theorem toFrame_frameSegment (type : SFPframetype) {seq : Nat} (hseq : seq < seqRange)
    {payload : List UInt8} (hfits : Fits payload) :
    (segmentVerdict (frameSegment (makeHeader type (.ofNat seq)) payload)).toFrame
      = frameOfType seq payload type := by
  -- the label fits its six bits
  have hnat : (UInt8.ofNat seq).toNat = seq := by
    rw [UInt8.toNat_ofNat']
    exact Nat.mod_eq_of_lt (Nat.lt_trans hseq (by decide))
  have hlt : (UInt8.ofNat seq).toNat < seqRange := by rw [hnat]; exact hseq
  rw [segmentVerdict_frameSegment _ hfits, Verdict.toFrame, decodeFrame,
    getFrameType_makeHeader _ hlt, getFrameSeq_makeHeader _ hlt, hnat]
  cases type <;> rfl

/-- A frame that was sent is the frame that is received. -/
theorem toFrame_segment {f : Frame (List UInt8)} (hf : f.Sendable Fits) :
    (segmentVerdict f.segment).toFrame = f := by
  have hempty : Fits [] := two_le_sfpConfigMaxPacketSize
  cases f with
  | usr seq p => exact toFrame_frameSegment .usr hf.1 hf.2
  | rtx seq p => exact toFrame_frameSegment .rtx hf.1 hf.2
  | nak seq => exact toFrame_frameSegment .nak hf hempty
  | syn seq => exact toFrame_frameSegment .syn hf hempty
  | bad => exact hf.elim
  | silent => exact hf.elim

omit [SfpConfig] in
/-- Labels that a receiver decodes are in range. -/
theorem inRange_toFrame (v : Verdict) : v.toFrame.InRange := by
  cases v with
  | silent => trivial
  | short => trivial
  | mismatch => trivial
  | frame header payload =>
    have hlt := toNat_getFrameSeq_lt header
    simp only [Verdict.toFrame, decodeFrame]
    cases getFrameType header <;> exact hlt

omit [SfpConfig] in
/-- Frames on the wire are told apart by their `FLAG`s. -/
theorem frames_flatMap_octets (fs : List (Frame (List UInt8))) :
    sfpStuffing.frames (fs.flatMap Frame.octets) = fs.map Frame.segment := by
  have hmap : fs.flatMap Frame.octets
      = (fs.map fun f => frameContent f.header f.payload).flatMap
          fun c => sfpFlag :: (sfpStuffing.stuff c ++ [sfpFlag]) := by
    rw [List.flatMap_map]
    rfl
  -- a frame has at least its header, so no segment is empty
  have hne : ∀ c ∈ fs.map (fun f => frameContent f.header f.payload), c ≠ [] := by
    intro c hc
    obtain ⟨f, -, rfl⟩ := List.mem_map.mp hc
    simp [frameContent]
  have hframes := sfpStuffing.frames_flatMap_delimited _ hne
  rw [sfpStuffing_flag] at hframes
  rw [hmap, hframes, List.map_map]
  rfl

/-- A context on a line between events: idle, its receiver between frames, a deliver callback, and
nothing in its history that the peer could not receive. -/
structure SFPcontext.OnLine (c : SFPcontext) : Prop where
  idle : c.Idle
  fresh : c.rx.Fresh
  deliver : c.rx.deliver = true
  keeps : c.abs.Keeps Fits

/-- A context that was set up can be put on a line, -/
theorem onLine_setUp (memory : SFPcontext) : memory.setUp.OnLine where
  idle := memory.idle_setUp
  fresh := memory.fresh_setUp
  deliver := rfl
  keeps := fun h => absurd rfl h

/-- and so can one in the middle of a session. -/
theorem onLine_inSession (memory : SFPcontext) : memory.inSession.OnLine where
  idle := memory.idle_inSession
  fresh := memory.fresh_inSession
  deliver := rfl
  keeps := by
    intro _ p hp
    simp [SFPcontext.abs_inSession] at hp

/-- Writing does not touch the receiver. -/
theorem rx_sfpWritePacket {m : Machine} (hm : m.ctx.Idle)
    (stack : Vector UInt8 sfpConfigMaxPacketSize) (buf : List UInt8)
    (h : buf.length ≤ sfpConfigMaxPacketSize) :
    (sfpWritePacket stack buf h m).1.ctx.rx = m.ctx.rx := by
  have hready : ((sfpLockTransmitter m).setHistory ((sfpLockTransmitter m).ctx.tx.history.pushBack
      (SFPpacket.copyIn stack buf h))).ctx.tx.Ready := by
    refine ⟨?_, ?_⟩
    · simpa [Machine.setHistory] using hm.ready.write
    · simpa [Machine.setHistory] using hm.ready.writebufn_le
  have hspec := (sfpTransmitFrameWithHeader_spec (makeHeader .usr (sfpLockTransmitter m).ctx.tx.seq)
    (some (SFPpacket.copyIn stack buf h)) hready).1.rx
  simpa [sfpWritePacket, sfpTransmitUSR, sfpTransmitFrameImpl, Machine.setTxSeq,
    Machine.setHistory] using hspec

/-- After `sfpConnect` the receiver is between frames. -/
theorem fresh_sfpConnect {m : Machine} (hm : m.ctx.Idle) : (sfpConnect m).ctx.rx.Fresh := by
  have hready : (sfpClearHistory ((sfpLockTransmitter ((sfpResetReceiver m).setRxSeq
      sfpInitialSeq)).setTxSeq sfpInitialSeq)).ctx.tx.Ready := by
    refine ⟨?_, ?_⟩
    · simpa [sfpClearHistory, Machine.setHistory, Machine.setTxSeq, Machine.setRxSeq,
        sfpResetReceiver] using hm.ready.write
    · simpa [sfpClearHistory, Machine.setHistory, Machine.setTxSeq, Machine.setRxSeq,
        sfpResetReceiver] using hm.ready.writebufn_le
  have hspec := (sfpTransmitFrameWithHeader_spec (makeHeader .syn sfpSeqSyn0) none hready).1.rx
  -- the receiver is reset first, and the rest is transmitter
  have hrx : (sfpConnect m).ctx.rx = ((sfpResetReceiver m).setRxSeq sfpInitialSeq).ctx.rx := by
    simpa [sfpConnect, transmitterLock, sfpTransmitSYN0, sfpTransmitControl,
      Machine.setConnectState, sfpClearHistory, Machine.setHistory, Machine.setTxSeq] using hspec
  have hreset := fresh_sfpResetReceiver m
  rw [hrx]
  exact ⟨⟨hreset.holds.frameState, hreset.holds.crc, hreset.holds.header, hreset.holds.packet⟩,
    hreset.escapeState⟩

/-- A context, from line to line, does what an endpoint does. -/
structure Performs (m : Machine) (r : Reaction (List UInt8)) : Prop where
  onLine : m.ctx.OnLine
  abs : m.ctx.abs = r.endpoint
  wire : m.wire = r.sent.flatMap Frame.octets
  delivered : m.delivered = r.got
  sendable : ∀ f ∈ r.sent, f.Sendable Fits

/-- What it wrote, split at the `FLAG`s and decoded, are the frames of the reaction. -/
theorem Performs.outcome_eq {m : Machine} {r : Reaction (List UInt8)} (h : Performs m r) :
    r.outcome = m.outcome.map SFPcontext.abs fun s => (segmentVerdict s).toFrame := by
  have hframes : (sfpStuffing.frames m.wire).map (fun s => (segmentVerdict s).toFrame)
      = r.sent := by
    rw [h.wire, frames_flatMap_octets, List.map_map]
    calc r.sent.map ((fun s => (segmentVerdict s).toFrame) ∘ Frame.segment)
        = r.sent.map id := List.map_congr_left fun f hf => toFrame_segment (h.sendable f hf)
      _ = r.sent := List.map_id _
  simp [Reaction.outcome, Machine.outcome, Outcome.map, h.abs, hframes, h.delivered]

/-- What is on a line between two `FLAG`s has none in it. -/
theorem Performs.flag_notMem {m : Machine} {r : Reaction (List UInt8)} (h : Performs m r) :
    ∀ s ∈ m.outcome.sent, sfpFlag ∉ s := by
  intro s hs
  rw [Machine.outcome, h.wire, frames_flatMap_octets] at hs
  obtain ⟨f, -, rfl⟩ := List.mem_map.mp hs
  exact sfpStuffing.flag_notMem_stuff _

/-- **The three calls on a line**: `sfpConnect` is the request of the endpoint, -/
theorem performs_sfpConnect {c : SFPcontext} (hc : c.OnLine) :
    Performs (sfpConnect (.of c)) c.abs.connect := by
  have hidle : (Machine.of c).ctx.Idle := hc.idle
  have hdoes := does_sfpConnect hidle
  refine ⟨⟨hdoes.idle, fresh_sfpConnect hidle, ?_, ?_⟩, hdoes.abs, ?_, ?_, ?_⟩
  · rw [hdoes.deliver]
    exact hc.deliver
  · -- the history is empty
    rw [hdoes.abs]
    intro _ p hp
    simp [Endpoint.connect, Endpoint.restart] at hp
  · simpa using hdoes.wire
  · simpa [Endpoint.connect, hc.deliver] using hdoes.delivered
  · intro f hf
    simp only [Endpoint.connect, List.mem_singleton] at hf
    subst hf
    show 0 < seqRange
    decide

/-- `sfpWritePacket` with a packet that fits is its write, -/
theorem performs_sfpWritePacket {c : SFPcontext} (hc : c.OnLine)
    (stack : Vector UInt8 sfpConfigMaxPacketSize) {packet : List UInt8} (hfits : Fits packet)
    (h : packet.length ≤ sfpConfigMaxPacketSize) :
    Performs (sfpWritePacket stack packet h (.of c)).1
      (c.abs.write sfpConfigHistoryCapacity packet) := by
  have hidle : (Machine.of c).ctx.Idle := hc.idle
  have hdoes := does_sfpWritePacket hidle stack packet h
  have hrx := rx_sfpWritePacket hidle stack packet h
  refine ⟨⟨hdoes.idle, ?_, ?_, ?_⟩, hdoes.abs, ?_, ?_, ?_⟩
  · rw [hrx]
    exact hc.fresh
  · rw [hrx]
    exact hc.deliver
  · -- an entry is the new packet or was there before
    rw [hdoes.abs]
    intro hstate p hp
    rcases List.mem_append.mp (List.mem_of_mem_drop hp) with hp | hp
    · exact hc.keeps hstate p hp
    · rw [List.mem_singleton.mp hp]
      exact hfits
  · simpa using hdoes.wire
  · simpa [Endpoint.write, hc.deliver] using hdoes.delivered
  · intro f hf
    simp only [Endpoint.write, List.mem_singleton] at hf
    subst hf
    exact ⟨hc.idle.txSeq_lt, hfits⟩

/-- and the octets of a delimited segment are the frame they decode to. -/
theorem performs_deliverOctets {c : SFPcontext} (hc : c.OnLine) {segment : List UInt8}
    (hflag : sfpFlag ∉ segment) :
    Performs (deliverOctets (sfpFlag :: (segment ++ [sfpFlag])) (.of c))
      (c.abs.receive (segmentVerdict segment).toFrame) := by
  obtain ⟨hhears, hfresh⟩ := deliverOctets_delimited (m := .of c) hc.idle hc.fresh hflag
  have hdeliver : (Machine.of c).ctx.rx.deliver = true := hc.deliver
  refine ⟨⟨hhears.idle, hfresh, ?_, ?_⟩, hhears.abs, ?_, ?_, ?_⟩
  · rw [hhears.deliver]
    exact hdeliver
  · rw [hhears.abs]
    exact Endpoint.receive_keeps hc.keeps _
  · simpa using hhears.wire
  · simpa [hc.deliver] using hhears.delivered
  · exact Endpoint.receive_sendable hc.idle.rxSeq_lt hc.keeps (inRange_toFrame _)

/-- **The contexts refine the endpoints**: octets, buffers and CRCs disappear, every request and
every frame does what the endpoint does. -/
def sfpAbstraction :
    Abstraction sfpParty (endpointParty (List UInt8) sfpConfigHistoryCapacity) where
  node := SFPcontext.abs
  message segment := (segmentVerdict segment).toFrame
  request r :=
    match r with
    | .connect => .connect
    | .write _ packet _ => .write packet
  Good := SFPcontext.OnLine
  GoodMessage segment := sfpFlag ∉ segment
  request_good hc r :=
    match r with
    | .connect =>
      have h := performs_sfpConnect hc
      ⟨h.onLine, h.flag_notMem⟩
    | .write stack _ fits =>
      have h := performs_sfpWritePacket hc stack fits _
      ⟨h.onLine, h.flag_notMem⟩
  hear_good hc hflag :=
    have h := performs_deliverOctets hc hflag
    ⟨h.onLine, h.flag_notMem⟩
  request_map hc r :=
    match r with
    | .connect => (performs_sfpConnect hc).outcome_eq
    | .write stack _ fits => (performs_sfpWritePacket hc stack fits _).outcome_eq
  hear_map hc hflag := (performs_deliverOctets hc hflag).outcome_eq
  written_map r :=
    match r with
    | .connect => rfl
    | .write _ _ _ => rfl
  carries_map _ := rfl

end Libsfp
