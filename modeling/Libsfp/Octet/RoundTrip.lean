import Libsfp.Octet.Reception

/-!
# Round Trips over the Wire

What a transmitter writes, a receiver hears.

1. **Framing**: from every receiver state the frames of a transmitter come through intact and in
   order once the first `FLAG` was consumed, with extra `FLAG`s or a shared `FLAG` in between.
2. **Admission**: of the packets that `sfpWritePacket` admits, exactly those that leave room for
   the CRC in the receive buffer arrive.
-/

namespace Libsfp

variable [SfpConfig]

/-! ## One frame -/

omit [SfpConfig] in
/-- Header and trailer take three octets. -/
theorem length_frameContent (header : SFPheader) (payload : List UInt8) :
    (frameContent header payload).length = payload.length + 3 := by
  simp [frameContent, crcTrailer]

omit [SfpConfig] in
/-- The content of a frame passes the checks of the receiver. -/
theorem verdict_frameContent (header : SFPheader) (payload : List UInt8) :
    verdict (frameContent header payload) = .frame header payload := by
  have hcons : frameContent header payload
      = header :: (payload ++ crcTrailer (crcOf sfpCrcPreset (header :: payload))) := rfl
  have hlen : (payload ++ crcTrailer (crcOf sfpCrcPreset (header :: payload))).length
      = payload.length + sfpCrcSize := by
    simp [crcTrailer, sfpCrcSize]
  have hgood : crcOf sfpCrcPreset (frameContent header payload) = sfpCrcGood :=
    crcOf_append_crcTrailer _
  rw [hcons] at hgood ⊢
  rw [verdict_frame (by omega) hgood, hlen, Nat.add_sub_cancel, List.take_left]

/-- A frame that fits the receive buffer together with its CRC is recognized. -/
theorem segmentVerdict_frameSegment (header : SFPheader) {payload : List UInt8}
    (h : payload.length + sfpCrcSize ≤ sfpConfigMaxPacketSize) :
    segmentVerdict (frameSegment header payload) = .frame header payload := by
  have hlen := length_frameContent header payload
  have hfits : (frameContent header payload).length ≤ sfpConfigMaxPacketSize + 1 := by
    simp only [sfpCrcSize] at h
    omega
  rw [segmentVerdict, frameSegment, sfpStuffing.unstuff_stuff, residual_of_length_le hfits,
    verdict_frameContent]

/-! ## Strings of frames -/

/-- The verdicts on a string of octets. -/
def heard (octets : List UInt8) : List Event :=
  (sfpStuffing.segments octets).flatMap fun s => (segmentVerdict s).events

/-- A `FLAG` in front of a string closes nothing. -/
theorem heard_flag (l : List UInt8) : heard (sfpFlag :: l) = heard l := by
  have hclosed := sfpStuffing.segments_closed (s := []) (by simp) l
  have hsilent : (segmentVerdict []).events = [] := rfl
  rw [List.nil_append, sfpStuffing_flag] at hclosed
  simp [heard, hclosed, hsilent]

/-- Any number of `FLAG`s closes nothing either. -/
theorem heard_flags (n : Nat) (l : List UInt8) :
    heard (List.replicate n sfpFlag ++ l) = heard l := by
  induction n with
  | zero => rfl
  | succ n ih => rw [List.replicate_succ, List.cons_append, heard_flag, ih]

/-- A frame that fits is heard, and then what follows it. -/
theorem heard_frameOctets {header : SFPheader} {payload : List UInt8}
    (h : payload.length + sfpCrcSize ≤ sfpConfigMaxPacketSize) (l : List UInt8) :
    heard (frameOctets header payload ++ l) = .frameReceived header payload :: heard l := by
  have hclosed := sfpStuffing.segments_closed
    (sfpStuffing.flag_notMem_stuff (frameContent header payload)) l
  have hshape : frameOctets header payload ++ l
      = sfpFlag :: (frameSegment header payload ++ sfpFlag :: l) := by
    simp [frameOctets]
  rw [hshape, heard_flag, heard]
  rw [frameSegment, ← sfpStuffing_flag, hclosed, List.flatMap_cons]
  have hverdict := segmentVerdict_frameSegment header h
  rw [frameSegment] at hverdict
  rw [hverdict]
  rfl

/-- What lies between a frame and the next one on the line: extra `FLAG`s, or one `FLAG` that
closes the one and opens the other. -/
inductive Gap where
  | extra (n : Nat)
  | merged
  deriving DecidableEq, Repr

/-- The octets that follow a frame: a merged gap removes the opening `FLAG` of the next one. -/
def Gap.join : Gap → List UInt8 → List UInt8
  | .extra n, rest => List.replicate n sfpFlag ++ rest
  | .merged, rest => rest.tail

/-- A frame to transmit, with the gap after it. -/
structure Sending where
  header : SFPheader
  packet : Option SFPpacket
  gap : Gap

/-- The octets on the line when a transmitter sends one frame after the other. -/
def lineOctets : List Sending → SFPcontext → List UInt8
  | [], _ => []
  | s :: rest, c =>
    let m := (sfpTransmitFrameWithHeader s.header s.packet (.of c)).1
    m.wire ++ s.gap.join (lineOctets rest m.ctx)

/-- A transmitter between frames. -/
structure SFPtransmitter.Flushed (tx : SFPtransmitter) : Prop where
  write : tx.write = true
  writebufn : tx.writebufn = 0

/-- A transmitter between frames writes one frame and is between frames again. -/
theorem wire_sfpTransmitFrameWithHeader (header : SFPheader) (packet : Option SFPpacket)
    {c : SFPcontext} (hc : c.tx.Flushed) :
    (sfpTransmitFrameWithHeader header packet (.of c)).1.wire
        = frameOctets header (packetOctets packet) ∧
      (sfpTransmitFrameWithHeader header packet (.of c)).1.ctx.tx.Flushed := by
  have hready : (Machine.of c).ctx.tx.Ready := ⟨hc.write, by simp [Machine.of, hc.writebufn]⟩
  have hspec := sfpTransmitFrameWithHeader_spec header packet hready
  refine ⟨?_, hspec.1.ready.write, hspec.2⟩
  have hout := hspec.1.out
  have hempty : (Machine.of c).pending = [] := Machine.pending_eq_nil hc.writebufn
  simpa [Machine.out, Machine.pending_eq_nil hspec.2, hempty] using hout

/-- The line starts with a `FLAG`, and its frames are heard whether or not that one is. -/
theorem heard_lineOctets (frames : List Sending)
    (hfit : ∀ s ∈ frames, (packetOctets s.packet).length + sfpCrcSize ≤ sfpConfigMaxPacketSize)
    {c : SFPcontext} (hc : c.tx.Flushed) :
    heard (lineOctets frames c)
        = frames.map (fun s => .frameReceived s.header (packetOctets s.packet)) ∧
      heard (lineOctets frames c).tail = heard (lineOctets frames c) := by
  induction frames generalizing c with
  | nil => exact ⟨rfl, rfl⟩
  | cons s rest ih =>
    obtain ⟨hwire, hnext⟩ := wire_sfpTransmitFrameWithHeader s.header s.packet hc
    obtain ⟨hrest, htail⟩ := ih (fun s hs => hfit s (List.mem_cons_of_mem _ hs)) hnext
    -- a merged gap drops a `FLAG` that closes nothing
    have hjoin : ∀ gap : Gap, heard (gap.join (lineOctets rest
        (sfpTransmitFrameWithHeader s.header s.packet (.of c)).1.ctx))
        = rest.map (fun s => .frameReceived s.header (packetOctets s.packet)) := by
      intro gap
      cases gap with
      | extra n => rw [Gap.join, heard_flags, hrest]
      | merged => rw [Gap.join, htail, hrest]
    refine ⟨?_, ?_⟩
    · rw [lineOctets, hwire, heard_frameOctets (hfit s (by simp)), hjoin, List.map_cons]
    · simp only [lineOctets, hwire, frameOctets, List.cons_append, List.tail_cons, heard_flag]

/-- The line starts with a `FLAG` as soon as anything is sent. -/
theorem head?_lineOctets {frames : List Sending} (hne : frames ≠ []) {c : SFPcontext}
    (hc : c.tx.Flushed) : (lineOctets frames c).head? = some sfpFlag := by
  cases frames with
  | nil => exact absurd rfl hne
  | cons s rest =>
    rw [lineOctets, (wire_sfpTransmitFrameWithHeader s.header s.packet hc).1]
    rfl

/-- **Round trip and self-synchronization.** Whatever state the receiver is in, after the first
`FLAG` its verdicts are the frames that were sent, in order and intact. -/
theorem framing_lineOctets {sender : SFPcontext} (hsender : sender.tx.Flushed)
    (frames : List Sending)
    (hfit : ∀ s ∈ frames, (packetOctets s.packet).length + sfpCrcSize ≤ sfpConfigMaxPacketSize)
    {receiver : Machine} (hreceiver : receiver.ctx.Idle) :
    (frames ≠ [] → (lineOctets frames sender).head? = some sfpFlag) ∧
      (deliverOctets (lineOctets frames sender).tail
          (sfpDeliverOctet sfpFlag none receiver).1).framing
        = (sfpDeliverOctet sfpFlag none receiver).1.framing ++
          frames.map (fun s => .frameReceived s.header (packetOctets s.packet)) := by
  obtain ⟨hidle, hfresh⟩ := sfpDeliverOctet_flag_fresh hreceiver
  obtain ⟨hheard, htail⟩ := heard_lineOctets frames hfit hsender
  refine ⟨fun hne => head?_lineOctets hne hsender, ?_⟩
  rw [framing_deliverOctets hidle hfresh, ← hheard, ← htail]
  rfl

end Libsfp

namespace Libsfp

section HeaderDefaults

attribute [local instance] headerDefaults

/-- Three frames with one `FLAG` between the first two: a header that has to be escaped, reserved
octets in the payload, and no packet at all. -/
def threeSendings : List Sending :=
  [⟨makeHeader .rtx 61, some (.copyIn (.replicate _ 0) [sfpEsc, 0x41] (by decide)), .merged⟩,
    ⟨makeHeader .usr 3, some (.copyIn (.replicate _ 0) [0x42, sfpFlag] (by decide)), .extra 2⟩,
    ⟨makeHeader .nak 7, none, .merged⟩]

/-- The receiver is in the middle of a frame, behind an `ESC`. -/
theorem framing_lineOctets_midFrame :
    let receiver := deliverOctets [0x11, 0x22, 0x33, sfpEsc] (.of SFPcontext.zero.setUp)
    let frames := lineOctets threeSendings SFPcontext.zero.setUp
    frames.head? = some sfpFlag ∧
      (deliverOctets frames.tail (sfpDeliverOctet sfpFlag none receiver).1).framing
        = [.crcMismatch, .frameReceived 0x7d [sfpEsc, 0x41], .frameReceived 3 [0x42, sfpFlag],
            .frameReceived 0x87 []] := by
  have hsender := SFPcontext.idle_setUp SFPcontext.zero
  have hreceiver : (deliverOctets [0x11, 0x22, 0x33, sfpEsc]
      (.of SFPcontext.zero.setUp)).ctx.Idle :=
    (deliverOctets_fresh_segment (by decide) (SFPcontext.fresh_setUp _)).1.idle hsender
  have hframing := framing_lineOctets ⟨hsender.write, hsender.writebufn⟩ threeSendings (by decide)
    hreceiver
  -- the frame it was in the middle of is refused at the first `FLAG`
  have hfirst : (sfpDeliverOctet sfpFlag none (deliverOctets [0x11, 0x22, 0x33, sfpEsc]
      (.of SFPcontext.zero.setUp))).1.framing = [.crcMismatch] := by
    decide +kernel
  refine ⟨hframing.1 (by decide), hframing.2.trans ?_⟩
  rw [hfirst]
  decide +kernel

end HeaderDefaults

variable [SfpConfig]

/-! ## Admission -/

/-- What a packet written to a peer in step with the writer has to do: it is delivered once and
whole, the sequence number advances, nothing is sent back. -/
structure Arrives (packet : List UInt8) (before : SFPcontext) (after : Machine) : Prop where
  delivered : after.delivered = [packet]
  rxSeq : after.ctx.rx.seq.toNat = (before.rx.seq.toNat + 1) % seqRange
  silent : after.wire = []

/-- A connected context that expects the next packet of `a`, with its receiver between frames. -/
structure InStep (a b : SFPcontext) : Prop where
  connected : b.connectState = .connected
  seq : b.rx.seq = a.tx.seq
  deliver : b.rx.deliver = true
  fresh : b.rx.Fresh

/-- The peer of a writer takes the frame of the packet for whatever its segment decodes to. -/
theorem hears_sfpWritePacket {a b : SFPcontext} (ha : a.Idle) (hb : b.Idle) (hrx : b.rx.Fresh)
    (stack : Vector UInt8 sfpConfigMaxPacketSize) (buf : List UInt8)
    (h : buf.length ≤ sfpConfigMaxPacketSize) :
    Hears (.of b) (deliverOctets (sfpWritePacket stack buf h (.of a)).1.wire (.of b))
      (b.abs.receive (segmentVerdict (frameSegment (makeHeader .usr a.tx.seq) buf)).toFrame)
      (segmentVerdict (frameSegment (makeHeader .usr a.tx.seq) buf)).events := by
  have hwire : (sfpWritePacket stack buf h (.of a)).1.wire
      = sfpFlag :: (frameSegment (makeHeader .usr a.tx.seq) buf ++ [sfpFlag]) := by
    have hdoes := (does_sfpWritePacket (m := .of a) ha stack buf h).wire
    simpa [Endpoint.write, Frame.octets, Frame.header, Frame.payload, SFPcontext.abs, Machine.of,
      Machine.wire, frameOctets] using hdoes
  rw [hwire]
  exact (deliverOctets_delimited (m := .of b) hb hrx (sfpStuffing.flag_notMem_stuff _)).1

/-- A packet that leaves room for the CRC arrives. -/
theorem arrives_of_length {a b : SFPcontext} (ha : a.Idle) (hb : b.Idle) (hab : InStep a b)
    (stack : Vector UInt8 sfpConfigMaxPacketSize) {buf : List UInt8}
    (h : buf.length ≤ sfpConfigMaxPacketSize)
    (hfit : buf.length + sfpCrcSize ≤ sfpConfigMaxPacketSize) :
    Arrives buf b (deliverOctets (sfpWritePacket stack buf h (.of a)).1.wire (.of b)) := by
  have hhears := hears_sfpWritePacket ha hb hab.fresh stack buf h
  -- the label survives the way through the header
  have hframe : (Verdict.frame (makeHeader .usr a.tx.seq) buf).toFrame
      = .usr a.tx.seq.toNat buf := by
    simp [Verdict.toFrame, decodeFrame, getFrameType_makeHeader _ ha.txSeq_lt,
      getFrameSeq_makeHeader _ ha.txSeq_lt]
  have hreceive : b.abs.receive (.usr a.tx.seq.toNat buf)
      = ⟨{ b.abs with rxSeq := (b.rx.seq.toNat + 1) % seqRange }, [], [buf]⟩ := by
    simp [Endpoint.receive, Endpoint.receiveUser, SFPcontext.abs, hab.connected, hab.seq]
  rw [segmentVerdict_frameSegment _ hfit, hframe, hreceive] at hhears
  refine ⟨?_, ?_, ?_⟩
  · have hdelivered := hhears.delivered
    simpa [hab.deliver] using hdelivered
  · exact congrArg Endpoint.rxSeq hhears.abs
  · simpa using hhears.wire

/-- The last CRC octet that does not fit, or the octet behind it, is all that is left of a packet
which fills the receive buffer; none of it is delivered. -/
theorem not_arrives_of_overrun {a b : SFPcontext} (ha : a.Idle) (hb : b.Idle) (hrx : b.rx.Fresh)
    (stack : Vector UInt8 sfpConfigMaxPacketSize) {buf : List UInt8}
    (h : buf.length ≤ sfpConfigMaxPacketSize)
    (hover : sfpConfigMaxPacketSize < buf.length + sfpCrcSize) :
    ¬ Arrives buf b (deliverOctets (sfpWritePacket stack buf h (.of a)).1.wire (.of b)) := by
  intro harrives
  have hhears := hears_sfpWritePacket ha hb hrx stack buf h
  have hlen := length_frameContent (makeHeader .usr a.tx.seq) buf
  -- one overrun, and at most one octet behind it
  have hleft : (residual (frameContent (makeHeader .usr a.tx.seq) buf)).length ≤ 1 := by
    have hone : (frameContent (makeHeader .usr a.tx.seq) buf).length
        / (sfpConfigMaxPacketSize + 2) = 1 := by
      have htwo := two_le_sfpConfigMaxPacketSize
      simp only [sfpCrcSize] at hover
      rw [hlen]
      exact Nat.div_eq_of_lt_le (by omega) (by omega)
    rw [residual_eq_drop, hone, List.length_drop, hlen]
    omega
  have hverdict : segmentVerdict (frameSegment (makeHeader .usr a.tx.seq) buf) = .silent ∨
      segmentVerdict (frameSegment (makeHeader .usr a.tx.seq) buf) = .short := by
    rw [segmentVerdict, frameSegment, sfpStuffing.unstuff_stuff]
    cases hres : residual (frameContent (makeHeader .usr a.tx.seq) buf) with
    | nil => exact Or.inl rfl
    | cons header rest =>
      rw [hres, List.length_cons] at hleft
      exact Or.inr (verdict_short (by simp only [sfpCrcSize]; omega))
  -- neither verdict delivers anything
  have hnothing : (b.abs.receive
      (segmentVerdict (frameSegment (makeHeader .usr a.tx.seq) buf)).toFrame).got = [] := by
    rcases hverdict with hv | hv
    · rw [hv]; rfl
    · rw [hv]; rfl
  have hdelivered := hhears.delivered
  rw [hnothing, harrives.delivered, ite_self] at hdelivered
  simp at hdelivered

/-- **Admission**: a packet that `sfpWritePacket` admits arrives if and only if it leaves room for
the CRC. -/
theorem arrives_iff {a b : SFPcontext} (ha : a.Idle) (hb : b.Idle) (hab : InStep a b)
    (stack : Vector UInt8 sfpConfigMaxPacketSize) (buf : List UInt8)
    (h : buf.length ≤ sfpConfigMaxPacketSize) :
    Arrives buf b (deliverOctets (sfpWritePacket stack buf h (.of a)).1.wire (.of b)) ↔
      buf.length + sfpCrcSize ≤ sfpConfigMaxPacketSize := by
  refine ⟨?_, arrives_of_length ha hb hab stack h⟩
  intro harrives
  by_contra hover
  exact not_arrives_of_overrun ha hb hab.fresh stack h (Nat.lt_of_not_le hover) harrives

omit [SfpConfig] in
/-- A packet of one octet, which has to be escaped. -/
theorem arrives_iff_zero :
    letI := headerDefaults
    let peer := SFPcontext.zero.inSession
    Arrives [sfpFlag] peer (deliverOctets
        (sfpWritePacket (.replicate _ 0) [sfpFlag] (by decide) (.of peer)).1.wire (.of peer)) ↔
      [sfpFlag].length + sfpCrcSize ≤ sfpConfigMaxPacketSize := by
  let _ : SfpConfig := headerDefaults
  have hidle := SFPcontext.idle_inSession SFPcontext.zero
  exact arrives_iff hidle hidle ⟨rfl, rfl, rfl, SFPcontext.fresh_inSession _⟩ _ _ _

omit [SfpConfig] in
/-- A packet of 255 octets, admitted at the default packet size of 256, never arrives. -/
theorem not_arrives_replicate :
    letI := headerDefaults
    let peer := SFPcontext.zero.inSession
    ¬ Arrives (List.replicate 255 0) peer (deliverOctets
        (sfpWritePacket (.replicate _ 0) (List.replicate 255 0)
          (by rw [List.length_replicate]; decide) (.of peer)).1.wire (.of peer)) := by
  let _ : SfpConfig := headerDefaults
  have hidle := SFPcontext.idle_inSession SFPcontext.zero
  refine not_arrives_of_overrun hidle hidle (SFPcontext.fresh_inSession _) _ _ ?_
  rw [List.length_replicate]
  decide

end Libsfp
