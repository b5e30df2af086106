import Libsfp.Octet.Grammar

/-!
# From Octets to Frames

What the closing `FLAG` of a segment does, and from it the three statements about whole octet
strings: which segments reach the dispatch (the frame grammar), that transmitted frames come
through intact from every receiver state (round trip and self-synchronization), and which packets
admitted by the sender fit into the receiver.
-/

namespace Libsfp

variable [SfpConfig]

/-! ## The closing FLAG -/

/-- `m'` is `m` after a verdict and the reaction to it. -/
structure Hears (m m' : Machine) (r : Reaction (List UInt8)) (verdicts : List Event) : Prop where
  idle : m'.ctx.Idle
  abs : m'.ctx.abs = r.endpoint
  deliver : m'.ctx.rx.deliver = m.ctx.rx.deliver
  wire : m'.wire = m.wire ++ r.sent.flatMap Frame.octets
  delivered : m'.delivered = m.delivered ++ if m.ctx.rx.deliver then r.got else []
  framing : m'.framing = m.framing ++ verdicts

/-- A reaction without a verdict. -/
theorem Does.hears {m m' : Machine} {r : Reaction (List UInt8)} (h : Does m m' r) :
    Hears m m' r [] :=
  ⟨h.idle, h.abs, h.deliver, h.wire, h.delivered, by rw [h.framing, List.append_nil]⟩

/-- A verdict is recorded first, the handler runs after it. -/
theorem Does.hears_verdict {m m' : Machine} {r : Reaction (List UInt8)} {e : Event}
    (he : Machine.isFraming e = true) (h : Does (m.emit e) m' r) : Hears m m' r [e] where
  idle := h.idle
  abs := h.abs
  deliver := h.deliver
  wire := by
    have hnone : Machine.eventOctets e = [] := by
      cases e <;> simp_all [Machine.isFraming, Machine.eventOctets]
    rw [h.wire, Machine.wire_emit, hnone, List.append_nil]
  delivered := by
    have hnone : Machine.deliveredEvent e = none := by
      cases e <;> simp_all [Machine.isFraming, Machine.deliveredEvent]
    rw [h.delivered, Machine.delivered_emit, hnone, Option.toList_none, List.append_nil,
      Machine.ctx_emit]
  framing := by rw [h.framing, Machine.framing_emit, if_pos he]

/-- What was collected before does not change a verdict, -/
theorem Hears.after_listens {m m₁ m' : Machine} {r : Reaction (List UInt8)} {vs : List Event}
    (hl : Listens m m₁) (h : Hears m₁ m' r vs) : Hears m m' r vs where
  idle := h.idle
  abs := h.abs
  deliver := h.deliver.trans hl.deliver
  wire := by rw [h.wire, Machine.wire, Machine.wire, hl.trace]
  delivered := by
    rw [h.delivered, hl.deliver]
    simp [Machine.delivered, Machine.calls, hl.trace]
  framing := by
    rw [h.framing]
    simp [Machine.framing, Machine.calls, hl.trace]

/-- nor does a reset behind it. -/
theorem Hears.before_listens {m m₁ m' : Machine} {r : Reaction (List UInt8)} {vs : List Event}
    (h : Hears m m₁ r vs) (hl : Listens m₁ m') : Hears m m' r vs where
  idle := hl.idle h.idle
  abs := hl.abs.trans h.abs
  deliver := hl.deliver.trans h.deliver
  wire := by rw [← h.wire, Machine.wire, Machine.wire, hl.trace]
  delivered := by
    rw [← h.delivered]
    simp [Machine.delivered, Machine.calls, hl.trace]
  framing := by
    rw [← h.framing]
    simp [Machine.framing, Machine.calls, hl.trace]

/-- A refused frame is answered with a `NAK`. -/
theorem hears_refused {m : Machine} (hm : m.ctx.Idle) {e : Event}
    (he : Machine.isFraming e = true) :
    Hears m (transmitterLock (sfpTransmitNAK m.ctx.rx.seq) (m.emit e))
      (m.ctx.abs.receive .bad) [e] := by
  have hemit : (m.emit e).ctx.Idle := hm
  -- the `NAK` is sent with the transmitter locked
  have hlock : (sfpLockTransmitter (m.emit e)).ctx.Idle := by
    rw [ctx_sfpLockTransmitter]; exact hemit
  have hnak := does_sfpTransmitNAK hlock m.ctx.rx.seq
  rw [ctx_sfpLockTransmitter] at hnak
  exact (does_transmitterLock _ hemit hnak).hears_verdict he

/-- A good frame is dispatched on its type. -/
theorem dispatchFrame_spec {m : Machine} (hm : m.ctx.Idle) :
    Hears m (dispatchFrame m).1
      (m.ctx.abs.receive (decodeFrame m.ctx.rx.header m.ctx.rx.packet.octets))
      [.frameReceived m.ctx.rx.header m.ctx.rx.packet.octets] := by
  have hemit : (m.emit (.frameReceived m.ctx.rx.header m.ctx.rx.packet.octets)).ctx.Idle := hm
  have hlock : (sfpLockTransmitter
      (m.emit (.frameReceived m.ctx.rx.header m.ctx.rx.packet.octets))).ctx.Idle := by
    rw [ctx_sfpLockTransmitter]; exact hemit
  unfold dispatchFrame decodeFrame
  simp only [Machine.ctx_emit]
  cases htype : getFrameType m.ctx.rx.header with
  | usr =>
    have husr := does_sfpHandleUSR hemit
    simp only [Machine.ctx_emit, htype, beq_self_eq_true] at husr
    exact husr.hears_verdict rfl
  | rtx =>
    have husr := does_sfpHandleUSR hemit
    simp only [Machine.ctx_emit, htype] at husr
    exact husr.hears_verdict rfl
  | nak =>
    have hnak := does_sfpHandleNAK hlock
    rw [ctx_sfpLockTransmitter] at hnak
    exact (does_transmitterLock _ hemit hnak).hears_verdict rfl
  | syn =>
    have hsyn := does_sfpHandleSYN hlock
    rw [ctx_sfpLockTransmitter] at hsyn
    exact (does_transmitterLock _ hemit hsyn).hears_verdict rfl

/-- What becomes of a collected content: too short, damaged, or a frame. -/
theorem sfpHandleFrame_cases (m : Machine) :
    (m.ctx.rx.packet.len < sfpCrcSize ∧ sfpHandleFrame m
        = (transmitterLock (sfpTransmitNAK m.ctx.rx.seq) (m.emit .shortFrame), 0)) ∨
      (sfpCrcSize ≤ m.ctx.rx.packet.len ∧ m.ctx.rx.crc ≠ sfpCrcGood ∧ sfpHandleFrame m
        = (transmitterLock (sfpTransmitNAK m.ctx.rx.seq) ((rewindCrc m).emit .crcMismatch), 0)) ∨
      (sfpCrcSize ≤ m.ctx.rx.packet.len ∧ m.ctx.rx.crc = sfpCrcGood ∧
        sfpHandleFrame m = dispatchFrame (rewindCrc m)) := by
  unfold sfpHandleFrame
  by_cases hshort : m.ctx.rx.packet.len < sfpCrcSize
  · exact .inl ⟨hshort, if_pos hshort⟩
  · have hlen : sfpCrcSize ≤ m.ctx.rx.packet.len := Nat.le_of_not_lt hshort
    rw [if_neg hshort]
    by_cases hcrc : m.ctx.rx.crc = sfpCrcGood
    · exact .inr (.inr ⟨hlen, hcrc, if_neg (not_not.mpr hcrc)⟩)
    · exact .inr (.inl ⟨hlen, hcrc, if_pos hcrc⟩)

/-- **`sfpHandleFrame`** acts on the verdict about what was collected. -/
theorem sfpHandleFrame_spec {m : Machine} (hm : m.ctx.Idle) {content : List UInt8}
    (hne : content ≠ []) (h : m.ctx.rx.Holds content) :
    Hears m (sfpHandleFrame m).1 (m.ctx.abs.receive (verdict content).toFrame)
      (verdict content).events := by
  obtain ⟨header, rest, rfl⟩ := List.exists_cons_of_ne_nil hne
  have hlen : m.ctx.rx.packet.len = rest.length := by simp [h.len]
  have hcrc : m.ctx.rx.crc = crcOf sfpCrcPreset (header :: rest) := h.crc
  -- the trailer is taken off the packet, which is nothing but listening
  have hlisten : Listens m (rewindCrc m) := ⟨rfl, rfl, rfl, rfl, rfl⟩
  have hidle := hlisten.idle hm
  rcases sfpHandleFrame_cases m with ⟨hshort, heq⟩ | ⟨hlong, hbad, heq⟩ | ⟨hlong, hgood, heq⟩
  · rw [heq, verdict_short (hlen ▸ hshort)]
    exact hears_refused hm rfl
  · rw [hlen] at hlong
    rw [hcrc] at hbad
    rw [heq, verdict_mismatch (Nat.not_lt_of_le hlong) hbad, ← hlisten.abs]
    exact (hears_refused hidle rfl).after_listens hlisten
  · have hheader : (rewindCrc m).ctx.rx.header = header := h.header header rfl
    -- what is left of the packet is the payload
    have hpacket : (rewindCrc m).ctx.rx.packet.octets
        = rest.take (rest.length - sfpCrcSize) := by
      have hoctets : m.ctx.rx.packet.octets = rest := h.packet
      rw [← hlen, ← hoctets]
      simp only [rewindCrc, SFPpacket.octets, List.take_take]
      rw [Nat.min_eq_left (Nat.sub_le _ _)]
    have hdispatch := dispatchFrame_spec hidle
    rw [hheader, hpacket] at hdispatch
    rw [hlen] at hlong
    rw [hcrc] at hgood
    rw [heq, verdict_frame (Nat.not_lt_of_le hlong) hgood, ← hlisten.abs]
    exact hdispatch.after_listens hlisten

/-- **The closing FLAG** acts on the collected content and leaves the receiver between frames. -/
theorem sfpDeliverOctet_flag {m : Machine} (hm : m.ctx.Idle) {content : List UInt8}
    (h : m.ctx.rx.Holds content) :
    Hears m (sfpDeliverOctet sfpFlag none m).1 (m.ctx.abs.receive (verdict content).toFrame)
        (verdict content).events ∧
      (sfpDeliverOctet sfpFlag none m).1.ctx.rx.Fresh := by
  unfold sfpDeliverOctet
  rw [if_pos rfl]
  by_cases hnil : content = []
  · -- back-to-back FLAGs are a keepalive
    have hstate : m.ctx.rx.frameState = .new := by simpa [hnil] using h.frameState
    simp only [hstate]
    refine ⟨?_, fresh_sfpResetReceiver m⟩
    subst hnil
    exact (does_sfpResetReceiver hm).hears
  · have hstate : m.ctx.rx.frameState = .receiving := by simpa [hnil] using h.frameState
    simp only [hstate]
    refine ⟨?_, fresh_sfpResetReceiver _⟩
    exact (sfpHandleFrame_spec hm hnil h).before_listens (listens_sfpResetReceiver _)

/-! ## Segments -/

/-- A whole segment with its closing `FLAG`, from a receiver between frames. -/
theorem deliverOctets_closed {m : Machine} (hm : m.ctx.Idle) (hrx : m.ctx.rx.Fresh)
    {segment : List UInt8} (hflag : sfpFlag ∉ segment) :
    Hears m (deliverOctets (segment ++ [sfpFlag]) m)
        (m.ctx.abs.receive (segmentVerdict segment).toFrame) (segmentVerdict segment).events ∧
      (deliverOctets (segment ++ [sfpFlag]) m).ctx.rx.Fresh := by
  -- the octets are collected, then the `FLAG` decides
  have hsegment := deliverOctets_fresh_segment hflag hrx
  have hclose := sfpDeliverOctet_flag (hsegment.1.idle hm) hsegment.2
  rw [hsegment.1.abs] at hclose
  rw [deliverOctets_append]
  exact ⟨hclose.1.after_listens hsegment.1, hclose.2⟩

/-- A delimited segment: its opening `FLAG` is a keepalive. -/
theorem deliverOctets_delimited {m : Machine} (hm : m.ctx.Idle) (hrx : m.ctx.rx.Fresh)
    {segment : List UInt8} (hflag : sfpFlag ∉ segment) :
    Hears m (deliverOctets (sfpFlag :: (segment ++ [sfpFlag])) m)
        (m.ctx.abs.receive (segmentVerdict segment).toFrame) (segmentVerdict segment).events ∧
      (deliverOctets (sfpFlag :: (segment ++ [sfpFlag])) m).ctx.rx.Fresh := by
  have hopen : (sfpDeliverOctet sfpFlag none m).1 = sfpResetReceiver m := by
    have hstate : m.ctx.rx.frameState = .new := by simpa using hrx.holds.frameState
    simp [sfpDeliverOctet, hstate]
  have hlisten := listens_sfpResetReceiver m
  have hclosed := deliverOctets_closed (hlisten.idle hm) (fresh_sfpResetReceiver m) hflag
  rw [hlisten.abs] at hclosed
  rw [deliverOctets_cons, hopen]
  exact ⟨hclosed.1.after_listens hlisten, hclosed.2⟩

end Libsfp
