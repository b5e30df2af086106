import Libsfp.Octet.Framing

/-!
# What a Receiver Hears

The receiver, fed a whole octet string, is a parser: its verdicts are those on the segments between
`FLAG`s, one after the other. From a just-reset receiver the dispatched frames are exactly the
segments that the frame grammar accepts. A segment longer than the receive buffer is collected
afresh after each overrun, so what the grammar looks at is the rest behind the last one.
-/

namespace Libsfp

namespace Machine

/-- The header and packet of a frame that reached the dispatch. -/
def dispatchedFrame : Event → Option (SFPheader × List UInt8)
  | .frameReceived header octets => some (header, octets)
  | _ => none

/-- The frames that reached the dispatch so far, in order. -/
def dispatched [SfpConfig] (m : Machine) : List (SFPheader × List UInt8) :=
  m.framing.filterMap dispatchedFrame

end Machine

variable [SfpConfig]

/-! ## Octet strings as segments -/

/-- A `FLAG` leaves every idle receiver between frames, whatever it had collected. -/
theorem sfpDeliverOctet_flag_fresh {m : Machine} (hm : m.ctx.Idle) :
    (sfpDeliverOctet sfpFlag none m).1.ctx.Idle ∧
      (sfpDeliverOctet sfpFlag none m).1.ctx.rx.Fresh := by
  unfold sfpDeliverOctet
  rw [if_pos rfl]
  cases m.ctx.rx.frameState with
  | new => exact ⟨(listens_sfpResetReceiver m).idle hm, fresh_sfpResetReceiver m⟩
  | receiving =>
    refine ⟨(listens_sfpResetReceiver _).idle ?_, fresh_sfpResetReceiver _⟩
    have hidle : (rewindCrc m).ctx.Idle :=
      Listens.idle (m := m) ⟨rfl, rfl, rfl, rfl, rfl⟩ hm
    rcases sfpHandleFrame_cases m with ⟨-, heq⟩ | ⟨-, -, heq⟩ | ⟨-, -, heq⟩
    · rw [heq]
      exact (hears_refused hm (e := .shortFrame) rfl).idle
    · rw [heq]
      exact (hears_refused hidle (e := .crcMismatch) rfl).idle
    · rw [heq]
      exact (dispatchFrame_spec hidle).idle

/-- From a receiver between frames, the verdicts are those on the closed segments. -/
theorem framing_deliverOctets {m : Machine} (hm : m.ctx.Idle) (hrx : m.ctx.rx.Fresh)
    (octets : List UInt8) :
    (deliverOctets octets m).framing
      = m.framing ++ (sfpStuffing.segments octets).flatMap fun s => (segmentVerdict s).events := by
  induction octets using sfpStuffing.segments_induction generalizing m with
  | hopen s hs =>
    -- nothing is decided before the closing flag
    have hlisten := (deliverOctets_fresh_segment hs hrx).1
    rw [sfpStuffing.segments_open hs]
    simp [Machine.framing, Machine.calls, hlisten.trace]
  | hclosed s l hs ih =>
    have hclosed := deliverOctets_closed hm hrx hs
    have hrest := ih hclosed.1.idle hclosed.2
    have hsplit : s ++ sfpStuffing.flag :: l = (s ++ [sfpFlag]) ++ l := by simp
    rw [sfpStuffing.segments_closed hs, hsplit, deliverOctets_append, hrest, hclosed.1.framing]
    simp

/-! ## The frame grammar -/

/-- The part of an unescaped segment that is still in the receiver at the closing `FLAG`. -/
def collected (content : List UInt8) : List UInt8 :=
  content.drop ((sfpConfigMaxPacketSize + 2) * (content.length / (sfpConfigMaxPacketSize + 2)))

/-- The frame grammar: header, packet and two CRC octets, with a good CRC over all of it. -/
def parseContent (content : List UInt8) : Option (SFPheader × List UInt8) :=
  if 3 ≤ content.length ∧ crcOf sfpCrcPreset content = sfpCrcGood then
    content.head?.map fun header => (header, content.tail.take (content.length - 3))
  else none

/-- The frame that a segment stands for, if any. -/
def parseSegment (segment : List UInt8) : Option (SFPheader × List UInt8) :=
  parseContent (collected (sfpStuffing.unstuff false segment))

omit [SfpConfig] in
/-- The grammar agrees with the verdict: a frame is dispatched or nothing is. -/
theorem dispatched_verdict (content : List UInt8) :
    (verdict content).events.filterMap Machine.dispatchedFrame
      = (parseContent content).toList := by
  unfold parseContent
  cases content with
  | nil => rfl
  | cons header rest =>
    by_cases hshort : rest.length < sfpCrcSize
    · have hlen : ¬ 3 ≤ (header :: rest).length := by
        simp only [sfpCrcSize] at hshort
        simp only [List.length_cons]
        omega
      rw [verdict_short hshort, if_neg (fun h => hlen h.1)]
      rfl
    · have hlen : 3 ≤ (header :: rest).length := by
        simp only [sfpCrcSize] at hshort
        simp only [List.length_cons]
        omega
      by_cases hcrc : crcOf sfpCrcPreset (header :: rest) = sfpCrcGood
      · rw [verdict_frame hshort hcrc, if_pos ⟨hlen, hcrc⟩]
        simp [Verdict.events, Machine.dispatchedFrame, sfpCrcSize]
      · rw [verdict_mismatch hshort hcrc, if_neg (fun h => hcrc h.2)]
        rfl

/-- What is dispatched of a segment is what the grammar reads in it. -/
theorem dispatched_segmentVerdict (segment : List UInt8) :
    (segmentVerdict segment).events.filterMap Machine.dispatchedFrame
      = (parseSegment segment).toList := by
  rw [segmentVerdict, residual_eq_drop, dispatched_verdict]
  rfl

/-- From a receiver between frames, the dispatched frames are the parsed segments. -/
theorem dispatched_append {m : Machine} (hm : m.ctx.Idle) (hrx : m.ctx.rx.Fresh)
    (octets : List UInt8) :
    (deliverOctets octets m).dispatched
      = m.dispatched ++ (sfpStuffing.segments octets).filterMap parseSegment := by
  rw [Machine.dispatched, framing_deliverOctets hm hrx octets, List.filterMap_append,
    List.filterMap_flatMap, List.filterMap_eq_flatMap_toList parseSegment]
  simp only [dispatched_segmentVerdict]
  rfl

/-- **The frame grammar**: a just-reset receiver dispatches, once each and in order, exactly the
segments whose collected part is header, packet and good CRC. -/
theorem dispatched_deliverOctets {c : SFPcontext} (hc : c.Idle) (octets : List UInt8) :
    (deliverOctets octets (sfpResetReceiver (.of c))).dispatched
      = (sfpStuffing.segments octets).filterMap parseSegment := by
  have hidle : (sfpResetReceiver (Machine.of c)).ctx.Idle :=
    (listens_sfpResetReceiver (.of c)).idle hc
  exact dispatched_append hidle (fresh_sfpResetReceiver _) octets

/-- A good frame in which every `ESC` is doubled, and two more stand in front of the `FLAG`. -/
def escapedSegment : List UInt8 :=
  (frameSegment (makeHeader .usr 5) [0x41, sfpFlag]).flatMap (fun octet =>
    if octet = sfpEsc then [sfpEsc, sfpEsc] else [octet]) ++ [sfpEsc, sfpEsc]

/-- One octet more than the receiver holds, then the octets of a `DIS` frame, in one segment. -/
def overlongSegment : List UInt8 :=
  List.replicate 258 0 ++ frameSegment (makeHeader .syn sfpSeqSynDis) []

/-- Both of them, with a few octets in between that are no frame. -/
def mixedOctets : List UInt8 :=
  escapedSegment ++ sfpFlag :: ([sfpEsc, 1, sfpEsc, 2] ++ sfpFlag :: (overlongSegment ++ [sfpFlag]))

omit [SfpConfig] in
/-- The three segments of the string. -/
theorem segments_mixedOctets : sfpStuffing.segments mixedOctets
    = [escapedSegment, [sfpEsc, 1, sfpEsc, 2], overlongSegment] := by
  have hescaped : sfpStuffing.flag ∉ escapedSegment := by decide +kernel
  have hshort : sfpStuffing.flag ∉ [sfpEsc, 1, sfpEsc, 2] := by decide +kernel
  have hoverlong : sfpStuffing.flag ∉ overlongSegment := by decide +kernel
  rw [mixedOctets, ← sfpStuffing_flag, sfpStuffing.segments_closed hescaped,
    sfpStuffing.segments_closed hshort]
  have hlast := sfpStuffing.segments_closed hoverlong []
  rw [hlast]
  rfl

omit [SfpConfig] in
/-- Doubled and trailing escapes do no harm, and the frame behind the overrun is dispatched. -/
theorem dispatched_deliverOctets_mixed :
    letI := headerDefaults
    (deliverOctets mixedOctets (sfpResetReceiver (.of SFPcontext.zero.setUp))).dispatched
      = [(makeHeader .usr 5, [0x41, sfpFlag]), (makeHeader .syn sfpSeqSynDis, [])] := by
  let _ : SfpConfig := headerDefaults
  have hdispatched := dispatched_deliverOctets (SFPcontext.idle_setUp .zero) mixedOctets
  -- the first segment is parsed whole, of the last one only what follows the overrun
  have hparse : [escapedSegment, [sfpEsc, 1, sfpEsc, 2], overlongSegment].filterMap parseSegment
      = [(makeHeader .usr 5, [0x41, sfpFlag]), (makeHeader .syn sfpSeqSynDis, [])] := by
    decide +kernel
  rw [hdispatched, segments_mixedOctets, hparse]

/-- The grammar applied to the whole content of a segment, which has to fit the receiver. -/
def parseWholeSegment (segment : List UInt8) : Option (SFPheader × List UInt8) :=
  let content := sfpStuffing.unstuff false segment
  if content.length ≤ sfpConfigMaxPacketSize + 1 then parseContent content else none

/-- Segments that fit are parsed whole. -/
theorem parseSegment_of_length_le {segment : List UInt8}
    (h : (sfpStuffing.unstuff false segment).length ≤ sfpConfigMaxPacketSize + 1) :
    parseSegment segment = parseWholeSegment segment := by
  simp only [parseWholeSegment, parseSegment, collected]
  rw [if_pos h, Nat.div_eq_of_lt (by omega), Nat.mul_zero, List.drop_zero]

omit [SfpConfig] in
/-- The tail of an over-long segment is dispatched as a frame of its own. -/
theorem overlong_segment_dispatched :
    letI := headerDefaults
    (deliverOctets (overlongSegment ++ [sfpFlag])
        (sfpResetReceiver (.of SFPcontext.zero.setUp))).dispatched
      ≠ (sfpStuffing.segments (overlongSegment ++ [sfpFlag])).filterMap parseWholeSegment := by
  let _ : SfpConfig := headerDefaults
  have hflag : sfpStuffing.flag ∉ overlongSegment := by decide +kernel
  have hidle : (sfpResetReceiver (Machine.of SFPcontext.zero.setUp)).ctx.Idle :=
    (listens_sfpResetReceiver _).idle (SFPcontext.idle_setUp _)
  have hsegments : sfpStuffing.segments (overlongSegment ++ [sfpFlag]) = [overlongSegment] := by
    have hclosed := sfpStuffing.segments_closed hflag []
    simpa using hclosed
  have hparse : parseSegment overlongSegment = some (makeHeader .syn sfpSeqSynDis, []) := by
    decide +kernel
  have hwhole : parseWholeSegment overlongSegment = none := by decide +kernel
  rw [dispatched_append hidle (fresh_sfpResetReceiver _), hsegments]
  simp [hparse, hwhole]

end Libsfp
