import Mathlib.Data.List.Induction
import Mathlib.Data.Nat.Basic
import Libsfp.Session.Handlers

/-!
# The Frame Grammar of the Receiver

The receiver takes one octet at a time and keeps an escape state, a frame state, a rolling CRC and
a bounded buffer. This module reads that state back as the content it stands for: `Holds rx c`
says that the receiver has collected exactly the unescaped octets `c` of the current segment. A
further octet appends to `c`, or, if the buffer is full, throws `c` away together with that octet
and starts collecting afresh in the middle of the segment. At a `FLAG` the content decides: nothing
collected, a short frame, a CRC mismatch, or a frame to dispatch.
-/

namespace Libsfp

open Lib (Stuffing)

/-! ## Verdicts -/

/-- What `sfpHandleFrame` decides about a collected content. -/
inductive Verdict where
  | silent
  | short
  | mismatch
  | frame (header : SFPheader) (payload : List UInt8)
  deriving DecidableEq, Repr

def verdict : List UInt8 → Verdict
  | [] => .silent
  | header :: rest =>
    if rest.length < sfpCrcSize then .short
    else if crcOf sfpCrcPreset (header :: rest) ≠ sfpCrcGood then .mismatch
    else .frame header (rest.take (rest.length - sfpCrcSize))

/-- A content without room for a trailer. -/
theorem verdict_short {header : UInt8} {rest : List UInt8} (h : rest.length < sfpCrcSize) :
    verdict (header :: rest) = .short :=
  if_pos h

/-- A content with a bad trailer. -/
theorem verdict_mismatch {header : UInt8} {rest : List UInt8} (h : ¬ rest.length < sfpCrcSize)
    (hcrc : crcOf sfpCrcPreset (header :: rest) ≠ sfpCrcGood) :
    verdict (header :: rest) = .mismatch := by
  simp only [verdict, if_neg h, if_pos hcrc]

/-- A content with a good trailer is a frame. -/
theorem verdict_frame {header : UInt8} {rest : List UInt8} (h : ¬ rest.length < sfpCrcSize)
    (hcrc : crcOf sfpCrcPreset (header :: rest) = sfpCrcGood) :
    verdict (header :: rest) = .frame header (rest.take (rest.length - sfpCrcSize)) := by
  simp only [verdict, if_neg h, hcrc, ne_eq, not_true, if_false]

/-- The trace of a verdict. -/
def Verdict.events : Verdict → List Event
  | .silent => []
  | .short => [.shortFrame]
  | .mismatch => [.crcMismatch]
  | .frame header payload => [.frameReceived header payload]

/-- A dispatched frame, by its header. -/
def decodeFrame (header : SFPheader) (payload : List UInt8) : Frame (List UInt8) :=
  match getFrameType header with
  | .usr => .usr (getFrameSeq header).toNat payload
  | .rtx => .rtx (getFrameSeq header).toNat payload
  | .nak => .nak (getFrameSeq header).toNat
  | .syn => .syn (getFrameSeq header).toNat

def Verdict.toFrame : Verdict → Frame (List UInt8)
  | .silent => .silent
  | .short => .bad
  | .mismatch => .bad
  | .frame header payload => decodeFrame header payload

variable [SfpConfig]

/-! ## Contents -/

/-- One more unescaped octet: header and buffer together hold `SFP_CONFIG_MAX_PACKET_SIZE + 1`. -/
def pushContent (content : List UInt8) (octet : UInt8) : List UInt8 :=
  if content.length ≤ sfpConfigMaxPacketSize then content ++ [octet] else []

/-- What is left in the receiver of an unescaped segment at its closing `FLAG`. -/
def residual (content : List UInt8) : List UInt8 :=
  content.foldl pushContent []

/-- The verdict on a segment received from the start. -/
def segmentVerdict (segment : List UInt8) : Verdict :=
  verdict (residual (sfpStuffing.unstuff false segment))

/-- The receiver works octet by octet. -/
theorem residual_append_singleton (content : List UInt8) (octet : UInt8) :
    residual (content ++ [octet]) = pushContent (residual content) octet := by
  simp [residual]

/-- **Overrun**: every block of `SFP_CONFIG_MAX_PACKET_SIZE + 2` octets is thrown away, the rest of
the segment is collected as if the segment had started there. -/
theorem residual_eq_drop (content : List UInt8) :
    residual content = content.drop
      ((sfpConfigMaxPacketSize + 2) * (content.length / (sfpConfigMaxPacketSize + 2))) := by
  induction content using List.reverseRecOn with
  | nil => simp [residual]
  | append_singleton content octet ih =>
    have hpos : 0 < sfpConfigMaxPacketSize + 2 := by omega
    -- what is collected of an incomplete block is the rest of the division
    have hdiv := Nat.div_add_mod content.length (sfpConfigMaxPacketSize + 2)
    have hmod := Nat.mod_lt content.length hpos
    have hlen : (residual content).length = content.length % (sfpConfigMaxPacketSize + 2) := by
      rw [ih, List.length_drop]
      omega
    rw [residual_append_singleton, pushContent, List.length_append, List.length_singleton]
    by_cases hroom : (residual content).length ≤ sfpConfigMaxPacketSize
    · -- the block is not complete yet
      have hsame : (content.length + 1) / (sfpConfigMaxPacketSize + 2)
          = content.length / (sfpConfigMaxPacketSize + 2) := by
        rw [Nat.succ_div_of_not_dvd]
        intro hdvd
        have hzero := Nat.mod_eq_zero_of_dvd hdvd
        rw [Nat.add_mod, Nat.mod_eq_of_lt (a := 1) (by omega)] at hzero
        rw [Nat.mod_eq_of_lt (by omega)] at hzero
        omega
      rw [if_pos hroom, hsame, List.drop_append_of_le_length (by omega), ih]
    · -- the octet that finds the buffer full completes the block
      have hfull : content.length % (sfpConfigMaxPacketSize + 2) = sfpConfigMaxPacketSize + 1 := by
        omega
      have hnext : (content.length + 1) / (sfpConfigMaxPacketSize + 2)
          = content.length / (sfpConfigMaxPacketSize + 2) + 1 := by
        apply Nat.succ_div_of_dvd
        exact Nat.dvd_of_mod_eq_zero (by
          rw [Nat.add_mod, hfull, Nat.mod_eq_of_lt (a := 1) (by omega), Nat.mod_self])
      rw [if_neg hroom, hnext]
      symm
      apply List.drop_eq_nil_of_le
      simp only [List.length_append, List.length_singleton, Nat.mul_add, Nat.mul_one]
      omega

/-- A segment that fits is collected whole. -/
theorem residual_of_length_le {content : List UInt8}
    (h : content.length ≤ sfpConfigMaxPacketSize + 1) : residual content = content := by
  rw [residual_eq_drop, Nat.div_eq_of_lt (by omega), Nat.mul_zero, List.drop_zero]

/-! ## The receiver state as a content -/

/-- The receiver has collected exactly `content` of the current segment. -/
structure SFPreceiver.Holds (rx : SFPreceiver) (content : List UInt8) : Prop where
  frameState : rx.frameState = if content = [] then .new else .receiving
  crc : rx.crc = crcOf sfpCrcPreset content
  header : ∀ h, content.head? = some h → rx.header = h
  packet : rx.packet.octets = content.tail

/-- Between frames: nothing collected, no escape pending. -/
structure SFPreceiver.Fresh (rx : SFPreceiver) : Prop where
  holds : rx.Holds []
  escapeState : rx.escapeState = .normal

/-- Only the receiver's collecting state differs between `m` and `m'`. -/
structure Listens (m m' : Machine) : Prop where
  trace : m'.trace = m.trace
  tx : m'.ctx.tx = m.ctx.tx
  connectState : m'.ctx.connectState = m.ctx.connectState
  rxSeq : m'.ctx.rx.seq = m.ctx.rx.seq
  deliver : m'.ctx.rx.deliver = m.ctx.rx.deliver

theorem Listens.refl (m : Machine) : Listens m m := ⟨rfl, rfl, rfl, rfl, rfl⟩

/-- Listening goes on. -/
theorem Listens.trans {m m' m'' : Machine} (h : Listens m m') (h' : Listens m' m'') :
    Listens m m'' where
  trace := h'.trace.trans h.trace
  tx := h'.tx.trans h.tx
  connectState := h'.connectState.trans h.connectState
  rxSeq := h'.rxSeq.trans h.rxSeq
  deliver := h'.deliver.trans h.deliver

/-- The protocol state does not see what is collected. -/
theorem Listens.abs {m m' : Machine} (h : Listens m m') : m'.ctx.abs = m.ctx.abs := by
  simp [SFPcontext.abs, h.tx, h.connectState, h.rxSeq]

/-- A context that listens stays between API calls. -/
theorem Listens.idle {m m' : Machine} (h : Listens m m') (hm : m.ctx.Idle) : m'.ctx.Idle where
  write := by rw [h.tx]; exact hm.write
  writebufn := by rw [h.tx]; exact hm.writebufn
  txSeq_lt := by rw [h.tx]; exact hm.txSeq_lt
  rxSeq_lt := by rw [h.rxSeq]; exact hm.rxSeq_lt

/-- A reset of the receiver is nothing but listening, -/
theorem listens_sfpResetReceiver (m : Machine) : Listens m (sfpResetReceiver m) :=
  ⟨rfl, rfl, rfl, rfl, rfl⟩

/-- and leaves it between frames. -/
theorem fresh_sfpResetReceiver (m : Machine) : (sfpResetReceiver m).ctx.rx.Fresh where
  holds := ⟨by simp [sfpResetReceiver], rfl, by simp, by simp [sfpResetReceiver, SFPpacket.octets]⟩
  escapeState := rfl

/-- `sfpInit` resets the receiver. -/
theorem SFPcontext.fresh_setUp (memory : SFPcontext) : memory.setUp.rx.Fresh := by
  have hreset := (fresh_sfpResetReceiver (.of memory)).holds
  exact ⟨⟨hreset.frameState, hreset.crc, hreset.header, hreset.packet⟩, rfl⟩

/-- So a context in a session starts between frames. -/
theorem SFPcontext.fresh_inSession (memory : SFPcontext) : memory.inSession.rx.Fresh :=
  memory.fresh_setUp

/-- The header is not stored in the packet. -/
theorem SFPreceiver.Holds.len {rx : SFPreceiver} {content : List UInt8} (h : rx.Holds content) :
    rx.packet.len = content.length - 1 := by
  rw [← SFPpacket.length_octets, h.packet, List.length_tail]

/-! ## Octets of a segment -/

/-- The pending escape of a receiver. -/
def SFPreceiver.isEscaping (rx : SFPreceiver) : Bool :=
  rx.escapeState == .escaping

/-- `unescapeOctet` flips an octet behind an escape, and no other. -/
theorem unescapeOctet_eq (rx : SFPreceiver) (octet : UInt8) :
    unescapeOctet rx.escapeState octet
      = if rx.isEscaping then octet ^^^ sfpEscFlipBit else octet := by
  rw [SFPreceiver.isEscaping]
  cases rx.escapeState <;> rfl

/-- A content octet, stored or dropped on overrun. -/
theorem sfpBufferOctet_spec {m : Machine} {content : List UInt8} (octet : UInt8)
    (hne : content ≠ []) (hstate : m.ctx.rx.frameState = .receiving)
    (hcrc : m.ctx.rx.crc = crcOf sfpCrcPreset (content ++ [octet]))
    (hheader : ∀ h, content.head? = some h → m.ctx.rx.header = h)
    (hpacket : m.ctx.rx.packet.octets = content.tail)
    (hescape : m.ctx.rx.escapeState = .normal) :
    Listens m (sfpBufferOctet octet m) ∧
      (sfpBufferOctet octet m).ctx.rx.Holds (pushContent content octet) ∧
      (sfpBufferOctet octet m).ctx.rx.escapeState = .normal := by
  have hlen : m.ctx.rx.packet.len = content.length - 1 := by
    rw [← SFPpacket.length_octets, hpacket, List.length_tail]
  have hpos : 0 < content.length := List.length_pos_of_ne_nil hne
  unfold sfpBufferOctet pushContent
  -- stored while there is room; otherwise everything collected so far is dropped
  by_cases hroom : m.ctx.rx.packet.len < sfpConfigMaxPacketSize
  · rw [dif_pos hroom, if_pos (by omega)]
    refine ⟨⟨rfl, rfl, rfl, rfl, rfl⟩, ⟨?_, hcrc, ?_, ?_⟩, hescape⟩
    · simpa using hstate
    · intro h hh
      apply hheader h
      rwa [List.head?_append_of_ne_nil _ hne] at hh
    · simp [hpacket, List.tail_append_of_ne_nil hne]
  · rw [dif_neg hroom, if_neg (by omega)]
    exact ⟨listens_sfpResetReceiver m, (fresh_sfpResetReceiver m).holds, rfl⟩

/-- One octet other than `FLAG`: the escape is remembered, or the content grows by one octet. -/
theorem sfpDeliverOctet_spec {m : Machine} {content : List UInt8} (h : m.ctx.rx.Holds content)
    {octet : UInt8} (hflag : octet ≠ sfpFlag) (segment : List UInt8) :
    ∃ content', Listens m (sfpDeliverOctet octet none m).1 ∧
      (sfpDeliverOctet octet none m).1.ctx.rx.Holds content' ∧
      (sfpStuffing.unstuff m.ctx.rx.isEscaping (octet :: segment)).foldl pushContent content
        = (sfpStuffing.unstuff (sfpDeliverOctet octet none m).1.ctx.rx.isEscaping segment).foldl
            pushContent content' := by
  unfold sfpDeliverOctet
  rw [if_neg hflag.symm]
  -- an `ESC` is only remembered, also a second one
  by_cases hesc : octet = sfpEsc
  · subst hesc
    refine ⟨content, ?_⟩
    simp only [if_true]
    refine ⟨⟨rfl, rfl, rfl, rfl, rfl⟩, ⟨h.frameState, h.crc, h.header, h.packet⟩, ?_⟩
    have hunstuff := sfpStuffing.unstuff_esc m.ctx.rx.isEscaping segment
    rw [sfpStuffing_esc] at hunstuff
    rw [hunstuff]
    rfl
  · rw [if_neg (fun heq => hesc heq.symm)]
    have hunstuff := sfpStuffing.unstuff_cons (a := octet) hesc m.ctx.rx.isEscaping segment
    rw [sfpStuffing_flip, ← unescapeOctet_eq] at hunstuff
    -- the octet after removal of a pending escape
    generalize unescapeOctet m.ctx.rx.escapeState octet = o at hunstuff
    have hcrc : crcCcittUpdate m.ctx.rx.crc o = crcOf sfpCrcPreset (content ++ [o]) := by
      rw [crcOf_append, ← h.crc]
      rfl
    simp only [hunstuff, List.foldl_cons]
    by_cases hnew : content = []
    · -- the header
      subst hnew
      have hstate : m.ctx.rx.frameState = .new := by simpa using h.frameState
      refine ⟨pushContent [] o, ?_⟩
      simp only [hstate]
      refine ⟨⟨rfl, rfl, rfl, rfl, rfl⟩, ⟨?_, ?_, ?_, ?_⟩, ?_⟩
      · simp [pushContent]
      · simpa [pushContent] using hcrc
      · simp [pushContent]
      · simpa [pushContent] using h.packet
      · rfl
    · -- the payload or the trailer
      have hstate : m.ctx.rx.frameState = .receiving := by simpa [hnew] using h.frameState
      have hbuffer := sfpBufferOctet_spec o
        (m := { m with
          ctx.rx.escapeState := .normal
          ctx.rx.crc := crcCcittUpdate m.ctx.rx.crc o }) hnew hstate hcrc h.header h.packet rfl
      refine ⟨pushContent content o, ?_⟩
      simp only [hstate] at hbuffer ⊢
      refine ⟨?_, hbuffer.2.1, ?_⟩
      · refine Listens.trans ?_ hbuffer.1
        exact ⟨rfl, rfl, rfl, rfl, rfl⟩
      · rw [SFPreceiver.isEscaping, hbuffer.2.2]
        rfl

@[simp] theorem deliverOctets_nil (m : Machine) : deliverOctets [] m = m := rfl

@[simp] theorem deliverOctets_cons (octet : UInt8) (octets : List UInt8) (m : Machine) :
    deliverOctets (octet :: octets) m = deliverOctets octets (sfpDeliverOctet octet none m).1 := rfl

/-- Octets can be delivered in two parts. -/
@[simp] theorem deliverOctets_append (l k : List UInt8) (m : Machine) :
    deliverOctets (l ++ k) m = deliverOctets k (deliverOctets l m) := by
  simp [deliverOctets]

/-- A segment without `FLAG`, fed octet by octet, is unescaped and collected; nothing else
happens. -/
theorem deliverOctets_segment {segment : List UInt8} (hflag : sfpFlag ∉ segment) {m : Machine}
    {content : List UInt8} (h : m.ctx.rx.Holds content) :
    Listens m (deliverOctets segment m) ∧
      (deliverOctets segment m).ctx.rx.Holds
        ((sfpStuffing.unstuff m.ctx.rx.isEscaping segment).foldl pushContent content) := by
  induction segment generalizing m content with
  | nil => exact ⟨Listens.refl m, h⟩
  | cons octet segment ih =>
    have hoctet : octet ≠ sfpFlag := fun heq => hflag (by simp [heq])
    obtain ⟨content', hlisten, hholds, hunstuff⟩ := sfpDeliverOctet_spec h hoctet segment
    have hrest := ih (fun hmem => hflag (by simp [hmem])) hholds
    rw [deliverOctets_cons, hunstuff]
    exact ⟨hlisten.trans hrest.1, hrest.2⟩

/-- From between frames, what is collected is the rest behind the last overrun. -/
theorem deliverOctets_fresh_segment {segment : List UInt8} (hflag : sfpFlag ∉ segment)
    {m : Machine} (h : m.ctx.rx.Fresh) :
    Listens m (deliverOctets segment m) ∧
      (deliverOctets segment m).ctx.rx.Holds (residual (sfpStuffing.unstuff false segment)) := by
  have hnormal : m.ctx.rx.isEscaping = false := by
    rw [SFPreceiver.isEscaping, h.escapeState]
    rfl
  have hspec := deliverOctets_segment hflag h.holds
  rw [hnormal] at hspec
  exact hspec

end Libsfp
