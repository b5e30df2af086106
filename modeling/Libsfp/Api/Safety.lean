import Libsfp.Api.Trace
import Libsfp.Session.Listener

/-!
# Receiver Safety

What a program can rely on when it feeds arbitrary octets to a context, in any order with its own
calls: the state of the receiver between two octets, when the deliver callback is called and with
what, how the labels of the delivered packets count up, and what `sfpDeliverOctet` returns.

`newNotes` computes from the context and the octet which log lines and deliveries a call adds to
the trace; the rest follows from it.
-/

namespace Libsfp

open Lib (run Meets)

section Contexts

variable [SfpConfig]

/-! ## Notes -/

/-- The events other than writes and calls of the lock callbacks. -/
def isNote : Event → Bool
  | .lock => false
  | .unlock => false
  | .write _ => false
  | _ => true

/-- The log lines and deliveries so far, and the failed assertions, if there were any. -/
def Machine.notes (m : Machine) : List (Event × SFPcontext) :=
  m.trace.filter fun e => isNote e.1

/-- Deliveries and failed assertions are noted. -/
theorem notes_emit (e : Event) (m : Machine) :
    (m.emit e).notes = m.notes ++ if isNote e then [(e, m.ctx)] else [] := by
  cases e <;> simp [Machine.notes, Machine.emit, isNote]

/-- Inside a scope of the transmitter nothing is noted. -/
theorem notes_of_inside {m m' : Machine} (h : Inside m m') : m'.notes = m.notes := by
  obtain ⟨writes, hwrites⟩ := h.trace
  -- under the lock there are only writes
  have hnone : (writes.map fun w => ((.write w.1, w.2) : Event × SFPcontext)).filter
      (fun e => isNote e.1) = [] := by
    rw [List.filter_eq_nil_iff]
    intro e he
    obtain ⟨w, -, rfl⟩ := List.mem_map.mp he
    exact Bool.false_ne_true
  rw [Machine.notes, hwrites, List.filter_append, hnone, List.append_nil]
  rfl

/-- Locking is not noted, -/
theorem notes_sfpLockTransmitter (m : Machine) : (sfpLockTransmitter m).notes = m.notes := by
  unfold sfpLockTransmitter
  split
  · rw [notes_emit]
    exact List.append_nil _
  · rfl

/-- nor is unlocking, -/
theorem notes_sfpUnlockTransmitter (m : Machine) : (sfpUnlockTransmitter m).notes = m.notes := by
  unfold sfpUnlockTransmitter
  split
  · rw [notes_emit]
    exact List.append_nil _
  · rfl

/-- What runs under the lock leaves no notes. -/
theorem notes_transmitterLock {m : Machine} (hm : m.ctx.tx.Ready) (body : Machine → Machine)
    (hbody : ∀ m : Machine, m.ctx.tx.Ready → Inside m (body m)) :
    (transmitterLock body m).notes = m.notes := by
  have hlock : (sfpLockTransmitter m).ctx.tx.Ready := by rwa [ctx_sfpLockTransmitter]
  rw [transmitterLock, notes_sfpUnlockTransmitter, notes_of_inside (hbody _ hlock),
    notes_sfpLockTransmitter]

/-- nor a control frame in between. -/
theorem notes_control {m : Machine} (hm : m.ctx.tx.Ready) (type : SFPframetype) (seq : SFPseq) :
    (transmitterLock (sfpTransmitControl type seq) m).notes = m.notes :=
  notes_transmitterLock hm _ fun _ hready => inside_sfpTransmitControl hready type seq

/-! ## The end of a frame -/

/-- The frame in the receiver is a packet that is accepted. -/
def SFPcontext.Accepts (c : SFPcontext) : Prop :=
  c.connectState = .connected ∧
    (getFrameType c.rx.header = .usr ∨ getFrameType c.rx.header = .rtx) ∧
    getFrameSeq c.rx.header = c.rx.seq

instance (c : SFPcontext) : Decidable c.Accepts := inferInstanceAs (Decidable (_ ∧ _ ∧ _))

/-- The delivery of the packet in the receiver, if there is a callback. -/
def deliveryNotes (c : SFPcontext) : List (Event × SFPcontext) :=
  if c.Accepts ∧ c.rx.deliver then [(.deliver c.rx.packet.octets, c)] else []

/-- The notes of a frame that is dispatched. -/
def dispatchNotes (c : SFPcontext) : List (Event × SFPcontext) :=
  (.frameReceived c.rx.header c.rx.packet.octets, c) :: deliveryNotes c

/-- What a frame handler that was called on `m` comes to. -/
structure Judges (m : Machine) (r : Machine × Int) (notes : List (Event × SFPcontext)) : Prop where
  notes : r.1.notes = m.notes ++ notes
  ret : r.2 = if m.ctx.Accepts then 1 else 0
  packet : m.ctx.Accepts → r.1.ctx.rx.packet = m.ctx.rx.packet

/-- A frame that is not accepted is not delivered. -/
theorem judges_refused {m m' : Machine} (hno : ¬ m.ctx.Accepts) (hnotes : m'.notes = m.notes) :
    Judges m (m', 0) (deliveryNotes m.ctx) where
  notes := by rw [deliveryNotes, if_neg fun h => hno h.1, List.append_nil]; exact hnotes
  ret := (if_neg hno).symm
  packet h := absurd h hno

/-- **`sfpHandleUSR`** delivers what it accepts and nothing else. -/
theorem judges_sfpHandleUSR {m : Machine} (hm : m.ctx.tx.Ready)
    (htype : getFrameType m.ctx.rx.header = .usr ∨ getFrameType m.ctx.rx.header = .rtx) :
    Judges m (sfpHandleUSR m) (deliveryNotes m.ctx) := by
  have hrefuse : m.ctx.connectState ≠ .connected → ¬ m.ctx.Accepts := fun h ha => h ha.1
  unfold sfpHandleUSR
  cases hstate : m.ctx.connectState with
  | disconnected =>
    exact judges_refused (hrefuse (by simp [hstate])) (notes_control hm .syn sfpSeqSynDis)
  | sentSyn0 => exact judges_refused (hrefuse (by simp [hstate])) (notes_control hm .syn sfpSeqSyn0)
  | sentSyn1 => exact judges_refused (hrefuse (by simp [hstate])) (notes_control hm .syn sfpSeqSyn1)
  | connected =>
    -- taking the lock and giving it back changes no field
    have hctx : (transmitterLock id m).ctx = m.ctx := by simp [transmitterLock]
    have hready : (transmitterLock id m).ctx.tx.Ready := by rwa [hctx]
    have hnotes : (transmitterLock id m).notes = m.notes :=
      notes_transmitterLock hm id fun _ h => .refl h
    simp only [hctx]
    by_cases hseq : getFrameSeq m.ctx.rx.header ≠ m.ctx.rx.seq
    · -- out of order: at most a `NAK`
      have hno : ¬ m.ctx.Accepts := fun ha => hseq ha.2.2
      rw [if_pos hseq]
      split
      · exact judges_refused hno ((notes_control hready .nak m.ctx.rx.seq).trans hnotes)
      · exact judges_refused hno hnotes
    · have hyes : m.ctx.Accepts := ⟨hstate, htype, not_not.mp hseq⟩
      rw [if_neg hseq]
      by_cases hdeliver : m.ctx.rx.deliver = true
      · simp only [if_pos hdeliver]
        refine ⟨?_, (if_pos hyes).symm, fun _ => congrArg (fun c => c.rx.packet) hctx⟩
        show ((transmitterLock id m).emit (.deliver m.ctx.rx.packet.octets)).notes = _
        have hboth : m.ctx.Accepts ∧ m.ctx.rx.deliver = true := ⟨hyes, hdeliver⟩
        rw [notes_emit, hnotes, hctx, deliveryNotes, if_pos hboth]
        rfl
      · -- accepted without a callback: the packet counts, but nothing is called
        simp only [if_neg hdeliver]
        refine ⟨?_, (if_pos hyes).symm, fun _ => congrArg (fun c => c.rx.packet) hctx⟩
        rw [deliveryNotes, if_neg fun h => hdeliver h.2, List.append_nil]
        exact hnotes

/-- The log line, then the handler of the type. -/
theorem judges_dispatchFrame {m : Machine} (hm : m.ctx.tx.Ready) :
    Judges m (dispatchFrame m) (dispatchNotes m.ctx) := by
  obtain ⟨m', hm'⟩ : ∃ m', m.emit (.frameReceived m.ctx.rx.header m.ctx.rx.packet.octets) = m' :=
    ⟨_, rfl⟩
  have hctx : m'.ctx = m.ctx := hm' ▸ rfl
  have hnotes : m'.notes
      = m.notes ++ [(.frameReceived m.ctx.rx.header m.ctx.rx.packet.octets, m.ctx)] := by
    rw [← hm', notes_emit]
    rfl
  have hready : m'.ctx.tx.Ready := hctx ▸ hm
  have hbehind : ∀ r : Machine × Int, Judges m' r (deliveryNotes m.ctx) →
      Judges m r (dispatchNotes m.ctx) := by
    intro r h
    refine ⟨?_, hctx ▸ h.ret, hctx ▸ h.packet⟩
    rw [h.notes, hnotes, List.append_assoc]
    rfl
  unfold dispatchFrame
  simp only [hm', hctx]
  apply hbehind
  rw [← hctx]
  cases htype : getFrameType m'.ctx.rx.header with
  | usr => exact judges_sfpHandleUSR hready (.inl htype)
  | rtx => exact judges_sfpHandleUSR hready (.inr htype)
  | nak =>
    have hno : ¬ m'.ctx.Accepts := fun ha => absurd ha.2.1 (by simp [htype])
    exact judges_refused hno (notes_transmitterLock hready _ fun _ => inside_sfpHandleNAK)
  | syn =>
    have hno : ¬ m'.ctx.Accepts := fun ha => absurd ha.2.1 (by simp [htype])
    exact judges_refused hno (notes_transmitterLock hready _ fun _ => inside_sfpHandleSYN)

/-! ## One octet -/

/-- The context with the frame in its receiver rewound over the CRC. -/
def SFPcontext.rewound (c : SFPcontext) : SFPcontext := (rewindCrc (.of c)).ctx

/-- The octet ends a frame. -/
def SFPcontext.Closes (c : SFPcontext) (octet : UInt8) : Prop :=
  sfpFlag = octet ∧ c.rx.frameState = .receiving

instance (c : SFPcontext) (octet : UInt8) : Decidable (c.Closes octet) :=
  inferInstanceAs (Decidable (_ ∧ _))

/-- The frame in the receiver passes the checks on its length and its CRC. -/
def SFPcontext.Good (c : SFPcontext) : Prop :=
  sfpCrcSize ≤ c.rx.packet.len ∧ c.rx.crc = sfpCrcGood

instance (c : SFPcontext) : Decidable c.Good := inferInstanceAs (Decidable (_ ∧ _))

/-- The notes that one octet adds. -/
def newNotes (octet : UInt8) (c : SFPcontext) : List (Event × SFPcontext) :=
  if c.Closes octet then
    if c.Good then dispatchNotes c.rewound
    else if c.rx.packet.len < sfpCrcSize then [(.shortFrame, c)]
    else [(.crcMismatch, c.rewound)]
  else []

/-- The octet ends a frame that is accepted. -/
def SFPcontext.Delivers (c : SFPcontext) (octet : UInt8) : Prop :=
  c.Closes octet ∧ c.Good ∧ c.rewound.Accepts

instance (c : SFPcontext) (octet : UInt8) : Decidable (c.Delivers octet) :=
  inferInstanceAs (Decidable (_ ∧ _ ∧ _))

/-- The notes are in the trace. -/
theorem notes_of_trace {m m' : Machine} (h : m'.trace = m.trace) : m'.notes = m.notes := by
  rw [Machine.notes, Machine.notes, h]

/-- The handler of a frame that does not pass the checks, or is dispatched. -/
theorem sfpHandleFrame_notes {m : Machine} (hm : m.ctx.tx.Ready) :
    (sfpHandleFrame m).1.notes = m.notes ++ (if m.ctx.Good then dispatchNotes m.ctx.rewound
        else if m.ctx.rx.packet.len < sfpCrcSize then [(.shortFrame, m.ctx)]
        else [(.crcMismatch, m.ctx.rewound)]) ∧
      (sfpHandleFrame m).2 = (if m.ctx.Good ∧ m.ctx.rewound.Accepts then 1 else 0) ∧
      (m.ctx.Good → m.ctx.rewound.Accepts →
        (sfpHandleFrame m).1.ctx.rx.packet = m.ctx.rewound.rx.packet) := by
  have hready' : (rewindCrc m).ctx.tx.Ready := hm
  have hctx : (rewindCrc m).ctx = m.ctx.rewound := rfl
  have hnotes : (rewindCrc m).notes = m.notes := rfl
  rcases sfpHandleFrame_cases m with ⟨hshort, heq⟩ | ⟨hlen, hcrc, heq⟩ | ⟨hlen, hcrc, heq⟩
  -- too short for a CRC: one log line, then a `NAK`
  · have hbad : ¬ m.ctx.Good := fun h => Nat.not_le_of_lt hshort h.1
    rw [heq, if_neg hbad, if_pos hshort, if_neg fun h => hbad h.1]
    refine ⟨?_, rfl, fun h => absurd h hbad⟩
    have hready : (m.emit .shortFrame).ctx.tx.Ready := hm
    refine (notes_control hready .nak m.ctx.rx.seq).trans ?_
    rw [notes_emit]
    rfl
  -- the residue is wrong: one log line, then a `NAK`
  · have hbad : ¬ m.ctx.Good := fun h => hcrc h.2
    have hready : ((rewindCrc m).emit .crcMismatch).ctx.tx.Ready := hm
    rw [heq, if_neg hbad, if_neg (Nat.not_lt_of_le hlen), if_neg fun h => hbad h.1]
    refine ⟨?_, rfl, fun h => absurd h hbad⟩
    refine (notes_control hready .nak m.ctx.rx.seq).trans ?_
    rw [notes_emit, hnotes]
    rfl
  · have hgood : m.ctx.Good := ⟨hlen, hcrc⟩
    have hdispatch := judges_dispatchFrame hready'
    rw [heq, if_pos hgood]
    refine ⟨?_, ?_, fun _ => hdispatch.packet⟩
    · rw [hdispatch.notes, hnotes, hctx]
    · rw [hdispatch.ret, hctx]
      simp only [hgood, true_and]

/-- **One octet**: the notes it adds, and what it returns to a caller with a buffer. -/
theorem sfpDeliverOctet_notes {m : Machine} (hm : m.ctx.tx.Ready) (octet : UInt8) (len : Nat) :
    (sfpDeliverOctet octet (some len) m).1.notes = m.notes ++ newNotes octet m.ctx ∧
      (sfpDeliverOctet octet (some len) m).2
        = if m.ctx.Delivers octet then
            if len < m.ctx.rewound.rx.packet.len then ⟨-1, none⟩
            else ⟨1, some m.ctx.rewound.rx.packet.octets⟩
          else ⟨0, none⟩ := by
  by_cases hcloses : m.ctx.Closes octet
  · obtain ⟨hnotes, hret, hpacket⟩ := sfpHandleFrame_notes hm
    obtain ⟨hflag, hstate⟩ := hcloses
    have hcall : sfpDeliverOctet octet (some len) m
        = (sfpResetReceiver (sfpHandleFrame m).1,
            if (sfpHandleFrame m).2 ≠ 0 then
              ⟨(sfpCopyOutPacket len (sfpHandleFrame m).1).1,
                (sfpCopyOutPacket len (sfpHandleFrame m).1).2⟩
            else ⟨(sfpHandleFrame m).2, none⟩) := by
      rw [sfpDeliverOctet, if_pos hflag, hstate]
    rw [hcall, newNotes, if_pos (show m.ctx.Closes octet from ⟨hflag, hstate⟩)]
    refine ⟨hnotes, ?_⟩
    simp only [hret]
    -- only an accepted packet is copied out
    by_cases haccept : m.ctx.Good ∧ m.ctx.rewound.Accepts
    · have hdelivers : m.ctx.Delivers octet := ⟨⟨hflag, hstate⟩, haccept⟩
      have hone : (1 : Int) ≠ 0 := by decide
      simp only [if_pos haccept, if_pos hone, if_pos hdelivers]
      rw [sfpCopyOutPacket, hpacket haccept.1 haccept.2]
      split <;> rfl
    · have hnot : ¬ m.ctx.Delivers octet := fun h => haccept h.2
      simp only [if_neg haccept, if_neg hnot, ne_eq, not_true, if_false]
  · have hnot : ¬ m.ctx.Delivers octet := fun h => hcloses h.1
    obtain ⟨htrace, -, -, -, hresult⟩ := sfpDeliverOctet_tacit (some len) hcloses
    rw [newNotes, if_neg hcloses, if_neg hnot, List.append_nil]
    exact ⟨notes_of_trace htrace, hresult⟩

/-! ## Labels in order -/

/-- What counts for the labels: a new session, or the delivery of a packet with its label. -/
inductive Mark where
  | restart
  | delivery (label : Nat)
  deriving DecidableEq, Repr

namespace Mark

/-- The number of deliveries since the last restart. -/
def count (k : Nat) : Mark → Nat
  | .restart => 0
  | .delivery _ => k + 1

/-- A delivery behind `k` others has the label `k` modulo `SFP_SEQ_RANGE`. -/
def InOrder (k : Nat) : Mark → Prop
  | .restart => True
  | .delivery label => label = k % seqRange

end Mark

/-- A `SYN0` that is handled, and a delivery. -/
def markOf : Event × SFPcontext → Option Mark
  | (.frameReceived header _, _) =>
    if getFrameType header = .syn ∧ getFrameSeq header = sfpSeqSyn0 then some .restart else none
  | (.deliver _, c) => some (.delivery (getFrameSeq c.rx.header).toNat)
  | _ => none

/-- The marks `marks` are in order behind `k` deliveries, and leave a receiver that expects what
comes next. -/
structure Counts (k : Nat) (marks : List Mark) (rxSeq : SFPseq) : Prop where
  inOrder : Meets Mark.count Mark.InOrder k marks
  rxSeq : rxSeq.toNat = run Mark.count k marks % seqRange

omit [SfpConfig] in
/-- Counting goes on where it stopped. -/
theorem Counts.append {k : Nat} {marks marks' : List Mark} {rxSeq rxSeq' : SFPseq}
    (h : Counts k marks rxSeq) (h' : Counts (run Mark.count k marks) marks' rxSeq') :
    Counts k (marks ++ marks') rxSeq' where
  inOrder := Lib.meets_append.mpr ⟨h.inOrder, h'.inOrder⟩
  rxSeq := by rw [Lib.run_append]; exact h'.rxSeq

omit [SfpConfig] in
theorem counts_nil {k : Nat} {rxSeq : SFPseq} (h : rxSeq.toNat = k % seqRange) :
    Counts k [] rxSeq := ⟨trivial, h⟩

/-- A frame that is dispatched. -/
theorem counts_dispatchFrame {m : Machine} (hm : m.ctx.Idle) (hdeliver : m.ctx.rx.deliver = true)
    {k : Nat} (hk : m.ctx.rx.seq.toNat = k % seqRange) :
    Counts k ((dispatchNotes m.ctx).filterMap markOf) (dispatchFrame m).1.ctx.rx.seq := by
  have habs := congrArg Endpoint.rxSeq (dispatchFrame_spec hm).abs
  rw [Endpoint.rxSeq_receive] at habs
  have hrx : (dispatchFrame m).1.ctx.rx.seq.toNat
      = (m.ctx.abs.listener.hear (decodeFrame m.ctx.rx.header m.ctx.rx.packet.octets)).rxSeq := habs
  have htake : m.ctx.abs.listener.take (getFrameSeq m.ctx.rx.header).toNat
      = if m.ctx.connectState = .connected ∧ getFrameSeq m.ctx.rx.header = m.ctx.rx.seq then
          (m.ctx.rx.seq.toNat + 1) % seqRange else m.ctx.rx.seq.toNat := by
    simp [Listener.take, Endpoint.listener, SFPcontext.abs, UInt8.toNat_inj]
  -- `USR` and `RTX` are handled by the same function
  have huser : (getFrameType m.ctx.rx.header = .usr ∨ getFrameType m.ctx.rx.header = .rtx) →
      (dispatchFrame m).1.ctx.rx.seq.toNat
        = m.ctx.abs.listener.take (getFrameSeq m.ctx.rx.header).toNat →
      Counts k ((dispatchNotes m.ctx).filterMap markOf) (dispatchFrame m).1.ctx.rx.seq := by
    intro htype hseq
    have hnosyn : getFrameType m.ctx.rx.header ≠ .syn := by rcases htype with h | h <;> simp [h]
    rw [htake] at hseq
    by_cases haccept : m.ctx.Accepts
    · rw [if_pos ⟨haccept.1, haccept.2.2⟩] at hseq
      have hmarks : (dispatchNotes m.ctx).filterMap markOf
          = [.delivery (getFrameSeq m.ctx.rx.header).toNat] := by
        simp [dispatchNotes, deliveryNotes, haccept, hdeliver, markOf, hnosyn]
      rw [hmarks]
      refine ⟨⟨?_, trivial⟩, ?_⟩
      · show (getFrameSeq m.ctx.rx.header).toNat = k % seqRange
        rw [haccept.2.2, hk]
      · rw [hseq, hk, Nat.mod_add_mod]
        rfl
    · have hno : ¬ (m.ctx.connectState = .connected ∧
          getFrameSeq m.ctx.rx.header = m.ctx.rx.seq) :=
        fun h => haccept ⟨h.1, htype, h.2⟩
      have hmarks : (dispatchNotes m.ctx).filterMap markOf = [] := by
        simp [dispatchNotes, deliveryNotes, haccept, markOf, hnosyn]
      rw [if_neg hno, hk] at hseq
      rw [hmarks]
      exact counts_nil hseq
  cases htype : getFrameType m.ctx.rx.header with
  | usr =>
    apply huser (.inl htype)
    rw [hrx, decodeFrame, htype]
    rfl
  | rtx =>
    apply huser (.inr htype)
    rw [hrx, decodeFrame, htype]
    rfl
  -- a `NAK` is no mark and leaves the receiver
  | nak =>
    have hno : ¬ m.ctx.Accepts := fun ha => absurd ha.2.1 (by simp [htype])
    have hmarks : (dispatchNotes m.ctx).filterMap markOf = [] := by
      simp [dispatchNotes, deliveryNotes, hno, markOf, htype]
    rw [hmarks]
    apply counts_nil
    rw [hrx, decodeFrame, htype, ← hk]
    rfl
  | syn =>
    have hno : ¬ m.ctx.Accepts := fun ha => absurd ha.2.1 (by simp [htype])
    rw [decodeFrame, htype] at hrx
    by_cases hsyn0 : getFrameSeq m.ctx.rx.header = sfpSeqSyn0
    · -- a new session
      have hmarks : (dispatchNotes m.ctx).filterMap markOf = [.restart] := by
        simp [dispatchNotes, deliveryNotes, hno, markOf, htype, hsyn0]
      rw [hmarks]
      refine ⟨⟨trivial, trivial⟩, ?_⟩
      rw [hrx, hsyn0]
      rfl
    · have hmarks : (dispatchNotes m.ctx).filterMap markOf = [] := by
        simp [dispatchNotes, deliveryNotes, hno, markOf, htype, hsyn0]
      rw [hmarks]
      apply counts_nil
      -- any other `SYN` leaves the expected label
      have hne : (getFrameSeq m.ctx.rx.header).toNat ≠ 0 := fun h =>
        hsyn0 (UInt8.toNat_inj.mp h)
      rw [hrx, ← hk]
      simp only [Listener.hear]
      split
      next h => cases h
      next h => cases h
      next h => exact absurd (Frame.syn.inj h) hne
      next => rfl

/-- One octet. -/
theorem counts_sfpDeliverOctet {m : Machine} (hm : m.ctx.Idle) (hdeliver : m.ctx.rx.deliver = true)
    {k : Nat} (hk : m.ctx.rx.seq.toNat = k % seqRange) (octet : UInt8) :
    Counts k ((newNotes octet m.ctx).filterMap markOf)
      (sfpDeliverOctet octet none m).1.ctx.rx.seq := by
  by_cases hcloses : m.ctx.Closes octet
  · have hseq : (sfpDeliverOctet octet none m).1.ctx.rx.seq = (sfpHandleFrame m).1.ctx.rx.seq := by
      rw [sfpDeliverOctet, if_pos hcloses.1, hcloses.2]
      rfl
    rw [hseq, newNotes, if_pos hcloses]
    have hidle : (rewindCrc m).ctx.Idle := ⟨hm.write, hm.writebufn, hm.txSeq_lt, hm.rxSeq_lt⟩
    rcases sfpHandleFrame_cases m with ⟨hshort, heq⟩ | ⟨hlen, hcrc, heq⟩ | ⟨hlen, hcrc, heq⟩
    · have hbad : ¬ m.ctx.Good := fun h => Nat.not_le_of_lt hshort h.1
      have habs := congrArg Endpoint.rxSeq (hears_refused hm (e := .shortFrame) rfl).abs
      rw [heq, if_neg hbad, if_pos hshort]
      exact counts_nil (habs.trans hk)
    · have hbad : ¬ m.ctx.Good := fun h => hcrc h.2
      have habs := congrArg Endpoint.rxSeq (hears_refused hidle (e := .crcMismatch) rfl).abs
      rw [heq, if_neg hbad, if_neg (Nat.not_lt_of_le hlen)]
      exact counts_nil (habs.trans hk)
    · have hgood : m.ctx.Good := ⟨hlen, hcrc⟩
      rw [heq, if_pos hgood]
      exact counts_dispatchFrame hidle hdeliver hk
  · -- an octet inside a frame leaves the label and adds no note
    obtain ⟨-, -, -, hseq, -⟩ := sfpDeliverOctet_tacit none hcloses
    rw [newNotes, if_neg hcloses, hseq]
    exact counts_nil hk

/-! ## Runs -/

/-- A context with the marks of what happened so far. -/
structure Marked where
  machine : Machine
  marks : List Mark

/-- A call of `sfpConnect` is a mark; those of the other calls are in the events they add. -/
def Marked.call (s : Marked) (c : Call) : Marked where
  machine := s.machine.call c
  marks := s.marks ++
    match c with
    | .connect => [.restart]
    | _ => ((s.machine.call c).notes.drop s.machine.notes.length).filterMap markOf

/-- The receiver between two octets. That no octet is stored behind the buffer is in the type of
`SFPpacket.push`. -/
structure SFPcontext.SafeReceiver (c : SFPcontext) : Prop where
  len_le : c.rx.packet.len ≤ sfpConfigMaxPacketSize
  new : c.rx.frameState = .new → c.rx.packet.len = 0 ∧ c.rx.crc = sfpCrcPreset
  receiving : c.rx.frameState = .receiving →
    c.rx.crc = crcOf sfpCrcPreset (c.rx.header :: c.rx.packet.octets)

/-- A context between API calls stays within its buffers. -/
theorem SFPcontext.Between.safeReceiver {c : SFPcontext} (h : c.Between) : c.SafeReceiver where
  len_le := c.rx.packet.len_le
  new hstate := by
    have hcontent : c.content = [] := by rw [SFPcontext.content, hstate]
    have hholds := h.holds
    rw [hcontent] at hholds
    exact ⟨hholds.len, hholds.crc⟩
  receiving hstate := by
    have hcontent : c.content = c.rx.header :: c.rx.packet.octets := by
      rw [SFPcontext.content, hstate]
    have hholds := h.holds
    rw [hcontent] at hholds
    exact hholds.crc

/-- A delivery in order: while connected, of the packet of a `USR` or `RTX` frame with a good
CRC. -/
structure ProperDelivery (packet : List UInt8) (c : SFPcontext) : Prop where
  connected : c.connectState = .connected
  type : getFrameType c.rx.header = .usr ∨ getFrameType c.rx.header = .rtx
  crc : c.rx.crc = sfpCrcGood
  packet : packet = c.rx.packet.octets

/-- What is written into the trace is no failed assertion, and no improper delivery. -/
def Proper (e : Event × SFPcontext) : Prop :=
  e.1 ≠ .fault ∧ ∀ packet, e.1 = .deliver packet → ProperDelivery packet e.2

/-- What is not noted is proper. -/
theorem proper_of_not_isNote {e : Event × SFPcontext} (h : isNote e.1 = false) : Proper e := by
  obtain ⟨event, c⟩ := e
  cases event with
  | lock => exact ⟨by simp, by simp⟩
  | unlock => exact ⟨by simp, by simp⟩
  | write octets => exact ⟨by simp, by simp⟩
  | _ => exact absurd h (by simp [isNote])

/-- What an octet adds to the notes is proper. -/
theorem proper_newNotes (octet : UInt8) (c : SFPcontext) : ∀ e ∈ newNotes octet c, Proper e := by
  intro e he
  unfold newNotes at he
  split at he
  · split at he
    next hgood =>
      rcases List.mem_cons.mp he with rfl | he
      · exact ⟨by simp, by simp⟩
      · unfold deliveryNotes at he
        split at he
        -- the delivery is that of an accepted packet, with a good CRC
        next haccept =>
          rw [List.mem_singleton.mp he]
          refine ⟨by simp, ?_⟩
          intro packet hpacket
          exact ⟨haccept.1.1, haccept.1.2.1, hgood.2, (Event.deliver.inj hpacket).symm⟩
        next => simp at he
    next =>
      split at he
      · rw [List.mem_singleton.mp he]
        exact ⟨by simp, by simp⟩
      · rw [List.mem_singleton.mp he]
        exact ⟨by simp, by simp⟩
  · simp at he

/-- The invariant of a run. -/
structure Marked.Sound (s : Marked) : Prop where
  between : s.machine.ctx.Between
  deliver : s.machine.ctx.rx.deliver = true
  proper : ∀ e ∈ s.machine.notes, Proper e
  counts : Counts 0 s.marks s.machine.ctx.rx.seq

/-- The marks are sound at the start. -/
theorem sound_start (lock unlock : Bool) (memory : SFPcontext) :
    Marked.Sound ⟨.of (memory.initWith ⟨true, lock, unlock⟩), []⟩ where
  between := memory.between_initWith _
  deliver := rfl
  proper := by
    intro e he
    simp [Machine.notes, Machine.of] at he
  counts := counts_nil rfl

/-- Writing notes nothing, -/
theorem notes_sfpWritePacket {m : Machine} (hm : m.ctx.tx.Ready)
    (stack : Vector UInt8 sfpConfigMaxPacketSize) (packet : List UInt8)
    (le : packet.length ≤ sfpConfigMaxPacketSize) :
    (m.call (.write stack packet le)).notes = m.notes :=
  notes_transmitterLock hm (fun m => (sfpTransmitUSR (.copyIn stack packet le) m).1)
    fun _ hready => inside_sfpTransmitFrameImpl hready _ false

/-- and neither does connecting. -/
theorem notes_sfpConnect {m : Machine} (hm : m.ctx.tx.Ready) :
    (m.call .connect).notes = m.notes := by
  have hready : ((sfpResetReceiver m).setRxSeq sfpInitialSeq).ctx.tx.Ready := hm
  exact notes_transmitterLock hready (fun m => (sfpTransmitSYN0 (sfpClearHistory
    (m.setTxSeq sfpInitialSeq))).setConnectState .sentSyn0) fun _ hready => inside_newSession hready

/-- **Every call keeps the invariant.** -/
theorem Marked.Sound.call {s : Marked} (h : s.Sound) (c : Call) : (s.call c).Sound := by
  have hidle := h.between.idle
  have hserves := serves_call h.between c
  have hdeliver : (s.machine.call c).ctx.rx.deliver = true := hserves.deliver.trans h.deliver
  have hseq := congrArg Endpoint.rxSeq hserves.abs
  cases c with
  -- the call restarts the count, and so does the label
  | connect =>
    refine ⟨hserves.between, hdeliver, ?_, ?_⟩
    · show ∀ e ∈ (s.machine.call .connect).notes, Proper e
      rw [notes_sfpConnect hidle.ready]
      exact h.proper
    · exact h.counts.append ⟨⟨trivial, trivial⟩, hseq⟩
  -- writing has no part in what is received
  | write stack packet le =>
    have hnotes := notes_sfpWritePacket hidle.ready stack packet le
    refine ⟨hserves.between, hdeliver, ?_, ?_⟩
    · show ∀ e ∈ (s.machine.call (.write stack packet le)).notes, Proper e
      rw [hnotes]
      exact h.proper
    · refine h.counts.append ?_
      rw [hnotes, List.drop_length]
      exact counts_nil (hseq.trans h.counts.rxSeq)
  -- the notes of the octet are the same with a buffer and without one
  | deliver octet buf =>
    have hcall := call_deliver s.machine octet buf
    have hnotes := (sfpDeliverOctet_notes hidle.ready octet 0).1
    rw [fst_sfpDeliverOctet, ← hcall] at hnotes
    refine ⟨hserves.between, hdeliver, ?_, ?_⟩
    · show ∀ e ∈ (s.machine.call (.deliver octet buf)).notes, Proper e
      rw [hnotes]
      intro e he
      rcases List.mem_append.mp he with he | he
      · exact h.proper e he
      · exact proper_newNotes octet s.machine.ctx e he
    · refine h.counts.append ?_
      rw [hnotes, List.drop_left]
      show Counts _ _ (s.machine.call (.deliver octet buf)).ctx.rx.seq
      rw [hcall]
      exact counts_sfpDeliverOctet hidle h.deliver h.counts.rxSeq octet
  | isConnected =>
    refine ⟨hserves.between, hdeliver, h.proper, h.counts.append ?_⟩
    show Counts _ ((s.machine.notes.drop s.machine.notes.length).filterMap markOf) _
    rw [List.drop_length]
    exact counts_nil h.counts.rxSeq

/-- What `sfpDeliverOctet` does for a caller with a buffer of `len` octets: it reports and copies
the packet that it delivers, or nothing. -/
structure Reports (m : Machine) (octet : UInt8) (len : Nat) : Prop where
  ret : (sfpDeliverOctet octet (some len) m).2.ret = 0 ∨
    (sfpDeliverOctet octet (some len) m).2.ret = 1
  one : (sfpDeliverOctet octet (some len) m).2.ret = 1 → ∃ packet,
    (sfpDeliverOctet octet (some len) m).1.delivered = m.delivered ++ [packet] ∧
      (sfpDeliverOctet octet (some len) m).2.copied = some packet
  zero : (sfpDeliverOctet octet (some len) m).2.ret = 0 →
    (sfpDeliverOctet octet (some len) m).1.delivered = m.delivered

/-- The deliveries are among the notes. -/
theorem delivered_eq_notes (m : Machine) :
    m.delivered = m.notes.filterMap fun e => Machine.deliveredEvent e.1 := by
  rw [Machine.delivered, Machine.calls, Machine.notes, List.filterMap_filter, List.filterMap_filter,
    List.filterMap_map]
  apply List.filterMap_congr
  intro e _
  obtain ⟨event, c⟩ := e
  cases event <;> rfl

/-- A delivery is of the packet without its trailer. -/
theorem delivered_newNotes {c : SFPcontext} (hdeliver : c.rx.deliver = true) (octet : UInt8) :
    (newNotes octet c).filterMap (fun e => Machine.deliveredEvent e.1)
      = if c.Delivers octet then [c.rewound.rx.packet.octets] else [] := by
  unfold newNotes SFPcontext.Delivers
  -- a delivery needs all three: the end of a frame, a good one, and acceptance
  by_cases hcloses : c.Closes octet
  · by_cases hgood : c.Good
    · have hrewound : c.rewound.rx.deliver = true := hdeliver
      by_cases haccept : c.rewound.Accepts
      · simp [hcloses, hgood, haccept, dispatchNotes, deliveryNotes, hrewound,
          Machine.deliveredEvent]
      · simp [hcloses, hgood, haccept, dispatchNotes, deliveryNotes, Machine.deliveredEvent]
    · simp only [hcloses, hgood, if_true, if_false, true_and, false_and]
      split <;> rfl
  · simp [hcloses]

/-- What is reported to the caller is what was delivered. -/
theorem reports_of_ready {m : Machine} (hm : m.ctx.tx.Ready) (hdeliver : m.ctx.rx.deliver = true)
    (octet : UInt8) {len : Nat} (hlen : sfpConfigMaxPacketSize ≤ len) : Reports m octet len := by
  obtain ⟨hnotes, hresult⟩ := sfpDeliverOctet_notes hm octet len
  -- the buffer takes the longest packet, so the copy never fails
  have hroom : ¬ len < m.ctx.rewound.rx.packet.len :=
    Nat.not_lt_of_le (Nat.le_trans m.ctx.rewound.rx.packet.len_le hlen)
  have hdelivered : (sfpDeliverOctet octet (some len) m).1.delivered
      = m.delivered ++ if m.ctx.Delivers octet then [m.ctx.rewound.rx.packet.octets] else [] := by
    rw [delivered_eq_notes, hnotes, List.filterMap_append, delivered_newNotes hdeliver,
      ← delivered_eq_notes]
  rw [if_neg hroom] at hresult
  by_cases hdelivers : m.ctx.Delivers octet
  · rw [if_pos hdelivers] at hresult hdelivered
    refine ⟨.inr (by rw [hresult]), fun _ => ?_, fun hzero => ?_⟩
    · exact ⟨_, hdelivered, by rw [hresult]⟩
    · rw [hresult] at hzero
      exact absurd hzero Int.one_ne_zero
  · rw [if_neg hdelivers] at hresult hdelivered
    refine ⟨.inl (by rw [hresult]), fun hone => ?_, fun _ => ?_⟩
    · rw [hresult] at hone
      exact absurd hone (by decide)
    · rw [hdelivered, List.append_nil]

/-- **Receiver safety.** After any calls, with any octets: the receiver holds what it has collected,
no assertion has failed, every delivery was proper and had the label that was due, and the next
octet reports the packet it delivers to a caller whose buffer is large enough. -/
theorem receiver_safety (lock unlock : Bool) (memory : SFPcontext) (cs : List Call) :
    let s := run Marked.call ⟨.of (memory.initWith ⟨true, lock, unlock⟩), []⟩ cs
    s.machine.ctx.SafeReceiver ∧
      (∀ e ∈ s.machine.trace, Proper e) ∧
      Meets Mark.count Mark.InOrder 0 s.marks ∧
      s.machine.ctx.rx.seq.toNat = run Mark.count 0 s.marks % seqRange ∧
      ∀ octet len, sfpConfigMaxPacketSize ≤ len → Reports s.machine octet len := by
  intro s
  have hstep : ∀ (s : Marked) c, s.Sound → (s.call c).Sound := fun _ c h => h.call c
  have hsound : s.Sound := Lib.run_invariant_of_step hstep cs (sound_start lock unlock memory)
  refine ⟨hsound.between.safeReceiver, ?_, hsound.counts.inOrder, hsound.counts.rxSeq, ?_⟩
  · intro e he
    cases hnote : isNote e.1 with
    | false => exact proper_of_not_isNote hnote
    | true => exact hsound.proper e (List.mem_filter.mpr ⟨he, hnote⟩)
  · intro octet len hlen
    exact reports_of_ready hsound.between.idle.ready hsound.deliver octet hlen

end Contexts

section HeaderDefaults

attribute [local instance] headerDefaults

/-- A session, and a packet of one octet up to its closing `FLAG`. -/
def almostOnePacket : List Call :=
  .connect :: (frameOctets (makeHeader .syn sfpSeqSyn1) [] ++
    (frameOctets (makeHeader .usr 0) [1]).dropLast).map (.deliver · none)

/-- One frame, then noise. -/
theorem receiver_safety_one :
    let m := (run Marked.call ⟨.of (SFPcontext.zero.initWith ⟨true, true, true⟩), []⟩
      almostOnePacket).machine
    m.ctx.Delivers sfpFlag ∧ Reports m sfpFlag sfpConfigMaxPacketSize := by
  refine ⟨?_, ?_⟩
  · decide +kernel
  · exact (receiver_safety true true .zero almostOnePacket).2.2.2.2 _ _ (Nat.le_refl _)

end HeaderDefaults

end Libsfp
