import Libsfp.Asio.StreamReads

/-!
# What the Stream Writes

Replies to what is read, packets and the frames of the handshake all go through one write buffer,
and every `async_write` is followed by a `consume` of whatever the buffer then holds. Each octet
reaches the next layer exactly once as long as nothing is appended while a write is in progress,
and nothing stays behind when one ends:

1. the phaser keeps the writes apart, so both hold in every run without errors, unless
2. the settle timer expires in the middle of a write: the handshake succeeds all the same, and the
   next operation that writes transfers the whole buffer again.
-/

namespace Libsfp.Asio

open Lib (run Meets)

section Contexts

variable [SfpConfig]

namespace Stream

/-! ## The invariant -/

/-- The octets passed to `on_sfp_write` are those transferred and those in the write buffer. All of
these are being written, or there are none. -/
structure WiredIn (m : Machine) (transferred writeBuffer readerData : List UInt8)
    (reading : Reading) (writing : Option (List UInt8)) : Prop where
  between : m.ctx.Between
  wire : m.wire = transferred ++ writeBuffer
  reader : reading.writes = true → readerData = writeBuffer ∧ writing = none
  writer : ∀ octets, writing = some octets → octets = writeBuffer ∧ reading.shaken = true
  quiet : reading.writes = false → writing = none → writeBuffer = []

def WiredAt (reading : Reading) (s : Stream) : Prop :=
  WiredIn s.sfpContext s.transferred s.writeBuffer s.readerData reading s.writing

/-- **The invariant of the write buffer**, as long as no operation has failed. -/
def Wired (s : Stream) : Prop := s.reading ≠ .failed → s.WiredAt s.reading

/-- No write is in progress. -/
structure CalmIn (m : Machine) (transferred writeBuffer : List UInt8)
    (writing : Option (List UInt8)) : Prop where
  between : m.ctx.Between
  wire : m.wire = transferred
  empty : writeBuffer = []
  idle : writing = none

def Calm (s : Stream) : Prop := CalmIn s.sfpContext s.transferred s.writeBuffer s.writing

variable {s : Stream}

/-- Between two writes the reading operation may be anywhere. -/
theorem Calm.wired (h : s.Calm) {reading : Reading} (hreading : reading.writes = false) :
    s.WiredAt reading where
  between := h.between
  wire := by rw [h.wire, h.empty, List.append_nil]
  reader hwrites := by
    rw [hreading] at hwrites
    cases hwrites
  writer octets hwriting := by
    rw [h.idle] at hwriting
    cases hwriting
  quiet _ _ := h.empty

/-- What the reading operation writes has been transferred. -/
theorem WiredAt.endWrite {reading : Reading} (h : s.WiredAt reading)
    (hwrites : reading.writes = true) : s.endWrite.Calm where
  between := h.between
  wire := by
    show s.sfpContext.wire = s.transferred ++ s.readerData
    rw [h.wire, (h.reader hwrites).1]
  empty := rfl
  idle := (h.reader hwrites).2

/-! ## The context writes -/

theorem wire_deliverOctets {m : Machine} (hm : m.ctx.Between) (octets : List UInt8) :
    m.wire <+: (deliverOctets octets m).wire := by
  induction octets generalizing m with
  | nil => exact List.prefix_rfl
  | cons octet octets ih =>
    have hfirst := (serves_call hm (.deliver octet none)).wire
    rw [call_deliver] at hfirst
    have hprefix : m.wire <+: (sfpDeliverOctet octet none m).1.wire := by
      rw [hfirst]
      exact List.prefix_append _ _
    exact hprefix.trans (ih (between_sfpDeliverOctet hm octet))

/-- `on_sfp_write` appends what is written to the buffer. -/
theorem wire_withContext {m : Machine} (h : s.sfpContext.wire = s.transferred ++ s.writeBuffer)
    (hm : s.sfpContext.wire <+: m.wire) :
    (s.withContext m).sfpContext.wire
      = (s.withContext m).transferred ++ (s.withContext m).writeBuffer := by
  obtain ⟨written, hwritten⟩ := hm
  show m.wire = s.transferred ++ (s.writeBuffer ++ m.wire.drop s.sfpContext.wire.length)
  rw [← hwritten, List.drop_left, h, List.append_assoc]

/-- While octets are delivered nothing is being written. -/
structure Replies (s : Stream) : Prop where
  between : s.sfpContext.ctx.Between
  wire : s.sfpContext.wire = s.transferred ++ s.writeBuffer
  idle : s.writing = none

theorem Calm.deliverInputSequence (h : s.Calm) : s.deliverInputSequence.Replies := by
  obtain ⟨fed, -, hmachine, -⟩ := (deliverLoop_spec s.readBuffer h.between).split
  refine ⟨?_, ?_, h.idle⟩
  · show (deliverLoop s.readBuffer [] s.sfpContext).machine.ctx.Between
    rw [hmachine]
    exact between_deliverOctets h.between fed
  · have hprefix : s.sfpContext.wire
        <+: (deliverLoop s.readBuffer [] s.sfpContext).machine.wire := by
      rw [hmachine]
      exact wire_deliverOctets h.between fed
    apply wire_withContext (s := s) _ hprefix
    rw [h.wire, h.empty, List.append_nil]

/-- All replies are written at once. -/
theorem Replies.beginWrite (h : s.Replies) {reading : Reading} (hwrites : reading.writes = true) :
    (s.beginWrite reading).Wired := by
  intro _
  refine ⟨h.between, h.wire, fun _ => ⟨rfl, h.idle⟩, ?_, ?_⟩
  · -- no packet is being written, the phaser saw to that
    intro octets hwriting
    have hidle : (s.beginWrite reading).writing = none := h.idle
    rw [hidle] at hwriting
    cases hwriting
  · intro hnot
    have hreading : (s.beginWrite reading).reading.writes = true := hwrites
    rw [hreading] at hnot
    cases hnot

/-! ## The loops -/

theorem Calm.settleDone (h : s.Calm) (timedOut : Bool) : (s.settleDone timedOut).Wired := by
  unfold Stream.settleDone
  split
  · exact fun hfine => absurd rfl hfine
  · exact fun _ => h.wired rfl

theorem Calm.settleLoop (h : s.Calm) : s.settleLoop.Wired := by
  unfold Stream.settleLoop
  split
  · exact fun _ => h.wired rfl
  · exact h.settleDone false

theorem Calm.connectLoop (h : s.Calm) : s.connectLoop.Wired := by
  unfold Stream.connectLoop Stream.afterConnected
  split
  · split
    · exact Calm.settleLoop (s := { s with fault := s.fault || !s.readBuffer.isEmpty }) h
    · exact fun _ => h.wired rfl
  · exact fun _ => h.wired rfl

theorem Calm.readLoop (h : s.Calm) : s.readLoop.Wired := by
  unfold Stream.readLoop
  split
  · exact fun _ => h.wired rfl
  · exact fun _ => h.wired rfl

/-- A read phase that is not dispatched leaves the writes alone. -/
theorem WiredAt.move {reading reading' : Reading} (h : s.WiredAt reading)
    (hquiet : reading.writes = false) (hquiet' : reading'.writes = false)
    (hshaken : reading.shaken = true → reading'.shaken = true) : s.WiredAt reading' where
  between := h.between
  wire := h.wire
  reader hwrites := by
    rw [hquiet'] at hwrites
    cases hwrites
  writer octets hwriting := ⟨(h.writer octets hwriting).1, hshaken (h.writer octets hwriting).2⟩
  quiet _ := h.quiet hquiet

/-- Before the handshake is complete no packet is written. -/
theorem WiredAt.calm {reading : Reading} (h : s.WiredAt reading) (hquiet : reading.writes = false)
    (hidle : s.writing = none) : s.Calm where
  between := h.between
  wire := by rw [h.wire, h.quiet hquiet hidle, List.append_nil]
  empty := h.quiet hquiet hidle
  idle := hidle

theorem WiredAt.idle_of_handshake {reading : Reading} (h : s.WiredAt reading)
    (hshaken : reading.shaken = false) : s.writing = none := by
  cases hwriting : s.writing with
  | none => rfl
  -- a packet is only written once the handshake has completed
  | some octets =>
    have hyes := (h.writer octets hwriting).2
    rw [hshaken] at hyes
    cases hyes

/-! ## Steps -/

/-- A read of the handshake completes: before it, nothing was being written. -/
theorem Calm.commitRead (h : s.Calm) (octets : List UInt8) : (s.commitRead octets).Calm :=
  ⟨h.between, h.wire, h.empty, h.idle⟩

theorem Wired.readStep (h : s.Wired) (octets : List UInt8) : (s.readStep octets).Wired := by
  unfold Stream.readStep
  cases hreading : s.reading with
  -- the handshake is alone: nothing was being written before the replies
  | connectRead =>
    have hat : s.WiredAt .connectRead := hreading ▸ h (by simp [hreading])
    have hcalm : s.Calm := hat.calm rfl (hat.idle_of_handshake rfl)
    exact ((hcalm.commitRead octets).deliverInputSequence).beginWrite rfl
  | settleRead =>
    have hat : s.WiredAt .settleRead := hreading ▸ h (by simp [hreading])
    have hcalm : s.Calm := hat.calm rfl (hat.idle_of_handshake rfl)
    exact ((hcalm.commitRead octets).deliverInputSequence).beginWrite rfl
  | readSome =>
    -- a packet may be on its way, and goes on
    have hat : s.WiredAt .readSome := hreading ▸ h (by simp [hreading])
    exact fun _ => hat.move rfl rfl fun _ => rfl
  | start | handshakeWrite | connectWrite | settleWrite | idle | dispatch | flush | failed =>
    exact h

theorem Wired.writeStep (h : s.Wired) : s.writeStep.Wired := by
  -- whichever operation it was, it wrote the whole buffer
  have hend : ∀ reading, s.reading = reading → reading.writes = true → s.endWrite.Calm := by
    intro reading hreading hwrites
    have hfine : s.reading ≠ .failed := by
      rintro hfailed
      rw [← hreading, hfailed] at hwrites
      cases hwrites
    exact (h hfine).endWrite (hreading ▸ hwrites)
  unfold Stream.writeStep
  cases hreading : s.reading with
  | handshakeWrite => exact (hend _ hreading rfl).connectLoop
  | connectWrite => exact (hend _ hreading rfl).connectLoop
  | settleWrite => exact (hend _ hreading rfl).settleLoop
  | flush => exact (hend _ hreading rfl).readLoop
  | start | connectRead | settleRead | idle | readSome | dispatch | failed => exact h

/-- The settle timer expires while octets are being written, and the handshake succeeds. -/
def CutShort (s : Stream) : Action → Prop
  | .settleTimeout _ => s.reading = .settleWrite ∧ s.writeBuffer ≠ [] ∧ s.connected = true
  | _ => False

instance (s : Stream) : DecidablePred s.CutShort
  | .settleTimeout _ => inferInstanceAs (Decidable (_ ∧ _))
  | .asyncHandshake | .asyncRead | .asyncWrite _ | .readDone _ | .writeDone | .dispatchRead
  | .dispatchWrite _ | .writeOpDone | .fails => inferInstanceAs (Decidable False)

theorem Wired.timeoutStep (h : s.Wired) {transferred : Nat}
    (hwhole : ¬ s.CutShort (.settleTimeout transferred)) :
    (s.timeoutStep transferred).Wired := by
  unfold Stream.timeoutStep
  cases hreading : s.reading with
  -- between two writes the buffer is empty, so the timeout loses nothing
  | settleRead =>
    have hat : s.WiredAt .settleRead := hreading ▸ h (by simp [hreading])
    exact (hat.calm rfl (hat.idle_of_handshake rfl)).settleDone true
  | settleWrite =>
    have hat : s.WiredAt .settleWrite := hreading ▸ h (by simp [hreading])
    obtain ⟨hdata, hidle⟩ := hat.reader rfl
    by_cases hconnected : s.connected = true
    · -- what was being written was nothing
      have hempty : s.writeBuffer = [] := by
        by_contra hsome
        exact hwhole ⟨hreading, hsome, hconnected⟩
      have hnone : s.readerData.take transferred = [] := by
        rw [hdata, hempty, List.take_nil]
      have hcalm : Calm
          { s with transferred := s.transferred ++ s.readerData.take transferred } := by
        refine ⟨hat.between, ?_, hempty, hidle⟩
        show s.sfpContext.wire = s.transferred ++ s.readerData.take transferred
        rw [hat.wire, hempty, hnone]
      exact hcalm.settleDone true
    · -- without a connection the handshake reports the timeout
      have hfails : ∀ t : Stream, t.connected = s.connected → (t.settleDone true).Wired := by
        intro t ht
        have hnot : t.connected = false := by
          rw [ht]
          exact Bool.eq_false_iff.mpr hconnected
        unfold Stream.settleDone
        rw [hnot]
        exact fun hfine => absurd rfl hfine
      exact hfails _ rfl
  | start | handshakeWrite | connectRead | connectWrite | idle | readSome | dispatch | flush
  | failed => exact h

theorem Wired.asyncRead (h : s.Wired) (hidle : s.reading = .idle) : s.asyncRead.Wired := by
  have hat : s.WiredAt .idle := hidle ▸ h (by simp [hidle])
  unfold Stream.asyncRead
  split
  · exact fun _ => hat.move rfl rfl fun _ => rfl
  · unfold Stream.readLoop
    split
    · exact fun _ => hat.move rfl rfl fun _ => rfl
    · exact fun _ => hat.move rfl rfl fun _ => rfl

/-- The phaser has waited for the write in progress. -/
theorem Wired.dispatchRead (h : s.Wired) (hreading : s.reading = .dispatch) (hfree : s.Free) :
    s.dispatchRead.Wired := by
  have hat : s.WiredAt .dispatch := hreading ▸ h (by simp [hreading])
  have hreplies := (hat.calm rfl hfree.1).deliverInputSequence
  unfold Stream.dispatchRead
  simp only
  split
  · exact hreplies.beginWrite rfl
  · -- no reply, and so nothing to flush
    rename_i hnone
    have hempty : s.deliverInputSequence.writeBuffer = [] := not_not.mp hnone
    have hcalm : s.deliverInputSequence.Calm := by
      refine ⟨hreplies.between, ?_, hempty, hreplies.idle⟩
      rw [hreplies.wire, hempty, List.append_nil]
    exact hcalm.readLoop

theorem Wired.dispatchWrite (h : s.Wired) (hshaken : s.reading.shaken = true) (hfree : s.Free)
    (op : WriteOp) : (s.dispatchWrite op).Wired := by
  intro hfine
  have hat : s.WiredAt s.reading := h hfine
  -- the phaser waits for a flush
  have hquiet : s.reading.writes = false := by
    have hflush := hfree.2
    cases hreading : s.reading with
    | flush => exact absurd hreading hflush
    | idle | readSome | dispatch => rfl
    | start | handshakeWrite | connectRead | connectWrite | settleRead | settleWrite | failed =>
      rw [hreading] at hshaken
      cases hshaken
  have hserves := serves_call hat.between (.write op.stack op.packet op.le)
  have hprefix : s.sfpContext.wire
      <+: (sfpWritePacket op.stack op.packet op.le s.sfpContext).1.wire := by
    have hwire := hserves.wire
    exact ⟨_, hwire.symm⟩
  refine ⟨hserves.between, wire_withContext hat.wire hprefix, ?_, ?_, nofun⟩
  · intro hwrites
    have hsame : (s.dispatchWrite op).reading = s.reading := rfl
    rw [hsame, hquiet] at hwrites
    cases hwrites
  · intro octets hwriting
    exact ⟨(Option.some.inj hwriting).symm, hshaken⟩

theorem Wired.writeOpDone (h : s.Wired) {octets : List UInt8} (hwriting : s.writing = some octets) :
    Wired { s with
      transferred := s.transferred ++ octets, writeBuffer := [], writing := none } := by
  intro hfine
  have hat : s.WiredAt s.reading := h hfine
  obtain ⟨hwhole, -⟩ := hat.writer octets hwriting
  -- the reading operation cannot have been writing at the same time
  have hquiet : s.reading.writes = false := by
    by_contra hwrites
    have hnone := (hat.reader (Bool.eq_true_of_not_eq_false hwrites)).2
    rw [hwriting] at hnone
    cases hnone
  have hcalm : Calm { s with
      transferred := s.transferred ++ octets, writeBuffer := [], writing := none } := by
    refine ⟨hat.between, ?_, rfl, rfl⟩
    show s.sfpContext.wire = s.transferred ++ octets
    rw [hat.wire, hwhole]
  exact hcalm.wired hquiet

theorem Wired.step (h : s.Wired) (hstart : s.reading ≠ .start) {a : Action}
    (hwhole : ¬ s.CutShort a) : (s.step a).Wired := by
  apply step_cases s a h
  · intro hnew
    exact absurd hnew hstart
  · exact h.asyncRead
  · intro waiting
    exact h
  · exact h.readStep
  · exact h.writeStep
  · rintro transferred rfl
    exact h.timeoutStep hwhole
  · exact h.dispatchRead
  · intro waiting op hshaken hfree
    exact Wired.dispatchWrite (s := { s with waiting }) h hshaken hfree op
  · intro octets hwriting
    exact h.writeOpDone hwriting
  · intro hfine
    exact absurd rfl hfine

/-! ## Runs -/

/-- The frames of the local `sfpConnect` are written first. -/
theorem wired_asyncHandshake (memory : SFPcontext) (packet : List UInt8) :
    (start memory packet).asyncHandshake.Wired := by
  apply Replies.beginWrite (s := { start memory packet with
    sfpContext := connecting memory, writeBuffer := [] ++ (connecting memory).wire })
  · exact ⟨between_connecting memory, rfl, rfl⟩
  · rfl

/-- A new object, or one that reads and writes. -/
theorem wired_run (memory : SFPcontext) (packet : List UInt8) {actions : List Action}
    (hwhole : Meets step (fun s a => ¬ s.CutShort a) (start memory packet) actions) :
    let s := run step (start memory packet) actions
    s = start memory packet ∨ s.Reads (connecting memory) ∧ s.Wired := by
  have hstep : ∀ (s : Stream) (a : Action),
      s = start memory packet ∨ s.Reads (connecting memory) ∧ s.Wired → ¬ s.CutShort a →
        s.step a = start memory packet ∨
          (s.step a).Reads (connecting memory) ∧ (s.step a).Wired := by
    intro s a h hwhole
    rcases h with rfl | ⟨hreads, hwired⟩
    · apply step_start
        (P := fun s => s = start memory packet ∨ s.Reads (connecting memory) ∧ s.Wired)
      · exact .inl rfl
      · exact .inr ⟨reads_asyncHandshake memory packet, wired_asyncHandshake memory packet⟩
      · exact .inr ⟨trivial, fun hfine => absurd rfl hfine⟩
    · right
      exact ⟨hreads.step (between_connecting memory) a, hwired.step hreads.begun hwhole⟩
  exact Lib.run_invariant hstep (.inl rfl) hwhole

/-- **Every octet is transferred once.** In every run without errors in which the settle phase is
not cut short in the middle of a write: the octets that the context has passed to `on_sfp_write` are
those transferred to the next layer, in order, and those in the write buffer; each `async_write` in
progress transfers the whole write buffer, and there is only one; and when none is in progress the
write buffer is empty. -/
theorem octets_transferred_once (memory : SFPcontext) (packet : List UInt8)
    (actions : List Action)
    (hwhole : Meets step (fun s a => ¬ s.CutShort a) (start memory packet) actions) :
    let s := run step (start memory packet) actions
    s.reading ≠ .failed →
      s.sfpContext.wire = s.transferred ++ s.writeBuffer ∧
      (s.reading.writes = true → s.readerData = s.writeBuffer ∧ s.writing = none) ∧
      (∀ octets, s.writing = some octets → octets = s.writeBuffer) ∧
      (s.reading.writes = false → s.writing = none → s.writeBuffer = []) := by
  intro s hfine
  rcases wired_run memory packet hwhole with hs | ⟨-, hwired⟩
  · have hnew : s = start memory packet := hs
    rw [hnew]
    exact ⟨rfl, nofun, nofun, fun _ _ => rfl⟩
  · have h : s.WiredAt s.reading := hwired hfine
    exact ⟨h.wire, h.reader, fun octets hwriting => (h.writer octets hwriting).1, h.quiet⟩

end Stream

end Contexts

section HeaderDefaults

attribute [local instance] headerDefaults

namespace Stream

/-- A packet of one octet. -/
def oneOctet (octet : UInt8) : WriteOp :=
  ⟨.replicate _ 0, [octet], show 1 ≤ sfpConfigMaxPacketSize by decide⟩

/-- A packet is written while an `async_read` waits. -/
def duplex : List Action :=
  settled ++ [.asyncRead, .asyncWrite (oneOctet 1), .dispatchWrite 0, .writeOpDone]

theorem octets_transferred_once_duplex :
    let s := run step (start .zero []) duplex
    s.transferred ≠ [] ∧ s.sfpContext.wire = s.transferred ++ s.writeBuffer ∧
      s.writeBuffer = [] := by
  have hwhole : Meets step (fun s a => ¬ s.CutShort a) (start .zero []) duplex := by
    decide +kernel
  have hfine : (run step (start .zero []) duplex).reading ≠ .failed := by decide +kernel
  obtain ⟨hwire, -, -, hquiet⟩ := octets_transferred_once .zero [] duplex hwhole hfine
  refine ⟨?_, hwire, hquiet ?_ ?_⟩
  · decide +kernel
  · decide +kernel
  · decide +kernel

/-- A handshake that times out while the reply to a repeated `SYN1` is being written. -/
def cutShort : List Action :=
  [.asyncHandshake, .writeDone, .readDone (frameOctets (makeHeader .syn sfpSeqSyn1) []), .writeDone,
    .readDone (frameOctets (makeHeader .syn sfpSeqSyn1) []), .settleTimeout 3]

/-- The handshake succeeds with octets in the write buffer, although no operation is in progress;
the first of them have been transferred, and are transferred again with the next packet. -/
theorem cut_short_transfers_twice :
    let s := run step (start .zero []) cutShort
    let t := run step s [.asyncWrite (oneOctet 1), .dispatchWrite 0, .writeOpDone]
    (s.reading = .idle ∧ s.connected ∧ s.waiting.length = 0 ∧ s.writing = none ∧
        s.writeBuffer ≠ []) ∧
      (t.reading = .idle ∧ t.writing = none ∧ t.writeBuffer = [] ∧
        t.transferred.length = t.sfpContext.wire.length + 3) := by
  decide +kernel

end Stream

end HeaderDefaults

end Libsfp.Asio
