import Libsfp.Asio.Stream

/-!
# What the Stream Reads

However the next layer splits its octets, and whatever is written in between, `async_read` returns
the messages that the context delivers when it is fed all octets at once. Each of the three read
loops begins by consuming the whole read buffer, and a message may be parked in `sfp_packet` from
one operation to the next. What makes this right is that the read buffer is empty whenever no
message is parked and a loop begins: `deliver_input_sequence` stops early only behind a message.
-/

namespace Libsfp.Asio

open Lib (run)

section Contexts

variable [SfpConfig]

/-- The context after the local `sfpConnect`. -/
def connecting (memory : SFPcontext) : Machine :=
  sfpConnect (.of (sfpSetWriteCallback true (sfpInit memory)))

/-- No callback but the write callback is set. -/
theorem setWrite_eq_initWith (memory : SFPcontext) :
    sfpSetWriteCallback true (sfpInit memory) = memory.initWith ⟨false, false, false⟩ := rfl

theorem between_connecting (memory : SFPcontext) : (connecting memory).ctx.Between := by
  rw [connecting, setWrite_eq_initWith]
  exact (serves_call (memory.between_initWith _) .connect).between

theorem not_connected_connecting (memory : SFPcontext) :
    sfpIsConnected (connecting memory).ctx = false := by
  have hidle := (memory.between_initWith ⟨false, false, false⟩).idle
  have habs := (does_sfpConnect (m := .of (memory.initWith ⟨false, false, false⟩)) hidle).abs
  have hstate : (connecting memory).ctx.connectState = .sentSyn0 := by
    rw [connecting, setWrite_eq_initWith]
    exact congrArg Endpoint.connectState habs
  rw [sfpIsConnected, hstate]
  rfl

namespace Stream

/-! ## The invariant -/

/-- The octets received so far are those delivered to the context and those in the read buffer; the
messages delivered are those returned and those that are `parked`. -/
structure HeardFrom (m₀ : Machine) (parked : List (List UInt8)) (m : Machine)
    (received readBuffer discarded : List UInt8) (results : List (List UInt8)) (fault : Bool) :
    Prop where
  between : m.ctx.Between
  no_fault : fault = false
  kept : discarded = []
  split : ∃ fed, received = fed ++ readBuffer ∧ SameRx m (deliverOctets fed m₀) ∧
    deliveries fed m₀ = results ++ parked

def Heard (m₀ : Machine) (parked : List (List UInt8)) (s : Stream) : Prop :=
  HeardFrom m₀ parked s.sfpContext s.received s.readBuffer s.discarded s.results s.fault

/-- The message in `sfp_packet`. -/
def parked (s : Stream) : List (List UInt8) := [s.sfpPacket].filter (· ≠ [])

/-- The read buffer is as `deliver_input_sequence` leaves it. -/
structure ParksIn (packet readBuffer : List UInt8) (m : Machine) : Prop where
  all : packet = [] → readBuffer = []
  connected : packet ≠ [] → sfpIsConnected m.ctx = true

def Parks (s : Stream) : Prop := ParksIn s.sfpPacket s.readBuffer s.sfpContext

/-- **The invariant of the reading operation**, by where it is suspended. Before the first octets
are delivered, `sfp_packet` is not set. -/
def Reads (m₀ : Machine) (s : Stream) : Prop :=
  match s.reading with
  | .start => False
  | .failed => True
  | .handshakeWrite => s.Heard m₀ [] ∧ s.readBuffer = [] ∧ s.connected = false
  | .connectRead => s.Heard m₀ [] ∧ s.readBuffer = []
  | .connectWrite | .settleWrite => s.Heard m₀ s.parked ∧ s.Parks
  | .settleRead | .readSome => s.Heard m₀ s.parked ∧ s.sfpPacket = [] ∧ s.readBuffer = []
  | .idle => s.Heard m₀ s.parked
  | .dispatch => s.Heard m₀ s.parked ∧ s.sfpPacket = []
  | .flush => s.Heard m₀ s.parked ∧ (s.sfpPacket = [] → s.readBuffer = [])

variable {m₀ : Machine} {s : Stream}

/-! ## The functions of the class -/

/-- An empty read buffer loses nothing when it is consumed. -/
theorem Heard.consumeRead {parked : List (List UInt8)} (h : s.Heard m₀ parked)
    (hempty : s.readBuffer = []) : s.consumeRead = s := by
  have hkept := h.kept
  unfold Stream.consumeRead
  rw [hempty, List.append_nil]
  cases s
  simp only at hempty hkept
  rw [hempty]

/-- **The octets of the read buffer are delivered** up to a message or to the end. -/
theorem Heard.deliverInputSequence (hm₀ : m₀.ctx.Between) (h : s.Heard m₀ []) :
    s.deliverInputSequence.Heard m₀ s.deliverInputSequence.parked ∧
      s.deliverInputSequence.Parks := by
  have hspec := deliverLoop_spec s.readBuffer h.between
  obtain ⟨fed, hreceived, hsame, hdeliveries⟩ := h.split
  obtain ⟨fed', hbuffer, hmachine, hdeliveries'⟩ := hspec.split
  -- what was fed so far brought both contexts to the same receiving half
  have hfed := between_deliverOctets hm₀ fed
  obtain ⟨hequal, hsame'⟩ := deliveries_sameRx hsame h.between hfed fed'
  refine ⟨⟨?_, ?_, h.kept, fed ++ fed', ?_, ?_, ?_⟩, hspec.all, hspec.connected⟩
  · show (deliverLoop s.readBuffer [] s.sfpContext).machine.ctx.Between
    rw [hmachine]
    exact between_deliverOctets h.between fed'
  · show (s.fault || !(deliverLoop s.readBuffer [] s.sfpContext).ok) = false
    rw [h.no_fault, hspec.ok]
    rfl
  · show s.received = fed ++ fed' ++ (deliverLoop s.readBuffer [] s.sfpContext).rest
    rw [hreceived, List.append_assoc, ← hbuffer]
  · show SameRx (deliverLoop s.readBuffer [] s.sfpContext).machine _
    rw [hmachine, deliverOctets_append]
    exact hsame'
  · -- the octets of this round deliver the message that is now parked
    rw [deliveries_append, hdeliveries, ← hequal, hdeliveries', List.append_nil]
    rfl

theorem Heard.commitRead {parked : List (List UInt8)} (h : s.Heard m₀ parked)
    (octets : List UInt8) : (s.commitRead octets).Heard m₀ parked := by
  obtain ⟨fed, hreceived, hsame, hdeliveries⟩ := h.split
  refine ⟨h.between, h.no_fault, h.kept, fed, ?_, hsame, hdeliveries⟩
  show s.received ++ octets = fed ++ (s.readBuffer ++ octets)
  rw [hreceived, List.append_assoc]

/-- The settle phase ends well only with a connected context. -/
theorem Heard.settleDone (h : s.Heard m₀ s.parked) {timedOut : Bool}
    (hconnected : timedOut = false → s.connected = true) : (s.settleDone timedOut).Reads m₀ := by
  unfold Stream.settleDone
  split
  · -- the handshake fails
    trivial
  · rename_i hfine
    have hyes : s.connected = true := by
      cases htime : timedOut with
      | false => exact hconnected htime
      | true => simpa [htime] using hfine
    refine ⟨h.between, ?_, h.kept, h.split⟩
    show (s.fault || !s.connected) = false
    rw [h.no_fault, hyes]
    rfl

/-- No message: the buffer is empty. A message: the context is connected. -/
theorem Heard.settleLoop (h : s.Heard m₀ s.parked) (hparks : s.Parks) :
    s.settleLoop.Reads m₀ := by
  unfold Stream.settleLoop
  split
  · rename_i hnone
    have hempty := hparks.all hnone
    rw [h.consumeRead hempty]
    exact ⟨h, hnone, hempty⟩
  · rename_i hsome
    exact h.settleDone fun _ => hparks.connected hsome

theorem Heard.afterConnected (h : s.Heard m₀ s.parked) (hparks : s.Parks) :
    s.afterConnected.Reads m₀ := by
  unfold Stream.afterConnected
  split
  · rename_i hnone
    have hempty := hparks.all hnone
    -- the two assertions of `read_until_delivery_op` hold
    have hassert : (s.fault || !s.readBuffer.isEmpty) = s.fault := by
      rw [hempty]
      exact Bool.or_false _
    rw [hassert]
    exact h.settleLoop hparks
  · exact h

theorem Heard.connectLoop (h : s.Heard m₀ s.parked) (hparks : s.Parks) :
    s.connectLoop.Reads m₀ := by
  unfold Stream.connectLoop
  split
  · exact h.afterConnected hparks
  · rename_i hnot
    -- without a connection no message can have been delivered
    have hnone : s.sfpPacket = [] := by
      by_contra hsome
      exact hnot (hparks.connected hsome)
    have hempty := hparks.all hnone
    rw [h.consumeRead hempty]
    have hparked : s.parked = [] := by
      rw [parked, hnone]
      rfl
    exact ⟨hparked ▸ h, hempty⟩

theorem Heard.readLoop (h : s.Heard m₀ s.parked) (hempty : s.sfpPacket = [] → s.readBuffer = []) :
    s.readLoop.Reads m₀ := by
  unfold Stream.readLoop
  split
  · rename_i hnone
    rw [h.consumeRead (hempty hnone)]
    exact ⟨h, hnone, hempty hnone⟩
  · rename_i hsome
    obtain ⟨fed, hreceived, hsame, hdeliveries⟩ := h.split
    refine ⟨h.between, h.no_fault, h.kept, fed, hreceived, hsame, ?_⟩
    -- the parked message is returned
    have hparked : s.parked = [s.sfpPacket] := by simp [parked, hsome]
    rw [hdeliveries, hparked]
    exact (List.append_nil _).symm

theorem Heard.dispatchRead (hm₀ : m₀.ctx.Between) (h : s.Heard m₀ s.parked)
    (hnone : s.sfpPacket = []) : s.dispatchRead.Reads m₀ := by
  have hparked : s.parked = [] := by
    rw [parked, hnone]
    rfl
  obtain ⟨hheard, hparks⟩ := Heard.deliverInputSequence hm₀ (hparked ▸ h)
  unfold Stream.dispatchRead
  simp only
  split
  · exact ⟨hheard, hparks.all⟩
  · exact hheard.readLoop hparks.all

/-- What is written leaves the receiving half of the context alone. -/
theorem Heard.withContext {parked : List (List UInt8)} (h : s.Heard m₀ parked) {m : Machine}
    (hm : m.ctx.Between) (hsame : SameRx m s.sfpContext) :
    (s.withContext m).Heard m₀ parked := by
  obtain ⟨fed, hreceived, hfed, hdeliveries⟩ := h.split
  exact ⟨hm, h.no_fault, h.kept, fed, hreceived, hsame.trans hfed, hdeliveries⟩

/-! ## Steps -/

theorem Reads.readStep (hm₀ : m₀.ctx.Between) (h : s.Reads m₀) (octets : List UInt8) :
    (s.readStep octets).Reads m₀ := by
  unfold Reads at h
  unfold Stream.readStep
  cases hreading : s.reading with
  | connectRead =>
    simp only [hreading] at h ⊢
    exact Heard.deliverInputSequence hm₀ (h.1.commitRead octets)
  -- the loop is entered only while no message is parked
  | settleRead =>
    simp only [hreading] at h ⊢
    obtain ⟨hheard, hnone, -⟩ := h
    have hparked : s.parked = [] := by
      rw [parked, hnone]
      rfl
    exact Heard.deliverInputSequence hm₀ ((hparked ▸ hheard).commitRead octets)
  | readSome =>
    simp only [hreading] at h ⊢
    exact ⟨h.1.commitRead octets, h.2.1⟩
  | start => simp only [hreading] at h
  | failed => simp only [Reads, hreading]
  | handshakeWrite | connectWrite | settleWrite | idle | dispatch | flush =>
    simp only [hreading] at h ⊢
    simp only [Reads, hreading]
    exact h

theorem Reads.writeStep (h : s.Reads m₀) : s.writeStep.Reads m₀ := by
  unfold Reads at h
  unfold Stream.writeStep
  cases hreading : s.reading with
  | handshakeWrite =>
    simp only [hreading] at h ⊢
    obtain ⟨hheard, hempty, hnot⟩ := h
    -- nothing has been heard, so the loop is entered
    have hloop : s.endWrite.connectLoop
        = { s.endWrite.consumeRead with reading := .connectRead } :=
      if_neg (show ¬ s.connected = true by rw [hnot]; exact Bool.false_ne_true)
    rw [hloop]
    have hend : s.endWrite.Heard m₀ [] := hheard
    rw [hend.consumeRead hempty]
    exact ⟨hheard, hempty⟩
  -- what was written has no part in it: the leftovers are those of the read before
  | connectWrite =>
    simp only [hreading] at h ⊢
    exact Heard.connectLoop (s := s.endWrite) h.1 ⟨h.2.all, h.2.connected⟩
  | settleWrite =>
    simp only [hreading] at h ⊢
    exact Heard.settleLoop (s := s.endWrite) h.1 ⟨h.2.all, h.2.connected⟩
  | flush =>
    simp only [hreading] at h ⊢
    exact Heard.readLoop (s := s.endWrite) h.1 h.2
  | start => simp only [hreading] at h
  | failed => simp only [Reads, hreading]
  | connectRead | settleRead | idle | readSome | dispatch =>
    simp only [hreading] at h ⊢
    simp only [Reads, hreading]
    exact h

/-- Wherever the settle phase is cut short, what it has heard stays. -/
theorem Reads.timeoutStep (h : s.Reads m₀) (transferred : Nat) :
    (s.timeoutStep transferred).Reads m₀ := by
  unfold Reads at h
  unfold Stream.timeoutStep
  cases hreading : s.reading with
  | settleRead =>
    simp only [hreading] at h ⊢
    exact h.1.settleDone nofun
  | settleWrite =>
    simp only [hreading] at h ⊢
    exact Heard.settleDone
      (s := { s with transferred := s.transferred ++ s.readerData.take transferred }) h.1 nofun
  | start => simp only [hreading] at h
  | failed => simp only [Reads, hreading]
  | handshakeWrite | connectRead | connectWrite | idle | readSome | dispatch | flush =>
    simp only [hreading] at h ⊢
    simp only [Reads, hreading]
    exact h

theorem Reads.asyncRead (h : s.Reads m₀) (hidle : s.reading = .idle) :
    s.asyncRead.Reads m₀ := by
  unfold Reads at h
  simp only [hidle] at h
  unfold Stream.asyncRead
  split
  · -- octets were left behind a message that has been returned since
    rename_i hleft
    exact ⟨h, hleft.1⟩
  · rename_i hleft
    apply h.readLoop
    intro hnone
    by_contra hsome
    exact hleft ⟨hnone, hsome⟩

theorem Reads.dispatchWrite (h : s.Reads m₀) (hshaken : s.reading.shaken = true) (op : WriteOp) :
    (s.dispatchWrite op).Reads m₀ := by
  have hheard : ∀ parked, s.Heard m₀ parked → (s.dispatchWrite op).Heard m₀ parked := by
    intro parked h
    refine h.withContext ?_ ?_
    · exact (serves_call h.between (.write op.stack op.packet op.le)).between
    · exact quiet_sfpWritePacket h.between.idle op.stack op.packet op.le
  -- each clause of the invariant is about the half that did not change
  unfold Reads at h ⊢
  have hreading : (s.dispatchWrite op).reading = s.reading := rfl
  rw [hreading]
  cases hcase : s.reading with
  | idle =>
    simp only [hcase] at h ⊢
    exact hheard _ h
  | readSome =>
    simp only [hcase] at h ⊢
    exact ⟨hheard _ h.1, h.2⟩
  | dispatch =>
    simp only [hcase] at h ⊢
    exact ⟨hheard _ h.1, h.2⟩
  | flush =>
    simp only [hcase] at h ⊢
    exact ⟨hheard _ h.1, h.2⟩
  | start | handshakeWrite | connectRead | connectWrite | settleRead | settleWrite | failed =>
    rw [hcase] at hshaken
    cases hshaken

/-- The handshake begins, on a new object. -/
theorem reads_asyncHandshake (memory : SFPcontext) (packet : List UInt8) :
    (start memory packet).asyncHandshake.Reads (connecting memory) :=
  ⟨⟨between_connecting memory, rfl, rfl, [], rfl, .refl _, rfl⟩, rfl,
    not_connected_connecting memory⟩

theorem Reads.begun (h : s.Reads m₀) : s.reading ≠ .start := by
  intro hstart
  unfold Reads at h
  rw [hstart] at h
  exact h

theorem Reads.step (hm₀ : m₀.ctx.Between) (h : s.Reads m₀) (a : Action) :
    (s.step a).Reads m₀ := by
  apply step_cases s a h
  · intro hstart
    exact absurd hstart h.begun
  · exact h.asyncRead
  · intro waiting
    exact h
  · exact h.readStep hm₀
  · exact h.writeStep
  · intro transferred _
    exact h.timeoutStep transferred
  · intro hreading _
    unfold Reads at h
    rw [hreading] at h
    exact h.1.dispatchRead hm₀ h.2
  · intro waiting op hshaken _
    exact Reads.dispatchWrite (s := { s with waiting }) h hshaken op
  · intro octets _
    exact h
  · trivial

/-! ## Runs -/

/-- A new object, or one that reads. -/
theorem reads_run (memory : SFPcontext) (packet : List UInt8) (actions : List Action) :
    let s := run step (start memory packet) actions
    (s.reading = .start → s = start memory packet) ∧
      (s.reading ≠ .start → s.Reads (connecting memory)) := by
  have hstep : ∀ (s : Stream) (a : Action),
      s = start memory packet ∨ s.Reads (connecting memory) →
        s.step a = start memory packet ∨ (s.step a).Reads (connecting memory) := by
    intro s a h
    rcases h with rfl | h
    · apply step_start (P := fun s => s = start memory packet ∨ s.Reads (connecting memory))
      · exact .inl rfl
      · exact .inr (reads_asyncHandshake memory packet)
      · exact .inr trivial
    · exact .inr (h.step (between_connecting memory) a)
  intro s
  have hs : s = start memory packet ∨ s.Reads (connecting memory) :=
    Lib.run_invariant_of_step hstep actions (.inl rfl)
  rcases hs with hs | hs
  · refine ⟨fun _ => hs, fun hne => absurd ?_ hne⟩
    rw [hs]
    rfl
  · exact ⟨fun hstart => absurd hstart hs.begun, fun _ => hs⟩

/-- In every phase but a failed one the octets are accounted for. -/
theorem Reads.heard (h : s.Reads m₀) (hfine : s.reading ≠ .failed) :
    ∃ parked, s.Heard m₀ parked := by
  unfold Reads at h
  cases hreading : s.reading with
  | start =>
    rw [hreading] at h
    exact absurd h id
  | failed => exact absurd hreading hfine
  | idle =>
    rw [hreading] at h
    exact ⟨_, h⟩
  | handshakeWrite | connectRead | connectWrite | settleRead | settleWrite | readSome | dispatch
  | flush =>
    rw [hreading] at h
    exact ⟨_, h.1⟩

/-- **The reads do not depend on how the octets are chunked.** In every run in which no operation
fails, for every octet string that continues what the next layer has yielded since the handshake:
the payloads that `async_read` has returned are the first messages that the context delivers when it
is fed that string in one go. An `async_read` that waits for the next layer has returned all that
was delivered so far, no octet was discarded, and no assertion failed. -/
theorem reads_independent_of_chunks (memory : SFPcontext) (packet : List UInt8)
    (actions : List Action) :
    let s := run step (start memory packet) actions
    s.reading ≠ .failed →
      (∀ octets, s.received <+: octets →
        s.results = (deliveries octets (connecting memory)).take s.results.length) ∧
      (s.reading = .readSome → s.results = deliveries s.received (connecting memory)) ∧
      s.discarded = [] ∧ s.fault = false := by
  intro s hfine
  obtain ⟨hstart, hreads⟩ := reads_run memory packet actions
  by_cases hnew : s.reading = .start
  · have hs : s = start memory packet := hstart hnew
    rw [hs]
    exact ⟨fun _ _ => rfl, nofun, rfl, rfl⟩
  have h : s.Reads (connecting memory) := hreads hnew
  obtain ⟨parked, hheard⟩ := h.heard hfine
  obtain ⟨fed, hreceived, -, hdeliveries⟩ := hheard.split
  refine ⟨?_, ?_, hheard.kept, hheard.no_fault⟩
  · rintro octets ⟨more, rfl⟩
    rw [hreceived, List.append_assoc, deliveries_append, hdeliveries, List.append_assoc,
      List.take_left]
  · -- nothing is parked and nothing is left over while it waits
    intro hwaiting
    unfold Reads at h
    rw [hwaiting] at h
    obtain ⟨hheard, hnone, hempty⟩ := h
    obtain ⟨fed, hreceived, -, hdeliveries⟩ := hheard.split
    rw [hreceived, hempty, List.append_nil, hdeliveries, Stream.parked, hnone]
    exact (List.append_nil _).symm

end Stream

end Contexts

section HeaderDefaults

attribute [local instance] headerDefaults

namespace Stream

/-- A handshake that settles without a message. -/
def settled : List Action :=
  [.asyncHandshake, .writeDone, .readDone (frameOctets (makeHeader .syn sfpSeqSyn1) []), .writeDone,
    .settleTimeout 0]

/-- An `async_read` of a packet that comes in two chunks. -/
def chunked : List Action :=
  settled ++
    [.asyncRead, .readDone ((frameOctets (makeHeader .usr 0) [1]).take 3), .dispatchRead,
      .readDone ((frameOctets (makeHeader .usr 0) [1]).drop 3), .dispatchRead]

theorem reads_independent_of_chunks_two :
    let s := run step (start .zero []) chunked
    s.results = [[1]] ∧
      s.results = (deliveries s.received (connecting .zero)).take s.results.length := by
  have hfine : (run step (start .zero []) chunked).reading ≠ .failed := by decide +kernel
  refine ⟨?_, ?_⟩
  · decide +kernel
  · exact (reads_independent_of_chunks .zero [] chunked hfine).1 _ List.prefix_rfl

end Stream

end HeaderDefaults

end Libsfp.Asio
