import Libsfp.Asio.StreamLine

/-!
# Two Streams and a Pipe

Two `sfp::stream` objects whose next layers are the two ends of a pipe: what one side transfers, the
other side reads, in chunks of any size. An `async_write` in progress may have transferred any part
of its octets.

Two streams refine two contexts on an octet line. What is on its way to a context are the octets in
the read buffer, those in the pipe and those that the peer still has to write (`Plays`).
-/

namespace Libsfp.Asio

open Lib (Side Link Meets run)

section Contexts

variable [SfpConfig]

/-! ## Two streams -/

namespace Stream

/-- The packets that an action passes to `sfpWritePacket`. -/
def dispatches (s : Stream) (a : Action) : List (List UInt8) :=
  (s.dispatching a).toList.map WriteOp.packet

/-- The octets that the peer may have been given: those transferred and those being written. -/
def offered (s : Stream) : List UInt8 :=
  s.transferred ++ if s.reading.writes then s.readerData else s.writing.getD []

/-- A new object after some actions, the settle phase not cut short in the middle of a write. -/
def Whole (memory : SFPcontext) (packet : List UInt8) (s : Stream) : Prop :=
  ∃ actions, Meets step (fun s a => ¬ s.CutShort a) (start memory packet) actions ∧
    s = run step (start memory packet) actions

variable {memory : SFPcontext} {packet : List UInt8} {s : Stream}

theorem Whole.step (h : s.Whole memory packet) {a : Action} (ha : ¬ s.CutShort a) :
    (s.step a).Whole memory packet := by
  obtain ⟨actions, hmeets, rfl⟩ := h
  refine ⟨actions ++ [a], Lib.meets_append.mpr ⟨hmeets, ha, trivial⟩, ?_⟩
  rw [Lib.run_append]
  rfl

theorem Whole.wired (h : s.Whole memory packet) :
    s = start memory packet ∨ s.Reads (connecting memory) ∧ s.Wired := by
  obtain ⟨actions, hmeets, rfl⟩ := h
  exact wired_run memory packet hmeets

theorem Whole.reads (h : s.Whole memory packet) (hbegun : s.reading ≠ .start) :
    s.Reads (connecting memory) := by
  rcases h.wired with rfl | ⟨hreads, -⟩
  · exact absurd rfl hbegun
  · exact hreads

theorem Whole.eq_start (h : s.Whole memory packet) (hstart : s.reading = .start) :
    s = start memory packet := by
  rcases h.wired with hs | ⟨hreads, -⟩
  · exact hs
  · exact absurd hstart hreads.begun

/-- The peer may have been given what the context has written. -/
theorem Whole.offered (h : s.Whole memory packet) (hfine : s.reading ≠ .failed) :
    s.offered = s.sfpContext.wire := by
  rcases h.wired with rfl | ⟨-, hwired⟩
  · rfl
  · have hat := hwired hfine
    unfold Stream.offered
    rw [hat.wire]
    cases hwrites : s.reading.writes with
    | true =>
      rw [if_pos rfl, (hat.reader hwrites).1]
    | false =>
      rw [if_neg Bool.false_ne_true]
      cases hwriting : s.writing with
      | none =>
        rw [hat.quiet hwrites hwriting]
        rfl
      | some octets =>
        rw [← (hat.writer octets hwriting).1]
        rfl

end Stream

/-- Two streams, joined by a pipe. -/
structure Duplex where
  stream : Side → Stream
  /-- What an observer sees: the packets passed to `sfpWritePacket`. -/
  dispatched : Side → List (List UInt8)

namespace Duplex

/-- Two new objects. -/
def start (memory : Side → SFPcontext) (packet : Side → List UInt8) : Duplex where
  stream x := .start (memory x) (packet x)
  dispatched _ := []

/-- Something happens on one side. -/
def step (d : Duplex) (p : Side × Stream.Action) : Duplex where
  stream := Function.update d.stream p.1 ((d.stream p.1).step p.2)
  dispatched := Function.update d.dispatched p.1
    (d.dispatched p.1 ++ (d.stream p.1).dispatches p.2)

/-- What is read came out of the pipe. -/
def Arrives (received offered : List UInt8) : Stream.Action → Prop
  | .readDone octets => received ++ octets <+: offered
  | _ => True

/-- What can happen: a pipe that loses nothing, packets that the peer has room for, and a settle
phase that is not cut short in the middle of a write. -/
structure Allowed (d : Duplex) (p : Side × Stream.Action) : Prop where
  whole : ¬ (d.stream p.1).CutShort p.2
  arrives : Arrives (d.stream p.1).received (d.stream p.1.peer).offered p.2
  fits : ∀ packet ∈ (d.stream p.1).dispatches p.2, Fits packet

instance (received offered : List UInt8) : DecidablePred (Arrives received offered)
  | .readDone _ => inferInstanceAs (Decidable (_ <+: _))
  | .asyncHandshake | .asyncRead | .asyncWrite _ | .writeDone | .settleTimeout _ | .dispatchRead
  | .dispatchWrite _ | .writeOpDone | .fails => inferInstanceAs (Decidable True)

instance : DecidablePred Fits := fun _ => inferInstanceAs (Decidable (_ ≤ _))

instance (d : Duplex) (p : Side × Stream.Action) : Decidable (d.Allowed p) :=
  decidable_of_iff (¬ (d.stream p.1).CutShort p.2 ∧
      Arrives (d.stream p.1).received (d.stream p.1.peer).offered p.2 ∧
      ∀ packet ∈ (d.stream p.1).dispatches p.2, Fits packet)
    ⟨fun h => ⟨h.1, h.2.1, h.2.2⟩, fun h => ⟨h.whole, h.arrives, h.fits⟩⟩

section Projections

variable (d : Duplex) (x : Side) (a : Stream.Action)

@[simp] theorem stream_step : (d.step (x, a)).stream x = (d.stream x).step a := by simp [step]
@[simp] theorem stream_step_peer : (d.step (x, a)).stream x.peer = d.stream x.peer := by
  simp [step]
@[simp] theorem dispatched_step :
    (d.step (x, a)).dispatched x = d.dispatched x ++ (d.stream x).dispatches a := by simp [step]
@[simp] theorem dispatched_step_peer : (d.step (x, a)).dispatched x.peer = d.dispatched x.peer := by
  simp [step]

end Projections

end Duplex

/-! ## Refinement -/

/-- The context of a stream, before the handshake as `sfpInit` will leave it. -/
def contextOf (memory : SFPcontext) (s : Stream) : SFPcontext :=
  if s.reading = .start then memory.initWith ⟨false, false, false⟩ else s.sfpContext.ctx

/-- What was fed to the context was heard on the line. What is on its way there are the octets in
the read buffer, and then those that the stream has not read yet. -/
def Hears (m₀ : Machine) (s : Stream) (wire messages : List UInt8) (got : List (List UInt8)) :
    Prop :=
  ∃ fed, s.received = fed ++ s.readBuffer ∧ wire = fed ++ messages ∧ s.readBuffer <+: messages ∧
    got.filter (· ≠ []) = deliveries fed m₀

/-- `l` is the octet line that two streams without errors stand for. -/
structure Plays (memory : Side → SFPcontext) (packet : Side → List UInt8) (d : Duplex)
    (l : OctetLine) : Prop where
  whole : ∀ x, (d.stream x).Whole (memory x) (packet x)
  fine : ∀ x, (d.stream x).reading ≠ .failed
  mirrors : ∀ x, Mirrors (l.node x) (contextOf (memory x) (d.stream x))
  hears : ∀ x, Hears (connecting (memory x)) (d.stream x) (d.stream x.peer).sfpContext.wire
    (l.messages x) (l.got x)
  wrote : ∀ x, l.wrote x = d.dispatched x

section Steps

variable {memory : Side → SFPcontext} {packet : Side → List UInt8} {d : Duplex} {l l' : OctetLine}
  {x : Side} {a : Stream.Action}

/-- The octets fed to the context are those that the invariant of the reading operation speaks
of. -/
theorem Hears.sameRx {m₀ : Machine} {s : Stream} (hreads : s.Reads m₀) (hfine : s.reading ≠ .failed)
    {fed : List UInt8} (hfed : s.received = fed ++ s.readBuffer) :
    SameRx s.sfpContext (deliverOctets fed m₀) := by
  obtain ⟨parked, hheard⟩ := hreads.heard hfine
  obtain ⟨fed', hreceived, hsame, -⟩ := hheard.split
  have hfed' : fed' = fed := List.append_cancel_right (hreceived.symm.trans hfed)
  subst hfed'
  exact hsame

/-- The line follows the stream that acts. -/
theorem Plays.follow (h : Plays memory packet d l) (hwhole : ¬ (d.stream x).CutShort a)
    (hfine : ((d.stream x).step a).reading ≠ .failed)
    (hbegun : ((d.stream x).step a).reading ≠ .start) {m : Machine} {rest : List UInt8}
    {heard : List (List UInt8)} (hwire : m.wire = (d.stream x).sfpContext.wire)
    (hfollows : Follows l l' x m ((d.stream x).step a).sfpContext rest ((d.stream x).dispatches a)
      heard)
    {fed : List UInt8}
    (hreceived : ((d.stream x).step a).received = fed ++ ((d.stream x).step a).readBuffer)
    (hpeer : (d.stream x.peer).sfpContext.wire = fed ++ rest)
    (hrest : ((d.stream x).step a).readBuffer <+: rest)
    (hheard : (l.got x).filter (· ≠ []) ++ heard = deliveries fed (connecting (memory x))) :
    Plays memory packet (d.step (x, a)) l' where
  whole := by
    -- each clause is one for the side and one for its peer
    refine Side.forall_of_peer x ?_ ?_
    · rw [Duplex.stream_step]
      exact (h.whole x).step hwhole
    · rw [Duplex.stream_step_peer]
      exact h.whole x.peer
  fine := by
    refine Side.forall_of_peer x ?_ ?_
    · rwa [Duplex.stream_step]
    · rw [Duplex.stream_step_peer]
      exact h.fine x.peer
  mirrors := by
    refine Side.forall_of_peer x ?_ ?_
    · rw [Duplex.stream_step, contextOf, if_neg hbegun]
      exact hfollows.mirrors
    · rw [Duplex.stream_step_peer, hfollows.peer]
      exact h.mirrors x.peer
  hears := by
    refine Side.forall_of_peer x ?_ ?_
    · rw [Duplex.stream_step, Duplex.stream_step_peer, hfollows.messages]
      exact ⟨fed, hreceived, hpeer, hrest, hfollows.got.trans hheard⟩
    · -- what the context of `x` writes is on its way to the peer
      obtain ⟨fed', hreceived', hpeer', hprefix, hgot⟩ := h.hears x.peer
      obtain ⟨sent, hsent, hmessages⟩ := hfollows.sent
      rw [Side.peer_peer] at hpeer' ⊢
      rw [Duplex.stream_step, Duplex.stream_step_peer, hmessages, hfollows.gotPeer]
      refine ⟨fed', hreceived', ?_, hprefix.trans (List.prefix_append _ _), hgot⟩
      rw [hsent, hwire, hpeer', List.append_assoc]
  wrote := by
    refine Side.forall_of_peer x ?_ ?_
    · rw [Duplex.dispatched_step, hfollows.wrote, h.wrote]
    · rw [Duplex.dispatched_step_peer, hfollows.wrotePeer, h.wrote]

/-- Octets of the read buffer are delivered. -/
theorem Plays.moves (h : Plays memory packet d l) (hwhole : ¬ (d.stream x).CutShort a)
    (hfine : ((d.stream x).step a).reading ≠ .failed) (hbegun : (d.stream x).reading ≠ .start)
    (hdispatches : (d.stream x).dispatches a = []) {octets : List UInt8}
    (hmoves : Stream.Moves (d.stream x) ((d.stream x).step a) octets)
    (harrives : (d.stream x).received ++ octets <+: (d.stream x.peer).sfpContext.wire) :
    ∃ k, Plays memory packet (d.step (x, a))
      (run (Link.step octetParty) l (List.replicate k (.deliver x))) := by
  have hreads := (h.whole x).reads hbegun
  obtain ⟨fed, hreceived, hpeer, -, hgot⟩ := h.hears x
  obtain ⟨more, hmore, hcontext⟩ := hmoves.fed
  have hsame := Hears.sameRx hreads (h.fine x) hreceived
  -- all of it has been written by the peer
  obtain ⟨rest, hrest⟩ := harrives
  -- so what is fed is at the front of what is on its way
  have hmessages : l.messages x = more ++ (((d.stream x).step a).readBuffer ++ rest) := by
    rw [hreceived, List.append_assoc, List.append_assoc, hpeer] at hrest
    rw [← List.append_cancel_left hrest, ← List.append_assoc, hmore, List.append_assoc]
  have hmirrors := h.mirrors x
  rw [contextOf, if_neg hbegun] at hmirrors
  have hfollows := follows_feed more hmirrors hmessages
  rw [← hcontext, ← hdispatches] at hfollows
  -- what was written meanwhile does not change what is heard
  obtain ⟨hequal, -⟩ := deliveries_sameRx hsame hmirrors.between
    (between_deliverOctets (between_connecting (memory x)) fed) more
  have hreceived' : ((d.stream x).step a).received
      = fed ++ more ++ ((d.stream x).step a).readBuffer := by
    rw [hmoves.received, hreceived, List.append_assoc, hmore, List.append_assoc]
  refine ⟨more.length, h.follow hwhole hfine ?_ rfl hfollows hreceived' ?_
    (List.prefix_append _ _) ?_⟩
  · exact (hreads.step (between_connecting (memory x)) a).begun
  · rw [hpeer, hmessages, List.append_assoc]
  · rw [hgot, hequal, deliveries_append]

/-- A packet is passed to `sfpWritePacket`. -/
theorem Plays.writes (h : Plays memory packet d l) (hwhole : ¬ (d.stream x).CutShort a)
    (hfine : ((d.stream x).step a).reading ≠ .failed) (hbegun : (d.stream x).reading ≠ .start)
    {op : WriteOp} (hop : (d.stream x).dispatching a = some op) (hfits : Fits op.packet) :
    Plays memory packet (d.step (x, a))
      (l.step octetParty (.request x (.write op.stack op.packet hfits))) := by
  have hreads := (h.whole x).reads hbegun
  obtain ⟨waiting, hstep⟩ := Stream.step_dispatching hop
  obtain ⟨fed, hreceived, hpeer, hprefix, hgot⟩ := h.hears x
  have hmirrors := h.mirrors x
  rw [contextOf, if_neg hbegun] at hmirrors
  have hfollows := follows_request hmirrors (.write op.stack op.packet hfits)
  -- one packet is written, and nothing is fed
  have hpayloads : (d.stream x).dispatches a = [op.packet] := by
    rw [Stream.dispatches, hop]
    rfl
  have hcontext : ((d.stream x).step a).sfpContext
      = (d.stream x).sfpContext.call (Request.write op.stack op.packet hfits).call := by
    rw [hstep]
    rfl
  have hnext : Follows l (l.step octetParty (.request x (.write op.stack op.packet hfits))) x
      (d.stream x).sfpContext ((d.stream x).step a).sfpContext (l.messages x)
      ((d.stream x).dispatches a) [] := by
    rw [hcontext, hpayloads]
    exact hfollows
  refine h.follow hwhole hfine ?_ rfl hnext ?_ hpeer ?_ ?_
  · exact (hreads.step (between_connecting (memory x)) a).begun
  · rw [hstep]
    exact hreceived
  · rw [hstep]
    exact hprefix
  · rw [List.append_nil, hgot]

/-- The handshake begins. -/
theorem Plays.connects (h : Plays memory packet d l) (hwhole : ¬ (d.stream x).CutShort a)
    (hstart : (d.stream x).reading = .start)
    (hstep : (d.stream x).step a = (Stream.start (memory x) (packet x)).asyncHandshake)
    (hdispatches : (d.stream x).dispatches a = []) :
    Plays memory packet (d.step (x, a)) (l.step octetParty (.request x .connect)) := by
  have hnew := (h.whole x).eq_start hstart
  obtain ⟨fed, hreceived, hpeer, hprefix, hgot⟩ := h.hears x
  have hmirrors := h.mirrors x
  rw [contextOf, if_pos hstart] at hmirrors
  have hfollows := follows_request (m := .of ((memory x).initWith ⟨false, false, false⟩)) hmirrors
    .connect
  -- nothing has been read
  have hfed : fed = [] := by
    rw [hnew] at hreceived
    exact (List.append_eq_nil_iff.mp hreceived.symm).1
  have hnext : Follows l (l.step octetParty (.request x .connect)) x
      (.of ((memory x).initWith ⟨false, false, false⟩)) ((d.stream x).step a).sfpContext
      (l.messages x) ((d.stream x).dispatches a) [] := by
    rw [hstep, hdispatches]
    exact hfollows
  refine h.follow hwhole ?_ ?_ ?_ hnext ?_ hpeer ?_ ?_
  · rw [hstep]
    exact nofun
  · rw [hstep]
    exact nofun
  · rw [hnew]
    rfl
  · rw [hstep, hfed]
    rfl
  · rw [hstep]
    exact List.nil_prefix
  · rw [List.append_nil, hgot]

/-- **What a step of a stream is on the line**: nothing before the handshake, its `sfpConnect`, some
octets that are heard, or an `sfpWritePacket`. -/
theorem Plays.step (h : Plays memory packet d l) (ha : d.Allowed (x, a))
    (hfine : ((d.stream x).step a).reading ≠ .failed) :
    d.step (x, a) = d ∨
      (d.stream x).reading = .start ∧
        Plays memory packet (d.step (x, a)) (l.step octetParty (.request x .connect)) ∨
      (d.stream x).reading ≠ .start ∧
        (∃ k, Plays memory packet (d.step (x, a))
          (run (Link.step octetParty) l (List.replicate k (.deliver x)))) ∨
      (d.stream x).dispatches a ≠ [] ∧
        ∃ stack packet' fits, Plays memory packet (d.step (x, a))
          (l.step octetParty (.request x (.write stack packet' fits))) := by
  by_cases hstart : (d.stream x).reading = .start
  · -- a new object: a handshake begins, or nothing happens
    have hnew := (h.whole x).eq_start hstart
    have hdispatches : (d.stream x).dispatches a = [] := by
      rw [hnew]
      cases a <;> rfl
    have hcases : (d.stream x).step a = d.stream x ∨
        (d.stream x).step a = (Stream.start (memory x) (packet x)).asyncHandshake := by
      have hfails := hfine
      rw [hnew] at hfails ⊢
      revert hfails
      apply Stream.step_start (P := fun s => s.reading ≠ .failed →
        s = Stream.start (memory x) (packet x) ∨
          s = (Stream.start (memory x) (packet x)).asyncHandshake)
      · exact fun _ => .inl rfl
      · exact fun _ => .inr rfl
      · exact fun hfailed => absurd rfl hfailed
    rcases hcases with hsame | hhandshake
    · left
      simp only [Duplex.step, hsame, hdispatches, List.append_nil, Function.update_eq_self]
    · exact .inr (.inl ⟨hstart, h.connects ha.whole hstart hhandshake hdispatches⟩)
  · right; right
    -- behind the handshake: a packet is written, or octets are fed
    cases hop : (d.stream x).dispatching a with
    | some op =>
      have hpayloads : (d.stream x).dispatches a = [op.packet] := by
        rw [Stream.dispatches, hop]
        rfl
      have hfits : Fits op.packet := ha.fits op.packet (by simp [hpayloads])
      refine .inr ⟨?_, op.stack, op.packet, hfits, h.writes ha.whole hfine hstart hop hfits⟩
      rw [hpayloads]
      exact List.cons_ne_nil _ _
    | none =>
      have hdispatches : (d.stream x).dispatches a = [] := by
        rw [Stream.dispatches, hop]
        rfl
      obtain ⟨octets, hoctets, hmoves⟩ := ((h.whole x).reads hstart).moves a hop
      have harrives : (d.stream x).received ++ octets <+: (d.stream x.peer).sfpContext.wire := by
        rcases hoctets with rfl | rfl
        · obtain ⟨fed, hreceived, hpeer, hprefix, -⟩ := h.hears x
          rw [List.append_nil, hreceived, hpeer]
          exact (List.prefix_append_right_inj fed).mpr hprefix
        · -- what the pipe yields the peer has written
          have hoffered := ha.arrives
          rw [(h.whole x.peer).offered (h.fine x.peer)] at hoffered
          exact hoffered
      exact .inl ⟨hstart, h.moves ha.whole hfine hstart hdispatches hmoves harrives⟩

end Steps

/-- Two new streams stand for a new line. -/
theorem plays_start (memory : Side → SFPcontext) (packet : Side → List UInt8) :
    Plays memory packet (.start memory packet)
      (Link.start fun x => (memory x).initWith ⟨true, false, false⟩) where
  whole _ := ⟨[], trivial, rfl⟩
  fine _ := nofun
  mirrors _ :=
    { onWire :=
        { between := SFPcontext.between_initWith _ _
          deliver := rfl
          keeps := fun hopen => absurd rfl hopen }
      between := SFPcontext.between_initWith _ _
      device := rfl }
  hears _ := ⟨[], rfl, rfl, List.nil_prefix, rfl⟩
  wrote _ := rfl

end Contexts

end Libsfp.Asio
