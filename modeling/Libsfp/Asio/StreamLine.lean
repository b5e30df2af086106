import Libsfp.Asio.StreamWrites
import Libsfp.Session.Streaming

/-!
# The Context of a Stream on an Octet Line

The contexts of an octet line have a deliver callback. The context of a stream has none: what
`async_read` returns comes from the packet that `sfpDeliverOctet` copies out. Nothing else differs
(`Mirrors`), and so a line can follow the context of a stream call by call (`Follows`).

A step of a stream calls `sfpConnect` or `sfpWritePacket` once, or feeds some octets of its read
buffer to the context, or leaves the context alone (`Reads.moves`).
-/

namespace Libsfp.Asio

open Lib (Side Link run)

section Contexts

variable [SfpConfig]

/-! ## With and without a callback -/

/-- Somebody is told. -/
def attended (d : Device) : Device := { d with deliver := true }

/-- `c'`, on the line, is `c` with a deliver callback. -/
structure Mirrors (c' c : SFPcontext) : Prop where
  onWire : c'.OnWire
  between : c.Between
  device : c'.device = attended c.device

namespace Mirrors

variable {c c' : SFPcontext}

/-- The endpoints are the same, -/
theorem abs (h : Mirrors c' c) : c'.abs = c.abs := congrArg Device.endpoint h.device

/-- and a call means the same to both. -/
theorem input (h : Mirrors c' c) (call : Call) : call.input c' = call.input c := by
  rw [← input_device, ← input_device, h.device]
  rfl

end Mirrors

/-- A context goes on as its device does. -/
theorem device_call {m : Machine} (hm : m.ctx.Between) (call : Call) :
    (m.call call).ctx.device = (device sfpConfigHistoryCapacity sfpConfigMaxPacketSize).next
      m.ctx.device call.command :=
  (simulates_device.next (i := call) ⟨hm, rfl⟩).2

/-- **The callback changes nothing else.** -/
theorem mirrors_call {c' : SFPcontext} {m : Machine} (h : Mirrors c' m.ctx) (call : Call)
    (hcall : ∀ p ∈ call.packets, Fits p) :
    let o := ((Machine.of c').call call).octetOutcome
    Mirrors o.node (m.call call).ctx ∧ (m.call call).wire = m.wire ++ o.sent ∧
      o.got = (m.ctx.abs.react sfpConfigHistoryCapacity (call.input m.ctx)).got := by
  intro o
  have hsounds := sounds_call h.onWire call hcall
  have hserves := serves_call h.between call
  have hdevice : ((Machine.of c').call call).ctx.device
      = (device sfpConfigHistoryCapacity sfpConfigMaxPacketSize).next c'.device call.command :=
    device_call (m := .of c') h.onWire.between call
  rw [h.abs, h.input] at hsounds
  refine ⟨⟨hsounds.onWire, hserves.between, ?_⟩, ?_, hsounds.got⟩
  · show ((Machine.of c').call call).ctx.device = _
    -- both devices go on alike but for who is told
    rw [hdevice, h.device, device_call h.between]
    cases call <;> rfl
  · rw [hserves.wire, hsounds.sent]

/-! ## What is copied out -/

/-- What is copied out of the context is what the endpoint takes, but for empty packets. -/
theorem message_sfpDeliverOctet {m : Machine} (hm : m.ctx.Between) (octet : UInt8) :
    (sfpDeliverOctet octet (some sfpConfigMaxPacketSize) m).2.message
      = (m.ctx.abs.react sfpConfigHistoryCapacity
          ((Call.deliver octet none).input m.ctx)).got.filter (· ≠ []) := by
  -- the device says what is handed back, the endpoint what is taken
  have hback := snd_sfpDeliverOctet hm octet (some sfpConfigMaxPacketSize)
  rw [react_deliver]
  have hone := Endpoint.length_got_receive m.ctx.abs
    (if sfpFlag = octet then (verdict m.ctx.content).toFrame else .silent)
  generalize (m.ctx.abs.receive
    (if sfpFlag = octet then (verdict m.ctx.content).toFrame else .silent)).got = got
    at hback hone
  cases got with
  | nil =>
    rw [hback]
    rfl
  | cons packet more =>
    -- an octet completes one frame at most
    have hmore : more = [] := by simpa using hone
    subst hmore
    -- the buffer has room for every packet
    rcases Stream.sfpDeliverOctet_result hm octet with hnone | ⟨copied, hcopied⟩
    · rw [hnone, Device.handBack] at hback
      split at hback <;> simp at hback
    · rw [hcopied] at hback ⊢
      rw [Device.handBack] at hback
      split at hback
      · simp at hback
      · have hpacket : copied = packet := by simpa using hback
        subst hpacket
        rfl

/-! ## The line follows a side -/

/-- The line goes on from `l` to `l'` as the context of `x` goes on from `m` to `m'`: `rest` is left
on its way to `x`, `payloads` were written and `heard` was copied out. -/
structure Follows (l l' : OctetLine) (x : Side) (m m' : Machine) (rest : List UInt8)
    (payloads heard : List (List UInt8)) : Prop where
  mirrors : Mirrors (l'.node x) m'.ctx
  peer : l'.node x.peer = l.node x.peer
  messages : l'.messages x = rest
  sent : ∃ sent, m'.wire = m.wire ++ sent ∧ l'.messages x.peer = l.messages x.peer ++ sent
  wrote : l'.wrote x = l.wrote x ++ payloads
  wrotePeer : l'.wrote x.peer = l.wrote x.peer
  got : (l'.got x).filter (· ≠ []) = (l.got x).filter (· ≠ []) ++ heard
  gotPeer : l'.got x.peer = l.got x.peer

variable {l l' l'' : OctetLine} {x : Side} {m m' m'' : Machine}

/-- The line stays where it is. -/
theorem Follows.refl (h : Mirrors (l.node x) m.ctx) : Follows l l x m m (l.messages x) [] [] where
  mirrors := h
  peer := rfl
  messages := rfl
  sent := ⟨[], (List.append_nil _).symm, (List.append_nil _).symm⟩
  wrote := (List.append_nil _).symm
  wrotePeer := rfl
  got := (List.append_nil _).symm
  gotPeer := rfl

/-- One after the other. -/
theorem Follows.trans {rest rest' : List UInt8}
    {payloads payloads' heard heard' : List (List UInt8)}
    (h : Follows l l' x m m' rest payloads heard)
    (h' : Follows l' l'' x m' m'' rest' payloads' heard') :
    Follows l l'' x m m'' rest' (payloads ++ payloads') (heard ++ heard') where
  mirrors := h'.mirrors
  peer := h'.peer.trans h.peer
  messages := h'.messages
  sent := by
    obtain ⟨sent, hwire, hmessages⟩ := h.sent
    obtain ⟨sent', hwire', hmessages'⟩ := h'.sent
    refine ⟨sent ++ sent', ?_, ?_⟩
    · rw [hwire', hwire, List.append_assoc]
    · rw [hmessages', hmessages, List.append_assoc]
  wrote := by rw [h'.wrote, h.wrote, List.append_assoc]
  wrotePeer := h'.wrotePeer.trans h.wrotePeer
  got := by rw [h'.got, h.got, List.append_assoc]
  gotPeer := h'.gotPeer.trans h.gotPeer

/-- `sfpConnect` and `sfpWritePacket` are requests. -/
theorem follows_request (h : Mirrors (l.node x) m.ctx) (r : Request) :
    Follows l (l.step octetParty (.request x r)) x m (m.call r.call) (l.messages x)
      (Request.written r) [] := by
  obtain ⟨hmirrors, hwire, hgot⟩ := mirrors_call h r.call r.fits_call
  have hacts := Link.acts_request octetParty l x r
  obtain ⟨hwrote, hwrotePeer⟩ := Link.wrote_request octetParty l x r
  obtain ⟨hgot', hgotPeer⟩ := Link.got_request octetParty l x r
  -- a request delivers nothing
  have hnone : (octetParty.request (l.node x) r).got = [] := by
    refine Eq.trans hgot ?_
    cases r <;> rfl
  refine ⟨?_, hacts.node_peer, hacts.messages, ⟨_, hwire, hacts.messages_peer⟩, hwrote, hwrotePeer,
    ?_, hgotPeer⟩
  · rw [hacts.node]
    exact hmirrors
  · rw [hgot', hnone, List.append_nil, List.append_nil]

/-- An octet is heard. -/
theorem follows_hear (h : Mirrors (l.node x) m.ctx) {octet : UInt8} {rest : List UInt8}
    (hmessages : l.messages x = octet :: rest) :
    Follows l (l.step octetParty (.deliver x)) x m (sfpDeliverOctet octet none m).1 rest []
      (sfpDeliverOctet octet (some sfpConfigMaxPacketSize) m).2.message := by
  obtain ⟨hmirrors, hwire, hgot⟩ := mirrors_call h (.deliver octet none) (by simp [Call.packets])
  have hacts := Link.acts_deliver octetParty hmessages
  obtain ⟨hgot', hgotPeer⟩ := Link.got_deliver octetParty hmessages
  have hwrote := Link.wrote_deliver octetParty l x
  have hheard : (octetParty.hear (l.node x) octet).got
      = (m.ctx.abs.react sfpConfigHistoryCapacity
          ((Call.deliver octet none).input m.ctx)).got := hgot
  rw [call_deliver] at hmirrors hwire
  refine ⟨?_, hacts.node_peer, hacts.messages, ⟨_, hwire, hacts.messages_peer⟩, ?_, hwrote _, ?_,
    hgotPeer⟩
  · rw [hacts.node]
    exact hmirrors
  · rw [hwrote, List.append_nil]
  · rw [hgot', List.filter_append, message_sfpDeliverOctet h.between, hheard]

/-- **Octets are heard** one after the other. -/
theorem follows_feed (octets : List UInt8) {l : OctetLine} {m : Machine}
    (h : Mirrors (l.node x) m.ctx) {rest : List UInt8} (hmessages : l.messages x = octets ++ rest) :
    Follows l (run (Link.step octetParty) l (List.replicate octets.length (.deliver x))) x m
      (deliverOctets octets m) rest [] (deliveries octets m) := by
  induction octets generalizing l m with
  | nil =>
    have hrest : l.messages x = rest := hmessages
    have hrefl := Follows.refl h
    rw [hrest] at hrefl
    exact hrefl
  | cons octet octets ih =>
    -- the first octet, then the rest by induction
    have hfirst := follows_hear h hmessages
    have hrest := ih hfirst.mirrors hfirst.messages
    rw [deliveries_cons, deliverOctets_cons]
    exact hfirst.trans hrest

/-! ## What a stream hears -/

namespace Stream

/-- `s'` is `s` after `octets` were read and some of those in the read buffer were delivered. -/
structure Moves (s s' : Stream) (octets : List UInt8) : Prop where
  received : s'.received = s.received ++ octets
  fed : ∃ fed, s.readBuffer ++ octets = fed ++ s'.readBuffer ∧
    s'.sfpContext = deliverOctets fed s.sfpContext

/-- `s'` has heard and read what `s` has. -/
structure Stays (s s' : Stream) : Prop where
  sfpContext : s'.sfpContext = s.sfpContext
  readBuffer : s'.readBuffer = s.readBuffer
  received : s'.received = s.received

variable {s s' s'' : Stream}

theorem Moves.stays {octets : List UInt8} (h : Moves s s' octets) (h' : Stays s' s'') :
    Moves s s'' octets := by
  obtain ⟨fed, hsplit, hcontext⟩ := h.fed
  refine ⟨h'.received.trans h.received, fed, ?_, h'.sfpContext.trans hcontext⟩
  rw [hsplit, h'.readBuffer]

theorem Stays.moves (h : Stays s s') : Moves s s' [] := by
  refine ⟨h.received.trans (List.append_nil _).symm, [], ?_, h.sfpContext⟩
  rw [h.readBuffer, List.append_nil, List.nil_append]

/-- An empty read buffer may as well be consumed. -/
theorem stays_consumeRead (hempty : s.readBuffer = []) (reading : Reading) :
    Stays s { s.consumeRead with reading := reading } :=
  ⟨rfl, hempty.symm, rfl⟩

/-- The handshake returns. -/
theorem stays_settleDone (timedOut : Bool) : Stays s (s.settleDone timedOut) := by
  unfold settleDone
  split
  · exact ⟨rfl, rfl, rfl⟩
  · exact ⟨rfl, rfl, rfl⟩

/-- A loop that goes on has nothing in its read buffer. -/
theorem stays_settleLoop (hempty : s.sfpPacket = [] → s.readBuffer = []) :
    Stays s s.settleLoop := by
  unfold settleLoop
  split
  · rename_i hnone
    -- no message yet: it reads on
    exact stays_consumeRead (hempty hnone) .settleRead
  · exact stays_settleDone false

/-- The settle phase begins. -/
theorem stays_afterConnected (hempty : s.sfpPacket = [] → s.readBuffer = []) :
    Stays s s.afterConnected := by
  unfold afterConnected
  split
  · have hloop := stays_settleLoop
      (s := { s with fault := s.fault || !s.readBuffer.isEmpty }) hempty
    exact ⟨hloop.sfpContext, hloop.readBuffer, hloop.received⟩
  · exact ⟨rfl, rfl, rfl⟩

/-- The handshake waits for octets, or goes on to settle. -/
theorem stays_connectLoop (hempty : s.sfpPacket = [] → s.readBuffer = [])
    (hnone : s.connected = false → s.sfpPacket = []) : Stays s s.connectLoop := by
  unfold connectLoop
  split
  · exact stays_afterConnected hempty
  · rename_i hnot
    exact stays_consumeRead (hempty (hnone (Bool.eq_false_iff.mpr hnot))) .connectRead

/-- `async_read` waits for octets when it has no packet. -/
theorem stays_readLoop (hempty : s.sfpPacket = [] → s.readBuffer = []) : Stays s s.readLoop := by
  unfold readLoop
  split
  · rename_i hnone
    exact stays_consumeRead (hempty hnone) .readSome
  · exact ⟨rfl, rfl, rfl⟩

/-- The loop feeds octets up to a packet. -/
theorem moves_deliverInputSequence (hs : s.sfpContext.ctx.Between) :
    Moves s s.deliverInputSequence [] := by
  obtain ⟨fed, hsplit, hmachine, -⟩ := (deliverLoop_spec s.readBuffer hs).split
  refine ⟨(List.append_nil _).symm, fed, ?_, hmachine⟩
  rw [List.append_nil]
  exact hsplit

/-- What was read goes to the back of the buffer, then the loop runs. -/
theorem moves_commitRead (hs : s.sfpContext.ctx.Between) (octets : List UInt8) :
    Moves s (s.commitRead octets).deliverInputSequence octets := by
  obtain ⟨hreceived, fed, hsplit, hcontext⟩ :=
    moves_deliverInputSequence (s := s.commitRead octets) hs
  refine ⟨hreceived.trans (List.append_nil _), fed, ?_, hcontext⟩
  rw [← hsplit, List.append_nil]
  rfl

/-- The `write_op` that the phaser lets go on. -/
def dispatching (s : Stream) : Action → Option WriteOp
  | .dispatchWrite i => if s.reading.shaken ∧ s.Free then s.waiting[i]? else none
  | _ => none

/-- A write that is dispatched is one that waited. -/
theorem step_dispatching {a : Action} {op : WriteOp} (h : s.dispatching a = some op) :
    ∃ waiting, s.step a = { s with waiting }.dispatchWrite op := by
  cases a with
  | dispatchWrite i =>
    simp only [dispatching] at h
    split at h
    · rename_i hfree
      refine ⟨s.waiting.eraseIdx i, ?_⟩
      simp only [step, h, hfree, and_self, if_true]
    · cases h
  | _ => cases h

variable {m₀ : Machine}

theorem Reads.moves_readStep (h : s.Reads m₀) (octets : List UInt8) :
    Moves s (s.readStep octets) octets ∨ Stays s (s.readStep octets) := by
  unfold Reads at h
  unfold Stream.readStep
  cases hreading : s.reading with
  | connectRead =>
    rw [hreading] at h
    -- the handshake feeds what it reads
    exact .inl ((moves_commitRead h.1.between octets).stays ⟨rfl, rfl, rfl⟩)
  | settleRead =>
    rw [hreading] at h
    exact .inl ((moves_commitRead h.1.between octets).stays ⟨rfl, rfl, rfl⟩)
  -- `async_read` feeds it when it is dispatched
  | readSome => exact .inl ⟨rfl, [], rfl, rfl⟩
  | start | handshakeWrite | connectWrite | settleWrite | idle | dispatch | flush | failed =>
    exact .inr ⟨rfl, rfl, rfl⟩

theorem Reads.stays_writeStep (h : s.Reads m₀) : Stays s s.writeStep := by
  unfold Reads at h
  unfold Stream.writeStep
  cases hreading : s.reading with
  | handshakeWrite =>
    rw [hreading] at h
    -- not connected yet: it reads
    have hloop : s.endWrite.connectLoop
        = { s.endWrite.consumeRead with reading := .connectRead } :=
      if_neg (show ¬ s.connected = true by rw [h.2.2]; exact Bool.false_ne_true)
    have hstays := stays_consumeRead (s := s.endWrite) h.2.1 .connectRead
    simp only [hloop]
    exact ⟨hstays.sfpContext, hstays.readBuffer, hstays.received⟩
  -- a parked message is one of a connected context
  | connectWrite =>
    rw [hreading] at h
    have hloop := stays_connectLoop (s := s.endWrite) h.2.all fun hnot => by
      by_contra hsome
      exact Bool.false_ne_true (hnot.symm.trans (h.2.connected hsome))
    exact ⟨hloop.sfpContext, hloop.readBuffer, hloop.received⟩
  | settleWrite =>
    rw [hreading] at h
    have hloop := stays_settleLoop (s := s.endWrite) h.2.all
    exact ⟨hloop.sfpContext, hloop.readBuffer, hloop.received⟩
  | flush =>
    rw [hreading] at h
    have hloop := stays_readLoop (s := s.endWrite) h.2
    exact ⟨hloop.sfpContext, hloop.readBuffer, hloop.received⟩
  | start | connectRead | settleRead | idle | readSome | dispatch | failed => exact ⟨rfl, rfl, rfl⟩

/-- The settle timer fires. -/
theorem stays_timeoutStep (transferred : Nat) : Stays s (s.timeoutStep transferred) := by
  unfold timeoutStep
  cases s.reading with
  | settleRead => exact stays_settleDone true
  | settleWrite =>
    have hdone := stays_settleDone
      (s := { s with transferred := s.transferred ++ s.readerData.take transferred }) true
    exact ⟨hdone.sfpContext, hdone.readBuffer, hdone.received⟩
  | start | handshakeWrite | connectRead | connectWrite | idle | readSome | dispatch | flush
  | failed => exact ⟨rfl, rfl, rfl⟩

theorem stays_asyncRead : Stays s s.asyncRead := by
  unfold asyncRead
  split
  · exact ⟨rfl, rfl, rfl⟩
  · rename_i hleft
    apply stays_readLoop
    intro hnone
    by_contra hsome
    exact hleft ⟨hnone, hsome⟩

theorem Reads.moves_dispatchRead (h : s.Reads m₀) (hreading : s.reading = .dispatch) :
    Moves s s.dispatchRead [] := by
  unfold Reads at h
  rw [hreading] at h
  have hmoves := moves_deliverInputSequence h.1.between
  have hspec := deliverLoop_spec s.readBuffer h.1.between
  unfold Stream.dispatchRead
  simp only
  split
  · exact hmoves.stays ⟨rfl, rfl, rfl⟩
  · exact hmoves.stays (stays_readLoop hspec.all)

/-- **What a step does to the context**: octets of the read buffer are delivered, unless the
handshake begins or the phaser lets a `write_op` go on. -/
theorem Reads.moves (h : s.Reads m₀) (a : Action) (hnone : s.dispatching a = none) :
    ∃ octets, (octets = [] ∨ a = .readDone octets) ∧ Moves s (s.step a) octets := by
  have hstays : ∀ {s' : Stream}, Stays s s' →
      ∃ octets, (octets = [] ∨ a = .readDone octets) ∧ Moves s s' octets :=
    fun hs => ⟨[], .inl rfl, hs.moves⟩
  have hsame := hstays ⟨rfl, rfl, rfl⟩
  unfold Stream.step
  cases a with
  | asyncHandshake =>
    have hbegun := h.begun
    simp only [hbegun, if_false]
    exact hsame
  | asyncRead =>
    simp only
    split
    · exact hstays stays_asyncRead
    · exact hsame
  | asyncWrite op =>
    simp only
    split
    · exact hstays ⟨rfl, rfl, rfl⟩
    · exact hsame
  | readDone octets =>
    simp only
    split
    · rcases h.moves_readStep octets with hmoves | hs
      · exact ⟨octets, .inr rfl, hmoves⟩
      · exact hstays hs
    · exact hsame
  | writeDone => exact hstays h.stays_writeStep
  | settleTimeout transferred => exact hstays (stays_timeoutStep transferred)
  | dispatchRead =>
    simp only
    split
    · rename_i hdispatch
      exact ⟨[], .inl rfl, h.moves_dispatchRead hdispatch.1⟩
    · exact hsame
  | dispatchWrite i =>
    simp only [dispatching] at hnone
    simp only
    split
    · rename_i op hop
      split
      · rename_i hfree
        rw [if_pos hfree, hop] at hnone
        cases hnone
      · exact hsame
    · exact hsame
  | writeOpDone =>
    simp only
    split
    · split
      · exact hstays ⟨rfl, rfl, rfl⟩
      · exact hsame
    · exact hsame
  | fails => exact hstays ⟨rfl, rfl, rfl⟩

end Stream

end Contexts

end Libsfp.Asio
