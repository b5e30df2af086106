import Libsfp.Api.Trace

/-!
# The Transmitter Lock

With both lock callbacks set, a context takes the lock and gives it back in turn, whatever it is
fed; everything it does to the transmitter and to the connection state falls in between, and packets
are delivered outside.

The deliver callback may write: here the receiver is given a callback that writes any packets it
likes, depending on all that happened so far, before it returns.
-/

namespace Libsfp

open Lib (run Meets)

section Discipline

variable [SfpConfig]

/-! ## The receiver with a callback that writes -/

/-- The arguments of a call of `sfpWritePacket`. -/
structure Writing where
  stack : Vector UInt8 sfpConfigMaxPacketSize
  packet : List UInt8
  le : packet.length ≤ sfpConfigMaxPacketSize

def Writing.perform (m : Machine) (w : Writing) : Machine :=
  (sfpWritePacket w.stack w.packet w.le m).1

/-- What a deliver callback writes when it is called. -/
abbrev Reply := Machine → List UInt8 → List Writing

/-- The deliver callback that writes nothing. -/
def Reply.none : Reply := fun _ _ => []

/-- A call of the deliver callback. -/
def callDeliver (reply : Reply) (m : Machine) : Machine :=
  let m' := m.emit (.deliver m.ctx.rx.packet.octets)
  (reply m' m.ctx.rx.packet.octets).foldl Writing.perform m'

/-- `sfpHandleUSR`. -/
def sfpHandleUSRWith (reply : Reply) (m : Machine) : Machine × Int :=
  match m.ctx.connectState with
  | .disconnected => (transmitterLock sfpTransmitDIS m, 0)
  | .sentSyn0 => (transmitterLock sfpTransmitSYN0 m, 0)
  | .sentSyn1 => (transmitterLock sfpTransmitSYN1 m, 0)
  | .connected =>
    let m := transmitterLock id m
    if getFrameSeq m.ctx.rx.header ≠ m.ctx.rx.seq then
      if getFrameType m.ctx.rx.header = .usr then
        (transmitterLock (sfpTransmitNAK m.ctx.rx.seq) m, 0)
      else
        (m, 0)
    else
      let m := if m.ctx.rx.deliver then callDeliver reply m else m
      (m.setRxSeq (nextSeq m.ctx.rx.seq), 1)

/-- The dispatch of `sfpHandleFrame`. -/
def dispatchFrameWith (reply : Reply) (m : Machine) : Machine × Int :=
  let m := m.emit (.frameReceived m.ctx.rx.header m.ctx.rx.packet.octets)
  match getFrameType m.ctx.rx.header with
  | .usr => sfpHandleUSRWith reply m
  | .rtx => sfpHandleUSRWith reply m
  | .nak => (transmitterLock sfpHandleNAK m, 0)
  | .syn => (transmitterLock sfpHandleSYN m, 0)

/-- `sfpHandleFrame`. -/
def sfpHandleFrameWith (reply : Reply) (m : Machine) : Machine × Int :=
  if m.ctx.rx.packet.len < sfpCrcSize then
    (transmitterLock (sfpTransmitNAK m.ctx.rx.seq) (m.emit .shortFrame), 0)
  else
    let m := rewindCrc m
    if m.ctx.rx.crc ≠ sfpCrcGood then
      (transmitterLock (sfpTransmitNAK m.ctx.rx.seq) (m.emit .crcMismatch), 0)
    else dispatchFrameWith reply m

/-- What `sfpDeliverOctet` does to the machine: only the end of a frame reaches the callback. -/
def deliverOctetWith (reply : Reply) (octet : UInt8) (m : Machine) : Machine :=
  if sfpFlag = octet ∧ m.ctx.rx.frameState = .receiving then
    sfpResetReceiver (sfpHandleFrameWith reply m).1
  else (sfpDeliverOctet octet none m).1

/-- The machine after a call. -/
def Machine.callWith (reply : Reply) (m : Machine) : Call → Machine
  | .deliver octet _ => deliverOctetWith reply octet m
  | c => m.call c

/-- Without replies this is the receiver as it is. -/
theorem sfpHandleUSRWith_none (m : Machine) : sfpHandleUSRWith .none m = sfpHandleUSR m := rfl

theorem sfpHandleFrameWith_none (m : Machine) : sfpHandleFrameWith .none m = sfpHandleFrame m := rfl

theorem callWith_none (m : Machine) (c : Call) : m.callWith .none c = m.call c := by
  cases c with
  | deliver octet buf =>
    rw [call_deliver]
    show deliverOctetWith .none octet m = _
    unfold deliverOctetWith
    -- the end of a frame, or an octet that never reaches the callback
    split
    next h =>
      rw [sfpHandleFrameWith_none, sfpDeliverOctet, if_pos h.1, h.2]
    next => rfl
  | _ => rfl

/-! ## The discipline -/

/-- What the transmitter lock guards. -/
structure Guarded where
  seq : SFPseq
  history : List SFPpacket
  writebuf : Vector UInt8 sfpConfigWritebufSize
  writebufn : Nat
  connectState : SFPconnectstate

def SFPcontext.guarded (c : SFPcontext) : Guarded :=
  ⟨c.tx.seq, c.tx.history.entries, c.tx.writebuf, c.tx.writebufn, c.connectState⟩

/-- What an observer of the trace knows: whether the lock is held, and what it guarded when it was
last given back. -/
structure LockState where
  held : Bool
  seen : Guarded

namespace LockState

/-- An event moves the observer. -/
def step (s : LockState) (e : Event × SFPcontext) : LockState :=
  match e.1 with
  | .lock => { s with held := true }
  | .unlock => ⟨false, e.2.guarded⟩
  | _ => s

/-- What the discipline allows: the lock is taken only when it is free and given back only when it
is held, writes happen while it is held, deliveries while it is free, no assertion fails; and
whenever the lock is free, what it guards is as it was left. -/
def Allows (s : LockState) (e : Event × SFPcontext) : Prop :=
  match e.1 with
  | .lock => s.held = false ∧ e.2.guarded = s.seen
  | .unlock => s.held = true
  | .write _ => s.held = true
  | .deliver _ => s.held = false ∧ e.2.guarded = s.seen
  | .fault => False
  | _ => s.held = false → e.2.guarded = s.seen

end LockState

/-- The observer of a machine outside the lock. -/
def Machine.free (m : Machine) : LockState := ⟨false, m.ctx.guarded⟩

/-- The lock callbacks are set, and the transmitter is ready. -/
structure Lockable (m : Machine) : Prop where
  ready : m.ctx.tx.Ready
  lock : m.ctx.tx.lock = true
  unlock : m.ctx.tx.unlock = true

/-- `m'` is `m` after something that kept the discipline and left the lock free. -/
structure Keeps (m m' : Machine) : Prop where
  lockable : Lockable m'
  trace : ∃ events, m'.trace = m.trace ++ events ∧
    Meets LockState.step LockState.Allows m.free events ∧
      run LockState.step m.free events = m'.free

namespace Keeps

variable {m m' m'' : Machine}

/-- One scope after another. -/
theorem trans (h : Keeps m m') (h' : Keeps m' m'') : Keeps m m'' where
  lockable := h'.lockable
  trace := by
    obtain ⟨events, htrace, hmeets, hrun⟩ := h.trace
    obtain ⟨events', htrace', hmeets', hrun'⟩ := h'.trace
    refine ⟨events ++ events', ?_, ?_, ?_⟩
    · rw [htrace', htrace, List.append_assoc]
    · rw [Lib.meets_append, hrun]
      exact ⟨hmeets, hmeets'⟩
    · rw [Lib.run_append, hrun, hrun']

/-- A change of the context that leaves the transmitter and the connection state alone. -/
theorem of_trace (hm : Lockable m') (htrace : m'.trace = m.trace)
    (hguarded : m'.ctx.guarded = m.ctx.guarded) : Keeps m m' where
  lockable := hm
  trace := ⟨[], by rw [htrace, List.append_nil], trivial, by
    show m.free = m'.free
    rw [Machine.free, Machine.free, hguarded]⟩

theorem refl (hm : Lockable m) : Keeps m m := of_trace hm rfl rfl

end Keeps

/-- A log line of the receiver. -/
theorem keeps_log {m : Machine} (hm : Lockable m) {e : Event} (he : Machine.isFraming e = true) :
    Keeps m (m.emit e) where
  lockable := ⟨hm.ready, hm.lock, hm.unlock⟩
  trace := by
    refine ⟨[(e, m.ctx)], rfl, ?_⟩
    cases e with
    | frameReceived header octets => exact ⟨⟨fun _ => rfl, trivial⟩, rfl⟩
    | shortFrame => exact ⟨⟨fun _ => rfl, trivial⟩, rfl⟩
    | crcMismatch => exact ⟨⟨fun _ => rfl, trivial⟩, rfl⟩
    | _ => exact absurd he Bool.false_ne_true

/-- The writes of a scope. -/
theorem meets_writes (s : LockState) (hs : s.held = true)
    (writes : List (List UInt8 × SFPcontext)) :
    Meets LockState.step LockState.Allows s (writes.map fun w => (.write w.1, w.2)) ∧
      run LockState.step s (writes.map fun w => (.write w.1, w.2)) = s := by
  induction writes with
  | nil => exact ⟨trivial, rfl⟩
  | cons w writes ih => exact ⟨⟨hs, ih.1⟩, ih.2⟩

/-- **A scope that holds the lock** keeps the discipline, whatever runs inside. -/
theorem keeps_transmitterLock {m : Machine} (hm : Lockable m) (body : Machine → Machine)
    (hbody : ∀ m : Machine, m.ctx.tx.Ready → Inside m (body m)) :
    Keeps m (transmitterLock body m) := by
  -- both callbacks are set, so the lock is really taken
  have hlock : sfpLockTransmitter m = m.emit .lock := by
    simp [sfpLockTransmitter, sfpIsTransmitterLockable, hm.lock, hm.unlock]
  have hinside := hbody (m.emit .lock) hm.ready
  -- the body does not change the callbacks, so it is given back
  have hset : (body (m.emit .lock)).ctx.tx.lock = true := hinside.lock.trans hm.lock
  have hunset : (body (m.emit .lock)).ctx.tx.unlock = true := hinside.unlock.trans hm.unlock
  have hunlock : sfpUnlockTransmitter (body (m.emit .lock))
      = (body (m.emit .lock)).emit .unlock := by
    simp [sfpUnlockTransmitter, sfpIsTransmitterLockable, hset, hunset]
  obtain ⟨writes, hwrites⟩ := hinside.trace
  have hscope : transmitterLock body m = (body (m.emit .lock)).emit .unlock := by
    rw [transmitterLock, hlock, hunlock]
  obtain ⟨hmeets, hrun⟩ := meets_writes ⟨true, m.ctx.guarded⟩ rfl writes
  rw [hscope]
  refine ⟨⟨hinside.ready, hset, hunset⟩, ?_⟩
  -- the events of the scope: one lock, the writes of the body, one unlock
  refine ⟨(.lock, m.ctx) :: (writes.map (fun w => (.write w.1, w.2)) ++
    [(.unlock, (body (m.emit .lock)).ctx)]), ?_, ⟨⟨rfl, rfl⟩, ?_⟩, ?_⟩
  · have hfirst : (m.emit .lock).trace = m.trace ++ [(.lock, m.ctx)] := rfl
    show (body (m.emit .lock)).trace ++ [(.unlock, (body (m.emit .lock)).ctx)] = _
    rw [hwrites, hfirst]
    simp only [List.append_assoc, List.cons_append, List.nil_append]
  · show Meets _ _ (⟨true, m.ctx.guarded⟩ : LockState) _
    rw [Lib.meets_append, hrun]
    exact ⟨hmeets, rfl, trivial⟩
  · show run _ (⟨true, m.ctx.guarded⟩ : LockState) _ = _
    rw [Lib.run_append, hrun]
    rfl

/-! ## Handlers and calls -/

/-- Only the transmitter matters. -/
theorem Lockable.of_tx {m m' : Machine} (hm : Lockable m) (htx : m'.ctx.tx = m.ctx.tx) :
    Lockable m' := by
  refine ⟨?_, ?_, ?_⟩
  · rw [htx]; exact hm.ready
  · rw [htx]; exact hm.lock
  · rw [htx]; exact hm.unlock

/-- A change of the receiver. -/
theorem keeps_of_tx {m m' : Machine} (hm : Lockable m) (htrace : m'.trace = m.trace)
    (htx : m'.ctx.tx = m.ctx.tx) (hstate : m'.ctx.connectState = m.ctx.connectState) :
    Keeps m m' :=
  .of_trace (hm.of_tx htx) htrace (by rw [SFPcontext.guarded, SFPcontext.guarded, htx, hstate])

/-- A writing opens a scope and closes it, -/
theorem keeps_perform {m : Machine} (hm : Lockable m) (w : Writing) :
    Keeps m (Writing.perform m w) :=
  keeps_transmitterLock hm (fun m => (sfpTransmitUSR (.copyIn w.stack w.packet w.le) m).1)
    fun _ hready => inside_sfpTransmitFrameImpl hready _ false

/-- and so does each of several. -/
theorem keeps_foldl_perform (ws : List Writing) {m : Machine} (hm : Lockable m) :
    Keeps m (ws.foldl Writing.perform m) := by
  induction ws generalizing m with
  | nil => exact .refl hm
  | cons w ws ih =>
    have hfirst := keeps_perform hm w
    exact hfirst.trans (ih hfirst.lockable)

/-- The callback is called with the lock free, so it may write. -/
theorem keeps_callDeliver (reply : Reply) {m : Machine} (hm : Lockable m) :
    Keeps m (callDeliver reply m) := by
  have hevent : Keeps m (m.emit (.deliver m.ctx.rx.packet.octets)) := by
    refine ⟨hm.of_tx rfl, [(.deliver m.ctx.rx.packet.octets, m.ctx)], rfl,
      ⟨⟨rfl, rfl⟩, trivial⟩, ?_⟩
    rfl
  exact hevent.trans (keeps_foldl_perform _ hevent.lockable)

/-- A control frame is sent in a scope of its own. -/
theorem keeps_control {m : Machine} (hm : Lockable m) (type : SFPframetype) (seq : SFPseq) :
    Keeps m (transmitterLock (sfpTransmitControl type seq) m) :=
  keeps_transmitterLock hm _ fun _ hready => inside_sfpTransmitControl hready type seq

/-- The deliver callback is called outside all scopes, so its replies open their own. -/
theorem keeps_sfpHandleUSRWith (reply : Reply) {m : Machine} (hm : Lockable m) :
    Keeps m (sfpHandleUSRWith reply m).1 := by
  unfold sfpHandleUSRWith
  cases m.ctx.connectState with
  | disconnected => exact keeps_control hm .syn sfpSeqSynDis
  | sentSyn0 => exact keeps_control hm .syn sfpSeqSyn0
  | sentSyn1 => exact keeps_control hm .syn sfpSeqSyn1
  | connected =>
    -- the lock is taken and given back before the sequence numbers are compared
    have hfirst : Keeps m (transmitterLock id m) :=
      keeps_transmitterLock hm id fun _ hready => .refl hready
    simp only
    split
    · split
      · exact hfirst.trans (keeps_control hfirst.lockable .nak _)
      · exact hfirst
    · split
      · -- the callback runs between the comparison and the next label
        have hdeliver := hfirst.trans (keeps_callDeliver reply hfirst.lockable)
        exact hdeliver.trans (keeps_of_tx hdeliver.lockable rfl rfl rfl)
      · exact hfirst.trans (keeps_of_tx hfirst.lockable rfl rfl rfl)

/-- **Every handler closes the scope that it opened.** -/
theorem keeps_dispatchFrameWith (reply : Reply) {m : Machine} (hm : Lockable m) :
    Keeps m (dispatchFrameWith reply m).1 := by
  have hlog : Keeps m (m.emit (.frameReceived m.ctx.rx.header m.ctx.rx.packet.octets)) :=
    keeps_log hm rfl
  unfold dispatchFrameWith
  simp only
  split
  · exact hlog.trans (keeps_sfpHandleUSRWith reply hlog.lockable)
  · exact hlog.trans (keeps_sfpHandleUSRWith reply hlog.lockable)
  · exact hlog.trans (keeps_transmitterLock hlog.lockable _ fun _ => inside_sfpHandleNAK)
  · exact hlog.trans (keeps_transmitterLock hlog.lockable _ fun _ => inside_sfpHandleSYN)

/-- The `NAK` for a refused frame has its own scope. -/
theorem keeps_sfpHandleFrameWith (reply : Reply) {m : Machine} (hm : Lockable m) :
    Keeps m (sfpHandleFrameWith reply m).1 := by
  unfold sfpHandleFrameWith
  split
  · have hlog : Keeps m (m.emit .shortFrame) := keeps_log hm rfl
    exact hlog.trans (keeps_control hlog.lockable .nak _)
  · have hrewind : Keeps m (rewindCrc m) := keeps_of_tx hm rfl rfl rfl
    simp only
    split
    · have hlog : Keeps m ((rewindCrc m).emit .crcMismatch) :=
        hrewind.trans (keeps_log hrewind.lockable rfl)
      exact hlog.trans (keeps_control hlog.lockable .nak _)
    · exact hrewind.trans (keeps_dispatchFrameWith reply hrewind.lockable)

/-- `sfpConnect` has one as well. -/
theorem keeps_sfpConnect {m : Machine} (hm : Lockable m) : Keeps m (sfpConnect m) := by
  -- the receiver is reset before the lock is taken
  have hreset : Keeps m ((sfpResetReceiver m).setRxSeq sfpInitialSeq) := keeps_of_tx hm rfl rfl rfl
  refine hreset.trans (keeps_transmitterLock hreset.lockable (fun m => (sfpTransmitSYN0
    (sfpClearHistory (m.setTxSeq sfpInitialSeq))).setConnectState .sentSyn0)
    fun _ hready => inside_newSession hready)

/-- **Every call keeps the discipline.** -/
theorem keeps_callWith (reply : Reply) {m : Machine} (hm : Lockable m) (c : Call) :
    Keeps m (m.callWith reply c) := by
  cases c with
  | connect => exact keeps_sfpConnect hm
  | write stack packet le => exact keeps_perform hm ⟨stack, packet, le⟩
  | deliver octet buf =>
    show Keeps m (deliverOctetWith reply octet m)
    unfold deliverOctetWith
    split
    · have hframe := keeps_sfpHandleFrameWith reply hm
      exact hframe.trans (keeps_of_tx hframe.lockable rfl rfl rfl)
    -- any other octet touches the receiver only
    next h =>
      obtain ⟨htrace, htx, hstate, -, -⟩ := sfpDeliverOctet_tacit none h
      exact keeps_of_tx hm htrace htx hstate
  | isConnected => exact .refl hm

/-- Every run of calls keeps the lock in order. -/
theorem keeps_run (reply : Reply) (cs : List Call) {m : Machine} (hm : Lockable m) :
    Keeps m (run (Machine.callWith reply) m cs) := by
  induction cs generalizing m with
  | nil => exact .refl hm
  | cons c cs ih =>
    have hfirst := keeps_callWith reply hm c
    exact hfirst.trans (ih hfirst.lockable)

/-! ## Alternation -/

/-- The calls of the lock callbacks. -/
def lockCall : Event → Option Bool
  | .lock => some true
  | .unlock => some false
  | _ => none

/-- The lock callbacks called so far, `true` for a lock. -/
def Machine.lockCalls (m : Machine) : List Bool :=
  m.trace.filterMap fun e => lockCall e.1

/-- What the discipline allows alternates. -/
theorem alternates_of_meets (events : List (Event × SFPcontext)) {s : LockState}
    (hmeets : Meets LockState.step LockState.Allows s events)
    (hfree : (run LockState.step s events).held = false) :
    ∃ n, events.filterMap (fun e => lockCall e.1)
      = (if s.held then [false] else []) ++ (List.replicate n [true, false]).flatten := by
  induction events generalizing s with
  | nil =>
    have hs : s.held = false := hfree
    exact ⟨0, by simp [hs]⟩
  | cons e events ih =>
    obtain ⟨hallow, hrest⟩ := hmeets
    obtain ⟨n, hn⟩ := ih hrest hfree
    obtain ⟨event, c⟩ := e
    rw [List.filterMap_cons, hn]
    cases event with
    | lock => exact ⟨n + 1, by simp [LockState.step, hallow.1, lockCall, List.replicate_succ]⟩
    -- an unlock closes what was open on entry
    | unlock =>
      have hheld : s.held = true := hallow
      exact ⟨n, by simp [LockState.step, hheld, lockCall]⟩
    -- no other event counts
    | _ => exact ⟨n, rfl⟩

/-- **Lock discipline**: over any sequence of calls, with any callback that writes, the trace is one
that the discipline allows and that leaves the lock free, with what it guards as it was given back;
so the lock callbacks are called in turn, and balanced after each call. -/
theorem lock_discipline (reply : Reply) (deliver : Bool) (memory : SFPcontext) (cs : List Call) :
    let start := Machine.of (memory.initWith ⟨deliver, true, true⟩)
    let m := run (Machine.callWith reply) start cs
    Meets LockState.step LockState.Allows start.free m.trace ∧
      run LockState.step start.free m.trace = m.free ∧
      ∃ n, m.lockCalls = (List.replicate n [true, false]).flatten := by
  intro start m
  have hstart : Lockable start := ⟨⟨rfl, Nat.zero_le _⟩, rfl, rfl⟩
  obtain ⟨events, htrace, hmeets, hrun⟩ := (keeps_run reply cs hstart).trace
  have htrace : m.trace = events := htrace
  have hfree : (run LockState.step start.free events).held = false := congrArg LockState.held hrun
  rw [Machine.lockCalls, htrace]
  exact ⟨hmeets, hrun, alternates_of_meets events hmeets hfree⟩

end Discipline

end Libsfp
