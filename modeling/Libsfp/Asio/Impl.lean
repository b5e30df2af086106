import Libsfp.Asio.Flow
import Libsfp.Session.Echo

/-!
# A Message Queue and its Context

`MessageQueueImpl` with `mContext`, behind a completed handshake and without errors. `asyncSend`
passes the message to `sfpWritePacket`; `handleRead` passes each octet to `sfpDeliverOctet`, whose
deliver callback hands a message to a receive that waits. The handler of that receive runs while
`sfpDeliverOctet` has not returned, and may send and receive.

`behind` is the context as it will be when the callback has returned. It changes by whole calls of
`sfpWritePacket` and `sfpDeliverOctet`, whatever the handlers do (`Steady.step`).
-/

namespace Libsfp.Asio

open Lib (run)

section Contexts

variable [SfpConfig] [Lib.ProducerConsumer Nat (List UInt8)]

structure MessageQueueImpl where
  queue : MessageQueue
  mContext : Machine
  /-- The deliver callback has been called and has not returned. -/
  inCallback : Bool
  /-- The octets of the last read that have not been passed to `sfpDeliverOctet` yet. -/
  buf : List UInt8
  /-- What an observer sees: the octets read, -/
  received : List UInt8
  /-- the messages passed to `sfpWritePacket`, -/
  sent : List (List UInt8)
  /-- and what happened to `mReceiveQueue`. -/
  dealt : List Deal

/-- What happens to a queue with its context. -/
inductive ImplAction where
  | asyncSend (message : Letter) (id : Nat)
  | asyncReceive (id : Nat)
  /-- The handler that is running returns. -/
  | handlerReturns
  /-- The `async_read_some` completes with these octets. -/
  | readDone (octets : List UInt8)
  /-- `handleRead` passes the next octet on. -/
  | octet
  /-- All octets are passed on. -/
  | octetsDone
  /-- The `async_write` completes. -/
  | writeDone
  | resume

namespace MessageQueueImpl

/-- A queue whose handshake is complete, with a context. -/
def connected (c : SFPcontext) : MessageQueueImpl where
  queue := { MessageQueue.init with
    isOpen := true, mHandshakeComplete := true, mReadPumpRunning := true, reads := 1 }
  mContext := .of c
  inCallback := false
  buf := []
  received := []
  sent := []
  dealt := []

/-- What happens to the queue. -/
def act (a : Action) (n : MessageQueueImpl) : MessageQueueImpl :=
  { n with queue := n.queue.step a, dealt := n.dealt ++ n.queue.deals a }

/-- The callback returns as soon as control is back in the loop of `handleRead`. -/
def leaveCallback (n : MessageQueueImpl) : MessageQueueImpl :=
  if n.inCallback = true ∧ n.queue.stack.head? = some .octets then
    { n with mContext := afterCallback n.mContext, inCallback := false }
  else n

/-- `asyncSend` is called, and finds no error. -/
def Sends (n : MessageQueueImpl) : Prop :=
  n.queue.UserRuns ∧ n.queue.mHandshakeComplete = true ∧ n.queue.getReadPumpError.1 = none

instance (n : MessageQueueImpl) : Decidable n.Sends := inferInstanceAs (Decidable (_ ∧ _ ∧ _))

/-- The octets that the context passed to `writeCallback` on the way from `m` to `m'`. -/
def written (m m' : Machine) : List UInt8 := m'.wire.drop m.wire.length

/-- `sfpWritePacket` is called. -/
def send (message : Letter) (id : Nat) (n : MessageQueueImpl) : MessageQueueImpl :=
  let m := Writing.perform n.mContext message.1
  act (.asyncSend (written n.mContext m) id)
    { n with mContext := m, sent := n.sent ++ [message.packet] }

/-- `sfpDeliverOctet` is called, up to the end of the callback if a handler runs in it. -/
def hear (octet : UInt8) (n : MessageQueueImpl) : MessageQueueImpl :=
  if n.mContext.ctx.Delivers octet ∧ n.mContext.ctx.rx.deliver = true then
    let m := n.mContext.atCallback
    act (.delivered m.ctx.rx.packet.octets) { n with mContext := m, inCallback := true }
  else
    let m := n.mContext.call (.deliver octet none)
    act (.written (written n.mContext m)) { n with mContext := m }

def advance (n : MessageQueueImpl) : ImplAction → MessageQueueImpl
  | .asyncSend message id => if n.Sends then n.send message id else n.act (.asyncSend [] id)
  | .asyncReceive id => n.act (.asyncReceive id)
  | .handlerReturns => n.act .handlerReturns
  | .readDone octets =>
    if n.queue.stack = [] ∧ n.queue.reads ≠ 0 then
      act (.readDone none) { n with buf := octets, received := n.received ++ octets }
    else n
  | .octet =>
    match n.queue.stack, n.buf with
    | .octets :: _, octet :: rest => hear octet { n with buf := rest }
    | _, _ => n
  | .octetsDone => if n.buf = [] then n.act .octetsDone else n
  | .writeDone => n.act (.writeDone 0 none)
  | .resume => n.act .resume

def step (n : MessageQueueImpl) (a : ImplAction) : MessageQueueImpl := (n.advance a).leaveCallback

/-- The context when the callback will have returned. -/
def behind (n : MessageQueueImpl) : Machine :=
  if n.inCallback then afterCallback n.mContext else n.mContext

/-- A handler that `handleWrite` has called sends onto the empty outbox. -/
def Chains (n : MessageQueueImpl) : ImplAction → Prop
  | .asyncSend _ _ => n.queue.pumping = true ∧ n.queue.mOutbox = []
  | _ => False

instance (n : MessageQueueImpl) : DecidablePred n.Chains
  | .asyncSend _ _ => inferInstanceAs (Decidable (_ ∧ _))
  | .asyncReceive _ | .handlerReturns | .readDone _ | .octet | .octetsDone | .writeDone
  | .resume => inferInstanceAs (Decidable False)

/-! ## The invariant -/

/-- The queue accounts for what the context did, and the context is in order behind the callback. -/
structure Steady (n : MessageQueueImpl) : Prop where
  coupled : n.queue.Coupled n.dealt n.mContext.wire n.mContext.delivered
  between : n.behind.ctx.Between
  deliver : n.behind.ctx.rx.deliver = true
  reading : n.buf ≠ [] ∨ n.inCallback = true → Frame.octets ∈ n.queue.stack

/-- A callback that has not returned has a handler that is running. -/
def Waits (n : MessageQueueImpl) : Prop :=
  n.inCallback = true → n.queue.stack.head? ≠ some .octets

variable {n n' : MessageQueueImpl}

/-- The rest of the callback writes nothing. -/
theorem wire_behind (n : MessageQueueImpl) : n.behind.wire = n.mContext.wire := by
  unfold behind
  split <;> rfl

/-- The rest of the callback delivers nothing. -/
theorem delivered_behind (n : MessageQueueImpl) : n.behind.delivered = n.mContext.delivered := by
  unfold behind
  split <;> rfl

/-- Behind the callback nothing changes when it returns. -/
theorem behind_leaveCallback (n : MessageQueueImpl) : n.leaveCallback.behind = n.behind := by
  unfold leaveCallback
  split
  · rename_i h
    rw [behind, behind, if_neg Bool.false_ne_true, if_pos h.1]
  · rfl

theorem Steady.leaveCallback (h : n.Steady) : n.leaveCallback.Steady ∧ n.leaveCallback.Waits := by
  have hbehind := n.behind_leaveCallback
  have hbetween := h.between
  have hdeliver := h.deliver
  rw [← hbehind] at hbetween hdeliver
  revert hbetween hdeliver
  unfold MessageQueueImpl.leaveCallback
  split
  · intro hbetween hdeliver
    -- the callback returns: only the loop keeps the frame needed
    refine ⟨⟨h.coupled, hbetween, hdeliver, ?_⟩, nofun⟩
    rintro (hbuf | hnever)
    · exact h.reading (.inl hbuf)
    · cases hnever
  · rename_i hstays
    intro hbetween hdeliver
    exact ⟨h, fun hin hhead => hstays ⟨hin, hhead⟩⟩

/-- The queue acts, and its context does what the queue accounts for. -/
theorem Steady.act (h : n.Steady) (n' : MessageQueueImpl) {a : Action} (ha : a.Quiet)
    (hchain : ¬ n.queue.Chained a)
    (hbehind : n'.behind.ctx.Between ∧ n'.behind.ctx.rx.deliver = true)
    (hqueue : n'.queue = n.queue ∧ n'.dealt = n.dealt)
    (hwire : n'.mContext.wire = n.mContext.wire ++ n.queue.pours a)
    (hdelivered : n'.mContext.delivered = n.mContext.delivered ++ n.queue.brings a)
    (hreading : n'.buf ≠ [] ∨ n'.inCallback = true → Frame.octets ∈ (n.queue.step a).stack) :
    (n'.act a).Steady where
  coupled := by
    show (n'.queue.step a).Coupled (n'.dealt ++ n'.queue.deals a) n'.mContext.wire
      n'.mContext.delivered
    rw [hqueue.1, hqueue.2, hwire, hdelivered]
    exact h.coupled.step ha hchain
  between := hbehind.1
  deliver := hbehind.2
  reading := by
    show _ → Frame.octets ∈ (n'.queue.step a).stack
    rw [hqueue.1]
    exact hreading

/-! ## Steps -/

/-- The context is left alone; some octets are read. -/
structure Idles (n n' : MessageQueueImpl) (octets : List UInt8) : Prop where
  behind : n'.behind = n.behind
  sent : n'.sent = n.sent
  received : n'.received = n.received ++ octets
  buf : n'.buf = n.buf ++ octets

/-- A message is passed to `sfpWritePacket`. -/
structure Asks (n n' : MessageQueueImpl) (message : Letter) : Prop where
  behind : SameCourse n'.behind (n.behind.call message.toRequest.call)
  sent : n'.sent = n.sent ++ [message.packet]
  received : n'.received = n.received
  buf : n'.buf = n.buf

/-- An octet is passed to `sfpDeliverOctet`. -/
structure Takes (n n' : MessageQueueImpl) (octet : UInt8) : Prop where
  behind : SameCourse n'.behind (n.behind.call (.deliver octet none))
  sent : n'.sent = n.sent
  received : n'.received = n.received
  buf : n.buf = octet :: n'.buf

/-- What an action does to the context. -/
def Course (n n' : MessageQueueImpl) (a : ImplAction) : Prop :=
  (∃ octets, Idles n n' octets ∧ (octets = [] ∨ a = .readDone octets)) ∨
    (∃ message, Asks n n' message) ∨ ∃ octet, Takes n n' octet

/-- The callback returns; what was read and sent is as it was. -/
theorem leaveCallback_keeps (n : MessageQueueImpl) : n.leaveCallback.sent = n.sent ∧
    n.leaveCallback.received = n.received ∧ n.leaveCallback.buf = n.buf := by
  unfold leaveCallback
  split <;> exact ⟨rfl, rfl, rfl⟩

/-- To leave the callback makes no difference behind it. -/
theorem Course.leaveCallback {a : ImplAction} (h : Course n n' a) :
    Course n n'.leaveCallback a := by
  have hbehind := n'.behind_leaveCallback
  obtain ⟨hsent, hreceived, hbuf⟩ := n'.leaveCallback_keeps
  -- each clause speaks of the context behind the callback
  rcases h with ⟨octets, hidles, hoctets⟩ | ⟨message, hasks⟩ | ⟨octet, htakes⟩
  · exact .inl ⟨octets, ⟨hbehind.trans hidles.behind, hsent.trans hidles.sent,
      hreceived.trans hidles.received, hbuf.trans hidles.buf⟩, hoctets⟩
  · refine .inr (.inl ⟨message, ?_, hsent.trans hasks.sent, hreceived.trans hasks.received,
      hbuf.trans hasks.buf⟩)
    rw [hbehind]
    exact hasks.behind
  · refine .inr (.inr ⟨octet, ?_, hsent.trans htakes.sent, hreceived.trans htakes.received, ?_⟩)
    · rw [hbehind]
      exact htakes.behind
    · rw [hbuf]
      exact htakes.buf

/-- The context was not called. -/
theorem Course.idle {a : ImplAction} (hbehind : n'.behind = n.behind) (hsent : n'.sent = n.sent)
    (hreceived : n'.received = n.received) (hbuf : n'.buf = n.buf) : Course n n' a :=
  .inl ⟨[], ⟨hbehind, hsent, by rw [hreceived, List.append_nil], by rw [hbuf, List.append_nil]⟩,
    .inl rfl⟩

/-- Nothing happens but to the queue. -/
theorem Steady.act_quiet (h : n.Steady) {a : Action} (ha : a.Quiet) (hchain : ¬ n.queue.Chained a)
    (hpours : n.queue.pours a = []) (hbrings : n.queue.brings a = [])
    (hloop : a = .octetsDone →
      n.queue.stack.head? ≠ some .octets ∨ n.buf = [] ∧ n.inCallback = false) :
    (n.act a).Steady := by
  apply h.act n ha hchain ⟨h.between, h.deliver⟩ ⟨rfl, rfl⟩
  · rw [hpours, List.append_nil]
  · rw [hbrings, List.append_nil]
  · intro hbusy
    -- the loop goes on, or it ends where nothing is left to do
    have hreading := h.reading hbusy
    refine (h.coupled.calm.step h.coupled.oneWrite ha ?_).reading hreading
    intro hdone
    refine (hloop hdone).resolve_right ?_
    rintro ⟨hbuf, hcallback⟩
    rcases hbusy with hbusy | hbusy
    · exact hbusy hbuf
    · rw [hcallback] at hbusy
      cases hbusy

omit [Lib.ProducerConsumer Nat (List UInt8)] in
/-- What `sfpWritePacket` passes to `writeCallback` is added, in a callback or not. -/
theorem perform_adds (m : Machine) (w : Writing) :
    (Writing.perform m w).wire = m.wire ++ written m (Writing.perform m w) := by
  have hadds := (deaf_perform w).adds m
  rw [written, hadds.wire, List.drop_left]

/-- `sfpWritePacket` in the callback is `sfpWritePacket` behind it. -/
theorem behind_perform (n : MessageQueueImpl) (w : Writing) :
    SameCourse (behind { n with mContext := Writing.perform n.mContext w })
      (n.behind.call w.call) := by
  unfold behind
  cases n.inCallback with
  -- the rest of the callback does not look at what `sfpWritePacket` changes
  | true => exact sameCourse_afterCallback (deaf_perform w) n.mContext
  | false => exact .refl _

/-- A message is sent, in the callback or not; or the send is refused. -/
theorem advance_asyncSend (h : n.Steady) (message : Letter) (id : Nat)
    (hchain : ¬ n.Chains (.asyncSend message id)) :
    (n.advance (.asyncSend message id)).Steady ∧
      Course n (n.advance (.asyncSend message id)) (.asyncSend message id) := by
  by_cases hsends : n.Sends
  · have hadvance : n.advance (.asyncSend message id) = n.send message id := if_pos hsends
    have hbehind := behind_perform n message.1
    have hserves := serves_call h.between message.1.call
    have hdelivered : (Writing.perform n.mContext message.1).delivered = n.mContext.delivered := by
      -- nothing is delivered behind the callback, so nothing is in it
      have hsame := hbehind.delivered
      rw [delivered_behind, hserves.delivered, delivered_behind] at hsame
      refine hsame.trans ?_
      simp [Writing.call, Call.input, Endpoint.react, Endpoint.write]
    rw [hadvance]
    refine ⟨?_, .inr (.inl ⟨message, hbehind, rfl, rfl, rfl⟩)⟩
    -- the queue gets the octets that the context has just written
    have hsend : (Action.asyncSend (written n.mContext (Writing.perform n.mContext message.1))
        id).Quiet := trivial
    apply h.act { n with mContext := Writing.perform n.mContext message.1,
                         sent := n.sent ++ [message.packet] } hsend ?_ ?_ ⟨rfl, rfl⟩
    · show (Writing.perform n.mContext message.1).wire = _
      rw [perform_adds, MessageQueue.pours, if_pos hsends.1]
    · exact hdelivered.trans (List.append_nil _).symm
    · intro hbusy
      exact h.coupled.calm.reads_on h.coupled.oneWrite hsend (by simp) (h.reading hbusy)
    · apply h.coupled.calm.not_chained hsend
      rintro _ _ - -
      exact hchain
    · show (behind { n with mContext := Writing.perform n.mContext message.1 }).ctx.Between ∧
        (behind { n with mContext := Writing.perform n.mContext message.1 }).ctx.rx.deliver = true
      rw [hbehind.ctx]
      exact ⟨hserves.between, hserves.deliver.trans h.deliver⟩
  · -- not called here, since the handshake is complete and there are no errors
    have hadvance : n.advance (.asyncSend message id) = n.act (.asyncSend [] id) := if_neg hsends
    rw [hadvance]
    refine ⟨h.act_quiet trivial ?_ ?_ rfl (by simp), .idle rfl rfl rfl rfl⟩
    · apply h.coupled.calm.not_chained (a := .asyncSend [] id) trivial
      rintro _ _ ⟨⟩ huser
      exact absurd ⟨huser, h.coupled.calm.complete, h.coupled.calm.getReadPumpError⟩ hsends
    · show (if n.queue.UserRuns then [] else []) = []
      split <;> rfl

/-- Octets are read in the event loop: those of the read before are all passed on. -/
theorem advance_readDone (h : n.Steady) (octets : List UInt8) :
    (n.advance (.readDone octets)).Steady ∧
      Course n (n.advance (.readDone octets)) (.readDone octets) := by
  by_cases hidle : n.queue.stack = [] ∧ n.queue.reads ≠ 0
  · have hadvance : n.advance (.readDone octets)
        = act (.readDone none) { n with buf := octets, received := n.received ++ octets } :=
      if_pos hidle
    -- outside the loop nothing is left of the read before
    have hbuf : n.buf = [] := by
      by_contra hbusy
      have hreading := h.reading (.inl hbusy)
      rw [hidle.1] at hreading
      cases hreading
    rw [hadvance]
    refine ⟨?_, .inl ⟨octets, ⟨rfl, rfl, rfl, ?_⟩, .inr rfl⟩⟩
    · have hread : (Action.readDone none).Quiet := trivial
      apply h.act { n with buf := octets, received := n.received ++ octets } hread
        (h.coupled.calm.not_chained_of_ne hread (by simp)) ⟨h.between, h.deliver⟩ ⟨rfl, rfl⟩
        (List.append_nil _).symm (List.append_nil _).symm
      intro _
      have hstep : n.queue.step (.readDone none)
          = { n.queue with reads := n.queue.reads - 1 }.push .octets := by
        simp only [MessageQueue.step, hidle.1, MessageQueue.completionStep, if_neg hidle.2,
          MessageQueue.handleRead]
      rw [hstep]
      exact List.mem_cons_self
    · rw [hbuf]
      rfl
  · have hadvance : n.advance (.readDone octets) = n := if_neg hidle
    rw [hadvance]
    exact ⟨h, .idle rfl rfl rfl rfl⟩

/-- **An octet is passed to `sfpDeliverOctet`**, from the loop of `handleRead`. -/
theorem hear_steady (h : n.Steady) (hcallback : n.inCallback = false) {stack : List Frame}
    (hstack : n.queue.stack = .octets :: stack) {octet : UInt8} {rest : List UInt8}
    (hbuf : n.buf = octet :: rest) :
    (hear octet { n with buf := rest }).Steady ∧
      Takes n (hear octet { n with buf := rest }) octet := by
  have hbehind : n.behind = n.mContext := if_neg (by simp [hcallback])
  have hbetween := h.between
  have hdeliver := h.deliver
  rw [hbehind] at hbetween hdeliver
  have hserves := serves_call hbetween (.deliver octet none)
  have hnext : (n.mContext.call (.deliver octet none)).ctx.Between ∧
      (n.mContext.call (.deliver octet none)).ctx.rx.deliver = true :=
    ⟨hserves.between, hserves.deliver.trans hdeliver⟩
  have hhead : n.queue.stack.head? = some .octets := by
    rw [hstack]
    rfl
  have hmem : Frame.octets ∈ n.queue.stack := by simp [hstack]
  by_cases hdelivers : n.mContext.ctx.Delivers octet ∧ n.mContext.ctx.rx.deliver = true
  · -- the callback is called, and may have to wait for a handler
    have hhear : hear octet { n with buf := rest }
        = MessageQueueImpl.act (.delivered n.mContext.atCallback.ctx.rx.packet.octets)
            { n with buf := rest, mContext := n.mContext.atCallback, inCallback := true } :=
      if_pos hdelivers
    have hcall := call_of_delivers hdelivers.1 hdelivers.2 none
    rw [hhear]
    refine ⟨?_, ?_, rfl, rfl, hbuf⟩
    · have hquiet : (Action.delivered n.mContext.atCallback.ctx.rx.packet.octets).Quiet := trivial
      apply h.act { n with buf := rest, mContext := n.mContext.atCallback, inCallback := true }
        hquiet (h.coupled.calm.not_chained_of_ne hquiet (by simp)) ?_ ⟨rfl, rfl⟩
      · show n.mContext.atCallback.wire = _ ++ []
        rw [wire_atCallback, List.append_nil]
      · rw [MessageQueue.brings, if_pos hhead]
        exact delivered_atCallback n.mContext
      · intro _
        exact h.coupled.calm.reads_on h.coupled.oneWrite hquiet (by simp) hmem
      · show (afterCallback n.mContext.atCallback).ctx.Between ∧
          (afterCallback n.mContext.atCallback).ctx.rx.deliver = true
        rw [← hcall]
        exact hnext
    · rw [hbehind, hcall]
      exact .refl _
  · have hhear : hear octet { n with buf := rest }
        = MessageQueueImpl.act
            (.written (written n.mContext (n.mContext.call (.deliver octet none))))
            { n with buf := rest, mContext := n.mContext.call (.deliver octet none) } :=
      if_neg hdelivers
    have hsame : behind { n with
        buf := rest, mContext := n.mContext.call (.deliver octet none) }
          = n.mContext.call (.deliver octet none) := if_neg (by simp [hcallback])
    rw [hhear]
    refine ⟨?_, ?_, rfl, rfl, hbuf⟩
    · have hquiet : (Action.written (written n.mContext
          (n.mContext.call (.deliver octet none)))).Quiet := trivial
      apply h.act { n with buf := rest, mContext := n.mContext.call (.deliver octet none) }
        hquiet (h.coupled.calm.not_chained_of_ne hquiet (by simp)) ?_ ⟨rfl, rfl⟩
      · show (n.mContext.call (.deliver octet none)).wire = _
        rw [MessageQueue.pours, if_pos hhead, written, hserves.wire, List.drop_left]
      · show (n.mContext.call (.deliver octet none)).delivered = _
        rw [delivered_deliver hbetween.idle.ready hdeliver,
          if_neg fun hboth => hdelivers ⟨hboth, hdeliver⟩]
        rfl
      · intro _
        exact h.coupled.calm.reads_on h.coupled.oneWrite hquiet (by simp) hmem
      · rw [hsame]
        exact hnext
    · show SameCourse (behind { n with
        buf := rest, mContext := n.mContext.call (.deliver octet none) }) _
      rw [hsame, hbehind]
      exact .refl _

/-- An octet of the buffer is fed, unless a handler is running. -/
theorem advance_octet (h : n.Steady) (hwaits : n.Waits) :
    (n.advance .octet).Steady ∧ Course n (n.advance .octet) .octet := by
  simp only [MessageQueueImpl.advance]
  split
  · rename_i stack octet rest hstack hbuf
    -- in the loop again, so the callback has returned
    have hcallback : n.inCallback = false := by
      by_contra hin
      exact hwaits (by simpa using hin) (by rw [hstack]; rfl)
    obtain ⟨hsteady, htakes⟩ := hear_steady h hcallback hstack hbuf
    exact ⟨hsteady, .inr (.inr ⟨octet, htakes⟩)⟩
  · exact ⟨h, .idle rfl rfl rfl rfl⟩

/-- The loop of `handleRead` ends when the buffer is empty. -/
theorem advance_octetsDone (h : n.Steady) (hwaits : n.Waits) :
    (n.advance .octetsDone).Steady ∧ Course n (n.advance .octetsDone) .octetsDone := by
  have hchain := h.coupled.calm.not_chained_of_ne (a := .octetsDone) trivial (by simp)
  by_cases hbuf : n.buf = []
  · have hadvance : n.advance .octetsDone = n.act .octetsDone := if_pos hbuf
    rw [hadvance]
    refine ⟨h.act_quiet trivial hchain rfl rfl fun _ => ?_, .idle rfl rfl rfl rfl⟩
    -- a callback that has not returned keeps the loop from ending
    by_cases hcallback : n.inCallback = true
    · exact .inl (hwaits hcallback)
    · exact .inr ⟨hbuf, by simpa using hcallback⟩
  · have hadvance : n.advance .octetsDone = n := if_neg hbuf
    rw [hadvance]
    exact ⟨h, .idle rfl rfl rfl rfl⟩

/-- The step, up to the return of the callback. -/
theorem Steady.advance (h : n.Steady) (hwaits : n.Waits) {a : ImplAction} (hchain : ¬ n.Chains a) :
    (n.advance a).Steady ∧ Course n (n.advance a) a := by
  -- what does not touch the context
  have hquiet : ∀ {a : Action} (b : ImplAction), a.Quiet → (∀ octets id, a ≠ .asyncSend octets id) →
      a ≠ .octetsDone → n.queue.pours a = [] → n.queue.brings a = [] →
        (n.act a).Steady ∧ Course n (n.act a) b := by
    intro a b ha hsend hdone hpours hbrings
    refine ⟨h.act_quiet ha ?_ hpours hbrings fun h => absurd h hdone, .idle rfl rfl rfl rfl⟩
    exact h.coupled.calm.not_chained_of_ne ha hsend
  cases a with
  | asyncSend message id => exact advance_asyncSend h message id hchain
  | asyncReceive id => exact hquiet (a := .asyncReceive id) _ trivial (by simp) (by simp) rfl rfl
  | handlerReturns => exact hquiet (a := .handlerReturns) _ trivial (by simp) (by simp) rfl rfl
  | readDone octets => exact advance_readDone h octets
  | octet => exact advance_octet h hwaits
  | octetsDone => exact advance_octetsDone h hwaits
  | writeDone => exact hquiet (a := .writeDone 0 none) _ trivial (by simp) (by simp) rfl rfl
  | resume => exact hquiet (a := .resume) _ trivial (by simp) (by simp) rfl rfl

/-- **A step of the queue and its context**: the invariant is kept, and the context behind the
callback changes by a call or not at all. -/
theorem Steady.step (h : n.Steady) (hwaits : n.Waits) {a : ImplAction} (hchain : ¬ n.Chains a) :
    ((n.step a).Steady ∧ (n.step a).Waits) ∧ Course n (n.step a) a := by
  obtain ⟨hsteady, hcourse⟩ := h.advance hwaits hchain
  exact ⟨hsteady.leaveCallback, hcourse.leaveCallback⟩

end MessageQueueImpl

end Contexts

section OverLists

attribute [local instance] Lib.ProducerConsumer.ofLists

/-- The queue is what a handshake leaves, but for what an observer saw before. -/
example [SfpConfig] (c : SFPcontext) :
    { run MessageQueue.step .init [.setOpen true, .handshake [0x7e, 0x40, 0x7e] 0, .resume, .resume,
        .writeDone 0 none, .handlerReturns, .resume, .handshakeDone] with
      flushed := [], settled := [], wire := [], passed := 0, called := [] }
      = (MessageQueueImpl.connected c).queue := rfl

end OverLists

end Libsfp.Asio
