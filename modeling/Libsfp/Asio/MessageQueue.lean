import Libsfp.Lib.Containers
import Libsfp.Lib.Runs

/-!
# The Message Queue

`MessageQueueImpl` of `asio/messagequeue.hpp`: the outbox with its write pump, the read pump, the
queue of receives and the operations that user code starts on them.

A completion handler runs at the point where the code calls it, and may call the queue again before
it returns. The state therefore carries a control stack, the places where a call is still to return
to. The queue is in the event loop when the stack is empty. An action is one of

- a call that user code makes, from the event loop or from a handler that is running,
- what the SFP context does in the middle of `handleRead`: its callbacks, in any order and number,
- a completion that the event loop dispatches, with any result, for any operation in progress,
- the code running on from the top of the stack.

What the context writes and delivers, and when a timer fires, is left to the run. A cancellation of
the exposed `stream()` has no effect but on the results of the operations in progress.
`KeepaliveOperation` and the resumed `HandshakeOperation` are user code that looks at the error of
the read pump first; the log and the copying of a message to its destination are not modelled.
-/

namespace Libsfp.Asio

/-! ## Data -/

/-- `boost::system::error_code`, when it is not success. -/
inductive ErrorCode where
  | operationAborted
  | networkDown
  | other (value : Nat)
  deriving DecidableEq

/-- What a handler of `flushWriteBuffer` does: user code, or the lambda of `handleRead`. -/
inductive Handler where
  | user (id : Nat)
  | readPump
  deriving DecidableEq

/-- A `SendHandler` that was passed in. An observer numbers them as they come, so that two handlers
with the same code are told apart. -/
structure SendHandler where
  number : Nat
  code : Handler
  deriving DecidableEq

structure SendData where
  buffer : List UInt8
  handler : SendHandler
  deriving DecidableEq

/-- `util::ProducerConsumerQueue`, of which only the laws are used. A consumer is the number that
`asyncReceive` was called with. -/
def ReceiveQueue [Lib.ProducerConsumer Nat (List UInt8)] : Type :=
  Lib.ProducerConsumer.Queue Nat (List UInt8)

namespace ReceiveQueue

variable [Lib.ProducerConsumer Nat (List UInt8)]

/-- The receives that wait, oldest first. -/
def consumers (q : ReceiveQueue) : List Nat := Lib.ProducerConsumer.consumers q

/-- The messages that wait, oldest first. -/
def items (q : ReceiveQueue) : List (List UInt8) := Lib.ProducerConsumer.items q

def empty : ReceiveQueue :=
  (Lib.ProducerConsumer.empty : Lib.ProducerConsumer.Queue Nat (List UInt8))

/-- A negative depth counts the waiting consumers. -/
def depth (q : ReceiveQueue) : Int := Lib.ProducerConsumer.depth q

/-- Hands the item to the oldest consumer, if there is one. -/
def produce (item : List UInt8) (q : ReceiveQueue) : Option Nat × ReceiveQueue :=
  Lib.ProducerConsumer.produce item q

/-- Takes the oldest item, or waits. -/
def consume (c : Nat) (q : ReceiveQueue) : Option (List UInt8) × ReceiveQueue :=
  Lib.ProducerConsumer.consume c q

/-- The second loop of `voidReceives`: a consumer that only logs takes every item. -/
def discard (q : ReceiveQueue) : ReceiveQueue := Lib.ProducerConsumer.drain 0 q

theorem consumers_empty : empty.consumers = [] :=
  Lib.ProducerConsumer.consumers_empty

theorem items_empty : empty.items = [] :=
  Lib.ProducerConsumer.items_empty

theorem one_sided (q : ReceiveQueue) : q.consumers = [] ∨ q.items = [] :=
  Lib.ProducerConsumer.one_sided q

theorem depth_neg_iff (q : ReceiveQueue) : q.depth < 0 ↔ q.consumers ≠ [] :=
  Lib.ProducerConsumer.depth_neg_iff q

/-- A receive waits for the item, or the item waits. -/
theorem produce_cases (item : List UInt8) (q : ReceiveQueue) :
    (∃ c q', q.produce item = (some c, q') ∧ q.consumers = c :: q'.consumers ∧
        q.items = [] ∧ q'.items = [])
      ∨ ∃ q', q.produce item = (none, q') ∧ q.consumers = [] ∧ q'.consumers = [] ∧
        q'.items = q.items ++ [item] := by
  cases hwaiting : q.consumers with
  | nil =>
    obtain ⟨hnone, hconsumers, hitems⟩ := Lib.ProducerConsumer.produce_stored item hwaiting
    exact .inr ⟨_, Prod.ext hnone rfl, rfl, hconsumers, hitems⟩
  | cons c cs =>
    -- whoever waits, waits because there was nothing
    obtain ⟨hsome, hconsumers, hitems⟩ := Lib.ProducerConsumer.produce_handed item hwaiting
    have hnothing : q.items = [] := q.one_sided.resolve_left (by simp [hwaiting])
    exact .inl ⟨c, _, Prod.ext hsome rfl, congrArg _ hconsumers.symm, hnothing, hitems⟩

/-- An item waits for the receive, or the receive waits. -/
theorem consume_cases (c : Nat) (q : ReceiveQueue) :
    (∃ x q', q.consume c = (some x, q') ∧ q.items = x :: q'.items ∧
        q.consumers = [] ∧ q'.consumers = [])
      ∨ ∃ q', q.consume c = (none, q') ∧ q.items = [] ∧ q'.items = [] ∧
        q'.consumers = q.consumers ++ [c] := by
  cases hwaiting : q.items with
  | nil =>
    obtain ⟨hnone, hconsumers, hitems⟩ := Lib.ProducerConsumer.consume_waits c hwaiting
    exact .inr ⟨_, Prod.ext hnone rfl, rfl, hitems, hconsumers⟩
  | cons x xs =>
    obtain ⟨hsome, hconsumers, hitems⟩ := Lib.ProducerConsumer.consume_taken c hwaiting
    have hnobody : q.consumers = [] := q.one_sided.resolve_right (by simp [hwaiting])
    exact .inl ⟨x, _, Prod.ext hsome rfl, congrArg _ hitems.symm, hnobody, hconsumers⟩

theorem items_discard (q : ReceiveQueue) : q.discard.items = [] :=
  Lib.ProducerConsumer.items_drain 0 q

theorem consumers_discard (q : ReceiveQueue) : q.discard.consumers = q.consumers :=
  Lib.ProducerConsumer.consumers_drain 0 q

end ReceiveQueue

/-- A place in the code that control returns to. -/
inductive Frame where
  /-- A handler is running. -/
  | user
  /-- In the loop of `handleRead` over the octets. -/
  | octets
  /-- `handleWrite`, before its `writePump()`. -/
  | writePump
  /-- In the loop of `voidOutbox`. -/
  | voidOutbox (ec : ErrorCode)
  /-- `handleWrite`, after its `voidOutbox`. -/
  | closeUnlessAborted (ec : ErrorCode)
  /-- `stopReadPump`, in the loop of its `voidReceives`. -/
  | stopReadPump (ec : ErrorCode)
  /-- `readPump` on a closed stream, in the loop of its `voidReceives`. -/
  | readPumpFailed
  /-- The first run of `HandshakeOperation`, in the loop of its `voidReceives`. -/
  | handshake (octets : List UInt8) (id : Nat)
  /-- `HandshakeOperation`, before its `sfpConnect`. -/
  | connect (octets : List UInt8) (id : Nat)
  deriving DecidableEq

/-- The queue is in the middle of `handleWrite` or `voidOutbox`. -/
def Frame.pumps : Frame → Bool
  | .writePump | .voidOutbox _ => true
  | _ => false

/-- An `async_write` in progress: which of the flushed buffers it is for, and the octets. -/
structure AsyncWrite where
  number : Nat
  buffer : List UInt8
  deriving DecidableEq

structure MessageQueue [Lib.ProducerConsumer Nat (List UInt8)] where
  mReceiveQueue : ReceiveQueue
  mWriteBuffer : List UInt8
  mOutbox : List SendData
  mReadPumpRunning : Bool
  mReadPumpError : Option ErrorCode
  mHandshakeComplete : Bool
  /-- `stream().is_open()`. -/
  isOpen : Bool
  /-- How many `async_read_some` are in progress. -/
  reads : Nat
  writes : List AsyncWrite
  stack : List Frame
  /-- What an observer sees: the buffers pushed onto `mOutbox`, -/
  flushed : List SendData
  /-- those popped from it, with the result they were popped for, -/
  settled : List (SendData × Option ErrorCode)
  /-- the buffers that a successful `async_write` has transferred, -/
  wire : List (List UInt8)
  /-- how many `SendHandler`s were passed in, -/
  passed : Nat
  /-- and the calls of `SendHandler`s. -/
  called : List (SendHandler × Option ErrorCode)
  /-- The front of an empty `mOutbox` was read, or an assertion failed. -/
  fault : Bool

namespace MessageQueue

variable [Lib.ProducerConsumer Nat (List UInt8)]

/-- A new object. -/
def init : MessageQueue where
  mReceiveQueue := .empty
  mWriteBuffer := []
  mOutbox := []
  mReadPumpRunning := false
  mReadPumpError := none
  mHandshakeComplete := false
  isOpen := false
  reads := 0
  writes := []
  stack := []
  flushed := []
  settled := []
  wire := []
  passed := 0
  called := []
  fault := false

/-! ## The functions of the class -/

def push (f : Frame) (s : MessageQueue) : MessageQueue := { s with stack := f :: s.stack }

def close (s : MessageQueue) : MessageQueue :=
  -- both operations in progress complete with an error later
  { s with isOpen := false, mReadPumpError := some .operationAborted }

def getReadPumpError (s : MessageQueue) : Option ErrorCode × MessageQueue :=
  let ec := s.mReadPumpError
  let s := { s with mReadPumpError := none }
  if ec = none ∧ s.isOpen = false then (some .networkDown, s) else (ec, s)

def readPump (s : MessageQueue) : MessageQueue :=
  if s.isOpen then { s with reads := s.reads + 1 } else s.push .readPumpFailed

def startReadPump (s : MessageQueue) : MessageQueue :=
  if s.mReadPumpRunning then s
  else readPump { s with mReadPumpRunning := true, mReadPumpError := none }

/-- `handler(ec)`. -/
def callHandler (handler : SendHandler) (ec : Option ErrorCode) (s : MessageQueue) :
    MessageQueue :=
  let s := { s with called := s.called ++ [(handler, ec)] }
  match handler.code, ec with
  | .user _, _ => s.push .user
  | .readPump, none => s.readPump
  | .readPump, some ec => s.push (.stopReadPump ec)

/-- A `SendHandler` is passed in and called at once. -/
def callPassed (code : Handler) (ec : Option ErrorCode) (s : MessageQueue) : MessageQueue :=
  callHandler ⟨s.passed, code⟩ ec { s with passed := s.passed + 1 }

def writePump (s : MessageQueue) : MessageQueue :=
  match s.mOutbox with
  | [] => s
  | data :: _ =>
    if s.isOpen then
      -- the buffers before the front have all been popped
      { s with writes := s.writes ++ [⟨s.settled.length, data.buffer⟩] }
    else s.push (.voidOutbox .networkDown)

def flushWriteBuffer (code : Handler) (s : MessageQueue) : MessageQueue :=
  if s.mWriteBuffer = [] then s.callPassed code none
  else
    let data : SendData := ⟨s.mWriteBuffer, ⟨s.passed, code⟩⟩
    let s := { s with
      mOutbox := s.mOutbox ++ [data], flushed := s.flushed ++ [data], passed := s.passed + 1
      mWriteBuffer := [] }
    -- the only buffer: nobody else is going to start its write
    if s.mOutbox.length = 1 then s.writePump else s

/-- `auto handler = mOutbox.front().handler; mOutbox.pop(); handler(ec);` -/
def popOutbox (data : SendData) (rest : List SendData) (ec : Option ErrorCode)
    (s : MessageQueue) : MessageQueue :=
  -- the handler runs when the front is gone
  callHandler data.handler ec { s with mOutbox := rest, settled := s.settled ++ [(data, ec)] }

def handleWrite (ec : Option ErrorCode) (nWritten : Nat) (s : MessageQueue) : MessageQueue :=
  match ec with
  | none =>
    match s.mOutbox with
    | [] => { s with fault := true }
    | data :: rest =>
      let s := if data.buffer.length = nWritten then s else { s with fault := true }
      popOutbox data rest none (s.push .writePump)
  -- the outbox is voided first, then the stream closed
  | some ec => (s.push (.closeUnlessAborted ec)).push (.voidOutbox ec)

def handleRead (ec : Option ErrorCode) (s : MessageQueue) : MessageQueue :=
  match ec with
  | none => s.push .octets
  | some ec => s.push (.stopReadPump ec)

/-- One round of the first loop of `voidReceives`, which calls a handler, or all of the second and
what follows it. -/
def voidReceives (done : MessageQueue → MessageQueue) (s : MessageQueue) : MessageQueue :=
  if s.mReceiveQueue.depth < 0 then
    -- an empty message is produced to pop the oldest receive
    { s with mReceiveQueue := (s.mReceiveQueue.produce []).2 }.push .user
  else done { s with mReceiveQueue := s.mReceiveQueue.discard, stack := s.stack.tail }

/-- The code runs on from the top of the stack. -/
def resume (s : MessageQueue) : MessageQueue :=
  match s.stack with
  | .writePump :: stack => writePump { s with stack }
  | .voidOutbox ec :: stack =>
    match s.mOutbox with
    | [] => { s with stack }
    | data :: rest => popOutbox data rest (some ec) s
  | .closeUnlessAborted ec :: stack =>
    let s := { s with stack }
    if ec = .operationAborted then s else s.close
  | .stopReadPump ec :: _ =>
    s.voidReceives fun s =>
      let s := if ec = .operationAborted then s else s.close
      { s with mReadPumpRunning := false, mReadPumpError := some ec }
  | .readPumpFailed :: _ =>
    s.voidReceives fun s =>
      { s with mReadPumpRunning := false, mReadPumpError := some .networkDown }
  -- `sfpConnect` runs behind the receives that are voided here
  | .handshake octets id :: _ =>
    s.voidReceives fun s => startReadPump ({ s with mWriteBuffer := [] }.push (.connect octets id))
  | .connect octets id :: stack =>
    flushWriteBuffer (.user id) { s with stack, mWriteBuffer := s.mWriteBuffer ++ octets }
  -- a handler that is running and the context in `handleRead` go on by themselves
  | .user :: _ | .octets :: _ | [] => s

/-! ## What the functions do -/

/-- Some function of the outbox is waiting for a handler to return. -/
def pumping (s : MessageQueue) : Bool := s.stack.any Frame.pumps

@[simp] theorem getReadPumpError_snd (s : MessageQueue) :
    s.getReadPumpError.2 = { s with mReadPumpError := none } := by
  simp only [getReadPumpError]
  split <;> rfl

/-- Only an open stream whose pump has not left an error is reported as fine. -/
theorem getReadPumpError_eq_none {s : MessageQueue} :
    s.getReadPumpError.1 = none ↔ s.mReadPumpError = none ∧ s.isOpen = true := by
  simp only [getReadPumpError]
  split
  · rename_i h
    simp [h.2]
  · rename_i h
    constructor
    · intro herror
      refine ⟨herror, ?_⟩
      by_contra hclosed
      exact h ⟨herror, by simpa using hclosed⟩
    · exact And.left

/-- The queue after a buffer is pushed onto `mOutbox`. -/
def pushOutbox (code : Handler) (s : MessageQueue) : MessageQueue :=
  { s with
    mOutbox := s.mOutbox ++ [⟨s.mWriteBuffer, ⟨s.passed, code⟩⟩],
    flushed := s.flushed ++ [⟨s.mWriteBuffer, ⟨s.passed, code⟩⟩], passed := s.passed + 1,
    mWriteBuffer := [] }

/-- Nothing to write: the handler is called at once. -/
theorem flushWriteBuffer_nil {s : MessageQueue} (code : Handler) (h : s.mWriteBuffer = []) :
    s.flushWriteBuffer code = s.callPassed code none := if_pos h

/-- The buffer comes to the front, and its write is started. -/
theorem flushWriteBuffer_first {s : MessageQueue} (code : Handler) (h : s.mWriteBuffer ≠ [])
    (hbox : s.mOutbox = []) : s.flushWriteBuffer code = (s.pushOutbox code).writePump := by
  have hone : (s.mOutbox ++ [SendData.mk s.mWriteBuffer ⟨s.passed, code⟩]).length = 1 := by
    rw [hbox]
    rfl
  rw [flushWriteBuffer, if_neg h]
  exact if_pos hone

/-- The buffer waits for those in front of it. -/
theorem flushWriteBuffer_later {s : MessageQueue} (code : Handler) (h : s.mWriteBuffer ≠ [])
    (hbox : s.mOutbox ≠ []) : s.flushWriteBuffer code = s.pushOutbox code := by
  -- there was a front before
  have hmany : ¬ (s.mOutbox ++ [SendData.mk s.mWriteBuffer ⟨s.passed, code⟩]).length = 1 := by
    simpa using hbox
  rw [flushWriteBuffer, if_neg h]
  exact if_neg hmany

/-! ## What user code calls -/

/-- `sfpWritePacket` puts `octets` into the write buffer. -/
def asyncSend (octets : List UInt8) (id : Nat) (s : MessageQueue) : MessageQueue :=
  match s.getReadPumpError with
  | (some ec, s) => s.callPassed (.user id) (some ec)
  | (none, s) => flushWriteBuffer (.user id) { s with mWriteBuffer := s.mWriteBuffer ++ octets }

def asyncReceive (id : Nat) (s : MessageQueue) : MessageQueue :=
  match s.getReadPumpError with
  | (some _, s) => s.push .user
  | (none, s) =>
    match s.mReceiveQueue.consume id with
    | (some _, q) => { s with mReceiveQueue := q }.push .user
    | (none, q) => { s with mReceiveQueue := q }

/-- `HandshakeOperation::operator()`: what it does with the error of the read pump. -/
def handshakeOperation (next : MessageQueue → MessageQueue) (s : MessageQueue) : MessageQueue :=
  match s.getReadPumpError with
  | (none, s) => next s
  | (some ec, s) => if ec = .operationAborted then s else s.close

/-- `deliverCallback`. -/
def deliverCallback (item : List UInt8) (s : MessageQueue) : MessageQueue :=
  match s.mReceiveQueue.produce item with
  | (some _, q) => { s with mReceiveQueue := q }.push .user
  | (none, q) => { s with mReceiveQueue := q }

/-- The error is reported once: it is gone in both cases. -/
theorem getReadPumpError_split (s : MessageQueue) :
    (s.getReadPumpError.1 = none ∧ s.getReadPumpError = (none, { s with mReadPumpError := none }))
      ∨ ∃ ec, s.getReadPumpError = (some ec, { s with mReadPumpError := none }) := by
  rw [← s.getReadPumpError_snd]
  cases h : s.getReadPumpError with
  | mk ec t =>
    cases ec with
    | none => exact .inl ⟨rfl, rfl⟩
    | some ec => exact .inr ⟨ec, rfl⟩

/-- A send is refused or flushed behind what the context has written. -/
theorem asyncSend_cases {P : MessageQueue → Prop} (octets : List UInt8) (id : Nat)
    (s : MessageQueue)
    (refused : ∀ ec, P ({ s with mReadPumpError := none }.callPassed (.user id) (some ec)))
    (accepted : s.getReadPumpError.1 = none → P (flushWriteBuffer (.user id)
      { s with mReadPumpError := none, mWriteBuffer := s.mWriteBuffer ++ octets })) :
    P (s.asyncSend octets id) := by
  unfold asyncSend
  rcases s.getReadPumpError_split with ⟨hfine, h⟩ | ⟨ec, h⟩
  · rw [h]
    exact accepted hfine
  · rw [h]
    exact refused ec

/-- A round calls the oldest receive that waits; without one, whatever waits is discarded. -/
theorem voidReceives_cases {P : MessageQueue → Prop} {done : MessageQueue → MessageQueue}
    (s : MessageQueue)
    (called : ∀ (id : Nat) (q : ReceiveQueue), s.mReceiveQueue.consumers = id :: q.consumers →
      q.items = s.mReceiveQueue.items → P ({ s with mReceiveQueue := q }.push .user))
    (voided : ∀ q : ReceiveQueue, s.mReceiveQueue.consumers = [] → q.consumers = [] →
      q.items = [] → P (done { s with mReceiveQueue := q, stack := s.stack.tail })) :
    P (s.voidReceives done) := by
  unfold voidReceives
  by_cases hdepth : s.mReceiveQueue.depth < 0
  · rw [if_pos hdepth]
    -- a negative depth counts receives, so `produce` hands the message to one
    have hwaiting := s.mReceiveQueue.depth_neg_iff.mp hdepth
    rcases s.mReceiveQueue.produce_cases [] with
      ⟨id, q, hq, hconsumers, hnothing, hitems⟩ | ⟨q, hq, hnobody, -, -⟩
    · rw [hq]
      exact called id q hconsumers (hitems.trans hnothing.symm)
    · exact absurd hnobody hwaiting
  · rw [if_neg hdepth]
    have hnobody : s.mReceiveQueue.consumers = [] :=
      not_not.mp (mt s.mReceiveQueue.depth_neg_iff.mpr hdepth)
    exact voided _ hnobody (s.mReceiveQueue.consumers_discard.trans hnobody)
      s.mReceiveQueue.items_discard

/-- A receive is refused, served from what waits, or waits. -/
theorem asyncReceive_cases {P : MessageQueue → Prop} (id : Nat) (s : MessageQueue)
    (refused : P ({ s with mReadPumpError := none }.push .user))
    (received : ∀ q : ReceiveQueue, q.consumers = s.mReceiveQueue.consumers →
      P ({ s with mReadPumpError := none, mReceiveQueue := q }.push .user))
    (waiting : s.getReadPumpError.1 = none → s.mReceiveQueue.items = [] → ∀ q : ReceiveQueue,
      q.consumers = s.mReceiveQueue.consumers ++ [id] →
        P { s with mReadPumpError := none, mReceiveQueue := q }) : P (s.asyncReceive id) := by
  unfold asyncReceive
  rcases s.getReadPumpError_split with ⟨hfine, h⟩ | ⟨ec, h⟩
  · rw [h]
    rcases s.mReceiveQueue.consume_cases id with
      ⟨x, q, hq, -, hnobody, hsame⟩ | ⟨q, hq, hempty, -, hmore⟩
    · simp only [hq]
      exact received q (hsame.trans hnobody.symm)
    · simp only [hq]
      exact waiting hfine hempty q hmore
  · rw [h]
    exact refused

/-- What is left of an error: the stream is closed, unless the operation was aborted. -/
theorem handshakeOperation_cases {P : MessageQueue → Prop} {next : MessageQueue → MessageQueue}
    (s : MessageQueue)
    (fine : s.getReadPumpError.1 = none → P (next { s with mReadPumpError := none }))
    (aborted : P { s with mReadPumpError := none })
    (failed : P (close { s with mReadPumpError := none })) : P (s.handshakeOperation next) := by
  unfold handshakeOperation
  rcases s.getReadPumpError_split with ⟨hfine, h⟩ | ⟨ec, h⟩
  · rw [h]
    exact fine hfine
  · rw [h]
    show P (if ec = .operationAborted then _ else _)
    split
    · exact aborted
    · exact failed

end MessageQueue

/-! ## Runs -/

inductive Action where
  | asyncSend (octets : List UInt8) (id : Nat)
  | asyncReceive (id : Nat)
  | close
  /-- The exposed `stream()` is opened or closed. -/
  | setOpen (isOpen : Bool)
  /-- `asyncHandshake`; `sfpConnect` writes `octets`. -/
  | handshake (octets : List UInt8) (id : Nat)
  /-- The handshake is resumed and tries again. -/
  | handshakeRetry (octets : List UInt8) (id : Nat)
  /-- The handshake is resumed and finds the context settled. -/
  | handshakeDone
  /-- `KeepaliveOperation` is resumed, before its `asyncSend`. -/
  | keepalive
  /-- The handler that is running returns. -/
  | handlerReturns
  /-- The context calls `writeCallback`. -/
  | written (octets : List UInt8)
  /-- The context calls `deliverCallback`. -/
  | delivered (item : List UInt8)
  /-- The last octet of the read has been delivered to the context. -/
  | octetsDone
  /-- The `async_read_some` completes. -/
  | readDone (ec : Option ErrorCode)
  /-- The `i`-th of the `async_write`s in progress completes. -/
  | writeDone (i : Nat) (ec : Option ErrorCode)
  | resume
  deriving DecidableEq

namespace MessageQueue

variable [Lib.ProducerConsumer Nat (List UInt8)]

/-- User code is running: in the event loop or in a handler. -/
def UserRuns (s : MessageQueue) : Prop := s.stack = [] ∨ s.stack.head? = some .user

instance (s : MessageQueue) : Decidable s.UserRuns := inferInstanceAs (Decidable (_ ∨ _))

/-- What user code does to the queue. The assertions of `asyncSend` and `asyncReceive` are its
own to keep: without a handshake it does not call them. -/
def userStep (s : MessageQueue) : Action → MessageQueue
  | .asyncSend octets id => if s.mHandshakeComplete then s.asyncSend octets id else s
  | .asyncReceive id => if s.mHandshakeComplete then s.asyncReceive id else s
  | .close => s.close
  | .setOpen isOpen => { s with isOpen }
  | .handshake octets id => s.handshakeOperation fun s =>
    { s with mHandshakeComplete := false }.push (.handshake octets id)
  -- `sfpConnect` again; the receives of the first run were voided then
  | .handshakeRetry octets id => s.handshakeOperation fun s =>
    flushWriteBuffer (.user id) { s with mWriteBuffer := s.mWriteBuffer ++ octets }
  | .handshakeDone => s.handshakeOperation fun s => { s with mHandshakeComplete := true }
  -- the error is read, and so forgotten
  | .keepalive => s.getReadPumpError.2
  | _ => s

/-- What the SFP context does while it is fed. -/
def contextStep (s : MessageQueue) (stack : List Frame) : Action → MessageQueue
  | .written octets => { s with mWriteBuffer := s.mWriteBuffer ++ octets }
  | .delivered item => s.deliverCallback item
  | .octetsDone => flushWriteBuffer .readPump { s with stack }
  | _ => s

/-- What the event loop dispatches. -/
def completionStep (s : MessageQueue) : Action → MessageQueue
  | .readDone ec =>
    if s.reads = 0 then s else handleRead ec { s with reads := s.reads - 1 }
  | .writeDone i ec =>
    match s.writes[i]? with
    | none => s
    | some w =>
      let s := { s with writes := s.writes.eraseIdx i }
      -- what a write that failed has transferred is not known
      let s := if ec = none then { s with wire := s.wire ++ [w.buffer] } else s
      s.handleWrite ec w.buffer.length
  | _ => s

/-- One action; what cannot happen in a state leaves it alone. -/
def step (s : MessageQueue) (a : Action) : MessageQueue :=
  match a, s.stack with
  | .resume, _ => s.resume
  | .handlerReturns, .user :: stack => { s with stack }
  | .written _, .octets :: stack => s.contextStep stack a
  | .delivered _, .octets :: stack => s.contextStep stack a
  | .octetsDone, .octets :: stack => s.contextStep stack a
  -- operations complete in the event loop only
  | .readDone _, [] => s.completionStep a
  | .writeDone _ _, [] => s.completionStep a
  | a, [] => s.userStep a
  | a, .user :: _ => s.userStep a
  | _, _ => s

/-- The write leaves the list, and `handleWrite` is called with its length. -/
theorem completionStep_writeDone {s : MessageQueue} {i : Nat} {w : AsyncWrite}
    (h : s.writes[i]? = some w) (ec : Option ErrorCode) :
    s.completionStep (.writeDone i ec) = handleWrite ec w.buffer.length
      { s with
        writes := s.writes.eraseIdx i,
        wire := if ec = none then s.wire ++ [w.buffer] else s.wire } := by
  simp only [completionStep, h]
  split <;> rfl

/-- There is no such write. -/
theorem completionStep_writeDone_none {s : MessageQueue} {i : Nat} (h : s.writes[i]? = none)
    (ec : Option ErrorCode) : s.completionStep (.writeDone i ec) = s := by
  simp only [completionStep, h]

/-- Everything that a step can do. -/
theorem step_cases {P : MessageQueue → Prop} (s : MessageQueue) (a : Action) (same : P s)
    (resume : a = .resume → P s.resume)
    (returns : ∀ stack, s.stack = .user :: stack → P { s with stack })
    (context : ∀ stack, s.stack = .octets :: stack → P (s.contextStep stack a))
    (completion : s.stack = [] → P (s.completionStep a))
    (user : s.UserRuns → P (s.userStep a)) : P (s.step a) := by
  unfold step
  split
  · -- the code runs on; a handler returns
    exact resume rfl
  · rename_i stack h
    exact returns stack h
  · rename_i stack h
    -- the context in the loop of `handleRead`
    exact context stack h
  · rename_i stack h
    exact context stack h
  · rename_i stack h
    exact context stack h
  · rename_i h
    -- the event loop, and user code
    exact completion h
  · rename_i h
    exact completion h
  · rename_i h
    exact user (.inl h)
  · rename_i h
    exact user (.inr (by rw [h]; rfl))
  · exact same

/-- `asyncSend` and `asyncReceive` are called where user code runs. -/
theorem step_user {a : Action}
    (ha : (∃ octets id, a = .asyncSend octets id) ∨ ∃ id, a = .asyncReceive id)
    (s : MessageQueue) : s.step a = if s.UserRuns then s.userStep a else s := by
  cases hstack : s.stack with
  | nil =>
    rw [if_pos (.inl hstack)]
    rcases ha with ⟨octets, id, rfl⟩ | ⟨id, rfl⟩ <;> simp only [step, hstack]
  | cons f stack =>
    by_cases hf : f = .user
    · subst hf
      rw [if_pos (.inr (by rw [hstack]; rfl))]
      rcases ha with ⟨octets, id, rfl⟩ | ⟨id, rfl⟩ <;> simp only [step, hstack]
    · have huser : ¬ s.UserRuns := by simp [UserRuns, hstack, hf]
      rw [if_neg huser]
      rcases ha with ⟨octets, id, rfl⟩ | ⟨id, rfl⟩ <;>
        cases f <;> first | exact absurd rfl hf | simp only [step, hstack]

end MessageQueue

end Libsfp.Asio
