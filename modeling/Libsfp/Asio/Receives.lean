import Libsfp.Asio.MessageQueue
import Libsfp.Lib.Mealy

/-!
# Receives

Messages and receives meet in `mReceiveQueue`. Whatever user code, the context and the event loop
do, and however handlers call back:

1. receives complete in the order in which they were accepted, each of them once (`Accounts.fifo`),
2. no message is made up, doubled or overtaken (`Accounts.in_order`),
3. a message that was handed to no receive waits or was discarded by `voidReceives`
   (`Accounts.kept`).

`deals` is what a step does to the queue, as an observer sees it.
-/

namespace Libsfp.Asio

open Lib (Mealy run)

/-! ## Deals -/

/-- What an observer of `mReceiveQueue` sees. -/
inductive Deal where
  /-- A receive is accepted: `getReadPumpError` found nothing. -/
  | accepted (id : Nat)
  /-- The context delivers a message. -/
  | arrived (message : List UInt8)
  /-- The handler of a receive is called, with a message or with an error. -/
  | completed (id : Nat) (message : Option (List UInt8))
  | discarded (messages : List (List UInt8))
  deriving DecidableEq

namespace Deal

def acceptedIds : Deal → List Nat
  | accepted id => [id]
  | _ => []

def completedIds : Deal → List Nat
  | completed id _ => [id]
  | _ => []

def arrivedMessages : Deal → List (List UInt8)
  | arrived message => [message]
  | _ => []

def receivedMessages : Deal → List (List UInt8)
  | completed _ message => message.toList
  | _ => []

def discardedMessages : Deal → List (List UInt8)
  | discarded messages => messages
  | _ => []

end Deal

/-- What the deals `ds` say about a queue in which `consumers` and `items` are waiting. -/
structure Accounts (consumers : List Nat) (items : List (List UInt8)) (ds : List Deal) : Prop where
  fifo : ds.flatMap Deal.acceptedIds = ds.flatMap Deal.completedIds ++ consumers
  in_order : (ds.flatMap Deal.receivedMessages ++ items).Sublist (ds.flatMap Deal.arrivedMessages)
  kept : (ds.flatMap Deal.arrivedMessages).Perm
    (ds.flatMap Deal.receivedMessages ++ items ++ ds.flatMap Deal.discardedMessages)

namespace Accounts

variable {consumers : List Nat} {items : List (List UInt8)} {ds : List Deal}

/-- A receive waits. -/
theorem wait (h : Accounts consumers items ds) (id : Nat) :
    Accounts (consumers ++ [id]) items (ds ++ [.accepted id]) where
  fifo := by simp [h.fifo, Deal.acceptedIds, Deal.completedIds]
  in_order := by simpa [Deal.receivedMessages, Deal.arrivedMessages] using h.in_order
  kept := by
    simpa [Deal.receivedMessages, Deal.arrivedMessages, Deal.discardedMessages] using h.kept

/-- A receive finds a message: nobody else was waiting. -/
theorem take {message : List UInt8} (h : Accounts [] (message :: items) ds) (id : Nat) :
    Accounts [] items (ds ++ [.accepted id, .completed id (some message)]) where
  fifo := by simp [h.fifo, Deal.acceptedIds, Deal.completedIds]
  in_order := by simpa [Deal.receivedMessages, Deal.arrivedMessages] using h.in_order
  kept := by
    simpa [Deal.receivedMessages, Deal.arrivedMessages, Deal.discardedMessages] using h.kept

/-- One more message, in front of those discarded. -/
theorem kept_concat {arrived received discarded : List (List UInt8)}
    (h : arrived.Perm (received ++ discarded)) (message : List UInt8) :
    (arrived ++ [message]).Perm (received ++ [message] ++ discarded) := by
  refine (h.append_right [message]).trans ?_
  rw [List.append_assoc, List.append_assoc]
  exact List.perm_append_comm.append_left received

/-- A message finds the oldest receive: no message was waiting. -/
theorem hand {id : Nat} (h : Accounts (id :: consumers) [] ds) (message : List UInt8) :
    Accounts consumers [] (ds ++ [.arrived message, .completed id (some message)]) where
  fifo := by simp [h.fifo, Deal.acceptedIds, Deal.completedIds]
  in_order := by
    have hin := h.in_order
    rw [List.append_nil] at hin
    simpa [Deal.receivedMessages, Deal.arrivedMessages] using hin.append (.refl [message])
  kept := by
    have hkept := h.kept
    rw [List.append_nil] at hkept
    simpa [Deal.receivedMessages, Deal.arrivedMessages, Deal.discardedMessages]
      using kept_concat hkept message

/-- A message waits. -/
theorem store (h : Accounts consumers items ds) (message : List UInt8) :
    Accounts consumers (items ++ [message]) (ds ++ [.arrived message]) where
  fifo := by simpa [Deal.acceptedIds, Deal.completedIds] using h.fifo
  in_order := by
    have hmore := h.in_order.append (.refl [message])
    simpa [Deal.receivedMessages, Deal.arrivedMessages] using hmore
  kept := by
    simpa [Deal.receivedMessages, Deal.arrivedMessages, Deal.discardedMessages]
      using kept_concat h.kept message

/-- A receive is voided. -/
theorem void {id : Nat} (h : Accounts (id :: consumers) items ds) :
    Accounts consumers items (ds ++ [.completed id none]) where
  fifo := by simp [h.fifo, Deal.acceptedIds, Deal.completedIds]
  in_order := by simpa [Deal.receivedMessages, Deal.arrivedMessages] using h.in_order
  kept := by
    simpa [Deal.receivedMessages, Deal.arrivedMessages, Deal.discardedMessages] using h.kept

/-- All messages that wait are discarded. -/
theorem discard (h : Accounts consumers items ds) :
    Accounts consumers [] (ds ++ [.discarded items]) where
  fifo := by simpa [Deal.acceptedIds, Deal.completedIds] using h.fifo
  in_order := by
    -- what is left in order is still in order
    have hless := (List.sublist_append_left (ds.flatMap Deal.receivedMessages) items).trans
      h.in_order
    simpa [Deal.receivedMessages, Deal.arrivedMessages] using hless
  kept := by
    have hkept := h.kept
    rw [List.append_assoc] at hkept
    have hlast := hkept.trans (List.perm_append_comm.append_left _)
    simpa [Deal.receivedMessages, Deal.arrivedMessages, Deal.discardedMessages] using hlast

end Accounts

/-! ## The queue -/

section Queue

variable [Lib.ProducerConsumer Nat (List UInt8)]

/-- The deals `ds` lead from one queue to another, whatever was dealt before. -/
def Settles (q : ReceiveQueue) (ds : List Deal) (q' : ReceiveQueue) : Prop :=
  ∀ before, Accounts q.consumers q.items before → Accounts q'.consumers q'.items (before ++ ds)

theorem Settles.refl (q : ReceiveQueue) : Settles q [] q := by
  intro before h
  rwa [List.append_nil]

namespace ReceiveQueue

/-- A message is produced. -/
def produceDeals (q : ReceiveQueue) (message : List UInt8) : List Deal :=
  .arrived message :: match q.consumers with
  | id :: _ => [.completed id (some message)]
  | [] => []

/-- A receive is put to the queue. -/
def consumeDeals (q : ReceiveQueue) (id : Nat) : List Deal :=
  .accepted id :: match q.items with
  | message :: _ => [.completed id (some message)]
  | [] => []

/-- A round of `voidReceives`. -/
def voidDeals (q : ReceiveQueue) : List Deal :=
  match q.consumers with
  | id :: _ => [.completed id none]
  | [] => [.discarded q.items]

/-- A message is handed to the oldest receive, or waits. -/
theorem settles_produce (q : ReceiveQueue) (message : List UInt8) :
    Settles q (q.produceDeals message) (q.produce message).2 := by
  intro before h
  rcases q.produce_cases message with
    ⟨id, q', hq, hconsumers, hitems, hrest⟩ | ⟨q', hq, hconsumers, hnobody, hmore⟩
  · -- somebody waits, so no message does
    rw [hconsumers, hitems] at h
    rw [hq, hrest]
    simp only [produceDeals, hconsumers]
    exact h.hand message
  · -- nobody waits
    rw [hconsumers] at h
    rw [hq, hnobody, hmore]
    simp only [produceDeals, hconsumers]
    exact h.store message

/-- A receive takes the oldest message, or waits. -/
theorem settles_consume (q : ReceiveQueue) (id : Nat) :
    Settles q (q.consumeDeals id) (q.consume id).2 := by
  intro before h
  rcases q.consume_cases id with
    ⟨message, q', hq, hitems, hnobody, hrest⟩ | ⟨q', hq, hitems, hrest, hmore⟩
  · -- a message waits, so nobody does
    rw [hnobody, hitems] at h
    rw [hq, hrest]
    simp only [consumeDeals, hitems]
    exact h.take id
  · -- no message waits
    rw [hitems] at h
    rw [hq, hrest, hmore]
    simp only [consumeDeals, hitems]
    exact h.wait id

end ReceiveQueue

end Queue

/-- The frames in which `voidReceives` loops. -/
def Frame.voids : Frame → Bool
  | .stopReadPump _ | .readPumpFailed | .handshake _ _ => true
  | _ => false

namespace MessageQueue

variable [Lib.ProducerConsumer Nat (List UInt8)]

/-! ## Functions that leave the queue alone -/

@[simp] theorem mReceiveQueue_push (f : Frame) (s : MessageQueue) :
    (s.push f).mReceiveQueue = s.mReceiveQueue := rfl

@[simp] theorem mReceiveQueue_readPump (s : MessageQueue) :
    s.readPump.mReceiveQueue = s.mReceiveQueue := by
  unfold readPump
  split <;> rfl

@[simp] theorem mReceiveQueue_startReadPump (s : MessageQueue) :
    s.startReadPump.mReceiveQueue = s.mReceiveQueue := by
  unfold startReadPump
  split
  · rfl
  · exact mReceiveQueue_readPump _

@[simp] theorem mReceiveQueue_callHandler (handler : SendHandler) (ec : Option ErrorCode)
    (s : MessageQueue) : (s.callHandler handler ec).mReceiveQueue = s.mReceiveQueue := by
  obtain ⟨number, code⟩ := handler
  cases code with
  | user id => rfl
  | readPump =>
    cases ec with
    | none => exact mReceiveQueue_readPump _
    | some ec => rfl

@[simp] theorem mReceiveQueue_callPassed (code : Handler) (ec : Option ErrorCode)
    (s : MessageQueue) : (s.callPassed code ec).mReceiveQueue = s.mReceiveQueue :=
  mReceiveQueue_callHandler _ _ _

@[simp] theorem mReceiveQueue_writePump (s : MessageQueue) :
    s.writePump.mReceiveQueue = s.mReceiveQueue := by
  unfold writePump
  split
  · rfl
  · split <;> rfl

@[simp] theorem mReceiveQueue_flushWriteBuffer (code : Handler) (s : MessageQueue) :
    (s.flushWriteBuffer code).mReceiveQueue = s.mReceiveQueue := by
  by_cases hbuffer : s.mWriteBuffer = []
  · rw [flushWriteBuffer_nil code hbuffer, mReceiveQueue_callPassed]
  · by_cases hbox : s.mOutbox = []
    · rw [flushWriteBuffer_first code hbuffer hbox, mReceiveQueue_writePump]
      rfl
    · rw [flushWriteBuffer_later code hbuffer hbox]
      rfl

@[simp] theorem mReceiveQueue_popOutbox (data : SendData) (rest : List SendData)
    (ec : Option ErrorCode) (s : MessageQueue) :
    (popOutbox data rest ec s).mReceiveQueue = s.mReceiveQueue :=
  mReceiveQueue_callHandler _ _ _

@[simp] theorem mReceiveQueue_handleWrite (ec : Option ErrorCode) (nWritten : Nat)
    (s : MessageQueue) : (s.handleWrite ec nWritten).mReceiveQueue = s.mReceiveQueue := by
  cases ec with
  | none =>
    cases hfront : s.mOutbox with
    | nil => simp only [handleWrite, hfront]
    | cons data rest =>
      simp only [handleWrite, hfront, mReceiveQueue_popOutbox]
      split <;> rfl
  | some ec => rfl

@[simp] theorem mReceiveQueue_handleRead (ec : Option ErrorCode) (s : MessageQueue) :
    (s.handleRead ec).mReceiveQueue = s.mReceiveQueue := by
  cases ec <;> rfl

theorem mReceiveQueue_handshakeOperation (s : MessageQueue) {next : MessageQueue → MessageQueue}
    (hnext : ∀ t : MessageQueue, (next t).mReceiveQueue = t.mReceiveQueue) :
    (s.handshakeOperation next).mReceiveQueue = s.mReceiveQueue := by
  apply handshakeOperation_cases (P := fun t => t.mReceiveQueue = s.mReceiveQueue)
  · exact fun _ => hnext _
  · rfl
  · rfl

/-! ## Steps -/

/-- What an action deals. -/
def deals (s : MessageQueue) (a : Action) : List Deal :=
  match a, s.stack with
  | .resume, f :: _ => if f.voids then s.mReceiveQueue.voidDeals else []
  | .delivered message, .octets :: _ => s.mReceiveQueue.produceDeals message
  | .asyncReceive id, _ =>
    if s.UserRuns ∧ s.mHandshakeComplete = true ∧ s.getReadPumpError.1 = none then
      s.mReceiveQueue.consumeDeals id
    else []
  | _, _ => []

/-- A round calls the oldest receive, or discards what waits and goes on. -/
theorem settles_voidReceives (s : MessageQueue) {done : MessageQueue → MessageQueue}
    (hdone : ∀ t : MessageQueue, (done t).mReceiveQueue = t.mReceiveQueue) :
    Settles s.mReceiveQueue s.mReceiveQueue.voidDeals (s.voidReceives done).mReceiveQueue := by
  intro before h
  apply voidReceives_cases (P := fun t => Accounts t.mReceiveQueue.consumers
    t.mReceiveQueue.items (before ++ s.mReceiveQueue.voidDeals))
  · -- the oldest receive is completed with an error
    intro id q hmore hsame
    rw [hmore] at h
    rw [mReceiveQueue_push, hsame]
    simp only [ReceiveQueue.voidDeals, hmore]
    exact h.void
  · -- nobody waits: the rest is discarded
    intro q hnobody hnone hnothing
    rw [hnobody] at h
    rw [hdone, hnone, hnothing]
    simp only [ReceiveQueue.voidDeals, hnobody]
    exact h.discard

/-- Only frames that void receives deal. -/
theorem settles_resume (s : MessageQueue) :
    Settles s.mReceiveQueue (s.deals .resume) s.resume.mReceiveQueue := by
  have hsame : ∀ {t : MessageQueue}, s.deals .resume = [] → t.mReceiveQueue = s.mReceiveQueue →
      Settles s.mReceiveQueue (s.deals .resume) t.mReceiveQueue := by
    intro t hnone ht
    rw [hnone, ht]
    exact .refl _
  unfold resume
  split
  · -- `writePump` and the frames of the outbox deal nothing
    rename_i stack hstack
    exact hsame (by simp [deals, hstack, Frame.voids]) (by simp)
  · rename_i ec stack hstack
    apply hsame (by simp [deals, hstack, Frame.voids])
    split
    · rfl
    · simp
  · rename_i ec stack hstack
    apply hsame (by simp [deals, hstack, Frame.voids])
    split <;> rfl
  · -- `stopReadPump`
    rename_i ec stack hstack
    have hdeals : s.deals .resume = s.mReceiveQueue.voidDeals := by
      simp [deals, hstack, Frame.voids]
    rw [hdeals]
    apply settles_voidReceives
    intro t
    split <;> rfl
  · -- `readPump` on a closed stream
    rename_i stack hstack
    have hdeals : s.deals .resume = s.mReceiveQueue.voidDeals := by
      simp [deals, hstack, Frame.voids]
    rw [hdeals]
    exact settles_voidReceives s fun _ => rfl
  · -- the first run of the handshake
    rename_i octets id stack hstack
    have hdeals : s.deals .resume = s.mReceiveQueue.voidDeals := by
      simp [deals, hstack, Frame.voids]
    rw [hdeals]
    apply settles_voidReceives
    intro t
    rw [mReceiveQueue_startReadPump, mReceiveQueue_push]
  · -- `sfpConnect` deals nothing
    rename_i octets id stack hstack
    exact hsame (by simp [deals, hstack, Frame.voids]) (by simp)
  · rename_i stack hstack
    exact hsame (by simp [deals, hstack, Frame.voids]) rfl
  · rename_i stack hstack
    exact hsame (by simp [deals, hstack, Frame.voids]) rfl
  · rename_i hstack
    exact hsame (by simp [deals, hstack]) rfl

theorem step_asyncReceive (s : MessageQueue) (id : Nat) :
    s.step (.asyncReceive id)
      = if s.UserRuns ∧ s.mHandshakeComplete = true then s.asyncReceive id else s := by
  rw [step_user (.inr ⟨id, rfl⟩), ite_and]
  rfl

theorem deals_asyncReceive (s : MessageQueue) (id : Nat) :
    s.deals (.asyncReceive id)
      = if s.UserRuns ∧ s.mHandshakeComplete = true ∧ s.getReadPumpError.1 = none then
          s.mReceiveQueue.consumeDeals id
        else [] := by
  unfold deals
  rfl

/-- A receive that is refused is not accepted. -/
theorem settles_asyncReceive (s : MessageQueue) (id : Nat) :
    Settles s.mReceiveQueue (s.deals (.asyncReceive id))
      (s.step (.asyncReceive id)).mReceiveQueue := by
  rw [step_asyncReceive, deals_asyncReceive]
  by_cases hcalled : s.UserRuns ∧ s.mHandshakeComplete = true
  · rw [if_pos hcalled]
    unfold asyncReceive
    rcases s.getReadPumpError_split with ⟨hfine, hsplit⟩ | ⟨ec, hsplit⟩
    · rw [if_pos ⟨hcalled.1, hcalled.2, hfine⟩, hsplit]
      -- accepted: put to the queue
      have hconsume := s.mReceiveQueue.settles_consume id
      rcases hq : s.mReceiveQueue.consume id with ⟨_ | message, q⟩
      · rw [hq] at hconsume
        simp only [hq]
        exact hconsume
      · rw [hq] at hconsume
        simp only [hq]
        exact hconsume
    · -- refused: the handler is called with the error
      have hrefused : ¬ (s.UserRuns ∧ s.mHandshakeComplete = true ∧
          s.getReadPumpError.1 = none) := by
        rw [hsplit]
        exact fun h => by cases h.2.2
      rw [if_neg hrefused, hsplit]
      exact .refl _
  · rw [if_neg hcalled, if_neg fun h => hcalled ⟨h.1, h.2.1⟩]
    exact .refl _

theorem settles_delivered (s : MessageQueue) (message : List UInt8) :
    Settles s.mReceiveQueue (s.deals (.delivered message))
      (s.step (.delivered message)).mReceiveQueue := by
  cases hstack : s.stack with
  | nil =>
    simp only [deals, step, hstack]
    exact .refl _
  | cons f stack =>
    cases f with
    | octets =>
      have hqueue : (s.deliverCallback message).mReceiveQueue
          = (s.mReceiveQueue.produce message).2 := by
        unfold deliverCallback
        rcases s.mReceiveQueue.produce message with ⟨_ | id, q⟩ <;> rfl
      simp only [deals, step, hstack, contextStep, hqueue]
      exact s.mReceiveQueue.settles_produce message
    | _ =>
      simp only [deals, step, hstack]
      exact .refl _

/-- No other action deals. -/
theorem mReceiveQueue_step (s : MessageQueue) {a : Action} (hresume : a ≠ .resume)
    (hreceive : ∀ id, a ≠ .asyncReceive id) (hdelivered : ∀ message, a ≠ .delivered message) :
    (s.step a).mReceiveQueue = s.mReceiveQueue := by
  apply step_cases (P := fun t => t.mReceiveQueue = s.mReceiveQueue) s a
  · rfl
  · exact fun h => absurd h hresume
  · exact fun _ _ => rfl
  · intro stack hstack
    cases a with
    | delivered message => exact absurd rfl (hdelivered message)
    | octetsDone => exact mReceiveQueue_flushWriteBuffer _ _
    | _ => rfl
  · intro hstack
    cases a with
    | readDone ec =>
      show (if s.reads = 0 then s else _).mReceiveQueue = _
      split
      · rfl
      · exact mReceiveQueue_handleRead _ _
    | writeDone i ec =>
      cases hw : s.writes[i]? with
      | none => rw [completionStep_writeDone_none hw]
      | some w =>
        rw [completionStep_writeDone hw]
        exact mReceiveQueue_handleWrite _ _ _
    | _ => rfl
  · intro huser
    cases a with
    | asyncReceive id => exact absurd rfl (hreceive id)
    | asyncSend octets id =>
      show (if s.mHandshakeComplete then s.asyncSend octets id else s).mReceiveQueue = _
      split
      · apply asyncSend_cases (P := fun t => t.mReceiveQueue = s.mReceiveQueue)
        · exact fun _ => mReceiveQueue_callPassed _ _ _
        · exact fun _ => mReceiveQueue_flushWriteBuffer _ _
      · rfl
    | handshake octets id => exact mReceiveQueue_handshakeOperation s fun _ => rfl
    | handshakeRetry octets id =>
      exact mReceiveQueue_handshakeOperation s fun _ => mReceiveQueue_flushWriteBuffer _ _
    | handshakeDone => exact mReceiveQueue_handshakeOperation s fun _ => rfl
    | keepalive =>
      show s.getReadPumpError.2.mReceiveQueue = _
      rw [getReadPumpError_snd]
    | _ => rfl

theorem settles_step (s : MessageQueue) (a : Action) :
    Settles s.mReceiveQueue (s.deals a) (s.step a).mReceiveQueue := by
  cases a with
  | resume => exact s.settles_resume
  | asyncReceive id => exact s.settles_asyncReceive id
  | delivered message => exact s.settles_delivered message
  | _ =>
    rw [mReceiveQueue_step]
    · exact .refl _
    all_goals nofun

/-! ## Runs -/

/-- The queue as its observer sees it. -/
def dealing : Mealy MessageQueue Action (List Deal) := ⟨step, deals⟩

/-- All deals of a run. -/
def dealt (actions : List Action) : List Deal := (dealing.outputs init actions).flatten

end MessageQueue

end Libsfp.Asio
