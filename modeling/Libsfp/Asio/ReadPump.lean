import Libsfp.Asio.MessageQueue

/-!
# The Read Pump

Receives wait in `mReceiveQueue` until the read pump delivers a message or stops and voids them. So
a receive that waits while the pump has stopped waits forever. `getReadPumpError` is to refuse it,
but it reports the error of the pump only once:

1. a pump that runs is in one place: an `async_read_some`, a buffer of the outbox, or the stack,
2. as long as no receive is accepted while the pump has stopped, receives wait only while it runs,
3. a pump stopped by `operation_aborted` leaves the stream open, so the second call is stranded.
-/

namespace Libsfp.Asio

/-- Frames in which the read pump is: it goes on, or stops, when they are left. -/
def Frame.isPump : Frame → Bool
  | .octets | .stopReadPump _ | .readPumpFailed => true
  | _ => false

/-- The pump goes with its lambda. -/
def Handler.inHand : Handler → Nat
  | .user _ => 0
  | .readPump => 1

namespace MessageQueue

variable [Lib.ProducerConsumer Nat (List UInt8)]

/-- The places where the read pump is. -/
def pumpPlaces (reads : Nat) (outbox : List SendData) (stack : List Frame) : Nat :=
  reads + outbox.countP (·.handler.code = .readPump) + stack.countP Frame.isPump

/-- The pump is in one place while it runs and nowhere else, and receives wait only while it runs.
A function that is to pass the pump on has it in hand. -/
structure PumpInPlace (inHand : Nat) (running : Bool) (consumers : List Nat) (reads : Nat)
    (outbox : List SendData) (stack : List Frame) : Prop where
  places : inHand + pumpPlaces reads outbox stack = if running then 1 else 0
  waiting : running = false → consumers = []

def InPlace (inHand : Nat) (s : MessageQueue) : Prop :=
  PumpInPlace inHand s.mReadPumpRunning s.mReceiveQueue.consumers s.reads s.mOutbox s.stack

/-- A buffer in the outbox will be settled. -/
def Served (s : MessageQueue) : Prop :=
  s.mOutbox = [] ∨ s.writes ≠ [] ∨ s.pumping = true

/-- **The invariant of the read pump**, with the pump in hand or not. -/
def Pumped (inHand : Nat) (s : MessageQueue) : Prop := s.InPlace inHand ∧ s.Served

/-! ## Frames -/

theorem Served.push {s : MessageQueue} (h : s.Served) (f : Frame) : (s.push f).Served := by
  rcases h with h | h | h
  · exact .inl h
  · exact .inr (.inl h)
  · refine .inr (.inr ?_)
    show (f :: s.stack).any Frame.pumps = true
    rw [List.any_cons]
    exact Bool.or_eq_true_iff.mpr (.inr h)

/-- A frame with the pump takes it over. -/
theorem InPlace.push {s : MessageQueue} {f : Frame} {n : Nat}
    (h : s.InPlace (n + if f.isPump then 1 else 0)) : (s.push f).InPlace n := by
  refine ⟨?_, h.waiting⟩
  show n + pumpPlaces s.reads s.mOutbox (f :: s.stack) = if s.mReadPumpRunning then 1 else 0
  rw [← h.places, pumpPlaces, pumpPlaces, List.countP_cons]
  omega

theorem Pumped.push {s : MessageQueue} {f : Frame} {n : Nat}
    (h : s.Pumped (n + if f.isPump then 1 else 0)) : (s.push f).Pumped n :=
  ⟨h.1.push, h.2.push f⟩

/-- A frame that is left gives the pump back. -/
theorem InPlace.pop {s : MessageQueue} {f : Frame} {stack : List Frame} {n : Nat}
    (h : s.InPlace n) (hstack : s.stack = f :: stack) :
    InPlace (n + if f.isPump then 1 else 0) { s with stack } := by
  refine ⟨?_, h.waiting⟩
  have hplaces := h.places
  rw [hstack, pumpPlaces, List.countP_cons] at hplaces
  show _ + pumpPlaces s.reads s.mOutbox stack = if s.mReadPumpRunning then 1 else 0
  rw [← hplaces, pumpPlaces]
  omega

theorem Served.pop {s : MessageQueue} {f : Frame} {stack : List Frame} (h : s.Served)
    (hstack : s.stack = f :: stack) (hpumps : f.pumps = false) : Served { s with stack } := by
  rcases h with h | h | h
  · exact .inl h
  · exact .inr (.inl h)
  · refine .inr (.inr ?_)
    rw [pumping, hstack, List.any_cons, hpumps, Bool.false_or] at h
    exact h

theorem Pumped.pop {s : MessageQueue} {f : Frame} {stack : List Frame} {n : Nat} (h : s.Pumped n)
    (hstack : s.stack = f :: stack) (hpumps : f.pumps = false) :
    Pumped (n + if f.isPump then 1 else 0) { s with stack } :=
  ⟨h.1.pop hstack, h.2.pop hstack hpumps⟩

/-! ## The functions of the class -/

/-- The pump reads, or waits to fail: in one place. -/
theorem Pumped.readPump {s : MessageQueue} {n : Nat} (h : s.Pumped (n + 1)) :
    s.readPump.Pumped n := by
  unfold MessageQueue.readPump
  split
  · refine ⟨⟨?_, h.1.waiting⟩, h.2⟩
    show n + pumpPlaces (s.reads + 1) s.mOutbox s.stack = if s.mReadPumpRunning then 1 else 0
    rw [← h.1.places, pumpPlaces, pumpPlaces]
    omega
  · -- closed: the frame that voids the receives has the pump
    exact Pumped.push (f := .readPumpFailed) h

/-- A lambda of the pump has it, other handlers do not. -/
theorem Pumped.callHandler {s : MessageQueue} {handler : SendHandler} {n : Nat}
    (h : s.Pumped (n + handler.code.inHand)) (ec : Option ErrorCode) :
    (s.callHandler handler ec).Pumped n := by
  obtain ⟨number, code⟩ := handler
  -- the call is only logged before the code runs
  have hlogged : Pumped (n + code.inHand) { s with called := s.called ++ [(⟨number, code⟩, ec)] } :=
    h
  cases code with
  | user id => exact Pumped.push (f := .user) hlogged
  | readPump =>
    cases ec with
    | none => exact hlogged.readPump
    | some ec => exact Pumped.push (f := .stopReadPump ec) hlogged

/-- A handler that is passed in and called at once. -/
theorem Pumped.callPassed {s : MessageQueue} (code : Handler) {n : Nat}
    (h : s.Pumped (n + code.inHand)) (ec : Option ErrorCode) :
    (s.callPassed code ec).Pumped n :=
  Pumped.callHandler (s := { s with passed := s.passed + 1 }) h ec

/-- `writePump` sees to the outbox, whatever it finds. -/
theorem InPlace.writePump {s : MessageQueue} (h : s.InPlace 0) : s.writePump.Pumped 0 := by
  unfold MessageQueue.writePump
  split
  · rename_i hempty
    exact ⟨h, .inl hempty⟩
  · split
    · exact ⟨h, .inr (.inl (List.append_ne_nil_of_right_ne_nil _ (List.cons_ne_nil _ _)))⟩
    · -- closed: `voidOutbox` will settle the buffers
      exact ⟨InPlace.push (f := .voidOutbox .networkDown) h, .inr (.inr rfl)⟩

/-- The outbox takes the pump over with its lambda. -/
theorem Pumped.flushWriteBuffer {s : MessageQueue} (code : Handler)
    (h : s.Pumped code.inHand) : (s.flushWriteBuffer code).Pumped 0 := by
  by_cases hbuffer : s.mWriteBuffer = []
  · rw [flushWriteBuffer_nil code hbuffer]
    apply Pumped.callPassed
    rw [Nat.zero_add]
    exact h
  -- the buffer carries the lambda into the outbox
  have hplaces : (s.pushOutbox code).InPlace 0 := by
    refine ⟨?_, h.1.waiting⟩
    show 0 + pumpPlaces s.reads (s.mOutbox ++ [⟨s.mWriteBuffer, ⟨s.passed, code⟩⟩]) s.stack
      = if s.mReadPumpRunning then 1 else 0
    rw [← h.1.places, pumpPlaces, pumpPlaces, List.countP_append]
    cases code with
    | user id => simp [Handler.inHand]
    | readPump => simp [Handler.inHand]; omega
  by_cases hbox : s.mOutbox = []
  · rw [flushWriteBuffer_first code hbuffer hbox]
    exact hplaces.writePump
  · rw [flushWriteBuffer_later code hbuffer hbox]
    -- whoever serves the front serves the rest
    exact ⟨hplaces, .inr (h.2.resolve_left hbox)⟩

/-- The front gives the pump back, and its handler takes it. -/
theorem InPlace.popOutbox {s : MessageQueue} {data : SendData} {rest : List SendData}
    (h : s.InPlace 0) (hfront : s.mOutbox = data :: rest) (hpumping : s.pumping = true)
    (ec : Option ErrorCode) : (MessageQueue.popOutbox data rest ec s).Pumped 0 := by
  apply Pumped.callHandler
  refine ⟨⟨?_, h.waiting⟩, .inr (.inr hpumping)⟩
  have hplaces := h.places
  rw [hfront, pumpPlaces, List.countP_cons] at hplaces
  show 0 + data.handler.code.inHand + pumpPlaces s.reads rest s.stack
    = if s.mReadPumpRunning then 1 else 0
  rw [← hplaces, pumpPlaces]
  -- the place in the outbox becomes the hand
  cases data.handler.code with
  | user id => simp [Handler.inHand]
  | readPump => simp [Handler.inHand]; omega

/-- What was popped had the pump or not. -/
theorem InPlace.handleWrite {s : MessageQueue} (h : s.InPlace 0) (ec : Option ErrorCode)
    (nWritten : Nat) : (s.handleWrite ec nWritten).Pumped 0 := by
  cases ec with
  | none =>
    cases hfront : s.mOutbox with
    | nil =>
      have hplaces := h.places
      rw [hfront] at hplaces
      simp only [MessageQueue.handleWrite, hfront]
      exact ⟨⟨hplaces, h.waiting⟩, .inl rfl⟩
    | cons data rest =>
      simp only [MessageQueue.handleWrite, hfront]
      -- the assertion touches nothing else
      have hpush : ∀ fault, (MessageQueue.push .writePump { s with fault }).InPlace 0 :=
        fun fault => InPlace.push (s := { s with fault }) (f := .writePump) h
      split
      · exact (hpush s.fault).popOutbox hfront rfl none
      · exact (hpush true).popOutbox hfront rfl none
  | some ec =>
    -- an error: two frames without the pump
    have hpush : (s.push (.closeUnlessAborted ec)).InPlace 0 :=
      InPlace.push (f := .closeUnlessAborted ec) h
    exact ⟨InPlace.push (f := .voidOutbox ec) hpush, .inr (.inr rfl)⟩

/-- A round calls a waiting consumer; the last one leaves none. -/
theorem Pumped.voidReceives {s : MessageQueue} {f : Frame} {stack : List Frame} (h : s.Pumped 0)
    (hstack : s.stack = f :: stack) (hpumps : f.pumps = false)
    {done : MessageQueue → MessageQueue}
    (hdone : ∀ t : MessageQueue, t.Pumped (if f.isPump then 1 else 0) →
      t.mReceiveQueue.consumers = [] → (done t).Pumped 0) : (s.voidReceives done).Pumped 0 := by
  apply voidReceives_cases
  · intro id q hmore _
    apply Pumped.push (f := .user)
    refine ⟨⟨h.1.places, ?_⟩, h.2⟩
    intro hstopped
    -- somebody waits, so the pump runs
    have hwaiting := h.1.waiting hstopped
    rw [hmore] at hwaiting
    cases hwaiting
  · intro q _ hnobody _
    rw [hstack]
    have hpop := h.pop hstack hpumps
    rw [Nat.zero_add] at hpop
    exact hdone _ ⟨⟨hpop.1.places, fun _ => hnobody⟩, hpop.2⟩ hnobody

/-- The flags after the pump has stopped. -/
theorem Pumped.stop {s : MessageQueue} (h : s.Pumped 1) (hnone : s.mReceiveQueue.consumers = [])
    (ec : ErrorCode) (isOpen : Bool) :
    Pumped 0 { s with mReadPumpRunning := false, mReadPumpError := some ec, isOpen } := by
  have hplaces := h.1.places
  refine ⟨⟨?_, fun _ => hnone⟩, h.2⟩
  show 0 + pumpPlaces s.reads s.mOutbox s.stack = 0
  -- the pump in hand was the only place
  cases hrunning : s.mReadPumpRunning with
  | true =>
    rw [hrunning, if_pos rfl] at hplaces
    omega
  | false =>
    rw [hrunning, if_neg Bool.false_ne_true] at hplaces
    omega

/-- A pump that had stopped starts. -/
theorem Pumped.startReadPump {s : MessageQueue} (h : s.Pumped 0) : s.startReadPump.Pumped 0 := by
  unfold MessageQueue.startReadPump
  split
  · exact h
  · rename_i hstopped
    apply Pumped.readPump
    refine ⟨⟨?_, nofun⟩, h.2⟩
    -- a pump that had stopped is nowhere, so it is created in hand
    have hplaces := h.1.places
    rw [if_neg hstopped] at hplaces
    show 0 + 1 + pumpPlaces s.reads s.mOutbox s.stack = 1
    omega

/-! ## Steps -/

/-- A receive is accepted, and has to wait, while the read pump has stopped. -/
def Stranding (s : MessageQueue) : Action → Prop
  | .asyncReceive _ => s.UserRuns ∧ s.mHandshakeComplete = true ∧ s.mReadPumpRunning = false ∧
    s.mReadPumpError = none ∧ s.isOpen = true ∧ s.mReceiveQueue.items = []
  | _ => False

instance (s : MessageQueue) (a : Action) : Decidable (s.Stranding a) := by
  cases a <;> unfold Stranding <;> infer_instance

/-- Control returns to the top of the stack. -/
theorem Pumped.resume {s : MessageQueue} (h : s.Pumped 0) : s.resume.Pumped 0 := by
  unfold MessageQueue.resume
  split
  · -- `handleWrite` goes on to the next front
    rename_i stack hstack
    exact InPlace.writePump (s := { s with stack }) (h.1.pop hstack)
  · -- `voidOutbox`, while there are fronts
    rename_i ec stack hstack
    split
    · rename_i hempty
      exact ⟨h.1.pop hstack, .inl hempty⟩
    · rename_i data rest hfront
      have hpumping : s.pumping = true := by rw [pumping, hstack]; rfl
      exact h.1.popOutbox hfront hpumping (some ec)
  · -- the stream is closed, or was aborted
    rename_i ec stack hstack
    have hpop := h.pop hstack rfl
    split
    · exact hpop
    · exact hpop
  · -- `stopReadPump`: the pump leaves the stack when nobody waits
    rename_i ec stack hstack
    apply h.voidReceives hstack rfl
    intro t ht hnone
    split
    · exact Pumped.stop ht hnone ec t.isOpen
    · exact Pumped.stop ht hnone ec false
  · -- `readPump` on a closed stream
    rename_i stack hstack
    apply h.voidReceives hstack rfl
    intro t ht hnone
    exact Pumped.stop ht hnone .networkDown t.isOpen
  · -- the handshake starts a pump that had stopped
    rename_i octets id stack hstack
    apply h.voidReceives hstack rfl
    intro t ht _
    apply Pumped.startReadPump
    exact Pumped.push (s := { t with mWriteBuffer := [] }) (f := .connect octets id) ht
  · -- the octets of `sfpConnect` are flushed
    rename_i octets id stack hstack
    exact Pumped.flushWriteBuffer (.user id)
      (s := { s with stack := stack, mWriteBuffer := s.mWriteBuffer ++ octets }) (h.pop hstack rfl)
  · exact h
  · exact h
  · exact h

/-- A receive may wait while the pump runs. -/
theorem Pumped.wait {s : MessageQueue} (h : s.Pumped 0) (hrunning : s.mReadPumpRunning = true)
    (q : ReceiveQueue) : Pumped 0 { s with mReadPumpError := none, mReceiveQueue := q } := by
  refine ⟨⟨h.1.places, ?_⟩, h.2⟩
  intro hstopped
  have hstopped' : s.mReadPumpRunning = false := hstopped
  rw [hrunning] at hstopped'
  cases hstopped'

/-- Receives wait behind a running pump only, unless one is stranded. -/
theorem Pumped.userStep {s : MessageQueue} (h : s.Pumped 0) {a : Action} (huser : s.UserRuns)
    (hstrand : ¬ s.Stranding a) : (s.userStep a).Pumped 0 := by
  cases a with
  | asyncSend octets id =>
    show Pumped 0 (if s.mHandshakeComplete then _ else s)
    split
    · apply asyncSend_cases
      · exact fun ec => Pumped.callPassed (s := { s with mReadPumpError := none }) (.user id) h _
      · intro _
        exact Pumped.flushWriteBuffer (.user id)
          (s := { s with mReadPumpError := none, mWriteBuffer := s.mWriteBuffer ++ octets }) h
    · exact h
  | asyncReceive id =>
    show Pumped 0 (if s.mHandshakeComplete then _ else s)
    split
    · rename_i hcomplete
      apply asyncReceive_cases
      · exact Pumped.push (s := { s with mReadPumpError := none }) (f := .user) h
      · intro q hsame
        -- a message was there: nobody waits more than before
        have hq : Pumped 0 { s with mReadPumpError := none, mReceiveQueue := q } := by
          refine ⟨⟨h.1.places, ?_⟩, h.2⟩
          intro hstopped
          exact hsame.trans (h.1.waiting hstopped)
        exact Pumped.push (f := .user) hq
      · intro hfine hempty q _
        apply h.wait
        -- a receive that waits: the pump runs, or the receive is stranded
        cases hrunning : s.mReadPumpRunning with
        | true => rfl
        | false =>
          obtain ⟨herror, hopen⟩ := getReadPumpError_eq_none.mp hfine
          exact absurd ⟨huser, hcomplete, hrunning, herror, hopen, hempty⟩ hstrand
    · exact h
  | handshake octets id =>
    apply handshakeOperation_cases
    · intro _
      exact Pumped.push (s := { s with mReadPumpError := none, mHandshakeComplete := false })
        (f := .handshake octets id) h
    · exact h
    · exact h
  | handshakeRetry octets id =>
    apply handshakeOperation_cases
    · intro _
      exact Pumped.flushWriteBuffer (.user id)
        (s := { s with mReadPumpError := none, mWriteBuffer := s.mWriteBuffer ++ octets }) h
    · exact h
    · exact h
  | handshakeDone =>
    apply handshakeOperation_cases
    · intro _
      exact h
    · exact h
    · exact h
  | keepalive =>
    show Pumped 0 s.getReadPumpError.2
    rw [getReadPumpError_snd]
    exact h
  | close | setOpen | handlerReturns | written | delivered | octetsDone | readDone | writeDone
  | resume => exact h

theorem Pumped.contextStep {s : MessageQueue} (h : s.Pumped 0) {stack : List Frame}
    (hstack : s.stack = .octets :: stack) (a : Action) : (s.contextStep stack a).Pumped 0 := by
  cases a with
  | delivered item =>
    show Pumped 0 (s.deliverCallback item)
    unfold deliverCallback
    rcases s.mReceiveQueue.produce_cases item with
      ⟨c, q, hq, hmore, -, -⟩ | ⟨q, hq, -, hnone, -⟩
    · simp only [hq]
      apply Pumped.push (f := .user)
      refine ⟨⟨h.1.places, ?_⟩, h.2⟩
      intro hstopped
      have hwaiting := h.1.waiting hstopped
      rw [hmore] at hwaiting
      cases hwaiting
    · simp only [hq]
      exact ⟨⟨h.1.places, fun _ => hnone⟩, h.2⟩
  | octetsDone => exact Pumped.flushWriteBuffer .readPump (h.pop hstack rfl)
  | asyncSend | asyncReceive | close | setOpen | handshake | handshakeRetry | handshakeDone
  | keepalive | handlerReturns | written | readDone | writeDone | resume => exact h

theorem Pumped.completionStep {s : MessageQueue} (h : s.Pumped 0) (a : Action) :
    (s.completionStep a).Pumped 0 := by
  cases a with
  | readDone ec =>
    show Pumped 0 (if s.reads = 0 then s else _)
    split
    · exact h
    · rename_i hreads
      -- the read gives the pump back
      have hread : Pumped 1 { s with reads := s.reads - 1 } := by
        refine ⟨⟨?_, h.1.waiting⟩, h.2⟩
        have hplaces := h.1.places
        rw [pumpPlaces] at hplaces
        show 1 + pumpPlaces (s.reads - 1) s.mOutbox s.stack = if s.mReadPumpRunning then 1 else 0
        rw [← hplaces, pumpPlaces]
        omega
      cases ec with
      | none => exact Pumped.push (f := .octets) hread
      | some ec => exact Pumped.push (f := .stopReadPump ec) hread
  | writeDone i ec =>
    cases hw : s.writes[i]? with
    | none =>
      rw [completionStep_writeDone_none hw]
      exact h
    | some w =>
      rw [completionStep_writeDone hw]
      exact InPlace.handleWrite (s := { s with
        writes := s.writes.eraseIdx i,
        wire := if ec = none then s.wire ++ [w.buffer] else s.wire }) h.1 ec _
  | asyncSend | asyncReceive | close | setOpen | handshake | handshakeRetry | handshakeDone
  | keepalive | handlerReturns | written | delivered | octetsDone | resume => exact h

theorem Pumped.step {s : MessageQueue} (h : s.Pumped 0) {a : Action} (hstrand : ¬ s.Stranding a) :
    (s.step a).Pumped 0 := by
  apply step_cases s a h
  · rintro rfl
    exact h.resume
  · intro stack hstack
    exact h.pop hstack rfl
  · intro stack hstack
    exact h.contextStep hstack a
  · intro _
    exact h.completionStep a
  · intro huser
    exact h.userStep huser hstrand

theorem pumped_init : init.Pumped 0 :=
  ⟨⟨rfl, fun _ => ReceiveQueue.consumers_empty⟩, .inl rfl⟩

/-- **No receive is stranded**, in every run in which no receive is accepted to wait while the read
pump has stopped: in the event loop, if a receive waits then the pump runs, either in an
`async_read_some` or with its lambda in the outbox and an `async_write` in progress. -/
theorem no_receive_stranded (actions : List Action)
    (hrun : Lib.Meets step (fun s a => ¬ s.Stranding a) init actions) :
    let s := Lib.run step init actions
    s.stack = [] → s.mReceiveQueue.depth < 0 → s.mReadPumpRunning = true ∧
      (s.reads = 1 ∨ (∃ data ∈ s.mOutbox, data.handler.code = .readPump) ∧ s.writes ≠ []) := by
  intro s hstack hdepth
  have h : s.Pumped 0 := Lib.run_invariant (fun _ _ hs ha => hs.step ha) pumped_init hrun
  have hrunning : s.mReadPumpRunning = true := by
    cases hstopped : s.mReadPumpRunning with
    | true => rfl
    | false =>
      exact absurd (h.1.waiting hstopped) (s.mReceiveQueue.depth_neg_iff.mp hdepth)
  refine ⟨hrunning, ?_⟩
  have hplaces := h.1.places
  rw [hrunning, if_pos rfl, pumpPlaces, hstack, List.countP_nil] at hplaces
  by_cases hreads : s.reads = 1
  · exact .inl hreads
  · -- then the pump is in the outbox, and the outbox is served
    have hcount : 0 < s.mOutbox.countP (·.handler.code = .readPump) := by omega
    obtain ⟨data, hdata, hpump⟩ := List.countP_pos_iff.mp hcount
    refine .inr ⟨⟨data, hdata, of_decide_eq_true hpump⟩, ?_⟩
    rcases h.2 with hbox | hwrites | hpumping
    · rw [hbox] at hdata
      cases hdata
    · exact hwrites
    · rw [pumping, hstack] at hpumping
      cases hpumping

end MessageQueue

/-! ## A cancelled read -/

namespace MessageQueue

attribute [local instance] Lib.ProducerConsumer.ofLists

/-- A handshake on an open stream, and a receive that waits. -/
def waitingRun : List Action :=
  [.setOpen true, .handshake [0x7e, 0x40, 0x7e] 0, .resume, .resume, .writeDone 0 none,
    .handlerReturns, .resume, .handshakeDone, .asyncReceive 1]

theorem no_receive_stranded_waiting :
    (Lib.run step init waitingRun).mReadPumpRunning = true :=
  (no_receive_stranded waitingRun (by decide) (by decide) (by decide)).1

/-- The read is cancelled; the first receive after it is refused, the second is not. -/
def cancelledRun : List Action :=
  waitingRun ++ [.readDone (some .operationAborted), .resume, .handlerReturns, .resume,
    .asyncReceive 2, .handlerReturns, .asyncReceive 3]

/-- The second receive waits on an open stream, and nothing is in progress. -/
theorem second_receive_stranded :
    let s := Lib.run step init cancelledRun
    s.stack = [] ∧ s.mReceiveQueue.consumers = [3] ∧ s.isOpen = true ∧ s.mReadPumpRunning = false
      ∧ s.reads = 0 ∧ s.mOutbox = [] ∧ s.writes = [] := by
  decide

end MessageQueue

end Libsfp.Asio
