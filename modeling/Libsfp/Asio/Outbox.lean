import Mathlib.Data.List.Perm.Basic
import Libsfp.Asio.MessageQueue

/-!
# The Outbox

`mOutbox` is meant to have one `async_write` in progress, for its front. `flushWriteBuffer` starts
one when its buffer is the only one, `handleWrite` starts the next one after the front is popped.
Between the two, `handleWrite` and `voidOutbox` call a handler:

1. as long as no such handler flushes a buffer onto the empty outbox of an open stream, every
   invariant holds at every moment: one write, for the front; buffers transferred once and in
   order; every handler called once;
2. a handler that does so has its own write started twice.
-/

namespace Libsfp.Asio

/-- Only the event loop calls `handleWrite` and `handleRead`. -/
def Frame.atBottom : Frame → Bool
  | .writePump | .octets => true
  | _ => false

/-- Below the loop of `handleRead` and the tail of `handleWrite` there is nothing. -/
def Bottomed : List Frame → Prop
  | [] => True
  | f :: stack => (f.atBottom = true → stack = []) ∧ Bottomed stack

/-- Any other frame may lie on top. -/
theorem Bottomed.cons {f : Frame} {stack : List Frame} (h : Bottomed stack)
    (hf : f.atBottom = false) : Bottomed (f :: stack) := by
  refine ⟨fun hbottom => ?_, h⟩
  rw [hf] at hbottom
  cases hbottom

/-! ## Calls of handlers -/

/-- Each `SendHandler` that was passed in was called once or waits in the outbox. The calls made for
flushed buffers are those for the buffers that were popped, in order and with their results. -/
structure CalledOnce (passed : Nat) (called : List (SendHandler × Option ErrorCode))
    (flushed : List SendData) (settled : List (SendData × Option ErrorCode))
    (outbox : List SendData) : Prop where
  once : (called.map (·.1.number) ++ outbox.map (·.handler.number)).Perm (List.range passed)
  flushed_lt : ∀ data ∈ flushed, data.handler.number < passed
  settled_calls : called.filter (fun c => c.1 ∈ flushed.map SendData.handler)
    = settled.map fun x => (x.1.handler, x.2)

namespace CalledOnce

variable {passed : Nat} {called : List (SendHandler × Option ErrorCode)}
  {flushed outbox rest : List SendData} {settled : List (SendData × Option ErrorCode)}

theorem called_lt (h : CalledOnce passed called flushed settled outbox) :
    ∀ c ∈ called, c.1.number < passed := by
  intro c hc
  have hmem : c.1.number ∈ called.map (·.1.number) ++ outbox.map (·.handler.number) :=
    List.mem_append_left _ (List.mem_map_of_mem hc)
  exact List.mem_range.mp (h.once.mem_iff.mp hmem)

/-- A handler that is called at once. -/
theorem call (h : CalledOnce passed called flushed settled outbox) (code : Handler)
    (ec : Option ErrorCode) :
    CalledOnce (passed + 1) (called ++ [(⟨passed, code⟩, ec)]) flushed settled outbox where
  once := by
    rw [List.range_succ, List.map_append, List.append_assoc]
    refine (List.Perm.append_left _ List.perm_append_comm).trans ?_
    rw [← List.append_assoc]
    exact h.once.append_right _
  flushed_lt := fun data hdata => Nat.lt_succ_of_lt (h.flushed_lt data hdata)
  settled_calls := by
    -- its number is new, so it is not the handler of a flushed buffer
    have hnew : (⟨passed, code⟩ : SendHandler) ∉ flushed.map SendData.handler := by
      intro hmem
      obtain ⟨data, hdata, heq⟩ := List.mem_map.mp hmem
      have hlt := h.flushed_lt data hdata
      rw [heq] at hlt
      exact Nat.lt_irrefl _ hlt
    rw [List.filter_append, h.settled_calls]
    simp only [List.filter_cons, hnew, decide_false, Bool.false_eq_true, if_false,
      List.filter_nil, List.append_nil]

/-- A handler that is flushed with a buffer. -/
theorem flush (h : CalledOnce passed called flushed settled outbox) (buffer : List UInt8)
    (code : Handler) :
    CalledOnce (passed + 1) called (flushed ++ [⟨buffer, ⟨passed, code⟩⟩]) settled
      (outbox ++ [⟨buffer, ⟨passed, code⟩⟩]) where
  once := by
    rw [List.range_succ, List.map_append, ← List.append_assoc]
    exact h.once.append_right _
  flushed_lt := by
    intro data hdata
    rcases List.mem_append.mp hdata with hdata | hdata
    · exact Nat.lt_succ_of_lt (h.flushed_lt data hdata)
    · rw [List.mem_singleton.mp hdata]
      exact Nat.lt_succ_self passed
  settled_calls := by
    rw [← h.settled_calls]
    apply List.filter_congr
    intro c hc
    -- it was not called before
    have hne : c.1 ≠ ⟨passed, code⟩ := by
      intro heq
      have hlt := h.called_lt c hc
      rw [heq] at hlt
      exact Nat.lt_irrefl _ hlt
    simp [hne]

/-- The front of the outbox is popped and its handler called. -/
theorem pop {data : SendData} (h : CalledOnce passed called flushed settled (data :: rest))
    (hmem : data ∈ flushed) (ec : Option ErrorCode) :
    CalledOnce passed (called ++ [(data.handler, ec)]) flushed (settled ++ [(data, ec)]) rest where
  once := by
    have honce := h.once
    rw [List.map_append, List.append_assoc]
    exact honce
  flushed_lt := h.flushed_lt
  settled_calls := by
    have hhandler : data.handler ∈ flushed.map SendData.handler := List.mem_map_of_mem hmem
    rw [List.filter_append, h.settled_calls, List.map_append]
    simp only [List.filter_cons, hhandler, decide_true, if_true, List.filter_nil]
    rfl

end CalledOnce

namespace MessageQueue

variable [Lib.ProducerConsumer Nat (List UInt8)]

/-- What is true of the outbox at every moment: the queue is first in, first out, nothing was read
from it while it was empty, and the handlers are called once. -/
structure OutboxInOrder (passed : Nat) (called : List (SendHandler × Option ErrorCode))
    (flushed : List SendData) (settled : List (SendData × Option ErrorCode))
    (outbox : List SendData) (wire : List (List UInt8)) (stack : List Frame) (fault : Bool) :
    Prop where
  no_fault : fault = false
  fifo : flushed = settled.map Prod.fst ++ outbox
  on_wire : wire = (settled.filter (·.2.isNone)).map (·.1.buffer)
  bottom : Bottomed stack
  calls : CalledOnce passed called flushed settled outbox

def InOrder (s : MessageQueue) : Prop :=
  OutboxInOrder s.passed s.called s.flushed s.settled s.mOutbox s.wire s.stack s.fault

/-- The write for the front, if there is a front. -/
def frontWrite (settled : List (SendData × Option ErrorCode)) (outbox : List SendData) :
    List AsyncWrite :=
  outbox.head?.toList.map fun data => ⟨settled.length, data.buffer⟩

/-- **The invariant of the outbox**: the front is being written, unless a handler is called on its
account; then nothing is. -/
def OneWrite (s : MessageQueue) : Prop :=
  s.InOrder ∧ s.writes = if s.pumping then [] else frontWrite s.settled s.mOutbox

/-! ## Pushing and popping -/

/-- A frame that has nothing to do with the outbox. -/
theorem OneWrite.push {s : MessageQueue} (h : s.OneWrite) {f : Frame} (hpumps : f.pumps = false)
    (hbottom : f.atBottom = false) : (s.push f).OneWrite := by
  obtain ⟨hs, hwrites⟩ := h
  refine ⟨⟨hs.no_fault, hs.fifo, hs.on_wire, hs.bottom.cons hbottom, hs.calls⟩, ?_⟩
  -- nobody more waits for a handler
  have hsame : (s.push f).pumping = s.pumping := by
    show (f.pumps || s.stack.any Frame.pumps) = s.stack.any Frame.pumps
    rw [hpumps, Bool.false_or]
  rw [hsame]
  exact hwrites

/-- Such a frame is left again. -/
theorem OneWrite.pop {s : MessageQueue} (h : s.OneWrite) {f : Frame} {stack : List Frame}
    (hstack : s.stack = f :: stack) (hpumps : f.pumps = false) :
    OneWrite { s with stack } := by
  obtain ⟨hs, hwrites⟩ := h
  have hbottom := hs.bottom
  rw [hstack] at hbottom
  refine ⟨⟨hs.no_fault, hs.fifo, hs.on_wire, hbottom.2, hs.calls⟩, ?_⟩
  have hsame : s.pumping = stack.any Frame.pumps := by
    show s.stack.any Frame.pumps = _
    rw [hstack, List.any_cons, hpumps, Bool.false_or]
  rw [hsame] at hwrites
  exact hwrites

/-! ## The functions of the class -/

theorem OneWrite.readPump {s : MessageQueue} (h : s.OneWrite) : s.readPump.OneWrite := by
  unfold MessageQueue.readPump
  split
  · exact h
  · exact h.push rfl rfl

/-- A handler starts nothing in the outbox before it returns. -/
theorem OneWrite.callHandler {s : MessageQueue} {handler : SendHandler} {ec : Option ErrorCode}
    (h : OneWrite { s with called := s.called ++ [(handler, ec)] }) :
    (s.callHandler handler ec).OneWrite := by
  obtain ⟨number, code⟩ := handler
  cases code with
  -- user code runs: it is a frame of its own
  | user id => exact h.push rfl rfl
  | readPump =>
    cases ec with
    -- the lambda of the read pump, which reads on or stops
    | none => exact h.readPump
    | some ec => exact h.push rfl rfl

/-- A handler that is passed in and called at once. -/
theorem OneWrite.callPassed {s : MessageQueue} (h : s.OneWrite) (code : Handler)
    (ec : Option ErrorCode) : (s.callPassed code ec).OneWrite := by
  obtain ⟨hs, hwrites⟩ := h
  apply OneWrite.callHandler
  -- no buffer is popped for it
  exact ⟨⟨hs.no_fault, hs.fifo, hs.on_wire, hs.bottom, hs.calls.call code ec⟩, hwrites⟩

/-- An empty outbox is in order, whoever waits. -/
theorem InOrder.oneWrite_of_empty {s : MessageQueue} (h : s.InOrder) (hwrites : s.writes = [])
    (hempty : s.mOutbox = []) : s.OneWrite := by
  refine ⟨h, ?_⟩
  rw [hwrites, hempty]
  cases s.pumping <;> rfl

/-- `writePump` with no write in progress: it must not find a front to write while a handler is
still to return. -/
theorem InOrder.writePump {s : MessageQueue} (h : s.InOrder) (hwrites : s.writes = [])
    (hidle : s.pumping = true → s.mOutbox = [] ∨ s.isOpen = false) : s.writePump.OneWrite := by
  unfold MessageQueue.writePump
  split
  · rename_i hempty
    exact h.oneWrite_of_empty hwrites hempty
  · rename_i data rest hfront
    split
    · rename_i hopen
      -- the front starts, so no handler may be waiting
      have hpumping : s.pumping = false := by
        cases hp : s.pumping with
        | false => rfl
        | true =>
          rcases hidle hp with h' | h'
          · rw [hfront] at h'
            cases h'
          · rw [hopen] at h'
            cases h'
      refine ⟨h, ?_⟩
      show s.writes ++ _ = if s.pumping then _ else _
      rw [hwrites, hpumping, hfront]
      rfl
    · -- closed: the outbox is going to be voided
      exact ⟨⟨h.no_fault, h.fifo, h.on_wire, h.bottom.cons rfl, h.calls⟩, hwrites⟩

/-- A flush of a nonempty buffer while a handler is still to return must find other buffers or a
closed stream. -/
theorem OneWrite.flushWriteBuffer {s : MessageQueue} (h : s.OneWrite) (code : Handler)
    (hidle : s.pumping = true → s.mOutbox = [] → s.mWriteBuffer ≠ [] → s.isOpen = false) :
    (s.flushWriteBuffer code).OneWrite := by
  obtain ⟨hs, hwrites⟩ := h
  by_cases hbuffer : s.mWriteBuffer = []
  · rw [flushWriteBuffer_nil code hbuffer]
    exact OneWrite.callPassed ⟨hs, hwrites⟩ code none
  -- the buffer goes to the back of the queue
  have horder : (s.pushOutbox code).InOrder := by
    refine ⟨hs.no_fault, ?_, hs.on_wire, hs.bottom, hs.calls.flush s.mWriteBuffer code⟩
    show s.flushed ++ _ = s.settled.map Prod.fst ++ (s.mOutbox ++ _)
    rw [hs.fifo, List.append_assoc]
  by_cases hbox : s.mOutbox = []
  · rw [flushWriteBuffer_first code hbuffer hbox]
    apply horder.writePump
    · show s.writes = []
      rw [hwrites, hbox]
      cases s.pumping <;> rfl
    · intro hpumping
      exact .inr (hidle hpumping hbox hbuffer)
  · -- the front stays the front
    rw [flushWriteBuffer_later code hbuffer hbox]
    obtain ⟨front, rest, hfront⟩ := List.exists_cons_of_ne_nil hbox
    rw [hfront] at hwrites
    refine ⟨horder, ?_⟩
    show s.writes = if s.pumping then [] else frontWrite s.settled (s.mOutbox ++ _)
    rw [hwrites, hfront]
    rfl

/-- The front is popped and its handler called, from a function that waits for it to return. -/
theorem InOrder.popOutbox {s : MessageQueue} {data : SendData} {rest : List SendData}
    (h : s.InOrder) (ec : Option ErrorCode) (hfront : s.mOutbox = data :: rest)
    (hwrites : s.writes = []) (hpumping : s.pumping = true) :
    (MessageQueue.popOutbox data rest ec
      { s with wire := if ec = none then s.wire ++ [data.buffer] else s.wire }).OneWrite := by
  apply OneWrite.callHandler
  -- the front was flushed, and it is called with the result it is popped for
  have hmem : data ∈ s.flushed := by
    rw [h.fifo, hfront]
    simp
  have hcalls := h.calls
  rw [hfront] at hcalls
  refine ⟨⟨h.no_fault, ?_, ?_, h.bottom, hcalls.pop hmem ec⟩, ?_⟩
  · show s.flushed = (s.settled ++ [(data, ec)]).map Prod.fst ++ rest
    rw [h.fifo, hfront, List.map_append, List.append_assoc]
    rfl
  · show (if ec = none then s.wire ++ [data.buffer] else s.wire)
      = ((s.settled ++ [(data, ec)]).filter (·.2.isNone)).map (·.1.buffer)
    rw [h.on_wire, List.filter_append, List.map_append]
    cases ec with
    | none => rfl
    | some ec => simp
  · show s.writes = if s.pumping then [] else _
    rw [hwrites, hpumping]
    rfl

/-- The receives are not the outbox's concern. -/
theorem OneWrite.voidReceives {s : MessageQueue} (h : s.OneWrite) {f : Frame} {stack : List Frame}
    (hstack : s.stack = f :: stack) (hpumps : f.pumps = false)
    {done : MessageQueue → MessageQueue}
    (hdone : ∀ t : MessageQueue, t.OneWrite → t.stack = stack → (done t).OneWrite) :
    (s.voidReceives done).OneWrite := by
  apply voidReceives_cases
  · intro id q _ _
    exact OneWrite.push (s := { s with mReceiveQueue := q }) h rfl rfl
  · intro q _ _ _
    rw [hstack]
    exact hdone _ (h.pop hstack hpumps) rfl

/-! ## Steps -/

/-- The step flushes a nonempty write buffer. -/
def flushes (s : MessageQueue) : Action → Bool
  | .asyncSend octets _ => decide s.UserRuns && s.mHandshakeComplete &&
    s.getReadPumpError.1.isNone && !(s.mWriteBuffer ++ octets).isEmpty
  | .handshakeRetry octets _ => decide s.UserRuns &&
    s.getReadPumpError.1.isNone && !(s.mWriteBuffer ++ octets).isEmpty
  | .resume =>
    match s.stack with
    | .connect octets _ :: _ => !(s.mWriteBuffer ++ octets).isEmpty
    | _ => false
  | _ => false

/-- A handler that `handleWrite` or `voidOutbox` has called flushes a buffer onto the empty outbox
of an open stream. -/
def Chained (s : MessageQueue) (a : Action) : Prop :=
  s.pumping = true ∧ s.mOutbox = [] ∧ s.isOpen = true ∧ s.flushes a = true

instance (s : MessageQueue) (a : Action) : Decidable (s.Chained a) :=
  inferInstanceAs (Decidable (_ ∧ _))

/-- Control returns to the top of the stack. -/
theorem OneWrite.resume {s : MessageQueue} (h : s.OneWrite) (hchain : ¬ s.Chained .resume) :
    s.resume.OneWrite := by
  have hs := h.1
  unfold MessageQueue.resume
  split
  · -- `handleWrite` goes on to the next front
    rename_i stack hstack
    have hbottom := hs.bottom
    rw [hstack] at hbottom
    obtain rfl : stack = [] := hbottom.1 rfl
    have hwrites : s.writes = [] := by
      have hpumping : s.pumping = true := by rw [pumping, hstack]; rfl
      rw [h.2, hpumping]
      rfl
    exact InOrder.writePump (s := { s with stack := [] })
      ⟨hs.no_fault, hs.fifo, hs.on_wire, trivial, hs.calls⟩ hwrites nofun
  · -- `voidOutbox`, while there are fronts
    rename_i ec stack hstack
    have hpumping : s.pumping = true := by rw [pumping, hstack]; rfl
    have hwrites : s.writes = [] := by rw [h.2, hpumping]; rfl
    have hbottom := hs.bottom
    rw [hstack] at hbottom
    split
    · rename_i hempty
      exact InOrder.oneWrite_of_empty (s := { s with stack })
        ⟨hs.no_fault, hs.fifo, hs.on_wire, hbottom.2, hs.calls⟩ hwrites hempty
    · rename_i data rest hfront
      exact hs.popOutbox (some ec) hfront hwrites hpumping
  · -- the stream is closed, or was aborted
    rename_i ec stack hstack
    have hpop := h.pop hstack rfl
    split
    · exact hpop
    · exact hpop
  · -- `stopReadPump`
    rename_i ec stack hstack
    apply h.voidReceives hstack rfl
    intro t ht hstack'
    split
    · exact ht
    · exact ht
  · -- `readPump` on a closed stream
    rename_i stack hstack
    apply h.voidReceives hstack rfl
    intro t ht hstack'
    exact ht
  · -- the receives are voided before `sfpConnect`
    rename_i octets id stack hstack
    apply h.voidReceives hstack rfl
    intro t ht hstack'
    unfold startReadPump
    have hpush : OneWrite ({ t with mWriteBuffer := [] }.push (.connect octets id)) :=
      OneWrite.push (s := { t with mWriteBuffer := [] }) ht rfl rfl
    split
    · exact hpush
    · exact OneWrite.readPump hpush
  · -- the octets of `sfpConnect` are flushed
    rename_i octets id stack hstack
    have hpop := h.pop hstack rfl
    apply OneWrite.flushWriteBuffer
      (s := { s with stack := stack, mWriteBuffer := s.mWriteBuffer ++ octets }) hpop
    intro hpumping hempty hbuffer
    have hpumping' : s.pumping = true := by
      rw [pumping, hstack]
      exact hpumping
    have hflushes : s.flushes .resume = true := by
      simp only [flushes, hstack]
      simpa using hbuffer
    -- a flush onto an empty outbox in front of a handler is what was excluded, unless the stream is
    -- closed
    cases hopen : s.isOpen with
    | false => rfl
    | true => exact absurd ⟨hpumping', hempty, hopen, hflushes⟩ hchain
  · exact h
  · exact h
  · exact h

/-- A flush in a call of user code. -/
theorem OneWrite.userFlush {s : MessageQueue} (h : s.OneWrite) (code : Handler)
    (octets : List UInt8) (hfine : s.getReadPumpError.1 = none)
    (hchain : ¬ (s.pumping = true ∧ s.mOutbox = [] ∧ s.isOpen = true ∧
      (s.mWriteBuffer ++ octets).isEmpty = false)) :
    OneWrite (MessageQueue.flushWriteBuffer code
      { s with mReadPumpError := none, mWriteBuffer := s.mWriteBuffer ++ octets }) := by
  apply OneWrite.flushWriteBuffer
    (s := { s with mReadPumpError := none, mWriteBuffer := s.mWriteBuffer ++ octets }) h
  intro hpumping hempty hbuffer
  -- without an error the stream is open
  have hopen := (getReadPumpError_eq_none.mp hfine).2
  have hnonempty : (s.mWriteBuffer ++ octets).isEmpty = false := by simpa using hbuffer
  exact absurd ⟨hpumping, hempty, hopen, hnonempty⟩ hchain

/-- Of what user code does, only flushes touch the outbox. -/
theorem OneWrite.userStep {s : MessageQueue} (h : s.OneWrite) {a : Action} (huser : s.UserRuns)
    (hchain : ¬ s.Chained a) : (s.userStep a).OneWrite := by
  cases a with
  | asyncSend octets id =>
    show OneWrite (if s.mHandshakeComplete then _ else s)
    split
    · rename_i hcomplete
      apply asyncSend_cases
      · exact fun ec => OneWrite.callPassed (s := { s with mReadPumpError := none }) h _ _
      · intro hfine
        apply h.userFlush _ _ hfine
        rintro ⟨hpumping, hempty, hopen, hnonempty⟩
        apply hchain
        refine ⟨hpumping, hempty, hopen, ?_⟩
        simp only [flushes, decide_eq_true huser, hcomplete, hfine, hnonempty]
        rfl
    · exact h
  | asyncReceive id =>
    show OneWrite (if s.mHandshakeComplete then _ else s)
    split
    · apply asyncReceive_cases
      · exact OneWrite.push (s := { s with mReadPumpError := none }) h rfl rfl
      · intro q _
        exact OneWrite.push (s := { s with mReadPumpError := none, mReceiveQueue := q }) h rfl rfl
      · intro _ _ q _
        exact h
    · exact h
  | handshake octets id =>
    apply handshakeOperation_cases
    · intro _
      exact OneWrite.push
        (s := { s with mReadPumpError := none, mHandshakeComplete := false }) h rfl rfl
    · exact h
    · exact h
  | handshakeRetry octets id =>
    apply handshakeOperation_cases
    · intro hfine
      apply h.userFlush _ _ hfine
      rintro ⟨hpumping, hempty, hopen, hnonempty⟩
      apply hchain
      refine ⟨hpumping, hempty, hopen, ?_⟩
      simp only [flushes, decide_eq_true huser, hfine, hnonempty]
      rfl
    · exact h
    · exact h
  | handshakeDone =>
    apply handshakeOperation_cases
    · intro _
      exact h
    · exact h
    · exact h
  | keepalive =>
    show OneWrite s.getReadPumpError.2
    rw [getReadPumpError_snd]
    exact h
  | close | setOpen | handlerReturns | written | delivered | octetsDone | readDone | writeDone
  | resume => exact h

/-- The context fills the write buffer; only the end of the loop flushes it. -/
theorem OneWrite.contextStep {s : MessageQueue} (h : s.OneWrite) {stack : List Frame}
    (hstack : s.stack = .octets :: stack) (a : Action) : (s.contextStep stack a).OneWrite := by
  cases a with
  | delivered item =>
    show OneWrite (s.deliverCallback item)
    unfold deliverCallback
    split
    · exact OneWrite.push (s := { s with mReceiveQueue := _ }) h rfl rfl
    · exact h
  | octetsDone =>
    -- `handleRead` was called by the event loop: nothing else is waiting
    have hbottom := h.1.bottom
    rw [hstack] at hbottom
    obtain rfl : stack = [] := hbottom.1 rfl
    exact OneWrite.flushWriteBuffer (h.pop hstack rfl) .readPump nofun
  | _ => exact h

/-- In the event loop the write in progress is the one for the front. -/
theorem OneWrite.idle {s : MessageQueue} (h : s.OneWrite) (hstack : s.stack = []) :
    s.writes = frontWrite s.settled s.mOutbox := by
  have hpumping : s.pumping = false := by rw [pumping, hstack]; rfl
  rw [h.2, hpumping]
  rfl

/-- A write that completes in the event loop is the one for the front. -/
theorem OneWrite.front {s : MessageQueue} (h : s.OneWrite) (hstack : s.stack = []) {i : Nat}
    {w : AsyncWrite} (hw : s.writes[i]? = some w) :
    ∃ data rest, s.mOutbox = data :: rest ∧ i = 0 ∧ w = ⟨s.settled.length, data.buffer⟩ ∧
      s.writes = [w] := by
  have hidle := h.idle hstack
  rw [hidle] at hw ⊢
  cases hbox : s.mOutbox with
  | nil =>
    rw [hbox] at hw
    cases hw
  | cons data rest =>
    rw [hbox] at hw
    -- one write at most, so it is the first
    cases i with
    | zero =>
      obtain rfl := Option.some.inj hw
      exact ⟨data, rest, rfl, rfl, rfl, rfl⟩
    | succ i => cases hw

/-- Operations complete in the event loop, where no handler is waited for. -/
theorem OneWrite.completionStep {s : MessageQueue} (h : s.OneWrite) (hstack : s.stack = [])
    (a : Action) : (s.completionStep a).OneWrite := by
  have hs := h.1
  cases a with
  | readDone ec =>
    show OneWrite (if s.reads = 0 then s else _)
    split
    · exact h
    · -- reads are not the outbox's concern
      have hread : OneWrite { s with reads := s.reads - 1 } := h
      cases ec with
      | some ec => exact hread.push rfl rfl
      | none =>
        refine ⟨⟨hs.no_fault, hs.fifo, hs.on_wire, ⟨fun _ => hstack, hs.bottom⟩, hs.calls⟩, ?_⟩
        show s.writes = if s.pumping then [] else _
        exact h.2
  | writeDone i ec =>
    cases hw : s.writes[i]? with
    | none =>
      rw [completionStep_writeDone_none hw]
      exact h
    | some w =>
      rw [completionStep_writeDone hw]
      obtain ⟨data, rest, hfront, rfl, rfl, hone⟩ := h.front hstack hw
      rw [hone]
      cases ec with
      | none =>
        -- the write is over, and `handleWrite` waits for the handler
        have horder : (MessageQueue.push .writePump { s with writes := [] }).InOrder :=
          ⟨hs.no_fault, hs.fifo, hs.on_wire, ⟨fun _ => hstack, hs.bottom⟩, hs.calls⟩
        have hpop := horder.popOutbox none hfront rfl rfl
        simp only [handleWrite, hfront, if_true]
        exact hpop
      | some ec =>
        -- all of the outbox is going to be voided
        exact ⟨⟨hs.no_fault, hs.fifo, hs.on_wire, (hs.bottom.cons rfl).cons rfl, hs.calls⟩, rfl⟩
  | asyncSend | asyncReceive | close | setOpen | handshake | handshakeRetry | handshakeDone
  | keepalive | handlerReturns | written | delivered | octetsDone | resume => exact h

/-- **The step lemma of the outbox.** -/
theorem OneWrite.step {s : MessageQueue} (h : s.OneWrite) {a : Action} (hchain : ¬ s.Chained a) :
    (s.step a).OneWrite := by
  apply step_cases s a h
  · rintro rfl
    exact h.resume hchain
  · intro stack hstack
    exact h.pop hstack rfl
  · intro stack hstack
    exact h.contextStep hstack a
  · intro hstack
    exact h.completionStep hstack a
  · intro huser
    exact h.userStep huser hchain

theorem oneWrite_init : init.OneWrite :=
  ⟨⟨rfl, rfl, rfl, trivial, ⟨List.Perm.refl _, nofun, rfl⟩⟩, rfl⟩

/-- **The outbox writes one buffer at a time**, in every run in which no handler that `handleWrite`
or `voidOutbox` calls flushes onto the empty outbox of an open stream. At every moment at most one
`async_write` is in progress, and it is for the front; the buffers leave the outbox in the order in
which they were flushed; those whose write succeeded are what reached the stream, once and in order.
Every handler that was passed in was called once or waits in the outbox, and the calls for flushed
buffers were made in the order of the buffers, with the results of their writes. Once nothing is in
progress, all have left the outbox. -/
theorem outbox_one_write (actions : List Action)
    (hrun : Lib.Meets step (fun s a => ¬ s.Chained a) init actions) :
    let s := Lib.run step init actions
    (s.writes.length ≤ 1 ∧ ∀ w ∈ s.writes, w.number = s.settled.length ∧
        ∃ data rest, s.mOutbox = data :: rest ∧ w.buffer = data.buffer)
      ∧ s.flushed = s.settled.map Prod.fst ++ s.mOutbox
      ∧ s.wire = (s.settled.filter (·.2.isNone)).map (·.1.buffer)
      ∧ (s.called.map (·.1.number) ++ s.mOutbox.map (·.handler.number)).Perm
          (List.range s.passed)
      ∧ s.called.filter (fun c => c.1 ∈ s.flushed.map SendData.handler)
          = s.settled.map (fun x => (x.1.handler, x.2))
      ∧ (s.stack = [] → s.writes = [] → s.mOutbox = [])
      ∧ s.fault = false := by
  intro s
  have h : s.OneWrite := Lib.run_invariant (fun _ _ hs hc => hs.step hc) oneWrite_init hrun
  refine ⟨?_, h.1.fifo, h.1.on_wire, h.1.calls.once, h.1.calls.settled_calls, ?_, h.1.no_fault⟩
  · rw [h.2]
    cases hbox : s.mOutbox with
    | nil =>
      have hnone : (if s.pumping then [] else frontWrite s.settled []) = [] := by
        cases s.pumping <;> rfl
      rw [hnone]
      exact ⟨Nat.zero_le _, nofun⟩
    | cons data rest =>
      -- somebody waits for a handler, or the front is being written
      cases s.pumping with
      | true => exact ⟨Nat.zero_le _, nofun⟩
      | false =>
        refine ⟨Nat.le_refl _, ?_⟩
        intro w hw
        obtain rfl := List.mem_singleton.mp hw
        exact ⟨rfl, data, rest, rfl, rfl⟩
  · intro hstack hwrites
    -- a front without a write cannot be
    have hidle := h.idle hstack
    rw [hwrites] at hidle
    cases hbox : s.mOutbox with
    | nil => rfl
    | cons data rest =>
      rw [hbox] at hidle
      cases hidle

end MessageQueue

/-! ## Two runs -/

namespace MessageQueue

attribute [local instance] Lib.ProducerConsumer.ofLists

/-- A handshake on an open stream: its frame is written, its timers fire. -/
def handshakeRun : List Action :=
  [.setOpen true, .handshake [0x7e, 0x40, 0x7e] 0, .resume, .resume, .writeDone 0 none,
    .handlerReturns, .resume, .handshakeDone]

/-- Two sends, the second while the first is being written. -/
def twoSends : List Action :=
  [.asyncSend [0x7e, 0x00, 0x7e] 1, .asyncSend [0x7e, 0x01, 0x7e] 2, .writeDone 0 none,
    .handlerReturns, .resume]

/-- The handlers of the handshake and of the first send were called, the second send is still being
written, and what was called fits what was settled. -/
theorem outbox_one_write_two_sends :
    let s := Lib.run step init (handshakeRun ++ twoSends)
    s.called = [(⟨0, .user 0⟩, none), (⟨1, .user 1⟩, none)]
      ∧ s.writes = [⟨2, [0x7e, 0x01, 0x7e]⟩]
      ∧ s.wire = (s.settled.filter (·.2.isNone)).map (·.1.buffer)
      ∧ (s.called.map (·.1.number) ++ s.mOutbox.map (·.handler.number)).Perm
          (List.range s.passed)
      ∧ s.called.filter (fun c => c.1 ∈ s.flushed.map SendData.handler)
          = s.settled.map (fun x => (x.1.handler, x.2)) := by
  obtain ⟨-, -, hwire, honce, hcalls, -⟩ :=
    outbox_one_write (handshakeRun ++ twoSends) (by decide)
  exact ⟨by decide, by decide, hwire, honce, hcalls⟩

/-- A send whose handler sends again. -/
def chainedSends : List Action :=
  [.asyncSend [0x7e, 0x00, 0x7e] 1, .writeDone 0 none, .asyncSend [0x7e, 0x01, 0x7e] 2,
    .handlerReturns, .resume]

/-- The second frame is written twice at once; then it has been transferred twice, and the outbox
is read while it is empty. -/
theorem chained_sends_write_twice :
    (Lib.run step init (handshakeRun ++ chainedSends)).writes
        = [⟨2, [0x7e, 0x01, 0x7e]⟩, ⟨2, [0x7e, 0x01, 0x7e]⟩]
      ∧ let s := Lib.run step init (handshakeRun ++ chainedSends ++
          [.writeDone 0 none, .handlerReturns, .resume, .writeDone 0 none])
        s.wire = [[0x7e, 0x40, 0x7e], [0x7e, 0x00, 0x7e], [0x7e, 0x01, 0x7e], [0x7e, 0x01, 0x7e]]
          ∧ s.fault = true := by
  decide

end MessageQueue

end Libsfp.Asio
