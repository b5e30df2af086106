import Libsfp.Asio.Outbox
import Libsfp.Asio.Receives

/-!
# A Message Queue without Errors

After the handshake, as long as no operation fails and nobody closes the stream, the queue stays as
it is (`Calm`) and hands on octets: what is written by the context goes through `mWriteBuffer` and
`mOutbox` to the stream, and nothing is lost, doubled or reordered on the way (`Calm.step`).
-/

namespace Libsfp.Asio

open Lib (run)

/-- A frame of a queue that works. -/
def Frame.Works (f : Frame) : Prop := f = .user ∨ f = .octets ∨ f = .writePump

/-- What happens to a queue after the handshake, without errors. -/
def Action.Quiet : Action → Prop
  | .asyncSend _ _ | .asyncReceive _ | .handlerReturns | .written _ | .delivered _ | .octetsDone
  | .readDone none | .writeDone _ none | .resume => True
  | _ => False

namespace MessageQueue

variable [Lib.ProducerConsumer Nat (List UInt8)]

/-- The handshake is complete, and nothing went wrong since. -/
structure Calm (s : MessageQueue) : Prop where
  isOpen : s.isOpen = true
  fine : s.mReadPumpError = none
  complete : s.mHandshakeComplete = true
  works : ∀ f ∈ s.stack, f.Works

/-- The octets that the context has written so far: on the stream, in `mOutbox`, in
`mWriteBuffer`. -/
def outflow (s : MessageQueue) : List UInt8 :=
  s.wire.flatten ++ s.mOutbox.flatMap SendData.buffer ++ s.mWriteBuffer

/-- The octets that the stream may have transferred so far: those of the writes that completed, and
those of the write in progress. -/
def offered (s : MessageQueue) : List UInt8 :=
  s.wire.flatten ++ s.writes.flatMap AsyncWrite.buffer

/-- The write in progress is for the front, so what it offers was written. -/
theorem OneWrite.offered {s : MessageQueue} (h : s.OneWrite) : s.offered <+: s.outflow := by
  -- at most the front is in progress
  have hfront : s.writes.flatMap AsyncWrite.buffer <+: s.mOutbox.flatMap SendData.buffer := by
    rw [h.2]
    split
    · exact List.nil_prefix
    · cases s.mOutbox with
      | nil => exact List.nil_prefix
      | cons data rest => simp [frontWrite]
  exact ((List.prefix_append_right_inj _).mpr hfront).trans (List.prefix_append _ _)

/-- The octets that an action puts into `mWriteBuffer`. -/
def pours (s : MessageQueue) : Action → List UInt8
  | .asyncSend octets _ => if s.UserRuns then octets else []
  | .written octets => if s.stack.head? = some .octets then octets else []
  | _ => []

/-- `s'` is a calm queue behind `s`: no octets were added, and no frame of `s` was left. -/
structure Flows (s s' : MessageQueue) : Prop where
  calm : s'.Calm
  outflow : s'.outflow = s.outflow
  stack : s.stack <:+ s'.stack

variable {s s' s'' : MessageQueue}

/-- A queue is behind itself. -/
theorem Calm.refl (h : s.Calm) : Flows s s := ⟨h, rfl, List.suffix_refl _⟩

theorem Flows.trans (h : Flows s s') (h' : Flows s' s'') : Flows s s'' :=
  ⟨h'.calm, h'.outflow.trans h.outflow, h.stack.trans h'.stack⟩

/-- A frame of a queue that works is pushed. -/
theorem Calm.push (h : s.Calm) {f : Frame} (hf : f.Works) : Flows s (s.push f) where
  calm := by
    refine ⟨h.isOpen, h.fine, h.complete, ?_⟩
    intro g hg
    -- the new frame, and those below
    rcases List.mem_cons.mp hg with rfl | hg
    · exact hf
    · exact h.works g hg
  outflow := rfl
  stack := List.suffix_cons _ _

/-- The top frame is left. -/
theorem Calm.pop (h : s.Calm) {f : Frame} {stack : List Frame} (hstack : s.stack = f :: stack) :
    Calm { s with stack } :=
  ⟨h.isOpen, h.fine, h.complete, fun g hg => h.works g (by simp [hstack, hg])⟩

/-! ## The functions of the class -/

/-- The stream is open, so the pump reads. -/
theorem Calm.readPump (h : s.Calm) : Flows s s.readPump := by
  unfold MessageQueue.readPump
  rw [if_pos h.isOpen]
  exact ⟨⟨h.isOpen, h.fine, h.complete, h.works⟩, rfl, List.suffix_refl _⟩

/-- The handler is called without an error. -/
theorem Calm.callHandler (h : s.Calm) (handler : SendHandler) :
    Flows s (s.callHandler handler none) := by
  obtain ⟨number, code⟩ := handler
  -- the log of calls holds no octets
  have hlogged : Flows s { s with called := s.called ++ [(⟨number, code⟩, none)] } :=
    ⟨⟨h.isOpen, h.fine, h.complete, h.works⟩, rfl, List.suffix_refl _⟩
  cases code with
  | user id => exact hlogged.trans (hlogged.calm.push (.inl rfl))
  | readPump => exact hlogged.trans hlogged.calm.readPump

/-- A handler that is passed in and called at once. -/
theorem Calm.callPassed (h : s.Calm) (code : Handler) : Flows s (s.callPassed code none) := by
  have hpassed : Flows s { s with passed := s.passed + 1 } :=
    ⟨⟨h.isOpen, h.fine, h.complete, h.works⟩, rfl, List.suffix_refl _⟩
  exact hpassed.trans (hpassed.calm.callHandler ⟨s.passed, code⟩)

/-- The stream is open, so the front is written. -/
theorem Calm.writePump (h : s.Calm) : Flows s s.writePump := by
  unfold MessageQueue.writePump
  split
  · exact h.refl
  · rw [if_pos h.isOpen]
    exact ⟨⟨h.isOpen, h.fine, h.complete, h.works⟩, rfl, List.suffix_refl _⟩

/-- The write buffer goes to the back of the outbox, where its octets count as before. -/
theorem Calm.flushWriteBuffer (h : s.Calm) (code : Handler) :
    Flows s (s.flushWriteBuffer code) := by
  by_cases hbuffer : s.mWriteBuffer = []
  · rw [flushWriteBuffer_nil code hbuffer]
    exact h.callPassed code
  · -- the octets move from the buffer to the outbox
    have hpush : Flows s (s.pushOutbox code) := by
      refine ⟨⟨h.isOpen, h.fine, h.complete, h.works⟩, ?_, List.suffix_refl _⟩
      simp [MessageQueue.outflow, pushOutbox]
    by_cases hbox : s.mOutbox = []
    · rw [flushWriteBuffer_first code hbuffer hbox]
      exact hpush.trans hpush.calm.writePump
    · rw [flushWriteBuffer_later code hbuffer hbox]
      exact hpush

/-- The front was transferred. -/
theorem Calm.popOutbox (h : s.Calm) {data : SendData} {rest : List SendData}
    (hfront : s.mOutbox = data :: rest) :
    Flows s (MessageQueue.popOutbox data rest none { s with wire := s.wire ++ [data.buffer] }) := by
  -- the octets move from the outbox to the stream
  have hpop : Flows s { s with
      wire := s.wire ++ [data.buffer], mOutbox := rest,
      settled := s.settled ++ [(data, none)] } := by
    refine ⟨⟨h.isOpen, h.fine, h.complete, h.works⟩, ?_, List.suffix_refl _⟩
    simp [MessageQueue.outflow, hfront]
  exact hpop.trans (hpop.calm.callHandler data.handler)

/-- Whatever the queue of receives is. -/
theorem Calm.receives (h : s.Calm) (q : ReceiveQueue) :
    Flows s { s with mReadPumpError := none, mReceiveQueue := q } :=
  ⟨⟨h.isOpen, rfl, h.complete, h.works⟩, rfl, List.suffix_refl _⟩

theorem Calm.getReadPumpError (h : s.Calm) : s.getReadPumpError.1 = none :=
  getReadPumpError_eq_none.mpr ⟨h.fine, h.isOpen⟩

/-- More octets in `mWriteBuffer`. -/
theorem Calm.pour (h : s.Calm) (octets : List UInt8) :
    let s' := { s with mReadPumpError := none, mWriteBuffer := s.mWriteBuffer ++ octets }
    s'.Calm ∧ s'.outflow = s.outflow ++ octets := by
  refine ⟨⟨h.isOpen, rfl, h.complete, h.works⟩, ?_⟩
  simp [MessageQueue.outflow]

/-! ## Steps -/

/-- `s'` is a calm queue behind `s`, with `octets` more; a loop of `handleRead` goes on. -/
structure Grows (s s' : MessageQueue) (octets : List UInt8) : Prop where
  calm : s'.Calm
  outflow : s'.outflow = s.outflow ++ octets
  reading : Frame.octets ∈ s.stack → Frame.octets ∈ s'.stack

theorem Flows.grows (h : Flows s s') : Grows s s' [] :=
  ⟨h.calm, h.outflow.trans (List.append_nil _).symm, fun hf => h.stack.subset hf⟩

/-- A frame other than the loop of `handleRead` is left, and the code goes on. -/
theorem Grows.of_pop {f : Frame} {stack : List Frame} (hstack : s.stack = f :: stack)
    (hf : f ≠ .octets) (h : Flows { s with stack } s') : Grows s s' [] := by
  refine ⟨h.calm, h.outflow.trans (List.append_nil _).symm, ?_⟩
  intro hmem
  rw [hstack] at hmem
  exact h.stack.subset ((List.mem_cons.mp hmem).resolve_left fun heq => hf heq.symm)

/-- Only `writePump` is left to go on with. -/
theorem Calm.resume (h : s.Calm) : Grows s s.resume [] := by
  have hworks : ∀ {f : Frame} {stack : List Frame}, s.stack = f :: stack → f.Works :=
    fun hstack => h.works _ (by simp [hstack])
  unfold MessageQueue.resume
  split
  · rename_i stack hstack
    exact .of_pop hstack nofun (h.pop hstack).writePump
  -- the frames of errors and of the handshake are not there
  · rename_i hstack
    exact absurd (hworks hstack) (by simp [Frame.Works])
  · rename_i hstack
    exact absurd (hworks hstack) (by simp [Frame.Works])
  · rename_i hstack
    exact absurd (hworks hstack) (by simp [Frame.Works])
  · rename_i hstack
    exact absurd (hworks hstack) (by simp [Frame.Works])
  · rename_i hstack
    exact absurd (hworks hstack) (by simp [Frame.Works])
  · rename_i hstack
    exact absurd (hworks hstack) (by simp [Frame.Works])
  · exact h.refl.grows
  · exact h.refl.grows
  · exact h.refl.grows

/-- Nothing refuses a send. -/
theorem Calm.asyncSend (h : s.Calm) (octets : List UInt8) (id : Nat) :
    Grows s (s.asyncSend octets id) octets := by
  unfold MessageQueue.asyncSend
  rcases s.getReadPumpError_split with ⟨-, hsplit⟩ | ⟨ec, hsplit⟩
  · rw [hsplit]
    obtain ⟨hcalm, houtflow⟩ := h.pour octets
    have hflush := hcalm.flushWriteBuffer (.user id)
    exact ⟨hflush.calm, hflush.outflow.trans houtflow, fun hf => hflush.stack.subset hf⟩
  · -- there is no error to report
    have hfine := h.getReadPumpError
    rw [hsplit] at hfine
    cases hfine

/-- Nothing refuses a receive; no octets are concerned. -/
theorem Calm.asyncReceive (h : s.Calm) (id : Nat) : Grows s (s.asyncReceive id) [] := by
  apply asyncReceive_cases (P := fun t => Grows s t [])
  · have hrefused : Flows s { s with mReadPumpError := none } := h.receives s.mReceiveQueue
    exact (hrefused.trans (hrefused.calm.push (.inl rfl))).grows
  · intro q _
    have hreceived := h.receives q
    exact (hreceived.trans (hreceived.calm.push (.inl rfl))).grows
  · intro _ _ q _
    exact (h.receives q).grows

/-- A message is delivered; no octets are concerned. -/
theorem Calm.deliverCallback (h : s.Calm) (item : List UInt8) :
    Flows s (s.deliverCallback item) := by
  have hq : ∀ q, Flows s { s with mReceiveQueue := q } :=
    fun q => ⟨⟨h.isOpen, h.fine, h.complete, h.works⟩, rfl, List.suffix_refl _⟩
  unfold MessageQueue.deliverCallback
  split
  · rename_i q _
    exact (hq q).trans ((hq q).calm.push (.inl rfl))
  · rename_i q _
    exact hq q

/-- The write that completes is the one for the front. -/
theorem Calm.completionStep (h : s.Calm) (hone : s.OneWrite) (hstack : s.stack = []) {a : Action}
    (ha : a.Quiet) : Grows s (s.completionStep a) [] := by
  cases a with
  | readDone ec =>
    cases ec with
    | some ec => exact ha.elim
    | none =>
      show Grows s (if s.reads = 0 then s else _) []
      split
      · exact h.refl.grows
      · -- the loop over the octets begins
        have hread : Flows s { s with reads := s.reads - 1 } :=
          ⟨⟨h.isOpen, h.fine, h.complete, h.works⟩, rfl, List.suffix_refl _⟩
        exact (hread.trans (hread.calm.push (f := .octets) (.inr (.inl rfl)))).grows
  | writeDone i ec =>
    cases ec with
    | some ec => exact ha.elim
    | none =>
      cases hw : s.writes[i]? with
      | none =>
        rw [completionStep_writeDone_none hw]
        exact h.refl.grows
      | some w =>
        rw [completionStep_writeDone hw, if_pos rfl]
        -- in the event loop the write that completes is the one for the front
        obtain ⟨data, rest, hfront, -, rfl, -⟩ := hone.front hstack hw
        simp only [handleWrite, hfront, if_true]
        -- `handleWrite` waits for the handler, then pumps on
        have hpush : Calm (MessageQueue.push .writePump { s with writes := s.writes.eraseIdx i }) :=
          (Calm.push (s := { s with writes := s.writes.eraseIdx i })
            ⟨h.isOpen, h.fine, h.complete, h.works⟩ (.inr (.inr rfl))).calm
        have hpop := hpush.popOutbox hfront
        exact ⟨hpop.calm, hpop.outflow.trans (List.append_nil _).symm, fun hf => by
          rw [hstack] at hf
          cases hf⟩
  | asyncSend | asyncReceive | handlerReturns | written | delivered | octetsDone | resume =>
    exact h.refl.grows
  | _ => exact ha.elim

/-- Where user code runs. -/
theorem step_asyncSend (s : MessageQueue) (octets : List UInt8) (id : Nat) :
    s.step (.asyncSend octets id)
      = if s.UserRuns ∧ s.mHandshakeComplete = true then s.asyncSend octets id else s := by
  rw [step_user (.inl ⟨octets, id, rfl⟩), ite_and]
  rfl

/-- What only the context does in the loop of `handleRead`. -/
theorem step_context {a : Action}
    (ha : (∃ octets, a = .written octets) ∨ (∃ item, a = .delivered item) ∨ a = .octetsDone)
    (s : MessageQueue) : (∃ stack, s.stack = .octets :: stack ∧ s.step a = s.contextStep stack a) ∨
      (s.stack.head? ≠ some .octets ∧ s.step a = s) := by
  have hsame : s.userStep a = s := by
    rcases ha with ⟨octets, rfl⟩ | ⟨item, rfl⟩ | rfl <;> rfl
  cases hstack : s.stack with
  | nil =>
    refine .inr ⟨nofun, ?_⟩
    rcases ha with ⟨octets, rfl⟩ | ⟨item, rfl⟩ | rfl <;> simp only [step, hstack, hsame]
  | cons f stack =>
    -- below another frame the context is not running
    by_cases hf : f = .octets
    · subst hf
      refine .inl ⟨stack, rfl, ?_⟩
      rcases ha with ⟨octets, rfl⟩ | ⟨item, rfl⟩ | rfl <;> simp only [step, hstack]
    · refine .inr ⟨by simpa using hf, ?_⟩
      rcases ha with ⟨octets, rfl⟩ | ⟨item, rfl⟩ | rfl <;>
        cases f <;> first | exact absurd rfl hf | simp only [step, hstack, hsame]

/-- Only the event loop completes operations. -/
theorem step_completion {a : Action} (ha : (∃ ec, a = .readDone ec) ∨ ∃ i ec, a = .writeDone i ec)
    (s : MessageQueue) :
    (s.stack = [] ∧ s.step a = s.completionStep a) ∨ (s.stack ≠ [] ∧ s.step a = s) := by
  have hsame : s.userStep a = s := by
    rcases ha with ⟨ec, rfl⟩ | ⟨i, ec, rfl⟩ <;> rfl
  cases hstack : s.stack with
  | nil =>
    refine .inl ⟨rfl, ?_⟩
    rcases ha with ⟨ec, rfl⟩ | ⟨i, ec, rfl⟩ <;> simp only [step, hstack]
  | cons f stack =>
    refine .inr ⟨List.cons_ne_nil _ _, ?_⟩
    rcases ha with ⟨ec, rfl⟩ | ⟨i, ec, rfl⟩ <;> cases f <;> simp only [step, hstack, hsame]

/-- A handler that is running, or nothing. -/
theorem step_handlerReturns (s : MessageQueue) :
    (∃ stack, s.stack = .user :: stack ∧ s.step .handlerReturns = { s with stack }) ∨
      s.step .handlerReturns = s := by
  cases hstack : s.stack with
  | nil => exact .inr (by simp only [step, hstack]; rfl)
  | cons f stack =>
    cases f with
    | user => exact .inl ⟨stack, rfl, by simp only [step, hstack]⟩
    | _ => exact .inr (by simp only [step, hstack])

/-- **A step of a queue without errors** adds what the context writes, and nothing else. The loop of
`handleRead` goes on until all octets are delivered. -/
theorem Calm.step (h : s.Calm) (hone : s.OneWrite) {a : Action} (ha : a.Quiet)
    (hloop : a = .octetsDone → s.stack.head? ≠ some .octets) : Grows s (s.step a) (s.pours a) := by
  cases a with
  | asyncSend octets id =>
    rw [step_asyncSend]
    -- user code sends only where it runs
    by_cases huser : s.UserRuns
    · have hpours : s.pours (.asyncSend octets id) = octets := if_pos huser
      rw [if_pos ⟨huser, h.complete⟩, hpours]
      exact h.asyncSend octets id
    · have hpours : s.pours (.asyncSend octets id) = [] := if_neg huser
      rw [if_neg fun hboth => huser hboth.1, hpours]
      exact h.refl.grows
  | asyncReceive id =>
    rw [step_asyncReceive]
    split
    · exact h.asyncReceive id
    · exact h.refl.grows
  | handlerReturns =>
    rcases s.step_handlerReturns with ⟨stack, hstack, hstep⟩ | hstep
    · rw [hstep]
      exact .of_pop hstack nofun (h.pop hstack).refl
    · rw [hstep]
      exact h.refl.grows
  | written octets =>
    -- the context writes only in the loop of `handleRead`
    rcases step_context (.inl ⟨octets, rfl⟩) s with ⟨stack, hstack, hstep⟩ | ⟨hhead, hstep⟩
    · have hpours : s.pours (.written octets) = octets := if_pos (by rw [hstack]; rfl)
      rw [hstep, hpours]
      obtain ⟨hcalm, houtflow⟩ := h.pour octets
      exact ⟨⟨hcalm.isOpen, h.fine, hcalm.complete, hcalm.works⟩, houtflow, id⟩
    · have hpours : s.pours (.written octets) = [] := if_neg hhead
      rw [hstep, hpours]
      exact h.refl.grows
  | delivered item =>
    rcases step_context (.inr (.inl ⟨item, rfl⟩)) s with ⟨stack, hstack, hstep⟩ | ⟨-, hstep⟩
    · rw [hstep]
      exact (h.deliverCallback item).grows
    · rw [hstep]
      exact h.refl.grows
  | octetsDone =>
    rcases step_context (.inr (.inr rfl)) s with ⟨stack, hstack, -⟩ | ⟨-, hstep⟩
    · -- leaving the loop is a lemma of its own, `Calm.octetsDone`
      exact absurd (by rw [hstack]; rfl) (hloop rfl)
    · rw [hstep]
      exact h.refl.grows
  | readDone ec =>
    rcases step_completion (.inl ⟨ec, rfl⟩) s with ⟨hstack, hstep⟩ | ⟨-, hstep⟩
    · rw [hstep]
      exact h.completionStep hone hstack ha
    · rw [hstep]
      exact h.refl.grows
  | writeDone i ec =>
    rcases step_completion (.inr ⟨i, ec, rfl⟩) s with ⟨hstack, hstep⟩ | ⟨-, hstep⟩
    · rw [hstep]
      exact h.completionStep hone hstack ha
    · rw [hstep]
      exact h.refl.grows
  | resume => exact h.resume
  | _ => exact ha.elim

/-- The loop of `handleRead` is left only when all octets are delivered. -/
theorem Calm.reads_on (h : s.Calm) (hone : s.OneWrite) {a : Action} (ha : a.Quiet)
    (hdone : a ≠ .octetsDone) (hreading : Frame.octets ∈ s.stack) :
    Frame.octets ∈ (s.step a).stack :=
  (h.step hone ha fun heq => absurd heq hdone).reading hreading

/-- The loop of `handleRead` is left. -/
theorem Calm.octetsDone (h : s.Calm) {stack : List Frame} (hstack : s.stack = .octets :: stack) :
    (s.step .octetsDone).Calm ∧ (s.step .octetsDone).outflow = s.outflow := by
  rcases step_context (.inr (.inr rfl)) s with ⟨stack', hstack', hstep⟩ | ⟨hhead, -⟩
  · rw [hstep]
    -- what the context wrote in the loop is flushed, with the pump
    have hflush := (h.pop hstack').flushWriteBuffer .readPump
    exact ⟨hflush.calm, hflush.outflow⟩
  · rw [hstack] at hhead
    exact absurd rfl hhead

/-- Only `asyncSend` flushes without errors. -/
theorem Calm.not_chained (h : s.Calm) {a : Action} (ha : a.Quiet)
    (hsend : ∀ octets id, a = .asyncSend octets id → s.UserRuns →
      ¬ (s.pumping = true ∧ s.mOutbox = [])) : ¬ s.Chained a := by
  rintro ⟨hpumping, hempty, -, hflushes⟩
  cases a with
  | asyncSend octets id =>
    refine hsend octets id rfl ?_ ⟨hpumping, hempty⟩
    simp only [flushes, Bool.and_eq_true, decide_eq_true_eq] at hflushes
    exact hflushes.1.1.1
  | resume =>
    simp only [flushes] at hflushes
    split at hflushes
    · -- `sfpConnect` of a handshake that is over
      rename_i octets id stack hstack
      exact absurd (h.works (.connect octets id) (by simp [hstack])) (by simp [Frame.Works])
    · cases hflushes
  | asyncReceive | handlerReturns | written | delivered | octetsDone | readDone | writeDone =>
    cases hflushes
  | _ => exact ha.elim

theorem Calm.not_chained_of_ne (h : s.Calm) {a : Action} (ha : a.Quiet)
    (hsend : ∀ octets id, a ≠ .asyncSend octets id) : ¬ s.Chained a :=
  h.not_chained ha fun octets id heq => absurd heq (hsend octets id)

/-! ## Deals -/

/-- The messages that an action brings to the queue. -/
def brings (s : MessageQueue) : Action → List (List UInt8)
  | .delivered message => if s.stack.head? = some .octets then [message] else []
  | _ => []

/-- **Nothing is discarded** while there are no errors, and what arrives is what the context
delivers. -/
theorem Calm.deals (h : s.Calm) (a : Action) :
    (s.deals a).flatMap Deal.discardedMessages = [] ∧
      (s.deals a).flatMap Deal.arrivedMessages = s.brings a := by
  cases a with
  | resume =>
    have hnone : s.deals .resume = [] := by
      cases hstack : s.stack with
      | nil => simp [MessageQueue.deals, hstack]
      | cons f stack =>
        -- no frame of a queue that works voids receives
        have hvoids : f.voids = false := by
          rcases h.works f (by simp [hstack]) with rfl | rfl | rfl <;> rfl
        simp [MessageQueue.deals, hstack, hvoids]
    rw [hnone]
    exact ⟨rfl, rfl⟩
  | delivered message =>
    cases hstack : s.stack with
    | nil => simp [MessageQueue.deals, brings, hstack]
    | cons f stack =>
      cases f with
      | octets =>
        have hdeals : s.deals (.delivered message) = s.mReceiveQueue.produceDeals message := by
          simp only [MessageQueue.deals, hstack]
        rw [hdeals, ReceiveQueue.produceDeals]
        split <;> simp [brings, hstack, Deal.discardedMessages, Deal.arrivedMessages]
      | _ => simp [MessageQueue.deals, brings, hstack]
  | asyncReceive id =>
    rw [deals_asyncReceive, ReceiveQueue.consumeDeals]
    split
    · split <;> simp [brings, Deal.discardedMessages, Deal.arrivedMessages]
    · exact ⟨rfl, rfl⟩
  | _ => simp [MessageQueue.deals, brings]

/-! ## A queue and what its context did -/

/-- The context has written `wire` and delivered `delivered`, and the queue accounts for it. -/
structure Coupled (s : MessageQueue) (ds : List Deal) (wire : List UInt8)
    (delivered : List (List UInt8)) : Prop where
  oneWrite : s.OneWrite
  calm : s.Calm
  outflow : s.outflow = wire
  accounts : Accounts s.mReceiveQueue.consumers s.mReceiveQueue.items ds
  arrived : ds.flatMap Deal.arrivedMessages = delivered
  kept : ds.flatMap Deal.discardedMessages = []

/-- **A step of the queue** accounts for what its context does. -/
theorem Coupled.step {ds : List Deal} {wire : List UInt8} {delivered : List (List UInt8)}
    (h : Coupled s ds wire delivered) {a : Action} (ha : a.Quiet) (hchain : ¬ s.Chained a) :
    Coupled (s.step a) (ds ++ s.deals a) (wire ++ s.pours a) (delivered ++ s.brings a) := by
  obtain ⟨hdiscarded, harrived⟩ := h.calm.deals a
  have hflow : (s.step a).Calm ∧ (s.step a).outflow = s.outflow ++ s.pours a := by
    -- the end of the loop flushes, other steps only add
    by_cases hloop : a = .octetsDone → s.stack.head? ≠ some .octets
    · have hgrows := h.calm.step h.oneWrite ha hloop
      exact ⟨hgrows.calm, hgrows.outflow⟩
    · obtain ⟨rfl, hhead⟩ := Classical.not_imp.mp hloop
      obtain ⟨stack, hstack⟩ : ∃ stack, s.stack = .octets :: stack :=
        List.head?_eq_some_iff.mp (not_not.mp hhead)
      obtain ⟨hcalm, houtflow⟩ := h.calm.octetsDone hstack
      exact ⟨hcalm, houtflow.trans (List.append_nil _).symm⟩
  refine ⟨h.oneWrite.step hchain, hflow.1, ?_, s.settles_step a _ h.accounts, ?_, ?_⟩
  · rw [hflow.2, h.outflow]
  · rw [List.flatMap_append, h.arrived, harrived]
  · rw [List.flatMap_append, h.kept, hdiscarded]
    rfl

end MessageQueue

end Libsfp.Asio
