import Libsfp.Api.Deliveries

/-!
# The Stream

`sfp::stream` of `stream.hpp`: the handshake with its three phases, `async_read` and `async_write`
over one context, and the buffers between them and the next layer. An operation is a coroutine; the
state says where the reading one (the handshake or an `async_read`) is suspended, which write
operations wait for the `write_phaser`, and which of them holds it.

An action of a run is a call of the user, or the completion of what an operation waits for: a read
of the next layer, a write to it, the dispatch by the phaser, the expiry of the settle timer. The
phaser dispatches an operation only while no other one holds a guard. An operation that reports an
error ends the run (`failed`), as does a call of `prepare` that throws, which is not part of any
run; the timeouts of the connect phase are such errors. A timeout of the settle phase is not.
-/

namespace Libsfp.Asio

open Lib (run)

variable [SfpConfig]

/-! ## Data -/

/-- Where the operation that reads is suspended. -/
inductive Reading where
  /-- Before the handshake. -/
  | start
  /-- `handshake_op`, in its `async_write`. -/
  | handshakeWrite
  /-- `read_until_connected_op`, in its `async_read_some` and in its `async_write`. -/
  | connectRead
  | connectWrite
  /-- `read_until_delivery_op`, in its `async_read_some` and in its `async_write`. -/
  | settleRead
  | settleWrite
  /-- No operation reads. -/
  | idle
  /-- `read_op`, in its `async_read_some`, -/
  | readSome
  /-- waiting for the phaser, with octets in the read buffer, -/
  | dispatch
  /-- and in its `async_write`, with a guard of the phaser. -/
  | flush
  | failed
  deriving DecidableEq

/-- The handshake has completed. -/
def Reading.shaken : Reading → Bool
  | .idle | .readSome | .dispatch | .flush => true
  | _ => false

/-- In an `async_write`. -/
def Reading.writes : Reading → Bool
  | .handshakeWrite | .connectWrite | .settleWrite | .flush => true
  | _ => false

/-- A `write_op` that waits for the phaser; `stack` is the memory of the local variable of
`sfpWritePacket`. -/
structure WriteOp where
  stack : Vector UInt8 sfpConfigMaxPacketSize
  packet : List UInt8
  le : packet.length ≤ sfpConfigMaxPacketSize

structure Stream where
  sfpContext : Machine
  /-- The first `len` octets of `sfp_packet.buf`. -/
  sfpPacket : List UInt8
  readBuffer : List UInt8
  writeBuffer : List UInt8
  reading : Reading
  /-- The octets of the `async_write` of the reading operation. -/
  readerData : List UInt8
  waiting : List WriteOp
  /-- The octets of the `async_write` of the write operation that holds a guard. -/
  writing : Option (List UInt8)
  /-- What an observer sees: the octets that the next layer has yielded, -/
  received : List UInt8
  /-- those that were dropped from the read buffer before they were delivered to the context, -/
  discarded : List UInt8
  /-- the payloads that `async_read` has returned, -/
  results : List (List UInt8)
  /-- and the octets transferred to the next layer. -/
  transferred : List UInt8
  /-- A `BOOST_ASSERT` has failed. -/
  fault : Bool

namespace Stream

/-- A new object, in memory with arbitrary content. -/
def start (memory : SFPcontext) (sfpPacket : List UInt8) : Stream where
  sfpContext := .of memory
  sfpPacket := sfpPacket
  readBuffer := []
  writeBuffer := []
  reading := .start
  readerData := []
  waiting := []
  writing := none
  received := []
  discarded := []
  results := []
  transferred := []
  fault := false

/-! ## The context and the buffers -/

def connected (s : Stream) : Bool := sfpIsConnected s.sfpContext.ctx

/-- The context has gone on to `m`; `on_sfp_write` has appended what it wrote. -/
def withContext (m : Machine) (s : Stream) : Stream :=
  { s with
    sfpContext := m
    writeBuffer := s.writeBuffer ++ m.wire.drop s.sfpContext.wire.length }

/-- What the loop of `deliver_input_sequence` leaves: the context, the packet, the octets that are
still to be delivered, and whether its assertion held. -/
structure Delivered where
  machine : Machine
  packet : List UInt8
  rest : List UInt8
  ok : Bool

/-- The loop of `deliver_input_sequence`: it ends behind a message of nonzero length. -/
def deliverLoop : List UInt8 → List UInt8 → Machine → Delivered
  | [], packet, m => ⟨m, packet, [], true⟩
  | octet :: octets, packet, m =>
    let (m, rc) := sfpDeliverOctet octet (some sfpConfigMaxPacketSize) m
    let packet := rc.copied.getD packet
    if rc.ret = 1 ∧ packet ≠ [] then ⟨m, packet, octets, rc.ret != -1⟩
    else
      let d := deliverLoop octets packet m
      { d with ok := d.ok && rc.ret != -1 }

def deliverInputSequence (s : Stream) : Stream :=
  let d := deliverLoop s.readBuffer [] s.sfpContext
  { s.withContext d.machine with
    sfpPacket := d.packet, readBuffer := d.rest, fault := s.fault || !d.ok }

/-- `read_buffer.consume(read_buffer.size())`. -/
def consumeRead (s : Stream) : Stream :=
  { s with discarded := s.discarded ++ s.readBuffer, readBuffer := [] }

/-- An `async_write` of the write buffer by the operation that reads. -/
def beginWrite (reading : Reading) (s : Stream) : Stream :=
  { s with reading, readerData := s.writeBuffer }

/-- It completes; `write_buffer.consume(write_buffer.size())`. -/
def endWrite (s : Stream) : Stream :=
  { s with transferred := s.transferred ++ s.readerData, writeBuffer := [] }

/-- The next layer yields some octets. -/
def commitRead (octets : List UInt8) (s : Stream) : Stream :=
  { s with readBuffer := s.readBuffer ++ octets, received := s.received ++ octets }

/-! ## The handshake -/

/-- `read_until_delivery_op` completes with `settle_ec`, which is either none or `timed_out`. -/
def settleDone (timedOut : Bool) (s : Stream) : Stream :=
  if timedOut && !s.connected then { s with reading := .failed }
  else { s with reading := .idle, fault := s.fault || !s.connected }

/-- The loop of `read_until_delivery_op`. -/
def settleLoop (s : Stream) : Stream :=
  if s.sfpPacket = [] then { s.consumeRead with reading := .settleRead } else s.settleDone false

/-- The rest of `handshake_op` behind `read_until_connected_op`. -/
def afterConnected (s : Stream) : Stream :=
  if s.sfpPacket = [] then
    settleLoop { s with fault := s.fault || !s.readBuffer.isEmpty }
  else { s with reading := .idle }

/-- The loop of `read_until_connected_op`. -/
def connectLoop (s : Stream) : Stream :=
  if s.connected then s.afterConnected else { s.consumeRead with reading := .connectRead }

/-- `handshake_op` up to its `async_write`. -/
def asyncHandshake (s : Stream) : Stream :=
  let m := sfpConnect (.of (sfpSetWriteCallback true (sfpInit s.sfpContext.ctx)))
  { s with sfpContext := m, writeBuffer := s.writeBuffer ++ m.wire }.beginWrite .handshakeWrite

/-! ## Reads and writes -/

/-- The loop of `read_op`, and what follows it. -/
def readLoop (s : Stream) : Stream :=
  if s.sfpPacket = [] then { s.consumeRead with reading := .readSome }
  else { s with results := s.results ++ [s.sfpPacket], sfpPacket := [], reading := .idle }

/-- `read_op` begins: what is left in the read buffer is delivered first. -/
def asyncRead (s : Stream) : Stream :=
  if s.sfpPacket = [] ∧ s.readBuffer ≠ [] then { s with reading := .dispatch } else s.readLoop

/-- The phaser lets `read_op` go on. -/
def dispatchRead (s : Stream) : Stream :=
  let s := s.deliverInputSequence
  if s.writeBuffer ≠ [] then s.beginWrite .flush else s.readLoop

/-- The phaser lets a `write_op` go on. -/
def dispatchWrite (op : WriteOp) (s : Stream) : Stream :=
  let s := s.withContext (sfpWritePacket op.stack op.packet op.le s.sfpContext).1
  { s with writing := some s.writeBuffer }

/-! ## Runs -/

/-- Whether the phaser can dispatch. -/
def Free (s : Stream) : Prop := s.writing = none ∧ s.reading ≠ .flush

instance (s : Stream) : Decidable s.Free := inferInstanceAs (Decidable (_ ∧ _))

inductive Action where
  | asyncHandshake
  | asyncRead
  | asyncWrite (op : WriteOp)
  /-- The `async_read_some` completes. -/
  | readDone (octets : List UInt8)
  /-- The `async_write` of the reading operation completes. -/
  | writeDone
  /-- `read_until_delivery_op` times out; an `async_write` in progress has transferred some
  octets. -/
  | settleTimeout (transferred : Nat)
  /-- The phaser dispatches the reading operation, or the `i`-th of those that write. -/
  | dispatchRead
  | dispatchWrite (i : Nat)
  /-- The `async_write` of the write operation completes. -/
  | writeOpDone
  /-- An operation completes with an error. -/
  | fails

/-- A read of the next layer completes. -/
def readStep (octets : List UInt8) (s : Stream) : Stream :=
  match s.reading with
  | .connectRead => ((s.commitRead octets).deliverInputSequence).beginWrite .connectWrite
  | .settleRead => ((s.commitRead octets).deliverInputSequence).beginWrite .settleWrite
  | .readSome => { s.commitRead octets with reading := .dispatch }
  | _ => s

/-- A write of the reading operation completes. -/
def writeStep (s : Stream) : Stream :=
  match s.reading with
  | .handshakeWrite | .connectWrite => s.endWrite.connectLoop
  | .settleWrite => s.endWrite.settleLoop
  | .flush => s.endWrite.readLoop
  | _ => s

/-- The settle phase is cut short. What is being written has been transferred in part, and it stays
in the write buffer. -/
def timeoutStep (transferred : Nat) (s : Stream) : Stream :=
  match s.reading with
  | .settleRead => s.settleDone true
  | .settleWrite =>
    { s with transferred := s.transferred ++ s.readerData.take transferred }.settleDone true
  | _ => s

/-- One action; what cannot happen in a state leaves it alone. -/
def step (s : Stream) : Action → Stream
  | .asyncHandshake => if s.reading = .start then s.asyncHandshake else s
  | .asyncRead => if s.reading = .idle ∧ s.connected then s.asyncRead else s
  | .asyncWrite op =>
    if s.reading.shaken ∧ s.connected then { s with waiting := s.waiting ++ [op] } else s
  | .readDone octets => if 1 ≤ octets.length ∧ octets.length ≤ 256 then s.readStep octets else s
  | .writeDone => s.writeStep
  | .settleTimeout transferred => s.timeoutStep transferred
  | .dispatchRead => if s.reading = .dispatch ∧ s.Free then s.dispatchRead else s
  | .dispatchWrite i =>
    match s.waiting[i]? with
    | some op =>
      if s.reading.shaken ∧ s.Free then
        { s with waiting := s.waiting.eraseIdx i }.dispatchWrite op
      else s
    | none => s
  | .writeOpDone =>
    match s.writing with
    | some octets =>
      if s.reading.shaken then
        { s with transferred := s.transferred ++ octets, writeBuffer := [], writing := none }
      else s
    | none => s
  | .fails => { s with reading := .failed }

/-- Everything that a step can do. -/
theorem step_cases {P : Stream → Prop} (s : Stream) (a : Action) (same : P s)
    (handshake : s.reading = .start → P s.asyncHandshake)
    (read : s.reading = .idle → P s.asyncRead)
    (wait : ∀ waiting, P { s with waiting })
    (readDone : ∀ octets, P (s.readStep octets))
    (writeDone : P s.writeStep)
    (timeout : ∀ transferred, a = .settleTimeout transferred → P (s.timeoutStep transferred))
    (dispatchRead : s.reading = .dispatch → s.Free → P s.dispatchRead)
    (dispatchWrite : ∀ waiting op, s.reading.shaken = true → s.Free →
      P ({ s with waiting }.dispatchWrite op))
    (writeOpDone : ∀ octets, s.writing = some octets →
      P { s with transferred := s.transferred ++ octets, writeBuffer := [], writing := none })
    (fails : P { s with reading := .failed }) : P (s.step a) := by
  unfold step
  split
  · split
    · rename_i h
      exact handshake h
    · exact same
  · split
    · rename_i h
      exact read h.1
    · exact same
  · split
    · exact wait _
    · exact same
  · split
    · exact readDone _
    · exact same
  · exact writeDone
  · exact timeout _ rfl
  · split
    · rename_i h
      exact dispatchRead h.1 h.2
    · exact same
  · split
    · split
      · rename_i h
        exact dispatchWrite _ _ h.1 h.2
      · exact same
    · exact same
  · split
    · rename_i octets h
      split
      · exact writeOpDone octets h
      · exact same
    · exact same
  · exact fails

/-- A new object waits for the handshake. -/
theorem step_start {P : Stream → Prop} (memory : SFPcontext) (packet : List UInt8) (a : Action)
    (same : P (start memory packet)) (handshake : P (start memory packet).asyncHandshake)
    (fails : P { start memory packet with reading := .failed }) :
    P ((start memory packet).step a) := by
  cases a with
  | asyncHandshake => exact handshake
  | fails => exact fails
  | readDone octets =>
    have hsame : (start memory packet).step (.readDone octets) = start memory packet :=
      ite_self _
    rw [hsame]
    exact same
  | asyncRead | asyncWrite | writeDone | settleTimeout | dispatchRead | dispatchWrite
  | writeOpDone => exact same

/-! ## What the loop does -/

/-- `deliver_input_sequence` delivers octets up to a message of nonzero length, which it keeps and
which leaves the context connected, or all of them if there is none. -/
structure Delivers (octets : List UInt8) (m : Machine) (d : Delivered) : Prop where
  ok : d.ok = true
  split : ∃ fed, octets = fed ++ d.rest ∧ d.machine = deliverOctets fed m ∧
    deliveries fed m = [d.packet].filter (· ≠ [])
  all : d.packet = [] → d.rest = []
  connected : d.packet ≠ [] → sfpIsConnected d.machine.ctx = true

/-- What an octet hands to a caller whose buffer has room for every packet. -/
theorem sfpDeliverOctet_result {m : Machine} (hm : m.ctx.Between) (octet : UInt8) :
    (sfpDeliverOctet octet (some sfpConfigMaxPacketSize) m).2 = ⟨0, none⟩ ∨
      ∃ packet, (sfpDeliverOctet octet (some sfpConfigMaxPacketSize) m).2 = ⟨1, some packet⟩ := by
  obtain ⟨-, hresult⟩ := sfpDeliverOctet_notes hm.idle.ready octet sfpConfigMaxPacketSize
  have hroom : ¬ sfpConfigMaxPacketSize < m.ctx.rewound.rx.packet.len :=
    Nat.not_lt_of_le m.ctx.rewound.rx.packet.len_le
  rw [if_neg hroom] at hresult
  rw [hresult]
  by_cases hdelivers : m.ctx.Delivers octet
  · rw [if_pos hdelivers]
    exact .inr ⟨_, rfl⟩
  · rw [if_neg hdelivers]
    exact .inl rfl

theorem deliverLoop_spec (octets : List UInt8) {m : Machine} (hm : m.ctx.Between) :
    Delivers octets m (deliverLoop octets [] m) := by
  induction octets generalizing m with
  | nil => exact ⟨rfl, ⟨[], rfl, rfl, rfl⟩, fun _ => rfl, fun h => absurd rfl h⟩
  | cons octet octets ih =>
    have hfst := fst_sfpDeliverOctet octet (some sfpConfigMaxPacketSize) m
    have hrest := ih (between_sfpDeliverOctet hm octet)
    obtain ⟨fed, hsplit, hmachine, hdeliveries⟩ := hrest.split
    -- an octet behind which the loop goes on
    have hon : (sfpDeliverOctet octet (some sfpConfigMaxPacketSize) m).2.message = [] →
        deliverLoop (octet :: octets) [] m
          = deliverLoop octets [] (sfpDeliverOctet octet none m).1 →
        Delivers (octet :: octets) m (deliverLoop (octet :: octets) [] m) := by
      intro hnone heq
      rw [heq]
      refine ⟨hrest.ok, ⟨octet :: fed, ?_, ?_, ?_⟩, hrest.all, hrest.connected⟩
      · rw [List.cons_append, ← hsplit]
      · rw [hmachine, deliverOctets_cons]
      · rw [deliveries_cons, hnone, List.nil_append, hdeliveries]
    rcases sfpDeliverOctet_result hm octet with hresult | ⟨packet, hresult⟩
    · apply hon
      · rw [hresult]
        rfl
      · simp only [deliverLoop, hresult, hfst]
        simp
    · by_cases hempty : packet = []
      · subst hempty
        apply hon
        · rw [hresult]
          rfl
        · simp only [deliverLoop, hresult, hfst]
          simp
      · -- the loop ends behind a message
        have hloop : deliverLoop (octet :: octets) [] m
            = ⟨(sfpDeliverOctet octet none m).1, packet, octets, true⟩ := by
          simp only [deliverLoop, hresult, hfst]
          simp [hempty]
        rw [hloop]
        refine ⟨rfl, ⟨[octet], rfl, rfl, ?_⟩, fun h => absurd h hempty, fun _ => ?_⟩
        · rw [deliveries_cons, hresult, deliveries_nil, List.append_nil]
          rfl
        · have hcopied : (sfpDeliverOctet octet (some sfpConfigMaxPacketSize) m).2.copied
              = some packet := by rw [hresult]
          have hconnected := connected_of_copied hcopied
          rw [hfst] at hconnected
          exact beq_iff_eq.mpr hconnected

end Stream

end Libsfp.Asio
