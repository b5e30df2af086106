import Libsfp.Api.Calls
import Libsfp.Session.Labels

/-!
# The History of a Context

Two results about one context under arbitrary calls, a re-run `sfpInit` included.

1. The label that the place of an entry in the history implies is the one the packet was last sent
   with, whenever the context is not disconnected; so a `NAK` for a packet in the history brings
   exactly the packets from there on, under the labels and with the payloads they had.
2. A repeated `NAK` changes nothing, and brings the same frames again or none.

For the first, packets are numbered in the order they are written. The numbers are no part of the
context: they live in a second endpoint that runs beside it.
-/

namespace Libsfp

open Lib (run)

section Naks

variable [SfpConfig]

/-! ## Handling a `NAK` -/

/-- A retransmission leaves the history as it is, -/
theorem sfpTransmitRTX_keeps {m : Machine} (hm : m.ctx.Idle) (packet : SFPpacket) :
    (sfpTransmitRTX packet m).ctx.tx.history = m.ctx.tx.history ∧
      (sfpTransmitRTX packet m).ctx.rx = m.ctx.rx ∧
      (sfpTransmitRTX packet m).ctx.connectState = m.ctx.connectState := by
  have hspec := (sfpTransmitFrameWithHeader_spec (makeHeader .rtx m.ctx.tx.seq) (some packet)
    hm.ready).1
  exact ⟨hspec.history, hspec.rx, hspec.connectState⟩

/-- and so do all of them. -/
theorem foldl_sfpTransmitRTX_keeps (packets : List SFPpacket) {m : Machine} (hm : m.ctx.Idle) :
    (packets.foldl (fun m packet => sfpTransmitRTX packet m) m).ctx.tx.history
        = m.ctx.tx.history ∧
      (packets.foldl (fun m packet => sfpTransmitRTX packet m) m).ctx.rx = m.ctx.rx ∧
      (packets.foldl (fun m packet => sfpTransmitRTX packet m) m).ctx.connectState
        = m.ctx.connectState := by
  -- each packet finds the machine as idle as the one before left it
  induction packets generalizing m with
  | nil => exact ⟨rfl, rfl, rfl⟩
  | cons packet packets ih =>
    obtain ⟨hhistory, hrx, hstate⟩ := sfpTransmitRTX_keeps hm packet
    obtain ⟨hhistory', hrx', hstate'⟩ := ih (does_sfpTransmitRTX hm packet).idle
    exact ⟨hhistory'.trans hhistory, hrx'.trans hrx, hstate'.trans hstate⟩

/-- The part of the history that `sfpTransmitHistoryFromSeq` keeps. -/
theorem entries_sfpTransmitHistoryFromSeq {m : Machine} (hm : m.ctx.Idle) {seq : SFPseq}
    (hseq : seq.toNat < seqRange) :
    (sfpTransmitHistoryFromSeq seq m).ctx.tx.history.entries
        = (if m.ctx.abs.skipTo seq.toNat < m.ctx.tx.history.size then
            m.ctx.tx.history.entries.drop (m.ctx.abs.skipTo seq.toNat)
          else m.ctx.tx.history.entries) ∧
      (sfpTransmitHistoryFromSeq seq m).ctx.rx = m.ctx.rx ∧
      (sfpTransmitHistoryFromSeq seq m).ctx.connectState = m.ctx.connectState := by
  unfold sfpTransmitHistoryFromSeq sfpTransmitHistory
  rw [fastforward_eq_skipTo hm]
  generalize m.ctx.abs.skipTo seq.toNat = ff
  -- `fastforward` drops entries only when it stays inside the history
  by_cases hin : ff < m.ctx.tx.history.size
  · simp only [hin, if_true]
    have hdrop := does_setHistory hm (m.ctx.tx.history.popFrontN ff)
    have hset := does_setTxSeq hdrop.idle seq hseq
    obtain ⟨hhistory, hrx, hstate⟩ :=
      foldl_sfpTransmitRTX_keeps (m.ctx.tx.history.popFrontN ff).entries hset.idle
    refine ⟨?_, hrx, hstate⟩
    exact (congrArg PotRingbuffer.entries hhistory).trans (PotRingbuffer.entries_popFrontN _ _)
  · simp only [hin, if_false]
    have hset := does_setTxSeq hm seq hseq
    obtain ⟨hhistory, hrx, hstate⟩ :=
      foldl_sfpTransmitRTX_keeps m.ctx.tx.history.entries hset.idle
    exact ⟨congrArg PotRingbuffer.entries hhistory, hrx, hstate⟩

/-- The receiver and the connection state stay as they are. -/
theorem sfpHandleNAK_keeps {m : Machine} (hm : m.ctx.Idle)
    (hstate : m.ctx.connectState = .connected) :
    (sfpHandleNAK m).ctx.rx = m.ctx.rx ∧ (sfpHandleNAK m).ctx.connectState = .connected := by
  simp only [sfpHandleNAK, hstate]
  split
  · obtain ⟨-, hrx, hconnected⟩ := entries_sfpTransmitHistoryFromSeq hm
      (toNat_getFrameSeq_lt m.ctx.rx.header)
    exact ⟨hrx, hconnected.trans hstate⟩
  · -- the `NAK` asks for the next packet: nothing is missing
    exact ⟨rfl, hstate⟩

/-- The history of a connected context after a `NAK`, in terms of packets. -/
theorem entries_sfpHandleNAK {m : Machine} (hm : m.ctx.Idle)
    (hstate : m.ctx.connectState = .connected) :
    (sfpHandleNAK m).ctx.tx.history.entries
      = if getFrameSeq m.ctx.rx.header ≠ m.ctx.tx.seq ∧
          m.ctx.abs.skipTo (getFrameSeq m.ctx.rx.header).toNat < m.ctx.tx.history.size then
        m.ctx.tx.history.entries.drop (m.ctx.abs.skipTo (getFrameSeq m.ctx.rx.header).toNat)
      else m.ctx.tx.history.entries := by
  have hentries := (entries_sfpTransmitHistoryFromSeq hm
    (toNat_getFrameSeq_lt m.ctx.rx.header)).1
  simp only [sfpHandleNAK, hstate]
  by_cases hseq : getFrameSeq m.ctx.rx.header ≠ m.ctx.tx.seq
  · rw [if_pos hseq, hentries]
    simp only [ne_eq, hseq, not_false_eq_true, true_and]
  · rw [if_neg hseq, if_neg fun h => hseq h.1]

/-! ## Repeated `NAK`s -/

/-- A context on which the `NAK` in its receiver was handled: handling it again changes nothing. -/
structure Answered (m m' : Machine) : Prop where
  idle : m'.ctx.Idle
  connected : m'.ctx.connectState = .connected
  header : m'.ctx.rx.header = m.ctx.rx.header
  abs : m'.ctx.abs = (m.ctx.abs.receiveNak (getFrameSeq m.ctx.rx.header).toNat).endpoint
  entries : m'.ctx.tx.history.entries = (sfpHandleNAK m).ctx.tx.history.entries

/-- **An answered `NAK`**, the first time. -/
theorem answered_sfpHandleNAK {m : Machine} (hm : m.ctx.Idle)
    (hstate : m.ctx.connectState = .connected) : Answered m (sfpHandleNAK m) := by
  -- `Answered` is `m` after one `NAK` and stays true after each further one
  have hdoes := does_sfpHandleNAK hm
  obtain ⟨hrx, hconnected⟩ := sfpHandleNAK_keeps hm hstate
  exact ⟨hdoes.idle, hconnected, congrArg SFPreceiver.header hrx, hdoes.abs, rfl⟩

/-- The next repetition: the same state again, and the first answer again or none. -/
theorem Answered.again {m m' : Machine} (hstate : m.ctx.connectState = .connected)
    (h : Answered m m') :
    Answered m (sfpHandleNAK m') ∧
      ((sfpHandleNAK m').wire = m'.wire ∨
        (sfpHandleNAK m').wire = m'.wire ++
          (m.ctx.abs.receiveNak (getFrameSeq m.ctx.rx.header).toNat).sent.flatMap
            Frame.octets) := by
  obtain ⟨hendpoint, hsent⟩ := receiveNak_receiveNak (e := m.ctx.abs) hstate
  have hdoes := does_sfpHandleNAK h.idle
  rw [h.abs, h.header] at hdoes
  obtain ⟨hrx, hconnected⟩ := sfpHandleNAK_keeps h.idle h.connected
  refine ⟨⟨hdoes.idle, hconnected, ?_, ?_, ?_⟩, ?_⟩
  · rw [hrx, h.header]
  · rw [hdoes.abs, hendpoint]
  · -- nothing precedes the label any more
    rw [entries_sfpHandleNAK h.idle h.connected, h.header, ← h.entries]
    split
    next hcond =>
      have hne : (getFrameSeq m.ctx.rx.header).toNat ≠ m'.ctx.abs.txSeq := fun heq =>
        hcond.1 (UInt8.toNat_inj.mp heq)
      rw [h.abs] at hne ⊢
      rw [skipTo_receiveNak hstate hne, List.drop_zero]
    next => rfl
  · rcases hsent with hnone | hsame
    · left
      rw [hdoes.wire, hnone, List.flatMap_nil, List.append_nil]
    · right
      rw [hdoes.wire, hsame]

/-- **Duplicate `NAK`s are idempotent**: handling the `NAK` in the receiver again and again leaves
what the first time left, and what it transmits is what the first time did. -/
theorem sfpHandleNAK_idempotent {m : Machine} (hm : m.ctx.Idle)
    (hstate : m.ctx.connectState = .connected) :
    ∃ frames : List (Frame (List UInt8)),
      (∀ f ∈ frames, ∃ seq p, f = .rtx seq p) ∧
      (sfpHandleNAK m).wire = m.wire ++ frames.flatMap Frame.octets ∧
      ∀ n, 1 ≤ n →
        (sfpHandleNAK^[n + 1] m).ctx.rx.header = m.ctx.rx.header ∧
        (sfpHandleNAK^[n + 1] m).ctx.tx.seq = (sfpHandleNAK m).ctx.tx.seq ∧
        (sfpHandleNAK^[n + 1] m).ctx.tx.history.entries
          = (sfpHandleNAK m).ctx.tx.history.entries ∧
        ((sfpHandleNAK^[n + 1] m).wire = (sfpHandleNAK^[n] m).wire ∨
          (sfpHandleNAK^[n + 1] m).wire
            = (sfpHandleNAK^[n] m).wire ++ frames.flatMap Frame.octets) := by
  have hfirst := answered_sfpHandleNAK hm hstate
  -- by induction on the number of repetitions
  have hall : ∀ n, Answered m (sfpHandleNAK^[n + 1] m) := by
    intro n
    induction n with
    | zero => exact hfirst
    | succ n ih =>
      rw [Function.iterate_succ_apply']
      exact (ih.again hstate).1
  refine ⟨(m.ctx.abs.receiveNak (getFrameSeq m.ctx.rx.header).toNat).sent, ?_,
    (does_sfpHandleNAK hm).wire, ?_⟩
  · exact sent_receiveNak hstate
  · intro n hn
    obtain ⟨k, rfl⟩ : ∃ k, n = k + 1 := ⟨n - 1, by omega⟩
    have hlast := hall (k + 1)
    refine ⟨hlast.header, ?_, hlast.entries, ?_⟩
    · have htx := congrArg Endpoint.txSeq (hlast.abs.trans hfirst.abs.symm)
      exact UInt8.toNat_inj.mp htx
    · rw [Function.iterate_succ_apply']
      exact ((hall k).again hstate).2

end Naks

section HeaderDefaults

attribute [local instance] headerDefaults

/-- A `NAK` for the only packet of a session. -/
theorem sfpHandleNAK_idempotent_one :
    let m := (sfpWritePacket (.replicate _ 0) [1] (by decide) (.of SFPcontext.zero.inSession)).1
    ∃ frames : List (Frame (List UInt8)),
      (∀ f ∈ frames, ∃ seq p, f = .rtx seq p) ∧
      (sfpHandleNAK m).wire = m.wire ++ frames.flatMap Frame.octets ∧
      ∀ n, 1 ≤ n →
        (sfpHandleNAK^[n + 1] m).ctx.rx.header = m.ctx.rx.header ∧
        (sfpHandleNAK^[n + 1] m).ctx.tx.seq = (sfpHandleNAK m).ctx.tx.seq ∧
        (sfpHandleNAK^[n + 1] m).ctx.tx.history.entries
          = (sfpHandleNAK m).ctx.tx.history.entries ∧
        ((sfpHandleNAK^[n + 1] m).wire = (sfpHandleNAK^[n] m).wire ∨
          (sfpHandleNAK^[n + 1] m).wire
            = (sfpHandleNAK^[n] m).wire ++ frames.flatMap Frame.octets) := by
  have hdoes := does_sfpWritePacket (m := .of SFPcontext.zero.inSession)
    (SFPcontext.idle_inSession _) (.replicate _ 0) [1] (by decide)
  exact sfpHandleNAK_idempotent hdoes.idle (congrArg Endpoint.connectState hdoes.abs)

end HeaderDefaults

/-! ## Numbered packets -/

section Numbers

variable [SfpConfig]

/-- What a program does with one context. -/
inductive Use where
  | init (cb : Callbacks)
  | call (c : Call)

/-- A context, and beside it an endpoint whose packets are numbered in the order they are written,
with all the frames it sent. -/
structure Numbered where
  machine : Machine
  shadow : Endpoint (Nat × List UInt8)
  sent : List (Frame (Nat × List UInt8))
  written : Nat

/-- The input to the numbered endpoint: a packet that is written gets the next number. Those that
are received never enter a history, so their number does not matter. -/
def Input.number {α : Type*} (next : Nat) : Input α → Input (Nat × α)
  | .connect => .connect
  | .write packet => .write (next, packet)
  | .frame f => .frame (f.map fun p => (0, p))

/-- How many packets an input writes. -/
def Input.writes {α : Type*} : Input α → Nat
  | .write _ => 1
  | _ => 0

/-- `sfpInit` on memory with arbitrary content. What the memory holds as its history is never sent:
it needs no numbers. -/
def Numbered.start (cb : Callbacks) (memory : SFPcontext) : Numbered where
  machine := .of (memory.initWith cb)
  shadow := (Endpoint.init memory.tx.history.entries).map fun p => (0, p.octets)
  sent := []
  written := 0

def Numbered.use (n : Numbered) : Use → Numbered
  | .init cb =>
    { n with
      machine := ⟨n.machine.ctx.initWith cb, n.machine.trace⟩
      shadow := .init n.shadow.history }
  | .call c =>
    let input := c.input n.machine.ctx
    let r := n.shadow.react sfpConfigHistoryCapacity (input.number n.written)
    { machine := n.machine.call c
      shadow := r.endpoint
      sent := n.sent ++ r.sent
      written := n.written + input.writes }

/-- The number of a packet that is sent for the first time. -/
def freshNumber {α : Type*} : Frame (Nat × α) → Option Nat
  | .usr _ q => some q.1
  | _ => none

omit [SfpConfig] in
/-- Numbered packets are treated as packets without numbers are. -/
theorem react_number {α : Type*} (capacity next : Nat) (e : Endpoint (Nat × α)) (i : Input α) :
    (e.react capacity (i.number next)).map Prod.snd
      = (e.map Prod.snd).react capacity i := by
  cases i with
  | connect => rfl
  | write packet => exact (write_map Prod.snd capacity e (next, packet)).symm
  | frame f =>
    -- the numbers that received packets got are dropped again
    have hf : (f.map fun p => ((0 : Nat), p)).map Prod.snd = f := by cases f <;> rfl
    show (e.receive (f.map fun p => (0, p))).map Prod.snd = (e.map Prod.snd).receive f
    rw [← receive_map, hf]

/-- The numbered endpoint is the context with numbers, and its labels are right. -/
structure Numbered.Right (n : Numbered) : Prop where
  between : n.machine.ctx.Between
  abs : n.shadow.map Prod.snd = n.machine.ctx.abs
  wire : n.machine.wire = (n.sent.map (Frame.map Prod.snd)).flatMap Frame.octets
  fresh : n.sent.filterMap freshNumber = List.range n.written
  tracked : n.shadow.connectState ≠ .disconnected → Tracked n.shadow n.sent n.written

omit [SfpConfig] in
/-- No reaction to a frame sends a packet for the first time. -/
theorem freshNumber_receive {α : Type*} {e : Endpoint (Nat × α)} {f : Frame (Nat × α)}
    (hf : f.InRange) : (e.receive f).sent.filterMap freshNumber = [] := by
  have hcontrol : ∀ g : Frame (Nat × α), g.user? = none → freshNumber g = none := by
    intro g hg
    cases g with
    | usr seq q => cases hg
    | _ => rfl
  rw [List.filterMap_eq_nil_iff]
  intro g hg
  -- control frames have no packet, and a replay sends only `RTX`
  rcases moves_receive (e := e) hf with ⟨-, -, -, hsent⟩ | ⟨-, -, hsent⟩ |
    ⟨-, seq, hseq, front, hfront, -, -, hsent⟩
  · exact hcontrol g (hsent g hg)
  · exact hcontrol g (hsent g hg)
  · rw [hsent] at hg
    rcases List.mem_append.mp hg with hg | hg
    · exact hcontrol g (hfront g hg)
    · obtain ⟨i, q, -, rfl⟩ := mem_retransmissions hg hseq
      rfl

namespace Numbered

variable {n : Numbered}

/-- The shadow is right at the start. -/
theorem right_start (cb : Callbacks) (memory : SFPcontext) : (start cb memory).Right where
  between := memory.between_initWith cb
  abs := by
    show Endpoint.map Prod.snd (Endpoint.map _ (Endpoint.init _)) = _
    simp [Endpoint.map, Endpoint.init, SFPcontext.abs_initWith, start, Function.comp_def]
  wire := rfl
  fresh := rfl
  tracked h := absurd rfl h

/-- It is no longer than the history. -/
theorem Right.length_le (h : n.Right) :
    n.shadow.history.length ≤ sfpConfigHistoryCapacity := by
  have hlen := congrArg (fun e => e.history.length) h.abs
  simp only [Endpoint.history_map, List.length_map, SFPcontext.abs] at hlen
  rw [hlen]
  exact n.machine.ctx.tx.history.length_entries_le

/-- A re-run `sfpInit` leaves the history in place; what it holds is not sent any more. -/
theorem Right.init (h : n.Right) (cb : Callbacks) : (n.use (.init cb)).Right where
  between := n.machine.ctx.between_initWith cb
  abs := by
    have hhistory := congrArg Endpoint.history h.abs
    show Endpoint.map Prod.snd (Endpoint.init n.shadow.history) = _
    rw [use, SFPcontext.abs_initWith]
    simp only [Endpoint.map, Endpoint.init]
    exact congrArg (fun l => (⟨.disconnected, 0, 0, l⟩ : Endpoint (List UInt8))) hhistory
  wire := h.wire
  fresh := h.fresh
  tracked hstate := absurd rfl hstate

/-- Frames that are dispatched are in range. -/
theorem inRange_input {ctx : SFPcontext} {c : Call} {f : Frame (List UInt8)}
    (hf : c.input ctx = .frame f) : f.InRange := by
  cases c with
  | connect => cases hf
  | write stack packet le => cases hf
  | deliver octet buf =>
    rw [Call.input, Input.frame.injEq] at hf
    subst hf
    split
    · -- the octet ends a frame
      exact inRange_toFrame _
    · trivial
  | isConnected =>
    rw [Call.input, Input.frame.injEq] at hf
    subst hf
    trivial

/-- **A call keeps the shadow right.** -/
theorem Right.call (hcap : sfpConfigHistoryCapacity < seqRange) (h : n.Right) (c : Call) :
    (n.use (.call c)).Right := by
  have hserves := serves_call h.between c
  have hreact := react_number sfpConfigHistoryCapacity n.written n.shadow (c.input n.machine.ctx)
  rw [h.abs] at hreact
  have hlen := Nat.lt_of_le_of_lt h.length_le hcap
  refine ⟨hserves.between, ?_, ?_, ?_, ?_⟩
  · exact (congrArg Reaction.endpoint hreact).trans hserves.abs.symm
  · show (n.machine.call c).wire = _
    rw [hserves.wire, h.wire, ← hreact]
    simp [use, Reaction.map]
  · show (n.sent ++ _).filterMap freshNumber = _
    rw [List.filterMap_append, h.fresh]
    cases hinput : c.input n.machine.ctx with
    | connect => simp [use, hinput, Endpoint.react, Input.number, Endpoint.connect, freshNumber,
        Input.writes]
    | write packet => simp [use, hinput, Endpoint.react, Input.number, Endpoint.write, freshNumber,
        Input.writes, List.range_succ]
    | frame f =>
      have hf := Frame.inRange_map (fun p => ((0 : Nat), p)) (inRange_input hinput)
      simp [use, hinput, Endpoint.react, Input.number, freshNumber_receive hf, Input.writes]
  · cases hinput : c.input n.machine.ctx with
    -- the history was cleared
    | connect =>
      intro _
      simp only [use, hinput]
      exact .of_nil rfl
    | write packet =>
      -- the new packet gets the next number and the next label
      have htx : n.shadow.txSeq < seqRange := by
        have habs := congrArg Endpoint.txSeq h.abs
        exact habs ▸ h.between.idle.txSeq_lt
      simp only [use, hinput]
      intro hstate
      exact (h.tracked hstate).write htx h.length_le sfpConfigHistoryCapacity_pos hcap packet
    | frame f =>
      have hf := Frame.inRange_map (fun p => ((0 : Nat), p)) (inRange_input hinput)
      simp only [use, hinput]
      intro hstate
      exact tracked_receive hlen h.tracked hf hstate

/-- So does every run. -/
theorem right_run (hcap : sfpConfigHistoryCapacity < seqRange) (cb : Callbacks)
    (memory : SFPcontext) (us : List Use) :
    (run use (start cb memory) us).Right := by
  -- each use keeps the two endpoints together, so a run does
  have hstep : ∀ (n : Numbered) u, n.Right → (n.use u).Right := by
    intro n u hn
    cases u with
    | init cb => exact hn.init cb
    | call c => exact hn.call hcap c
  exact Lib.run_invariant_of_step hstep us (right_start cb memory)

/-- An entry of the history of the context is an entry of the numbered one. -/
theorem Right.entry (h : n.Right) {i : Nat} {p : SFPpacket}
    (hp : n.machine.ctx.tx.history.entries[i]? = some p) :
    ∃ number, n.shadow.history[i]? = some (number, p.octets) := by
  have hhistory := congrArg (fun e => e.history[i]?) h.abs
  simp only [Endpoint.history_map, SFPcontext.abs, List.getElem?_map, hp, Option.map_some]
    at hhistory
  obtain ⟨q, hq, hoctets⟩ := Option.map_eq_some_iff.mp hhistory
  exact ⟨q.1, by rw [hq, ← hoctets]⟩

end Numbered

/-! ## The history window -/

/-- The machine with a frame of the given header in its receiver. -/
def Machine.setHeader (header : SFPheader) (m : Machine) : Machine :=
  { m with ctx.rx.header := header }

/-- The label that the place of an entry in the history of a context implies. -/
def SFPcontext.labelAt (c : SFPcontext) (i : Nat) : Nat :=
  (c.tx.seq.toNat + seqRange - c.tx.history.size + i) % seqRange

/-- How many entries of the history of a context are older than the one labelled `seq`. -/
def SFPcontext.offset (c : SFPcontext) (seq : SFPseq) : Nat :=
  (seq.toNat + seqRange + c.tx.history.size - c.tx.seq.toNat) % seqRange

/-- The shadow has the size of the history, -/
theorem Numbered.Right.size_eq {n : Numbered} (h : n.Right) :
    n.shadow.history.length = n.machine.ctx.tx.history.size := by
  have hlen := congrArg (fun e => e.history.length) h.abs
  simpa [SFPcontext.abs] using hlen

/-- and its labels. -/
theorem Numbered.Right.labelAt_eq {n : Numbered} (h : n.Right) (i : Nat) :
    n.shadow.labelAt i = n.machine.ctx.labelAt i := by
  have htxSeq : n.shadow.txSeq = n.machine.ctx.tx.seq.toNat := congrArg Endpoint.txSeq h.abs
  rw [Endpoint.labelAt, h.size_eq, htxSeq]
  rfl

/-- The entry behind the first `offset` ones has the label asked for. -/
theorem SFPcontext.labelAt_offset {c : SFPcontext} (hc : c.Idle)
    (hsize : c.tx.history.size < seqRange) {seq : SFPseq} (hseq : seq.toNat < seqRange) (i : Nat) :
    c.labelAt (c.offset seq + i) = (seq.toNat + i) % seqRange := by
  have htx := hc.txSeq_lt
  simp only [labelAt, offset, seqRange] at *
  omega

/-- The number of entries from the one labelled `seq` on. -/
theorem SFPcontext.size_sub_offset {c : SFPcontext} (hc : c.Idle)
    (hsize : c.tx.history.size < seqRange) {seq : SFPseq} (hseq : seq.toNat < seqRange)
    (hin : c.offset seq < c.tx.history.size) :
    c.tx.history.size - c.offset seq = (c.tx.seq.toNat + seqRange - seq.toNat) % seqRange := by
  have htx := hc.txSeq_lt
  simp only [offset, seqRange] at *
  omega

/-- The next label is that of no entry. -/
theorem SFPcontext.not_offset_lt {c : SFPcontext} (hc : c.Idle)
    (hsize : c.tx.history.size < seqRange) : ¬ c.offset c.tx.seq < c.tx.history.size := by
  have htx := hc.txSeq_lt
  simp only [offset, seqRange] at *
  omega

/-- What the `NAK` for `seq` brings: the packets labelled `seq` up to the newest one, as they were
last sent; the history forgets those before. -/
structure Resends (n : Numbered) (seq : SFPseq) (m : Machine) : Prop where
  txSeq : m.ctx.tx.seq = n.machine.ctx.tx.seq
  history : m.ctx.tx.history.entries
    = n.machine.ctx.tx.history.entries.drop (n.machine.ctx.offset seq)
  resent : ∃ frames : List (Frame (List UInt8)),
    m.wire = n.machine.wire ++ frames.flatMap Frame.octets ∧
      frames.length = (n.machine.ctx.tx.seq.toNat + seqRange - seq.toNat) % seqRange ∧
      ∀ i < frames.length, ∃ p, frames[i]? = some (.rtx ((seq.toNat + i) % seqRange) p) ∧
        lastPacket ((seq.toNat + i) % seqRange) n.sent = some p

/-- A `NAK` in the window is answered with the packets it asks for. -/
theorem Numbered.Right.resends (hcap : sfpConfigHistoryCapacity < seqRange) {n : Numbered}
    (h : n.Right) (hstate : n.machine.ctx.connectState = .connected) (header : SFPheader)
    (hin : n.machine.ctx.offset (getFrameSeq header) < n.machine.ctx.tx.history.size) :
    Resends n (getFrameSeq header) (sfpHandleNAK (n.machine.setHeader header)) := by
  have hctx := h.between.idle
  have hsize : n.machine.ctx.tx.history.size < seqRange := by
    rw [PotRingbuffer.size_eq]
    exact Nat.lt_of_le_of_lt n.machine.ctx.tx.history.length_entries_le hcap
  have hidle : (n.machine.setHeader header).ctx.Idle :=
    ⟨hctx.write, hctx.writebufn, hctx.txSeq_lt, hctx.rxSeq_lt⟩
  have hheader : (n.machine.setHeader header).ctx.rx.header = header := rfl
  have habs : (n.machine.setHeader header).ctx.abs = n.machine.ctx.abs := rfl
  have hdoes := does_sfpHandleNAK hidle
  have hentries := entries_sfpHandleNAK hidle hstate
  rw [hheader, habs] at hdoes hentries
  -- from here on only the label the header asks for matters
  have hlt := toNat_getFrameSeq_lt header
  generalize getFrameSeq header = seq at *
  have hlength : n.machine.ctx.abs.history.length = n.machine.ctx.tx.history.size := by
    simp [SFPcontext.abs]
  have hskip : n.machine.ctx.abs.skipTo seq.toNat = n.machine.ctx.offset seq := by
    rw [Endpoint.skipTo, hlength]
    rfl
  -- a label in the window is not the next one, so the `NAK` is answered
  have hne : seq ≠ n.machine.ctx.tx.seq := by
    rintro rfl
    exact SFPcontext.not_offset_lt hctx hsize hin
  have hreaction : n.machine.ctx.abs.receiveNak seq.toNat
      = n.machine.ctx.abs.replayFrom seq.toNat := by
    have hconnected : n.machine.ctx.abs.connectState = .connected := hstate
    simp only [Endpoint.receiveNak, hconnected]
    exact if_pos fun heq => hne (UInt8.toNat_inj.mp heq)
  have hkept : n.machine.ctx.abs.kept seq.toNat
      = n.machine.ctx.abs.history.drop (n.machine.ctx.offset seq) := by
    rw [Endpoint.kept, hskip, hlength, if_pos hin]
  have hcount : (n.machine.ctx.abs.kept seq.toNat).length
      = (n.machine.ctx.tx.seq.toNat + seqRange - seq.toNat) % seqRange := by
    rw [hkept, List.length_drop, hlength, SFPcontext.size_sub_offset hctx hsize hlt hin]
  rw [hreaction] at hdoes
  refine ⟨?_, ?_, Endpoint.retransmissions seq.toNat (n.machine.ctx.abs.kept seq.toNat),
    hdoes.wire, ?_, ?_⟩
  · -- the labels of the burst lead back to the next label
    have htx := hctx.txSeq_lt
    have hlast : (seq.toNat + (n.machine.ctx.abs.kept seq.toNat).length) % seqRange
        = n.machine.ctx.tx.seq.toNat := by
      rw [hcount]
      simp only [seqRange] at *
      omega
    apply UInt8.toNat_inj.mp
    exact (congrArg Endpoint.txSeq hdoes.abs).trans hlast
  · rw [hentries, hskip]
    exact if_pos ⟨hne, hin⟩
  · rw [Endpoint.length_retransmissions, hcount]
  · intro i hi
    rw [Endpoint.length_retransmissions, hkept, List.length_drop] at hi
    obtain ⟨p, hp⟩ : ∃ p, n.machine.ctx.abs.history[n.machine.ctx.offset seq + i]? = some p :=
      ⟨_, List.getElem?_eq_getElem (by omega)⟩
    refine ⟨p, ?_, ?_⟩
    · rw [getElem?_retransmissions hlt, hkept, List.getElem?_drop, hp]
      rfl
    · -- the same entry, numbered
      have hhistory := congrArg (fun e => e.history[n.machine.ctx.offset seq + i]?) h.abs
      simp only [Endpoint.history_map, List.getElem?_map, hp] at hhistory
      obtain ⟨q, hq, rfl⟩ := Option.map_eq_some_iff.mp hhistory
      have hconnected : n.shadow.connectState = .connected :=
        (congrArg Endpoint.connectState h.abs).trans hstate
      have hlast := (h.tracked (by simp [hconnected])).packet _ q hq
      rw [h.labelAt_eq, SFPcontext.labelAt_offset hctx hsize hlt] at hlast
      exact hlast

/-- **The history window.** However a program uses a context whose history holds fewer packets than
there are labels, as long as it is not disconnected the place of a packet in the history implies the
label it was last sent with; and when it is connected a `NAK` for a label in the window brings the
packets from there on, as they were last sent. -/
theorem history_window (hcap : sfpConfigHistoryCapacity < seqRange) (cb : Callbacks)
    (memory : SFPcontext) (us : List Use) :
    let n := run Numbered.use (.start cb memory) us
    let c := n.machine.ctx
    -- the numbers are those of the packets written, in order
    n.shadow.map Prod.snd = c.abs ∧
      n.machine.wire = (n.sent.map (Frame.map Prod.snd)).flatMap Frame.octets ∧
      n.sent.filterMap freshNumber = List.range n.written ∧
      (c.connectState ≠ .disconnected → ∀ i p, c.tx.history.entries[i]? = some p →
        ∃ number, n.shadow.history[i]? = some (number, p.octets) ∧
          lastLabel number n.sent = some (c.labelAt i)) ∧
      (c.connectState = .connected → ∀ header : SFPheader,
        c.offset (getFrameSeq header) < c.tx.history.size →
          Resends n (getFrameSeq header) (sfpHandleNAK (n.machine.setHeader header))) := by
  intro n c
  have hright : n.Right := Numbered.right_run hcap cb memory us
  refine ⟨hright.abs, hright.wire, hright.fresh, ?_, ?_⟩
  · intro hstate i p hp
    -- what was last sent under the number is kept by `Tracked`
    obtain ⟨number, hentry⟩ := hright.entry hp
    have habs := congrArg Endpoint.connectState hright.abs
    have hlabel := (hright.tracked (habs.trans_ne hstate)).label i _ hentry
    rw [hright.labelAt_eq] at hlabel
    exact ⟨number, hentry, hlabel⟩
  · intro hstate header hin
    exact hright.resends hcap hstate header hin

end Numbers

section HeaderDefaults

attribute [local instance] headerDefaults

/-- A session opened from this side, with two packets. -/
def twoPackets : List Use :=
  .call .connect ::
    (frameOctets (makeHeader .syn sfpSeqSyn1) []).map (fun octet => .call (.deliver octet none)) ++
    [.call (.write (.replicate _ 0) [1] (by decide)),
      .call (.write (.replicate _ 0) [2] (by decide))]

/-- Two packets in the history. -/
theorem history_window_two :
    let n := run Numbered.use (.start ⟨true, true, true⟩ .zero) twoPackets
    n.machine.ctx.tx.history.size = 2 ∧
      Resends n 1 (sfpHandleNAK (n.machine.setHeader (makeHeader .nak 1))) := by
  have hconnected : (run Numbered.use (.start ⟨true, true, true⟩ .zero)
      twoPackets).machine.ctx.connectState = .connected := by decide +kernel
  have hsize : (run Numbered.use (.start ⟨true, true, true⟩ .zero)
      twoPackets).machine.ctx.tx.history.size = 2 := by decide +kernel
  have hin : (run Numbered.use (.start ⟨true, true, true⟩ .zero) twoPackets).machine.ctx.offset
      (getFrameSeq (makeHeader .nak 1)) < 2 := by decide +kernel
  refine ⟨hsize, ?_⟩
  exact (history_window (by decide) ⟨true, true, true⟩ .zero twoPackets).2.2.2.2 hconnected
    (makeHeader .nak 1) (hsize ▸ hin)

end HeaderDefaults

end Libsfp
