import Libsfp.Api.Safety
import Libsfp.Lib.Mealy

/-!
# A Context as a Device

What a context is for, without buffers, CRCs, headers and ring buffers: a device has an endpoint,
the unescaped octets collected of the current frame, a pending escape and, possibly, somebody to
deliver to. A call is a command; the device reports the octets that it writes, the packets that it
delivers and what it hands back.

A context cannot be told apart from the device it stands for (`serves_device`), and the device
starts from nothing: neither the memory in which the context was initialized nor the size of its
write buffer can be seen.
-/

namespace Libsfp

open Lib (Mealy run)

/-! ## Devices -/

/-- A call, without the bound on its packet and the memory of its local variable. -/
inductive Command where
  | connect
  | write (packet : List UInt8)
  | deliver (octet : UInt8) (buf : Option Nat)
  | isConnected
  deriving DecidableEq, Repr

structure Device where
  endpoint : Endpoint (List UInt8)
  /-- What was collected of the current frame. -/
  content : List UInt8
  escaping : Bool
  /-- Somebody is told about packets. -/
  deliver : Bool
  deriving DecidableEq, Repr

/-- What a program can see of a call: the octets written, the packets delivered, the answer. -/
structure Report (ω : Type*) where
  octets : List UInt8
  delivered : List (List UInt8)
  answer : ω
  deriving DecidableEq, Repr

namespace Device

/-- Nothing was collected and nothing can be retransmitted. -/
def start (deliver : Bool) : Device := ⟨.init [], [], false, deliver⟩

/-- What a command tells the endpoint. -/
def input (d : Device) : Command → Input (List UInt8)
  | .connect => .connect
  | .write packet => .write packet
  | .deliver octet _ => .frame (if sfpFlag = octet then (verdict d.content).toFrame else .silent)
  | .isConnected => .frame .silent

/-- One more unescaped octet; a header and `size` octets can be collected. -/
def collect (size : Nat) (content : List UInt8) (octet : UInt8) : List UInt8 :=
  if content.length ≤ size then content ++ [octet] else []

/-- The receiver after a command. -/
def listen (size : Nat) (d : Device) : Command → List UInt8 × Bool
  | .connect => ([], false)
  | .deliver octet _ =>
    if sfpFlag = octet then ([], false)
    else if sfpEsc = octet then (d.content, true)
    else (collect size d.content (if d.escaping then octet ^^^ sfpEscFlipBit else octet), false)
  | _ => (d.content, d.escaping)

/-- What `sfpDeliverOctet` hands back when the packets `got` were accepted. -/
def handBack (buf : Option Nat) : List (List UInt8) → DeliverResult
  | [] => ⟨0, none⟩
  | packet :: _ =>
    match buf with
    | none => ⟨1, none⟩
    | some len => if len < packet.length then ⟨-1, none⟩ else ⟨1, some packet⟩

def reaction (capacity : Nat) (d : Device) (c : Command) : Reaction (List UInt8) :=
  d.endpoint.react capacity (d.input c)

/-- What a command hands back. -/
def answer (capacity : Nat) (d : Device) (c : Command) : Answer :=
  match c with
  | .connect => .none
  | .write _ => .written ((d.reaction capacity c).sent.flatMap Frame.octets).length
  | .deliver _ buf => .received (handBack buf (d.reaction capacity c).got)
  | .isConnected => .connected (d.endpoint.connectState == .connected)

end Device

/-- The device of a context with a history of `capacity` packets of at most `size` octets. -/
def device (capacity size : Nat) : Mealy Device Command (Report Answer) where
  next d c :=
    { d with
      endpoint := (d.reaction capacity c).endpoint
      content := (d.listen size c).1
      escaping := (d.listen size c).2 }
  output d c :=
    { octets := (d.reaction capacity c).sent.flatMap Frame.octets
      delivered := if d.deliver then (d.reaction capacity c).got else []
      answer := d.answer capacity c }

section Contexts

variable [SfpConfig]

/-! ## The device of a context -/

def Call.command : Call → Command
  | .connect => .connect
  | .write _ packet _ => .write packet
  | .deliver octet buf => .deliver octet buf
  | .isConnected => .isConnected

/-- What a context stands for. -/
def SFPcontext.device (c : SFPcontext) : Device :=
  ⟨c.abs, c.content, c.rx.isEscaping, c.rx.deliver⟩

/-- A context, with the trace that its calls leave. -/
def sfpMachine : Mealy Machine Call (Report Answer) where
  next := Machine.call
  output m c :=
    { octets := (m.call c).wire.drop m.wire.length
      delivered := (m.call c).delivered.drop m.delivered.length
      answer := (c.perform m).2 }

/-- The device sees the same input as the context, -/
theorem input_device (c : SFPcontext) (call : Call) :
    c.device.input call.command = call.input c := by
  cases call <;> rfl

/-- reacts as its endpoint does, -/
theorem reaction_device (c : SFPcontext) (call : Call) :
    c.device.reaction sfpConfigHistoryCapacity call.command
      = c.abs.react sfpConfigHistoryCapacity (call.input c) := by
  rw [Device.reaction, input_device]
  rfl

/-! ## The receiver -/

/-- The escape that is pending after an octet. -/
theorem isEscaping_sfpDeliverOctet {octet : UInt8} (hflag : octet ≠ sfpFlag) (m : Machine) :
    (sfpDeliverOctet octet none m).1.ctx.rx.isEscaping = decide (sfpEsc = octet) := by
  unfold sfpDeliverOctet
  rw [if_neg hflag.symm]
  by_cases hesc : sfpEsc = octet
  · rw [if_pos hesc, decide_eq_true hesc]
    rfl
  · rw [if_neg hesc, decide_eq_false hesc]
    cases hstate : m.ctx.rx.frameState with
    | new =>
      simp only [hstate]
      rfl
    | receiving =>
      -- the octet is stored, or the receiver is reset
      simp only [hstate, sfpBufferOctet]
      split <;> rfl

/-- What is collected after an octet. -/
theorem content_sfpDeliverOctet {m : Machine} (hm : m.ctx.Between) {octet : UInt8}
    (hflag : octet ≠ sfpFlag) :
    (sfpDeliverOctet octet none m).1.ctx.content
      = if sfpEsc = octet then m.ctx.content
        else pushContent m.ctx.content
          (if m.ctx.rx.isEscaping then octet ^^^ sfpEscFlipBit else octet) := by
  obtain ⟨content, -, hholds, hunstuff⟩ := sfpDeliverOctet_spec hm.holds hflag []
  rw [hholds.content_eq]
  rw [Lib.Stuffing.unstuff_nil, List.foldl_nil] at hunstuff
  rw [← hunstuff]
  -- an escape is kept back, another octet is collected
  by_cases hesc : sfpEsc = octet
  · subst hesc
    rw [if_pos rfl, ← sfpStuffing_esc, Lib.Stuffing.unstuff_esc]
    rfl
  · have hne : octet ≠ sfpStuffing.esc := fun h => hesc h.symm
    rw [if_neg hesc, Lib.Stuffing.unstuff_cons _ hne]
    rfl

/-- Between frames a device has heard nothing. -/
theorem SFPreceiver.Fresh.listens {c : SFPcontext} (h : c.rx.Fresh) :
    c.content = [] ∧ c.rx.isEscaping = false :=
  ⟨h.holds.content_eq, by rw [SFPreceiver.isEscaping, h.escapeState]; rfl⟩

/-- **The receiver of the device is the receiver of the context.** -/
theorem listen_device {m : Machine} (hm : m.ctx.Between) (c : Call) :
    m.ctx.device.listen sfpConfigMaxPacketSize c.command
      = ((m.call c).ctx.content, (m.call c).ctx.rx.isEscaping) := by
  have hfresh : ∀ {c : SFPcontext}, c.rx.Fresh → ([], false) = (c.content, c.rx.isEscaping) :=
    fun h => by rw [h.listens.1, h.listens.2]
  cases c with
  | connect => exact hfresh (fresh_sfpConnect hm.idle)
  | write stack packet le =>
    have hrx : (m.call (.write stack packet le)).ctx.rx = m.ctx.rx :=
      rx_sfpWritePacket hm.idle stack packet le
    rw [SFPcontext.content, hrx]
    rfl
  | deliver octet buf =>
    rw [call_deliver]
    show (if sfpFlag = octet then _ else _) = _
    by_cases hflag : sfpFlag = octet
    · subst hflag
      rw [if_pos rfl]
      exact hfresh (sfpDeliverOctet_flag hm.idle hm.holds).2
    · -- inside a frame
      have hne : octet ≠ sfpFlag := fun h => hflag h.symm
      rw [if_neg hflag, content_sfpDeliverOctet hm hne, isEscaping_sfpDeliverOctet hne]
      by_cases hesc : sfpEsc = octet
      · rw [if_pos hesc, if_pos hesc, decide_eq_true hesc]
        rfl
      · rw [if_neg hesc, if_neg hesc, decide_eq_false hesc]
        rfl
  | isConnected => rfl

/-! ## What is handed back -/

/-- `sfpWritePacket` returns the length of the frame on the wire. -/
theorem length_sfpWritePacket (stack : Vector UInt8 sfpConfigMaxPacketSize) (buf : List UInt8)
    (h : buf.length ≤ sfpConfigMaxPacketSize) (m : Machine) :
    (sfpWritePacket stack buf h m).2
      = (Frame.octets (.usr m.ctx.abs.txSeq buf)).length := by
  have hseq : UInt8.ofNat m.ctx.tx.seq.toNat = m.ctx.tx.seq := UInt8.ofNat_toNat
  simp [sfpWritePacket, sfpTransmitUSR, sfpTransmitFrameImpl, sfpTransmitFrameWithHeader_eq,
    packetOctets, Frame.octets, Frame.header, Frame.payload, SFPcontext.abs, hseq]

/-- The packets that the endpoint takes from the frame in the receiver. -/
theorem got_dispatch (c : SFPcontext) :
    (c.abs.receive (decodeFrame c.rx.header c.rx.packet.octets)).got
      = if c.Accepts then [c.rx.packet.octets] else [] := by
  have hseq : (getFrameSeq c.rx.header).toNat = c.abs.rxSeq ↔ getFrameSeq c.rx.header = c.rx.seq :=
    UInt8.toNat_inj
  -- a packet is accepted by the same conditions
  have huser : ∀ fresh, (getFrameType c.rx.header = .usr ∨ getFrameType c.rx.header = .rtx) →
      (c.abs.receiveUser fresh (getFrameSeq c.rx.header).toNat c.rx.packet.octets).got
        = if c.Accepts then [c.rx.packet.octets] else [] := by
    intro fresh htype
    rw [Endpoint.got_receiveUser]
    refine if_congr ?_ rfl rfl
    exact ⟨fun h => ⟨h.1, htype, hseq.mp h.2⟩, fun h => ⟨h.1, hseq.mpr h.2.2⟩⟩
  have hother : ∀ {f : Frame (List UInt8)}, f.isUser = false →
      ¬ (getFrameType c.rx.header = .usr ∨ getFrameType c.rx.header = .rtx) →
      (c.abs.receive f).got = if c.Accepts then [c.rx.packet.octets] else [] := by
    intro f hf htype
    rw [Endpoint.got_receive_of_not_user _ hf, if_neg fun h => htype h.2.1]
  unfold decodeFrame
  cases htype : getFrameType c.rx.header with
  | usr => exact huser true (.inl htype)
  | rtx => exact huser false (.inr htype)
  | nak => exact hother rfl (by simp [htype])
  | syn => exact hother rfl (by simp [htype])

/-- The packets that the endpoint takes at the end of a frame. -/
theorem got_verdict {m : Machine} (hm : m.ctx.Between) (hne : m.ctx.content ≠ []) :
    (m.ctx.abs.receive (verdict m.ctx.content).toFrame).got
      = if m.ctx.Good ∧ m.ctx.rewound.Accepts then [m.ctx.rewound.rx.packet.octets] else [] := by
  obtain ⟨header, rest, hcontent⟩ := List.exists_cons_of_ne_nil hne
  have hholds := hm.holds
  rw [hcontent] at hholds ⊢
  have hlen : m.ctx.rx.packet.len = rest.length := by simp [hholds.len]
  have hcrc : m.ctx.rx.crc = crcOf sfpCrcPreset (header :: rest) := hholds.crc
  -- a frame that is refused is none
  have hbad : ∀ v : Verdict, v.toFrame = .bad → ¬ m.ctx.Good →
      (m.ctx.abs.receive v.toFrame).got
        = if m.ctx.Good ∧ m.ctx.rewound.Accepts then [m.ctx.rewound.rx.packet.octets] else [] := by
    intro v hv hgood
    rw [hv, if_neg fun h => hgood h.1]
    rfl
  -- in the order of the checks of `sfpHandleFrame`
  by_cases hshort : rest.length < sfpCrcSize
  · rw [verdict_short hshort]
    exact hbad .short rfl fun h => Nat.not_le_of_lt hshort (hlen ▸ h.1)
  · by_cases hgood : crcOf sfpCrcPreset (header :: rest) = sfpCrcGood
    · -- both checks are passed; the CRC is cut off the packet
      have hframe : m.ctx.Good := ⟨hlen ▸ Nat.le_of_not_lt hshort, hcrc.trans hgood⟩
      have hheader : m.ctx.rewound.rx.header = header := hholds.header header rfl
      have hpacket : m.ctx.rewound.rx.packet.octets = rest.take (rest.length - sfpCrcSize) := by
        have hoctets : m.ctx.rx.packet.octets = rest := hholds.packet
        rw [← hlen, ← hoctets]
        simp only [SFPcontext.rewound, rewindCrc, Machine.of, SFPpacket.octets, List.take_take]
        rw [Nat.min_eq_left (Nat.sub_le _ _)]
      have hgot := got_dispatch m.ctx.rewound
      rw [hheader, hpacket] at hgot
      rw [verdict_frame hshort hgood, hpacket]
      simp only [hframe, true_and]
      exact hgot
    · rw [verdict_mismatch hshort hgood]
      exact hbad .mismatch rfl fun h => hgood (hcrc.symm.trans h.2)

/-- **What `sfpDeliverOctet` hands back**, with or without a buffer. -/
theorem snd_sfpDeliverOctet {m : Machine} (hm : m.ctx.Between) (octet : UInt8)
    (buf : Option Nat) :
    (sfpDeliverOctet octet buf m).2 = Device.handBack buf (m.ctx.abs.receive
      (if sfpFlag = octet then (verdict m.ctx.content).toFrame else .silent)).got := by
  by_cases hflag : sfpFlag = octet
  · have hstate := hm.holds.frameState
    rw [sfpDeliverOctet, if_pos hflag, if_pos hflag, hstate]
    -- a `FLAG` behind another one closes nothing
    by_cases hnil : m.ctx.content = []
    · simp only [hnil, if_true]
      rfl
    · obtain ⟨-, hret, hpacket⟩ := sfpHandleFrame_notes hm.idle.ready
      rw [got_verdict hm hnil]
      simp only [hnil, if_false]
      by_cases haccept : m.ctx.Good ∧ m.ctx.rewound.Accepts
      · have hone : (1 : Int) ≠ 0 := by decide
        have hlen := SFPpacket.length_octets m.ctx.rewound.rx.packet
        simp only [hret, if_pos haccept, if_pos hone, Device.handBack, hlen]
        cases buf with
        | none => rfl
        | some len =>
          simp only [sfpCopyOutPacket, hpacket haccept.1 haccept.2]
          split <;> rfl
      · simp only [hret, if_neg haccept, Device.handBack]
        cases buf <;> rfl
  · -- an octet inside a frame hands back nothing
    have hcloses : ¬ m.ctx.Closes octet := fun h => hflag h.1
    obtain ⟨-, -, -, -, hresult⟩ := sfpDeliverOctet_tacit buf hcloses
    rw [if_neg hflag, hresult]
    rfl

/-- and answers a call alike. -/
theorem answer_device {m : Machine} (hm : m.ctx.Between) (c : Call) :
    (c.perform m).2 = m.ctx.device.answer sfpConfigHistoryCapacity c.command := by
  cases c with
  | connect => rfl
  | write stack packet le =>
    have hlen := length_sfpWritePacket stack packet le m
    show Answer.written (sfpWritePacket stack packet le m).2 = _
    rw [hlen]
    simp [Device.answer, Device.reaction, Device.input, Endpoint.react, Endpoint.write,
      Call.command, SFPcontext.device]
  | deliver octet buf =>
    have hback := snd_sfpDeliverOctet hm octet buf
    show Answer.received (sfpDeliverOctet octet buf m).2 = _
    rw [hback]
    rfl
  | isConnected => rfl

/-! ## Simulation -/

/-- **A context cannot be told apart from its device.** -/
theorem simulates_device : Mealy.Simulates sfpMachine
    (device sfpConfigHistoryCapacity sfpConfigMaxPacketSize) Call.command
    fun m d => m.ctx.Between ∧ m.ctx.device = d where
  next := by
    rintro m _ c ⟨hm, rfl⟩
    have hserves := serves_call hm c
    refine ⟨hserves.between, ?_⟩
    show SFPcontext.device (m.call c).ctx = _
    simp only [device]
    rw [reaction_device, listen_device hm, ← hserves.abs]
    simp only [SFPcontext.device, hserves.deliver]
  output := by
    rintro m _ c ⟨hm, rfl⟩
    have hserves := serves_call hm c
    simp only [sfpMachine, device]
    rw [reaction_device, ← answer_device hm, hserves.wire, hserves.delivered, List.drop_left,
      List.drop_left]
    rfl

/-! ## Nothing of the memory -/

end Contexts

namespace Endpoint

variable {α : Type*} {e e' : Endpoint α}

/-- Endpoints that differ at most in a history that is never sent: a disconnected endpoint forgets
it before it is connected. -/
structure Alike (e e' : Endpoint α) : Prop where
  connectState : e.connectState = e'.connectState
  txSeq : e.txSeq = e'.txSeq
  rxSeq : e.rxSeq = e'.rxSeq
  history : e.connectState ≠ .disconnected → e.history = e'.history

/-- Only a disconnected endpoint hides its history. -/
theorem Alike.eq_of_open (h : Alike e e') (hs : e.connectState ≠ .disconnected) : e = e' := by
  have hhist := h.history hs
  obtain ⟨s, t, r, hist⟩ := e
  obtain ⟨s', t', r', hist'⟩ := e'
  obtain ⟨rfl, rfl, rfl, -⟩ := h
  exact congrArg (Endpoint.mk s t r) hhist

theorem Alike.refl (e : Endpoint α) : Alike e e := ⟨rfl, rfl, rfl, fun _ => rfl⟩

/-- `sfpInit` hides it. -/
theorem alike_init (history history' : List α) : Alike (.init history) (.init history') :=
  ⟨rfl, rfl, rfl, fun h => absurd rfl h⟩

/-- The two reactions send the same and hand on the same. -/
structure AlikeReactions (r r' : Reaction α) : Prop where
  endpoint : Alike r.endpoint r'.endpoint
  sent : r.sent = r'.sent
  got : r.got = r'.got

/-- A disconnected endpoint reacts without its history. -/
theorem alike_receive (h : Alike e e') (f : Frame α) :
    AlikeReactions (e.receive f) (e'.receive f) := by
  -- open endpoints are equal
  by_cases hs : e.connectState = .disconnected
  · have hs' : e'.connectState = .disconnected := h.connectState.symm.trans hs
    obtain ⟨s, t, r, hist⟩ := e
    obtain ⟨s', t', r', hist'⟩ := e'
    obtain ⟨rfl, rfl, rfl, -⟩ := h
    subst hs
    have halike : Alike (⟨.disconnected, t, r, hist⟩ : Endpoint α) ⟨.disconnected, t, r, hist'⟩ :=
      ⟨rfl, rfl, rfl, fun hne => absurd rfl hne⟩
    cases f with
    | syn seq =>
      -- `SYN0` clears the history, the other frames are ignored
      cases seq using Frame.syn_cases with
      | syn0 => exact ⟨.refl _, rfl, rfl⟩
      | _ => exact ⟨halike, rfl, rfl⟩
    | _ => exact ⟨halike, rfl, rfl⟩
  · rw [h.eq_of_open hs]
    exact ⟨.refl _, rfl, rfl⟩

/-- What is hidden has no part in a reaction. -/
theorem alike_react (capacity : Nat) (h : Alike e e') (i : Input α) :
    AlikeReactions (e.react capacity i) (e'.react capacity i) := by
  cases i with
  | connect =>
    refine ⟨⟨rfl, rfl, rfl, fun _ => rfl⟩, rfl, rfl⟩
  | write packet =>
    refine ⟨⟨h.connectState, ?_, h.rxSeq, ?_⟩, ?_, rfl⟩
    · show (e.txSeq + 1) % seqRange = (e'.txSeq + 1) % seqRange
      rw [h.txSeq]
    · intro hs
      rw [h.eq_of_open hs]
    · show [Frame.usr e.txSeq packet] = [.usr e'.txSeq packet]
      rw [h.txSeq]
  | frame f => exact alike_receive h f

end Endpoint

/-- Devices that differ at most in a history that is never sent. -/
def Device.Alike (d d' : Device) : Prop :=
  ∃ e, d.endpoint.Alike e ∧ d' = { d with endpoint := e }

/-- So it can never be observed. -/
theorem simulates_alike (capacity size : Nat) :
    Mealy.Simulates (device capacity size) (device capacity size) id Device.Alike where
  next := by
    rintro d _ c ⟨e, he, rfl⟩
    exact ⟨_, (Endpoint.alike_react capacity he (d.input c)).endpoint, rfl⟩
  output := by
    rintro d _ c ⟨e, he, rfl⟩
    obtain ⟨-, hsent, hgot⟩ := Endpoint.alike_react capacity he (d.input c)
    have hsent' : (d.reaction capacity c).sent
        = (({ d with endpoint := e } : Device).reaction capacity c).sent := hsent
    have hgot' : (d.reaction capacity c).got
        = (({ d with endpoint := e } : Device).reaction capacity c).got := hgot
    have hanswer : d.answer capacity c
        = ({ d with endpoint := e } : Device).answer capacity c := by
      cases c with
      | connect => rfl
      | write packet => simp only [Device.answer, hsent']
      | deliver octet buf => simp only [Device.answer, hgot']
      | isConnected => simp only [Device.answer, he.connectState]
    simp only [device, id_eq, hsent', hgot', hanswer]

section Contexts

variable [SfpConfig]

/-- **A context is its device.** Whatever memory it was initialized in and whatever callbacks are
set, over any sequence of calls with any octets a context writes, delivers and hands back what the
device does that starts from nothing. -/
theorem outputs_device (cb : Callbacks) (memory : SFPcontext) (cs : List Call) :
    sfpMachine.outputs (.of (memory.initWith cb)) cs
      = (device sfpConfigHistoryCapacity sfpConfigMaxPacketSize).outputs (.start cb.deliver)
          (cs.map Call.command) := by
  have hfresh : (memory.initWith cb).device
      = ⟨(memory.initWith cb).abs, [], false, cb.deliver⟩ := rfl
  have hstart : ∃ d, ((memory.initWith cb).Between ∧ (memory.initWith cb).device = d) ∧
      d.Alike (.start cb.deliver) := by
    refine ⟨_, ⟨memory.between_initWith cb, rfl⟩, .init [], ?_, ?_⟩
    · rw [hfresh, memory.abs_initWith cb]
      exact Endpoint.alike_init _ _
    · rw [hfresh]
      rfl
  have hcomp := simulates_device.comp
    (simulates_alike sfpConfigHistoryCapacity sfpConfigMaxPacketSize)
  exact hcomp.outputs_eq hstart cs

end Contexts

/-- **The size of the write buffer cannot be seen.** Two builds of the library that agree on the
history capacity and on the packet size answer the same calls alike, whatever their write buffers
and whatever was in memory. -/
theorem outputs_of_configs (c c' : SfpConfig)
    (hcapacity : @sfpConfigHistoryCapacity c = @sfpConfigHistoryCapacity c')
    (hsize : @sfpConfigMaxPacketSize c = @sfpConfigMaxPacketSize c') (cb : Callbacks)
    (memory : @SFPcontext c) (memory' : @SFPcontext c') (cs : List (@Call c))
    (cs' : List (@Call c')) (hcs : cs.map (@Call.command c) = cs'.map (@Call.command c')) :
    (@sfpMachine c).outputs (@Machine.of c (@SFPcontext.initWith c cb memory)) cs
      = (@sfpMachine c').outputs (@Machine.of c' (@SFPcontext.initWith c' cb memory')) cs' := by
  rw [@outputs_device c, @outputs_device c', hcapacity, hsize, hcs]

/-- The header's values, without a write buffer worth the name. -/
@[reducible] def oneOctetBuffer : SfpConfig := { headerDefaults with
  writebufSize := 1
  writebufSize_pos := Nat.one_pos }

/-- A context that connects, writes and hears the first octets of an answer. -/
def shortCalls [SfpConfig] : List Call :=
  [.connect, .write (.replicate _ 0) [] SFPpacket.zero_le_maxPacketSize, .deliver sfpFlag none,
    .deliver 0xc1 none, .isConnected]

/-- The defaults and a build that writes every octet by itself. -/
theorem outputs_of_configs_oneOctetBuffer :
    (@sfpMachine headerDefaults).outputs
        (@Machine.of headerDefaults (@SFPcontext.initWith headerDefaults ⟨true, true, true⟩
          (@SFPcontext.zero headerDefaults))) (@shortCalls headerDefaults)
      = (@sfpMachine oneOctetBuffer).outputs
        (@Machine.of oneOctetBuffer (@SFPcontext.initWith oneOctetBuffer ⟨true, true, true⟩
          (@SFPcontext.zero oneOctetBuffer))) (@shortCalls oneOctetBuffer) :=
  outputs_of_configs headerDefaults oneOctetBuffer rfl rfl ⟨true, true, true⟩
    (@SFPcontext.zero headerDefaults) (@SFPcontext.zero oneOctetBuffer)
    (@shortCalls headerDefaults) (@shortCalls oneOctetBuffer) rfl

end Libsfp
