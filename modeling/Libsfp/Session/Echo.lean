import Libsfp.Api.Replies
import Libsfp.Session.Streaming

/-!
# An Echo

Two contexts on an octet line whose deliver callbacks write. The callback of a side runs in the
middle of `sfpDeliverOctet`, but the line cannot tell: it could as well have been the user who
writes next (`alike_turns`). So what holds of two users who write whenever they like holds of
callbacks that reply.

With a loopback on one side, `messageReceived` connected to `sendMessage`, the other side gets back
what it wrote, in order (`echo_returns`).
-/

namespace Libsfp

open Lib (Side Outcome Party Parcel Link Action Meets run)

section Contexts

variable [SfpConfig]

/-! ## Turns -/

/-- A packet that a callback writes, with room for the CRC in the peer's buffer. -/
abbrev Letter := { w : Writing // w.packet.length + sfpCrcSize ≤ sfpConfigMaxPacketSize }

def Letter.packet (w : Letter) : List UInt8 := w.1.packet

def Letter.toRequest (w : Letter) : Request := .write w.1.stack w.1.packet w.2

/-- What happens on a line: what happens where no callback writes, or an octet arrives and, should
it complete a packet, the deliver callback writes what `reply` says. -/
inductive Turn where
  | act (a : Action Request UInt8)
  | answer (x : Side) (reply : List UInt8 → List Letter)

/-- What the callback writes when an octet arrives. -/
def lettersOf (reply : List UInt8 → List Letter) (c : SFPcontext) (octet : UInt8) : List Letter :=
  if c.Delivers octet ∧ c.rx.deliver = true then reply c.rewound.rx.packet.octets else []

/-- The callback as a program sets it. -/
def replyOf (reply : List UInt8 → List Letter) : Reply :=
  fun _ packet => (reply packet).map Subtype.val

/-- An octet arrives at a context whose callback writes. -/
def answerOutcome (reply : List UInt8 → List Letter) (c : SFPcontext) (octet : UInt8) :
    Outcome SFPcontext UInt8 (List UInt8) :=
  ((Machine.of c).callWith (replyOf reply) (.deliver octet none)).octetOutcome

def takeTurn (l : OctetLine) : Turn → OctetLine
  | .act a => l.step octetParty a
  | .answer x reply =>
    match l.chan x with
    | [] => l
    | p :: ps =>
      (l.setChan x ps).act octetParty.carries x (answerOutcome reply (l.node x) p.message)
        ((lettersOf reply (l.node x) p.message).map Letter.packet) p.pos

/-- The same, with the replies behind the octet. -/
def actionsOf (l : OctetLine) : Turn → List (Action Request UInt8)
  | .act a => [a]
  | .answer x reply => .deliver x ::
    match l.chan x with
    | [] => []
    | p :: _ => (lettersOf reply (l.node x) p.message).map fun w => .request x w.toRequest

/-- A run of turns, with all replies behind their octets. -/
def actionsOfRun (l : OctetLine) : List Turn → List (Action Request UInt8)
  | [] => []
  | t :: ts => actionsOf l t ++ actionsOfRun (takeTurn l t) ts

/-! ## Replies behind -/

theorem Machine.octetOutcome_of_adds {m m' n : Machine} (h : Adds m m' n) :
    m'.octetOutcome = m.octetOutcome.andThen n.octetOutcome := by
  rw [Machine.octetOutcome, h.ctx, h.wire, h.delivered]
  rfl

theorem SameCourse.octetOutcome {m m' : Machine} (h : SameCourse m m') :
    m.octetOutcome = m'.octetOutcome := by
  rw [Machine.octetOutcome, Machine.octetOutcome, h.ctx, h.wire, h.delivered]

/-- What a callback writes, written by the user of the side. -/
theorem alike_requests (x : Side) (ws : List Letter) (l : OctetLine) (pos : Nat) :
    (run (Link.step octetParty) l (ws.map fun w => .request x w.toRequest)).Alike
      (l.act octetParty.carries x
        ((ws.map Subtype.val).foldl Writing.perform (.of (l.node x))).octetOutcome
        (ws.map Letter.packet) pos) := by
  induction ws generalizing l with
  | nil => exact (Link.alike_act_nil _ l x pos).symm
  | cons w ws ih =>
    have hfirst : l.step octetParty (.request x w.toRequest)
        = l.act octetParty.carries x (Writing.perform (.of (l.node x)) w.1).octetOutcome
          [w.packet] 0 := rfl
    have hnode : (l.step octetParty (.request x w.toRequest)).node x
        = (Writing.perform (.of (l.node x)) w.1).ctx := by
      rw [hfirst, Link.node_act]
      rfl
    -- what follows the first reply is added to it, whatever it was
    have hadds := (deaf_foldl deaf_perform (ws.map Subtype.val)).adds
      (Writing.perform (.of (l.node x)) w.1)
    rw [List.map_cons, List.map_cons, List.foldl_cons, Machine.octetOutcome_of_adds hadds,
      List.map_cons, Lib.run_cons]
    refine (ih _).trans ?_
    rw [hnode, hfirst]
    refine (Link.alike_act_act _ l x _ _ _ _ 0 pos).trans ?_
    exact (Link.Alike.refl l).act ..

/-- An octet arrives and the callback replies, or the user writes the same right after. -/
theorem answerOutcome_eq (reply : List UInt8 → List Letter) (c : SFPcontext) (octet : UInt8) :
    answerOutcome reply c octet = (octetParty.hear c octet).andThen
      (((lettersOf reply c octet).map Subtype.val).foldl Writing.perform
        (.of (octetParty.hear c octet).node)).octetOutcome := by
  have hreplies : (Machine.of c).replies (replyOf reply) (.deliver octet none)
      = (lettersOf reply c octet).map Subtype.val := by
    have hpacket : (Machine.of c).atCallback.ctx.rx.packet = c.rewound.rx.packet :=
      packet_atCallback (.of c)
    by_cases h : c.Delivers octet ∧ c.rx.deliver = true
    · rw [Machine.replies, Machine.ctx_of, if_pos h, lettersOf, if_pos h, hpacket]
      rfl
    · rw [Machine.replies, Machine.ctx_of, if_neg h, lettersOf, if_neg h]
      rfl
  -- to reply in the callback is to reply behind it
  have hsame := sameCourse_callWith (replyOf reply) (.of c) (.deliver octet none)
  rw [hreplies, run_writings] at hsame
  have hadds := (deaf_foldl deaf_perform ((lettersOf reply c octet).map Subtype.val)).adds
    ((Machine.of c).call (.deliver octet none))
  rw [answerOutcome, hsame.octetOutcome, Machine.octetOutcome_of_adds hadds]
  rfl

/-- A reply in the callback or right behind the octet. -/
theorem alike_turn (l : OctetLine) (t : Turn) :
    (takeTurn l t).Alike (run (Link.step octetParty) l (actionsOf l t)) := by
  cases t with
  | act a => exact .refl _
  | answer x reply =>
    cases hchan : l.chan x with
    | nil =>
      simp only [takeTurn, actionsOf, hchan, Lib.run_cons, Link.step_deliver_nil octetParty hchan]
      exact .refl l
    | cons p ps =>
      simp only [takeTurn, actionsOf, hchan, Lib.run_cons, Link.step_deliver_cons octetParty hchan]
      refine .trans ?_ (alike_requests x _ _ p.pos).symm
      rw [Link.node_act, answerOutcome_eq]
      exact (Link.alike_act_act _ _ x _ _ [] _ p.pos p.pos).symm

/-- **Callbacks that reply**: the line is the one on which every reply follows its octet. -/
theorem alike_turns (l : OctetLine) (ts : List Turn) :
    (run takeTurn l ts).Alike (run (Link.step octetParty) l (actionsOfRun l ts)) := by
  induction ts generalizing l with
  | nil => exact .refl l
  | cons t ts ih =>
    rw [Lib.run_cons, actionsOfRun, Lib.run_append]
    exact (ih _).trans ((alike_turn l t).run octetParty _)

/-! ## A loopback -/

/-- One side sends back every packet it is given, and its user is silent; the other one writes what
it likes, in its callback or not. -/
def Echoing : Turn → Prop
  | .act (.request .left (.write _ _ _)) => True
  | .act (.deliver .left) => True
  | .answer .left _ => True
  | .answer .right reply => ∀ packet : List UInt8,
      packet.length + sfpCrcSize ≤ sfpConfigMaxPacketSize →
        (reply packet).map Letter.packet = [packet]
  | _ => False

/-- Turns of a loopback are steps of a stream, -/
theorem streamingOctets_actionsOf {t : Turn} (ht : Echoing t) (l : OctetLine) :
    ∀ a ∈ actionsOf l t, StreamingOctets a := by
  have hanswer : ∀ (x : Side) (ws : List Letter), ∀ a ∈ ws.map fun w =>
      (Action.request x w.toRequest : Action Request UInt8), StreamingOctets a := by
    intro x ws a ha
    obtain ⟨w, -, rfl⟩ := List.mem_map.mp ha
    trivial
  cases t with
  | act a =>
    intro b hb
    rw [List.mem_singleton.mp hb]
    match a, ht with
    | .request .left (.write _ _ _), _ => trivial
    | .deliver .left, _ => trivial
  | answer x reply =>
    intro a ha
    rcases List.mem_cons.mp ha with rfl | ha
    · trivial
    · cases hchan : l.chan x with
      | nil =>
        rw [hchan] at ha
        cases ha
      | cons p ps =>
        rw [hchan] at ha
        exact hanswer x _ a ha

/-- and so are their runs. -/
theorem streamingOctets_actionsOfRun {ts : List Turn} (hts : ∀ t ∈ ts, Echoing t)
    (l : OctetLine) : ∀ a ∈ actionsOfRun l ts, StreamingOctets a := by
  induction ts generalizing l with
  | nil => simp [actionsOfRun]
  | cons t ts ih =>
    intro a ha
    rcases List.mem_append.mp ha with ha | ha
    · exact streamingOctets_actionsOf (hts t (by simp)) l a ha
    · exact ih (fun u hu => hts u (by simp [hu])) _ a ha

/-- What a callback is given leaves room for the CRC in its own buffer. -/
theorem length_rewound {c : SFPcontext} (hgood : c.Good) :
    c.rewound.rx.packet.octets.length + sfpCrcSize ≤ sfpConfigMaxPacketSize := by
  have hlen : c.rewound.rx.packet.len = c.rx.packet.len - sfpCrcSize := rfl
  have hroom := c.rx.packet.len_le
  have hcrc := hgood.1
  rw [SFPpacket.length_octets, hlen]
  omega

/-- What a callback is given when an octet arrives. -/
theorem got_hear {c : SFPcontext} (hc : c.OnWire) (octet : UInt8) :
    (octetParty.hear c octet).got
      = if c.Delivers octet then [c.rewound.rx.packet.octets] else [] :=
  delivered_deliver (m := .of c) hc.between.idle.ready hc.deliver octet none

/-- Nothing is given to a user who writes. -/
theorem delivered_foldl_perform {m : Machine} (hm : m.ctx.Between) (ws : List Writing) :
    (ws.foldl Writing.perform m).delivered = m.delivered := by
  induction ws generalizing m with
  | nil => rfl
  | cons w ws ih =>
    have hserves := serves_call hm w.call
    have hdelivered : (Writing.perform m w).delivered = m.delivered := by
      refine hserves.delivered.trans ?_
      simp [Writing.call, Call.input, Endpoint.react, Endpoint.write]
    exact (ih hserves.between).trans hdelivered

/-- **A packet is given to the callback, and sent back.** -/
theorem got_answerOutcome {c : SFPcontext} (hc : c.OnWire) {reply : List UInt8 → List Letter}
    (hreply : Echoing (.answer .right reply)) (octet : UInt8) :
    (answerOutcome reply c octet).got = (lettersOf reply c octet).map Letter.packet := by
  have hbetween : (octetParty.hear c octet).node.Between := (sounds_hear hc octet).onWire.between
  -- the replies themselves give nothing
  have hsilent : (((lettersOf reply c octet).map Subtype.val).foldl Writing.perform
      (.of (octetParty.hear c octet).node)).delivered = [] :=
    delivered_foldl_perform (m := .of _) hbetween _
  rw [answerOutcome_eq]
  show (octetParty.hear c octet).got ++ Machine.delivered _ = _
  rw [hsilent, List.append_nil, got_hear hc]
  -- a packet, or nothing to send back
  by_cases h : c.Delivers octet
  · rw [if_pos h, lettersOf, if_pos ⟨h, hc.deliver⟩, hreply _ (length_rewound h.2.1)]
  · rw [if_neg h, lettersOf, if_neg fun hboth => h hboth.1]
    rfl

/-- The side with the loopback wrote what it was given. -/
theorem echoed_turn {l : OctetLine} (hl : ∀ y, (l.node y).OnWire) {t : Turn} (ht : Echoing t)
    (h : l.wrote .right = l.got .right) :
    (takeTurn l t).wrote .right = (takeTurn l t).got .right := by
  -- what the left side does is not seen here
  have hleft : ∀ (l' : OctetLine) (o : Outcome SFPcontext UInt8 (List UInt8)) ws pos,
      l'.wrote .right = l'.got .right →
        (l'.act octetParty.carries .left o ws pos).wrote .right
          = (l'.act octetParty.carries .left o ws pos).got .right :=
    fun _ _ _ _ h => h
  cases t with
  | act a =>
    match a, ht with
    | .request .left (.write _ _ _), _ => exact hleft _ _ _ _ h
    | .deliver .left, _ =>
      cases hchan : l.chan .left with
      | nil =>
        rw [takeTurn, Link.step_deliver_nil octetParty hchan]
        exact h
      | cons p ps =>
        rw [takeTurn, Link.step_deliver_cons octetParty hchan]
        exact hleft _ _ _ _ h
  | answer x reply =>
    cases hchan : l.chan x with
    | nil => simpa only [takeTurn, hchan] using h
    | cons p ps =>
      simp only [takeTurn, hchan]
      cases x with
      | left => exact hleft _ _ _ _ h
      | right =>
        rw [Link.wrote_act, Link.got_act, got_answerOutcome (hl .right) ht]
        exact congrArg (· ++ _) h

/-- A turn keeps the contexts in order. -/
theorem onWire_turn {l : OctetLine} (hl : ∀ y, (l.node y).OnWire) (t : Turn) :
    ∀ y, ((takeTurn l t).node y).OnWire := by
  rw [(alike_turn l t).node]
  exact onWire_run hl _

/-- The loopback stays even with what it was given. -/
theorem echoed_run {l : OctetLine} (hl : ∀ y, (l.node y).OnWire) {ts : List Turn}
    (hts : ∀ t ∈ ts, Echoing t) (h : l.wrote .right = l.got .right) :
    (run takeTurn l ts).wrote .right = (run takeTurn l ts).got .right := by
  induction ts generalizing l with
  | nil => exact h
  | cons t ts ih =>
    exact ih (onWire_turn hl t) (fun u hu => hts u (by simp [hu]))
      (echoed_turn hl (hts t (by simp)) h)

/-- **The echo.** Two contexts are connected, each expects the label that the other one sends next,
and nothing is in flight; the deliver callback of the right side writes back every packet that it is
given, in the middle of the call that delivers it, and its user writes nothing else. However the
packets of the left side, those of its callback among them, interleave with the octets of both
directions, what the left side is given is what it wrote, from the start on, and when nothing is in
flight it was given everything back. -/
theorem echo_returns {node : Side → SFPcontext} (hnode : ∀ x, (node x).OnWire)
    (hfresh : ∀ x, (node x).ear = .fresh) (hstate : ∀ x, (node x).connectState = .connected)
    (hseq : ∀ x, (node x).tx.seq = (node x.peer).rx.seq) {ts : List Turn}
    (hts : ∀ t ∈ ts, Echoing t) :
    let l := run takeTurn (Link.start node) ts
    l.got .left <+: l.wrote .left ∧
      ((∀ x, l.chan x = []) → l.got .right = l.wrote .left ∧ l.got .left = l.wrote .left) := by
  intro l
  have halike := alike_turns (Link.start node) ts
  have hstreams := streamsOn_run (streamsOn_start hnode hfresh hstate hseq)
    (streamingOctets_actionsOfRun hts (Link.start node))
  have hecho : l.wrote .right = l.got .right := echoed_run hnode hts rfl
  have hflight : ∀ x, ∃ ps, l.wrote x = l.got x.peer ++ ps ∧ (l.chan x.peer = [] → ps = []) := by
    intro x
    obtain ⟨ps, hwrote, hnone⟩ := hstreams.outstanding x
    rw [← halike.wrote, ← halike.got] at hwrote
    rw [← halike.messages] at hnone
    refine ⟨ps, hwrote, fun hquiet => hnone ?_⟩
    rw [Link.messages, hquiet]
    rfl
  obtain ⟨ps, hps, hpsNone⟩ := hflight .left
  obtain ⟨qs, hqs, hqsNone⟩ := hflight .right
  have hall : l.wrote .left = l.got .left ++ qs ++ ps := by
    rw [hps]
    exact congrArg (· ++ ps) (hecho.symm.trans hqs)
  constructor
  · -- what was not given back yet is on its way back, or there
    rw [hall, List.append_assoc]
    exact List.prefix_append _ _
  · intro hquiet
    have hnone : ps = [] := hpsNone (hquiet _)
    have hnone' : qs = [] := hqsNone (hquiet _)
    rw [hnone, List.append_nil] at hps
    rw [hnone, hnone', List.append_nil, List.append_nil] at hall
    exact ⟨hps.symm, hall.symm⟩

end Contexts

section HeaderDefaults

attribute [local instance] headerDefaults

/-- `messageReceived` connected to `sendMessage`. -/
def loopback (packet : List UInt8) : List Letter :=
  if h : packet.length + sfpCrcSize ≤ sfpConfigMaxPacketSize then
    [⟨⟨.replicate _ 0, packet, length_le_of_fits h⟩, h⟩]
  else []

/-- A packet there and back, octet by octet. -/
def echoRun : List Turn :=
  .act (.request .left (.write (.replicate _ 0) [5] (by decide))) ::
    (List.replicate 6 (.answer .right loopback) ++ List.replicate 6 (.act (.deliver .left)))

theorem echo_returns_one :
    let l := run takeTurn (Link.start fun _ => SFPcontext.zero.inSession) echoRun
    l.got .right = [[5]] ∧ l.got .left = [[5]] := by
  have hechoing : ∀ t ∈ echoRun, Echoing t := by
    intro t ht
    rcases List.mem_cons.mp ht with rfl | ht
    · trivial
    · rcases List.mem_append.mp ht with ht | ht
      · rw [List.eq_of_mem_replicate ht]
        intro packet hfits
        rw [loopback, dif_pos hfits]
        rfl
      · rw [List.eq_of_mem_replicate ht]
        trivial
  have hecho := echo_returns (fun _ => onWire_inSession) (fun _ => rfl) (fun _ => rfl)
    (fun _ => rfl) hechoing
  exact hecho.2 (by decide +kernel)

end HeaderDefaults

end Libsfp
