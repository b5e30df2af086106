import Libsfp.Api.Device
import Libsfp.Api.Output
import Libsfp.Session.Stabilization

/-!
# Two Contexts on an Octet Line

The line as it is: two FIFO channels of octets. Each side hears one octet at a time, and its user
may ask for something between any two octets of a frame that is still arriving.

A line of octets refines a line of frames. What is on its way to a side are the frames that its
receiver will notice in the octets in flight, beginning with what it has collected already
(`framesHeard`). An octet other than a `FLAG` changes nothing of that; a `FLAG` that closes
something delivers the frame in front; only `sfpConnect` in the middle of a frame spoils a frame,
for it resets the receiver.

`reconnect_octets` and `stream_octets` carry two results over: a handshake heals the session, and a
session without loss hands on everything.
-/

namespace Libsfp

open Lib (Side Outcome Party Parcel Link Action Meets run)

section Contexts

variable [SfpConfig]

/-! ## What a receiver notices -/

/-- What a receiver has collected, and whether an escape is pending. -/
abbrev Ear := List UInt8 × Bool

/-- Between frames. -/
def Ear.fresh : Ear := ([], false)

/-- The receiver after an octet. -/
def hearOctet (s : Ear) (octet : UInt8) : Ear :=
  if sfpFlag = octet then .fresh
  else if sfpEsc = octet then (s.1, true)
  else (pushContent s.1 (if s.2 then octet ^^^ sfpEscFlipBit else octet), false)

/-- The frames that a receiver notices in a string of octets, damaged ones included. -/
def framesHeard (s : Ear) : List UInt8 → List (Frame (List UInt8))
  | [] => []
  | octet :: octets =>
    (if sfpFlag = octet ∧ s.1 ≠ [] then [(verdict s.1).toFrame] else [])
      ++ framesHeard (hearOctet s octet) octets

theorem framesHeard_append (s : Ear) (os ps : List UInt8) :
    framesHeard s (os ++ ps) = framesHeard s os ++ framesHeard (run hearOctet s os) ps := by
  induction os generalizing s with
  | nil => rfl
  | cons o os ih =>
    rw [List.cons_append, framesHeard, framesHeard, ih, List.append_assoc, Lib.run_cons]

theorem framesHeard_flag (s : Ear) (octets : List UInt8) :
    framesHeard s (sfpFlag :: octets)
      = (if s.1 ≠ [] then [(verdict s.1).toFrame] else []) ++ framesHeard .fresh octets := by
  simp [framesHeard, hearOctet]

theorem framesHeard_cons_of_ne {octet : UInt8} (h : sfpFlag ≠ octet) (s : Ear)
    (octets : List UInt8) :
    framesHeard s (octet :: octets) = framesHeard (hearOctet s octet) octets := by
  rw [framesHeard, if_neg fun hboth => h hboth.1, List.nil_append]

/-- In the middle of a frame nothing is noticed, only collected. -/
theorem framesHeard_segment {segment : List UInt8} (hflag : sfpFlag ∉ segment) (s : Ear) :
    framesHeard s segment = [] ∧ (run hearOctet s segment).1
      = (sfpStuffing.unstuff s.2 segment).foldl pushContent s.1 := by
  induction segment generalizing s with
  | nil => exact ⟨rfl, rfl⟩
  | cons octet segment ih =>
    have hne : sfpFlag ≠ octet := fun h => hflag (by simp [h])
    obtain ⟨hnone, hcontent⟩ := ih (fun h => hflag (by simp [h])) (hearOctet s octet)
    rw [framesHeard_cons_of_ne hne, Lib.run_cons]
    refine ⟨hnone, hcontent.trans ?_⟩
    by_cases hesc : sfpEsc = octet
    · subst hesc
      have hunstuff := sfpStuffing.unstuff_esc s.2 segment
      rw [sfpStuffing_esc] at hunstuff
      simp [hearOctet, hunstuff, hne]
    · have hunstuff := sfpStuffing.unstuff_cons (a := octet) (fun h => hesc h.symm) s.2 segment
      rw [sfpStuffing_flip] at hunstuff
      simp [hearOctet, hunstuff, hne, hesc]

/-- **A frame that was sent is noticed**, and the receiver is between frames again. -/
theorem framesHeard_octets {f : Frame (List UInt8)} (hf : f.Sendable Fits) :
    framesHeard .fresh f.octets = [f] ∧ run hearOctet .fresh f.octets = .fresh := by
  have hsegment : sfpFlag ∉ f.segment := sfpStuffing.flag_notMem_stuff _
  obtain ⟨hnone, hcontent⟩ := framesHeard_segment hsegment .fresh
  have hverdict := toFrame_segment hf
  have hne : (run hearOctet .fresh f.segment).1 ≠ [] := by
    intro hnil
    -- nothing collected would be no frame
    have hresidual : residual (sfpStuffing.unstuff false f.segment) = [] := hcontent.symm.trans hnil
    rw [segmentVerdict, hresidual] at hverdict
    rw [← hverdict] at hf
    exact hf
  have hoctets : f.octets = sfpFlag :: (f.segment ++ [sfpFlag]) := rfl
  constructor
  · rw [hoctets, framesHeard_flag, framesHeard_append, hnone, framesHeard_flag, if_pos hne,
      hcontent]
    exact congrArg (fun g => [g]) hverdict
  · rw [hoctets, Lib.run_cons, Lib.run_append]
    simp [hearOctet]

/-- So are any frames in a row. -/
theorem framesHeard_flatMap_octets {fs : List (Frame (List UInt8))}
    (hfs : ∀ f ∈ fs, f.Sendable Fits) :
    framesHeard .fresh (fs.flatMap Frame.octets) = fs ∧
      run hearOctet .fresh (fs.flatMap Frame.octets) = .fresh := by
  induction fs with
  | nil => exact ⟨rfl, rfl⟩
  | cons f fs ih =>
    obtain ⟨hheard, hfresh⟩ := framesHeard_octets (hfs f (by simp))
    obtain ⟨hrest, hrestFresh⟩ := ih fun g hg => hfs g (by simp [hg])
    rw [List.flatMap_cons, framesHeard_append, Lib.run_append, hheard, hfresh, hrest]
    exact ⟨rfl, hrestFresh⟩

/-- The `FLAG` that opens a frame closes whatever is in front of it. -/
theorem framesHeard_append_octets (s : Ear) (os : List UInt8) {fs : List (Frame (List UInt8))}
    (hfs : ∀ f ∈ fs, f.Sendable Fits) :
    framesHeard s (os ++ fs.flatMap Frame.octets ++ [sfpFlag])
      = framesHeard s (os ++ [sfpFlag]) ++ fs := by
  have hfresh : run hearOctet s (os ++ [sfpFlag]) = .fresh := by
    rw [Lib.run_append]
    simp [hearOctet]
  cases fs with
  | nil => simp
  | cons f fs =>
    obtain ⟨hheard, hclosed⟩ := framesHeard_flatMap_octets hfs
    have hopen : (f :: fs).flatMap Frame.octets
        = sfpFlag :: (f.segment ++ [sfpFlag] ++ fs.flatMap Frame.octets) := rfl
    have hsplit : os ++ (f :: fs).flatMap Frame.octets ++ [sfpFlag] = (os ++ [sfpFlag])
        ++ (f.segment ++ [sfpFlag] ++ fs.flatMap Frame.octets ++ [sfpFlag]) := by
      rw [hopen]
      simp
    -- from a fresh receiver on, the opening `FLAG` may as well be there
    have hagain : framesHeard .fresh (f.segment ++ [sfpFlag] ++ fs.flatMap Frame.octets
        ++ [sfpFlag]) = framesHeard .fresh ((f :: fs).flatMap Frame.octets ++ [sfpFlag]) := by
      rw [hopen, List.cons_append, framesHeard_flag]
      rfl
    have hend : framesHeard .fresh ((f :: fs).flatMap Frame.octets ++ [sfpFlag]) = f :: fs := by
      rw [framesHeard_append, hheard, hclosed, framesHeard_flag]
      simp [framesHeard, Ear.fresh]
    rw [hsplit, framesHeard_append s (os ++ [sfpFlag]), hfresh, hagain, hend]

/-! ## The line -/

/-- A context between two calls, with a deliver callback and nothing in its history that the peer
could not receive. Its receiver may be in the middle of a frame. -/
structure SFPcontext.OnWire (c : SFPcontext) : Prop where
  between : c.Between
  deliver : c.rx.deliver = true
  keeps : c.abs.Keeps Fits

/-- The receiver of a context. -/
def SFPcontext.ear (c : SFPcontext) : Ear := (c.content, c.rx.isEscaping)

/-- A packet that fits the peer's buffer fits its own. -/
theorem length_le_of_fits {packet : List UInt8}
    (fits : packet.length + sfpCrcSize ≤ sfpConfigMaxPacketSize) :
    packet.length ≤ sfpConfigMaxPacketSize :=
  Nat.le_trans (Nat.le_add_right _ _) fits

def Request.call : Request → Call
  | .connect => .connect
  | .write stack packet fits => .write stack packet (length_le_of_fits fits)

def Request.toEndpoint : Request → EndpointRequest (List UInt8)
  | .connect => .connect
  | .write _ packet _ => .write packet

/-- What a context did, octet by octet. -/
def Machine.octetOutcome (m : Machine) : Outcome SFPcontext UInt8 (List UInt8) :=
  ⟨m.ctx, m.wire, m.delivered⟩

/-- A context as a party that sends and hears octets. -/
def octetParty : Party SFPcontext UInt8 Request (List UInt8) where
  request c r := ((Machine.of c).call r.call).octetOutcome
  hear c octet := ((Machine.of c).call (.deliver octet none)).octetOutcome
  written := Request.written
  carries _ := false

/-- Two contexts joined by two channels of octets. -/
abbrev OctetLine := Link SFPcontext UInt8 (List UInt8)

/-- `o` is what a context does where its endpoint reacts with `r`. -/
structure Sounds (o : Outcome SFPcontext UInt8 (List UInt8)) (r : Reaction (List UInt8)) :
    Prop where
  onWire : o.node.OnWire
  abs : o.node.abs = r.endpoint
  sent : o.sent = r.sent.flatMap Frame.octets
  sendable : ∀ f ∈ r.sent, f.Sendable Fits
  got : o.got = r.got

/-- **Every call does what the endpoint does.** -/
theorem sounds_call {c : SFPcontext} (hc : c.OnWire) (call : Call)
    (hcall : ∀ p ∈ call.packets, Fits p) :
    Sounds ((Machine.of c).call call).octetOutcome
      (c.abs.react sfpConfigHistoryCapacity (call.input c)) := by
  have hserves := serves_call (m := .of c) hc.between call
  obtain ⟨hkeeps, hsendable, -⟩ := react_speaks hc.between hc.keeps call hcall
  refine ⟨⟨hserves.between, hserves.deliver.trans hc.deliver, ?_⟩, hserves.abs, ?_, hsendable, ?_⟩
  · show (((Machine.of c).call call).ctx.abs).Keeps Fits
    rw [hserves.abs]
    exact hkeeps
  · exact hserves.wire
  · have hdelivered := hserves.delivered
    have hset : (Machine.of c).ctx.rx.deliver = true := hc.deliver
    rw [if_pos hset] at hdelivered
    exact hdelivered

/-- What a user may write the peer has room for. -/
theorem Request.fits_call (r : Request) : ∀ p ∈ r.call.packets, Fits p := by
  cases r with
  | connect => simp [Request.call, Call.packets]
  | write stack packet fits =>
    intro p hp
    rw [List.mem_singleton.mp hp]
    exact fits

theorem sounds_request {c : SFPcontext} (hc : c.OnWire) (r : Request) :
    Sounds (octetParty.request c r)
      (c.abs.react sfpConfigHistoryCapacity (r.call.input c)) :=
  sounds_call hc r.call r.fits_call

theorem sounds_hear {c : SFPcontext} (hc : c.OnWire) (octet : UInt8) :
    Sounds (octetParty.hear c octet)
      (c.abs.react sfpConfigHistoryCapacity ((Call.deliver octet none).input c)) :=
  sounds_call hc _ (by simp [Call.packets])

/-- The receiver after an octet, after a packet was written, after a new session was asked for. -/
theorem ear_hear {c : SFPcontext} (hc : c.OnWire) (octet : UInt8) :
    (octetParty.hear c octet).node.ear = hearOctet c.ear octet :=
  (listen_device (m := .of c) hc.between (.deliver octet none)).symm

theorem ear_write {c : SFPcontext} (hc : c.OnWire) (stack : Vector UInt8 sfpConfigMaxPacketSize)
    (packet : List UInt8) (fits : packet.length + sfpCrcSize ≤ sfpConfigMaxPacketSize) :
    (octetParty.request c (.write stack packet fits)).node.ear = c.ear :=
  (listen_device (m := .of c) hc.between (Request.write stack packet fits).call).symm

theorem ear_connect {c : SFPcontext} (hc : c.OnWire) :
    (octetParty.request c .connect).node.ear = .fresh :=
  (listen_device (m := .of c) hc.between .connect).symm

/-- Whatever happens on a line, noise included, its contexts stay between calls. -/
theorem onWire_step {l : OctetLine} (hl : ∀ y, (l.node y).OnWire) (a : Action Request UInt8) :
    ∀ y, ((l.step octetParty a).node y).OnWire := by
  have hacts : ∀ {l' : OctetLine} {x : Side} {o : Outcome SFPcontext UInt8 (List UInt8)}
      {rest : List UInt8}, Link.Acts l l' x o rest → o.node.OnWire →
      ∀ y, (l'.node y).OnWire := by
    intro l' x o rest h ho
    refine Side.forall_of_peer x ?_ ?_
    · rw [h.node]
      exact ho
    · rw [h.node_peer]
      exact hl x.peer
  cases a with
  | request x r =>
    exact hacts (Link.acts_request octetParty l x r) (sounds_request (hl x) r).onWire
  | deliver x =>
    cases hm : l.messages x with
    | nil => rwa [Link.deliver_of_messages_nil octetParty hm]
    | cons octet rest =>
      exact hacts (Link.acts_deliver octetParty hm) (sounds_hear (hl x) octet).onWire
  | lose x i => exact hl
  | corrupt x i octet => exact hl

theorem onWire_run {l : OctetLine} (hl : ∀ y, (l.node y).OnWire)
    (as : List (Action Request UInt8)) :
    ∀ y, ((run (Link.step octetParty) l as).node y).OnWire := by
  have hstep : ∀ (l : OctetLine) a, (∀ y, (l.node y).OnWire) →
      ∀ y, ((l.step octetParty a).node y).OnWire :=
    fun _ a h => onWire_step h a
  exact Lib.run_invariant_of_step hstep as hl

/-! ## Refinement -/

/-- `n` is the line of frames that `l` stands for, if the receivers have collected what `ear`
says. The octets on the way to a side are read as if a `FLAG` came last: a frame that is not closed
yet counts as a damaged one. -/
structure RefinesFrom (ear : Side → Ear) (l : OctetLine) (n : Net (List UInt8)) : Prop where
  onWire : ∀ x, (l.node x).OnWire
  abs : ∀ x, (l.node x).abs = n.node x
  wrote : l.wrote = n.wrote
  got : l.got = n.got
  messages : ∀ x, framesHeard (ear x) (l.messages x ++ [sfpFlag]) = n.messages x

/-- `n` is the line of frames that `l` stands for. -/
def Refines (l : OctetLine) (n : Net (List UInt8)) : Prop :=
  RefinesFrom (fun x => (l.node x).ear) l n

/-- Every line of octets stands for some line of frames. -/
theorem exists_refinesFrom (ear : Side → Ear) {l : OctetLine} (hl : ∀ x, (l.node x).OnWire) :
    ∃ n, RefinesFrom ear l n := by
  refine ⟨⟨fun x => (l.node x).abs, fun x =>
    (framesHeard (ear x) (l.messages x ++ [sfpFlag])).map fun f => ⟨f, 0⟩, l.wrote, l.got,
    l.took⟩, hl, fun _ => rfl, rfl, rfl, ?_⟩
  intro x
  simp [Link.messages, Function.comp_def]

/-- One side acts on both lines. -/
theorem refines_of_acts {ear : Side → Ear} {l l' : OctetLine} {n n' : Net (List UInt8)}
    {x : Side} {o : Outcome SFPcontext UInt8 (List UInt8)} {r : Reaction (List UInt8)}
    {rest : List UInt8} {frames : List (Frame (List UInt8))} (h : RefinesFrom ear l n)
    (hpeer : ear x.peer = (l.node x.peer).ear) (hl : Link.Acts l l' x o rest)
    (hn : Link.Acts n n' x r.outcome frames) (hwrote : l'.wrote = n'.wrote)
    (hgot : l'.got = n'.got) (hsounds : Sounds o r)
    (hrest : framesHeard o.node.ear (rest ++ [sfpFlag]) = frames) : Refines l' n' where
  onWire := by
    refine Side.forall_of_peer x ?_ ?_
    · rw [hl.node]
      exact hsounds.onWire
    · rw [hl.node_peer]
      exact h.onWire x.peer
  abs := by
    refine Side.forall_of_peer x ?_ ?_
    · rw [hl.node, hn.node]
      exact hsounds.abs
    · rw [hl.node_peer, hn.node_peer]
      exact h.abs x.peer
  wrote := hwrote
  got := hgot
  messages := by
    refine Side.forall_of_peer x ?_ ?_
    · rw [hl.node, hl.messages, hn.messages]
      exact hrest
    · -- what was sent is noticed behind what is on its way
      rw [hl.node_peer, hl.messages_peer, hn.messages_peer, hsounds.sent,
        framesHeard_append_octets _ _ hsounds.sendable, ← hpeer, h.messages x.peer]
      rfl

/-- The endpoints as parties, with the capacity of the build. -/
abbrev frameParty : Party (Endpoint (List UInt8)) (Frame (List UInt8))
    (EndpointRequest (List UInt8)) (List UInt8) :=
  endpointParty (List UInt8) sfpConfigHistoryCapacity

/-- A request is made on both lines. -/
theorem refines_request {ear : Side → Ear} {l : OctetLine} {n : Net (List UInt8)} {x : Side}
    {r : Request} (h : RefinesFrom ear l n) (hpeer : ear x.peer = (l.node x.peer).ear)
    (hear : (octetParty.request (l.node x) r).node.ear = ear x) :
    Refines (l.step octetParty (.request x r))
      (n.step frameParty (.request x r.toEndpoint)) := by
  have hsounds := sounds_request (h.onWire x) r
  rw [h.abs x] at hsounds
  have hreact : frameParty.request (n.node x) r.toEndpoint
      = ((n.node x).react sfpConfigHistoryCapacity (r.call.input (l.node x))).outcome := by
    cases r <;> rfl
  have hacts := Link.acts_request frameParty n x r.toEndpoint
  rw [hreact] at hacts
  refine refines_of_acts h hpeer (Link.acts_request octetParty l x r) hacts ?_ ?_ hsounds ?_
  · funext y
    rw [Link.wrote_step, Link.wrote_step, h.wrote]
    cases r <;> rfl
  · show Function.update l.got x (l.got x ++ (octetParty.request (l.node x) r).got)
      = Function.update n.got x (n.got x ++ (frameParty.request (n.node x) r.toEndpoint).got)
    rw [h.got, hsounds.got, hreact]
    rfl
  · rw [hear]
    exact h.messages x

omit [SfpConfig] in
/-- A side that acts on the line of octets, while nothing happens on the line of frames. -/
theorem acts_refl (n : Net (List UInt8)) (x : Side) :
    Link.Acts n n x (Reaction.outcome ⟨n.node x, [], []⟩) (n.messages x) :=
  ⟨rfl, rfl, rfl, (List.append_nil _).symm⟩

/-- What an octet tells the endpoint. -/
theorem react_deliver (c : SFPcontext) (octet : UInt8) :
    c.abs.react sfpConfigHistoryCapacity ((Call.deliver octet none).input c)
      = c.abs.receive (if sfpFlag = octet then (verdict c.content).toFrame else .silent) := rfl

/-- **An octet is heard**: it closes a frame, which is delivered, or it changes nothing. -/
theorem refines_deliver {l : OctetLine} {n : Net (List UInt8)} (h : Refines l n) (x : Side) :
    Refines (l.step octetParty (.deliver x)) n ∨
      Refines (l.step octetParty (.deliver x)) (n.step frameParty (.deliver x)) := by
  cases hm : l.messages x with
  | nil =>
    rw [Link.deliver_of_messages_nil octetParty hm]
    exact Or.inl h
  | cons octet rest =>
    have hacts := Link.acts_deliver octetParty hm
    have hsounds := sounds_hear (h.onWire x) octet
    rw [react_deliver, h.abs x] at hsounds
    have hheard := h.messages x
    have hear := ear_hear (h.onWire x) octet
    rw [hm, List.cons_append, framesHeard] at hheard
    have hwrote : ∀ y, (l.step octetParty (.deliver x)).wrote y = n.wrote y := by
      intro y
      rw [Link.wrote_deliver, h.wrote]
    obtain ⟨hgot, hgotPeer⟩ := Link.got_deliver octetParty hm
    rw [hsounds.got, h.got] at hgot
    rw [h.got] at hgotPeer
    by_cases hcloses : sfpFlag = octet ∧ (l.node x).content ≠ []
    · -- the frame in front of the line of frames is delivered
      right
      have hears : sfpFlag = octet ∧ ((l.node x).ear).1 ≠ [] := hcloses
      rw [if_pos hears] at hheard
      have hnext := Link.acts_deliver frameParty hheard.symm
      have hgotNext := Link.got_deliver frameParty hheard.symm
      rw [if_pos hcloses.1] at hsounds hgot
      refine refines_of_acts h rfl hacts hnext ?_ ?_ hsounds ?_
      · funext y
        rw [hwrote y, Link.wrote_deliver]
      · funext y
        rcases y.eq_or_eq_peer x with rfl | rfl
        · rw [hgot, hgotNext.1]
          rfl
        · rw [hgotPeer, hgotNext.2]
      · rw [hear]
        rfl
    · -- nothing is noticed
      left
      have hnot : ¬ (sfpFlag = octet ∧ ((l.node x).ear).1 ≠ []) := hcloses
      rw [if_neg hnot] at hheard
      have hsilent : (if sfpFlag = octet then (verdict (l.node x).content).toFrame else .silent)
          = .silent := by
        by_cases hflag : sfpFlag = octet
        · have hnil : (l.node x).content = [] := not_not.mp fun hne => hcloses ⟨hflag, hne⟩
          rw [if_pos hflag, hnil]
          rfl
        · exact if_neg hflag
      rw [hsilent] at hsounds hgot
      refine refines_of_acts h rfl hacts (acts_refl n x) (funext hwrote) ?_ hsounds ?_
      · funext y
        rcases y.eq_or_eq_peer x with rfl | rfl
        · exact hgot.trans (List.append_nil _)
        · exact hgotPeer
      · rw [hear]
        exact hheard

/-! ## Healing -/

/-- Asking for a session needs no past: what the receiver has collected is thrown away. -/
theorem refines_connect {l : OctetLine} (hl : ∀ y, (l.node y).OnWire) (x : Side) :
    ∃ n, RefinesFrom (Function.update (fun y => (l.node y).ear) x .fresh) l n ∧
      Refines (l.step octetParty (.request x .connect))
        (n.step frameParty (.request x .connect)) := by
  obtain ⟨n, hn⟩ := exists_refinesFrom (Function.update (fun y => (l.node y).ear) x .fresh) hl
  refine ⟨n, hn, refines_request (r := .connect) hn (by simp) ?_⟩
  rw [ear_connect (hl x), Function.update_self]

/-- The line stands for one that heals. -/
def Heals (l : OctetLine) : Prop :=
  ∃ n, Refines l n ∧ Link.Both Healing n

theorem heals_connect {l : OctetLine} (hl : ∀ y, (l.node y).OnWire) (x : Side) :
    Heals (l.step octetParty (.request x .connect)) := by
  obtain ⟨n, -, hn⟩ := refines_connect hl x
  exact ⟨_, hn, both_healing_connect _ n x⟩

/-- **Step lemma.** -/
theorem heals_step {l : OctetLine} (h : Heals l) {a : Action Request UInt8} (ha : a.Lossless) :
    Heals (l.step octetParty a) := by
  obtain ⟨n, hn, hheals⟩ := h
  cases a with
  | request x r =>
    cases r with
    | connect => exact heals_connect hn.onWire x
    | write stack packet fits =>
      refine ⟨_, refines_request hn rfl (ear_write (hn.onWire x) stack packet fits), ?_⟩
      exact both_healing_step hheals trivial
  | deliver x =>
    rcases refines_deliver hn x with hsame | hnext
    · exact ⟨n, hsame, hheals⟩
    · exact ⟨_, hnext, both_healing_step hheals trivial⟩
  | lose x i => exact ha.elim
  | corrupt x i octet => exact ha.elim

theorem heals_run {l : OctetLine} (h : Heals l) {as : List (Action Request UInt8)}
    (has : ∀ a ∈ as, a.Lossless) : Heals (run (Link.step octetParty) l as) := by
  apply Lib.run_invariant (P := fun _ a => a.Lossless) _ h (Lib.meets_of_forall has)
  intro l a hl ha
  exact heals_step hl ha

/-- Nothing is on its way to a side, and its receiver is between frames. -/
def Silent (l : OctetLine) (x : Side) : Prop :=
  l.chan x = [] ∧ (l.node x).content = []

instance (l : OctetLine) (x : Side) : Decidable (Silent l x) :=
  inferInstanceAs (Decidable (_ ∧ _))

theorem Refines.messages_of_silent {l : OctetLine} {n : Net (List UInt8)} (h : Refines l n)
    {x : Side} (hx : Silent l x) : n.messages x = [] := by
  have hnil : l.messages x = [] := by rw [Link.messages, hx.1]; rfl
  have hcontent : ((l.node x).ear).1 = [] := hx.2
  rw [← h.messages x, hnil, List.nil_append, framesHeard_flag, if_neg (not_not.mpr hcontent)]
  rfl

/-! ## Lines that start between frames -/

/-- The octets on the way to a receiver end with a whole frame. -/
def Tidy (s : Ear) (os : List UInt8) : Prop :=
  os = [] ∧ s = .fresh ∨ os.getLast? = some sfpFlag

omit [SfpConfig] in
/-- Nothing is left over when everything was heard. -/
theorem Tidy.fresh {s : Ear} (h : Tidy s []) : s = .fresh := by
  rcases h with ⟨-, hs⟩ | hlast
  · exact hs
  · simp at hlast

omit [SfpConfig] in
theorem Tidy.append_octets {s : Ear} {os : List UInt8} (h : Tidy s os)
    (fs : List (Frame (List UInt8))) : Tidy s (os ++ fs.flatMap Frame.octets) := by
  cases fs using List.reverseRecOn with
  | nil => rwa [List.flatMap_nil, List.append_nil]
  | append_singleton fs f =>
    -- the last octet is the `FLAG` of the last frame
    right
    have hlast : f.octets = (sfpFlag :: f.segment) ++ [sfpFlag] := rfl
    rw [List.flatMap_append, List.flatMap_singleton, hlast, ← List.append_assoc,
      ← List.append_assoc, List.getLast?_concat]

theorem Tidy.hear {s : Ear} {octet : UInt8} {os : List UInt8} (h : Tidy s (octet :: os)) :
    Tidy (hearOctet s octet) os := by
  rcases h with ⟨hnil, -⟩ | hlast
  · exact absurd hnil (List.cons_ne_nil _ _)
  · cases os with
    | nil =>
      -- the last octet is a `FLAG`
      have hflag : sfpFlag = octet := by simpa using hlast.symm
      exact Or.inl ⟨rfl, if_pos hflag⟩
    | cons o os => exact Or.inr (by rwa [List.getLast?_cons_cons] at hlast)

omit [SfpConfig] in
theorem Tidy.connect {s : Ear} {os : List UInt8} (h : Tidy s os) : Tidy .fresh os :=
  h.imp_left fun h => ⟨h.1, rfl⟩

def TidyLine (l : OctetLine) : Prop :=
  ∀ x, Tidy (l.node x).ear (l.messages x)

theorem tidyLine_of_acts {l l' : OctetLine} (h : TidyLine l) {x : Side}
    {o : Outcome SFPcontext UInt8 (List UInt8)} {r : Reaction (List UInt8)} {rest : List UInt8}
    (hl : Link.Acts l l' x o rest) (hsounds : Sounds o r) (hrest : Tidy o.node.ear rest) :
    TidyLine l' := by
  refine Side.forall_of_peer x ?_ ?_
  · rw [hl.node, hl.messages]
    exact hrest
  · rw [hl.node_peer, hl.messages_peer, hsounds.sent]
    exact (h x.peer).append_octets _

theorem tidyLine_step {l : OctetLine} (h : TidyLine l) (hl : ∀ x, (l.node x).OnWire)
    {a : Action Request UInt8} (ha : a.Lossless) : TidyLine (l.step octetParty a) := by
  cases a with
  | request x r =>
    apply tidyLine_of_acts h (Link.acts_request octetParty l x r) (sounds_request (hl x) r)
    cases r with
    | connect =>
      rw [ear_connect (hl x)]
      exact (h x).connect
    | write stack packet fits =>
      rw [ear_write (hl x)]
      exact h x
  | deliver x =>
    cases hm : l.messages x with
    | nil => rwa [Link.deliver_of_messages_nil octetParty hm]
    | cons octet rest =>
      apply tidyLine_of_acts h (Link.acts_deliver octetParty hm) (sounds_hear (hl x) octet)
      have hx := h x
      rw [hm] at hx
      rw [ear_hear (hl x)]
      exact hx.hear
  | lose x i => exact ha.elim
  | corrupt x i octet => exact ha.elim

theorem TidyLine.silent {l : OctetLine} (h : TidyLine l) {x : Side} (hx : l.chan x = []) :
    Silent l x := by
  have htidy := h x
  rw [Link.messages, hx] at htidy
  exact ⟨hx, congrArg Prod.fst htidy.fresh⟩

/-- `sfpConnect` is called between frames, `sfpWritePacket` not on a disconnected context. -/
def PoliteOctets (l : OctetLine) (a : Action Request UInt8) : Prop :=
  a.Lossless ∧
    match a with
    | .request x .connect => (l.node x).ear = .fresh
    | .request x (.write _ _ _) => (l.node x).connectState ≠ .disconnected
    | _ => True

/-- The line is tidy and stands for one that `x` has opened again. -/
def Reopens (x : Side) (l : OctetLine) : Prop :=
  TidyLine l ∧ ∃ n, Refines l n ∧ ReopenedBy x n

theorem reopens_step {x : Side} {l : OctetLine} (h : Reopens x l) {a : Action Request UInt8}
    (ha : PoliteOctets l a) : Reopens x (l.step octetParty a) := by
  obtain ⟨htidy, n, hn, hreopened⟩ := h
  refine ⟨tidyLine_step htidy hn.onWire ha.1, ?_⟩
  -- a request of an endpoint that is open, or no write
  have hpolite : ∀ y (r : EndpointRequest (List UInt8)), WritesOpen (n.node y) r →
      PoliteStep n (.request y r) := by
    intro y r hr
    refine ⟨trivial, ?_⟩
    intro z q hq
    obtain ⟨rfl, rfl⟩ := Action.request.inj hq
    exact hr
  cases a with
  | request y r =>
    cases r with
    | connect =>
      have hfresh : (octetParty.request (l.node y) .connect).node.ear = (l.node y).ear :=
        (ear_connect (hn.onWire y)).trans ha.2.symm
      refine ⟨_, refines_request hn rfl hfresh, reopenedBy_step hreopened (hpolite y _ ?_)⟩
      exact fun _ hp => by simp [Request.toEndpoint] at hp
    | write stack packet fits =>
      refine ⟨_, refines_request hn rfl (ear_write (hn.onWire y) stack packet fits),
        reopenedBy_step hreopened (hpolite y _ ?_)⟩
      intro _ _
      rw [← hn.abs y]
      exact ha.2
  | deliver y =>
    rcases refines_deliver hn y with hsame | hnext
    · exact ⟨n, hsame, hreopened⟩
    · exact ⟨_, hnext, reopenedBy_step hreopened ⟨trivial, by simp⟩⟩
  | lose y i => exact ha.1.elim
  | corrupt y i octet => exact ha.1.elim

theorem reopens_connect {l : OctetLine} (hl : ∀ y, (l.node y).OnWire) {x : Side}
    (hempty : ∀ y, l.chan y = []) (hpeer : (l.node x.peer).ear = .fresh) :
    Reopens x (l.step octetParty (.request x .connect)) := by
  have hmessages : ∀ y, l.messages y = [] := fun y => by rw [Link.messages, hempty]; rfl
  constructor
  · have hacts := Link.acts_request octetParty l x .connect
    have hsounds := sounds_request (hl x) .connect
    refine Side.forall_of_peer x ?_ ?_
    · rw [hacts.node, hacts.messages, ear_connect (hl x), hmessages]
      exact Or.inl ⟨rfl, rfl⟩
    · rw [hacts.node_peer, hacts.messages_peer, hsounds.sent, hmessages, hpeer]
      have hnil : Tidy .fresh [] := Or.inl ⟨rfl, rfl⟩
      exact hnil.append_octets _
  · obtain ⟨n, hn, hnext⟩ := refines_connect hl x
    refine ⟨_, hnext, reopenedBy_connect _ ?_ x⟩
    -- nothing that was collected counts: one side forgets it, the other is between frames
    have hfresh : ∀ y, Function.update (fun y => (l.node y).ear) x .fresh y = .fresh := by
      refine Side.forall_of_peer x ?_ ?_
      · rw [Function.update_self]
      · rw [Function.update_of_ne x.peer_ne, hpeer]
    intro y
    rw [← hn.messages y, hmessages, hfresh]
    rfl

/-- **A handshake heals the session, octet by octet.** Whatever the states of two contexts, in
whatever frame their receivers are, and whatever octets are in flight between them: once
`sfpConnect` is called and no octet is lost from then on, the two sides are both connected or both
disconnected whenever nothing is in flight and both receivers are between frames. They are
connected as soon as nothing is in flight, if nothing was in flight at that call and the peer was
between frames, and if from then on `sfpConnect` is called between frames and `sfpWritePacket` not
on a disconnected context. -/
theorem reconnect_octets {l : OctetLine} (hl : ∀ y, (l.node y).OnWire) (x : Side)
    {as : List (Action Request UInt8)} (has : ∀ a ∈ as, a.Lossless) :
    let l₀ := l.step octetParty (.request x .connect)
    let l' := run (Link.step octetParty) l₀ as
    ((∀ y, Silent l' y) → (∀ y, (l'.node y).connectState = .connected) ∨
        ∀ y, (l'.node y).connectState = .disconnected) ∧
      ((∀ y, l.chan y = []) → (l.node x.peer).ear = .fresh →
        Meets (Link.step octetParty) PoliteOctets l₀ as → (∀ y, l'.chan y = []) →
        ∀ y, (l'.node y).connectState = .connected) := by
  intro l₀ l'
  have hstate : ∀ {n : Net (List UInt8)}, Refines l' n → ∀ y,
      (n.node y).connectState = (l'.node y).connectState := by
    intro n hn y
    rw [← hn.abs y]
    rfl
  constructor
  · intro hsilent
    obtain ⟨n, hn, hheals⟩ := heals_run (heals_connect hl x) has
    have hagree := healed_agreement hheals fun y => hn.messages_of_silent (hsilent y)
    simpa only [hstate hn] using hagree
  · intro hempty hpeer hpolite hquiet
    have hreopens : Reopens x l' := by
      apply Lib.run_invariant _ (reopens_connect hl hempty hpeer) hpolite
      intro l a h ha
      exact reopens_step h ha
    obtain ⟨htidy, n, hn, hreopened⟩ := hreopens
    have hconnected := connected_of_reopenedBy hreopened fun y =>
      hn.messages_of_silent (htidy.silent (hquiet y))
    simpa only [hstate hn] using hconnected

end Contexts

section HeaderDefaults

attribute [local instance] headerDefaults

theorem onWire_halfOpen (x : Side) : (halfOpen x).OnWire where
  between := SFPcontext.between_of_holds (onLine_halfOpen x).idle (onLine_halfOpen x).fresh.holds
  deliver := (onLine_halfOpen x).deliver
  keeps := (onLine_halfOpen x).keeps

/-- The restarted side is in the middle of a frame of the old session. -/
def staleOctets : OctetLine :=
  run (Link.step octetParty) (Link.start halfOpen)
    (.request .right (.write (.replicate _ 0) [0] (by decide)) ::
      List.replicate 3 (.deliver .left))

/-- Everything in flight is delivered, one direction after the other. -/
def drainOctets : List (Action Request UInt8) :=
  ([.right, .left, .right, .left, .right] : List Side).flatMap
    fun x => List.replicate 15 (.deliver x)

theorem politeOctets_drainOctets (l : OctetLine) :
    Meets (Link.step octetParty) PoliteOctets l drainOctets := by
  have hpolite : ∀ a ∈ drainOctets, ∀ l : OctetLine, PoliteOctets l a := by
    intro a ha l
    obtain ⟨x, -, hx⟩ := List.mem_flatMap.mp ha
    rw [List.eq_of_mem_replicate hx]
    exact ⟨trivial, trivial⟩
  exact (Lib.meets_of_forall hpolite).mono fun l _ h => h l

theorem reconnect_octets_stale :
    let l := run (Link.step octetParty) (staleOctets.step octetParty (.request .left .connect))
      drainOctets
    let l' := run (Link.step octetParty)
      ((Link.start halfOpen).step octetParty (.request .left .connect)) drainOctets
    ((∀ y, (l.node y).connectState = .connected) ∨
        ∀ y, (l.node y).connectState = .disconnected) ∧
      ∀ y, (l'.node y).connectState = .connected := by
  have hlossless : ∀ a ∈ drainOctets, a.Lossless := by
    intro a ha
    obtain ⟨x, -, hx⟩ := List.mem_flatMap.mp ha
    rw [List.eq_of_mem_replicate hx]
    trivial
  have hstale : ∀ y, (staleOctets.node y).OnWire := onWire_run onWire_halfOpen _
  constructor
  · exact (reconnect_octets hstale .left hlossless).1 (by decide +kernel)
  · exact (reconnect_octets onWire_halfOpen .left hlossless).2 (fun _ => rfl) rfl
      (politeOctets_drainOctets _) (by decide +kernel)

end HeaderDefaults

end Libsfp
