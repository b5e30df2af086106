import Libsfp.Session.Streaming

/-!
# Asking for a Session Again and Again

Both users call `sfpConnect`, as often as they like and in the middle of frames, and nothing else.
A receiver that is reset in the middle of a frame of the handshake notices a damaged frame at most,
for what is left of the frame is too short to be one (`soft_octets`). So only the labels of a
handshake and the answers to damaged frames are in flight (`Asking`), no packet is invented, both
sequence numbers stay where they are, and with nothing left in flight a session has begun on both
sides (`Asking.streamsOn`).

`session_after_retries` adds what is written from then on.
-/

namespace Libsfp

open Lib (Side Link Action Meets run)

/-! ## Endpoints -/

/-- What a receiver may notice while a session is opened. -/
def Frame.Opens {α : Type*} : Frame α → Prop
  | .syn seq => seq < 3
  | .nak seq => seq = 0
  | .bad | .silent => True
  | .usr _ _ | .rtx _ _ => False

/-- What is sent while a session is opened. -/
def Frame.Shakes {α : Type*} : Frame α → Prop
  | .syn seq => seq < 3
  | .nak seq => seq = 0
  | _ => False

/-- An endpoint that has asked for a session and has neither sent nor been given a packet in it. -/
structure Endpoint.Blank {α : Type*} (e : Endpoint α) : Prop where
  asked : e.connectState ≠ .disconnected
  txSeq : e.txSeq = 0
  rxSeq : e.rxSeq = 0

/-- The reaction is one of the handshake. -/
structure Reaction.Shakes {α : Type*} (r : Reaction α) : Prop where
  blank : r.endpoint.Blank
  sent : ∀ f ∈ r.sent, f.Shakes
  got : r.got = []

section Endpoints

variable {α : Type*} {e : Endpoint α}

theorem Endpoint.blank_restart (e : Endpoint α) {s : SFPconnectstate} (hs : s ≠ .disconnected) :
    (e.restart s).Blank := ⟨hs, rfl, rfl⟩

theorem Endpoint.connect_shakes (e : Endpoint α) : e.connect.Shakes where
  blank := e.blank_restart (by decide)
  sent := by simp [Endpoint.connect, Frame.Shakes]
  got := rfl

/-- Without packets there is nothing to replay. -/
theorem Endpoint.Blank.receive (h : e.Blank) {f : Frame α} (hf : f.Opens) :
    (e.receive f).Shakes := by
  -- the label is the initial one, so there is nothing to replay
  have hreplay : e.replay = ⟨e, [], []⟩ := if_neg (not_not.mpr h.txSeq)
  have hsame : ∀ g : Frame α, g.Shakes → (e.answer g).Shakes :=
    fun g hg => ⟨h, by simp [answer, hg], rfl⟩
  cases f with
  | syn seq =>
    cases seq using Frame.syn_cases with
    | syn0 =>
      exact ⟨e.blank_restart (by decide), by simp [Endpoint.receive, receiveSyn, Frame.Shakes], rfl⟩
    | syn1 =>
      simp only [Endpoint.receive, receiveSyn, receiveSyn1]
      cases hstate : e.connectState with
      | disconnected => exact absurd hstate h.asked
      | sentSyn0 | sentSyn1 | connected =>
        simp only [hreplay]
        exact ⟨⟨by simp, h.txSeq, h.rxSeq⟩, by simp [Frame.Shakes], rfl⟩
    | syn2 =>
      simp only [Endpoint.receive, receiveSyn, receiveSyn2]
      cases hstate : e.connectState with
      | disconnected => exact absurd hstate h.asked
      | sentSyn0 => exact hsame _ (by simp [Frame.Shakes])
      | sentSyn1 | connected =>
        simp only [hreplay]
        exact ⟨⟨by simp, h.txSeq, h.rxSeq⟩, by simp, rfl⟩
    | dis | other => exact absurd hf (by simp [Frame.Opens])
  | nak seq =>
    simp only [Endpoint.receive, receiveNak]
    cases hstate : e.connectState with
    | disconnected => exact absurd hstate h.asked
    | sentSyn0 | sentSyn1 => exact hsame _ (by simp [Frame.Shakes])
    | connected =>
      -- the only `NAK` about asks for the next label
      have hseq : seq = e.txSeq := Eq.trans hf h.txSeq.symm
      simp only [hseq, ne_eq, not_true, if_false]
      exact ⟨h, by simp, rfl⟩
  | bad => exact hsame _ h.rxSeq
  | silent => exact ⟨h, by simp [Endpoint.receive], rfl⟩
  | usr | rtx => exact hf.elim

/-- What is sent in a handshake may be heard in one. -/
theorem Frame.Shakes.opens {f : Frame α} (hf : f.Shakes) : f.Opens := by
  cases f with
  | syn | nak => exact hf
  | usr | rtx | bad | silent => exact hf.elim

end Endpoints

/-! ## What is noticed -/

/-- The content of a frame without a packet: the header is not escaped. -/
theorem Frame.Shakes.segment {f : Frame (List UInt8)} (hf : f.Shakes) :
    ∃ trailer : List UInt8, trailer.length = 2 ∧
      f.segment = f.header :: sfpStuffing.stuff trailer := by
  have hplain : ¬ (f.header = sfpEsc ∨ f.header = sfpFlag) ∧ f.payload = [] := by
    cases f with
    | syn seq =>
      have hseq : seq < 3 := hf
      refine ⟨?_, rfl⟩
      -- three headers to look at
      interval_cases seq <;> decide
    | nak seq =>
      rw [show seq = 0 from hf]
      exact ⟨by decide, rfl⟩
    | usr | rtx | bad | silent => exact hf.elim
  refine ⟨crcTrailer (crcOf sfpCrcPreset (f.header :: f.payload)), rfl, ?_⟩
  have hcontent : frameContent f.header f.payload
      = f.header :: crcTrailer (crcOf sfpCrcPreset (f.header :: f.payload)) := by
    rw [frameContent, hplain.2]
    rfl
  rw [Frame.segment, frameSegment, hcontent, Lib.Stuffing.stuff_cons, Lib.Stuffing.stuffOne]
  exact congrArg (· ++ _) (if_neg hplain.1)

/-- Two octets are no frame. -/
theorem opens_short {content : List UInt8} (h : content.length ≤ 2) :
    (verdict content).toFrame.Opens := by
  cases content with
  | nil => trivial
  | cons header rest =>
    rw [verdict_short (Nat.lt_of_succ_le h)]
    trivial

section Contexts

variable [SfpConfig]

/-- It fits into a frame. -/
theorem Frame.Shakes.sendable {f : Frame (List UInt8)} (hf : f.Shakes) : f.Sendable Fits := by
  cases f with
  | syn seq => exact Nat.lt_trans hf (by decide)
  | nak seq =>
    rw [show seq = 0 from hf]
    exact Nat.zero_lt_of_lt (by decide : 0 < seqRange)
  | usr | rtx | bad | silent => exact hf.elim

/-- **Whoever starts to listen in the middle of a frame without a packet** notices nothing, or a
damaged frame. -/
theorem opens_tail {f : Frame (List UInt8)} (hf : f.Shakes) {t : List UInt8} (ht : t <:+ f.octets) :
    ∀ g ∈ framesHeard .fresh (t ++ [sfpFlag]), g.Opens := by
  have hend : framesHeard .fresh [sfpFlag] = [] := rfl
  obtain ⟨hheard, hfresh⟩ := framesHeard_octets hf.sendable
  obtain ⟨trailer, htrailer, hsegment⟩ := hf.segment
  -- from the start on it is the frame itself
  have hwhole : framesHeard .fresh (f.octets ++ [sfpFlag]) = [f] := by
    rw [framesHeard_append, hheard, hfresh, hend, List.append_nil]
  have hoctets : f.octets = sfpFlag :: f.header :: (sfpStuffing.stuff trailer ++ [sfpFlag]) := by
    show sfpFlag :: (f.segment ++ [sfpFlag]) = _
    rw [hsegment]
    rfl
  have hself : ∀ g ∈ [f], g.Opens := by simpa using hf.opens
  rw [hoctets, List.suffix_cons_iff] at ht
  rcases ht with rfl | ht
  · rwa [← hoctets, hwhole]
  rcases List.suffix_cons_iff.mp ht with rfl | ht
  · -- the opening `FLAG` tells a fresh receiver nothing
    rw [hoctets, List.cons_append, framesHeard_flag] at hwhole
    have hsame := (List.nil_append _).symm.trans hwhole
    rwa [hsame]
  rcases List.suffix_concat_iff.mp ht with rfl | ⟨t, rfl, hleft⟩
  · simp [hend]
  · -- what is left of the content is too short
    have hflag : sfpFlag ∉ t := fun hmem =>
      sfpStuffing.flag_notMem_stuff trailer (hleft.subset hmem)
    obtain ⟨hnone, hcontent⟩ := framesHeard_segment hflag .fresh
    have hshort : (run hearOctet .fresh t).1.length ≤ 2 := by
      have hresidual : (run hearOctet .fresh t).1 = residual (sfpStuffing.unstuff false t) :=
        hcontent
      rw [hresidual, residual_eq_drop, List.length_drop, ← htrailer]
      exact Nat.le_trans (Nat.sub_le _ _) (sfpStuffing.length_unstuff_suffix hleft)
    rw [List.append_assoc, framesHeard_append, hnone, List.nil_append, List.singleton_append,
      framesHeard_flag, hend, List.append_nil]
    split
    · simpa using opens_short hshort
    · simp

/-- What is noticed belongs to a handshake, whatever was collected and wherever a receiver that is
reset starts to listen. -/
structure Soft (s : Ear) (os : List UInt8) : Prop where
  here : ∀ f ∈ framesHeard s (os ++ [sfpFlag]), f.Opens
  anywhere : ∀ t, t <:+ os → ∀ f ∈ framesHeard .fresh (t ++ [sfpFlag]), f.Opens

section Soft

variable {s : Ear} {os : List UInt8} {octet : UInt8}

/-- Nothing is in flight. -/
theorem soft_nil : Soft .fresh [] := by
  have hend : framesHeard .fresh [sfpFlag] = [] := rfl
  constructor
  · simp [hend]
  · intro t ht
    rw [List.suffix_nil.mp ht]
    simp [hend]

/-- The receiver is reset. -/
theorem Soft.reset (h : Soft s os) : Soft .fresh os :=
  ⟨h.anywhere os (List.suffix_refl _), h.anywhere⟩

/-- What is heard next was heard behind it before. -/
theorem Soft.hear (h : Soft s (octet :: os)) : Soft (hearOctet s octet) os where
  here := by
    intro f hf
    apply h.here
    rw [List.cons_append, framesHeard]
    exact List.mem_append_right _ hf
  anywhere t ht := h.anywhere t (ht.trans (List.suffix_cons _ _))

/-- What an octet tells the endpoint. -/
theorem Soft.noticed (h : Soft s (octet :: os)) :
    (if sfpFlag = octet then (verdict s.1).toFrame else .silent).Opens := by
  by_cases hflag : sfpFlag = octet
  · rw [if_pos hflag]
    -- a `FLAG` behind nothing closes no frame
    by_cases hnil : s.1 = []
    · rw [hnil]
      trivial
    · apply h.here
      rw [List.cons_append, framesHeard, if_pos ⟨hflag, hnil⟩]
      exact List.mem_append_left _ List.mem_cons_self
  · rw [if_neg hflag]
    trivial

/-- A frame of a handshake may follow. -/
theorem Soft.append_frame (h : Soft s os) {f : Frame (List UInt8)} (hf : f.Shakes) :
    Soft s (os ++ f.octets) := by
  have hbehind : ∀ (s : Ear) (os : List UInt8),
      (∀ g ∈ framesHeard s (os ++ [sfpFlag]), g.Opens) →
      ∀ g ∈ framesHeard s (os ++ f.octets ++ [sfpFlag]), g.Opens := by
    intro s os hos g hg
    have hone : ∀ g ∈ [f], g.Sendable Fits := by simpa using hf.sendable
    have happend := framesHeard_append_octets s os hone
    rw [List.flatMap_singleton] at happend
    rw [happend] at hg
    rcases List.mem_append.mp hg with hg | hg
    · exact hos g hg
    · rw [List.mem_singleton.mp hg]
      exact hf.opens
  refine ⟨hbehind s os h.here, ?_⟩
  rintro t ⟨p, hp⟩
  -- whoever starts to listen does so before the frame or in it
  rcases List.append_eq_append_iff.mp hp with ⟨a, rfl, rfl⟩ | ⟨b, -, hb⟩
  · exact hbehind .fresh a (h.anywhere a (List.suffix_append _ _))
  · exact opens_tail hf ⟨b, hb.symm⟩

theorem Soft.append_octets (h : Soft s os) {fs : List (Frame (List UInt8))}
    (hfs : ∀ f ∈ fs, f.Shakes) : Soft s (os ++ fs.flatMap Frame.octets) := by
  induction fs generalizing os with
  | nil => rwa [List.flatMap_nil, List.append_nil]
  | cons f fs ih =>
    rw [List.flatMap_cons, ← List.append_assoc]
    exact ih (h.append_frame (hfs f (by simp))) fun g hg => hfs g (by simp [hg])

end Soft

/-! ## The line -/

/-- Both users have only asked for a session so far, whenever they liked. -/
structure Asking (l : OctetLine) : Prop where
  tidy : TidyLine l
  onWire : ∀ x, (l.node x).OnWire
  blank : ∀ x, (l.node x).connectState ≠ .disconnected → (l.node x).abs.Blank
  soft : ∀ x, Soft (l.node x).ear (l.messages x)
  wrote : ∀ x, l.wrote x = []
  got : ∀ x, l.got x = []
  heals : (∀ x, (l.node x).connectState = .disconnected) ∨ Heals l

variable {l l' : OctetLine} {x : Side}

/-- A context that was initialized, in any memory, with a deliver callback. -/
theorem SFPcontext.onWire_initWith (memory : SFPcontext) {cb : Callbacks}
    (hcb : cb.deliver = true) : (memory.initWith cb).OnWire where
  between := memory.between_initWith cb
  deliver := hcb
  keeps hopen := absurd rfl hopen

/-- Two contexts that nobody has asked for a session. -/
theorem asking_start {node : Side → SFPcontext} (hnode : ∀ x, (node x).OnWire)
    (hfresh : ∀ x, (node x).ear = .fresh) (hstate : ∀ x, (node x).connectState = .disconnected) :
    Asking (Link.start node) where
  tidy x := .inl ⟨rfl, hfresh x⟩
  onWire := hnode
  blank x hasked := absurd (hstate x) hasked
  soft x := by
    show Soft (node x).ear []
    rw [hfresh]
    exact soft_nil
  wrote _ := rfl
  got _ := rfl
  heals := .inl hstate

/-- A side acts as in a handshake. -/
theorem Asking.act (h : Asking l) {o : Lib.Outcome SFPcontext UInt8 (List UInt8)}
    {r : Reaction (List UInt8)} {rest : List UInt8} (hacts : Link.Acts l l' x o rest)
    (hsounds : Sounds o r) (hr : r.Shakes) (htidy : TidyLine l') (hrest : Soft o.node.ear rest)
    (hwrote : ∀ y, l'.wrote y = l.wrote y)
    (hgot : l'.got x = l.got x ++ o.got ∧ l'.got x.peer = l.got x.peer) (hheals : Heals l') :
    Asking l' where
  tidy := htidy
  onWire := by
    refine Side.forall_of_peer x ?_ ?_
    · rw [hacts.node]
      exact hsounds.onWire
    · rw [hacts.node_peer]
      exact h.onWire x.peer
  blank := by
    refine Side.forall_of_peer x ?_ ?_
    · intro _
      rw [hacts.node, hsounds.abs]
      exact hr.blank
    · rw [hacts.node_peer]
      exact h.blank x.peer
  soft := by
    refine Side.forall_of_peer x ?_ ?_
    · rw [hacts.node, hacts.messages]
      exact hrest
    · rw [hacts.node_peer, hacts.messages_peer, hsounds.sent]
      exact (h.soft x.peer).append_octets hr.sent
  wrote y := (hwrote y).trans (h.wrote y)
  got := by
    refine Side.forall_of_peer x ?_ ?_
    · rw [hgot.1, hsounds.got, hr.got, h.got]
      rfl
    · rw [hgot.2, h.got]
  heals := .inr hheals

/-- **A session is asked for**, between frames or not. -/
theorem Asking.connect (h : Asking l) (x : Side) :
    Asking (l.step octetParty (.request x .connect)) := by
  have hacts := Link.acts_request octetParty l x .connect
  apply h.act hacts (sounds_request (h.onWire x) .connect) ((l.node x).abs.connect_shakes)
    (tidyLine_step h.tidy h.onWire trivial) _ _ (Link.got_request octetParty l x .connect)
    (heals_connect h.onWire x)
  · rw [ear_connect (h.onWire x)]
    -- the receiver is reset, in the middle of a frame maybe
    exact (h.soft x).reset
  · obtain ⟨hwrote, hwrotePeer⟩ := Link.wrote_request octetParty l x .connect
    exact Side.forall_of_peer x (hwrote.trans (List.append_nil _)) hwrotePeer

/-- What a side that has asked does on an octet is part of a handshake. -/
theorem Asking.hears (h : Asking l) (hx : (l.node x).connectState ≠ .disconnected) {octet : UInt8}
    {rest : List UInt8} (hm : l.messages x = octet :: rest) :
    ∃ r, Sounds (octetParty.hear (l.node x) octet) r ∧ r.Shakes ∧
      Soft (octetParty.hear (l.node x) octet).node.ear rest := by
  have hsoft := h.soft x
  rw [hm] at hsoft
  have hsounds := sounds_hear (h.onWire x) octet
  rw [react_deliver] at hsounds
  refine ⟨_, hsounds, (h.blank x hx).receive hsoft.noticed, ?_⟩
  rw [ear_hear (h.onWire x)]
  exact hsoft.hear

/-- **An octet is heard** by a side that has asked. -/
theorem Asking.deliver (h : Asking l) (hx : (l.node x).connectState ≠ .disconnected) :
    Asking (l.step octetParty (.deliver x)) := by
  cases hm : l.messages x with
  | nil => rwa [Link.deliver_of_messages_nil octetParty hm]
  | cons octet rest =>
    obtain ⟨r, hsounds, hshakes, hrest⟩ := h.hears hx hm
    -- somebody has asked, so the past is being forgotten
    have hheals : Heals l := h.heals.resolve_left fun hnever => hx (hnever x)
    exact h.act (Link.acts_deliver octetParty hm) hsounds hshakes
      (tidyLine_step h.tidy h.onWire trivial) hrest (Link.wrote_deliver octetParty l x)
      (Link.got_deliver octetParty hm) (heals_step hheals trivial)

/-- A step before the session has begun: a user asks for one, in the middle of a frame or not, or a
side that has asked hears an octet. -/
def AsksOctets (l : OctetLine) : Action Request UInt8 → Prop
  | .request _ .connect => True
  | .deliver x => (l.node x).connectState ≠ .disconnected
  | _ => False

instance (l : OctetLine) : DecidablePred (AsksOctets l)
  | .request _ .connect => isTrue trivial
  | .request _ (.write _ _ _) => isFalse id
  | .deliver _ => inferInstanceAs (Decidable (_ ≠ _))
  | .lose _ _ => isFalse id
  | .corrupt _ _ _ => isFalse id

/-- A step before the session has begun. -/
theorem Asking.step (h : Asking l) {a : Action Request UInt8} (ha : AsksOctets l a) :
    Asking (l.step octetParty a) := by
  cases a with
  | request x r =>
    cases r with
    | connect => exact h.connect x
    | write stack packet fits => exact ha.elim
  | deliver x => exact h.deliver ha
  | lose x i => exact ha.elim
  | corrupt x i octet => exact ha.elim

/-- Who acts as in a handshake has asked. -/
theorem Sounds.asked {o : Lib.Outcome SFPcontext UInt8 (List UInt8)} {r : Reaction (List UInt8)}
    (h : Sounds o r) (hr : r.Shakes) : o.node.connectState ≠ .disconnected := by
  have hblank := hr.blank
  rw [← h.abs] at hblank
  exact hblank.asked

/-- Who asks has asked. -/
theorem asked_connect (hl : (l.node x).OnWire) :
    ((l.step octetParty (.request x .connect)).node x).connectState ≠ .disconnected := by
  rw [(Link.acts_request octetParty l x .connect).node]
  exact (sounds_request hl .connect).asked (l.node x).abs.connect_shakes

/-- Who has asked goes on. -/
theorem Asking.asked_step (h : Asking l) {a : Action Request UInt8} (ha : AsksOctets l a)
    (hx : (l.node x).connectState ≠ .disconnected) :
    ((l.step octetParty a).node x).connectState ≠ .disconnected := by
  cases a with
  | request y r =>
    cases r with
    | connect =>
      rcases x.eq_or_eq_peer y with rfl | rfl
      · exact asked_connect (h.onWire x)
      · rwa [(Link.acts_request octetParty l y .connect).node_peer]
    | write stack packet fits => exact ha.elim
  | deliver y =>
    cases hm : l.messages y with
    | nil => rwa [Link.deliver_of_messages_nil octetParty hm]
    | cons octet rest =>
      have hacts := Link.acts_deliver octetParty hm
      rcases x.eq_or_eq_peer y with rfl | rfl
      · obtain ⟨r, hsounds, hshakes, -⟩ := h.hears hx hm
        rw [hacts.node]
        exact hsounds.asked hshakes
      · rwa [hacts.node_peer]
  | lose y i => exact ha.elim
  | corrupt y i octet => exact ha.elim

/-- **The session has begun** on both sides as soon as nothing is in flight. -/
theorem Asking.streamsOn (h : Asking l) (hquiet : ∀ y, l.messages y = [])
    (hasked : (l.node x).connectState ≠ .disconnected) : StreamsOn l := by
  obtain ⟨n, hn, hheals⟩ := h.heals.resolve_left fun hnever => hasked (hnever x)
  have hmessages : ∀ y, n.messages y = [] := by
    intro y
    have hchan : l.chan y = [] := List.map_eq_nil_iff.mp (hquiet y)
    exact hn.messages_of_silent (h.tidy.silent hchan)
  have hstate : ∀ y, (n.node y).connectState = (l.node y).connectState := by
    intro y
    rw [← hn.abs y]
    rfl
  have hconnected : ∀ y, (l.node y).connectState = .connected := by
    rcases healed_agreement hheals hmessages with hboth | hnone
    · exact fun y => (hstate y).symm.trans (hboth y)
    · exact absurd ((hstate x).symm.trans (hnone x)) hasked
  have hblank : ∀ y, (n.node y).Blank := by
    intro y
    rw [← hn.abs y]
    exact h.blank y (by simp [hconnected y])
  refine ⟨h.tidy, n, hn, fun y => ?_⟩
  refine ⟨(hstate y).trans (hconnected y), ?_, [], hmessages _, ?_, ?_⟩
  · rw [(hblank y).rxSeq]
    decide
  · rw [← hn.wrote, ← hn.got, h.wrote, h.got]
    rfl
  · rw [(hblank y).txSeq, (hblank y.peer).rxSeq]
    rfl

/-! ## A session after retries -/

/-- What holds after one octet holds after any number. -/
theorem deliver_replicate {P : OctetLine → Prop}
    (hstep : ∀ l, P l → P (l.step octetParty (.deliver x))) (h : P l) (k : Nat) :
    P (run (Link.step octetParty) l (List.replicate k (.deliver x))) := by
  apply Lib.run_invariant (P := fun _ a => a = .deliver x) _ h
  · exact Lib.meets_of_forall fun a ha => List.eq_of_mem_replicate ha
  · rintro l a hl rfl
    exact hstep l hl

/-- **A session after retries.** Two contexts are disconnected and between frames. Both users ask
for a session as often as they like, also in the middle of frames that arrive; octets are heard by
sides that have asked, and none is lost. As soon as nothing is in flight both sides are connected,
and what is written from then on is delivered once and in order. -/
theorem session_after_retries {node : Side → SFPcontext} (hnode : ∀ y, (node y).OnWire)
    (hfresh : ∀ y, (node y).ear = .fresh) (hstate : ∀ y, (node y).connectState = .disconnected)
    {first rest : List (Action Request UInt8)}
    (hfirst : Meets (Link.step octetParty) AsksOctets (Link.start node) first)
    (hquiet : ∀ y, (run (Link.step octetParty) (Link.start node) first).chan y = [])
    (hasked : ∃ y, ((run (Link.step octetParty) (Link.start node) first).node y).connectState
      ≠ .disconnected)
    (hrest : ∀ a ∈ rest, StreamingOctets a) (x : Side) :
    let l := run (Link.step octetParty) (Link.start node) (first ++ rest)
    (∀ y, (l.node y).connectState = .connected) ∧ l.got x.peer <+: l.wrote x ∧
      (l.chan x.peer = [] → l.got x.peer = l.wrote x) := by
  intro l
  obtain ⟨y, hy⟩ := hasked
  have hasking : Asking (run (Link.step octetParty) (Link.start node) first) :=
    Lib.run_invariant (fun _ _ h ha => h.step ha) (asking_start hnode hfresh hstate) hfirst
  have hsession : StreamsOn l := by
    show StreamsOn (run (Link.step octetParty) (Link.start node) (first ++ rest))
    rw [Lib.run_append]
    apply streamsOn_run (hasking.streamsOn _ hy) hrest
    intro z
    rw [Link.messages, hquiet]
    rfl
  obtain ⟨ps, hwrote, hnone⟩ := hsession.outstanding x
  refine ⟨hsession.connected, ?_, fun hchan => ?_⟩
  · rw [hwrote]
    exact List.prefix_append _ _
  · have hmessages : l.messages x.peer = [] := by
      rw [Link.messages, hchan]
      rfl
    rw [hwrote, hnone hmessages, List.append_nil]

end Contexts

section HeaderDefaults

attribute [local instance] headerDefaults

/-- The right side asks again in the middle of a frame. -/
def retryRun : List (Action Request UInt8) :=
  [.request .left .connect, .request .right .connect] ++ List.replicate 3 (.deliver .right)
    ++ [.request .right .connect]
    ++ ([.right, .left, .right, .left, .right] : List Side).flatMap
      fun x => List.replicate 15 (.deliver x)

theorem session_after_retries_once :
    let l := run (Link.step octetParty)
      (Link.start fun _ => SFPcontext.zero.initWith ⟨true, false, false⟩) (retryRun ++ crossingRun)
    (∀ y, (l.node y).connectState = .connected) ∧ l.got .right = l.wrote .left := by
  have hretries : Meets (Link.step octetParty) AsksOctets
      (Link.start fun _ => SFPcontext.zero.initWith ⟨true, false, false⟩) retryRun := by
    decide +kernel
  have hstreaming : ∀ a ∈ crossingRun, StreamingOctets a := by
    simp [crossingRun, StreamingOctets]
  obtain ⟨hconnected, -, hall⟩ := session_after_retries
    (fun _ => SFPcontext.zero.onWire_initWith rfl) (fun _ => rfl) (fun _ => rfl) hretries
    (by decide +kernel) ⟨.left, by decide +kernel⟩ hstreaming .left
  have hpeer : Side.left.peer = .right := rfl
  rw [hpeer] at hall
  exact ⟨hconnected, hall (by decide +kernel)⟩

end HeaderDefaults

end Libsfp
