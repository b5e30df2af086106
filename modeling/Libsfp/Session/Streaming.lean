import Libsfp.Session.OctetLine

/-!
# A Session over a Perfect Line

Two contexts in the middle of a session, and a line that loses nothing. However the octets of the
two directions interleave with the packets that both users write, what is in flight is what was
written and not handed on yet: fresh frames with consecutive labels. Nothing is asked for again and
nothing is repeated, and there is no bound on what may be outstanding: the history is never needed.
-/

namespace Libsfp

open Lib (Side Outcome Party Parcel Link Action Meets run)

/-! ## Frames in a row -/

section Endpoints

variable {α : Type*}

/-- The packets `ps` as fresh frames, labelled from `seq` on. -/
def usersFrom (seq : Nat) : List α → List (Frame α)
  | [] => []
  | p :: ps => .usr seq p :: usersFrom ((seq + 1) % seqRange) ps

theorem usersFrom_concat {seq : Nat} (hseq : seq < seqRange) (ps : List α) (p : α) :
    usersFrom seq (ps ++ [p]) = usersFrom seq ps ++ [.usr ((seq + ps.length) % seqRange) p] := by
  induction ps generalizing seq with
  | nil => simp [usersFrom, Nat.mod_eq_of_lt hseq]
  | cons q ps ih =>
    have hsum : seq + 1 + ps.length = seq + (ps.length + 1) := by omega
    rw [List.cons_append, usersFrom, usersFrom, ih (Nat.mod_lt _ (by decide)), Nat.mod_add_mod,
      hsum, List.length_cons, List.cons_append]

/-- Nothing in flight is nothing outstanding. -/
theorem usersFrom_eq_nil {seq : Nat} {ps : List α} (h : usersFrom seq ps = []) : ps = [] := by
  cases ps with
  | nil => rfl
  | cons p ps => exact absurd h (List.cons_ne_nil _ _)

/-- The direction from `x` to its peer: what is in flight is what is outstanding. -/
structure Streams (l : Net α) (x : Side) : Prop where
  connected : (l.node x).connectState = .connected
  rxSeq_lt : (l.node x).rxSeq < seqRange
  flight : ∃ ps, l.messages x.peer = usersFrom (l.node x.peer).rxSeq ps ∧
    l.wrote x = l.got x.peer ++ ps ∧
    (l.node x).txSeq = ((l.node x.peer).rxSeq + ps.length) % seqRange

variable {cap : Nat} {l : Net α}

/-- A packet is written. -/
theorem streams_write (h : ∀ x, Streams l x) (x : Side) (p : α) :
    ∀ y, Streams (l.step (endpointParty α cap) (.request x (.write p))) y := by
  have hacts := Link.acts_request (endpointParty α cap) l x (.write p)
  have hgot : (l.step (endpointParty α cap) (.request x (.write p))).got = l.got := by
    show Function.update l.got x (l.got x ++ []) = l.got
    rw [List.append_nil, Function.update_eq_self]
  obtain ⟨hwrote, hwrotePeer⟩ := Link.wrote_request (endpointParty α cap) l x (.write p)
  obtain ⟨ps, hmessages, hwritten, hseq⟩ := (h x).flight
  obtain ⟨qs, hmessages', hwritten', hseq'⟩ := (h x.peer).flight
  rw [Side.peer_peer] at hmessages' hwritten' hseq'
  refine Side.forall_of_peer x ⟨?_, ?_, ps ++ [p], ?_, ?_, ?_⟩ ⟨?_, ?_, qs, ?_, ?_, ?_⟩
  -- towards the peer
  · rw [hacts.node]
    exact (h x).connected
  · rw [hacts.node]
    exact (h x).rxSeq_lt
  · rw [hacts.messages_peer, hacts.node_peer, hmessages, usersFrom_concat (h x.peer).rxSeq_lt,
      ← hseq]
    rfl
  · rw [hwrote, hgot, hwritten, List.append_assoc]
    rfl
  · rw [hacts.node, hacts.node_peer]
    show ((l.node x).txSeq + 1) % seqRange = _
    rw [hseq, Nat.mod_add_mod, List.length_append, List.length_singleton, Nat.add_assoc]
  -- from the peer
  · rw [hacts.node_peer]
    exact (h x.peer).connected
  · rw [hacts.node_peer]
    exact (h x.peer).rxSeq_lt
  · rw [Side.peer_peer, hacts.messages, hacts.node]
    exact hmessages'
  · rw [Side.peer_peer, hwrotePeer, hgot]
    exact hwritten'
  · rw [Side.peer_peer, hacts.node_peer, hacts.node]
    exact hseq'

/-- A frame is delivered: it is the next one, and it is not answered. -/
theorem streams_deliver (h : ∀ x, Streams l x) (x : Side) :
    ∀ y, Streams (l.step (endpointParty α cap) (.deliver x)) y := by
  obtain ⟨ps, hmessages, hwritten, hseq⟩ := (h x).flight
  obtain ⟨qs, hmessages', hwritten', hseq'⟩ := (h x.peer).flight
  rw [Side.peer_peer] at hmessages' hwritten' hseq'
  cases qs with
  | nil => rwa [Link.deliver_of_messages_nil _ hmessages']
  | cons q qs =>
    rw [usersFrom] at hmessages'
    have hacts := Link.acts_deliver (endpointParty α cap) hmessages'
    obtain ⟨hgot, hgotPeer⟩ := Link.got_deliver (endpointParty α cap) hmessages'
    have hwrote := Link.wrote_deliver (endpointParty α cap) l x
    have hreact : (endpointParty α cap).hear (l.node x) (.usr (l.node x).rxSeq q)
        = ⟨{ l.node x with rxSeq := ((l.node x).rxSeq + 1) % seqRange }, [], [q]⟩ := by
      show ((l.node x).receiveUser true (l.node x).rxSeq q).outcome = _
      simp only [Endpoint.receiveUser, (h x).connected, ne_eq, not_true, if_false]
      rfl
    rw [hreact] at hacts hgot
    refine Side.forall_of_peer x ⟨?_, ?_, ps, ?_, ?_, ?_⟩ ⟨?_, ?_, qs, ?_, ?_, ?_⟩
    -- towards the peer
    · rw [hacts.node]
      exact (h x).connected
    · rw [hacts.node]
      exact Nat.mod_lt _ (by decide)
    · rw [hacts.messages_peer, hacts.node_peer, List.append_nil]
      exact hmessages
    · rw [hwrote, hgotPeer]
      exact hwritten
    · rw [hacts.node, hacts.node_peer]
      exact hseq
    -- from the peer
    · rw [hacts.node_peer]
      exact (h x.peer).connected
    · rw [hacts.node_peer]
      exact (h x.peer).rxSeq_lt
    · rw [Side.peer_peer, hacts.messages, hacts.node]
    · rw [Side.peer_peer, hwrote, hgot, hwritten', List.append_assoc]
      rfl
    · rw [Side.peer_peer, hacts.node_peer, hacts.node, hseq', Nat.mod_add_mod, List.length_cons]
      congr 1
      omega

end Endpoints

/-! ## Octets -/

section Contexts

variable [SfpConfig]

/-- Packets are written and octets delivered; nothing else happens. -/
def StreamingOctets : Action Request UInt8 → Prop
  | .request _ (.write _ _ _) => True
  | .deliver _ => True
  | _ => False

/-- The line is tidy and stands for a session without loss. -/
def StreamsOn (l : OctetLine) : Prop :=
  TidyLine l ∧ ∃ n, Refines l n ∧ ∀ x, Streams n x

theorem streamsOn_step {l : OctetLine} (h : StreamsOn l) {a : Action Request UInt8}
    (ha : StreamingOctets a) : StreamsOn (l.step octetParty a) := by
  obtain ⟨htidy, n, hn, hstreams⟩ := h
  cases a with
  | request x r =>
    cases r with
    | connect => exact ha.elim
    | write stack packet fits =>
      refine ⟨tidyLine_step htidy hn.onWire trivial, _,
        refines_request hn rfl (ear_write (hn.onWire x) stack packet fits), ?_⟩
      exact streams_write hstreams x packet
  | deliver x =>
    refine ⟨tidyLine_step htidy hn.onWire trivial, ?_⟩
    rcases refines_deliver hn x with hsame | hnext
    · exact ⟨n, hsame, hstreams⟩
    · exact ⟨_, hnext, streams_deliver hstreams x⟩
  | lose x i => exact ha.elim
  | corrupt x i octet => exact ha.elim

/-- A tidy channel leaves its receiver between frames. -/
theorem Tidy.run_hearOctet {s : Ear} {os : List UInt8} (h : Tidy s os) :
    run hearOctet s os = .fresh := by
  rcases h with ⟨rfl, rfl⟩ | hlast
  · rfl
  · obtain ⟨front, rfl⟩ := List.getLast?_eq_some_iff.mp hlast
    rw [Lib.run_append]
    simp [hearOctet]

/-- Behind a tidy channel a further `FLAG` closes nothing. -/
theorem framesHeard_of_tidy {s : Ear} {os : List UInt8} (h : Tidy s os) :
    framesHeard s (os ++ [sfpFlag]) = framesHeard s os := by
  rw [framesHeard_append, h.run_hearOctet]
  exact List.append_nil _

/-- Two connected contexts that expect each other's next label, with nothing in flight. -/
theorem streamsOn_start {node : Side → SFPcontext} (hnode : ∀ x, (node x).OnWire)
    (hfresh : ∀ x, (node x).ear = .fresh) (hstate : ∀ x, (node x).connectState = .connected)
    (hseq : ∀ x, (node x).tx.seq = (node x.peer).rx.seq) : StreamsOn (Link.start node) := by
  refine ⟨fun y => Or.inl ⟨rfl, hfresh y⟩, ?_⟩
  refine ⟨Link.start fun y => (node y).abs, ⟨hnode, fun _ => rfl, rfl, rfl, ?_⟩, ?_⟩
  · intro y
    show framesHeard (node y).ear [sfpFlag] = []
    rw [hfresh]
    rfl
  · intro y
    refine ⟨hstate y, (hnode y).between.idle.rxSeq_lt, [], rfl, rfl, ?_⟩
    show (node y).tx.seq.toNat = ((node y.peer).rx.seq.toNat + 0) % seqRange
    rw [hseq, Nat.add_zero, Nat.mod_eq_of_lt (hnode y.peer).between.idle.rxSeq_lt]

theorem streamsOn_run {l : OctetLine} (h : StreamsOn l) {as : List (Action Request UInt8)}
    (has : ∀ a ∈ as, StreamingOctets a) : StreamsOn (run (Link.step octetParty) l as) := by
  apply Lib.run_invariant (P := fun _ a => StreamingOctets a) _ h (Lib.meets_of_forall has)
  intro l a h ha
  exact streamsOn_step h ha

/-- What is outstanding is what is in flight. -/
theorem StreamsOn.flight {l : OctetLine} (h : StreamsOn l) (x : Side) :
    ∃ ps, framesHeard (l.node x.peer).ear (l.messages x.peer)
        = usersFrom (l.node x.peer).rx.seq.toNat ps ∧ l.wrote x = l.got x.peer ++ ps := by
  obtain ⟨htidy, n, hn, hstreams⟩ := h
  obtain ⟨ps, hmessages, hwrote, -⟩ := (hstreams x).flight
  rw [← hn.wrote, ← hn.got] at hwrote
  have hframes := hn.messages x.peer
  rw [framesHeard_of_tidy (htidy x.peer), hmessages, ← hn.abs] at hframes
  exact ⟨ps, hframes, hwrote⟩

/-- In a session both sides are connected. -/
theorem StreamsOn.connected {l : OctetLine} (h : StreamsOn l) (x : Side) :
    (l.node x).connectState = .connected := by
  obtain ⟨-, n, hn, hstreams⟩ := h
  have hstate := (hstreams x).connected
  rw [← hn.abs x] at hstate
  exact hstate

/-- Nothing is outstanding when nothing is in flight. -/
theorem StreamsOn.outstanding {l : OctetLine} (h : StreamsOn l) (x : Side) :
    ∃ ps, l.wrote x = l.got x.peer ++ ps ∧ (l.messages x.peer = [] → ps = []) := by
  obtain ⟨ps, hframes, hwrote⟩ := h.flight x
  refine ⟨ps, hwrote, fun hquiet => ?_⟩
  rw [hquiet] at hframes
  exact usersFrom_eq_nil hframes.symm

/-- **A session over a perfect line.** Two contexts are connected, each expects the label that the
other one sends next, their receivers are between frames and nothing is in flight. However the
packets that both users write interleave with the octets of both directions, the octets in flight
are the frames of the packets that were written and not delivered yet, in order and consecutively
labelled from the one expected, and nothing else; so when nothing is in flight, exactly what was
written was delivered. -/
theorem stream_octets {node : Side → SFPcontext} (hnode : ∀ x, (node x).OnWire)
    (hfresh : ∀ x, (node x).ear = .fresh) (hstate : ∀ x, (node x).connectState = .connected)
    (hseq : ∀ x, (node x).tx.seq = (node x.peer).rx.seq) {as : List (Action Request UInt8)}
    (has : ∀ a ∈ as, StreamingOctets a) (x : Side) :
    let l := run (Link.step octetParty) (Link.start node) as
    (∃ ps, framesHeard (l.node x.peer).ear (l.messages x.peer)
          = usersFrom (l.node x.peer).rx.seq.toNat ps ∧ l.wrote x = l.got x.peer ++ ps) ∧
      (l.chan x.peer = [] → l.got x.peer = l.wrote x) := by
  intro l
  have hrun : StreamsOn l := streamsOn_run (streamsOn_start hnode hfresh hstate hseq) has
  refine ⟨hrun.flight x, fun hquiet => ?_⟩
  obtain ⟨ps, hwrote, hnone⟩ := hrun.outstanding x
  have hmessages : l.messages x.peer = [] := by
    rw [Link.messages, hquiet]
    rfl
  rw [hwrote, hnone hmessages, List.append_nil]

end Contexts

section HeaderDefaults

attribute [local instance] headerDefaults

/-- Both sides write, then the frame of the left side arrives octet by octet. -/
def crossingRun : List (Action Request UInt8) :=
  [.request .left (.write (.replicate _ 0) [1] (by decide)),
    .request .right (.write (.replicate _ 0) [2] (by decide))] ++
  List.replicate 6 (.deliver .right)

theorem onWire_inSession : SFPcontext.zero.inSession.OnWire where
  between := SFPcontext.between_of_holds (SFPcontext.idle_inSession _)
    (SFPcontext.fresh_inSession SFPcontext.zero).holds
  deliver := rfl
  keeps := (onLine_inSession SFPcontext.zero).keeps

theorem stream_octets_crossing :
    let l := run (Link.step octetParty) (Link.start fun _ => SFPcontext.zero.inSession) crossingRun
    l.got .right = l.wrote .left := by
  have hstreaming : ∀ a ∈ crossingRun, StreamingOctets a := by
    simp [crossingRun, StreamingOctets]
  have hstream := stream_octets (fun _ => onWire_inSession) (fun _ => rfl) (fun _ => rfl)
    (fun _ => rfl) hstreaming .left
  exact hstream.2 (by decide +kernel)

end HeaderDefaults

end Libsfp
