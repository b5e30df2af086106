import Libsfp.Session.Handshake
import Libsfp.Session.Reliable

/-!
# Exactly-Once Delivery over a Perfect Link

The phases of a handshake, carried over to contexts that exchange octets: what the connecting side
writes is delivered once and in order, provided that a `SYN1` always makes it replay what its peer
may have missed. The second `SYN1` that an early packet provokes can arrive so late that the
beginning of the session has left the history.
-/

namespace Libsfp

open Lib (Side Outcome Party Parcel Link Action Abstraction Meets run stamp)

variable [SfpConfig]

/-! ## Lines -/

/-- Two contexts just after `sfpInit`. -/
def lineStart (memory : Side → SFPcontext) : Line :=
  Link.start fun x => (memory x).setUp

/-- Two contexts that were set up can be put on a line. -/
theorem goodLink_lineStart (memory : Side → SFPcontext) :
    sfpAbstraction.GoodLink (lineStart memory) where
  node := fun x => onLine_setUp (memory x)
  chan := by simp [lineStart, Link.start]

/-- The endpoints of two initialized contexts. -/
theorem link_lineStart (memory : Side → SFPcontext) :
    sfpAbstraction.link (lineStart memory) = Link.start fun x =>
      .init ((memory x).tx.history.entries.map SFPpacket.octets) := rfl

/-- Only `x` calls `sfpWritePacket`, nothing is lost, nobody calls `sfpConnect` again. -/
def OneWriterLine (x : Side) : Action Request (List UInt8) → Prop
  | .request y (.write _ _ _) => y = x
  | .deliver _ => True
  | _ => False

/-- At most `SFP_CONFIG_HISTORY_CAPACITY` packets are written before the writer is connected. -/
def EarlyFitsLine (x : Side) (l : Line) : Action Request (List UInt8) → Prop
  | .request _ (.write _ _ _) =>
    (l.node x).connectState ≠ .connected → (l.wrote x).length < sfpConfigHistoryCapacity
  | _ => True

/-- If the step takes in a `SYN1`, the replay is what the peer may have missed: in `SENT_SYN0` the
label is not the initial one again with packets written, and later, if the label is not the initial
one, the history has exactly one packet labelled with it. -/
def WholeReplayLine (l : Line) : Action Request (List UInt8) → Prop
  | .deliver x =>
    ∀ p ∈ (l.chan x).head?, (l.node x).abs.ReplaysWhole (segmentVerdict p.message).toFrame
  | _ => True

/-- The conditions on the frames and on the calls are the same: who writes, -/
theorem oneWriter_iff {x : Side} {a : Action Request (List UInt8)} :
    OneWriter x (sfpAbstraction.action a) ↔ OneWriterLine x a := by
  cases a with
  | request y r => cases r <;> exact Iff.rfl
  | deliver y => exact Iff.rfl
  | lose y i => exact Iff.rfl
  | corrupt y i segment => exact Iff.rfl

/-- On a fixed run, seen as a run of endpoints, the condition can be checked. -/
theorem oneWriter_of_all {x : Side} {as : List (Action Request (List UInt8))}
    (h : (as.map sfpAbstraction.action).all fun a => decide (OneWriter x a)) :
    ∀ a ∈ as, OneWriterLine x a := by
  intro a ha
  rw [List.all_eq_true] at h
  exact oneWriter_iff.mp (of_decide_eq_true (h _ (List.mem_map_of_mem ha)))

/-- how much of it before the handshake is over, -/
theorem earlyFits_iff {x : Side} {l : Line} {a : Action Request (List UInt8)} :
    EarlyFits sfpConfigHistoryCapacity x (sfpAbstraction.link l) (sfpAbstraction.action a) ↔
      EarlyFitsLine x l a := by
  cases a with
  | request y r => cases r <;> exact Iff.rfl
  | deliver y => exact Iff.rfl
  | lose y i => exact Iff.rfl
  | corrupt y i segment => exact Iff.rfl

/-- and that a late replay finds its history whole. -/
theorem wholeReplay_iff {l : Line} {a : Action Request (List UInt8)} :
    WholeReplay (sfpAbstraction.link l) (sfpAbstraction.action a) ↔ WholeReplayLine l a := by
  cases a with
  | deliver x =>
    simp only [WholeReplay, WholeReplayLine, Abstraction.link, Abstraction.action, List.head?_map]
    cases (l.chan x).head? <;> simp [Parcel.map, sfpAbstraction]
  | request x r => exact Iff.rfl
  | lose x i => exact Iff.rfl
  | corrupt x i segment => exact Iff.rfl

/-- Nothing is damaged, -/
theorem OneWriterLine.goodAction {x : Side} {a : Action Request (List UInt8)}
    (h : OneWriterLine x a) : sfpAbstraction.GoodAction a := by
  cases a with
  | corrupt y i segment => exact h.elim
  | _ => trivial

/-- and nothing is lost. -/
theorem OneWriterLine.lossless {x : Side} {a : Action Request (List UInt8)}
    (h : OneWriterLine x a) : a.Lossless := by
  cases a with
  | request y r => trivial
  | deliver y => trivial
  | lose y i => exact h.elim
  | corrupt y i segment => exact h.elim

/-- **Exactly-once delivery over a perfect link.** One side connects and writes. In every run in
which each `SYN1` makes the writer replay what its peer may have missed, what is delivered is a
prefix of what was written, and all of it once the link is connected and quiet. -/
theorem delivered_exactly_once (memory : Side → SFPcontext) (x : Side)
    {as : List (Action Request (List UInt8))}
    (has : Meets (Link.step sfpParty)
      (fun l a => OneWriterLine x a ∧ EarlyFitsLine x l a ∧ WholeReplayLine l a)
      ((lineStart memory).step sfpParty (.request x .connect)) as) :
    let l := run (Link.step sfpParty)
      ((lineStart memory).step sfpParty (.request x .connect)) as
    l.got x.peer <+: l.wrote x ∧
      ((∀ y, l.chan y = []) → (∀ y, (l.node y).connectState = .connected) →
        l.got x.peer = l.wrote x) := by
  have hstart := goodLink_lineStart memory
  have hgood : sfpAbstraction.GoodLink ((lineStart memory).step sfpParty (.request x .connect)) :=
    sfpAbstraction.good_step hstart trivial
  have hactions : Meets (Link.step sfpParty) (fun _ a => sfpAbstraction.GoodAction a)
      ((lineStart memory).step sfpParty (.request x .connect)) as := by
    exact has.mono fun _ _ h => h.1.goodAction
  have hopening : OpeningOn sfpConfigHistoryCapacity x (sfpAbstraction.link
      (run (Link.step sfpParty) ((lineStart memory).step sfpParty (.request x .connect)) as)) := by
    rw [sfpAbstraction.link_run hgood hactions]
    -- the phases of the handshake, on the endpoints
    apply openingOn_run
    · rw [sfpAbstraction.link_step hstart, link_lineStart]
      exact openingOn_connect _ x _
    · apply sfpAbstraction.link_meets _ hgood hactions has
      intro l a _ _ h
      exact ⟨oneWriter_iff.mpr h.1, earlyFits_iff.mpr h.2.1, wholeReplay_iff.mpr h.2.2⟩
  refine ⟨hopening.got_prefix, ?_⟩
  intro hempty hconnected
  -- nothing is on its way to the peer, on the endpoints too
  have hforth : (sfpAbstraction.link (run (Link.step sfpParty)
      ((lineStart memory).step sfpParty (.request x .connect)) as)).chan x.peer = [] :=
    sfpAbstraction.chan_link_eq_nil.mpr (hempty x.peer)
  rw [OpeningOn, hforth] at hopening
  exact hopening.got_all (hconnected x.peer)

end Libsfp

namespace Libsfp

open Lib (Side Outcome Party Parcel Link Action Meets run stamp)

section HeaderDefaults

attribute [local instance] headerDefaults

/-- The line on which the left side has just asked for a session. -/
def askedLine : Line :=
  (lineStart fun _ => SFPcontext.zero).step sfpParty (.request .left .connect)

/-- The line on which a session was asked for. -/
theorem goodLink_askedLine : sfpAbstraction.GoodLink askedLine :=
  sfpAbstraction.good_step (goodLink_lineStart fun _ => SFPcontext.zero) trivial

/-- A packet is written early and provokes a second `SYN1`. -/
def earlyRun : List (Action Request (List UInt8)) :=
  [writeOctet .left 0, .deliver .right, .deliver .right, .deliver .left, .deliver .left] ++
  List.replicate 4 (.deliver .right)

/-- Only the left side acts as a user in the run. -/
theorem oneWriter_earlyRun : ∀ a ∈ earlyRun, OneWriterLine .left a :=
  oneWriter_of_all (by decide +kernel)

/-- After that run the link is connected and quiet. -/
theorem quiet_earlyRun :
    let l := run (Link.step sfpParty) askedLine earlyRun
    (∀ y, l.chan y = []) ∧ ∀ y, (l.node y).connectState = .connected := by
  have hrun := sfpAbstraction.link_run goodLink_askedLine
    (Lib.meets_of_forall fun a ha => (oneWriter_earlyRun a ha).goodAction)
  refine ⟨?_, ?_⟩
  · intro y
    rw [← sfpAbstraction.chan_link_eq_nil, hrun]
    cases y <;> decide +kernel
  · intro y
    rw [← connectState_link, hrun]
    cases y <;> decide +kernel

/-- One early packet, and one behind the handshake. -/
theorem delivered_exactly_once_early :
    let l := run (Link.step sfpParty) askedLine earlyRun
    l.got .right <+: l.wrote .left ∧ l.got .right = l.wrote .left := by
  have hactions : Meets (Link.step sfpParty) (fun _ a => sfpAbstraction.GoodAction a)
      askedLine earlyRun :=
    Lib.meets_of_forall fun a ha => (oneWriter_earlyRun a ha).goodAction
  have hmeets : Meets (Link.step sfpParty)
      (fun l a => OneWriterLine .left a ∧ EarlyFitsLine .left l a ∧ WholeReplayLine l a)
      askedLine earlyRun := by
    apply (Lib.meets_of_forall oneWriter_earlyRun).and
    apply sfpAbstraction.meets_of_link
      (fun l a => EarlyFits sfpConfigHistoryCapacity .left l a ∧ WholeReplay l a) _
      goodLink_askedLine hactions
    · decide +kernel
    · intro l a _ _ h
      exact ⟨earlyFits_iff.mp h.1, wholeReplay_iff.mp h.2⟩
  have honce := delivered_exactly_once (fun _ => SFPcontext.zero) .left hmeets
  exact ⟨honce.1, honce.2 quiet_earlyRun.1 quiet_earlyRun.2⟩

/-- One packet is written early and provokes a second `SYN1`. By the time it arrives the writer is
connected and has written eight more packets, so packet 0 is out of its history: the replay gives
the wrong labels, and the next packet goes out under a label the receiver is past. -/
def lateSyn1Run : List (Action Request (List UInt8)) :=
  [writeOctet .left 0, .deliver .right, .deliver .right, .deliver .left] ++
  [1, 2, 3, 4, 5, 6, 7, 8].map (writeOctet .left) ++
  [.deliver .left] ++ List.replicate 19 (.deliver .right) ++
  [writeOctet .left 9, .deliver .right, .deliver .left]

/-- The link is connected and quiet, and the tenth packet was not delivered. -/
theorem late_syn1_loses_packet :
    let l := run (Link.step sfpParty) askedLine lateSyn1Run
    Meets (Link.step sfpParty) (fun l a => OneWriterLine .left a ∧ EarlyFitsLine .left l a)
        askedLine lateSyn1Run ∧
      (∀ y, l.chan y = []) ∧ (∀ y, (l.node y).connectState = .connected) ∧
      l.got .right ≠ l.wrote .left := by
  have hwriter : ∀ a ∈ lateSyn1Run, OneWriterLine .left a := oneWriter_of_all (by decide +kernel)
  have hactions : Meets (Link.step sfpParty) (fun _ a => sfpAbstraction.GoodAction a)
      askedLine lateSyn1Run :=
    Lib.meets_of_forall fun a ha => (hwriter a ha).goodAction
  have hrun := sfpAbstraction.link_run goodLink_askedLine hactions
  refine ⟨(Lib.meets_of_forall hwriter).and ?_, ?_, ?_, ?_⟩
  · apply sfpAbstraction.meets_of_link
      (fun l a => EarlyFits sfpConfigHistoryCapacity .left l a) _ goodLink_askedLine hactions
    · decide +kernel
    · exact fun l a _ _ h => earlyFits_iff.mp h
  · intro y
    rw [← sfpAbstraction.chan_link_eq_nil, hrun]
    cases y <;> decide +kernel
  · intro y
    rw [← connectState_link, hrun]
    cases y <;> decide +kernel
  · rw [← sfpAbstraction.got_link, ← sfpAbstraction.wrote_link, hrun]
    decide +kernel

end HeaderDefaults

end Libsfp
