import Libsfp.Session.Window

/-!
# Reliable Delivery over a Lossy Line

The window invariant, carried over to contexts that exchange octets.

1. **No aliasing**: with a history of at most 64 packets, as long as the underrun branch is not
   taken, every accepted frame carries the next packet, through any number of wraps of the sequence
   number. A longer history may hold two packets with one label, and a `NAK` is then answered from
   the wrong one.
2. **Delivery in order** within the history window holds under a condition on the `NAK`s: exactly
   one packet of the history has the label asked for. A second `NAK` for a gap that is long repaired
   finds the packet gone, and the underrun branch relabels packets the peer already has.
-/

namespace Libsfp

open Lib (Side Outcome Party Parcel Link Action Abstraction Meets run)

variable [SfpConfig]

/-- Two contexts and the octets between them. -/
abbrev Line := Link SFPcontext (List UInt8) (List UInt8)

/-- The fields of an endpoint are those of its context. -/
theorem connectState_link (l : Line) (x : Side) :
    ((sfpAbstraction.link l).node x).connectState = (l.node x).connectState := rfl

theorem txSeq_link (l : Line) (x : Side) :
    ((sfpAbstraction.link l).node x).txSeq = (l.node x).tx.seq.toNat := rfl

theorem rxSeq_link (l : Line) (x : Side) :
    ((sfpAbstraction.link l).node x).rxSeq = (l.node x).rx.seq.toNat := rfl

theorem history_link (l : Line) (x : Side) : ((sfpAbstraction.link l).node x).history
    = (l.node x).tx.history.entries.map SFPpacket.octets := rfl

/-- Two connected contexts with initial sequence numbers and empty histories. -/
def sessionStart (memory : Side → SFPcontext) : Line :=
  Link.start fun x => (memory x).inSession

/-- A line between two contexts in a session. -/
theorem goodLink_sessionStart (memory : Side → SFPcontext) :
    sfpAbstraction.GoodLink (sessionStart memory) where
  node := fun x => onLine_inSession (memory x)
  chan := by simp [sessionStart, Link.start]

/-- Their endpoints begin at label 0 with nothing to be sent again. -/
theorem link_sessionStart (memory : Side → SFPcontext) :
    sfpAbstraction.link (sessionStart memory) = Link.start fun _ => ⟨.connected, 0, 0, []⟩ :=
  congrArg Link.start (funext fun x => (memory x).abs_inSession)

/-- What a lossy line may do during a session: writes, deliveries, losses, and replacements of
frames by octets in which the receiver finds no good frame. -/
def LossyLine : Action Request (List UInt8) → Prop
  | .request _ .connect => False
  | .corrupt _ _ segment => sfpFlag ∉ segment ∧ (segmentVerdict segment).toFrame.IsNoise
  | _ => True

instance : DecidablePred LossyLine
  | .request _ .connect => isFalse id
  | .request _ (.write _ _ _) => isTrue trivial
  | .deliver _ => isTrue trivial
  | .lose _ _ => isTrue trivial
  | .corrupt _ _ segment =>
    inferInstanceAs (Decidable (sfpFlag ∉ segment ∧ (segmentVerdict segment).toFrame.IsNoise))

/-- The step does not take the history-underrun branch of `sfpTransmitHistoryFromSeq`. -/
def WithinHistory (l : Line) : Action Request (List UInt8) → Prop
  | .deliver x =>
    ∀ p ∈ (l.chan x).head?, ¬ (l.node x).abs.Underruns (segmentVerdict p.message).toFrame
  | _ => True

/-- If the step retransmits, then exactly one packet of the history has the label asked for. -/
def ServedLine (l : Line) : Action Request (List UInt8) → Prop
  | .deliver x => ∀ p ∈ (l.chan x).head?, (l.node x).abs.Serves (segmentVerdict p.message).toFrame
  | _ => True

/-- Octets without a good frame are no frame, -/
theorem LossyLine.goodAction {a : Action Request (List UInt8)} (h : LossyLine a) :
    sfpAbstraction.GoodAction a := by
  cases a with
  | corrupt x i segment => exact h.1
  | _ => trivial

/-- so they are noise to the endpoint. -/
theorem LossyLine.lossyAction {a : Action Request (List UInt8)} (h : LossyLine a) :
    LossyAction (sfpAbstraction.action a) := by
  cases a with
  | request x r =>
    cases r with
    | connect => exact h
    | write stack packet fits => trivial
  | corrupt x i segment => exact h.2
  | _ => trivial

/-- The conditions are the same on the line and on its endpoints: no underrun, -/
theorem underrunFree_iff {l : Line} {a : Action Request (List UInt8)} :
    UnderrunFree (sfpAbstraction.link l) (sfpAbstraction.action a) ↔ WithinHistory l a := by
  cases a with
  | deliver x =>
    simp only [UnderrunFree, WithinHistory, Abstraction.link, Abstraction.action, List.head?_map]
    cases (l.chan x).head? <;> simp [Parcel.map, sfpAbstraction]
  | request x r => exact Iff.rfl
  | lose x i => exact Iff.rfl
  | corrupt x i segment => exact Iff.rfl

/-- and no `NAK` that is answered from the wrong place. -/
theorem servedStep_iff {l : Line} {a : Action Request (List UInt8)} :
    ServedStep (sfpAbstraction.link l) (sfpAbstraction.action a) ↔ ServedLine l a := by
  cases a with
  | deliver x =>
    simp only [ServedStep, ServedLine, Abstraction.link, Abstraction.action, List.head?_map]
    cases (l.chan x).head? <;> simp [Parcel.map, sfpAbstraction]
  | request x r => exact Iff.rfl
  | lose x i => exact Iff.rfl
  | corrupt x i segment => exact Iff.rfl

/-- The invariant holds before anything was written. -/
theorem established_sessionStart (memory : Side → SFPcontext) :
    Established sfpConfigHistoryCapacity (sfpAbstraction.link (sessionStart memory)) := by
  rw [link_sessionStart]
  exact Established.start _ _

/-- Runs that stay within the history keep the session established. -/
theorem established_run (hcap : sfpConfigHistoryCapacity ≤ seqRange) (memory : Side → SFPcontext)
    {as : List (Action Request (List UInt8))}
    (has : Meets (Link.step sfpParty)
      (fun l a => LossyLine a ∧ WithinHistory l a ∧ ∀ x, l.outstanding x ≤ seqRange)
      (sessionStart memory) as) :
    Established sfpConfigHistoryCapacity
      (sfpAbstraction.link (run (Link.step sfpParty) (sessionStart memory) as)) := by
  have hgood := goodLink_sessionStart memory
  have hactions : Meets (Link.step sfpParty) (fun _ a => sfpAbstraction.GoodAction a)
      (sessionStart memory) as :=
    has.mono fun _ _ h => h.1.goodAction
  -- the invariant is one of the endpoints
  rw [sfpAbstraction.link_run hgood hactions]
  apply (established_sessionStart memory).run_underrunFree hcap
  apply sfpAbstraction.link_meets _ hgood hactions has
  intro l a _ _ h
  exact ⟨h.1.lossyAction, underrunFree_iff.mpr h.2.1, h.2.2⟩

/-- **No sequence-number aliasing.** With a history of at most 64 packets, in every run without
history underrun and with at most 64 packets on the way, the accepted frames carry the packets
number 0, 1, 2, … in the order in which the peer wrote them: what was delivered is a prefix of what
was written. The positions that are compared are those of the packets: the history is the end of
what was written, and a frame in flight carries the packet at its position. -/
theorem accepted_in_order (hcap : sfpConfigHistoryCapacity ≤ seqRange)
    (memory : Side → SFPcontext) {as : List (Action Request (List UInt8))}
    (has : Meets (Link.step sfpParty)
      (fun l a => LossyLine a ∧ WithinHistory l a ∧ ∀ x, l.outstanding x ≤ seqRange)
      (sessionStart memory) as) (x : Side) :
    let l := run (Link.step sfpParty) (sessionStart memory) as
    l.took x = List.range (l.got x).length ∧ l.got x <+: l.wrote x.peer ∧
      (l.node x).tx.history.entries.map SFPpacket.octets <:+ l.wrote x ∧
      ∀ p ∈ l.chan x, ∀ seq packet, (segmentVerdict p.message).toFrame.user? = some (seq, packet) →
        (l.wrote x.peer)[p.pos]? = some packet := by
  have hestablished := established_run hcap memory has
  have hwindow := hestablished.incoming x
  refine ⟨hwindow.took, hwindow.got, (hestablished.window x).sends.history, ?_⟩
  -- what is in flight carries the packet at its position
  intro p hp seq packet hpacket
  exact ((hwindow.sound (p.map sfpAbstraction.message) (List.mem_map_of_mem hp)).user seq packet
    hpacket).2

/-- **Delivery in order within the history window.** With at most a history's worth of packets on
the way, what is delivered is a prefix of what was written in every run in which each `NAK` that is
answered asks for the label of exactly one packet of the history, and no more than 64 packets are
on the way. -/
theorem delivered_in_order (memory : Side → SFPcontext) {as : List (Action Request (List UInt8))}
    (has : Meets (Link.step sfpParty)
      (fun l a => LossyLine a ∧ (∀ x, l.outstanding x ≤ sfpConfigHistoryCapacity) ∧
        ServedLine l a ∧ ∀ x, l.outstanding x ≤ seqRange)
      (sessionStart memory) as) (x : Side) :
    let l := run (Link.step sfpParty) (sessionStart memory) as
    l.got x <+: l.wrote x.peer := by
  intro l
  have hgood := goodLink_sessionStart memory
  have hactions : Meets (Link.step sfpParty) (fun _ a => sfpAbstraction.GoodAction a)
      (sessionStart memory) as :=
    has.mono fun _ _ h => h.1.goodAction
  have hestablished : Established sfpConfigHistoryCapacity (sfpAbstraction.link l) := by
    rw [sfpAbstraction.link_run hgood hactions]
    apply (established_sessionStart memory).run
    -- the conditions are those of the endpoints, step by step
    apply sfpAbstraction.link_meets _ hgood hactions has
    intro l a _ _ h
    exact ⟨h.1.lossyAction, servedStep_iff.mpr h.2.2.1, h.2.2.2⟩
  exact (hestablished.incoming x).got

end Libsfp

namespace Libsfp

open Lib (Side Outcome Party Parcel Link Action Abstraction Meets run)

/-! ## A late request -/

section HeaderDefaults

attribute [local instance] headerDefaults

/-- A packet of one octet, at the default sizes. -/
def writeOctet (x : Side) (octet : UInt8) : Action Request (List UInt8) :=
  .request x (.write (.replicate _ 0) [octet] (show 3 ≤ 256 by decide))

/-- The first packet of two is lost; the second one provokes a `NAK`, and both are retransmitted. -/
def repairedRun : List (Action Request (List UInt8)) :=
  [writeOctet .left 0, writeOctet .left 1, .lose .right 0, .deliver .right, .deliver .left,
    .deliver .right, .deliver .right]

/-- The run loses a packet and repairs it, within the history. -/
theorem meets_repairedRun :
    Meets (Link.step sfpParty) (fun l a => LossyLine a ∧ WithinHistory l a ∧ ServedLine l a ∧
      ∀ x, l.outstanding x ≤ 2) (sessionStart fun _ => SFPcontext.zero) repairedRun := by
  have hgood := goodLink_sessionStart fun _ => SFPcontext.zero
  have hlossy : ∀ a ∈ repairedRun, LossyLine a := by decide +kernel
  have hactions : Meets (Link.step sfpParty) (fun _ a => sfpAbstraction.GoodAction a)
      (sessionStart fun _ => SFPcontext.zero) repairedRun :=
    Lib.meets_of_forall fun a ha => (hlossy a ha).goodAction
  apply (Lib.meets_of_forall hlossy).and
  apply sfpAbstraction.meets_of_link
    (fun l a => UnderrunFree l a ∧ ServedStep l a ∧ ∀ x, l.outstanding x ≤ 2) _ hgood hactions
  · decide +kernel
  · intro l a _ _ h
    exact ⟨underrunFree_iff.mp h.1, servedStep_iff.mp h.2.1, h.2.2⟩

/-- What the run delivers. -/
theorem accepted_in_order_repaired :
    let l := run (Link.step sfpParty) (sessionStart fun _ => SFPcontext.zero) repairedRun
    l.took .right = List.range (l.got .right).length ∧ l.got .right <+: l.wrote .left ∧
      (l.node .right).tx.history.entries.map SFPpacket.octets <:+ l.wrote .right ∧
      ∀ p ∈ l.chan .right, ∀ seq packet,
        (segmentVerdict p.message).toFrame.user? = some (seq, packet) →
          (l.wrote .left)[p.pos]? = some packet := by
  have hmeets : Meets (Link.step sfpParty)
      (fun l a => LossyLine a ∧ WithinHistory l a ∧ ∀ x, l.outstanding x ≤ seqRange)
      (sessionStart fun _ => SFPcontext.zero) repairedRun :=
    meets_repairedRun.mono fun l a h =>
      ⟨h.1, h.2.1, fun x => Nat.le_trans (h.2.2.2 x) (by decide)⟩
  exact accepted_in_order (by decide) (fun _ => SFPcontext.zero) hmeets .right

theorem delivered_in_order_repaired :
    let l := run (Link.step sfpParty) (sessionStart fun _ => SFPcontext.zero) repairedRun
    l.got .right <+: l.wrote .left := by
  have hmeets : Meets (Link.step sfpParty)
      (fun l a => LossyLine a ∧ (∀ x, l.outstanding x ≤ sfpConfigHistoryCapacity) ∧
        ServedLine l a ∧ ∀ x, l.outstanding x ≤ seqRange)
      (sessionStart fun _ => SFPcontext.zero) repairedRun :=
    meets_repairedRun.mono fun l a h =>
      ⟨h.1, fun x => Nat.le_trans (h.2.2.2 x) (by decide), h.2.2.1,
        fun x => Nat.le_trans (h.2.2.2 x) (by decide)⟩
  exact delivered_in_order (fun _ => SFPcontext.zero) hmeets .right

/-- The first packet of three is lost, so the other two provoke a `NAK` each. The first one repairs
the gap; the second one is delayed until eight more packets went through. Then one more is written
and lost in the relabelled history. -/
def lateNakRun : List (Action Request (List UInt8)) :=
  [writeOctet .left 0, writeOctet .left 1, writeOctet .left 2, .lose .right 0, .deliver .right,
    .deliver .right, .deliver .left, .deliver .right, .deliver .right, .deliver .right] ++
  [3, 4, 5, 6, 7, 8, 9, 10].flatMap (fun octet => [writeOctet .left octet, .deliver .right]) ++
  [.deliver .left] ++ List.replicate 8 (.deliver .right) ++
  [writeOctet .left 11, .deliver .right, .deliver .left, .deliver .right]

/-- Never more than a history's worth of packets is on the way, and yet the twelfth packet handed
to the user is the fifth one written. -/
theorem late_nak_breaks_order :
    let start := sessionStart fun _ => SFPcontext.zero
    let stop := run (Link.step sfpParty) start lateNakRun
    Meets (Link.step sfpParty)
        (fun l a => LossyLine a ∧ ∀ x, l.outstanding x ≤ sfpConfigHistoryCapacity)
        start lateNakRun ∧
      (∀ x, stop.outstanding x ≤ sfpConfigHistoryCapacity) ∧
      ¬ stop.got .right <+: stop.wrote .left := by
  have hgood := goodLink_sessionStart fun _ => SFPcontext.zero
  have hlossy : ∀ a ∈ lateNakRun, LossyLine a := by decide +kernel
  have hactions : Meets (Link.step sfpParty) (fun _ a => sfpAbstraction.GoodAction a)
      (sessionStart fun _ => SFPcontext.zero) lateNakRun :=
    Lib.meets_of_forall fun a ha => (hlossy a ha).goodAction
  -- the rest is the run of the endpoints
  have hrun := sfpAbstraction.link_run hgood hactions
  have hfew : Meets (Link.step sfpParty)
      (fun (l : Line) _ => ∀ x, l.outstanding x ≤ sfpConfigHistoryCapacity)
      (sessionStart fun _ => SFPcontext.zero) lateNakRun := by
    apply sfpAbstraction.meets_of_link
      (fun l _ => ∀ x, l.outstanding x ≤ sfpConfigHistoryCapacity) _ hgood hactions
    · decide +kernel
    · exact fun l a _ _ h => h
  refine ⟨(Lib.meets_of_forall hlossy).and hfew, ?_, ?_⟩
  · intro x
    rw [← sfpAbstraction.outstanding_link, hrun]
    cases x <;> decide +kernel
  · rw [← sfpAbstraction.got_link, ← sfpAbstraction.wrote_link, hrun]
    decide +kernel

end HeaderDefaults

/-! ## A history longer than the range of labels -/

section LongHistory

/-- A build with a history of 128 packets. -/
@[reducible] def longHistory : SfpConfig := { headerDefaults with
  historyCapacity := 128
  historyCapacity_pos := by decide }

attribute [local instance] longHistory

theorem three_le_longHistory : 3 ≤ longHistory.maxPacketSize := by decide

/-- A packet of one octet, written in that build. -/
def writeLong (x : Side) (octet : UInt8) : Action Request (List UInt8) :=
  .request x (.write (.replicate _ 0) [octet] three_le_longHistory)

/-- 65 packets go through, the next one is lost, and the one after it provokes a `NAK` for label 1.
Two packets of the history have that label, and the burst starts with the older one. -/
def wrappedRun : List (Action Request (List UInt8)) :=
  (List.range 65).flatMap (fun n => [writeLong .left (.ofNat n), .deliver .right]) ++
  [writeLong .left 65, .lose .right 0, writeLong .left 66, .deliver .right, .deliver .left,
    .deliver .right]

/-- Nothing underruns, at most two packets are on the way, and the second packet written is
accepted once more as number 65. -/
theorem long_history_aliases :
    let start := sessionStart fun _ => SFPcontext.zero
    let stop := run (Link.step sfpParty) start wrappedRun
    Meets (Link.step sfpParty)
        (fun l a => LossyLine a ∧ WithinHistory l a ∧ ∀ x, l.outstanding x ≤ seqRange)
        start wrappedRun ∧
      stop.took .right ≠ List.range (stop.got .right).length ∧
      ¬ stop.got .right <+: stop.wrote .left := by
  have hgood := goodLink_sessionStart fun _ => SFPcontext.zero
  have hlossy : ∀ a ∈ wrappedRun, LossyLine a := by decide +kernel
  have hactions : Meets (Link.step sfpParty) (fun _ a => sfpAbstraction.GoodAction a)
      (sessionStart fun _ => SFPcontext.zero) wrappedRun :=
    Lib.meets_of_forall fun a ha => (hlossy a ha).goodAction
  have hrun := sfpAbstraction.link_run hgood hactions
  refine ⟨(Lib.meets_of_forall hlossy).and ?_, ?_, ?_⟩
  · apply sfpAbstraction.meets_of_link
      (fun l a => UnderrunFree l a ∧ ∀ x, l.outstanding x ≤ seqRange) _ hgood hactions
    · decide +kernel
    · exact fun l a _ _ h => ⟨underrunFree_iff.mp h.1, h.2⟩
  · rw [← sfpAbstraction.took_link, ← sfpAbstraction.got_link, hrun]
    decide +kernel
  · rw [← sfpAbstraction.got_link, ← sfpAbstraction.wrote_link, hrun]
    decide +kernel

end LongHistory

end Libsfp
