import Libsfp.Asio.Duplex
import Libsfp.Session.Asking

/-!
# Two Streams Deliver Once

What the library is for, from `async_write` to `async_read`: two streams on a pipe that loses
nothing deliver every message of nonzero length exactly once and in order. One thing is asked of
the users: no packet may be written before the frames of the handshakes have been heard once. This
is what the settle phase of `async_handshake` waits for.

Up to that point the line is one on which sessions are asked for (`Asking`), and when nothing is in
flight a session has begun. From then on the line is one of a session without loss (`StreamsOn`).
-/

namespace Libsfp.Asio

open Lib (Side Link Meets run)

section Contexts

variable [SfpConfig]

/-! ## Two streams -/

theorem Stream.step_failed {s : Stream} (h : s.reading = .failed) (a : Stream.Action) :
    (s.step a).reading = .failed := by
  cases a with
  | readDone octets =>
    simp only [step, readStep, h]
    split <;> exact h
  | writeDone => simp only [step, writeStep, h]
  | settleTimeout transferred => simp only [step, timeoutStep, h]
  | dispatchWrite i =>
    simp only [step]
    split
    · rw [if_neg (by simp [h, Reading.shaken])]
      exact h
    · exact h
  | writeOpDone =>
    simp only [step]
    split
    · rw [if_neg (by simp [h, Reading.shaken])]
      exact h
    · exact h
  | fails => rfl
  | asyncHandshake | asyncRead | asyncWrite | dispatchRead =>
    rw [step, if_neg (by simp [h, Reading.shaken])]
    exact h

namespace Duplex

/-- An operation has completed with an error. -/
def Failed (d : Duplex) : Prop := ∃ x, (d.stream x).reading = .failed

theorem Failed.step {d : Duplex} (h : d.Failed) (p : Side × Stream.Action) : (d.step p).Failed := by
  obtain ⟨x, a⟩ := p
  obtain ⟨y, hy⟩ := h
  refine ⟨y, ?_⟩
  rcases y.eq_or_eq_peer x with rfl | rfl
  · rw [stream_step]
    exact Stream.step_failed hy a
  · rwa [stream_step_peer]

/-- A step of the handshake phase: no packet is written. -/
def Handshaking (d : Duplex) (p : Side × Stream.Action) : Prop :=
  d.Allowed p ∧ (d.stream p.1).dispatches p.2 = []

instance (d : Duplex) (p : Side × Stream.Action) : Decidable (d.Handshaking p) :=
  inferInstanceAs (Decidable (_ ∧ _))

/-- All that was written was read, and delivered to the contexts. -/
def Settled (d : Duplex) : Prop :=
  ∀ x, (d.stream x).received = (d.stream x.peer).offered ∧ (d.stream x).readBuffer = []

instance (d : Duplex) : Decidable d.Settled := inferInstanceAs (Decidable (∀ _, _ ∧ _))

end Duplex

section Runs

variable {memory : Side → SFPcontext} {packet : Side → List UInt8} {d : Duplex} {l : OctetLine}
  {x : Side} {p : Side × Stream.Action}

theorem Duplex.fine_step (hstep : ¬ (d.step p).Failed) :
    ((d.stream p.1).step p.2).reading ≠ .failed := by
  intro hfailed
  refine hstep ⟨p.1, ?_⟩
  rw [← hfailed, ← Duplex.stream_step]

/-- When all was read nothing is in flight. -/
theorem Plays.messages_nil (h : Plays memory packet d l)
    (hread : (d.stream x).received = (d.stream x.peer).offered)
    (hempty : (d.stream x).readBuffer = []) : l.messages x = [] := by
  obtain ⟨fed, hreceived, hwire, -, -⟩ := h.hears x
  have hoffered := (h.whole x.peer).offered (h.fine x.peer)
  rw [hempty, List.append_nil] at hreceived
  have hfed : fed ++ l.messages x = fed := by
    rw [← hwire, ← hoffered, ← hread, hreceived]
  exact List.append_right_eq_self.mp hfed

/-- A side that is connected has begun its handshake. -/
theorem Plays.begun_of_connected (h : Plays memory packet d l)
    (hconnected : (l.node x).connectState = .connected) : (d.stream x).reading ≠ .start := by
  intro hstart
  have hmirrors := h.mirrors x
  rw [contextOf, if_pos hstart] at hmirrors
  have hstate : (l.node x).connectState = .disconnected :=
    congrArg Endpoint.connectState hmirrors.abs
  rw [hconnected] at hstate
  cases hstate

/-! ### The handshake phase -/

/-- Two streams that have not failed stand for a line on which sessions are asked for. -/
def Opens (memory : Side → SFPcontext) (packet : Side → List UInt8) (d : Duplex) : Prop :=
  d.Failed ∨ ∃ l, Plays memory packet d l ∧ Asking l ∧
    ∀ y, (d.stream y).reading ≠ .start → (l.node y).connectState ≠ .disconnected

theorem opens_start (memory : Side → SFPcontext) (packet : Side → List UInt8) :
    Opens memory packet (.start memory packet) := by
  have honWire : ∀ y, ((memory y).initWith ⟨true, false, false⟩).OnWire :=
    fun y => (memory y).onWire_initWith rfl
  have hstart := asking_start honWire (fun _ => rfl) (fun _ => rfl)
  exact .inr ⟨_, plays_start memory packet, hstart, fun y hbegun => absurd rfl hbegun⟩

theorem opens_step (h : Opens memory packet d) (hp : d.Handshaking p) :
    Opens memory packet (d.step p) := by
  obtain ⟨x, a⟩ := p
  by_cases hfailed : (d.step (x, a)).Failed
  · exact .inl hfailed
  rcases h with hbefore | ⟨l, hplays, hasking, hasked⟩
  · exact .inl (hbefore.step (x, a))
  right
  rcases hplays.step hp.1 (Duplex.fine_step hfailed) with hsame | ⟨-, hnext⟩ |
      ⟨hbegun, k, hnext⟩ | ⟨hwrites, -⟩
  · rw [hsame]
    exact ⟨l, hplays, hasking, hasked⟩
  · -- the first `sfpConnect`, or the second one
    refine ⟨_, hnext, hasking.connect x, Side.forall_of_peer x ?_ ?_⟩
    · exact fun _ => asked_connect (hasking.onWire x)
    · rw [Duplex.stream_step_peer]
      exact fun hbegun => hasking.asked_step (a := .request x .connect) trivial (hasked _ hbegun)
  · -- only a stream that has begun hears octets
    have hbegun' : ∀ y, ((d.step (x, a)).stream y).reading ≠ .start →
        (d.stream y).reading ≠ .start := by
      refine Side.forall_of_peer x (fun _ => hbegun) ?_
      rw [Duplex.stream_step_peer]
      exact id
    have hline := deliver_replicate (x := x)
      (P := fun l => Asking l ∧ ∀ y, (d.stream y).reading ≠ .start →
        (l.node y).connectState ≠ .disconnected)
      (fun l hl => ⟨hl.1.deliver (hl.2 x hbegun), fun y hy =>
        hl.1.asked_step (a := .deliver x) (hl.2 x hbegun) (hl.2 y hy)⟩) ⟨hasking, hasked⟩ k
    exact ⟨_, hnext, hline.1, fun y hy => hline.2 y (hbegun' y hy)⟩
  · exact absurd hp.2 hwrites

/-! ### The session -/

/-- Two streams that have not failed stand for a session without loss. -/
def InSession (memory : Side → SFPcontext) (packet : Side → List UInt8) (d : Duplex) : Prop :=
  d.Failed ∨ ∃ l, Plays memory packet d l ∧ StreamsOn l

theorem inSession_step (h : InSession memory packet d) (hp : d.Allowed p) :
    InSession memory packet (d.step p) := by
  obtain ⟨x, a⟩ := p
  by_cases hfailed : (d.step (x, a)).Failed
  · exact .inl hfailed
  rcases h with hbefore | ⟨l, hplays, hline⟩
  · exact .inl (hbefore.step (x, a))
  right
  rcases hplays.step hp (Duplex.fine_step hfailed) with hsame | ⟨hstart, -⟩ |
      ⟨-, k, hnext⟩ | ⟨-, stack, packet', fits, hnext⟩
  · rw [hsame]
    exact ⟨l, hplays, hline⟩
  · exact absurd hstart (hplays.begun_of_connected (hline.connected x))
  · refine ⟨_, hnext, deliver_replicate (fun l hl => ?_) hline k⟩
    exact streamsOn_step hl (a := .deliver x) trivial
  · exact ⟨_, hnext, streamsOn_step hline (a := .request x (.write stack packet' fits)) trivial⟩

/-- The handshakes end in a session. -/
theorem inSession_of_settled (h : Opens memory packet d)
    (hbegun : ∃ y, (d.stream y).reading ≠ .start) (hsettled : d.Settled) :
    InSession memory packet d := by
  obtain ⟨x, hx⟩ := hbegun
  apply h.imp_right
  rintro ⟨l, hplays, hasking, hasked⟩
  refine ⟨l, hplays, hasking.streamsOn (fun y => ?_) (hasked x hx)⟩
  exact hplays.messages_nil (hsettled y).1 (hsettled y).2

/-! ### What is delivered -/

/-- What the reads of a stream have returned and what is parked is what its context was given. -/
theorem Plays.results (h : Plays memory packet d l) (hbegun : (d.stream x).reading ≠ .start) :
    ∃ parked, (l.got x).filter (· ≠ []) = (d.stream x).results ++ parked ∧
      ((d.stream x).reading = .readSome → parked = [] ∧ (d.stream x).readBuffer = []) ∧
      (d.stream x).fault = false := by
  have hreads := (h.whole x).reads hbegun
  obtain ⟨fed, hreceived, -, -, hgot⟩ := h.hears x
  have hheard : ∃ parked, (d.stream x).Heard (connecting (memory x)) parked ∧
      ((d.stream x).reading = .readSome → parked = [] ∧ (d.stream x).readBuffer = []) := by
    by_cases hwaits : (d.stream x).reading = .readSome
    · -- an `async_read` that waits has nothing parked
      unfold Stream.Reads at hreads
      rw [hwaits] at hreads
      refine ⟨_, hreads.1, fun _ => ⟨?_, hreads.2.2⟩⟩
      rw [Stream.parked, hreads.2.1]
      rfl
    · obtain ⟨parked, hheard⟩ := hreads.heard (h.fine x)
      exact ⟨parked, hheard, fun hreading => absurd hreading hwaits⟩
  obtain ⟨parked, hheard, hwaits⟩ := hheard
  obtain ⟨fed', hreceived', -, hdeliveries⟩ := hheard.split
  have hfed : fed' = fed := List.append_cancel_right (hreceived'.symm.trans hreceived)
  subst hfed
  exact ⟨parked, hgot.trans hdeliveries, hwaits, hheard.no_fault⟩

/-- **Two streams deliver once.** Two new objects on a pipe that loses nothing: whatever was in
their memory, however their operations interleave and the octets are chunked, and wherever the
settle phases end. If no packet is written before the frames of the handshakes have been read and
delivered once, then in every run without errors from there on both sides stay connected, no
assertion fails, and the reads of each side have returned the first messages of nonzero length that
the other side wrote; all of them, when a read waits and everything written was read. -/
theorem streams_deliver_once (memory : Side → SFPcontext) (packet : Side → List UInt8)
    {first rest : List (Side × Stream.Action)}
    (hfirst : Meets Duplex.step Duplex.Handshaking (.start memory packet) first)
    (hrest : Meets Duplex.step Duplex.Allowed (run Duplex.step (.start memory packet) first) rest)
    (hbegun : ∃ x, ((run Duplex.step (.start memory packet) first).stream x).reading ≠ .start)
    (hsettled : (run Duplex.step (.start memory packet) first).Settled) :
    let d := run Duplex.step (.start memory packet) (first ++ rest)
    (∀ x, (d.stream x).reading ≠ .failed) → ∀ x,
      (d.stream x).connected = true ∧ (d.stream x).fault = false ∧
      (d.stream x).results <+: (d.dispatched x.peer).filter (· ≠ []) ∧
      ((d.stream x).reading = .readSome → (d.stream x).received = (d.stream x.peer).offered →
        (d.stream x).results = (d.dispatched x.peer).filter (· ≠ [])) := by
  intro d hfine x
  have hopens : Opens memory packet (run Duplex.step (.start memory packet) first) := by
    apply Lib.run_invariant _ (opens_start memory packet) hfirst
    intro d p hd hp
    exact opens_step hd hp
  have hsession : InSession memory packet d := by
    show InSession memory packet (run Duplex.step (.start memory packet) (first ++ rest))
    rw [Lib.run_append]
    apply Lib.run_invariant _ (inSession_of_settled hopens hbegun hsettled) hrest
    intro d p hd hp
    exact inSession_step hd hp
  rcases hsession with ⟨y, hy⟩ | ⟨l, hplays, hline⟩
  · exact absurd hy (hfine y)
  have hconnected := hline.connected x
  have hstarted := hplays.begun_of_connected hconnected
  obtain ⟨parked, hgot, hwaits, hfault⟩ := hplays.results hstarted
  obtain ⟨ps, hwrote, hquiet⟩ := hline.outstanding x.peer
  rw [Side.peer_peer] at hwrote hquiet
  have hall : (d.dispatched x.peer).filter (· ≠ [])
      = (d.stream x).results ++ (parked ++ ps.filter (· ≠ [])) := by
    rw [← hplays.wrote, hwrote, List.filter_append, hgot, List.append_assoc]
  refine ⟨?_, hfault, ?_, ?_⟩
  · have hmirrors := hplays.mirrors x
    rw [contextOf, if_neg hstarted] at hmirrors
    have hstate : (l.node x).connectState = (d.stream x).sfpContext.ctx.connectState :=
      congrArg Endpoint.connectState hmirrors.abs
    rw [hconnected] at hstate
    exact beq_iff_eq.mpr hstate.symm
  · rw [hall]
    exact List.prefix_append _ _
  · intro hreading hread
    obtain ⟨hparked, hempty⟩ := hwaits hreading
    rw [hall, hparked, hquiet (hplays.messages_nil hread hempty)]
    exact (List.append_nil _).symm

end Runs

end Contexts

section HeaderDefaults

attribute [local instance] headerDefaults

/-- A frame of the handshake is read, and what the context replies is written. -/
def exchange (x : Side) (seq : SFPseq) : List (Side × Stream.Action) :=
  [(x, .readDone (frameOctets (makeHeader .syn seq) [])), (x, .writeDone)]

/-- Both sides ask for a session at once, and settle. -/
def simultaneous : List (Side × Stream.Action) :=
  [(.left, .asyncHandshake), (.left, .writeDone), (.right, .asyncHandshake), (.right, .writeDone)]
    ++ exchange .left sfpSeqSyn0 ++ exchange .right sfpSeqSyn0 ++ exchange .left sfpSeqSyn1
    ++ exchange .right sfpSeqSyn1 ++ exchange .left sfpSeqSyn2 ++ exchange .right sfpSeqSyn2

/-- A packet is read while it is still being written. -/
def oneMessage : List (Side × Stream.Action) :=
  [(.left, .settleTimeout 0), (.right, .settleTimeout 0), (.right, .asyncRead),
    (.left, .asyncWrite (Stream.oneOctet 1)), (.left, .dispatchWrite 0),
    (.right, .readDone ((frameOctets (makeHeader .usr 0) [1]).take 3)), (.right, .dispatchRead),
    (.left, .writeOpDone),
    (.right, .readDone ((frameOctets (makeHeader .usr 0) [1]).drop 3)), (.right, .dispatchRead),
    (.right, .asyncRead)]

theorem streams_deliver_once_one :
    let d := run Duplex.step (.start (fun _ => .zero) fun _ => []) (simultaneous ++ oneMessage)
    (d.stream .right).results = [[1]] ∧
      (d.stream .right).results = (d.dispatched .left).filter (· ≠ []) := by
  have hfirst : Meets Duplex.step Duplex.Handshaking (.start (fun _ => .zero) fun _ => [])
      simultaneous := by
    decide +kernel
  have hrest : Meets Duplex.step Duplex.Allowed
      (run Duplex.step (.start (fun _ => .zero) fun _ => []) simultaneous) oneMessage := by
    decide +kernel
  have honce := streams_deliver_once (fun _ => .zero) (fun _ => []) hfirst hrest
    (by decide +kernel) (by decide +kernel) (by decide +kernel) .right
  refine ⟨by decide +kernel, honce.2.2.2 ?_ ?_⟩
  · decide +kernel
  · decide +kernel

end HeaderDefaults

end Libsfp.Asio
