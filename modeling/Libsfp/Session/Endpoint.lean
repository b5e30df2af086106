import Mathlib.Data.List.Basic
import Libsfp.Model.Context

/-!
# Endpoints

What a context is for, without octets: an endpoint has a connection state, the two sequence
numbers and the packets it can still retransmit; it reacts to a frame with a new state, frames to
send back and packets to deliver. Sequence numbers are labels modulo `seqRange`, packets are of an
arbitrary type.

Besides the frames of the protocol there are two things a damaged line can hand to a receiver:
`bad`, a frame that fails the length or CRC check, and `silent`, line noise in which no frame is
noticed at all.
-/

namespace Libsfp

/-- `SFP_SEQ_RANGE` as a number. -/
abbrev seqRange : Nat := 64

/-- A frame, as a receiver classifies it. -/
inductive Frame (α : Type*) where
  | usr (seq : Nat) (packet : α)
  | rtx (seq : Nat) (packet : α)
  | nak (seq : Nat)
  | syn (seq : Nat)
  | bad
  | silent
  deriving DecidableEq, Repr

namespace Frame

variable {α : Type*}

abbrev syn0 : Frame α := .syn 0
abbrev syn1 : Frame α := .syn 1
abbrev syn2 : Frame α := .syn 2
abbrev dis : Frame α := .syn 3

/-- The labels that `sfpHandleSYN` tells apart. -/
@[elab_as_elim] theorem syn_cases {motive : Nat → Prop} (seq : Nat) (syn0 : motive 0)
    (syn1 : motive 1) (syn2 : motive 2) (dis : motive 3) (other : ∀ n, motive (n + 4)) :
    motive seq := by
  rcases seq with _ | _ | _ | _ | n
  · exact syn0
  · exact syn1
  · exact syn2
  · exact dis
  · exact other n

/-- Noise: what a line makes of a frame it does not deliver intact. -/
def IsNoise : Frame α → Prop
  | .bad => True
  | .silent => True
  | _ => False

end Frame

/-- The protocol state of a context. -/
structure Endpoint (α : Type*) where
  connectState : SFPconnectstate
  txSeq : Nat
  rxSeq : Nat
  /-- The packets that can be retransmitted, oldest first. -/
  history : List α
  deriving DecidableEq, Repr

/-- What an endpoint does: its next state, the frames it sends, the packets it delivers. -/
structure Reaction (α : Type*) where
  endpoint : Endpoint α
  sent : List (Frame α)
  got : List α
  deriving DecidableEq, Repr

namespace Endpoint

variable {α : Type*}

/-! ## Retransmission -/

/-- The packets `ps` as retransmissions labelled from `seq` on. -/
def retransmissions (seq : Nat) : List α → List (Frame α)
  | [] => []
  | p :: ps => .rtx seq p :: retransmissions ((seq + 1) % seqRange) ps

/-- Every entry that is kept is sent again once. -/
@[simp] theorem length_retransmissions (seq : Nat) (ps : List α) :
    (retransmissions seq ps).length = ps.length := by
  induction ps generalizing seq with
  | nil => rfl
  | cons p ps ih => rw [retransmissions, List.length_cons, ih, List.length_cons]

/-- How many packets of the history precede the one labelled `seq`. -/
def skipTo (e : Endpoint α) (seq : Nat) : Nat :=
  (seq + seqRange + e.history.length - e.txSeq) % seqRange

/-- The packet labelled `seq` is no longer in the history: the history-underrun branch. -/
def Underrun (e : Endpoint α) (seq : Nat) : Prop :=
  e.history.length ≤ e.skipTo seq

instance (e : Endpoint α) (seq : Nat) : Decidable (e.Underrun seq) :=
  inferInstanceAs (Decidable (_ ≤ _))

/-- How many packets ago the label `seq` was used last, if it is not the next one. -/
def age (e : Endpoint α) (seq : Nat) : Nat :=
  (e.txSeq + seqRange - seq) % seqRange

/-- Exactly one packet of the history is labelled `seq`. -/
def Holds (e : Endpoint α) (seq : Nat) : Prop :=
  e.age seq ≤ e.history.length ∧ e.history.length < e.age seq + seqRange

instance (e : Endpoint α) (seq : Nat) : Decidable (e.Holds seq) :=
  inferInstanceAs (Decidable (_ ∧ _))

/-- The history from the packet labelled `seq` on, or all of it on underrun. -/
def kept (e : Endpoint α) (seq : Nat) : List α :=
  if e.skipTo seq < e.history.length then e.history.drop (e.skipTo seq) else e.history

/-- A replay drops entries from the front, -/
theorem kept_sublist (e : Endpoint α) (seq : Nat) : (e.kept seq).Sublist e.history := by
  unfold kept
  split
  · exact List.drop_sublist _ _
  · exact List.Sublist.refl _

/-- so it never has more than before. -/
theorem length_kept_le (e : Endpoint α) (seq : Nat) : (e.kept seq).length ≤ e.history.length :=
  (e.kept_sublist seq).length_le

/-- Retransmit the history from label `seq` on. -/
def replayFrom (e : Endpoint α) (seq : Nat) : Reaction α where
  endpoint := { e with
    txSeq := (seq + (e.kept seq).length) % seqRange
    history := e.kept seq }
  sent := retransmissions seq (e.kept seq)
  got := []

/-- Retransmit the whole session when the handshake completes. -/
def replay (e : Endpoint α) : Reaction α :=
  if e.txSeq ≠ 0 then e.replayFrom 0 else ⟨e, [], []⟩

/-- A replay delivers nothing. -/
theorem got_replay (e : Endpoint α) : e.replay.got = [] := by
  unfold replay
  split <;> rfl

/-! ## Reactions to frames -/

/-- An answer that changes nothing. -/
def answer (e : Endpoint α) (f : Frame α) : Reaction α := ⟨e, [f], []⟩

/-- A `USR` (`fresh`) or `RTX` frame. -/
def receiveUser (e : Endpoint α) (fresh : Bool) (seq : Nat) (packet : α) : Reaction α :=
  match e.connectState with
  | .disconnected => e.answer .dis
  | .sentSyn0 => e.answer .syn0
  | .sentSyn1 => e.answer .syn1
  | .connected =>
    if seq ≠ e.rxSeq then ⟨e, if fresh then [.nak e.rxSeq] else [], []⟩
    else ⟨{ e with rxSeq := (e.rxSeq + 1) % seqRange }, [], [packet]⟩

def receiveNak (e : Endpoint α) (seq : Nat) : Reaction α :=
  match e.connectState with
  | .disconnected => e.answer .dis
  | .sentSyn0 => e.answer .syn0
  | .sentSyn1 => e.answer .syn1
  | .connected => if seq ≠ e.txSeq then e.replayFrom seq else ⟨e, [], []⟩

/-- A new session: both sequence numbers start over and the history is forgotten. -/
def restart (e : Endpoint α) (s : SFPconnectstate) : Endpoint α :=
  { e with connectState := s, txSeq := 0, rxSeq := 0, history := [] }

def receiveSyn1 (e : Endpoint α) : Reaction α :=
  match e.connectState with
  | .disconnected => e.answer .dis
  | _ =>
    { endpoint := { e.replay.endpoint with connectState := .connected }
      sent := .syn2 :: e.replay.sent
      got := [] }

def receiveSyn2 (e : Endpoint α) : Reaction α :=
  match e.connectState with
  | .disconnected => e.answer .dis
  | .sentSyn0 => e.answer .syn0
  | _ =>
    { endpoint := { e.replay.endpoint with connectState := .connected }
      sent := e.replay.sent
      got := [] }

def receiveSyn (e : Endpoint α) : Nat → Reaction α
  | 0 => ⟨e.restart .sentSyn1, [.syn1], []⟩
  | 1 => e.receiveSyn1
  | 2 => e.receiveSyn2
  | 3 => ⟨{ e with connectState := .disconnected }, [], []⟩
  | _ => ⟨e, [], []⟩

/-- The reaction to one frame. -/
def receive (e : Endpoint α) : Frame α → Reaction α
  | .usr seq packet => e.receiveUser true seq packet
  | .rtx seq packet => e.receiveUser false seq packet
  | .nak seq => e.receiveNak seq
  | .syn seq => e.receiveSyn seq
  | .bad => e.answer (.nak e.rxSeq)
  | .silent => ⟨e, [], []⟩

/-- The label from which the reaction to a frame retransmits, if it retransmits. -/
def replayLabel (e : Endpoint α) : Frame α → Option Nat
  | .nak seq => if e.connectState = .connected ∧ seq ≠ e.txSeq then some seq else none
  | .syn 1 => if e.connectState ≠ .disconnected ∧ e.txSeq ≠ 0 then some 0 else none
  | .syn 2 =>
    if (e.connectState = .sentSyn1 ∨ e.connectState = .connected) ∧ e.txSeq ≠ 0 then some 0
    else none
  | _ => none

/-- The reaction to a frame takes the history-underrun branch. -/
def Underruns (e : Endpoint α) (f : Frame α) : Prop :=
  ∃ seq ∈ e.replayLabel f, e.Underrun seq

instance (e : Endpoint α) (f : Frame α) : Decidable (e.Underruns f) :=
  inferInstanceAs (Decidable (∃ seq ∈ e.replayLabel f, _))

/-- If the reaction to a frame retransmits, then from the only packet with that label. -/
def Serves (e : Endpoint α) (f : Frame α) : Prop :=
  ∀ seq ∈ e.replayLabel f, e.Holds seq

instance (e : Endpoint α) (f : Frame α) : Decidable (e.Serves f) :=
  inferInstanceAs (Decidable (∀ seq ∈ e.replayLabel f, _))

/-- A `SYN1` brings what the peer may have missed: everything written when it opens the session,
and later the packets from the only one labelled 0 on. -/
def ReplaysWhole (e : Endpoint α) : Frame α → Prop
  | .syn 1 =>
    (e.connectState = .sentSyn0 → e.txSeq = 0 → e.history = []) ∧
      (e.connectState = .connected → e.txSeq ≠ 0 → e.Holds 0)
  | _ => True

instance (e : Endpoint α) : DecidablePred e.ReplaysWhole
  | .syn 1 => inferInstanceAs (Decidable (_ ∧ _))
  | .syn 0 => isTrue trivial
  | .syn (_ + 2) => isTrue trivial
  | .usr _ _ => isTrue trivial
  | .rtx _ _ => isTrue trivial
  | .nak _ => isTrue trivial
  | .bad => isTrue trivial
  | .silent => isTrue trivial

/-! ## Requests of the user -/

def connect (e : Endpoint α) : Reaction α :=
  ⟨e.restart .sentSyn0, [.syn0], []⟩

/-- Send a packet; a history of `capacity` packets drops its oldest one. -/
def write (capacity : Nat) (e : Endpoint α) (packet : α) : Reaction α where
  endpoint := { e with
    txSeq := (e.txSeq + 1) % seqRange
    history := (e.history ++ [packet]).drop (e.history.length + 1 - capacity) }
  sent := [.usr e.txSeq packet]
  got := []

/-- The state after `sfpInit`. -/
def init (history : List α) : Endpoint α := ⟨.disconnected, 0, 0, history⟩

end Endpoint

end Libsfp
