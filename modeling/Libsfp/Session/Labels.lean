import Libsfp.Session.Listener
import Libsfp.Session.Network

/-!
# The Labels of the History

The history stores no sequence numbers: the label of an entry is implied by the label of the next
packet and the number of entries behind it. Here packets are numbered in the order in which they
are written, so that two packets with the same content are told apart, and the frames that were
sent are kept in a list. The invariant says that the implied label of an entry is the one it was
last sent with, and that the entry is what was last sent with that label.

A replay establishes it for all entries at once, whatever they were called before: this is why it
survives the relabelling of a history underrun.
-/

namespace Libsfp

variable {π : Type*}

/-! ## Numbers do not matter -/

section Renaming

variable {α β : Type*} (g : α → β)

def Frame.map : Frame α → Frame β
  | .usr seq p => .usr seq (g p)
  | .rtx seq p => .rtx seq (g p)
  | .nak seq => .nak seq
  | .syn seq => .syn seq
  | .bad => .bad
  | .silent => .silent

def Endpoint.map (e : Endpoint α) : Endpoint β :=
  ⟨e.connectState, e.txSeq, e.rxSeq, e.history.map g⟩

def Reaction.map (r : Reaction α) : Reaction β :=
  ⟨r.endpoint.map g, r.sent.map (Frame.map g), r.got.map g⟩

@[simp] theorem Endpoint.connectState_map (e : Endpoint α) :
    (e.map g).connectState = e.connectState := rfl

@[simp] theorem Endpoint.history_map (e : Endpoint α) : (e.map g).history = e.history.map g := rfl

/-- Labels do not depend on what the payloads are. -/
theorem Frame.inRange_map {f : Frame α} (h : f.InRange) : (f.map g).InRange := by
  cases f <;> exact h

/-- The payloads have no part in which packets are sent again, -/
theorem retransmissions_map (seq : Nat) (ps : List α) :
    Endpoint.retransmissions seq (ps.map g)
      = (Endpoint.retransmissions seq ps).map (Frame.map g) := by
  induction ps generalizing seq with
  | nil => rfl
  | cons p ps ih => simp [Endpoint.retransmissions, Frame.map, ih]

/-- which are kept, -/
theorem kept_map (e : Endpoint α) (seq : Nat) : (e.map g).kept seq = (e.kept seq).map g := by
  have hskip : (e.map g).skipTo seq = e.skipTo seq := by
    simp [Endpoint.skipTo, Endpoint.map]
  unfold Endpoint.kept
  rw [hskip, Endpoint.history_map, List.length_map, ← List.map_drop]
  split <;> rfl

/-- what a replay does, -/
theorem replayFrom_map (e : Endpoint α) (seq : Nat) :
    (e.map g).replayFrom seq = (e.replayFrom seq).map g := by
  unfold Endpoint.replayFrom
  rw [kept_map, List.length_map, retransmissions_map]
  rfl

/-- from any label or from the start, -/
theorem replay_map (e : Endpoint α) : (e.map g).replay = e.replay.map g := by
  unfold Endpoint.replay
  by_cases hseq : e.txSeq ≠ 0
  · rw [if_pos hseq, if_pos (show (e.map g).txSeq ≠ 0 from hseq), replayFrom_map]
  · rw [if_neg hseq, if_neg (show ¬ (e.map g).txSeq ≠ 0 from hseq)]
    rfl

/-- what a write does, -/
theorem write_map (capacity : Nat) (e : Endpoint α) (p : α) :
    (e.map g).write capacity (g p) = (e.write capacity p).map g := by
  simp [Endpoint.write, Reaction.map, Endpoint.map, Frame.map]

/-- or whether a packet is taken. -/
theorem receiveUser_map (e : Endpoint α) (fresh : Bool) (seq : Nat) (p : α) :
    (e.map g).receiveUser fresh seq (g p) = (e.receiveUser fresh seq p).map g := by
  unfold Endpoint.receiveUser
  rw [Endpoint.connectState_map]
  cases e.connectState with
  | disconnected => rfl
  | sentSyn0 => rfl
  | sentSyn1 => rfl
  | connected =>
    -- whether the label is the expected one does not depend on the packet
    show ite _ _ _ = Reaction.map g (ite _ _ _)
    by_cases hseq : seq ≠ e.rxSeq
    · rw [if_pos hseq, if_pos (show seq ≠ (e.map g).rxSeq from hseq)]
      cases fresh <;> rfl
    · rw [if_neg hseq, if_neg (show ¬ seq ≠ (e.map g).rxSeq from hseq)]
      rfl

/-- **Reactions are parametric** in the packets. -/
theorem receive_map (e : Endpoint α) (f : Frame α) :
    (e.map g).receive (f.map g) = (e.receive f).map g := by
  cases f with
  | usr seq p => exact receiveUser_map g e true seq p
  | rtx seq p => exact receiveUser_map g e false seq p
  | nak seq =>
    simp only [Frame.map, Endpoint.receive, Endpoint.receiveNak, Endpoint.connectState_map]
    cases e.connectState with
    | connected =>
      show ite _ _ _ = Reaction.map g (ite _ _ _)
      by_cases hseq : seq ≠ e.txSeq
      · rw [if_pos hseq, if_pos (show seq ≠ (e.map g).txSeq from hseq), replayFrom_map]
      · rw [if_neg hseq, if_neg (show ¬ seq ≠ (e.map g).txSeq from hseq)]
        rfl
    | _ => rfl
  | syn seq =>
    simp only [Frame.map, Endpoint.receive, Endpoint.receiveSyn]
    -- `SYN0`, `SYN1`, `SYN2`, `DIS`, and the labels that are ignored
    split
    · rfl
    · unfold Endpoint.receiveSyn1
      rw [Endpoint.connectState_map, replay_map]
      cases e.connectState <;> rfl
    · unfold Endpoint.receiveSyn2
      rw [Endpoint.connectState_map, replay_map]
      cases e.connectState <;> rfl
    · rfl
    · rfl
  | bad => rfl
  | silent => rfl

end Renaming

/-! ## What was last sent -/

/-- The label with which the packet with the given number was last sent. -/
def lastLabel (number : Nat) (sent : List (Frame (Nat × π))) : Option Nat :=
  sent.reverse.findSome? fun f => f.user?.bind fun x => if x.2.1 = number then some x.1 else none

/-- The packet that was last sent with the given label. -/
def lastPacket (seq : Nat) (sent : List (Frame (Nat × π))) : Option π :=
  sent.reverse.findSome? fun f => f.user?.bind fun x => if x.1 = seq then some x.2.2 else none

section Last

variable (sent more : List (Frame (Nat × π)))

/-- Later frames take precedence. -/
theorem lastLabel_append (number : Nat) :
    lastLabel number (sent ++ more) = (lastLabel number more).or (lastLabel number sent) := by
  rw [lastLabel, List.reverse_append, List.findSome?_append]
  rfl

/-- Later frames take precedence here as well. -/
theorem lastPacket_append (seq : Nat) :
    lastPacket seq (sent ++ more) = (lastPacket seq more).or (lastPacket seq sent) := by
  rw [lastPacket, List.reverse_append, List.findSome?_append]
  rfl

variable {sent more}

/-- A packet that was never sent has no label, -/
theorem lastLabel_eq_none {number : Nat}
    (h : ∀ f ∈ sent, ∀ x ∈ f.user?, x.2.1 ≠ number) : lastLabel number sent = none := by
  rw [lastLabel, List.findSome?_eq_none_iff]
  intro f hf
  cases huser : f.user? with
  | none => rfl
  | some x => exact if_neg (h f (List.mem_reverse.mp hf) x huser)

/-- and a label that was never used has no packet. -/
theorem lastPacket_eq_none {seq : Nat}
    (h : ∀ f ∈ sent, ∀ x ∈ f.user?, x.1 ≠ seq) : lastPacket seq sent = none := by
  rw [lastPacket, List.findSome?_eq_none_iff]
  intro f hf
  cases huser : f.user? with
  | none => rfl
  | some x => exact if_neg (h f (List.mem_reverse.mp hf) x huser)

/-- Control frames change nothing. -/
theorem lastLabel_append_control (h : ∀ f ∈ more, f.user? = none) (number : Nat) :
    lastLabel number (sent ++ more) = lastLabel number sent := by
  have hnone : lastLabel number more = none :=
    lastLabel_eq_none fun f hf x hx => by rw [h f hf] at hx; cases hx
  rw [lastLabel_append, hnone, Option.none_or]

/-- Control frames use no labels for packets. -/
theorem lastPacket_append_control (h : ∀ f ∈ more, f.user? = none) (seq : Nat) :
    lastPacket seq (sent ++ more) = lastPacket seq sent := by
  have hnone : lastPacket seq more = none :=
    lastPacket_eq_none fun f hf x hx => by rw [h f hf] at hx; cases hx
  rw [lastPacket_append, hnone, Option.none_or]

end Last

/-! ## Replays -/

section Replays

open Endpoint (retransmissions)

/-- A retransmission is one of an entry, under the label of its place, -/
theorem mem_retransmissions {seq : Nat} {ps : List (Nat × π)} {f : Frame (Nat × π)}
    (h : f ∈ retransmissions seq ps) (hseq : seq < seqRange) :
    ∃ i q, ps[i]? = some q ∧ f = .rtx ((seq + i) % seqRange) q := by
  induction ps generalizing seq with
  | nil => simp [retransmissions] at h
  | cons p ps ih =>
    rcases List.mem_cons.mp h with rfl | h
    · exact ⟨0, p, rfl, by rw [Nat.add_zero, Nat.mod_eq_of_lt hseq]⟩
    · obtain ⟨i, q, hq, rfl⟩ := ih h (Nat.mod_lt _ (by decide))
      refine ⟨i + 1, q, hq, ?_⟩
      rw [Nat.mod_add_mod, Nat.add_assoc, Nat.add_comm 1 i]

/-- and they come in the order of the history. -/
theorem getElem?_retransmissions {α : Type*} {seq : Nat} (hseq : seq < seqRange) (ps : List α)
    (i : Nat) :
    (retransmissions seq ps)[i]? = ps[i]?.map (.rtx ((seq + i) % seqRange)) := by
  induction ps generalizing seq i with
  | nil => simp [retransmissions]
  | cons p ps ih =>
    cases i with
    | zero => simp [retransmissions, Nat.mod_eq_of_lt hseq]
    | succ i =>
      rw [retransmissions, List.getElem?_cons_succ, ih (Nat.mod_lt _ (by decide)),
        List.getElem?_cons_succ, Nat.mod_add_mod, Nat.add_assoc, Nat.add_comm 1 i]

/-- In a replay each packet is sent once, with its new label. -/
theorem lastLabel_retransmissions {seq : Nat} {ps : List (Nat × π)} (hseq : seq < seqRange)
    (hnodup : (ps.map Prod.fst).Nodup) {i : Nat} {q : Nat × π} (hq : ps[i]? = some q) :
    lastLabel q.1 (retransmissions seq ps) = some ((seq + i) % seqRange) := by
  induction ps generalizing seq i with
  | nil => simp at hq
  | cons p ps ih =>
    obtain ⟨hp, hrest⟩ := List.nodup_cons.mp hnodup
    have hnext : (seq + 1) % seqRange < seqRange := Nat.mod_lt _ (by decide)
    rw [retransmissions, ← List.singleton_append, lastLabel_append]
    cases i with
    | zero =>
      obtain rfl : p = q := by simpa using hq
      -- the packets are different, so the rest does not send this one again
      have hnone : lastLabel p.1 (retransmissions ((seq + 1) % seqRange) ps) = none := by
        apply lastLabel_eq_none
        intro f hf x hx hnumber
        obtain ⟨j, r, hr, rfl⟩ := mem_retransmissions hf hnext
        obtain rfl : _ = x := Option.some.inj hx
        exact hp (hnumber ▸ List.mem_map_of_mem (List.mem_of_getElem? hr))
      rw [hnone, Option.none_or, Nat.add_zero, Nat.mod_eq_of_lt hseq]
      simp [lastLabel, Frame.user?]
    -- the rest of the burst was sent later and decides
    | succ i =>
      rw [ih hnext hrest (by simpa using hq), Option.some_or, Nat.mod_add_mod, Nat.add_assoc,
        Nat.add_comm 1 i]

/-- In a replay of fewer packets than there are labels each label is used once. -/
theorem lastPacket_retransmissions {seq : Nat} {ps : List (Nat × π)} (hseq : seq < seqRange)
    (hlen : ps.length < seqRange) {i : Nat} {q : Nat × π} (hq : ps[i]? = some q) :
    lastPacket ((seq + i) % seqRange) (retransmissions seq ps) = some q.2 := by
  induction ps generalizing seq i with
  | nil => simp at hq
  | cons p ps ih =>
    rw [List.length_cons] at hlen
    have hnext : (seq + 1) % seqRange < seqRange := Nat.mod_lt _ (by decide)
    rw [retransmissions, ← List.singleton_append, lastPacket_append]
    cases i with
    | zero =>
      obtain rfl : p = q := by simpa using hq
      have hnone : lastPacket seq (retransmissions ((seq + 1) % seqRange) ps) = none := by
        apply lastPacket_eq_none
        intro f hf x hx hlabel
        obtain ⟨j, r, hr, rfl⟩ := mem_retransmissions hf hnext
        obtain rfl : _ = x := Option.some.inj hx
        -- fewer than `seqRange` labels further on
        have hj : j < ps.length := (List.getElem?_eq_some_iff.mp hr).1
        rw [Nat.mod_add_mod] at hlabel
        simp only [seqRange] at *
        omega
      rw [Nat.add_zero, Nat.mod_eq_of_lt hseq, hnone, Option.none_or]
      simp [lastPacket, Frame.user?]
    -- the label in the rest of the burst is counted from the next one
    | succ i =>
      have hrest := ih hnext (by omega) (i := i) (by simpa using hq)
      rw [Nat.mod_add_mod, Nat.add_assoc, Nat.add_comm 1 i] at hrest
      rw [hrest, Option.some_or]

end Replays

/-! ## Repeated `NAK`s -/

section Repeated

variable {α : Type*} {e : Endpoint α} {seq : Nat}

/-- What a `NAK` brings are retransmissions. -/
theorem sent_receiveNak (hstate : e.connectState = .connected) :
    ∀ f ∈ (e.receiveNak seq).sent, ∃ label p, f = .rtx label p := by
  have hall : ∀ (ps : List α) (label : Nat), ∀ f ∈ Endpoint.retransmissions label ps,
      ∃ label p, f = .rtx label p := by
    intro ps
    induction ps with
    | nil => simp [Endpoint.retransmissions]
    | cons p ps ih =>
      intro label f hf
      rcases List.mem_cons.mp hf with rfl | hf
      · exact ⟨label, p, rfl⟩
      · exact ih _ f hf
  simp only [Endpoint.receiveNak, hstate]
  split
  · exact hall _ _
  · simp

/-- After a replay from a label nothing precedes that label in the history. -/
theorem skipTo_replayFrom : (e.replayFrom seq).endpoint.skipTo seq = 0 := by
  simp only [Endpoint.skipTo, Endpoint.replayFrom, seqRange] at *
  omega

/-- A second replay from the same label is the first one again. -/
theorem replayFrom_replayFrom :
    (e.replayFrom seq).endpoint.replayFrom seq = e.replayFrom seq := by
  -- nothing precedes the label any more, so nothing is dropped again
  have hkept : (e.replayFrom seq).endpoint.kept seq = e.kept seq := by
    rw [Endpoint.kept, skipTo_replayFrom, List.drop_zero, ite_self]
    rfl
  rw [Endpoint.replayFrom, hkept]
  rfl

/-- After a `NAK` was answered the history starts at the label it asked for. -/
theorem skipTo_receiveNak (hstate : e.connectState = .connected)
    (hne : seq ≠ (e.receiveNak seq).endpoint.txSeq) :
    (e.receiveNak seq).endpoint.skipTo seq = 0 := by
  simp only [Endpoint.receiveNak, hstate] at hne ⊢
  by_cases hseq : seq ≠ e.txSeq
  · rw [if_pos hseq]
    exact skipTo_replayFrom
  · rw [if_neg hseq] at hne
    exact absurd hne hseq

/-- The same `NAK` again: nothing changes, and the same frames go out again, or none. -/
theorem receiveNak_receiveNak (hstate : e.connectState = .connected) :
    ((e.receiveNak seq).endpoint.receiveNak seq).endpoint = (e.receiveNak seq).endpoint ∧
      (((e.receiveNak seq).endpoint.receiveNak seq).sent = [] ∨
        ((e.receiveNak seq).endpoint.receiveNak seq).sent = (e.receiveNak seq).sent) := by
  by_cases hseq : seq ≠ e.txSeq
  · have hfirst : e.receiveNak seq = e.replayFrom seq := by
      simp only [Endpoint.receiveNak, hstate, if_pos hseq]
    have hagain : (e.replayFrom seq).endpoint.connectState = .connected := hstate
    rw [hfirst]
    simp only [Endpoint.receiveNak, hagain]
    split
    · rw [replayFrom_replayFrom]
      exact ⟨rfl, .inr rfl⟩
    · -- nothing was left to send
      exact ⟨rfl, .inl rfl⟩
  · -- nothing was missing in the first place
    have hfirst : e.receiveNak seq = ⟨e, [], []⟩ := by
      simp only [Endpoint.receiveNak, hstate, if_neg hseq]
    rw [hfirst]
    simp only [hfirst]
    exact ⟨trivial, .inl trivial⟩

end Repeated

/-! ## What a reaction does to the history -/

/-- A reaction either leaves the transmitter alone, or starts a session, or replays. -/
inductive Moves {α : Type*} (e : Endpoint α) (r : Reaction α) : Prop where
  | answers (state : r.endpoint.connectState ≠ .disconnected → e.connectState ≠ .disconnected)
      (txSeq : r.endpoint.txSeq = e.txSeq) (history : r.endpoint.history = e.history)
      (control : ∀ f ∈ r.sent, f.user? = none)
  | restarts (txSeq : r.endpoint.txSeq = 0) (history : r.endpoint.history = [])
      (control : ∀ f ∈ r.sent, f.user? = none)
  | replays (state : e.connectState ≠ .disconnected) (seq : Nat) (lt : seq < seqRange)
      (front : List (Frame α)) (control : ∀ f ∈ front, f.user? = none)
      (txSeq : r.endpoint.txSeq = (e.replayFrom seq).endpoint.txSeq)
      (history : r.endpoint.history = e.kept seq)
      (sent : r.sent = front ++ Endpoint.retransmissions seq (e.kept seq))

section Moves

variable {α : Type*} {e : Endpoint α}

/-- A control frame in answer moves no label. -/
theorem moves_answer {f : Frame α} (hf : f.user? = none) : Moves e (e.answer f) := by
  refine .answers id rfl rfl ?_
  intro g hg
  rw [List.mem_singleton.mp hg, hf]

theorem moves_idle : Moves e ⟨e, [], []⟩ :=
  .answers id rfl rfl (by simp)

/-- The replay at the end of a handshake, behind the frame that answers. -/
theorem moves_replay (state : e.connectState ≠ .disconnected) (front : List (Frame α))
    (control : ∀ f ∈ front, f.user? = none) (s : SFPconnectstate) :
    Moves e ⟨{ e.replay.endpoint with connectState := s }, front ++ e.replay.sent, []⟩ := by
  unfold Endpoint.replay
  -- without a packet in the session there is no replay
  by_cases hseq : e.txSeq ≠ 0
  · rw [if_pos hseq]
    exact .replays state 0 (by decide) front control rfl rfl rfl
  · rw [if_neg hseq, List.append_nil]
    exact .answers (fun _ => state) rfl rfl control

/-- Whether the packet is taken or refused, no label moves on this side. -/
theorem moves_receiveUser (fresh : Bool) (seq : Nat) (p : α) :
    Moves e (e.receiveUser fresh seq p) := by
  unfold Endpoint.receiveUser
  cases hstate : e.connectState with
  | disconnected => exact moves_answer rfl
  | sentSyn0 => exact moves_answer rfl
  | sentSyn1 => exact moves_answer rfl
  -- only the receiver moves: the history belongs to the transmitter
  | connected =>
    simp only
    split
    · cases fresh
      · exact moves_idle
      · exact moves_answer (f := .nak e.rxSeq) rfl
    · exact .answers (fun _ => by simp [hstate]) rfl rfl (by simp)

/-- A replay labels the history from the label asked for on. -/
theorem moves_receiveNak {seq : Nat} (hseq : seq < seqRange) : Moves e (e.receiveNak seq) := by
  unfold Endpoint.receiveNak
  cases hstate : e.connectState with
  | disconnected => exact moves_answer rfl
  | sentSyn0 => exact moves_answer rfl
  | sentSyn1 => exact moves_answer rfl
  | connected =>
    simp only
    split
    · -- with no frame in front of the burst
      exact .replays (by simp [hstate]) seq hseq [] (by simp) rfl rfl rfl
    · exact moves_idle

/-- A replay in the handshake labels it from 0 on. -/
theorem moves_receiveSyn (seq : Nat) : Moves e (e.receiveSyn seq) := by
  unfold Endpoint.receiveSyn
  split
  · -- `SYN0` forgets the session
    refine .restarts rfl rfl ?_
    intro f hf
    rw [List.mem_singleton.mp hf]
    rfl
  · -- `SYN1` is answered in front of the replay
    unfold Endpoint.receiveSyn1
    cases hstate : e.connectState with
    | disconnected => exact moves_answer rfl
    | _ => exact moves_replay (by simp [hstate]) [.syn2] (by simp [Frame.user?]) _
  · unfold Endpoint.receiveSyn2
    cases hstate : e.connectState with
    | disconnected => exact moves_answer rfl
    | sentSyn0 => exact moves_answer rfl
    | _ => exact moves_replay (by simp [hstate]) [] (by simp) _
  · exact .answers (fun h => absurd rfl h) rfl rfl (by simp)
  · exact moves_idle

/-- **Every reaction to a frame** is one of the three. -/
theorem moves_receive {f : Frame α} (hf : f.InRange) : Moves e (e.receive f) := by
  cases f with
  | usr seq p => exact moves_receiveUser true seq p
  | rtx seq p => exact moves_receiveUser false seq p
  | nak seq => exact moves_receiveNak hf
  | syn seq => exact moves_receiveSyn seq
  | bad => exact moves_answer rfl
  | silent => exact moves_idle

end Moves

/-! ## The invariant -/

/-- The label that the place of an entry in the history implies. -/
def Endpoint.labelAt {α : Type*} (e : Endpoint α) (i : Nat) : Nat :=
  (e.txSeq + seqRange - e.history.length + i) % seqRange

/-- The entries of a history are different packets, and each was last sent with the label that
its place implies, as the last packet with that label. -/
structure Tracked (e : Endpoint (Nat × π)) (sent : List (Frame (Nat × π))) (written : Nat) :
    Prop where
  nodup : (e.history.map Prod.fst).Nodup
  lt_written : ∀ q ∈ e.history, q.1 < written
  label : ∀ i q, e.history[i]? = some q → lastLabel q.1 sent = some (e.labelAt i)
  packet : ∀ i q, e.history[i]? = some q → lastPacket (e.labelAt i) sent = some q.2

namespace Tracked

variable {e e' : Endpoint (Nat × π)} {sent more : List (Frame (Nat × π))} {written : Nat}

/-- Without a history there is nothing to keep track of. -/
theorem of_nil (h : e.history = []) : Tracked e sent written := by
  constructor <;> simp [h]

/-- Labels in the history depend on the next label and the size alone. -/
theorem labelAt_congr {α : Type*} {e e' : Endpoint α} (htx : e'.txSeq = e.txSeq)
    (hhistory : e'.history = e.history) (i : Nat) : e'.labelAt i = e.labelAt i := by
  rw [Endpoint.labelAt, Endpoint.labelAt, htx, hhistory]

/-- Control frames leave the labels as they are. -/
theorem answers (h : Tracked e sent written) (htx : e'.txSeq = e.txSeq)
    (hhistory : e'.history = e.history) (hmore : ∀ f ∈ more, f.user? = none) :
    Tracked e' (sent ++ more) written where
  nodup := by rw [hhistory]; exact h.nodup
  lt_written := by rw [hhistory]; exact h.lt_written
  label i q hq := by
    rw [lastLabel_append_control hmore, labelAt_congr htx hhistory]
    exact h.label i q (hhistory ▸ hq)
  packet i q hq := by
    rw [lastPacket_append_control hmore, labelAt_congr htx hhistory]
    exact h.packet i q (hhistory ▸ hq)

/-- After a replay the labels are those of the replay, whatever they were before. -/
theorem replays (h : Tracked e sent written) (hlen : e.history.length < seqRange) {seq : Nat}
    (hseq : seq < seqRange) {front : List (Frame (Nat × π))}
    (htx : e'.txSeq = (e.replayFrom seq).endpoint.txSeq) (hhistory : e'.history = e.kept seq) :
    Tracked e' (sent ++ (front ++ Endpoint.retransmissions seq (e.kept seq))) written := by
  have hsub := e.kept_sublist seq
  have hkept : (e.kept seq).length < seqRange := Nat.lt_of_le_of_lt hsub.length_le hlen
  have hnodup : ((e.kept seq).map Prod.fst).Nodup := h.nodup.sublist (hsub.map _)
  -- the implied label of a place does not depend on what was dropped
  have hat : ∀ i, e'.labelAt i = (seq + i) % seqRange := by
    intro i
    rw [Endpoint.labelAt, htx, hhistory, Endpoint.replayFrom]
    simp only [seqRange] at *
    omega
  refine ⟨by rwa [hhistory], ?_, ?_, ?_⟩
  · intro q hq
    rw [hhistory] at hq
    exact h.lt_written q (hsub.mem hq)
  · -- whatever was sent before, the replay was sent after it
    intro i q hq
    rw [hhistory] at hq
    rw [← List.append_assoc, lastLabel_append, lastLabel_retransmissions hseq hnodup hq, hat,
      Option.some_or]
  · intro i q hq
    rw [hhistory] at hq
    rw [← List.append_assoc, lastPacket_append, hat, lastPacket_retransmissions hseq hkept hq,
      Option.some_or]

/-- A new packet takes the next label; the others move up with it, or the oldest one leaves. -/
theorem write (h : Tracked e sent written) (htx : e.txSeq < seqRange) {capacity : Nat}
    (hlen : e.history.length ≤ capacity) (hpos : 0 < capacity) (hcap : capacity < seqRange)
    (p : π) :
    Tracked (e.write capacity (written, p)).endpoint (sent ++ [.usr e.txSeq (written, p)])
      (written + 1) := by
  obtain ⟨drop, hdrop⟩ : ∃ n, e.history.length + 1 - capacity = n := ⟨_, rfl⟩
  have hhistory : (e.write capacity (written, p)).endpoint.history
      = (e.history ++ [(written, p)]).drop drop := by
    rw [← hdrop]
    rfl
  -- an entry is the new packet or was there before, `drop` places further on
  have hentry : ∀ i q, (e.write capacity (written, p)).endpoint.history[i]? = some q →
      (q = (written, p) ∧ i + drop = e.history.length) ∨ e.history[i + drop]? = some q := by
    intro i q hq
    rw [hhistory, List.getElem?_drop, Nat.add_comm drop i] at hq
    rcases Nat.lt_or_ge (i + drop) e.history.length with hlt | hge
    · rw [List.getElem?_append_left hlt] at hq
      exact .inr hq
    · rw [List.getElem?_append_right hge] at hq
      obtain ⟨hi, hq⟩ := List.getElem?_eq_some_iff.mp hq
      rw [List.length_singleton] at hi
      refine .inl ⟨?_, by omega⟩
      rw [← hq]
      exact List.getElem_singleton _
  -- one more packet and one label more: the implied labels stay
  have hat : ∀ i, i + drop ≤ e.history.length →
      (e.write capacity (written, p)).endpoint.labelAt i
        = (e.txSeq + seqRange - e.history.length + (i + drop)) % seqRange := by
    intro i hi
    rw [Endpoint.labelAt, hhistory, List.length_drop, List.length_append, List.length_singleton,
      Endpoint.write]
    simp only [seqRange] at *
    omega
  have hnew : ∀ i (q : Nat × π), e.history[i]? = some q → q.1 ≠ written := fun i q hq =>
    Nat.ne_of_lt (h.lt_written q (List.mem_of_getElem? hq))
  have hlabel : (e.txSeq + seqRange - e.history.length + e.history.length) % seqRange
      = e.txSeq := by
    simp only [seqRange] at *
    omega
  refine ⟨?_, ?_, ?_, ?_⟩
  · rw [hhistory, List.map_drop, List.map_append]
    refine List.Nodup.sublist (List.drop_sublist _ _) ?_
    refine List.Nodup.append h.nodup (by simp) ?_
    intro n hn hmem
    obtain ⟨q, hq, rfl⟩ := List.mem_map.mp hn
    exact Nat.ne_of_lt (h.lt_written q hq) (List.mem_singleton.mp hmem)
  · intro q hq
    rw [hhistory] at hq
    rcases List.mem_append.mp (List.mem_of_mem_drop hq) with hq | hq
    · exact Nat.lt_succ_of_lt (h.lt_written q hq)
    · rw [List.mem_singleton.mp hq]
      exact Nat.lt_succ_self written
  · intro i q hq
    rw [lastLabel_append]
    rcases hentry i q hq with ⟨rfl, hi⟩ | hq
    · -- the new packet
      rw [hat i (Nat.le_of_eq hi), hi, hlabel]
      simp [lastLabel, Frame.user?]
    · -- an older one: the frame just sent is about another packet
      have hi := (List.getElem?_eq_some_iff.mp hq).1
      have hnone : lastLabel q.1 [Frame.usr e.txSeq (written, p)] = none := by
        apply lastLabel_eq_none
        intro f hf x hx
        obtain rfl := List.mem_singleton.mp hf
        obtain rfl : _ = x := Option.some.inj hx
        exact (hnew _ q hq).symm
      rw [hnone, Option.none_or, hat i (Nat.le_of_lt hi)]
      exact h.label _ q hq
  · intro i q hq
    rw [lastPacket_append]
    rcases hentry i q hq with ⟨rfl, hi⟩ | hq
    · rw [hat i (Nat.le_of_eq hi), hi, hlabel]
      simp [lastPacket, Frame.user?]
    · have hi := (List.getElem?_eq_some_iff.mp hq).1
      rw [hat i (Nat.le_of_lt hi)]
      have hnone : lastPacket ((e.txSeq + seqRange - e.history.length + (i + drop)) % seqRange)
          [Frame.usr e.txSeq (written, p)] = none := by
        apply lastPacket_eq_none
        intro f hf x hx
        obtain rfl := List.mem_singleton.mp hf
        obtain rfl : _ = x := Option.some.inj hx
        -- fewer than `seqRange` entries, so no label is used twice
        simp only [seqRange] at *
        omega
      rw [hnone, Option.none_or]
      exact h.packet _ q hq

end Tracked

/-- **Every reaction keeps the labels**, as long as the endpoint is not disconnected. -/
theorem tracked_receive {e : Endpoint (Nat × π)} {sent : List (Frame (Nat × π))} {written : Nat}
    (hlen : e.history.length < seqRange)
    (h : e.connectState ≠ .disconnected → Tracked e sent written) {f : Frame (Nat × π)}
    (hf : f.InRange) (hstate : (e.receive f).endpoint.connectState ≠ .disconnected) :
    Tracked (e.receive f).endpoint (sent ++ (e.receive f).sent) written := by
  rcases moves_receive (e := e) hf with
    ⟨hkeep, htx, hhistory, hcontrol⟩ | ⟨-, hhistory, -⟩ |
    ⟨hbefore, seq, hseq, front, -, htx, hhistory, hsent⟩
  · exact (h (hkeep hstate)).answers htx hhistory hcontrol
  · -- a new session has no entries to be wrong about
    exact .of_nil hhistory
  · rw [hsent]
    exact (h hbefore).replays hlen hseq htx hhistory

end Libsfp
