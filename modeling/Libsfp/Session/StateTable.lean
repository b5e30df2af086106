import Libsfp.Session.Network

/-!
# The State Table

The control skeleton of the protocol: connection states and the frames that move them, without
labels and packets. `Reacts` is the state table of the code, one constructor for each kind of
entry; `receive_reacts` says that every reaction is an entry of the table.

In the table of the notes on the handshake `SENT_SYN0` ignores a `SYN0`. In the code every state
answers a `SYN0` with a `SYN1`.
-/

namespace Libsfp

variable {α : Type*}

namespace Frame

/-- Frames of an established session. -/
def IsData : Frame α → Prop
  | usr _ _ => True
  | rtx _ _ => True
  | nak _ => True
  | _ => False

/-- Frames that an endpoint sends. -/
def Proper : Frame α → Prop
  | syn seq => seq < 4
  | f => f.IsData

theorem IsData.proper {f : Frame α} (h : f.IsData) : f.Proper := by
  cases f <;> first | exact h | exact h.elim

theorem IsData.ne_syn {f : Frame α} (h : f.IsData) (seq : Nat) : f ≠ .syn seq := by
  rintro rfl
  exact h

end Frame

/-- The state table: in state `s` the frame `f` leads to the state `s'` and the replies `sent`. -/
inductive Reacts : SFPconnectstate → Frame α → SFPconnectstate → List (Frame α) → Prop where
  /-- Every state answers a `SYN0`. -/
  | answer (s : SFPconnectstate) : Reacts s .syn0 .sentSyn1 [.syn1]
  /-- A disconnected endpoint refuses everything else, except a `DIS`. -/
  | refuse {f : Frame α} (proper : f.Proper) (ne_syn0 : f ≠ .syn0) (ne_dis : f ≠ .dis) :
      Reacts .disconnected f .disconnected [.dis]
  /-- A `SYN1` is confirmed, and what was written is sent again. -/
  | confirm {s : SFPconnectstate} {data : List (Frame α)} (ne : s ≠ .disconnected)
      (isData : ∀ g ∈ data, g.IsData) : Reacts s .syn1 .connected (.syn2 :: data)
  /-- A `SYN2` before the answer to the `SYN0`. -/
  | early : Reacts .sentSyn0 .syn2 .sentSyn0 [.syn0]
  /-- A `SYN2` completes the handshake, and what was written is sent again. -/
  | complete {s : SFPconnectstate} {data : List (Frame α)} (hs : s = .sentSyn1 ∨ s = .connected)
      (isData : ∀ g ∈ data, g.IsData) : Reacts s .syn2 .connected data
  | close (s : SFPconnectstate) : Reacts s .dis .disconnected []
  /-- During the handshake data is answered with the last `SYN`. -/
  | repeat0 {f : Frame α} (hf : f.IsData) : Reacts .sentSyn0 f .sentSyn0 [.syn0]
  | repeat1 {f : Frame α} (hf : f.IsData) : Reacts .sentSyn1 f .sentSyn1 [.syn1]
  | normal {f : Frame α} {data : List (Frame α)} (hf : f.IsData)
      (isData : ∀ g ∈ data, g.IsData) : Reacts .connected f .connected data

namespace Endpoint

/-- Retransmissions carry data, -/
theorem retransmissions_isData (seq : Nat) (ps : List α) :
    ∀ f ∈ retransmissions seq ps, f.IsData := by
  induction ps generalizing seq with
  | nil => simp [retransmissions]
  | cons p ps ih =>
    intro f hf
    rw [retransmissions, List.mem_cons] at hf
    rcases hf with rfl | hf
    · trivial
    · exact ih _ f hf

/-- and a replay sends nothing else. -/
theorem replay_isData (e : Endpoint α) : ∀ f ∈ e.replay.sent, f.IsData := by
  unfold replay
  split
  · exact retransmissions_isData _ _
  · simp

/-- The row of the table for data frames. -/
theorem receiveUser_reacts (e : Endpoint α) (fresh : Bool) (seq : Nat) (p : α) {f : Frame α}
    (hf : f.IsData) :
    Reacts e.connectState f (e.receiveUser fresh seq p).endpoint.connectState
      (e.receiveUser fresh seq p).sent := by
  unfold receiveUser
  cases hstate : e.connectState with
  | disconnected =>
    simp only [answer, hstate]
    exact .refuse hf.proper (hf.ne_syn 0) (hf.ne_syn 3)
  | sentSyn0 => simp only [answer, hstate]; exact .repeat0 hf
  | sentSyn1 => simp only [answer, hstate]; exact .repeat1 hf
  | connected =>
    -- connected: at most a `NAK` for a fresh packet out of order
    by_cases hseq : seq ≠ e.rxSeq
    · simp only [if_pos hseq, hstate]
      refine .normal hf ?_
      intro g hg
      cases fresh
      · simp at hg
      · simp only [if_true, List.mem_singleton] at hg
        rw [hg]
        trivial
    · simp only [if_neg hseq]
      exact .normal hf (by simp)

/-- The row of the table for `NAK`s. -/
theorem receiveNak_reacts (e : Endpoint α) (seq : Nat) :
    Reacts e.connectState (.nak seq) (e.receiveNak seq).endpoint.connectState
      (e.receiveNak seq).sent := by
  unfold receiveNak
  cases hstate : e.connectState with
  | disconnected =>
    simp only [answer, hstate]
    exact .refuse trivial (by simp) (by simp)
  | sentSyn0 => simp only [answer, hstate]; exact .repeat0 trivial
  | sentSyn1 => simp only [answer, hstate]; exact .repeat1 trivial
  | connected =>
    by_cases hseq : seq ≠ e.txSeq
    · simp only [if_pos hseq, replayFrom, hstate]
      exact .normal trivial (retransmissions_isData _ _)
    · simp only [if_neg hseq, hstate]
      exact .normal trivial (by simp)

/-- **Every reaction is an entry of the state table.** -/
theorem receive_reacts (e : Endpoint α) {f : Frame α} (hf : f.Proper) :
    Reacts e.connectState f (e.receive f).endpoint.connectState (e.receive f).sent := by
  cases f with
  | usr seq p => exact e.receiveUser_reacts true seq p trivial
  | rtx seq p => exact e.receiveUser_reacts false seq p trivial
  | nak seq => exact e.receiveNak_reacts seq
  | syn seq =>
    -- only the four labels of the handshake are proper
    have hcases : seq = 0 ∨ seq = 1 ∨ seq = 2 ∨ seq = 3 := by
      have hlt : seq < 4 := hf
      omega
    rcases hcases with rfl | rfl | rfl | rfl
    · exact .answer _
    · simp only [receive, receiveSyn, receiveSyn1]
      cases hstate : e.connectState with
      | disconnected => simp only [answer, hstate]; exact .refuse hf (by simp) (by simp)
      | _ => exact .confirm (by simp) e.replay_isData
    · simp only [receive, receiveSyn, receiveSyn2]
      cases hstate : e.connectState with
      | disconnected => simp only [answer, hstate]; exact .refuse hf (by simp) (by simp)
      | sentSyn0 => simp only [answer, hstate]; exact .early
      | sentSyn1 => exact .complete (Or.inl rfl) e.replay_isData
      | connected => exact .complete (Or.inr rfl) e.replay_isData
    · exact .close _
  -- noise is sent by nobody
  | bad => exact hf.elim
  | silent => exact hf.elim

end Endpoint

/-! ## Kinds of frames -/

/-- A frame without its label and packet. -/
inductive Kind where
  /-- A `USR`, or a frame that fails the length or CRC check: may be answered with a `NAK`. -/
  | talk
  | rtx
  | nak
  | syn0
  | syn1
  | syn2
  | dis
  /-- Ignored. -/
  | idle
  deriving DecidableEq, Repr

def Frame.kind : Frame α → Kind
  | usr _ _ => .talk
  | rtx _ _ => .rtx
  | nak _ => .nak
  | syn 0 => .syn0
  | syn 1 => .syn1
  | syn 2 => .syn2
  | syn 3 => .dis
  | syn _ => .idle
  | bad => .talk
  | silent => .idle

/-- The connection state after a frame. -/
def SFPconnectstate.next (s : SFPconnectstate) : Kind → SFPconnectstate
  | .syn0 => .sentSyn1
  | .syn1 => if s = .disconnected then .disconnected else .connected
  | .syn2 => if s = .sentSyn1 then .connected else s
  | .dis => .disconnected
  | _ => s

/-- Only a `DIS` disconnects. -/
theorem SFPconnectstate.next_ne_disconnected {s : SFPconnectstate} (h : s ≠ .disconnected)
    {k : Kind} (hk : k ≠ .dis) : s.next k ≠ .disconnected := by
  cases s <;> cases k <;> simp_all [next]

namespace Endpoint

/-- Data frames do not move the state, -/
theorem connectState_receiveUser (e : Endpoint α) (fresh : Bool) (seq : Nat) (p : α) :
    (e.receiveUser fresh seq p).endpoint.connectState = e.connectState := by
  unfold receiveUser
  cases hstate : e.connectState <;> simp only [answer, hstate]
  case connected =>
    split
    · exact hstate
    · rfl

/-- nor do `NAK`s. -/
theorem connectState_receiveNak (e : Endpoint α) (seq : Nat) :
    (e.receiveNak seq).endpoint.connectState = e.connectState := by
  unfold receiveNak
  cases hstate : e.connectState <;> simp only [answer, hstate]
  case connected => split <;> exact hstate

/-- The connection state moves with the kind of the frame alone. -/
theorem connectState_receive (e : Endpoint α) (f : Frame α) :
    (e.receive f).endpoint.connectState = e.connectState.next f.kind := by
  cases f with
  | usr seq p => exact e.connectState_receiveUser true seq p
  | rtx seq p => exact e.connectState_receiveUser false seq p
  | nak seq => exact e.connectState_receiveNak seq
  | syn seq =>
    cases seq using Frame.syn_cases with
    | syn0 => rfl
    | syn1 =>
      simp only [receive, receiveSyn, receiveSyn1, Frame.kind, SFPconnectstate.next]
      cases hstate : e.connectState <;> simp [answer, hstate]
    | syn2 =>
      simp only [receive, receiveSyn, receiveSyn2, Frame.kind, SFPconnectstate.next]
      cases hstate : e.connectState <;> simp [answer, hstate]
    | dis => rfl
    | other => rfl
  | bad => rfl
  | silent => rfl

end Endpoint

/-! ## Entries of the table -/

namespace Reacts

variable {s s' : SFPconnectstate} {f : Frame α} {sent : List (Frame α)}

theorem proper_sent (h : Reacts s f s' sent) : ∀ g ∈ sent, g.Proper := by
  intro g hg
  cases h with
  | confirm _ isData =>
    rcases List.mem_cons.mp hg with rfl | hg
    · show 2 < 4
      decide
    · exact (isData g hg).proper
  | complete _ isData => exact (isData g hg).proper
  | normal _ isData => exact (isData g hg).proper
  | close => simp at hg
  -- every other entry sends one `SYN`
  | _ =>
    rw [List.mem_singleton.mp hg]
    show _ < 4
    decide

/-- Only a disconnected endpoint sends a `DIS`. -/
theorem dis_notMem (h : Reacts s f s' sent) (hs : s ≠ .disconnected) :
    (.dis : Frame α) ∉ sent := by
  intro hg
  cases h with
  | confirm _ isData =>
    rcases List.mem_cons.mp hg with hg | hg
    · simp at hg
    · exact isData _ hg
  | complete _ isData => exact isData _ hg
  | normal _ isData => exact isData _ hg
  | refuse => exact hs rfl
  | _ => simp at hg

/-- A `SYN0` is always answered with a `SYN1`. -/
theorem syn1_mem_of_syn0 (h : Reacts s (.syn0 : Frame α) s' sent) : (.syn1 : Frame α) ∈ sent := by
  cases h with
  | answer => simp
  | refuse _ ne_syn0 _ => exact absurd rfl ne_syn0
  -- a `SYN0` is no data
  | repeat0 hf => exact hf.elim
  | repeat1 hf => exact hf.elim
  | normal hf _ => exact hf.elim

/-- A `SYN1` is answered with a `SYN2`, or refused with a `DIS`. -/
theorem syn2_or_dis_mem_of_syn1 (h : Reacts s (.syn1 : Frame α) s' sent) :
    (.syn2 : Frame α) ∈ sent ∨ (.dis : Frame α) ∈ sent := by
  cases h with
  | confirm => exact Or.inl (by simp)
  | refuse => exact Or.inr (by simp)
  | repeat0 hf => exact hf.elim
  | repeat1 hf => exact hf.elim
  | normal hf _ => exact hf.elim

/-- Who ends up disconnected refused the frame or was told so. -/
theorem disconnected_cases (h : Reacts s f .disconnected sent) :
    (.dis : Frame α) ∈ sent ∨ f = .dis := by
  cases h with
  | refuse => exact Or.inl (by simp)
  | close => exact Or.inr rfl

/-- Who asks for a session sent a `SYN0`. -/
theorem syn0_mem (h : Reacts s f .sentSyn0 sent) : (.syn0 : Frame α) ∈ sent := by
  cases h <;> simp

/-- Who has answered a request sent a `SYN1`. -/
theorem syn1_mem (h : Reacts s f .sentSyn1 sent) : (.syn1 : Frame α) ∈ sent := by
  cases h <;> simp

/-- Nobody leaves the disconnected state but on a `SYN0`. -/
theorem syn0_of_leaves (h : Reacts .disconnected f s' sent) (hs : s' ≠ .disconnected) :
    f = .syn0 ∧ sent = [.syn1] := by
  cases h with
  | answer => exact ⟨rfl, rfl⟩
  | refuse => exact absurd rfl hs
  | confirm ne _ => exact absurd rfl ne
  | complete either _ => simp at either
  | close => exact absurd rfl hs

/-- Who is still open did not hear a `DIS`. -/
theorem ne_dis_of_stays (h : Reacts s f s' sent) (hs : s' ≠ .disconnected) : f ≠ .dis := by
  rintro rfl
  cases h with
  | refuse _ _ ne_dis => exact ne_dis rfl
  | close => exact hs rfl
  | repeat0 hf => exact hf.elim
  | repeat1 hf => exact hf.elim
  | normal hf _ => exact hf.elim

end Reacts

end Libsfp
