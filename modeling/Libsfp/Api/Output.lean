import Libsfp.Api.Calls

/-!
# What a Context Writes

Whatever octets it is fed and whatever memory it was initialized in, a context writes whole frames,
with labels in range, and every packet in them is one that its user asked to send: nothing of the
received octets and nothing of the memory goes out. How much goes out is bounded by what comes in:
one frame for a call of the user, one frame and the history for a `FLAG`, nothing for any other
octet.
-/

namespace Libsfp

open Lib (run)

/-! ## The size of a reaction -/

namespace Endpoint

variable {α : Type*}

theorem length_sent_replayFrom (e : Endpoint α) (seq : Nat) :
    (e.replayFrom seq).sent.length ≤ e.history.length := by
  show (retransmissions seq (e.kept seq)).length ≤ _
  rw [length_retransmissions]
  exact e.length_kept_le seq

theorem length_sent_replay (e : Endpoint α) : e.replay.sent.length ≤ e.history.length := by
  unfold replay
  split
  · exact e.length_sent_replayFrom 0
  · exact Nat.zero_le _

/-- **A frame is answered with one frame and the history at most.** -/
theorem length_sent_receive (e : Endpoint α) (f : Frame α) :
    (e.receive f).sent.length ≤ e.history.length + 1 := by
  have huser : ∀ fresh seq p, (e.receiveUser fresh seq p).sent.length ≤ e.history.length + 1 := by
    intro fresh seq p
    unfold receiveUser
    cases e.connectState
    case connected =>
      simp only
      split
      · cases fresh <;> simp
      · exact Nat.zero_le _
    all_goals exact Nat.succ_le_succ (Nat.zero_le _)
  cases f with
  | usr seq p => exact huser true seq p
  | rtx seq p => exact huser false seq p
  | nak seq =>
    simp only [receive, receiveNak]
    cases e.connectState
    case connected =>
      simp only
      split
      · exact Nat.le_succ_of_le (e.length_sent_replayFrom seq)
      · exact Nat.zero_le _
    all_goals exact Nat.succ_le_succ (Nat.zero_le _)
  | syn seq =>
    cases seq using Frame.syn_cases with
    | syn0 => exact Nat.succ_le_succ (Nat.zero_le _)
    | syn1 =>
      simp only [receive, receiveSyn, receiveSyn1]
      cases e.connectState
      case disconnected => exact Nat.succ_le_succ (Nat.zero_le _)
      all_goals exact Nat.succ_le_succ e.length_sent_replay
    | syn2 =>
      simp only [receive, receiveSyn, receiveSyn2]
      cases e.connectState
      case disconnected => exact Nat.succ_le_succ (Nat.zero_le _)
      case sentSyn0 => exact Nat.succ_le_succ (Nat.zero_le _)
      all_goals exact Nat.le_succ_of_le e.length_sent_replay
    | dis => exact Nat.zero_le _
    | other => exact Nat.zero_le _
  | bad => exact Nat.succ_le_succ (Nat.zero_le _)
  | silent => exact Nat.zero_le _

end Endpoint

/-! ## Calls -/

section Contexts

variable [SfpConfig]

/-- The packets that a call asks to send. -/
def Call.packets : Call → List (List UInt8)
  | .write _ packet _ => [packet]
  | _ => []

/-- How many frames a call can make a context write. -/
def Call.frameBound : Call → Nat
  | .connect => 1
  | .write _ _ _ => 1
  | .deliver octet _ => if sfpFlag = octet then sfpConfigHistoryCapacity + 1 else 0
  | .isConnected => 0

/-- What a machine has written: at most `n` frames, with packets that satisfy `A`. It can only send
such packets again. -/
structure Speaks (A : List UInt8 → Prop) (n : Nat) (m : Machine) : Prop where
  between : m.ctx.Between
  keeps : m.ctx.abs.Keeps A
  wire : ∃ fs : List (Frame (List UInt8)), m.wire = fs.flatMap Frame.octets ∧
    (∀ f ∈ fs, f.Sendable A) ∧ fs.length ≤ n

theorem length_history_abs (c : SFPcontext) : c.abs.history.length ≤ sfpConfigHistoryCapacity := by
  show (c.tx.history.entries.map SFPpacket.octets).length ≤ _
  rw [List.length_map]
  exact c.tx.history.length_entries_le

/-- Every reaction to a call sends such packets only, keeps such packets only, and is small. -/
theorem react_speaks {A : List UInt8 → Prop} {c : SFPcontext} (hc : c.Between)
    (hkeeps : c.abs.Keeps A) (call : Call) (hcall : ∀ p ∈ call.packets, A p) :
    let r := c.abs.react sfpConfigHistoryCapacity (call.input c)
    r.endpoint.Keeps A ∧ (∀ f ∈ r.sent, f.Sendable A) ∧ r.sent.length ≤ call.frameBound := by
  cases call with
  | connect =>
    refine ⟨?_, ?_, Nat.le_refl _⟩
    · intro _ p hp
      simp [Call.input, Endpoint.react, Endpoint.connect, Endpoint.restart] at hp
    · intro f hf
      rw [List.mem_singleton.mp hf]
      show 0 < seqRange
      decide
  | write stack packet le =>
    have hpacket : A packet := hcall packet (List.mem_singleton.mpr rfl)
    refine ⟨?_, ?_, Nat.le_refl _⟩
    · -- an entry is the new packet or was there before
      intro hstate p hp
      rcases List.mem_append.mp (List.mem_of_mem_drop hp) with hp | hp
      · exact hkeeps hstate p hp
      · rw [List.mem_singleton.mp hp]
        exact hpacket
    · intro f hf
      rw [List.mem_singleton.mp hf]
      exact ⟨hc.idle.txSeq_lt, hpacket⟩
  | deliver octet buf =>
    simp only [Call.input, Endpoint.react]
    refine ⟨Endpoint.receive_keeps hkeeps _, ?_, ?_⟩
    · apply Endpoint.receive_sendable hc.idle.rxSeq_lt hkeeps
      split
      · exact inRange_toFrame _
      · trivial
    · rw [Call.frameBound]
      split
      · refine Nat.le_trans (Endpoint.length_sent_receive _ _) ?_
        exact Nat.succ_le_succ (length_history_abs c)
      · exact Nat.le_refl _
  | isConnected =>
    refine ⟨hkeeps, ?_, Nat.le_refl _⟩
    simp [Call.input, Endpoint.react, Endpoint.receive]

/-- **Step lemma.** -/
theorem speaks_call {A : List UInt8 → Prop} {n : Nat} {m : Machine} (h : Speaks A n m) (c : Call)
    (hc : ∀ p ∈ c.packets, A p) : Speaks A (n + c.frameBound) (m.call c) := by
  have hserves := serves_call h.between c
  obtain ⟨hkeeps, hsent, hlen⟩ := react_speaks h.between h.keeps c hc
  refine ⟨hserves.between, ?_, ?_⟩
  · rw [hserves.abs]
    exact hkeeps
  · obtain ⟨fs, hwire, hfs, hn⟩ := h.wire
    refine ⟨fs ++ (m.ctx.abs.react sfpConfigHistoryCapacity (c.input m.ctx)).sent, ?_, ?_, ?_⟩
    · rw [hserves.wire, hwire, List.flatMap_append]
    · intro f hf
      exact (List.mem_append.mp hf).elim (hfs f) (hsent f)
    · rw [List.length_append]
      exact Nat.add_le_add hn hlen

/-- **Run lemma.** -/
theorem speaks_run {A : List UInt8 → Prop} {n : Nat} {m : Machine} (h : Speaks A n m)
    (cs : List Call) (hcs : ∀ p ∈ cs.flatMap Call.packets, A p) :
    Speaks A (n + (cs.map Call.frameBound).sum) (run Machine.call m cs) := by
  induction cs generalizing n m with
  | nil => exact h
  | cons c cs ih =>
    rw [List.flatMap_cons] at hcs
    have hfirst := speaks_call h c fun p hp => hcs p (List.mem_append_left _ hp)
    have hrest := ih hfirst fun p hp => hcs p (List.mem_append_right _ hp)
    rwa [List.map_cons, List.sum_cons, ← Nat.add_assoc]

/-- **What a context writes.** Over any sequence of calls with any octets, in any memory, it is a
sequence of whole frames with labels in range, their packets are packets that were passed to
`sfpWritePacket`, and there are at most as many frames as the calls allow: one for each request and,
for each `FLAG` received, one more than the history can hold. -/
theorem output_frames (cb : Callbacks) (memory : SFPcontext) (cs : List Call) :
    ∃ fs : List (Frame (List UInt8)), (afterCalls cb memory cs).wire = fs.flatMap Frame.octets ∧
      (∀ f ∈ fs, f.Sendable fun p => p ∈ cs.flatMap Call.packets) ∧
      fs.length ≤ (cs.map Call.frameBound).sum := by
  have hstart : Speaks (fun p => p ∈ cs.flatMap Call.packets) 0
      (.of (memory.initWith cb)) :=
    ⟨memory.between_initWith cb, fun h => absurd rfl h, [], rfl, by simp, Nat.le_refl _⟩
  have hrun := (speaks_run hstart cs fun _ hp => hp).wire
  rwa [Nat.zero_add] at hrun

end Contexts

end Libsfp
