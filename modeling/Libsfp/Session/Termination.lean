import Mathlib.Data.Prod.Lex
import Mathlib.Order.WellFounded
import Libsfp.Session.ExactlyOnce
import Libsfp.Session.StateTable

/-!
# Every Exchange of Replies Dies Out

Two endpoints that are left alone with whatever is in flight between them: nobody asks for
anything, nothing is lost, the environment only chooses whose turn it is. One frame is answered
with up to a whole history, and the answers are answered, so no measure of the frames alone
decreases. What decreases is a measure of the frames together with the two connection states:

1. `talk` frames (`USR` and damaged ones) are never sent in reply, and a `NAK` only replies to them,
2. once a side is out of `SENT_SYN0` nothing but its user brings it back,
3. a `SYN0` is sent only by a side in `SENT_SYN0`,
4. the connection state that a side would reach with what is in flight already only moves down from
   `SENT_SYN1` over `CONNECTED` to `DISCONNECTED`, unless a `SYN0` is sent,
5. a side that has reached that state answers each kind of frame with lighter ones.
-/

namespace Libsfp

open Lib (Side Outcome Party Parcel Link Action Abstraction Meets run run_cons cost)

variable {α : Type*}

/-! ## The kinds of the replies -/

/-- The kinds of the replies to a frame of kind `k` in the state `s`; `K` bounds the history. -/
inductive Replies (K : Nat) : SFPconnectstate → Kind → List Kind → Prop where
  | talk {s : SFPconnectstate} {sent : List Kind} (talk : .talk ∉ sent) : Replies K s .talk sent
  | nak {s : SFPconnectstate} {sent : List Kind} (talk : .talk ∉ sent) (nak : .nak ∉ sent) :
      Replies K s .nak sent
  | idle (s : SFPconnectstate) : Replies K s .idle []
  | close (s : SFPconnectstate) : Replies K s .dis []
  | answer (s : SFPconnectstate) : Replies K s .syn0 [.syn1]
  | refuse {k : Kind} (hk : k = .rtx ∨ k = .syn1 ∨ k = .syn2) : Replies K .disconnected k [.dis]
  | repeat0 {k : Kind} (hk : k = .rtx ∨ k = .syn2) : Replies K .sentSyn0 k [.syn0]
  | repeat1 : Replies K .sentSyn1 .rtx [.syn1]
  | take : Replies K .connected .rtx []
  | confirm {s : SFPconnectstate} {n : Nat} (ne : s ≠ .disconnected) (le : n ≤ K) :
      Replies K s .syn1 (.syn2 :: List.replicate n .rtx)
  | complete {s : SFPconnectstate} {n : Nat} (hs : s = .sentSyn1 ∨ s = .connected) (le : n ≤ K) :
      Replies K s .syn2 (List.replicate n .rtx)

namespace Endpoint

/-- Retransmissions are of one kind. -/
theorem kinds_retransmissions (seq : Nat) (ps : List α) :
    (retransmissions seq ps).map Frame.kind = List.replicate ps.length .rtx := by
  induction ps generalizing seq with
  | nil => rfl
  | cons p ps ih => rw [retransmissions, List.map_cons, ih]; rfl

/-- A replay sends at most the history. -/
theorem kinds_replay (e : Endpoint α) :
    ∃ n ≤ e.history.length, e.replay.sent.map Frame.kind = List.replicate n .rtx := by
  unfold replay
  split
  · exact ⟨_, e.length_kept_le 0, kinds_retransmissions _ _⟩
  · exact ⟨0, Nat.zero_le _, rfl⟩

/-- A replay lets the history only shrink. -/
theorem length_history_replay_le (e : Endpoint α) :
    e.replay.endpoint.history.length ≤ e.history.length := by
  unfold replay
  split
  · exact e.length_kept_le 0
  · exact Nat.le_refl _

/-- What is sent in reply to a data frame. -/
theorem receiveUser_replies {K : Nat} (e : Endpoint α) (fresh : Bool) (seq : Nat) (p : α) :
    Replies K e.connectState (if fresh then .talk else .rtx)
      ((e.receiveUser fresh seq p).sent.map Frame.kind) := by
  unfold receiveUser
  cases fresh with
  -- a `talk` frame may be answered with a `NAK` or a `SYN`, not with another one
  | true =>
    refine .talk ?_
    cases hstate : e.connectState <;> simp only [answer]
    case connected => split <;> simp [Frame.kind]
    all_goals simp [Frame.kind]
  | false =>
    cases hstate : e.connectState with
    | disconnected => exact .refuse (Or.inl rfl)
    | sentSyn0 => exact .repeat0 (Or.inl rfl)
    | sentSyn1 => exact .repeat1
    -- an `RTX` is never answered in a session
    | connected =>
      simp only [Bool.false_eq_true, if_false]
      split <;> exact .take

/-- What is sent in reply to a `NAK`. -/
theorem receiveNak_replies {K : Nat} (e : Endpoint α) (seq : Nat) :
    Replies K e.connectState .nak ((e.receiveNak seq).sent.map Frame.kind) := by
  unfold receiveNak
  cases hstate : e.connectState with
  | connected =>
    by_cases hseq : seq ≠ e.txSeq
    · simp only [if_pos hseq, replayFrom, kinds_retransmissions]
      refine .nak ?_ ?_ <;> simp
    · simp only [if_neg hseq]
      exact .nak (by simp) (by simp)
  | _ => exact .nak (by simp [answer, Frame.kind]) (by simp [answer, Frame.kind])

/-- **Every reaction is an entry of the table of kinds.** -/
theorem receive_replies {K : Nat} {e : Endpoint α} (hK : e.history.length ≤ K) (f : Frame α) :
    Replies K e.connectState f.kind ((e.receive f).sent.map Frame.kind) := by
  obtain ⟨n, hn, hreplay⟩ := e.kinds_replay
  have hle := Nat.le_trans hn hK
  cases f with
  | usr seq p => exact e.receiveUser_replies true seq p
  | rtx seq p => exact e.receiveUser_replies false seq p
  | nak seq => exact e.receiveNak_replies seq
  | syn seq =>
    cases seq using Frame.syn_cases with
    | syn0 => exact .answer _
    | syn1 =>
      simp only [receive, receiveSyn, receiveSyn1]
      cases hstate : e.connectState with
      | disconnected => exact .refuse (Or.inr (Or.inl rfl))
      | _ =>
        simp only [List.map_cons, hreplay]
        exact .confirm (by simp) hle
    | syn2 =>
      simp only [receive, receiveSyn, receiveSyn2]
      cases hstate : e.connectState with
      | disconnected => exact .refuse (Or.inr (Or.inr rfl))
      | sentSyn0 => exact .repeat0 (Or.inr rfl)
      | sentSyn1 => simp only [hreplay]; exact .complete (Or.inl rfl) hle
      | connected => simp only [hreplay]; exact .complete (Or.inr rfl) hle
    | dis => exact .close _
    | other => exact .idle _
  | bad => exact .talk (by simp [receive, answer, Frame.kind])
  | silent => exact .idle _

/-- No reaction makes the history longer. -/
theorem length_history_receive_le (e : Endpoint α) (f : Frame α) :
    (e.receive f).endpoint.history.length ≤ e.history.length := by
  have huser : ∀ fresh seq p,
      (e.receiveUser fresh seq p).endpoint.history.length ≤ e.history.length := by
    intro fresh seq p
    unfold receiveUser
    cases e.connectState <;> simp only [answer, Nat.le_refl]
    case connected => split <;> exact Nat.le_refl _
  have hreplay := e.length_history_replay_le
  cases f with
  | usr seq p => exact huser true seq p
  | rtx seq p => exact huser false seq p
  | nak seq =>
    simp only [receive, receiveNak]
    cases e.connectState <;> simp only [answer, Nat.le_refl]
    case connected =>
      split
      · exact e.length_kept_le seq
      · exact Nat.le_refl _
  | syn seq =>
    cases seq using Frame.syn_cases with
    | syn0 => exact Nat.zero_le _
    | syn1 =>
      simp only [receive, receiveSyn, receiveSyn1]
      cases e.connectState
      case disconnected => exact Nat.le_refl _
      all_goals exact hreplay
    | syn2 =>
      simp only [receive, receiveSyn, receiveSyn2]
      cases e.connectState
      case disconnected => exact Nat.le_refl _
      case sentSyn0 => exact Nat.le_refl _
      all_goals exact hreplay
    | dis => exact Nat.le_refl _
    | other => exact Nat.le_refl _
  | bad => exact Nat.le_refl _
  | silent => exact Nat.le_refl _

end Endpoint

/-! ## The connection state that a side reaches -/

namespace SFPconnectstate

/-- No frame brings a party back to asking, -/
theorem next_ne_sentSyn0 {s : SFPconnectstate} (h : s ≠ .sentSyn0) (k : Kind) :
    s.next k ≠ .sentSyn0 := by
  cases s <;> cases k <;> simp_all [next]

/-- and no number of frames does. -/
theorem run_next_ne_sentSyn0 {s : SFPconnectstate} (h : s ≠ .sentSyn0) (q : List Kind) :
    run next s q ≠ .sentSyn0 := by
  have hstep : ∀ t k, t ≠ SFPconnectstate.sentSyn0 → next t k ≠ .sentSyn0 :=
    fun _ k ht => next_ne_sentSyn0 ht k
  have hrun := Lib.run_invariant_of_step hstep q h
  exact hrun

/-- How far a side is from refusing everything. -/
def rank : SFPconnectstate → Nat
  | disconnected => 0
  | connected => 1
  | _ => 2

/-- Without a `SYN0` the state moves down or stays. -/
theorem rank_next {s : SFPconnectstate} (hs : s ≠ .sentSyn0) {k : Kind} (hk : k ≠ .syn0) :
    (s.next k).rank < s.rank ∨ s.next k = s := by
  cases s <;> cases k <;> simp_all [next, rank]

/-- A side that hears no `SYN0` ends up further down, or never moves. -/
theorem rank_run_next {s : SFPconnectstate} (hs : s ≠ .sentSyn0) {q : List Kind}
    (hq : .syn0 ∉ q) :
    (run next s q).rank < s.rank ∨
      run next s q = s ∧ Meets next (fun t k => t = s ∧ t.next k = t) s q := by
  induction q generalizing s with
  | nil => exact Or.inr ⟨rfl, trivial⟩
  | cons k q ih =>
    have hk : k ≠ .syn0 := fun h => hq (by simp [h])
    have hrest : .syn0 ∉ q := fun h => hq (List.mem_cons_of_mem k h)
    have hnext := ih (next_ne_sentSyn0 hs k) hrest
    -- the first frame moves the state down, or leaves it to the others
    rcases rank_next hs hk with hlt | heq
    · rcases hnext with hlt' | ⟨heq', -⟩
      · exact Or.inl (Nat.lt_trans hlt' hlt)
      · rw [run_cons, heq']
        exact Or.inl hlt
    · rw [heq] at hnext
      rw [run_cons, heq]
      exact hnext.imp_right fun h => ⟨h.1, ⟨rfl, heq⟩, by rw [heq]; exact h.2⟩

end SFPconnectstate

/-! ## The measure -/

section Effort

open SFPconnectstate (next rank run_next_ne_sentSyn0 rank_run_next)

/-- A side that ends in `SENT_SYN0` waits for a `SYN0` or `SYN1` that nobody has sent. -/
def waits (a : SFPconnectstate) : Nat :=
  if a = .sentSyn0 then 1 else 0

/-- What is in flight to a side that ends in `a`, while somebody waits: a side that waits answers
each frame with a `SYN0`, the other one answers a `SYN0` with the `SYN1` that ends the wait. -/
def load (K : Nat) (a : SFPconnectstate) : Kind → Nat
  | .syn0 => if a = .sentSyn0 then 2 else 1
  | _ => if a = .sentSyn0 then 2 else 3 + 2 * K

def loads (K : Nat) (a b : SFPconnectstate) (q r : List Kind) : Nat :=
  if waits a + waits b = 0 then 0 else (q.map (load K a)).sum + (r.map (load K b)).sum

/-- `SYN0`s in flight, and frames that are going to be answered with one. -/
def asks : SFPconnectstate → Kind → Nat
  | _, .syn0 => 1
  | .sentSyn0, .rtx => 2
  | .sentSyn0, .syn2 => 2
  | _, _ => 0

/-- Frames heard before the state `a` is reached for good. -/
def unsettled (a s : SFPconnectstate) (k : Kind) : Nat :=
  if s = a ∧ s.next k = a then 0 else 1

/-- What a frame is worth to a settled side, when its peer ends in `b`. -/
def worth (K : Nat) (b : SFPconnectstate) : SFPconnectstate → Kind → Nat
  | .disconnected, .dis => 1
  | .disconnected, .idle => 1
  | .disconnected, _ => 2
  | .connected, .syn1 => if b = .sentSyn1 then 1 else 3 + 5 * K
  | .connected, .syn2 => 1 + 3 * K
  | .connected, _ => 1
  | _, _ => 3

/-- The measure of two sides in the states `s` and `t`, with `q` and `r` in flight to them. -/
def effort (K : Nat) (s t : SFPconnectstate) (q r : List Kind) :
    ℕ ×ₗ ℕ ×ₗ ℕ ×ₗ ℕ ×ₗ ℕ ×ₗ ℕ ×ₗ ℕ ×ₗ ℕ :=
  let a := run next s q
  let b := run next t r
  toLex (q.count .talk + r.count .talk,
    toLex (q.count .nak + r.count .nak,
    toLex (waits a + waits b,
    toLex (loads K a b q r,
    toLex (cost next asks s q + cost next asks t r,
    toLex (rank a + rank b,
    toLex (cost next (unsettled a) s q + cost next (unsettled b) t r,
      cost next (worth K b) s q + cost next (worth K a) t r)))))))

/-- The effort does not depend on which of the two sides comes first. -/
theorem effort_comm (K : Nat) (s t : SFPconnectstate) (q r : List Kind) :
    effort K s t q r = effort K t s r q := by
  simp only [effort, loads, Nat.add_comm]

variable {K : Nat} {s : SFPconnectstate} {k : Kind} {sent : List Kind}

/-- A `talk` frame is never sent in reply, -/
theorem Replies.talk_notMem (h : Replies K s k sent) : .talk ∉ sent := by
  cases h with
  | talk h => exact h
  | nak h _ => exact h
  | confirm => simp
  | complete => simp
  | _ => simp

/-- and a `NAK` only in reply to one. -/
theorem Replies.nak_notMem (h : Replies K s k sent) (hk : k ≠ .talk) : .nak ∉ sent := by
  cases h with
  | talk _ => exact absurd rfl hk
  | nak _ h => exact h
  | confirm => simp
  | complete => simp
  | _ => simp

/-- Hearing what is in flight can only end a wait. -/
theorem waits_run_le (b : SFPconnectstate) (sent : List Kind) :
    waits (run next b sent) ≤ waits b := by
  -- once a side is out of `SENT_SYN0` it stays out
  by_cases hb : b = .sentSyn0
  · rw [waits, waits, if_pos hb]
    split <;> simp
  · have hrun := run_next_ne_sentSyn0 hb sent
    rw [waits, waits, if_neg hb, if_neg hrun]

/-- A party that does not ask waits for nothing. -/
theorem waits_eq_zero_iff (b : SFPconnectstate) : waits b = 0 ↔ b ≠ .sentSyn0 := by
  rw [waits]
  split <;> simp_all

/-- In reply to any other frame, at most the history and one control frame are sent. -/
theorem Replies.length_le (h : Replies K s k sent) (htalk : k ≠ .talk) (hnak : k ≠ .nak) :
    sent.length ≤ K + 1 := by
  cases h with
  | talk _ => exact absurd rfl htalk
  | nak _ _ => exact absurd rfl hnak
  | confirm _ le => simpa using le
  | complete _ le => simpa using Nat.le_succ_of_le le
  | _ => simp

/-! ### While somebody waits -/

/-- The load of a frame towards a party that still asks, -/
theorem load_sentSyn0 (k : Kind) : load K .sentSyn0 k = 2 := by cases k <;> rfl

/-- and towards one that does not. -/
theorem load_of_ne_syn0 {a : SFPconnectstate} (ha : a ≠ .sentSyn0) (hk : k ≠ .syn0) :
    load K a k = 3 + 2 * K := by
  cases k <;> simp_all [load]

/-- The load depends on the waiting alone. -/
theorem load_congr {a b : SFPconnectstate} (h : waits a = waits b) : load K a = load K b := by
  funext k
  have hiff : a = .sentSyn0 ↔ b = .sentSyn0 := by
    rw [← not_iff_not, ← ne_eq, ← ne_eq, ← waits_eq_zero_iff, ← waits_eq_zero_iff, h]
  cases k <;> simp [load, hiff]

/-- A side that waits answers a frame with a lighter one, as long as its peer still waits too. -/
theorem load_lt_of_waits (h : Replies K .sentSyn0 k sent) (htalk : k ≠ .talk) (hnak : k ≠ .nak)
    (hstays : next .sentSyn0 k = .sentSyn0) {b : SFPconnectstate}
    (hwaits : waits (run next b sent) = waits b) :
    (sent.map (load K b)).sum < load K .sentSyn0 k := by
  rw [load_sentSyn0]
  cases h with
  | talk _ => exact absurd rfl htalk
  | nak _ _ => exact absurd rfl hnak
  | repeat0 _ =>
    -- the `SYN0` ends the wait of the peer, so it was not waiting
    have hb : b ≠ .sentSyn0 := by
      rw [← waits_eq_zero_iff, ← hwaits]
      rfl
    simp [load, hb]
  | complete hs _ => simp at hs
  | idle => simp
  | close => cases hstays
  | answer => cases hstays
  | confirm _ _ => cases hstays

/-- The peer of a side that waits answers each frame with too few frames to make up for it. -/
theorem load_lt_of_peer_waits (h : Replies K s k sent) (htalk : k ≠ .talk) (hnak : k ≠ .nak)
    {a : SFPconnectstate} (ha : a ≠ .sentSyn0) (hstays : run next .sentSyn0 sent = .sentSyn0) :
    (sent.map (load K .sentSyn0)).sum < load K a k := by
  have hload : load K .sentSyn0 = fun _ => 2 := funext load_sentSyn0
  have hsum : (sent.map (load K .sentSyn0)).sum = 2 * sent.length := by
    rw [hload]
    simp [Nat.mul_comm]
  have hlen := h.length_le htalk hnak
  -- the answer to a `SYN0` ends the wait
  have hk : k ≠ .syn0 := by
    rintro rfl
    cases h with
    | answer => cases hstays
    | refuse hk => simp at hk
    | repeat0 hk => simp at hk
  rw [hsum, load_of_ne_syn0 ha hk]
  omega

/-- **The replies weigh less than the frame**, as long as somebody waits. -/
theorem load_lt (h : Replies K s k sent) (htalk : k ≠ .talk) (hnak : k ≠ .nak) {q : List Kind}
    {b : SFPconnectstate} (hwaits : waits (run next b sent) = waits b)
    (hsome : waits (run next (next s k) q) + waits b ≠ 0) :
    (sent.map (load K b)).sum < load K (run next (next s k) q) k := by
  by_cases ha : run next (next s k) q = .sentSyn0
  · -- a side that ends in `SENT_SYN0` was there all the time
    have hnext : next s k = .sentSyn0 := by
      by_contra hne
      exact run_next_ne_sentSyn0 hne q ha
    have hs : s = .sentSyn0 := by
      by_contra hne
      exact SFPconnectstate.next_ne_sentSyn0 hne k hnext
    subst hs
    rw [ha]
    exact load_lt_of_waits h htalk hnak hnext hwaits
  · -- then it is the peer that waits
    have hb : b = .sentSyn0 := by
      by_contra hne
      exact hsome (by rw [(waits_eq_zero_iff _).mpr ha, (waits_eq_zero_iff _).mpr hne])
    subst hb
    have hstays : run next .sentSyn0 sent = .sentSyn0 := by
      by_contra hne
      rw [(waits_eq_zero_iff _).mpr hne] at hwaits
      cases hwaits
    exact load_lt_of_peer_waits h htalk hnak ha hstays

/-! ### When nobody waits -/

/-- To a side that does not ask, only the `SYN0`s count. -/
theorem cost_asks {b : SFPconnectstate} (hb : b ≠ .sentSyn0) (sent : List Kind) :
    cost next asks b sent = sent.count .syn0 := by
  induction sent generalizing b with
  | nil => rfl
  | cons k sent ih =>
    -- out of `SENT_SYN0` only the `SYN0`s themselves count
    have hfirst : asks b k = if k = .syn0 then 1 else 0 := by
      cases b <;> cases k <;> first | rfl | exact absurd rfl hb
    rw [Lib.cost_cons, ih (SFPconnectstate.next_ne_sentSyn0 hb k), hfirst, List.count_cons,
      Nat.add_comm]
    simp

/-- A `SYN0` is sent in reply only to a frame that was counted as asking for more than that. -/
theorem Replies.count_syn0 (h : Replies K s k sent) (htalk : k ≠ .talk) (hnak : k ≠ .nak) :
    sent.count .syn0 < asks s k ∨ .syn0 ∉ sent ∧ asks s k = 0 := by
  cases h with
  | talk _ => exact absurd rfl htalk
  | nak _ _ => exact absurd rfl hnak
  | idle => exact Or.inr ⟨by simp, rfl⟩
  | close => exact Or.inr ⟨by simp, rfl⟩
  | answer => exact Or.inl (by simp [asks])
  | refuse hk =>
    refine Or.inr ⟨by simp, ?_⟩
    rcases hk with rfl | rfl | rfl <;> rfl
  | repeat0 hk =>
    refine Or.inl ?_
    rcases hk with rfl | rfl <;> simp [asks]
  | repeat1 => exact Or.inr ⟨by simp, rfl⟩
  | take => exact Or.inr ⟨by simp, rfl⟩
  | confirm _ _ => exact Or.inr ⟨by simp, rfl⟩
  | complete hs _ =>
    refine Or.inr ⟨by simp, ?_⟩
    rcases hs with rfl | rfl <;> rfl

/-- A settled side answers a frame with frames that are worth less, if they do not move its peer. -/
theorem worth_lt (h : Replies K s k sent) (htalk : k ≠ .talk) (hnak : k ≠ .nak)
    (hs : s ≠ .sentSyn0) (hsettled : next s k = s) (hasks : asks s k = 0) {b : SFPconnectstate}
    (hb : b ≠ .sentSyn0) (hstays : Meets next (fun t k => t = b ∧ next t k = t) b sent) :
    cost next (worth K s) b sent < worth K b s k := by
  -- a burst costs its length times what one packet costs
  have hrtx : ∀ n, cost next (worth K s) b (List.replicate n .rtx) = n * worth K s b .rtx :=
    fun n => Lib.cost_replicate rfl n
  cases h with
  | talk _ => exact absurd rfl htalk
  | nak _ _ => exact absurd rfl hnak
  | idle => cases s <;> first | exact absurd rfl hs | exact Nat.succ_pos _
  | close =>
    obtain rfl : s = .disconnected := hsettled.symm
    exact Nat.one_pos
  | answer => cases hasks
  | refuse hk =>
    -- only a disconnected peer is not moved by a `DIS`
    obtain ⟨⟨-, hdis⟩, -⟩ := hstays
    obtain rfl : b = .disconnected := hdis.symm
    rcases hk with rfl | rfl | rfl <;> exact Nat.lt_succ_self 1
  | repeat0 _ => exact absurd rfl hs
  -- a `SYN1` that does not move the peer is worth little to it
  | repeat1 =>
    obtain ⟨⟨-, hsyn1⟩, -⟩ := hstays
    cases b with
    | disconnected => exact Nat.lt_succ_self 2
    | sentSyn0 => exact absurd rfl hb
    | sentSyn1 => cases hsyn1
    | connected =>
      show 1 < 3
      decide
  | take => exact Nat.one_pos
  -- `SYN2` and a history: less than the `SYN1` was worth
  | @confirm _ n ne le =>
    obtain rfl : s = .connected := by
      cases s <;> first | rfl | exact absurd rfl ne | cases hsettled
    obtain ⟨⟨-, hsyn2⟩, -⟩ := hstays
    rw [Lib.cost_cons, hsyn2, hrtx]
    cases b with
    | disconnected =>
      show 2 + n * 2 < 3 + 5 * K
      omega
    | sentSyn0 => exact absurd rfl hb
    | sentSyn1 => cases hsyn2
    | connected =>
      show 1 + 3 * K + n * 1 < 3 + 5 * K
      omega
  -- a history: less than the `SYN2` was worth
  | @complete _ n either le =>
    obtain rfl : s = .connected := by
      rcases either with rfl | rfl
      · cases hsettled
      · rfl
    have hworth : worth K .connected b .rtx ≤ 3 := by
      cases b <;> simp [worth]
    have hmul : n * worth K .connected b .rtx ≤ K * 3 := Nat.mul_le_mul le hworth
    rw [hrtx]
    show _ < 1 + 3 * K
    omega

/-! ### Every frame heard decreases the measure -/

/-- Frames of a kind that is not sent in reply only get fewer. -/
theorem count_step {x : Kind} (hx : x ∉ sent) (k : Kind) (q r : List Kind) :
    q.count x + (r ++ sent).count x ≤ (k :: q).count x + r.count x ∧
      (q.count x + (r ++ sent).count x = (k :: q).count x + r.count x → k ≠ x) := by
  have hsent : sent.count x = 0 := List.count_eq_zero.mpr hx
  rw [List.count_append, hsent, List.count_cons]
  constructor
  · omega
  · rintro heq rfl
    simp at heq

/-- Hearing a frame and sending the replies does not add to the loads. -/
theorem loads_step (h : Replies K s k sent) (htalk : k ≠ .talk) (hnak : k ≠ .nak) {q : List Kind}
    {a b : SFPconnectstate} (ha : run next (next s k) q = a)
    (hwaits : waits (run next b sent) = waits b) (r : List Kind) :
    loads K a (run next b sent) q (r ++ sent) ≤ loads K a b (k :: q) r ∧
      (loads K a (run next b sent) q (r ++ sent) = loads K a b (k :: q) r →
        a ≠ .sentSyn0 ∧ b ≠ .sentSyn0) := by
  rw [loads, loads, hwaits]
  by_cases hzero : waits a + waits b = 0
  · obtain ⟨hza, hzb⟩ := Nat.add_eq_zero_iff.mp hzero
    rw [if_pos hzero, if_pos hzero]
    exact ⟨Nat.le_refl _, fun _ => ⟨(waits_eq_zero_iff a).mp hza, (waits_eq_zero_iff b).mp hzb⟩⟩
  · subst ha
    have hlt := load_lt h htalk hnak hwaits hzero
    rw [if_neg hzero, if_neg hzero, load_congr hwaits, List.map_append, List.sum_append,
      List.map_cons, List.sum_cons]
    exact ⟨by omega, fun heq => by omega⟩

/-- It does not add to what is still asked either, -/
theorem asks_step (h : Replies K s k sent) (htalk : k ≠ .talk) (hnak : k ≠ .nak)
    {t : SFPconnectstate} {r : List Kind} (hb : run next t r ≠ .sentSyn0) (q : List Kind) :
    cost next asks (next s k) q + cost next asks t (r ++ sent)
        ≤ cost next asks s (k :: q) + cost next asks t r ∧
      (cost next asks (next s k) q + cost next asks t (r ++ sent)
          = cost next asks s (k :: q) + cost next asks t r → asks s k = 0 ∧ .syn0 ∉ sent) := by
  rw [Lib.cost_append, cost_asks hb, Lib.cost_cons]
  rcases h.count_syn0 htalk hnak with hlt | ⟨hsent, hasks⟩
  · exact ⟨by omega, fun heq => by omega⟩
  · rw [List.count_eq_zero.mpr hsent, hasks]
    exact ⟨by omega, fun _ => ⟨rfl, hsent⟩⟩

/-- nor to what is still unsettled. -/
theorem unsettled_step {a : SFPconnectstate} {t : SFPconnectstate} {r : List Kind}
    (hstays : Meets next (fun u j => u = run next t r ∧ next u j = u) (run next t r) sent)
    (s : SFPconnectstate) (k : Kind) (q : List Kind) :
    cost next (unsettled a) (next s k) q + cost next (unsettled (run next t r)) t (r ++ sent)
        ≤ cost next (unsettled a) s (k :: q) + cost next (unsettled (run next t r)) t r ∧
      (cost next (unsettled a) (next s k) q + cost next (unsettled (run next t r)) t (r ++ sent)
          = cost next (unsettled a) s (k :: q) + cost next (unsettled (run next t r)) t r →
        s = a ∧ next s k = a) := by
  have hsent : cost next (unsettled (run next t r)) (run next t r) sent = 0 := by
    apply Lib.cost_eq_zero_of_meets
    apply hstays.mono
    rintro u j ⟨rfl, hnext⟩
    exact if_pos ⟨rfl, hnext⟩
  rw [Lib.cost_append, hsent, Lib.cost_cons]
  by_cases hk : s = a ∧ next s k = a
  · exact ⟨by omega, fun _ => hk⟩
  · rw [unsettled, if_neg hk]
    exact ⟨by omega, fun heq => by omega⟩

/-- **A frame heard decreases the measure**, whatever it is answered with. -/
theorem effort_lt (h : Replies K s k sent) (t : SFPconnectstate) (q r : List Kind) :
    effort K (next s k) t q (r ++ sent) < effort K s t (k :: q) r := by
  have hpeer : run next t (r ++ sent) = run next (run next t r) sent := Lib.run_append _ _ _ _
  obtain ⟨a, ha⟩ : ∃ a, run next (next s k) q = a := ⟨_, rfl⟩
  simp only [effort, Lib.run_cons, hpeer, ha, Prod.Lex.toLex_lt_toLex']
  -- `talk` and `NAK`
  obtain ⟨hle, htalk⟩ := count_step h.talk_notMem k q r
  refine ⟨hle, fun heq => ?_⟩
  have htalk := htalk heq
  obtain ⟨hle, hnak⟩ := count_step (h.nak_notMem htalk) k q r
  refine ⟨hle, fun heq => ?_⟩
  have hnak := hnak heq
  -- somebody waits for a `SYN0` or `SYN1`
  refine ⟨Nat.add_le_add_left (waits_run_le _ sent) _, fun heq => ?_⟩
  have hwaits := Nat.add_left_cancel heq
  obtain ⟨hle, hnobody⟩ := loads_step h htalk hnak ha hwaits r
  refine ⟨hle, fun heq => ?_⟩
  obtain ⟨hna, hnb⟩ := hnobody heq
  -- a `SYN0` was asked for, or is not sent
  obtain ⟨hle, hasks⟩ := asks_step h htalk hnak hnb q
  refine ⟨hle, fun heq => ?_⟩
  obtain ⟨hasks, hsyn0⟩ := hasks heq
  rcases rank_run_next hnb hsyn0 with hlt | ⟨hsame, hstays⟩
  · -- the replies move the peer further down
    exact ⟨by omega, fun heq => by omega⟩
  -- the peer stays where it is
  rw [hsame]
  refine ⟨Nat.le_refl _, fun _ => ?_⟩
  obtain ⟨hle, hsettled⟩ := unsettled_step (a := a) hstays s k q
  refine ⟨hle, fun heq => ?_⟩
  obtain ⟨rfl, hnext⟩ := hsettled heq
  -- both sides are settled: only the worth is left to decrease
  have hlt := worth_lt h htalk hnak hna hnext hasks hnb hstays
  rw [Lib.cost_append, Lib.cost_cons]
  omega

end Effort

/-! ## Links that are left alone -/

section Runs

variable {cap : Nat}

/-- The measure of a link whose histories hold at most `K` packets. -/
def netEffort (K : Nat) (l : Net α) (x : Side) : ℕ ×ₗ ℕ ×ₗ ℕ ×ₗ ℕ ×ₗ ℕ ×ₗ ℕ ×ₗ ℕ ×ₗ ℕ :=
  effort K (l.node x).connectState (l.node x.peer).connectState
    ((l.messages x).map Frame.kind) ((l.messages x.peer).map Frame.kind)

/-- Nor does that of a whole net. -/
theorem netEffort_peer (K : Nat) (l : Net α) (x : Side) :
    netEffort K l x.peer = netEffort K l x := by
  rw [netEffort, netEffort, effort_comm, Side.peer_peer]

/-- It does not matter from which side the measure is taken. -/
theorem netEffort_eq (K : Nat) (l : Net α) (x y : Side) : netEffort K l x = netEffort K l y := by
  rcases x.eq_or_eq_peer y with rfl | rfl
  · rfl
  · exact netEffort_peer K l y

/-- A side hears the next frame in flight to it. -/
def deliverStep (cap : Nat) (l : Net α) (x : Side) : Net α :=
  l.step (endpointParty α cap) (.deliver x)

/-- Deliveries never let a history grow. -/
theorem history_deliverStep {K : Nat} {l : Net α} (hK : ∀ y, (l.node y).history.length ≤ K)
    (x y : Side) : ((deliverStep cap l x).node y).history.length ≤ K := by
  cases hm : l.messages x with
  | nil =>
    rw [deliverStep, Link.deliver_of_messages_nil _ hm]
    exact hK y
  | cons f fs =>
    have hacts := Link.acts_deliver (endpointParty α cap) hm
    rcases y.eq_or_eq_peer x with rfl | rfl
    · rw [deliverStep, hacts.node]
      exact Nat.le_trans ((l.node y).length_history_receive_le f) (hK y)
    · rw [deliverStep, hacts.node_peer]
      exact hK x.peer

/-- **Every delivery takes effort away.** -/
theorem netEffort_deliverStep {K : Nat} {l : Net α} (hK : ∀ y, (l.node y).history.length ≤ K)
    {x : Side} (hx : l.messages x ≠ []) :
    netEffort K (deliverStep cap l x) .left < netEffort K l .left := by
  cases hm : l.messages x with
  | nil => exact absurd hm hx
  | cons f fs =>
    have hacts := Link.acts_deliver (endpointParty α cap) hm
    have hlt := effort_lt (Endpoint.receive_replies (hK x) f) (l.node x.peer).connectState
      (fs.map Frame.kind) ((l.messages x.peer).map Frame.kind)
    rw [netEffort_eq K _ .left x, netEffort_eq K _ .left x, netEffort, netEffort, deliverStep,
      hacts.node, hacts.node_peer, hacts.messages, hacts.messages_peer, hm, List.map_append]
    rw [← Endpoint.connectState_receive] at hlt
    exact hlt

/-- Two endpoints left alone fall silent, in whatever order they hear what is in flight. -/
theorem deliveries_bounded (cap : Nat) (l : Net α) :
    ∃ n, ∀ xs, Meets (deliverStep cap) (fun l x => l.messages x ≠ []) l xs → xs.length ≤ n := by
  obtain ⟨K, hK⟩ : ∃ K, ∀ y, (l.node y).history.length ≤ K := by
    refine ⟨max (l.node .left).history.length (l.node .right).history.length, ?_⟩
    refine Side.forall_of_peer .left ?_ ?_
    · exact Nat.le_max_left _ _
    · exact Nat.le_max_right _ _
  -- no reaction makes a history longer, so the bound is one for the run
  have hinv : ∀ (l : Net α) x, (∀ y, (l.node y).history.length ≤ K) → l.messages x ≠ [] →
      ∀ y, ((deliverStep cap l x).node y).history.length ≤ K :=
    fun _ x hl _ => history_deliverStep hl x
  have hdec : ∀ (l : Net α) x, (∀ y, (l.node y).history.length ≤ K) → l.messages x ≠ [] →
      netEffort K (deliverStep cap l x) .left < netEffort K l .left :=
    fun _ _ hl hx => netEffort_deliverStep hl hx
  exact Lib.exists_run_bound wellFounded_lt (fun l => netEffort K l .left) hinv hdec hK

end Runs

/-! ## Contexts that are left alone -/

variable [SfpConfig]

/-- A context hears the next frame in flight to it. -/
def hearNext (l : Line) (x : Side) : Line :=
  l.step sfpParty (.deliver x)

/-- **No frame storm.** Whatever the states of two contexts and whatever octets are in flight
between them, if nobody asks for anything and nothing is lost, the number of frames that can be
delivered is bounded. -/
theorem deliveries_finite {l : Line} (hl : sfpAbstraction.GoodLink l) :
    ∃ n, ∀ xs : List Side, Meets hearNext (fun l x => l.chan x ≠ []) l xs → xs.length ≤ n := by
  obtain ⟨n, hn⟩ := deliveries_bounded sfpConfigHistoryCapacity (sfpAbstraction.link l)
  refine ⟨n, ?_⟩
  intro xs hxs
  have hgood : ∀ (l : Line) x, sfpAbstraction.GoodLink l → l.chan x ≠ [] →
      sfpAbstraction.GoodLink (hearNext l x) :=
    fun _ _ hl _ => sfpAbstraction.good_step hl trivial
  -- the run of the contexts is one of the endpoints, delivery by delivery
  have hsim : ∀ (l : Line) x, sfpAbstraction.GoodLink l → l.chan x ≠ [] →
      sfpAbstraction.link (hearNext l x)
        = deliverStep sfpConfigHistoryCapacity (sfpAbstraction.link l) x :=
    fun _ x hl _ => sfpAbstraction.link_step hl (.deliver x)
  have hpending : ∀ (l : Line) x, sfpAbstraction.GoodLink l → l.chan x ≠ [] → l.chan x ≠ [] →
      (sfpAbstraction.link l).messages x ≠ [] := by
    intro l x _ hx _ hnil
    rw [Link.messages, List.map_eq_nil_iff] at hnil
    exact hx (sfpAbstraction.chan_link_eq_nil.mp hnil)
  have habs : Meets (deliverStep sfpConfigHistoryCapacity) (fun l x => l.messages x ≠ [])
      (sfpAbstraction.link l) (xs.map id) :=
    Lib.meets_simulates hgood hsim hpending hl hxs hxs
  rw [List.map_id] at habs
  exact hn xs habs

end Libsfp

namespace Libsfp

open Lib (Side Link Meets)

section HeaderDefaults

attribute [local instance] headerDefaults

/-- The deliveries behind a request for a session. -/
theorem deliveries_finite_asked : ∃ n, ∀ xs : List Side,
    Meets hearNext (fun l x => l.chan x ≠ []) askedLine xs → xs.length ≤ n :=
  deliveries_finite goodLink_askedLine

end HeaderDefaults

end Libsfp
