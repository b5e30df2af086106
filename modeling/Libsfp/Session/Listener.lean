import Libsfp.Session.StateTable

/-!
# Listeners

What a receiver is going to make of the frames on their way to it. A listener is the part of an
endpoint that decides which packets are accepted: the connection state and the label it expects.
It moves with the frames alone, so the channel in front of it tells where it ends.

1. `Follows n v q`: the listener `v` that hears `q` ends up connected and expecting `n`, or
   expecting the first packet of a session; on the way it misses packets only while it expects the
   first one.
2. `Trails a v`: of two listeners to one sender, `a` began to listen later than `v`. Once `a` has
   taken something the two are in the same place.
3. `Carries n m sent`: what a sender sends takes both from label `n` to label `m`.
4. `Guided n v q` collects what is known about the listener and about those who ask later, and
   is kept by every step of the sender and of the receiver.
-/

namespace Libsfp

open Lib (Meets run)

variable {α : Type*}

/-- The part of an endpoint that decides which packets it accepts. -/
structure Listener where
  connectState : SFPconnectstate
  rxSeq : Nat
  deriving DecidableEq, Repr

def Endpoint.listener (e : Endpoint α) : Listener := ⟨e.connectState, e.rxSeq⟩

namespace Listener

/-- A packet labelled `seq`. -/
def take (v : Listener) (seq : Nat) : Nat :=
  if v.connectState = .connected ∧ seq = v.rxSeq then (v.rxSeq + 1) % seqRange else v.rxSeq

def hear (v : Listener) (f : Frame α) : Listener where
  connectState := v.connectState.next f.kind
  rxSeq :=
    match f with
    | .usr seq _ => v.take seq
    | .rtx seq _ => v.take seq
    | .syn 0 => 0
    | _ => v.rxSeq

/-- The listener of a side that has just asked for a session. -/
def asked : Listener := ⟨.sentSyn0, 0⟩

/-- The listener of a side that has just answered. -/
def answered : Listener := ⟨.sentSyn1, 0⟩

/-- A `SYN1` connects every listener that is open. -/
theorem hear_syn1 {v : Listener} (h : v.connectState ≠ .disconnected) :
    v.hear (.syn1 : Frame α) = ⟨.connected, v.rxSeq⟩ := by
  show (⟨if v.connectState = .disconnected then .disconnected else .connected, v.rxSeq⟩ : Listener)
    = _
  rw [if_neg h]

theorem hear_usr (v : Listener) (seq : Nat) (p : α) :
    v.hear (.usr seq p) = ⟨v.connectState, v.take seq⟩ := rfl

theorem hear_rtx (v : Listener) (seq : Nat) (p : α) :
    v.hear (.rtx seq p) = ⟨v.connectState, v.take seq⟩ := rfl

/-- Only packets and a `SYN0` move what a listener expects. -/
theorem rxSeq_hear (v : Listener) {f : Frame α} (huser : f.isUser = false)
    (hsyn0 : f.kind ≠ .syn0) : (v.hear f).rxSeq = v.rxSeq := by
  cases f with
  | usr seq p => cases huser
  | rtx seq p => cases huser
  | syn seq =>
    cases seq using Frame.syn_cases with
    | syn0 => exact absurd rfl hsyn0
    | _ => rfl
  | _ => rfl

/-- Only a connected listener takes packets, -/
theorem take_of_ne_connected {v : Listener} (h : v.connectState ≠ .connected) (seq : Nat) :
    v.take seq = v.rxSeq :=
  if_neg fun hboth => h hboth.1

/-- and only the one it expects. -/
theorem take_of_ne {v : Listener} {seq : Nat} (h : seq ≠ v.rxSeq) : v.take seq = v.rxSeq :=
  if_neg fun hboth => h hboth.2

/-- The one it expects moves it on. -/
theorem take_self {v : Listener} (h : v.connectState = .connected) :
    v.take v.rxSeq = (v.rxSeq + 1) % seqRange :=
  if_pos ⟨h, rfl⟩

end Listener

namespace Endpoint

/-- A replay does not move what a party expects. -/
theorem rxSeq_replay (e : Endpoint α) : e.replay.endpoint.rxSeq = e.rxSeq := by
  unfold replay
  split <;> rfl

/-- What a party expects moves as that of its listener does, on data frames -/
theorem rxSeq_receiveUser (e : Endpoint α) (fresh : Bool) (seq : Nat) (p : α) :
    (e.receiveUser fresh seq p).endpoint.rxSeq = e.listener.take seq := by
  unfold receiveUser
  cases hstate : e.connectState with
  | connected =>
    by_cases hseq : seq = e.rxSeq
    · simp [Listener.take, listener, hstate, hseq]
    · simp [Listener.take, listener, hseq]
  | _ => simp [Listener.take, listener, answer, hstate]

/-- and on all frames. -/
theorem rxSeq_receive (e : Endpoint α) (f : Frame α) :
    (e.receive f).endpoint.rxSeq = (e.listener.hear f).rxSeq := by
  cases f with
  | usr seq p => exact e.rxSeq_receiveUser true seq p
  | rtx seq p => exact e.rxSeq_receiveUser false seq p
  | nak seq =>
    simp only [receive, receiveNak]
    cases e.connectState
    case connected => simp only; split <;> rfl
    all_goals rfl
  | syn seq =>
    cases seq using Frame.syn_cases with
    | syn0 => rfl
    | syn1 =>
      simp only [receive, receiveSyn, receiveSyn1]
      cases e.connectState
      case disconnected => rfl
      all_goals exact e.rxSeq_replay
    | syn2 =>
      simp only [receive, receiveSyn, receiveSyn2]
      cases e.connectState
      case disconnected => rfl
      case sentSyn0 => rfl
      all_goals exact e.rxSeq_replay
    | dis => rfl
    | other => rfl
  | bad => rfl
  | silent => rfl

/-- The packet is handed on if its label is the one expected. -/
theorem got_receiveUser (e : Endpoint α) (fresh : Bool) (seq : Nat) (p : α) :
    (e.receiveUser fresh seq p).got
      = if e.connectState = .connected ∧ seq = e.rxSeq then [p] else [] := by
  unfold receiveUser
  cases hstate : e.connectState with
  | connected =>
    by_cases hseq : seq = e.rxSeq
    · simp [hseq]
    · simp [hseq]
  | _ => simp [answer]

/-- Only a packet is handed on. -/
theorem got_receive_of_not_user (e : Endpoint α) {f : Frame α} (hf : f.isUser = false) :
    (e.receive f).got = [] := by
  cases f with
  | usr seq p => simp [Frame.isUser] at hf
  | rtx seq p => simp [Frame.isUser] at hf
  | nak seq =>
    simp only [receive, receiveNak]
    cases e.connectState
    case connected => simp only; split <;> rfl
    all_goals rfl
  | syn seq =>
    cases seq using Frame.syn_cases with
    | syn0 => rfl
    | syn1 =>
      simp only [receive, receiveSyn, receiveSyn1]
      cases e.connectState <;> rfl
    | syn2 =>
      simp only [receive, receiveSyn, receiveSyn2]
      cases e.connectState
      case disconnected => rfl
      case sentSyn0 => rfl
      all_goals rfl
    | dis => rfl
    | other => rfl
  | bad => rfl
  | silent => rfl

/-- One frame, one packet. -/
theorem length_got_receive (e : Endpoint α) (f : Frame α) : (e.receive f).got.length ≤ 1 := by
  have huser : ∀ fresh seq p, (e.receiveUser fresh seq p).got.length ≤ 1 := by
    intro fresh seq p
    rw [got_receiveUser]
    split <;> simp
  cases f with
  | usr seq p => exact huser true seq p
  | rtx seq p => exact huser false seq p
  | _ =>
    rw [got_receive_of_not_user e rfl]
    exact Nat.zero_le _

/-- Retransmissions are of one kind. -/
theorem kind_retransmissions (seq : Nat) (ps : List α) :
    ∀ f ∈ retransmissions seq ps, f.kind = .rtx := by
  induction ps generalizing seq with
  | nil => simp [retransmissions]
  | cons p ps ih =>
    intro f hf
    rcases List.mem_cons.mp hf with rfl | hf
    · rfl
    · exact ih _ f hf

/-- The listener moves with the frame alone. -/
theorem listener_receive (e : Endpoint α) (f : Frame α) :
    (e.receive f).endpoint.listener = e.listener.hear f := by
  rw [listener, e.connectState_receive, e.rxSeq_receive]
  rfl

end Endpoint

namespace Listener

/-! ## Retransmissions of a whole session -/

section Retransmissions

open Endpoint (retransmissions)

/-- Retransmissions say nothing to a listener that is not connected. -/
theorem run_hear_retransmissions_of_ne {v : Listener} (h : v.connectState ≠ .connected) (seq : Nat)
    (ps : List α) : run hear v (retransmissions seq ps) = v := by
  -- outside a session no packet is taken
  induction ps generalizing seq with
  | nil => rfl
  | cons p ps ih =>
    rw [retransmissions, Lib.run_cons, hear_rtx, take_of_ne_connected h]
    exact ih _

/-- They do not move the state of a listener. -/
theorem connectState_run_retransmissions (v : Listener) (seq : Nat) (ps : List α) :
    (run hear v (retransmissions seq ps)).connectState = v.connectState := by
  induction ps generalizing v seq with
  | nil => rfl
  | cons p ps ih =>
    rw [retransmissions, Lib.run_cons, ih]
    rfl

/-- A listener that expects the first of them accepts them all. -/
theorem run_hear_retransmissions {seq : Nat} (hlt : seq < seqRange) (ps : List α) :
    run hear ⟨.connected, seq⟩ (retransmissions seq ps)
      = ⟨.connected, (seq + ps.length) % seqRange⟩ := by
  -- each label is the expected one, and the next one is expected then
  induction ps generalizing seq with
  | nil =>
    show (⟨.connected, seq⟩ : Listener) = ⟨.connected, seq % seqRange⟩
    rw [Nat.mod_eq_of_lt hlt]
  | cons p ps ih =>
    have htake : take ⟨.connected, seq⟩ seq = (seq + 1) % seqRange :=
      take_self (v := ⟨.connected, seq⟩) rfl
    have hsum : seq + 1 + ps.length = seq + (p :: ps).length := by
      rw [List.length_cons]
      omega
    rw [retransmissions, Lib.run_cons, hear_rtx, htake, ih (Nat.mod_lt _ (by decide)),
      Nat.mod_add_mod, hsum]

/-- Once a listener has accepted one of them it accepts the rest; or it accepts none. -/
theorem run_hear_retransmissions_or {seq : Nat} (hlt : seq < seqRange) (r : Nat) (ps : List α) :
    run hear ⟨.connected, r⟩ (retransmissions seq ps) = ⟨.connected, r⟩ ∨
      run hear ⟨.connected, r⟩ (retransmissions seq ps)
        = ⟨.connected, (seq + ps.length) % seqRange⟩ := by
  induction ps generalizing seq with
  | nil => exact Or.inl rfl
  | cons p ps ih =>
    by_cases hseq : seq = r
    · subst hseq
      exact Or.inr (run_hear_retransmissions hlt (p :: ps))
    · have hmissed : take ⟨.connected, r⟩ seq = r := take_of_ne hseq
      have hsum : seq + 1 + ps.length = seq + (p :: ps).length := by
        rw [List.length_cons]
        omega
      have hrest := ih (Nat.mod_lt (seq + 1) (by decide))
      rw [Nat.mod_add_mod, hsum] at hrest
      rw [retransmissions, Lib.run_cons, hear_rtx, hmissed]
      exact hrest

end Retransmissions

/-! ## Where a listener ends -/

/-- A packet is missed only by a listener that expects the first one. -/
def Clean (v : Listener) (f : Frame α) : Prop :=
  ∀ seq p, f = .usr seq p → v.connectState = .connected → seq = v.rxSeq ∨ v.rxSeq = 0

/-- Up to date with a sender that sends label `n` next, or at the beginning. -/
def Lands (n : Nat) (v : Listener) : Prop :=
  v = ⟨.connected, n⟩ ∨ v.rxSeq = 0

namespace Lands

variable {n : Nat} {u : Listener}

/-- Whoever has just asked is at the beginning. -/
theorem asked (n : Nat) : Lands n asked := Or.inr rfl

/-- A connected listener at the beginning expects the first packet. -/
theorem eq_zero (h : u.connectState = .connected) (hu : u.rxSeq = 0) :
    u = ⟨.connected, 0⟩ := by
  cases u
  simp_all

/-- A connected listener is up to date after the whole session was sent again. -/
theorem run_retransmissions (h : Lands n u) (hu : u.connectState = .connected) {ps : List α}
    (hlen : ps.length % seqRange = n) :
    run hear u (Endpoint.retransmissions 0 ps) = ⟨.connected, n⟩ := by
  have hend : (0 + ps.length) % seqRange = n := by rw [Nat.zero_add, hlen]
  rcases h with rfl | hzero
  · -- it takes all from label `n` on, or it takes none
    have hfirst : 0 < seqRange := by decide
    rcases run_hear_retransmissions_or hfirst n ps with hrun | hrun
    · exact hrun
    · rw [hrun, hend]
  · rw [eq_zero hu hzero, run_hear_retransmissions (by decide), hend]

end Lands

/-- Frames that do not concern a listener that has just asked: it waits for a `SYN0` or `SYN1`. -/
def Waits (q : List (Frame α)) : Prop :=
  ∀ f ∈ q, f.kind ≠ .syn0 ∧ f.kind ≠ .syn1 ∧ f.kind ≠ .dis

/-- Where the listener `v` ends when it hears `q`, and how it gets there. -/
structure Follows (n : Nat) (v : Listener) (q : List (Frame α)) : Prop where
  clean : Meets hear Clean v q
  lands : Lands n (run hear v q)

namespace Follows

variable {n : Nat} {u v : Listener} {q : List (Frame α)}

/-- More frames behind the ones in flight. -/
theorem append {m : Nat} (h : Follows n v q) {sent : List (Frame α)}
    (hsent : ∀ u, Lands n u → Follows m u sent) : Follows m v (q ++ sent) where
  clean := Lib.meets_append.mpr ⟨h.clean, (hsent _ h.lands).clean⟩
  lands := by
    rw [Lib.run_append]
    exact (hsent _ h.lands).lands

/-- The first of the frames in flight is heard. -/
theorem tail {f : Frame α} (h : Follows n v (f :: q)) : Follows n (v.hear f) q :=
  ⟨h.clean.2, h.lands⟩

/-- Nothing to hear, -/
theorem nil (h : Lands n u) : Follows n u ([] : List (Frame α)) :=
  ⟨trivial, h⟩

/-- a new request, -/
theorem syn0 (n : Nat) (u : Listener) : Follows n u [(.syn0 : Frame α)] :=
  ⟨⟨fun _ _ hf => by simp at hf, trivial⟩, Or.inr rfl⟩

/-- or a frame that neither carries a packet nor changes the session. -/
theorem quiet (h : Lands n u) {f : Frame α} (huser : f.isUser = false) (hsyn0 : f.kind ≠ .syn0)
    (hdis : f.kind ≠ .dis) : Follows n u [f] := by
  constructor
  · refine ⟨?_, trivial⟩
    rintro seq p rfl
    cases huser
  · show Lands n (u.hear f)
    rcases h with rfl | hzero
    · -- a connected listener stays connected
      have hstays : SFPconnectstate.next .connected f.kind = .connected := by
        cases hkind : f.kind <;> simp_all [SFPconnectstate.next]
      have hrx := rxSeq_hear ⟨.connected, n⟩ huser hsyn0
      exact Or.inl (congrArg₂ Listener.mk hstays hrx)
    · exact Or.inr ((u.rxSeq_hear huser hsyn0).trans hzero)

/-- The next packet. -/
theorem usr (h : Lands n u) (p : α) : Follows ((n + 1) % seqRange) u [.usr n p] := by
  refine ⟨⟨?_, trivial⟩, ?_⟩
  · intro seq q hf _
    obtain ⟨rfl, -⟩ := Frame.usr.inj hf
    exact h.imp_left fun hu => by rw [hu]
  · rw [Lib.run_cons, Lib.run_nil, hear_usr]
    rcases h with rfl | hzero
    · exact Or.inl (congrArg (Listener.mk .connected) (take_self (v := ⟨.connected, n⟩) rfl))
    · -- the first packet, or one that is missed
      by_cases hboth : u.connectState = .connected ∧ n = u.rxSeq
      · obtain ⟨hstate, rfl⟩ := hboth
        rw [take_self hstate, hstate]
        exact Or.inl rfl
      · right
        show u.take n = 0
        rw [take, if_neg hboth, hzero]

/-- Retransmissions restart nothing. -/
theorem clean_retransmissions (v : Listener) (seq : Nat) (ps : List α) :
    Meets hear Clean v (Endpoint.retransmissions seq ps) := by
  induction ps generalizing v seq with
  | nil => trivial
  | cons p ps ih => exact ⟨fun _ _ hf => by simp at hf, ih _ _⟩

/-- The whole session again. -/
theorem retransmissions (h : Lands n u) {ps : List α} (hlen : ps.length % seqRange = n) :
    Follows n u (Endpoint.retransmissions 0 ps) := by
  refine ⟨clean_retransmissions _ _ _, ?_⟩
  by_cases hstate : u.connectState = .connected
  · exact Or.inl (h.run_retransmissions hstate hlen)
  · -- nothing is taken outside a session
    rw [run_hear_retransmissions_of_ne hstate]
    exact h

/-- A listener that has just asked does not move while it waits, -/
theorem run_hear_asked (h : Waits q) : run hear asked q = asked := by
  induction q with
  | nil => rfl
  | cons f q ih =>
    obtain ⟨hsyn0, hsyn1, hdis⟩ := h f (by simp)
    have hrest := ih fun g hg => h g (List.mem_cons_of_mem f hg)
    -- nothing else moves a listener that has asked
    cases f with
    | syn seq =>
      cases seq using Frame.syn_cases with
      | syn0 => exact absurd rfl hsyn0
      | syn1 => exact absurd rfl hsyn1
      | syn2 => exact hrest
      | dis => exact absurd rfl hdis
      | other => exact hrest
    | _ => exact hrest

/-- and it misses nothing. -/
theorem of_asked (n : Nat) (h : Waits q) : Follows n asked q := by
  refine ⟨?_, by rw [run_hear_asked h]; exact Lands.asked n⟩
  induction q with
  | nil => trivial
  | cons f q ih =>
    have hone : Waits [f] := fun g hg => h g (List.mem_cons.mpr (Or.inl (List.mem_singleton.mp hg)))
    have hstays : asked.hear f = asked := run_hear_asked hone
    constructor
    · intro _ _ _ hconnected
      cases hconnected
    · rw [hstays]
      exact ih fun g hg => h g (List.mem_cons_of_mem f hg)

end Follows

/-! ## Listeners to one sender -/

/-- `s` is no further in the handshake than `t`, if `t` is open. -/
def Behind (s t : SFPconnectstate) : Prop :=
  t = .disconnected ∨ s = t ∨ t = .connected ∧ s ≠ .disconnected ∨ s = .sentSyn0

/-- Both of two states move on alike. -/
theorem Behind.next {s t : SFPconnectstate} (h : Behind s t) {k : Kind} (hk : k ≠ .dis) :
    Behind (s.next k) (t.next k) := by
  cases s <;> cases t <;> cases k <;> simp_all [Behind, SFPconnectstate.next]

/-- Nobody is connected behind a side that is open and not connected. -/
theorem Behind.connected {t : SFPconnectstate} (h : Behind .connected t)
    (ht : t ≠ .disconnected) : t = .connected := by
  rcases h with h | h | ⟨h, -⟩ | h
  · exact absurd h ht
  · exact h.symm
  · exact h
  · cases h

/-- Of two listeners to one sender, `a` began to listen later than `v`, which is open: once `a` has
taken something both are in the same place. -/
structure Trails (a v : Listener) : Prop where
  behind : Behind a.connectState v.connectState
  abreast : v.connectState ≠ .disconnected → a.rxSeq ≠ 0 → v = a

section Trails

variable {n : Nat} {a u v : Listener} {q sent : List (Frame α)}

/-- Both began to listen at the same time. -/
theorem Trails.refl (v : Listener) : Trails v v :=
  ⟨Or.inr (Or.inl rfl), fun _ _ => rfl⟩

/-- One of them has just asked. -/
theorem trails_asked (v : Listener) : Trails asked v :=
  ⟨Or.inr (Or.inr (Or.inr rfl)), fun _ h => absurd rfl h⟩

/-- Only a `SYN0` opens a listener. -/
theorem ne_disconnected_of_hear {f : Frame α} (hf : f.kind ≠ .syn0)
    (h : (v.hear f).connectState ≠ .disconnected) : v.connectState ≠ .disconnected := by
  intro hv
  apply h
  show v.connectState.next f.kind = .disconnected
  rw [hv]
  cases hkind : f.kind <;> simp_all [SFPconnectstate.next]

/-- A frame that carries no packet and starts no session. -/
theorem Trails.quiet {f : Frame α} (h : Trails a v) (huser : f.isUser = false)
    (hsyn0 : f.kind ≠ .syn0) (hdis : f.kind ≠ .dis) : Trails (a.hear f) (v.hear f) where
  behind := h.behind.next hdis
  abreast := by
    intro hopen htaken
    rw [a.rxSeq_hear huser hsyn0] at htaken
    rw [h.abreast (ne_disconnected_of_hear hsyn0 hopen) htaken]

/-- The next packet. -/
theorem Trails.usr (h : Trails a v) (hv : Lands n v) (p : α) :
    Trails (a.hear (.usr n p)) (v.hear (.usr n p)) where
  behind := h.behind
  abreast := by
    intro hopen htaken
    by_cases hfirst : a.rxSeq = 0
    · -- it takes the packet as its first one, and so does the other one
      have hboth : a.connectState = .connected ∧ n = a.rxSeq := by
        by_contra hnot
        exact htaken ((if_neg hnot).trans hfirst)
      obtain ⟨hstate, rfl⟩ := hboth
      have hbehind := h.behind
      rw [hstate] at hbehind
      have hconnected : v.connectState = .connected := hbehind.connected hopen
      have hzero : v.rxSeq = 0 := by
        rcases hv with rfl | hzero
        · exact hfirst
        · exact hzero
      rw [Lands.eq_zero hstate hfirst, Lands.eq_zero hconnected hzero]
    · rw [h.abreast hopen hfirst]

/-- The whole session again. -/
theorem Trails.retransmissions (h : Trails a v) (ha : Lands n a) (hv : Lands n v) {ps : List α}
    (hlen : ps.length % seqRange = n) : Trails (run Listener.hear a (Endpoint.retransmissions 0 ps))
      (run Listener.hear v (Endpoint.retransmissions 0 ps)) where
  behind := by
    rw [connectState_run_retransmissions, connectState_run_retransmissions]
    exact h.behind
  abreast := by
    rw [connectState_run_retransmissions]
    intro hopen htaken
    by_cases hstate : a.connectState = .connected
    · -- both are connected, and up to date then
      have hbehind := h.behind
      rw [hstate] at hbehind
      rw [ha.run_retransmissions hstate hlen, hv.run_retransmissions (hbehind.connected hopen) hlen]
    · rw [run_hear_retransmissions_of_ne hstate] at htaken
      rw [h.abreast hopen htaken]

/-- Whoever asks for a session in the middle of `q` trails `v`. -/
def Leads (v : Listener) (q : List (Frame α)) : Prop :=
  ∀ t, t <:+ q → Trails (run Listener.hear asked t) (run Listener.hear v q)

/-- What a sender sends takes listeners from label `n` to label `m`. -/
structure Carries (n m : Nat) (sent : List (Frame α)) : Prop where
  follows : ∀ u, Lands n u → Follows m u sent
  trails : ∀ a v, Lands n a → Lands n v → Trails a v →
    Trails (run Listener.hear a sent) (run Listener.hear v sent)
  /-- Whoever asks in the middle of it waits. -/
  suffix : ∀ t, t <:+ sent → t = sent ∨ Waits t

namespace Carries

/-- A single frame is heard or not. -/
theorem suffix_one {f : Frame α} {t : List (Frame α)} (ht : t <:+ [f]) :
    t = [f] ∨ Waits t := by
  rcases List.suffix_cons_iff.mp ht with rfl | ht
  · exact Or.inl rfl
  · rw [List.suffix_nil.mp ht]
    exact Or.inr (by simp [Waits])

/-- Nothing is sent, -/
theorem nil (n : Nat) : Carries n n ([] : List (Frame α)) where
  follows _ hu := .nil hu
  trails _ _ _ _ h := h
  suffix _ ht := Or.inl (List.suffix_nil.mp ht)

/-- a request, -/
theorem syn0 (n m : Nat) : Carries n m [(.syn0 : Frame α)] where
  follows u _ := .syn0 m u
  trails _ _ _ _ _ := .refl answered
  suffix _ := suffix_one

/-- a frame that neither carries a packet nor changes the session, -/
theorem quiet (n : Nat) {f : Frame α} (huser : f.isUser = false) (hsyn0 : f.kind ≠ .syn0)
    (hdis : f.kind ≠ .dis) : Carries n n [f] where
  follows _ hu := .quiet hu huser hsyn0 hdis
  trails _ _ _ _ h := h.quiet huser hsyn0 hdis
  suffix _ := suffix_one

/-- the next packet, -/
theorem usr (n : Nat) (p : α) : Carries n ((n + 1) % seqRange) [.usr n p] where
  follows _ hu := .usr hu p
  trails _ _ _ hv h := h.usr hv p
  suffix _ := suffix_one

/-- or the whole session again. -/
theorem retransmissions {ps : List α} (hlen : ps.length % seqRange = n) :
    Carries n n (Endpoint.retransmissions 0 ps) where
  follows _ hu := .retransmissions hu hlen
  trails _ _ ha hv h := h.retransmissions ha hv hlen
  suffix t ht := by
    refine Or.inr fun f hf => ?_
    rw [Endpoint.kind_retransmissions 0 ps f (ht.subset hf)]
    simp

/-- One after the other. -/
theorem cons {m k : Nat} {f : Frame α} (h : Carries n m [f]) (h' : Carries m k sent)
    (hwaits : Waits sent) : Carries n k (f :: sent) where
  follows u hu := (h.follows u hu).append h'.follows
  trails a v ha hv htrails :=
    h'.trails _ _ (h.follows a ha).lands (h.follows v hv).lands (h.trails a v ha hv htrails)
  suffix t ht := by
    rcases List.suffix_cons_iff.mp ht with rfl | ht
    · exact Or.inl rfl
    · exact Or.inr fun g hg => hwaits g (ht.subset hg)

/-- Whoever asks in the middle of what is sent follows it, -/
theorem asking {m : Nat} (h : Carries n m sent) {t : List (Frame α)} (ht : t <:+ sent) :
    Follows m asked t := by
  rcases h.suffix t ht with rfl | hwaits
  · exact h.follows asked (.asked n)
  · exact .of_asked m hwaits

/-- trails everybody who listened before, -/
theorem trails_asking {m : Nat} (h : Carries n m sent) (hv : Lands n v) {t : List (Frame α)}
    (ht : t <:+ sent) : Trails (run Listener.hear asked t) (run Listener.hear v sent) := by
  rcases h.suffix t ht with rfl | hwaits
  · exact h.trails _ _ (.asked n) hv (trails_asked v)
  · rw [Follows.run_hear_asked hwaits]
    exact trails_asked _

/-- and leads whoever asks after it. -/
theorem leads_asking {m : Nat} (h : Carries n m sent) {t : List (Frame α)} (ht : t <:+ sent) :
    Leads asked t := by
  intro t' ht'
  rcases h.suffix t ht with rfl | hwaits
  · exact h.trails_asking (.asked n) ht'
  · -- all of them still wait
    rw [Follows.run_hear_asked hwaits, Follows.run_hear_asked fun f hf => hwaits f (ht'.subset hf)]
    exact .refl asked

end Carries

/-- A listener `v`, the frames `q` on their way to it, and the label `n` that is sent next. -/
structure Guided (n : Nat) (v : Listener) (q : List (Frame α)) : Prop where
  follows : Follows n v q
  leads : Leads v q
  /-- The receiver may ask for a session at any time. -/
  asking : ∀ t, t <:+ q → Follows n asked t
  leads_asking : ∀ t, t <:+ q → Leads asked t

namespace Guided

/-- Nothing was sent to a listener at the beginning. -/
theorem nil (h : v.rxSeq = 0) : Guided n v ([] : List (Frame α)) where
  follows := .nil (Or.inr h)
  leads t ht := by
    rw [List.suffix_nil.mp ht]
    exact trails_asked v
  asking t ht := by
    rw [List.suffix_nil.mp ht]
    exact .nil (.asked n)
  leads_asking t ht t' ht' := by
    rw [List.suffix_nil.mp ht] at ht' ⊢
    rw [List.suffix_nil.mp ht']
    exact .refl asked

/-- The end of what is in flight is the end of what was sent last, or includes it. -/
theorem suffix_append {t : List (Frame α)} (h : t <:+ q ++ sent) :
    t <:+ sent ∨ ∃ t', t' <:+ q ∧ t = t' ++ sent := by
  -- the suffix begins in the second part, or in the first
  rcases List.suffix_or_suffix_of_suffix h (List.suffix_append q sent) with h' | ⟨t', rfl⟩
  · exact Or.inl h'
  · obtain ⟨b, hb⟩ := h
    rw [← List.append_assoc] at hb
    exact Or.inr ⟨t', ⟨b, List.append_cancel_right hb⟩, rfl⟩

/-- A listener that leads those who ask later still leads them after more was sent. -/
theorem leads_append {m : Nat} (hc : Carries n m sent) (h : Leads v q)
    (hasking : ∀ t, t <:+ q → Follows n asked t) (hv : Lands n (run Listener.hear v q)) :
    Leads v (q ++ sent) := by
  intro t ht
  rw [Lib.run_append]
  rcases suffix_append ht with ht | ⟨t', ht', rfl⟩
  · exact hc.trails_asking hv ht
  · rw [Lib.run_append]
    exact hc.trails _ _ (hasking t' ht').lands hv (h t' ht')

/-- **The sender sends.** -/
theorem append {m : Nat} (h : Guided n v q) (hc : Carries n m sent) :
    Guided m v (q ++ sent) where
  follows := h.follows.append hc.follows
  leads := leads_append hc h.leads h.asking h.follows.lands
  asking t ht := by
    rcases suffix_append ht with ht | ⟨t', ht', rfl⟩
    · exact hc.asking ht
    · exact (h.asking t' ht').append hc.follows
  leads_asking t ht := by
    rcases suffix_append ht with ht | ⟨t', ht', rfl⟩
    · exact hc.leads_asking ht
    · exact leads_append hc (h.leads_asking t' ht') (fun s hs => h.asking s (hs.trans ht'))
        (h.asking t' ht').lands

/-- **The receiver hears.** -/
theorem tail {f : Frame α} (h : Guided n v (f :: q)) : Guided n (v.hear f) q where
  follows := h.follows.tail
  leads t ht := h.leads t (ht.trans (List.suffix_cons f q))
  asking t ht := h.asking t (ht.trans (List.suffix_cons f q))
  leads_asking t ht := h.leads_asking t (ht.trans (List.suffix_cons f q))

/-- **The receiver asks for a session.** -/
theorem ask (h : Guided n v q) : Guided n asked q where
  follows := h.asking q (List.suffix_refl q)
  leads := h.leads_asking q (List.suffix_refl q)
  asking := h.asking
  leads_asking := h.leads_asking

/-- **The sender starts over**, and an open receiver will have taken nothing of what it gives up:
then nobody else will. -/
theorem restart (h : Guided n v q) (hopen : (run Listener.hear v q).connectState ≠ .disconnected)
    (hnothing : (run Listener.hear v q).rxSeq = 0) : Guided 0 v q where
  follows := ⟨h.follows.clean, Or.inr hnothing⟩
  leads := h.leads
  asking t ht := by
    refine ⟨(h.asking t ht).clean, Or.inr ?_⟩
    by_contra htaken
    -- a later listener has taken nothing that the receiver did not
    rw [(h.leads t ht).abreast hopen htaken] at hnothing
    exact htaken hnothing
  leads_asking := h.leads_asking

end Guided

end Trails

/-! ## Listeners that stay open -/

section Open

variable {q : List (Frame α)}

/-- A frame that is no `DIS` is not of its kind. -/
theorem kind_ne_dis {f : Frame α} (h : f ≠ .dis) : f.kind ≠ .dis := by
  cases f with
  | syn seq =>
    cases seq using Frame.syn_cases with
    | dis => exact absurd rfl h
    | syn0 => simp [Frame.kind]
    | syn1 => simp [Frame.kind]
    | syn2 => simp [Frame.kind]
    | other => simp [Frame.kind]
  | _ => simp [Frame.kind]

/-- Without a `DIS` an open listener stays open. -/
theorem connectState_run_ne_disconnected {v : Listener} (hv : v.connectState ≠ .disconnected)
    (hdis : (.dis : Frame α) ∉ q) : (run hear v q).connectState ≠ .disconnected := by
  induction q generalizing v with
  | nil => exact hv
  | cons f q ih =>
    have hne : f ≠ .dis := fun h => hdis (by simp [h])
    apply ih _ fun h => hdis (List.mem_cons_of_mem f h)
    exact SFPconnectstate.next_ne_disconnected hv (kind_ne_dis hne)

end Open

end Listener

end Libsfp
