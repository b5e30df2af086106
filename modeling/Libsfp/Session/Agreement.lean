import Libsfp.Session.Listener
import Libsfp.Session.Quiescence

/-!
# Agreement on Sequence Numbers

Two endpoints agree when the label each one sends next is the label the other one expects. The
handshake is to bring that about: a `SYN0` resets both labels of the side that handles it, and the
`SYN1` that answers tells the other side so. But a `SYN1` does not say which `SYN0` it answers. A
side that has asked twice takes the first answer for the second one, and what it accepts in between
is forgotten by the side that sent it.

1. `Echoes` is what a side sends in answer to anything but a `SYN0`, as long as its history holds
   the whole session.
2. `Attuned` says, for one direction, that whatever becomes of the receiver it is up to date with
   the sender or at the beginning, and that it is up to date once no `SYN0` is on its way back.
3. The invariant survives a `SYN0` if the peer has taken nothing of the session that is given up.

All of it is about labels, which start over after `seqRange` packets.
-/

namespace Libsfp

open Lib (Side Outcome Party Parcel Link Action Meets run)

variable {α : Type*}

open Listener (hear asked answered Lands Clean Carries Guided)

/-! ## Answers of a side with its whole session at hand -/

namespace Endpoint

open Libsfp.Frame (syn0 syn1 syn2 dis)

/-- What an endpoint answers to a frame that is not a `SYN0`, and its next connection state. -/
inductive Echoes (e : Endpoint α) : SFPconnectstate → List (Frame α) → Prop where
  | nothing : Echoes e e.connectState []
  | missed : Echoes e e.connectState [.nak 0]
  | again0 (hs : e.connectState = .sentSyn0) : Echoes e .sentSyn0 [syn0]
  | again1 (hs : e.connectState = .sentSyn1) : Echoes e .sentSyn1 [syn1]
  | confirm : Echoes e .connected (syn2 :: e.replay.sent)
  | replay (hs : e.connectState ≠ .sentSyn0) : Echoes e .connected e.replay.sent

/-- The history holds the whole session: the next label counts its packets. -/
def Whole (e : Endpoint α) : Prop :=
  e.txSeq = e.history.length % seqRange

namespace Whole

variable {e : Endpoint α}

/-- A whole history is sent again as it is, -/
theorem replayFrom (h : e.Whole) : e.replayFrom 0 = ⟨e, retransmissions 0 e.history, []⟩ := by
  have hlabel : e.txSeq = e.history.length % seqRange := h
  have hskip : e.skipTo 0 = 0 := by
    rw [skipTo, hlabel]
    simp only [seqRange]
    omega
  have hkept : e.kept 0 = e.history := by
    rw [kept, hskip]
    split <;> rfl
  rw [Endpoint.replayFrom, hkept, Nat.zero_add, ← hlabel]

/-- which changes nothing. -/
theorem endpoint_replay (h : e.Whole) : e.replay.endpoint = e := by
  rw [Endpoint.replay]
  split
  · rw [h.replayFrom]
  · rfl

/-- A replay leaves every listener where the party is, -/
theorem carries_replay (h : e.Whole) : Carries e.txSeq e.txSeq e.replay.sent := by
  rw [Endpoint.replay]
  split
  · rw [h.replayFrom]
    exact .retransmissions h.symm
  · -- nothing is sent again
    exact .nil _

/-- and brings every connected one there. -/
theorem run_hear_replay (h : e.Whole) {v : Listener} (hv : Lands e.txSeq v)
    (hconnected : v.connectState = .connected) :
    run hear v e.replay.sent = ⟨.connected, e.txSeq⟩ := by
  rw [Endpoint.replay]
  split
  · rw [h.replayFrom]
    exact hv.run_retransmissions hconnected h.symm
  · next hzero =>
    -- the label is that of the first packet, and nothing is sent again
    rw [not_not.mp hzero] at hv ⊢
    exact hv.elim id (Lands.eq_zero hconnected)

end Whole

/-- Retransmissions are of one kind. -/
theorem kind_replay (e : Endpoint α) : ∀ f ∈ e.replay.sent, f.kind = .rtx := by
  rw [replay]
  split
  · exact kind_retransmissions _ _
  · exact fun f hf => absurd hf List.not_mem_nil

/-- The reply to a data frame. -/
theorem receiveUser_echoes {e : Endpoint α} (hne : e.connectState ≠ .disconnected) (fresh : Bool)
    {seq : Nat} (p : α)
    (hclean : fresh → e.connectState = .connected → seq = e.rxSeq ∨ e.rxSeq = 0) :
    Echoes e (e.receiveUser fresh seq p).endpoint.connectState
      (e.receiveUser fresh seq p).sent := by
  unfold receiveUser
  cases hstate : e.connectState with
  | disconnected => exact absurd hstate hne
  | sentSyn0 =>
    simp only [answer, hstate]
    exact .again0 hstate
  | sentSyn1 =>
    simp only [answer, hstate]
    exact .again1 hstate
  | connected =>
    have hnothing := Echoes.nothing (e := e)
    by_cases hseq : seq ≠ e.rxSeq
    · simp only [if_pos hseq]
      cases fresh with
      | false => exact hnothing
      | true =>
        -- only the first packet can be missed, so the `NAK` is for it
        have hzero := (hclean rfl hstate).resolve_left hseq
        have hmissed := Echoes.missed (e := e)
        rw [← hzero] at hmissed
        simpa using hmissed
    · rw [hstate] at hnothing
      simpa only [if_neg hseq] using hnothing

/-- **Answers of a side with its whole session at hand.** They change neither the session nor its
label. -/
theorem receive_echoes {e : Endpoint α} {f : Frame α} (hwhole : e.Whole)
    (hne : e.connectState ≠ .disconnected) (hproper : f.Proper) (hsyn0 : f ≠ syn0) (hdis : f ≠ dis)
    (hnak : ∀ seq, f = .nak seq → seq = 0) (hclean : Clean e.listener f) :
    (e.receive f).endpoint.txSeq = e.txSeq ∧ (e.receive f).endpoint.history = e.history ∧
      Echoes e (e.receive f).endpoint.connectState (e.receive f).sent := by
  -- packets do not touch the sending half
  have huser : ∀ fresh seq p, (e.receiveUser fresh seq p).endpoint.txSeq = e.txSeq ∧
      (e.receiveUser fresh seq p).endpoint.history = e.history := by
    intro fresh seq p
    unfold receiveUser
    cases e.connectState <;> simp only [answer, and_self]
    case connected => split <;> exact ⟨rfl, rfl⟩
  cases f with
  | usr seq p =>
    obtain ⟨htx, hhistory⟩ := huser true seq p
    exact ⟨htx, hhistory, receiveUser_echoes hne true p fun _ h => hclean seq p rfl h⟩
  | rtx seq p =>
    obtain ⟨htx, hhistory⟩ := huser false seq p
    exact ⟨htx, hhistory, receiveUser_echoes hne false p
      fun h => absurd h Bool.false_ne_true⟩
  -- a `NAK` asks for the beginning of the session
  | nak seq =>
    obtain rfl := hnak seq rfl
    simp only [receive, receiveNak, hwhole.replayFrom]
    cases hstate : e.connectState with
    | disconnected => exact absurd hstate hne
    | sentSyn0 => exact ⟨rfl, rfl, by simp only [answer, hstate]; exact .again0 hstate⟩
    | sentSyn1 => exact ⟨rfl, rfl, by simp only [answer, hstate]; exact .again1 hstate⟩
    | connected =>
      simp only
      split
      · next hlabel =>
        have hagain : e.replay.sent = retransmissions 0 e.history := by
          rw [Endpoint.replay, if_pos hlabel.symm, hwhole.replayFrom]
        refine ⟨rfl, rfl, ?_⟩
        rw [hstate, ← hagain]
        exact .replay (by simp [hstate])
      · exact ⟨rfl, rfl, .nothing⟩
  | syn seq =>
    cases seq using Frame.syn_cases with
    | syn0 => exact absurd rfl hsyn0
    | syn1 =>
      simp only [receive, receiveSyn, receiveSyn1, hwhole.endpoint_replay]
      cases hstate : e.connectState with
      | disconnected => exact absurd hstate hne
      | _ => exact ⟨trivial, trivial, .confirm⟩
    | syn2 =>
      simp only [receive, receiveSyn, receiveSyn2, hwhole.endpoint_replay]
      cases hstate : e.connectState with
      | disconnected => exact absurd hstate hne
      | sentSyn0 => exact ⟨rfl, rfl, by simp only [answer, hstate]; exact .again0 hstate⟩
      | _ => exact ⟨rfl, rfl, .replay (by simp [hstate])⟩
    | dis => exact absurd rfl hdis
    | other => exact absurd hproper (by simp [Frame.Proper])
  | bad => exact hproper.elim
  | silent => exact hproper.elim

/-- A listener in tune with a sender: up to date, or about to be told by it that it answered. -/
def Tuned (e : Endpoint α) (v : Listener) : Prop :=
  v = ⟨.connected, e.txSeq⟩ ∨ v = answered ∧ e.connectState = .sentSyn0

namespace Echoes

variable {e : Endpoint α} {s : SFPconnectstate} {sent : List (Frame α)}

/-- What a party sends in reply leaves its listeners where the party is. -/
theorem carries (h : Echoes e s sent) (hwhole : e.Whole) : Carries e.txSeq e.txSeq sent := by
  cases h with
  | nothing => exact .nil _
  | missed => exact .quiet _ rfl (by simp [Frame.kind]) (by simp [Frame.kind])
  | again0 => exact .syn0 _ _
  | again1 => exact .quiet _ rfl (by simp [Frame.kind]) (by simp [Frame.kind])
  | confirm =>
    have hsyn2 : Carries e.txSeq e.txSeq [(syn2 : Frame α)] :=
      .quiet _ rfl (by simp [Frame.kind]) (by simp [Frame.kind])
    refine hsyn2.cons hwhole.carries_replay fun f hf => ?_
    rw [e.kind_replay f hf]
    simp
  | replay => exact hwhole.carries_replay

/-- Whoever was tuned to the party still is when the reply was heard. -/
theorem tuned (h : Echoes e s sent) (hwhole : e.Whole) {e₁ : Endpoint α}
    (hstate : e₁.connectState = s) (htx : e₁.txSeq = e.txSeq) {v : Listener} (hv : Tuned e v) :
    Tuned e₁ (run hear v sent) := by
  -- a replay repeats what an up to date listener has
  have hignore : run hear ⟨.connected, e.txSeq⟩ e.replay.sent = ⟨.connected, e.txSeq⟩ :=
    hwhole.run_hear_replay (Or.inl rfl) rfl
  -- and brings everything to one that has just been told
  have haccept : run hear ⟨.connected, 0⟩ e.replay.sent = ⟨.connected, e.txSeq⟩ :=
    hwhole.run_hear_replay (Or.inr rfl) rfl
  rw [Tuned, hstate, htx]
  rcases hv with rfl | ⟨rfl, hs⟩
  · -- up to date
    cases h with
    | nothing => exact Or.inl rfl
    | missed => exact Or.inl rfl
    | again0 => exact Or.inr ⟨rfl, rfl⟩
    | again1 => exact Or.inl rfl
    | confirm => exact Or.inl hignore
    | replay => exact Or.inl hignore
  · -- about to be told
    cases h with
    | nothing => exact Or.inr ⟨rfl, hs⟩
    | missed => exact Or.inr ⟨rfl, hs⟩
    | again0 => exact Or.inr ⟨rfl, rfl⟩
    | again1 hs' =>
      rw [hs] at hs'
      cases hs'
    | confirm => exact Or.inl haccept
    | replay hs' => exact absurd hs hs'

/-- The only `NAK` in the handshake asks for label 0. -/
theorem nak (h : Echoes e s sent) {seq : Nat} (hmem : .nak seq ∈ sent) : seq = 0 := by
  cases h with
  | missed => simpa using hmem
  | confirm =>
    rcases List.mem_cons.mp hmem with hmem | hmem
    · cases hmem
    · have hkind := e.kind_replay _ hmem
      cases hkind
  | replay =>
    have hkind := e.kind_replay _ hmem
    cases hkind
  | _ => simp at hmem

end Echoes

end Endpoint

/-! ## The invariant -/

open Endpoint (Whole Echoes Tuned)

/-- A sender `e`, a receiver `e'`, the frames `out` between them and the frames `inn` on their way
back. -/
structure Attuned (e e' : Endpoint α) (out inn : List (Frame α)) : Prop where
  whole : e.connectState ≠ .disconnected → e.Whole
  nak : ∀ seq, (.nak seq : Frame α) ∈ out → seq = 0
  guided : Guided e.txSeq e'.listener out
  tuned : e.connectState ≠ .disconnected → (.syn0 : Frame α) ∉ inn →
    Tuned e (run hear e'.listener out)

namespace Attuned

variable {e e' e₁ : Endpoint α} {out inn inn₁ sent : List (Frame α)}

/-- The sender moves. -/
theorem send (h : Attuned e e' out inn) (hwhole : e₁.connectState ≠ .disconnected → e₁.Whole)
    (hnak : ∀ seq, (.nak seq : Frame α) ∈ sent → seq = 0) {n : Nat}
    (hguided : Guided n e'.listener out) (hcarries : Carries n e₁.txSeq sent)
    (htuned : e₁.connectState ≠ .disconnected → (.syn0 : Frame α) ∉ inn₁ →
      Tuned e₁ (run hear (run hear e'.listener out) sent)) :
    Attuned e₁ e' (out ++ sent) inn₁ where
  whole := hwhole
  nak := by
    intro seq hmem
    rcases List.mem_append.mp hmem with hmem | hmem
    · exact h.nak seq hmem
    · exact hnak seq hmem
  guided := hguided.append hcarries
  tuned := by
    rw [Lib.run_append]
    exact htuned

/-- The receiver does something that leaves its listener alone. -/
theorem receive (h : Attuned e' e inn out) (hlistener : e₁.listener = e.listener)
    (sent : List (Frame α)) : Attuned e' e₁ inn (out ++ sent) where
  whole := h.whole
  nak := h.nak
  guided := by
    rw [hlistener]
    exact h.guided
  tuned := by
    intro hne hsyn0
    rw [hlistener]
    exact h.tuned hne fun hmem => hsyn0 (List.mem_append_left sent hmem)

/-- The receiver asks for a session. -/
theorem receive_connect (h : Attuned e' e inn out) (hlistener : e₁.listener = Listener.asked) :
    Attuned e' e₁ inn (out ++ [.syn0]) where
  whole := h.whole
  nak := h.nak
  guided := by
    rw [hlistener]
    exact h.guided.ask
  tuned := fun _ hsyn0 => absurd (List.mem_append_right out (by simp)) hsyn0

/-- The receiver hears a frame. -/
theorem receive_hear {f : Frame α} (h : Attuned e' e (f :: inn) out)
    (hlistener : e₁.listener = e.listener.hear f) (sent : List (Frame α)) :
    Attuned e' e₁ inn (out ++ sent) where
  whole := h.whole
  nak := fun seq hmem => h.nak seq (List.mem_cons_of_mem f hmem)
  guided := by
    rw [hlistener]
    exact h.guided.tail
  tuned := by
    intro hne hsyn0
    rw [hlistener]
    exact h.tuned hne fun hmem => hsyn0 (List.mem_append_left sent hmem)

/-- The sender asks for a session. -/
theorem send_connect (h : Attuned e e' out inn) :
    Attuned e.connect.endpoint e' (out ++ e.connect.sent) inn := by
  refine h.send ?_ ?_ h.guided (.syn0 _ _) ?_
  · exact fun _ => rfl
  · simp [Endpoint.connect]
  · exact fun _ _ => Or.inr ⟨rfl, rfl⟩

/-- The sender writes a packet that has room in its history. -/
theorem send_write {capacity : Nat} (h : Attuned e e' out inn)
    (hne : e.connectState ≠ .disconnected) (hroom : e.history.length < capacity) (p : α) :
    Attuned (e.write capacity p).endpoint e' (out ++ (e.write capacity p).sent) inn := by
  have hlabel : e.txSeq = e.history.length % seqRange := h.whole hne
  refine h.send ?_ ?_ h.guided (.usr e.txSeq p) ?_
  · -- nothing is dropped, and both the label and the history grow by one
    intro _
    have hdrop : e.history.length + 1 - capacity = 0 := by omega
    show (e.txSeq + 1) % seqRange
      = ((e.history ++ [p]).drop (e.history.length + 1 - capacity)).length % seqRange
    rw [hdrop, List.drop_zero, List.length_append, List.length_singleton, hlabel, Nat.mod_add_mod]
  · simp [Endpoint.write]
  · intro _ hsyn0
    rcases h.tuned hne hsyn0 with hv | ⟨hv, hs⟩
    · -- the receiver is up to date and accepts the packet
      left
      rw [hv]
      show Listener.hear ⟨.connected, e.txSeq⟩ (.usr e.txSeq p) = _
      rw [Listener.hear_usr, Listener.take_self (v := ⟨.connected, e.txSeq⟩) rfl]
      rfl
    · right
      rw [hv]
      exact ⟨rfl, hs⟩

/-- The sender is told to start over, and its receiver has taken nothing of what it gives up. -/
theorem send_restart (h : Attuned e e' out (.syn0 :: inn))
    (hne : e'.connectState ≠ .disconnected) (hdis : (.dis : Frame α) ∉ out)
    (hnothing : (run hear e'.listener out).rxSeq = 0) :
    Attuned (e.receive .syn0).endpoint e' (out ++ (e.receive .syn0).sent) inn := by
  have hopen := Listener.connectState_run_ne_disconnected (v := e'.listener) hne hdis
  have hsyn1 : Carries 0 0 [(.syn1 : Frame α)] :=
    .quiet _ rfl (by simp [Frame.kind]) (by simp [Frame.kind])
  refine h.send ?_ ?_ (h.guided.restart hopen hnothing) hsyn1 ?_
  · exact fun _ => rfl
  · simp [Endpoint.receive, Endpoint.receiveSyn]
  · intro _ _
    left
    show run hear (run hear e'.listener out) [.syn1] = ⟨.connected, 0⟩
    rw [Lib.run_cons, Lib.run_nil, Listener.hear_syn1 hopen, hnothing]

/-- What the sender does when it hears anything but a `SYN0`. -/
theorem echoes {f : Frame α} (h : Attuned e e' out (f :: inn)) (h' : Attuned e' e (f :: inn) out)
    (hpolite : Polite e e' out (f :: inn)) (hpolite' : Polite e' e (f :: inn) out)
    (hsyn0 : f ≠ .syn0) : e.connectState ≠ .disconnected ∧ (e.receive f).endpoint.txSeq = e.txSeq ∧
      (e.receive f).endpoint.history = e.history ∧
      Echoes e (e.receive f).endpoint.connectState (e.receive f).sent := by
  have hne : e.connectState ≠ .disconnected := by
    intro hdis
    obtain ⟨-, ⟨-, hnil⟩ | hhead⟩ := hpolite.2.waiting hdis
    · cases hnil
    · exact hsyn0 (by simpa using hhead)
  have hdis : f ≠ .dis := fun hf => hpolite'.2.dis_notMem (by simp [hf])
  have hnak : ∀ seq, f = .nak seq → seq = 0 := fun seq hf => h'.nak seq (by simp [hf])
  refine ⟨hne, ?_⟩
  exact Endpoint.receive_echoes (h.whole hne) hne (hpolite'.1.proper f (by simp)) hsyn0 hdis
    hnak h'.guided.follows.clean.1

/-- The sender hears a frame. -/
theorem send_hear {f : Frame α} (h : Attuned e e' out (f :: inn))
    (h' : Attuned e' e (f :: inn) out) (hpolite : Polite e e' out (f :: inn))
    (hpolite' : Polite e' e (f :: inn) out)
    (hnothing : f = .syn0 → (run hear e'.listener out).rxSeq = 0) :
    Attuned (e.receive f).endpoint e' (out ++ (e.receive f).sent) inn := by
  by_cases hsyn0 : f = .syn0
  · subst hsyn0
    have hne : e'.connectState ≠ .disconnected :=
      fun hdis => absurd (hpolite'.2.waiting hdis).1 (List.cons_ne_nil _ _)
    exact h.send_restart hne hpolite.2.dis_notMem (hnothing rfl)
  · obtain ⟨hne, htx, hhistory, hechoes⟩ := h.echoes h' hpolite hpolite' hsyn0
    have hwhole := h.whole hne
    have hcarries := hechoes.carries hwhole
    rw [← htx] at hcarries
    refine h.send ?_ ?_ (htx ▸ h.guided) hcarries ?_
    · intro _
      rw [Whole, htx, hhistory]
      exact hwhole
    · exact fun seq hmem => hechoes.nak hmem
    · intro _ hinn
      have hbefore : (.syn0 : Frame α) ∉ f :: inn := by
        intro hmem
        rcases List.mem_cons.mp hmem with hf | hmem
        · exact hsyn0 hf.symm
        · exact hinn hmem
      exact hechoes.tuned hwhole rfl htx (h.tuned hne hbefore)

/-- What bounds the history of an open sender still does after it hears a frame. -/
theorem length_history_receive_le {f : Frame α} (h : Attuned e e' out (f :: inn))
    (h' : Attuned e' e (f :: inn) out) (hpolite : Polite e e' out (f :: inn))
    (hpolite' : Polite e' e (f :: inn) out) {n : Nat}
    (hn : e.connectState ≠ .disconnected → e.history.length ≤ n) :
    (e.receive f).endpoint.history.length ≤ n := by
  by_cases hsyn0 : f = .syn0
  · subst hsyn0
    exact Nat.zero_le _
  · obtain ⟨hne, -, hhistory, -⟩ := h.echoes h' hpolite hpolite' hsyn0
    rw [hhistory]
    exact hn hne

/-- A connected receiver with nothing on its way in either direction is up to date. -/
theorem quiet (h : Attuned e e' [] []) (hne : e.connectState ≠ .disconnected)
    (hconnected : e'.connectState = .connected) : e.txSeq = e'.rxSeq := by
  rcases h.tuned hne (by simp) with hv | ⟨hv, -⟩
  · exact (congrArg Listener.rxSeq hv).symm
  · have hstate : e'.connectState = .sentSyn1 := congrArg Listener.connectState hv
    rw [hstate] at hconnected
    cases hconnected

end Attuned

/-! ## Runs between endpoints -/

/-- Both invariants of a direction. -/
def Meshed (e e' : Endpoint α) (out inn : List (Frame α)) : Prop :=
  Polite e e' out inn ∧ Attuned e e' out inn

/-- The side that hears a `SYN0` gives up a session of which its peer has taken nothing, nor will
take anything that is on its way there: it is going to expect the first label. -/
def NothingTaken (e' : Endpoint α) (out inn : List (Frame α)) : Prop :=
  inn.head? = some .syn0 → (run hear e'.listener out).rxSeq = 0

section Steps

variable {capacity : Nat} {e e' : Endpoint α} {out inn : List (Frame α)}

/-- **A request keeps the two directions meshed.** -/
theorem meshed_request (r : EndpointRequest α)
    (hr : WritesOpen e r ∧ ∀ p, r = .write p → e.history.length < capacity)
    (h : Meshed e e' out inn) (h' : Meshed e' e inn out) :
    Meshed ((endpointParty α capacity).request e r).node e'
        (out ++ ((endpointParty α capacity).request e r).sent) inn ∧
      Meshed e' ((endpointParty α capacity).request e r).node inn
        (out ++ ((endpointParty α capacity).request e r).sent) := by
  obtain ⟨hpolite, hpolite'⟩ := polite_request capacity r hr.1 h.1 h'.1
  cases r with
  | connect => exact ⟨⟨hpolite, h.2.send_connect⟩, hpolite', h'.2.receive_connect rfl⟩
  | write p =>
    have hopen := hr.1 p rfl
    have hlt := hr.2 p rfl
    have hlistener : (e.write capacity p).endpoint.listener = e.listener := rfl
    exact ⟨⟨hpolite, h.2.send_write hopen hlt p⟩, hpolite', h'.2.receive hlistener _⟩

/-- **So does a frame that is heard.** -/
theorem meshed_hear (f : Frame α) (hf : NothingTaken e' out (f :: inn))
    (h : Meshed e e' out (f :: inn)) (h' : Meshed e' e (f :: inn) out) :
    Meshed ((endpointParty α capacity).hear e f).node e'
        (out ++ ((endpointParty α capacity).hear e f).sent) inn ∧
      Meshed e' ((endpointParty α capacity).hear e f).node inn
        (out ++ ((endpointParty α capacity).hear e f).sent) := by
  obtain ⟨hpolite, hpolite'⟩ := polite_hear capacity f h.1 h'.1
  -- the condition on the restart, for this frame
  have hnothing : f = .syn0 → (run hear e'.listener out).rxSeq = 0 :=
    fun hsyn0 => hf (by rw [hsyn0]; rfl)
  refine ⟨⟨hpolite, h.2.send_hear h'.2 h.1 h'.1 hnothing⟩, hpolite', ?_⟩
  exact h'.2.receive_hear (e.listener_receive f) _

end Steps

section Runs

variable {capacity : Nat} {l : Net α} {as : List (Action (EndpointRequest α) (Frame α))}

/-- No side writes more than `capacity` packets. -/
def WritesFit (capacity : Nat) (l : Net α) : Action (EndpointRequest α) (Frame α) → Prop
  | .request x (.write _) => (l.wrote x).length < capacity
  | _ => True

/-- A `SYN0` is handled only if nothing was taken of the session that it ends. -/
def RestartsClean (l : Net α) : Action (EndpointRequest α) (Frame α) → Prop
  | .deliver x => NothingTaken (l.node x.peer) (l.messages x.peer) (l.messages x)
  | _ => True

/-- The writer is not disconnected. -/
def OpenWrites (l : Net α) : Action (EndpointRequest α) (Frame α) → Prop
  | .request x (.write _) => (l.node x).connectState ≠ .disconnected
  | _ => True

/-! Runs on fixed inputs can be checked. -/

instance (l : Net α) : DecidablePred (OpenWrites l)
  | .request _ .connect => isTrue trivial
  | .request _ (.write _) => inferInstanceAs (Decidable (_ ≠ _))
  | .deliver _ => isTrue trivial
  | .lose _ _ => isTrue trivial
  | .corrupt _ _ _ => isTrue trivial

instance (l : Net α) : DecidablePred (WritesFit capacity l)
  | .request _ .connect => isTrue trivial
  | .request _ (.write _) => inferInstanceAs (Decidable (_ < _))
  | .deliver _ => isTrue trivial
  | .lose _ _ => isTrue trivial
  | .corrupt _ _ _ => isTrue trivial

instance [DecidableEq α] (l : Net α) : DecidablePred (RestartsClean l)
  | .request _ _ => isTrue trivial
  | .deliver _ => inferInstanceAs (Decidable (_ = _ → _ = _))
  | .lose _ _ => isTrue trivial
  | .corrupt _ _ _ => isTrue trivial

/-- The invariant of a whole link: an open side has no more than its user has written. -/
structure MeshedNet (l : Net α) : Prop where
  both : Link.Both Meshed l
  le : ∀ x, (l.node x).connectState ≠ .disconnected →
    (l.node x).history.length ≤ (l.wrote x).length

/-- Two parties that were set up are meshed. -/
theorem MeshedNet.start (history : Side → List α) : MeshedNet (netStart history) where
  both := by
    intro x
    refine ⟨both_polite_start history x, ?_, ?_, .nil rfl, ?_⟩
    · exact fun hopen => absurd rfl hopen
    · exact fun seq hmem => absurd hmem List.not_mem_nil
    · exact fun hopen => absurd rfl hopen
  le := fun _ hopen => absurd rfl hopen

/-- A step of the net. -/
theorem MeshedNet.step (h : MeshedNet l) {a : Action (EndpointRequest α) (Frame α)}
    (hpolite : PoliteStep l a) (hfit : WritesFit capacity l a) (hclean : RestartsClean l a) :
    MeshedNet (l.step (endpointParty α capacity) a) where
  both := by
    refine h.both.step (fun r => meshed_request r) meshed_hear hpolite.1 ?_ ?_
    · -- what an open side has is at most what was written, so there is room for one more
      rintro x r rfl
      refine ⟨hpolite.2 x r rfl, ?_⟩
      rintro p rfl
      exact Nat.lt_of_le_of_lt (h.le x (hpolite.2 x _ rfl p rfl)) hfit
    · rintro x rfl
      exact hclean
  le := by
    cases a with
    | request x r =>
      refine Side.forall_of_peer x ?_ ?_
      · rw [Link.step_request, Link.node_act, Link.wrote_act]
        cases r with
        -- a new session starts with the first packet
        | connect => exact fun _ => Nat.zero_le _
        | write p =>
          intro hopen
          show (((l.node x).history ++ [p]).drop _).length ≤ _
          rw [List.length_drop, List.length_append, List.length_append]
          exact Nat.le_trans (Nat.sub_le _ _) (Nat.succ_le_succ (h.le x hopen))
      · rw [Link.step_request, Link.node_act_peer, Link.wrote_act_peer]
        exact h.le x.peer
    | deliver x =>
      have hwrote : (l.step (endpointParty α capacity) (.deliver x)).wrote = l.wrote :=
        funext fun y => Link.wrote_deliver _ l x y
      rw [hwrote]
      cases hm : l.messages x with
      | nil =>
        rw [Link.deliver_of_messages_nil _ hm]
        exact h.le
      | cons f fs =>
        have hacts := Link.acts_deliver (endpointParty α capacity) hm
        have hin := h.both x
        have hout := h.both x.peer
        rw [Side.peer_peer] at hout
        rw [hm] at hin hout
        refine Side.forall_of_peer x ?_ ?_
        · rw [hacts.node]
          exact fun _ => hin.2.length_history_receive_le hout.2 hin.1 hout.1 (h.le x)
        · rw [hacts.node_peer]
          exact h.le x.peer
    | lose x i => exact hpolite.1.elim
    | corrupt x i f => exact hpolite.1.elim

/-- A run of the net. -/
theorem MeshedNet.run (h : MeshedNet l)
    (has : Meets (Link.step (endpointParty α capacity))
      (fun l a => PoliteStep l a ∧ WritesFit capacity l a ∧ RestartsClean l a) l as) :
    MeshedNet (run (Link.step (endpointParty α capacity)) l as) :=
  Lib.run_invariant (fun _ _ hl ha => hl.step ha.1 ha.2.1 ha.2.2) h has

/-- With both sides connected and nothing in flight the labels agree. -/
theorem MeshedNet.agree (h : MeshedNet l) (hquiet : ∀ x, l.messages x = [])
    (hconnected : ∀ x, (l.node x).connectState = .connected) (x : Side) :
    (l.node x).txSeq = (l.node x.peer).rxSeq := by
  have hx := (h.both x).2
  rw [hquiet, hquiet] at hx
  exact hx.quiet (by simp [hconnected]) (hconnected x.peer)

end Runs

/-! ## Runs between contexts -/

variable [SfpConfig]

/-- The frames in flight to a side. -/
def framesTo (l : Line) (x : Side) : List (Frame (List UInt8)) :=
  (l.messages x).map fun segment => (segmentVerdict segment).toFrame

/-- A packet is written only while all the packets of its side fit one history. -/
def WritesFitLine (l : Line) : Action Request (List UInt8) → Prop
  | .request x (.write _ _ _) => (l.wrote x).length < sfpConfigHistoryCapacity
  | _ => True

/-- A `SYN0` is handled only if the peer expects the first label once it has heard everything on its
way to it: it has taken nothing of the session that the `SYN0` ends. -/
def RestartsCleanLine (l : Line) : Action Request (List UInt8) → Prop
  | .deliver x =>
    (framesTo l x).head? = some .syn0 →
      (run hear (l.node x.peer).abs.listener (framesTo l x.peer)).rxSeq = 0
  | _ => True

/-- The conditions are the same on the line and on its endpoints: no more writes than fit, -/
theorem writesFit_iff {l : Line} {a : Action Request (List UInt8)} :
    WritesFit sfpConfigHistoryCapacity (sfpAbstraction.link l) (sfpAbstraction.action a)
      ↔ WritesFitLine l a := by
  cases a with
  | request x r => cases r <;> exact Iff.rfl
  | _ => exact Iff.rfl

/-- none of them while disconnected, -/
theorem openWrites_iff {l : Line} {a : Action Request (List UInt8)} :
    OpenWrites (sfpAbstraction.link l) (sfpAbstraction.action a) ↔ WritesOpenLine l a := by
  cases a with
  | request x r => cases r <;> exact Iff.rfl
  | _ => exact Iff.rfl

/-- and no restart over packets that were taken. -/
theorem restartsClean_iff {l : Line} {a : Action Request (List UInt8)} :
    RestartsClean (sfpAbstraction.link l) (sfpAbstraction.action a) ↔ RestartsCleanLine l a := by
  cases a with
  | deliver x =>
    show NothingTaken _ ((sfpAbstraction.link l).messages x.peer)
      ((sfpAbstraction.link l).messages x) ↔ _
    rw [NothingTaken, sfpAbstraction.messages_link, sfpAbstraction.messages_link]
    exact Iff.rfl
  | _ => exact Iff.rfl

/-- **Agreement on sequence numbers.** Nothing is lost, all the packets of a side fit one history,
and nobody writes on a disconnected side. As long as no `SYN0` ends a session of which the peer has
taken something, the sides agree on both labels whenever both are connected and both channels are
empty. -/
theorem sequence_agreement (memory : Side → SFPcontext) {as : List (Action Request (List UInt8))}
    (has : Meets (Link.step sfpParty)
      (fun l a => a.Lossless ∧ WritesOpenLine l a ∧ WritesFitLine l a ∧ RestartsCleanLine l a)
      (lineStart memory) as) :
    let l := run (Link.step sfpParty) (lineStart memory) as
    (∀ x, l.chan x = []) → (∀ x, (l.node x).connectState = .connected) →
      ∀ x, (l.node x).tx.seq = (l.node x.peer).rx.seq := by
  intro l hempty hconnected x
  have hgood := goodLink_lineStart memory
  have hactions : Meets (Link.step sfpParty) (fun _ a => sfpAbstraction.GoodAction a)
      (lineStart memory) as :=
    has.mono fun _ _ h => goodAction_of_lossless h.1
  -- the invariant is proved for endpoints and read off their abstraction
  have hmeshed : MeshedNet (sfpAbstraction.link l) := by
    rw [sfpAbstraction.link_run hgood hactions]
    apply (MeshedNet.start _).run
    apply sfpAbstraction.link_meets _ hgood hactions has
    rintro l a _ _ ⟨hlossless, hopen, hfit, hclean⟩
    exact ⟨politeStep_of_line hlossless hopen, writesFit_iff.mpr hfit,
      restartsClean_iff.mpr hclean⟩
  have hquiet : ∀ y, (sfpAbstraction.link l).messages y = [] :=
    fun y => sfpAbstraction.messages_link_of_nil (hempty y)
  exact UInt8.toNat_inj.mp (hmeshed.agree hquiet hconnected x)

end Libsfp

namespace Libsfp

open Lib (Side Link Action Meets run)

/-! ## A session that is forgotten -/

section HeaderDefaults

attribute [local instance] headerDefaults

/-- The run loses nothing. -/
theorem lossless_earlyRun : ∀ a ∈ .request .left .connect :: earlyRun, a.Lossless := by
  intro a ha
  rcases List.mem_cons.mp ha with rfl | ha
  · trivial
  · exact (oneWriter_earlyRun a ha).lossless

/-- Both sides agree behind an early packet. -/
theorem sequence_agreement_early :
    let l := run (Link.step sfpParty) (lineStart fun _ => SFPcontext.zero)
      (.request .left .connect :: earlyRun)
    (l.node .left).tx.seq = (l.node .right).rx.seq := by
  have hactions : Meets (Link.step sfpParty) (fun _ a => sfpAbstraction.GoodAction a)
      (lineStart fun _ => SFPcontext.zero) (.request .left .connect :: earlyRun) :=
    Lib.meets_of_forall fun a ha => goodAction_of_lossless (lossless_earlyRun a ha)
  have hmeets : Meets (Link.step sfpParty)
      (fun l a => a.Lossless ∧ WritesOpenLine l a ∧ WritesFitLine l a ∧ RestartsCleanLine l a)
      (lineStart fun _ => SFPcontext.zero) (.request .left .connect :: earlyRun) := by
    apply (Lib.meets_of_forall lossless_earlyRun).and
    apply sfpAbstraction.meets_of_link
      (fun l a => OpenWrites l a ∧ WritesFit sfpConfigHistoryCapacity l a ∧ RestartsClean l a) _
      (goodLink_lineStart _) hactions
    · decide +kernel
    · rintro l a _ _ ⟨hopen, hfit, hclean⟩
      exact ⟨openWrites_iff.mp hopen, writesFit_iff.mp hfit, restartsClean_iff.mp hclean⟩
  exact sequence_agreement (fun _ => SFPcontext.zero) hmeets quiet_earlyRun.1 quiet_earlyRun.2 .left

/-- The right side asks twice. The left side answers, writes a packet, and only then hears the
second question: it forgets the packet, which the right side accepts after the first answer. -/
def twiceAskedRun : List (Action Request (List UInt8)) :=
  [.request .right .connect, .request .right .connect, .deliver .left, writeOctet .left 0,
    .deliver .left, .deliver .right, .deliver .right, .deliver .right, .deliver .left,
    .deliver .left]

/-- Both requests of the run are delivered. -/
theorem lossless_twiceAskedRun : ∀ a ∈ twiceAskedRun, a.Lossless := by
  simp [twiceAskedRun, writeOctet, Action.Lossless]

/-- Both sides are connected and both channels are empty, the left side is about to send packet 0
and the right side expects packet 1. -/
theorem twice_asked_disagrees :
    let start := lineStart fun _ => SFPcontext.zero
    let l := run (Link.step sfpParty) start twiceAskedRun
    Meets (Link.step sfpParty)
        (fun l a => a.Lossless ∧ WritesOpenLine l a ∧ WritesFitLine l a) start twiceAskedRun ∧
      (∀ x, l.chan x = []) ∧ (∀ x, (l.node x).connectState = .connected) ∧
      (l.node .left).tx.seq ≠ (l.node .right).rx.seq := by
  have hgood := goodLink_lineStart fun _ => SFPcontext.zero
  have hactions : Meets (Link.step sfpParty) (fun _ a => sfpAbstraction.GoodAction a)
      (lineStart fun _ => SFPcontext.zero) twiceAskedRun :=
    Lib.meets_of_forall fun a ha => goodAction_of_lossless (lossless_twiceAskedRun a ha)
  have hrun := sfpAbstraction.link_run hgood hactions
  refine ⟨(Lib.meets_of_forall lossless_twiceAskedRun).and ?_, ?_, ?_, ?_⟩
  · apply sfpAbstraction.meets_of_link
      (fun l a => OpenWrites l a ∧ WritesFit sfpConfigHistoryCapacity l a) _ hgood hactions
    · decide +kernel
    · exact fun l a _ _ h => ⟨openWrites_iff.mp h.1, writesFit_iff.mp h.2⟩
  · intro x
    rw [← sfpAbstraction.chan_link_eq_nil, hrun]
    cases x <;> decide +kernel
  · intro x
    rw [← connectState_link, hrun]
    cases x <;> decide +kernel
  · -- the labels are those of the endpoints
    intro heq
    have hlabels := congrArg UInt8.toNat heq
    have hne : ((sfpAbstraction.link (run (Link.step sfpParty)
        (lineStart fun _ => SFPcontext.zero) twiceAskedRun)).node .left).txSeq ≠
        ((sfpAbstraction.link (run (Link.step sfpParty)
        (lineStart fun _ => SFPcontext.zero) twiceAskedRun)).node .right).rxSeq := by
      rw [hrun]
      decide +kernel
    exact hne hlabels

end HeaderDefaults

end Libsfp
