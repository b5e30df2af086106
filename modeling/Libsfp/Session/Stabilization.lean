import Libsfp.Session.Quiescence

/-!
# A Handshake Heals the Session

Nothing is assumed about the past: the two contexts are in any states and anything is in flight,
what a crashed peer left behind and what noise made of it included. Once somebody calls
`sfpConnect` and nothing is lost from then on, the two sides agree whenever both channels are empty.

The `SYN0` is a broom. A side that still has it in front of it may be in any state, for when it
hears the `SYN0` it forgets the past and owes what a fresh session owes. Damaged frames and labels
that no handshake uses are invisible: they move no connection state, and what they are answered with
is answered in turn.
-/

namespace Libsfp

open Lib (Side Outcome Party Parcel Link Action Meets run)

variable {α : Type*}

/-! ## Frames that nobody sends -/

namespace Frame

instance : DecidablePred (Proper : Frame α → Prop)
  | usr _ _ => isTrue trivial
  | rtx _ _ => isTrue trivial
  | nak _ => isTrue trivial
  | syn seq => inferInstanceAs (Decidable (seq < 4))
  | bad => isFalse id
  | silent => isFalse id

/-- The frames among `fs` that an endpoint can have sent. -/
def proper (fs : List (Frame α)) : List (Frame α) :=
  fs.filter fun f => decide f.Proper

/-- Filtering keeps the proper frames. -/
theorem mem_proper {fs : List (Frame α)} {f : Frame α} :
    f ∈ proper fs ↔ f ∈ fs ∧ f.Proper := by
  simp [proper]

@[simp] theorem proper_append (fs gs : List (Frame α)) :
    proper (fs ++ gs) = proper fs ++ proper gs :=
  List.filter_append _ _

/-- Where all frames are proper none is filtered out. -/
theorem proper_eq_self {fs : List (Frame α)} (h : ∀ f ∈ fs, f.Proper) : proper fs = fs :=
  List.filter_eq_self.mpr (by simpa using h)

/-- A proper frame in front is kept, -/
theorem proper_cons {f : Frame α} (hf : f.Proper) (fs : List (Frame α)) :
    proper (f :: fs) = f :: proper fs :=
  List.filter_cons_of_pos (by simpa using hf)

/-- any other one is not, -/
theorem proper_cons_of_not {f : Frame α} (hf : ¬ f.Proper) (fs : List (Frame α)) :
    proper (f :: fs) = proper fs :=
  List.filter_cons_of_neg (by simpa using hf)

/-- and a proper frame at the end is kept. -/
theorem proper_snoc (fs : List (Frame α)) {f : Frame α} (hf : f.Proper) :
    proper (fs ++ [f]) = proper fs ++ [f] := by
  rw [proper_append, proper_cons hf]
  rfl

end Frame

/-- A frame that nobody sends moves no connection state and is answered with data at most. -/
theorem Endpoint.receive_of_not_proper (e : Endpoint α) {f : Frame α} (hf : ¬ f.Proper) :
    (e.receive f).endpoint.connectState = e.connectState ∧
      ∀ g ∈ (e.receive f).sent, g.IsData := by
  cases f with
  | usr seq p => exact absurd trivial hf
  | rtx seq p => exact absurd trivial hf
  | nak seq => exact absurd trivial hf
  | syn seq =>
    cases seq using Frame.syn_cases with
    | other n => exact ⟨rfl, by simp [receive, receiveSyn]⟩
    | _ => exact absurd (by show _ < 4; decide) hf
  | bad =>
    refine ⟨rfl, ?_⟩
    intro g hg
    rw [List.mem_singleton.mp hg]
    trivial
  | silent => exact ⟨rfl, by simp [receive]⟩

/-! ## What a handshake frame settles -/

namespace Owed

variable {s t : SFPconnectstate} {out inn sent : List (Frame α)}

/-- Whatever was on its way, behind the `SYN0` of `SENT_SYN0` or the `SYN1` of `SENT_SYN1` nothing
more is owed. -/
theorem of_syn {g : Frame α} (hout : ∀ f ∈ out, f.Proper)
    (h : s = .sentSyn0 ∧ g = .syn0 ∨ s = .sentSyn1 ∧ g = .syn1) : Owed s t (out ++ [g]) inn := by
  have hg : g.Proper ∧ g ≠ .dis := by
    rcases h with ⟨-, rfl⟩ | ⟨-, rfl⟩
    · exact ⟨by show 0 < 4; decide, by simp⟩
    · exact ⟨by show 1 < 4; decide, by simp⟩
  refine ⟨?_, ?_, ?_, ?_, ?_⟩
  · intro f hf
    rcases List.mem_append.mp hf with hf | hf
    · exact hout f hf
    · rw [List.mem_singleton.mp hf]
      exact hg.1
  · intro hs
    rcases h with ⟨-, rfl⟩ | ⟨hs', -⟩
    · exact Or.inl (by simp)
    · exact absurd (hs.symm.trans hs') (by decide)
  · intro hs
    rcases h with ⟨hs', -⟩ | ⟨-, rfl⟩
    · exact absurd (hs.symm.trans hs') (by decide)
    · exact Or.inl (by simp)
  · exact fun _ _ => Or.inl ⟨g, by simp, hg⟩
  · exact fun _ => disFollowed_snoc out hg.1 hg.2

/-- Data on the way to the peer settles nothing and breaks nothing. -/
theorem send_data (h : Owed s t out inn) (hdata : ∀ g ∈ sent, g.IsData) :
    Owed s t (out ++ sent) inn where
  proper := by
    intro f hf
    rcases List.mem_append.mp hf with hf | hf
    · exact h.proper f hf
    · exact (hdata f hf).proper
  sentSyn0 := fun hs => (h.sentSyn0 hs).imp_left (List.mem_append_left sent)
  sentSyn1 := fun hs => (h.sentSyn1 hs).imp_left (List.mem_append_left sent)
  refused := fun ht hs =>
    (h.refused ht hs).imp_left fun ⟨f, hf, hproper⟩ => ⟨f, List.mem_append_left sent hf, hproper⟩
  followed := fun hs => (h.followed hs).append fun hdis => (hdata _ hdis).ne_syn 3 rfl

end Owed

/-! ## Healing -/

/-- What is left after filtering is proper. -/
theorem forall_mem_proper (fs : List (Frame α)) : ∀ f ∈ Frame.proper fs, f.Proper :=
  fun _ hf => (Frame.mem_proper.mp hf).2

/-- A side that still has a `SYN0` in front of it, or owes what a fresh session owes, if the frames
that nobody sends are left out. -/
def Healing (e e' : Endpoint α) (out inn : List (Frame α)) : Prop :=
  (.syn0 : Frame α) ∈ inn ∨
    Owed e.connectState e'.connectState (Frame.proper out) (Frame.proper inn)

section Steps

variable (cap : Nat) {e e' : Endpoint α} {out inn : List (Frame α)}

/-- Asking for a session needs no past. -/
theorem healing_connect :
    Healing ((endpointParty α cap).request e .connect).node e'
        (out ++ ((endpointParty α cap).request e .connect).sent) inn ∧
      Healing e' ((endpointParty α cap).request e .connect).node inn
        (out ++ ((endpointParty α cap).request e .connect).sent) := by
  constructor
  · right
    show Owed .sentSyn0 _ (Frame.proper (out ++ [.syn0])) _
    rw [Frame.proper_snoc out (by show 0 < 4; decide)]
    exact .of_syn (forall_mem_proper out) (Or.inl ⟨rfl, rfl⟩)
  · -- the peer has the `SYN0` in front of it now
    left
    exact List.mem_append_right out (List.mem_singleton.mpr rfl)

/-- A request lets both directions go on healing, -/
theorem healing_request (r : EndpointRequest α) (h : Healing e e' out inn)
    (h' : Healing e' e inn out) :
    Healing ((endpointParty α cap).request e r).node e'
        (out ++ ((endpointParty α cap).request e r).sent) inn ∧
      Healing e' ((endpointParty α cap).request e r).node inn
        (out ++ ((endpointParty α cap).request e r).sent) := by
  cases r with
  | connect => exact healing_connect cap
  | write p =>
    have husr : Frame.proper (out ++ [.usr e.txSeq p]) = Frame.proper out ++ [.usr e.txSeq p] :=
      Frame.proper_snoc out (f := .usr e.txSeq p) trivial
    have hsent : ((endpointParty α cap).request e (.write p)).sent = [.usr e.txSeq p] := rfl
    rw [hsent]
    constructor
    · apply h.imp_right
      intro howed
      rw [husr]
      exact howed.send_data (by simp [Frame.IsData])
    · rcases h' with hsyn | howed
      · exact Or.inl (List.mem_append_left _ hsyn)
      · right
        rw [husr]
        exact howed.inn_append _

/-- and so does a frame that is heard, proper or not. -/
theorem healing_hear (f : Frame α) (h : Healing e e' out (f :: inn))
    (h' : Healing e' e (f :: inn) out) :
    Healing ((endpointParty α cap).hear e f).node e'
        (out ++ ((endpointParty α cap).hear e f).sent) inn ∧
      Healing e' ((endpointParty α cap).hear e f).node inn
        (out ++ ((endpointParty α cap).hear e f).sent) := by
  show Healing (e.receive f).endpoint e' (out ++ (e.receive f).sent) inn ∧
    Healing e' (e.receive f).endpoint inn (out ++ (e.receive f).sent)
  by_cases hf : f.Proper
  · -- an entry of the state table
    have hreact := e.receive_reacts hf
    have hsent : Frame.proper (out ++ (e.receive f).sent)
        = Frame.proper out ++ (e.receive f).sent := by
      rw [Frame.proper_append, Frame.proper_eq_self hreact.proper_sent]
    constructor
    · rcases h with hsyn | howed
      · rcases List.mem_cons.mp hsyn with rfl | hsyn
        · -- this is the `SYN0`: the past is forgotten
          right
          rw [hsent]
          exact .of_syn (forall_mem_proper out) (Or.inr ⟨rfl, rfl⟩)
        · exact Or.inl hsyn
      · right
        rw [Frame.proper_cons hf] at howed
        rw [hsent]
        exact howed.hear hreact
    · rcases h' with hsyn | howed
      · exact Or.inl (List.mem_append_left _ hsyn)
      · right
        rw [Frame.proper_cons hf] at howed
        rw [hsent]
        exact howed.heard hreact
  · -- a frame that nobody sends
    obtain ⟨hstate, hdata⟩ := e.receive_of_not_proper hf
    have hsent : Frame.proper (out ++ (e.receive f).sent)
        = Frame.proper out ++ (e.receive f).sent := by
      rw [Frame.proper_append, Frame.proper_eq_self fun g hg => (hdata g hg).proper]
    have hne : (.syn0 : Frame α) ≠ f := by
      rintro rfl
      exact hf (by show 0 < 4; decide)
    constructor
    · rcases h with hsyn | howed
      · exact Or.inl ((List.mem_cons.mp hsyn).resolve_left hne)
      · right
        rw [Frame.proper_cons_of_not hf] at howed
        rw [hsent, hstate]
        exact howed.send_data hdata
    · rcases h' with hsyn | howed
      · exact Or.inl (List.mem_append_left _ hsyn)
      · right
        rw [Frame.proper_cons_of_not hf] at howed
        rw [hsent, hstate]
        exact howed.inn_append _

end Steps

section Runs

variable {cap : Nat} {l : Net α} {as : List (Action (EndpointRequest α) (Frame α))}

/-- An `sfpConnect` starts the healing, whatever the link was, -/
theorem both_healing_connect (cap : Nat) (l : Net α) (x : Side) :
    Link.Both Healing (l.step (endpointParty α cap) (.request x .connect)) := by
  have hacts := Link.acts_request (endpointParty α cap) l x .connect
  exact Link.both_of_acts hacts (healing_connect cap).1 (healing_connect cap).2

/-- every step without loss goes on with it, -/
theorem both_healing_step (h : Link.Both Healing l) {a : Action (EndpointRequest α) (Frame α)}
    (ha : a.Lossless) : Link.Both Healing (l.step (endpointParty α cap) a) :=
  h.step (A := fun _ _ => True) (H := fun _ _ _ _ => True)
    (fun r _ => healing_request cap r) (fun f _ => healing_hear cap f) ha
    (fun _ _ _ => trivial) (fun _ _ => trivial)

/-- and so does every run. -/
theorem both_healing_run (h : Link.Both Healing l) (has : ∀ a ∈ as, a.Lossless) :
    Link.Both Healing (run (Link.step (endpointParty α cap)) l as) := by
  apply Lib.run_invariant (P := fun _ a => a.Lossless) _ h (Lib.meets_of_forall has)
  intro l a hl ha
  exact both_healing_step hl ha

/-- With both channels empty nothing is left of the past. -/
theorem healed_agreement (h : Link.Both Healing l) (hquiet : ∀ x, l.messages x = []) :
    (∀ x, (l.node x).connectState = .connected) ∨
      ∀ x, (l.node x).connectState = .disconnected := by
  apply quiet_agreement _ hquiet
  intro x
  have hx := h x
  rw [Healing, hquiet, hquiet] at hx
  rw [Honest, hquiet, hquiet]
  exact hx.resolve_left List.not_mem_nil

end Runs

/-! ## A link that was drained -/

/-- The channels were empty when somebody asked for a session: nobody refuses, unless somebody
writes on a disconnected side. -/
structure Reopened (e e' : Endpoint α) (out inn : List (Frame α)) : Prop where
  proper : ∀ f ∈ out, f.Proper
  healing : Healing e e' out inn
  unrefused : Unrefused e.connectState e'.connectState out inn

section Reopened

variable {cap : Nat} {e e' : Endpoint α} {out inn : List (Frame α)}

/-- A request on a link that was opened again, -/
theorem reopened_request (r : EndpointRequest α) (hr : WritesOpen e r) (h : Reopened e e' out inn)
    (h' : Reopened e' e inn out) :
    Reopened ((endpointParty α cap).request e r).node e'
        (out ++ ((endpointParty α cap).request e r).sent) inn ∧
      Reopened e' ((endpointParty α cap).request e r).node inn
        (out ++ ((endpointParty α cap).request e r).sent) := by
  obtain ⟨hhealing, hhealing'⟩ := healing_request cap r h.healing h'.healing
  have hproper : ∀ {g : Frame α}, g.Proper → ∀ f ∈ out ++ [g], f.Proper := by
    intro g hg f hf
    rcases List.mem_append.mp hf with hf | hf
    · exact h.proper f hf
    · rw [List.mem_singleton.mp hf]
      exact hg
  cases r with
  | connect =>
    refine ⟨⟨hproper (by show 0 < 4; decide), hhealing, ?_⟩, h'.proper, hhealing', ?_⟩
    · exact h.unrefused.send (by simp) (by show SFPconnectstate.sentSyn0 ≠ _; decide)
    · exact h'.unrefused.peer_send fun _ => rfl
  | write p =>
    -- a polite user writes on an open side only
    have hopen := hr p rfl
    refine ⟨⟨hproper (g := .usr e.txSeq p) trivial, hhealing, ?_⟩, h'.proper, hhealing', ?_⟩
    · exact h.unrefused.send (by simp) hopen
    · exact h'.unrefused.peer_send fun hs => absurd hs hopen

/-- a frame that is heard on it, -/
theorem reopened_hear (f : Frame α) (h : Reopened e e' out (f :: inn))
    (h' : Reopened e' e (f :: inn) out) :
    Reopened ((endpointParty α cap).hear e f).node e'
        (out ++ ((endpointParty α cap).hear e f).sent) inn ∧
      Reopened e' ((endpointParty α cap).hear e f).node inn
        (out ++ ((endpointParty α cap).hear e f).sent) := by
  obtain ⟨hhealing, hhealing'⟩ := healing_hear cap f h.healing h'.healing
  -- what is in flight was sent after the link was drained
  have hreact := e.receive_reacts (h'.proper f (by simp))
  refine ⟨⟨?_, hhealing, ?_⟩, ⟨?_, hhealing', ?_⟩⟩
  · intro g hg
    rcases List.mem_append.mp hg with hg | hg
    · exact h.proper g hg
    · exact hreact.proper_sent g hg
  · exact h.unrefused.hear h'.unrefused hreact
  · exact fun g hg => h'.proper g (List.mem_cons_of_mem f hg)
  · exact h'.unrefused.heard _

end Reopened

section Runs

variable {cap : Nat} {l : Net α} {as : List (Action (EndpointRequest α) (Frame α))}

/-- Whatever the states, a `SYN0` on an empty link opens it. -/
theorem both_reopened_connect (cap : Nat) (hempty : ∀ y, l.messages y = []) (x : Side) :
    Link.Both Reopened (l.step (endpointParty α cap) (.request x .connect)) := by
  have hhealing := both_healing_connect cap l x
  have hacts := Link.acts_request (endpointParty α cap) l x .connect
  have hmessages := hacts.messages
  have hpeer := hacts.messages_peer
  rw [hempty] at hmessages hpeer
  refine Side.forall_of_peer x ⟨?_, hhealing x, ?_⟩ ⟨?_, hhealing x.peer, ?_⟩
  · rw [hpeer]
    intro f hf
    rw [List.mem_singleton.mp hf]
    show 0 < 4
    decide
  · rw [hmessages, hpeer, hacts.node]
    refine ⟨by simp [endpointParty, Reaction.outcome, Endpoint.connect], ?_⟩
    exact fun hs => absurd hs (by show SFPconnectstate.sentSyn0 ≠ _; decide)
  · rw [Side.peer_peer, hmessages]
    simp
  · rw [Side.peer_peer, hmessages, hpeer]
    exact ⟨by simp, fun _ => ⟨rfl, Or.inr rfl⟩⟩

/-- and so each step of it. -/
theorem both_reopened_step (h : Link.Both Reopened l)
    {a : Action (EndpointRequest α) (Frame α)} (ha : PoliteStep l a) :
    Link.Both Reopened (l.step (endpointParty α cap) a) :=
  h.step (H := fun _ _ _ _ => True) (fun r => reopened_request r) (fun f _ => reopened_hear f)
    ha.1 ha.2 (fun _ _ => trivial)

/-- Nobody is disconnected again: a side that hears something or asks is open afterwards. -/
theorem reopened_stays_open (h : Link.Both Reopened l)
    {a : Action (EndpointRequest α) (Frame α)} (ha : PoliteStep l a) {x : Side}
    (hx : (l.node x).connectState ≠ .disconnected) :
    ((l.step (endpointParty α cap) a).node x).connectState ≠ .disconnected := by
  cases a with
  | request y r =>
    have hacts := Link.acts_request (endpointParty α cap) l y r
    rcases x.eq_or_eq_peer y with rfl | rfl
    · rw [hacts.node]
      cases r with
      | connect => show SFPconnectstate.sentSyn0 ≠ _; decide
      | write p => exact hx
    · rw [hacts.node_peer]
      exact hx
  | deliver y =>
    cases hm : l.messages y with
    | nil => rw [Link.deliver_of_messages_nil _ hm]; exact hx
    | cons f fs =>
      have hacts := Link.acts_deliver (endpointParty α cap) hm
      rcases x.eq_or_eq_peer y with rfl | rfl
      · have hin := h x
        have hout := h x.peer
        rw [Side.peer_peer] at hout
        rw [hm] at hin hout
        rw [hacts.node]
        exact hin.unrefused.ne_disconnected hout.unrefused
          ((l.node x).receive_reacts (hout.proper f (by simp)))
      · rw [hacts.node_peer]
        exact hx
  | lose y i => exact ha.1.elim
  | corrupt y i f => exact ha.1.elim

/-- What is known of a link that `x` has opened again. -/
def ReopenedBy (x : Side) (l : Net α) : Prop :=
  Link.Both Reopened l ∧ (l.node x).connectState ≠ .disconnected

/-- An `sfpConnect` opens a link that was drained, -/
theorem reopenedBy_connect (cap : Nat) (hempty : ∀ y, l.messages y = []) (x : Side) :
    ReopenedBy x (l.step (endpointParty α cap) (.request x .connect)) := by
  refine ⟨both_reopened_connect cap hempty x, ?_⟩
  rw [(Link.acts_request (endpointParty α cap) l x .connect).node]
  show SFPconnectstate.sentSyn0 ≠ _
  decide

/-- no polite step closes it again, -/
theorem reopenedBy_step {x : Side} (h : ReopenedBy x l)
    {a : Action (EndpointRequest α) (Frame α)} (ha : PoliteStep l a) :
    ReopenedBy x (l.step (endpointParty α cap) a) :=
  ⟨both_reopened_step h.1 ha, reopened_stays_open h.1 ha h.2⟩

/-- The side that asked may write at once. -/
theorem reopenedBy_oneWriter {x : Side} (h : ReopenedBy x l)
    {a : Action (EndpointRequest α) (Frame α)} (ha : OneWriter x a) :
    ReopenedBy x (l.step (endpointParty α cap) a) := by
  apply reopenedBy_step h
  cases a with
  | request y r =>
    refine ⟨trivial, ?_⟩
    intro z q hq p hp
    obtain ⟨rfl, rfl⟩ := Action.request.inj hq
    subst hp
    -- the side that writes is the one that has asked
    have hy : y = x := ha
    rw [hy]
    exact h.2
  | deliver y => exact ⟨trivial, by simp⟩
  | lose y i => exact ha.elim
  | corrupt y i f => exact ha.elim

/-- nor does a polite run, -/
theorem reopenedBy_run {x : Side} (h : ReopenedBy x l)
    (has : Meets (Link.step (endpointParty α cap)) PoliteStep l as) :
    ReopenedBy x (run (Link.step (endpointParty α cap)) l as) := by
  apply Lib.run_invariant _ h has
  intro l a hl ha
  exact reopenedBy_step hl ha

/-- so nor does a run with one writer. -/
theorem reopenedBy_run_oneWriter {x : Side} (h : ReopenedBy x l)
    (has : Meets (Link.step (endpointParty α cap)) (fun _ a => OneWriter x a) l as) :
    ReopenedBy x (run (Link.step (endpointParty α cap)) l as) := by
  apply Lib.run_invariant _ h has
  intro l a hl ha
  exact reopenedBy_oneWriter hl ha

/-- A link that was opened again is connected as soon as it is quiet. -/
theorem connected_of_reopenedBy {x : Side} (h : ReopenedBy x l)
    (hquiet : ∀ y, l.messages y = []) : ∀ y, (l.node y).connectState = .connected := by
  rcases healed_agreement (fun y => (h.1 y).healing) hquiet with hagree | hagree
  · exact hagree
  · exact absurd (hagree x) h.2

end Runs

variable [SfpConfig]

/-- A run that loses nothing on the line loses nothing between the endpoints. -/
theorem lossless_actions {as : List (Action Request (List UInt8))} (has : ∀ a ∈ as, a.Lossless) :
    ∀ a ∈ as.map sfpAbstraction.action, a.Lossless := by
  intro a ha
  obtain ⟨b, hb, rfl⟩ := List.mem_map.mp ha
  exact lossless_action (has b hb)

/-- **A handshake heals the session.** Whatever the states of two contexts and whatever is in
flight between them, once `sfpConnect` is called and nothing is lost from then on, the two sides are
both connected or both disconnected whenever both channels are empty; they are connected if the
channels were empty at that call and nobody calls `sfpWritePacket` on a disconnected context. -/
theorem reconnect_agreement {l : Line} (hl : sfpAbstraction.GoodLink l) (x : Side)
    {as : List (Action Request (List UInt8))} (has : ∀ a ∈ as, a.Lossless) :
    let l₀ := l.step sfpParty (.request x .connect)
    let l' := run (Link.step sfpParty) l₀ as
    (∀ y, l'.chan y = []) →
      ((∀ y, (l'.node y).connectState = .connected) ∨
        ∀ y, (l'.node y).connectState = .disconnected) ∧
      ((∀ y, l.chan y = []) → Meets (Link.step sfpParty) WritesOpenLine l₀ as →
        ∀ y, (l'.node y).connectState = .connected) := by
  intro l₀ l' hempty
  have hgood : sfpAbstraction.GoodLink l₀ := sfpAbstraction.good_step hl trivial
  have hactions : Meets (Link.step sfpParty) (fun _ a => sfpAbstraction.GoodAction a) l₀ as :=
    Lib.meets_of_forall fun a ha => goodAction_of_lossless (has a ha)
  have hfirst : sfpAbstraction.link l₀
      = (sfpAbstraction.link l).step (endpointParty (List UInt8) sfpConfigHistoryCapacity)
          (.request x .connect) :=
    sfpAbstraction.link_step hl (.request x .connect)
  have hrun := sfpAbstraction.link_run hgood hactions
  have hquiet : ∀ y, (sfpAbstraction.link l').messages y = [] :=
    fun y => sfpAbstraction.messages_link_of_nil (hempty y)
  constructor
  · -- without further conditions both sides agree
    have hhealing : Link.Both Healing (sfpAbstraction.link l') := by
      rw [hrun, hfirst]
      exact both_healing_run (both_healing_connect _ _ x) (lossless_actions has)
    exact healed_agreement hhealing hquiet
  · intro hdrained hopen
    have hpolite : Meets (Link.step (endpointParty (List UInt8) sfpConfigHistoryCapacity))
        PoliteStep (sfpAbstraction.link l₀) (as.map sfpAbstraction.action) := by
      apply sfpAbstraction.link_meets _ hgood hactions ((Lib.meets_of_forall has).and hopen)
      exact fun l a _ _ h => politeStep_of_line h.1 h.2
    -- a drained link and polite users: nobody was refused
    have hreopened : ReopenedBy x (sfpAbstraction.link l') := by
      rw [hrun]
      apply reopenedBy_run _ hpolite
      rw [hfirst]
      exact reopenedBy_connect _ (fun y => sfpAbstraction.messages_link_of_nil (hdrained y)) x
    exact connected_of_reopenedBy hreopened hquiet

/-- **A restarted session is exact.** The two contexts are in any states, nothing is in flight, and
the record starts with the `sfpConnect` of one side. In every run in which that side alone writes,
nobody connects again and each `SYN1` makes it replay what its peer may have missed, what is
delivered is a prefix of what was written; once both channels are empty, both sides are connected
and all of it was delivered. -/
theorem restart_delivers_once {node : Side → SFPcontext} (hnode : ∀ y, (node y).OnLine) (x : Side)
    {as : List (Action Request (List UInt8))}
    (has : Meets (Link.step sfpParty)
      (fun l a => OneWriterLine x a ∧ EarlyFitsLine x l a ∧ WholeReplayLine l a)
      ((Link.start node).step sfpParty (.request x .connect)) as) :
    let l := run (Link.step sfpParty) ((Link.start node).step sfpParty (.request x .connect)) as
    l.got x.peer <+: l.wrote x ∧
      ((∀ y, l.chan y = []) →
        (∀ y, (l.node y).connectState = .connected) ∧ l.got x.peer = l.wrote x) := by
  intro l
  have hstart : sfpAbstraction.GoodLink (Link.start node) := ⟨hnode, by simp [Link.start]⟩
  have hgood : sfpAbstraction.GoodLink ((Link.start node).step sfpParty (.request x .connect)) :=
    sfpAbstraction.good_step hstart trivial
  have hactions : Meets (Link.step sfpParty) (fun _ a => sfpAbstraction.GoodAction a)
      ((Link.start node).step sfpParty (.request x .connect)) as :=
    has.mono fun _ _ h => h.1.goodAction
  have hfirst : sfpAbstraction.link ((Link.start node).step sfpParty (.request x .connect))
      = (Link.start fun y => (node y).abs).step
          (endpointParty (List UInt8) sfpConfigHistoryCapacity) (.request x .connect) :=
    sfpAbstraction.link_step hstart (.request x .connect)
  have hrun := sfpAbstraction.link_run hgood hactions
  have hnet : Meets (Link.step (endpointParty (List UInt8) sfpConfigHistoryCapacity))
      (fun l a => OneWriter x a ∧ EarlyFits sfpConfigHistoryCapacity x l a ∧ WholeReplay l a)
      (sfpAbstraction.link ((Link.start node).step sfpParty (.request x .connect)))
      (as.map sfpAbstraction.action) := by
    apply sfpAbstraction.link_meets _ hgood hactions has
    intro l a _ _ h
    exact ⟨oneWriter_iff.mpr h.1, earlyFits_iff.mpr h.2.1, wholeReplay_iff.mpr h.2.2⟩
  have hopening : OpeningOn sfpConfigHistoryCapacity x (sfpAbstraction.link l) := by
    rw [hrun]
    apply openingOn_run _ hnet
    rw [hfirst]
    exact openingOn_connect _ x _
  refine ⟨hopening.got_prefix, ?_⟩
  intro hempty
  have hreopened : ReopenedBy x (sfpAbstraction.link l) := by
    rw [hrun]
    apply reopenedBy_run_oneWriter _ (hnet.mono fun _ _ h => h.1)
    rw [hfirst]
    exact reopenedBy_connect _ (fun _ => rfl) x
  have hconnected : ∀ y, (l.node y).connectState = .connected :=
    connected_of_reopenedBy hreopened fun y => sfpAbstraction.messages_link_of_nil (hempty y)
  refine ⟨hconnected, ?_⟩
  have hforth : (sfpAbstraction.link l).chan x.peer = [] :=
    sfpAbstraction.chan_link_eq_nil.mpr (hempty x.peer)
  rw [OpeningOn, hforth] at hopening
  exact hopening.got_all (hconnected x.peer)

end Libsfp

namespace Libsfp

open Lib (Side Link Action Meets run)

section HeaderDefaults

attribute [local instance] headerDefaults

/-- The left side has just been restarted, the right side still believes in its session. -/
def halfOpen (x : Side) : SFPcontext :=
  if x = .left then SFPcontext.zero.setUp else SFPcontext.zero.inSession

/-- Both contexts can be put on a line. -/
theorem onLine_halfOpen (x : Side) : (halfOpen x).OnLine := by
  cases x with
  | left => exact onLine_setUp SFPcontext.zero
  | right => exact onLine_inSession SFPcontext.zero

/-- So the line between them is good. -/
theorem goodLink_halfOpen : sfpAbstraction.GoodLink (Link.start halfOpen) :=
  ⟨onLine_halfOpen, by simp [Link.start]⟩

/-- A packet of the old session is on its way to the restarted side. -/
def staleLine : Line :=
  (Link.start halfOpen).step sfpParty (writeOctet .right 0)

/-- Everything in flight is delivered, in turns. -/
def drainRun : List (Action Request (List UInt8)) :=
  [.deliver .left, .deliver .right, .deliver .right, .deliver .left, .deliver .left,
    .deliver .right, .deliver .right]

/-- The restarted side and its peer agree when the line is drained. -/
theorem reconnect_agreement_halfOpen :
    let l := run (Link.step sfpParty) (staleLine.step sfpParty (.request .left .connect)) drainRun
    let l' := run (Link.step sfpParty)
      ((Link.start halfOpen).step sfpParty (.request .left .connect)) drainRun
    ((∀ y, (l.node y).connectState = .connected) ∨
        ∀ y, (l.node y).connectState = .disconnected) ∧
      ∀ y, (l'.node y).connectState = .connected := by
  have hstale : sfpAbstraction.GoodLink staleLine :=
    sfpAbstraction.good_step goodLink_halfOpen trivial
  have hasked : sfpAbstraction.GoodLink (staleLine.step sfpParty (.request .left .connect)) :=
    sfpAbstraction.good_step hstale trivial
  have hasked' : sfpAbstraction.GoodLink
      ((Link.start halfOpen).step sfpParty (.request .left .connect)) :=
    sfpAbstraction.good_step goodLink_halfOpen trivial
  have hlossless : ∀ a ∈ drainRun, a.Lossless := by
    simp [drainRun, Action.Lossless]
  have hactions : ∀ l : Line, Meets (Link.step sfpParty)
      (fun _ a => sfpAbstraction.GoodAction a) l drainRun :=
    fun l => Lib.meets_of_forall fun a ha => goodAction_of_lossless (hlossless a ha)
  -- seen as endpoints, both runs end with empty channels
  have hquiet : ∀ y, (run (Link.step sfpParty)
      (staleLine.step sfpParty (.request .left .connect)) drainRun).chan y = [] := by
    intro y
    rw [← sfpAbstraction.chan_link_eq_nil, sfpAbstraction.link_run hasked (hactions _)]
    cases y <;> decide +kernel
  have hquiet' : ∀ y, (run (Link.step sfpParty)
      ((Link.start halfOpen).step sfpParty (.request .left .connect)) drainRun).chan y = [] := by
    intro y
    rw [← sfpAbstraction.chan_link_eq_nil, sfpAbstraction.link_run hasked' (hactions _)]
    cases y <;> decide +kernel
  have hopen : ∀ a ∈ drainRun, ∀ l : Line, WritesOpenLine l a := by
    simp [drainRun, WritesOpenLine]
  refine ⟨(reconnect_agreement hstale .left hlossless hquiet).1, ?_⟩
  apply (reconnect_agreement goodLink_halfOpen .left hlossless hquiet').2 (fun _ => rfl)
  exact (Lib.meets_of_forall hopen).mono fun l _ h => h l

/-- What the restarted side writes arrives once, the packet of the old session does not. -/
theorem restart_delivers_once_halfOpen :
    let l := run (Link.step sfpParty)
      ((Link.start halfOpen).step sfpParty (.request .left .connect)) earlyRun
    l.got .right <+: l.wrote .left ∧ (∀ y, (l.node y).connectState = .connected) ∧
      l.got .right = l.wrote .left := by
  have hgood := sfpAbstraction.good_step goodLink_halfOpen (a := .request .left .connect) trivial
  have hactions : Meets (Link.step sfpParty) (fun _ a => sfpAbstraction.GoodAction a)
      ((Link.start halfOpen).step sfpParty (.request .left .connect)) earlyRun :=
    Lib.meets_of_forall fun a ha => (oneWriter_earlyRun a ha).goodAction
  have hmeets : Meets (Link.step sfpParty)
      (fun l a => OneWriterLine .left a ∧ EarlyFitsLine .left l a ∧ WholeReplayLine l a)
      ((Link.start halfOpen).step sfpParty (.request .left .connect)) earlyRun := by
    apply (Lib.meets_of_forall oneWriter_earlyRun).and
    apply sfpAbstraction.meets_of_link
      (fun l a => EarlyFits sfpConfigHistoryCapacity .left l a ∧ WholeReplay l a) _ hgood hactions
    · decide +kernel
    · intro l a _ _ h
      exact ⟨earlyFits_iff.mp h.1, wholeReplay_iff.mp h.2⟩
  have hquiet : ∀ y, (run (Link.step sfpParty)
      ((Link.start halfOpen).step sfpParty (.request .left .connect)) earlyRun).chan y = [] := by
    intro y
    rw [← sfpAbstraction.chan_link_eq_nil, sfpAbstraction.link_run hgood hactions]
    cases y <;> decide +kernel
  have honce := restart_delivers_once onLine_halfOpen .left hmeets
  exact ⟨honce.1, honce.2 hquiet⟩

end HeaderDefaults

end Libsfp
