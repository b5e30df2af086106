import Libsfp.Session.ExactlyOnce
import Libsfp.Session.StateTable

/-!
# Quiescent Agreement

Whatever the two users do and in whatever order frames arrive, as long as none is lost: when both
channels are empty the two sides are both connected or both disconnected. The invariant says what
is still owed to a side that waits: a side that sent a `SYN0` has it on its way or the answer on
its way back, and so on; a side whose peer is disconnected has something on its way there that will
be refused, or the refusal on its way back.
-/

namespace Libsfp

open Lib (Side Outcome Party Parcel Link Action Meets run)

variable {α : Type*}

/-! ## What is owed -/

/-- Every `DIS` is followed by a frame that a disconnected endpoint refuses or answers. -/
def DisFollowed : List (Frame α) → Prop
  | [] => True
  | f :: fs => (f = .dis → ∃ g ∈ fs, g.Proper ∧ g ≠ .dis) ∧ DisFollowed fs

/-- More frames that are no refusals keep every refusal followed. -/
theorem DisFollowed.append {fs gs : List (Frame α)} (h : DisFollowed fs)
    (hgs : (.dis : Frame α) ∉ gs) : DisFollowed (fs ++ gs) := by
  induction fs with
  | nil =>
    induction gs with
    | nil => trivial
    | cons g gs ih =>
      refine ⟨?_, ih (fun hmem => hgs (List.mem_cons_of_mem g hmem))⟩
      rintro rfl
      exact absurd List.mem_cons_self hgs
  | cons f fs ih =>
    obtain ⟨hf, hrest⟩ := h
    refine ⟨?_, ih hrest⟩
    intro hdis
    -- what follows it is still behind it
    obtain ⟨g, hg, hproper⟩ := hf hdis
    exact ⟨g, List.mem_append_left gs hg, hproper⟩

/-- A frame at the end that is not a `DIS` follows all of them. -/
theorem disFollowed_snoc (fs : List (Frame α)) {g : Frame α} (hg : g.Proper) (hne : g ≠ .dis) :
    DisFollowed (fs ++ [g]) := by
  induction fs with
  | nil => exact ⟨fun h => absurd h hne, trivial⟩
  | cons f fs ih => exact ⟨fun _ => ⟨g, by simp, hg, hne⟩, ih⟩

/-- What is owed to a side in state `s` whose peer is in state `t`; `out` is on its way to the peer
and `inn` is on its way back. -/
structure Owed (s t : SFPconnectstate) (out inn : List (Frame α)) : Prop where
  proper : ∀ f ∈ out, f.Proper
  /-- An unanswered `SYN0`. -/
  sentSyn0 : s = .sentSyn0 → (.syn0 : Frame α) ∈ out ∨ (.syn1 : Frame α) ∈ inn
  /-- An unconfirmed `SYN1`. -/
  sentSyn1 : s = .sentSyn1 →
    (.syn1 : Frame α) ∈ out ∨ (.syn2 : Frame α) ∈ inn ∨ (.dis : Frame α) ∈ inn
  /-- A peer that is disconnected. -/
  refused : t = .disconnected → s ≠ .disconnected →
    (∃ f ∈ out, f.Proper ∧ f ≠ .dis) ∨ (.dis : Frame α) ∈ inn
  /-- A refusal that will be answered. -/
  followed : s ≠ .disconnected → DisFollowed out

namespace Owed

variable {s t s' : SFPconnectstate} {f : Frame α} {out inn sent : List (Frame α)}

/-- More frames on the way change nothing for the side they go to. -/
theorem inn_append (h : Owed s t out inn) (sent : List (Frame α)) :
    Owed s t out (inn ++ sent) where
  proper := h.proper
  sentSyn0 := fun hs => (h.sentSyn0 hs).imp_right (List.mem_append_left sent)
  sentSyn1 := fun hs => (h.sentSyn1 hs).imp_right
    (Or.imp (List.mem_append_left sent) (List.mem_append_left sent))
  refused := fun ht hs => (h.refused ht hs).imp_right (List.mem_append_left sent)
  followed := h.followed

/-- What is owed to the side that hears `f`, after its reaction. -/
theorem hear (h : Owed s t out (f :: inn)) (hreact : Reacts s f s' sent) :
    Owed s' t (out ++ sent) inn where
  proper := by
    intro g hg
    rcases List.mem_append.mp hg with hg | hg
    · exact h.proper g hg
    · exact hreact.proper_sent g hg
  sentSyn0 := by
    rintro rfl
    exact Or.inl (List.mem_append_right out hreact.syn0_mem)
  sentSyn1 := by
    rintro rfl
    exact Or.inl (List.mem_append_right out hreact.syn1_mem)
  refused := by
    intro ht hs'
    by_cases hs : s = .disconnected
    · -- it has just left the disconnected state: its SYN1 is on the way
      subst hs
      obtain ⟨-, rfl⟩ := hreact.syn0_of_leaves hs'
      exact Or.inl ⟨.syn1, by simp, (by show 1 < 4; decide), by simp⟩
    · -- something of it is still to be refused, or the refusal is on its way
      rcases h.refused ht hs with ⟨g, hg, hproper⟩ | hdis
      · exact Or.inl ⟨g, List.mem_append_left sent hg, hproper⟩
      · rcases List.mem_cons.mp hdis with hdis | hdis
        · exact absurd hdis.symm (hreact.ne_dis_of_stays hs')
        · exact Or.inr hdis
  followed := by
    intro hs'
    by_cases hs : s = .disconnected
    · subst hs
      obtain ⟨-, rfl⟩ := hreact.syn0_of_leaves hs'
      exact disFollowed_snoc out (by show 1 < 4; decide) (by simp)
    · -- a connected side sends no `DIS`
      exact (h.followed hs).append (hreact.dis_notMem hs)

/-- What is owed to its peer. -/
theorem heard (h : Owed t s (f :: inn) out) (hreact : Reacts s f s' sent) :
    Owed t s' inn (out ++ sent) where
  proper := fun g hg => h.proper g (List.mem_cons_of_mem f hg)
  sentSyn0 := by
    intro ht
    -- the `SYN0` is this frame, is behind it, or was answered
    rcases h.sentSyn0 ht with hsyn | hsyn
    · rcases List.mem_cons.mp hsyn with rfl | hsyn
      · exact Or.inr (List.mem_append_right out hreact.syn1_mem_of_syn0)
      · exact Or.inl hsyn
    · exact Or.inr (List.mem_append_left sent hsyn)
  sentSyn1 := by
    intro ht
    -- the `SYN1` is this frame, is behind it, or was confirmed or refused
    rcases h.sentSyn1 ht with hsyn | hsyn | hdis
    · rcases List.mem_cons.mp hsyn with rfl | hsyn
      · exact Or.inr (hreact.syn2_or_dis_mem_of_syn1.imp (List.mem_append_right out)
          (List.mem_append_right out))
      · exact Or.inl hsyn
    · exact Or.inr (Or.inl (List.mem_append_left sent hsyn))
    · exact Or.inr (Or.inr (List.mem_append_left sent hdis))
  refused := by
    rintro rfl ht
    rcases hreact.disconnected_cases with hdis | rfl
    · exact Or.inr (List.mem_append_right out hdis)
    · -- the refusal itself: something behind it will be refused in turn
      exact Or.inl ((h.followed ht).1 rfl)
  followed := fun ht => (h.followed ht).2

/-- One more frame on the way to the peer, and a new state in which it is not needed. -/
theorem send (h : Owed s t out inn) {g : Frame α} (hg : g.Proper) (hne : g ≠ .dis)
    (hsyn0 : s' = .sentSyn0 → s = .sentSyn0 ∨ g = .syn0) (hsyn1 : s' = .sentSyn1 → s = .sentSyn1) :
    Owed s' t (out ++ [g]) inn where
  proper := by
    intro k hk
    rcases List.mem_append.mp hk with hk | hk
    · exact h.proper k hk
    · rw [List.mem_singleton.mp hk]
      exact hg
  sentSyn0 := by
    intro hs'
    rcases hsyn0 hs' with hs | rfl
    · exact (h.sentSyn0 hs).imp_left (List.mem_append_left [g])
    · exact Or.inl (by simp)
  sentSyn1 := fun hs' => (h.sentSyn1 (hsyn1 hs')).imp_left (List.mem_append_left [g])
  refused := fun _ _ => Or.inl ⟨g, by simp, hg, hne⟩
  followed := fun _ => disFollowed_snoc out hg hne

/-- What is owed to the peer of a side that is not disconnected. -/
theorem peer_state (h : Owed t s inn out) (hs' : s' = .disconnected → s = .disconnected) :
    Owed t s' inn out :=
  { h with refused := fun hdis => h.refused (hs' hdis) }

/-- With nothing on the way, both sides are connected or both are disconnected. -/
theorem quiet (h : Owed s t ([] : List (Frame α)) []) (h' : Owed t s ([] : List (Frame α)) []) :
    s = .connected ∧ t = .connected ∨ s = .disconnected ∧ t = .disconnected := by
  -- a side in the middle of a handshake is owed a frame
  have hsettled : ∀ {u v : SFPconnectstate}, Owed u v ([] : List (Frame α)) [] →
      u = .disconnected ∨ u = .connected := by
    intro u v hu
    cases u with
    | disconnected => exact Or.inl rfl
    | connected => exact Or.inr rfl
    | sentSyn0 =>
      have howed := hu.sentSyn0 rfl
      simp at howed
    | sentSyn1 =>
      have howed := hu.sentSyn1 rfl
      simp at howed
  -- a side that is not disconnected is owed a refusal
  have hrefused : ∀ {u v : SFPconnectstate}, Owed u v ([] : List (Frame α)) [] →
      v = .disconnected → u = .disconnected := by
    intro u v hu hv
    by_contra hne
    have howed := hu.refused hv hne
    simp at howed
  rcases hsettled h with hs | hs
  · exact Or.inr ⟨hs, hrefused h' hs⟩
  · rcases hsettled h' with ht | ht
    · exact absurd (hrefused h ht) (by rw [hs]; decide)
    · exact Or.inl ⟨hs, ht⟩

end Owed

/-! ## No refusals -/

/-- As long as nobody writes on a disconnected side there is no `DIS`, and a side that is still
disconnected has a `SYN0` in front of everything on its way to it. -/
structure Unrefused (s t : SFPconnectstate) (out inn : List (Frame α)) : Prop where
  dis_notMem : (.dis : Frame α) ∉ out
  waiting : s = .disconnected → out = [] ∧
    (t = .disconnected ∧ inn = [] ∨ inn.head? = some (.syn0 : Frame α))

namespace Unrefused

variable {s t s' : SFPconnectstate} {f : Frame α} {out inn sent : List (Frame α)}

/-- Whoever hears a frame leaves the disconnected state. -/
theorem ne_disconnected (h : Unrefused s t out (f :: inn)) (h' : Unrefused t s (f :: inn) out)
    (hreact : Reacts s f s' sent) : s' ≠ .disconnected := by
  rintro rfl
  have hdis : f ≠ .dis := fun hf => h'.dis_notMem (by simp [hf])
  cases hreact with
  | refuse _ ne_syn0 _ =>
    -- what it hears first is the `SYN0`
    obtain ⟨-, ⟨-, hnil⟩ | hhead⟩ := h.waiting rfl
    · exact absurd hnil (List.cons_ne_nil _ _)
    · simp only [List.head?_cons, Option.some.injEq] at hhead
      exact ne_syn0 hhead
  | close => exact hdis rfl

/-- A party hears the oldest frame and reacts, seen from that party, -/
theorem hear (h : Unrefused s t out (f :: inn)) (h' : Unrefused t s (f :: inn) out)
    (hreact : Reacts s f s' sent) : Unrefused s' t (out ++ sent) inn where
  dis_notMem := by
    intro hdis
    rcases List.mem_append.mp hdis with hdis | hdis
    · exact h.dis_notMem hdis
    · -- what it answers: a side that was disconnected answers a `SYN0`
      by_cases hs : s = .disconnected
      · subst hs
        obtain ⟨-, rfl⟩ := hreact.syn0_of_leaves (h.ne_disconnected h' hreact)
        simp at hdis
      · exact hreact.dis_notMem hs hdis
  waiting := fun hs' => absurd hs' (h.ne_disconnected h' hreact)

/-- and seen from its peer. -/
theorem heard (h' : Unrefused t s (f :: inn) out) (sent : List (Frame α)) :
    Unrefused t s' inn (out ++ sent) where
  dis_notMem := fun hdis => h'.dis_notMem (List.mem_cons_of_mem f hdis)
  waiting := fun ht => absurd (h'.waiting ht).1 (List.cons_ne_nil _ _)

/-- A party sends a frame of its own, seen from that party, -/
theorem send (h : Unrefused s t out inn) {g : Frame α} (hne : g ≠ .dis)
    (hs' : s' ≠ .disconnected) : Unrefused s' t (out ++ [g]) inn where
  dis_notMem := by
    intro hdis
    rcases List.mem_append.mp hdis with hdis | hdis
    · exact h.dis_notMem hdis
    · exact hne (List.mem_singleton.mp hdis).symm
  waiting := fun hs => absurd hs hs'

/-- and seen from its peer. -/
theorem peer_send (h' : Unrefused t s inn out) {g : Frame α} (hs : s = .disconnected → g = .syn0) :
    Unrefused t s' inn (out ++ [g]) where
  dis_notMem := h'.dis_notMem
  waiting := by
    intro ht
    obtain ⟨hinn, ⟨hsd, hout⟩ | hhead⟩ := h'.waiting ht
    · -- nothing was on its way yet, so this is the first frame
      refine ⟨hinn, Or.inr ?_⟩
      rw [hout, hs hsd]
      rfl
    · refine ⟨hinn, Or.inr ?_⟩
      cases out with
      | nil => simp at hhead
      | cons k out => exact hhead

end Unrefused

/-! ## Runs between endpoints -/

/-- The two invariants on a link of endpoints. -/
def Honest (e e' : Endpoint α) (out inn : List (Frame α)) : Prop :=
  Owed e.connectState e'.connectState out inn

def Polite (e e' : Endpoint α) (out inn : List (Frame α)) : Prop :=
  Honest e e' out inn ∧ Unrefused e.connectState e'.connectState out inn

/-- Nobody writes on a disconnected side. -/
def WritesOpen (e : Endpoint α) (r : EndpointRequest α) : Prop :=
  ∀ p, r = .write p → e.connectState ≠ .disconnected

section Steps

variable (cap : Nat) {e e' : Endpoint α} {out inn : List (Frame α)}

/-- A request keeps both instances of the invariant, -/
theorem honest_request (r : EndpointRequest α) (h : Honest e e' out inn)
    (h' : Honest e' e inn out) :
    Honest ((endpointParty α cap).request e r).node e'
        (out ++ ((endpointParty α cap).request e r).sent) inn ∧
      Honest e' ((endpointParty α cap).request e r).node inn
        (out ++ ((endpointParty α cap).request e r).sent) := by
  cases r with
  | connect =>
    refine ⟨Owed.send h (by show 0 < 4; decide) (by simp) (fun _ => Or.inr rfl) ?_, ?_⟩
    · -- it is `SENT_SYN0` now
      intro hs
      exact absurd hs (by show SFPconnectstate.sentSyn0 ≠ _; decide)
    · apply (Owed.inn_append h' _).peer_state
      intro hs
      exact absurd hs (by show SFPconnectstate.sentSyn0 ≠ _; decide)
  | write p =>
    exact ⟨Owed.send h trivial (by simp) Or.inl id, Owed.inn_append h' _⟩

/-- and so does a frame that is heard. -/
theorem honest_hear (f : Frame α) (h : Honest e e' out (f :: inn))
    (h' : Honest e' e (f :: inn) out) :
    Honest ((endpointParty α cap).hear e f).node e'
        (out ++ ((endpointParty α cap).hear e f).sent) inn ∧
      Honest e' ((endpointParty α cap).hear e f).node inn
        (out ++ ((endpointParty α cap).hear e f).sent) := by
  have hreact := e.receive_reacts (h'.proper f (by simp))
  exact ⟨Owed.hear h hreact, Owed.heard h' hreact⟩

/-- While all writes are open requests keep parties open, -/
theorem polite_request (r : EndpointRequest α) (hr : WritesOpen e r) (h : Polite e e' out inn)
    (h' : Polite e' e inn out) :
    Polite ((endpointParty α cap).request e r).node e'
        (out ++ ((endpointParty α cap).request e r).sent) inn ∧
      Polite e' ((endpointParty α cap).request e r).node inn
        (out ++ ((endpointParty α cap).request e r).sent) := by
  obtain ⟨hhonest, hhonest'⟩ := honest_request cap r h.1 h'.1
  cases r with
  | connect =>
    exact ⟨⟨hhonest, h.2.send (by simp) (by show SFPconnectstate.sentSyn0 ≠ _; decide)⟩,
      hhonest', h'.2.peer_send fun _ => rfl⟩
  | write p =>
    have hopen := hr p rfl
    exact ⟨⟨hhonest, h.2.send (by simp) hopen⟩, hhonest', h'.2.peer_send fun hs => absurd hs hopen⟩

/-- and what is heard is no `DIS`. -/
theorem polite_hear (f : Frame α) (h : Polite e e' out (f :: inn))
    (h' : Polite e' e (f :: inn) out) :
    Polite ((endpointParty α cap).hear e f).node e'
        (out ++ ((endpointParty α cap).hear e f).sent) inn ∧
      Polite e' ((endpointParty α cap).hear e f).node inn
        (out ++ ((endpointParty α cap).hear e f).sent) := by
  obtain ⟨hhonest, hhonest'⟩ := honest_hear cap f h.1 h'.1
  have hreact := e.receive_reacts (h'.1.proper f (by simp))
  exact ⟨⟨hhonest, h.2.hear h'.2 hreact⟩, hhonest', h'.2.heard _⟩

end Steps

/-- Two endpoints just after initialization. -/
def netStart (history : Side → List α) : Net α :=
  Link.start fun x => .init (history x)

/-- The invariants hold at the start, -/
theorem both_honest_start (history : Side → List α) : Link.Both Honest (netStart history) := by
  intro x
  constructor <;> simp [netStart, Link.start, Link.messages, Endpoint.init, DisFollowed]

/-- of either kind, -/
theorem both_polite_start (history : Side → List α) : Link.Both Polite (netStart history) := by
  intro x
  refine ⟨both_honest_start history x, ?_, ?_⟩ <;>
    simp [netStart, Link.start, Link.messages, Endpoint.init]

/-- A step at which nobody writes on a disconnected side. -/
def PoliteStep (l : Net α) (a : Action (EndpointRequest α) (Frame α)) : Prop :=
  a.Lossless ∧ ∀ x r, a = .request x r → WritesOpen (l.node x) r

section Runs

variable {cap : Nat} {l : Net α} {as : List (Action (EndpointRequest α) (Frame α))}

/-- and behind every lossless run, -/
theorem both_honest_run (h : Link.Both Honest l) (has : ∀ a ∈ as, a.Lossless) :
    Link.Both Honest (run (Link.step (endpointParty α cap)) l as) := by
  apply Lib.run_invariant (P := fun _ a => a.Lossless) _ h (Lib.meets_of_forall has)
  intro l a hl ha
  exact hl.step (A := fun _ _ => True) (H := fun _ _ _ _ => True)
    (fun r _ => honest_request cap r) (fun f _ => honest_hear cap f) ha
    (fun _ _ _ => trivial) (fun _ _ => trivial)

/-- at every polite step -/
theorem both_polite_step (h : Link.Both Polite l) {a : Action (EndpointRequest α) (Frame α)}
    (ha : PoliteStep l a) : Link.Both Polite (l.step (endpointParty α cap) a) :=
  h.step (H := fun _ _ _ _ => True) (fun r => polite_request cap r) (fun f _ => polite_hear cap f)
    ha.1 ha.2 (fun _ _ => trivial)

/-- and behind every polite run. -/
theorem both_polite_run (h : Link.Both Polite l)
    (has : Meets (Link.step (endpointParty α cap)) PoliteStep l as) :
    Link.Both Polite (run (Link.step (endpointParty α cap)) l as) := by
  apply Lib.run_invariant _ h has
  intro l a hl ha
  exact both_polite_step hl ha

/-- A side that is not disconnected stays so. -/
theorem stays_open (h : Link.Both Polite l) {a : Action (EndpointRequest α) (Frame α)}
    (ha : PoliteStep l a) {x : Side} (hx : (l.node x).connectState ≠ .disconnected) :
    ((l.step (endpointParty α cap) a).node x).connectState ≠ .disconnected := by
  -- the other side acts, or the reaction does not disconnect
  have hacts : ∀ {l' : Net α} {y : Side} {o : Outcome (Endpoint α) (Frame α) α}
      {rest : List (Frame α)}, Link.Acts l l' y o rest →
      ((l.node y).connectState ≠ .disconnected → o.node.connectState ≠ .disconnected) →
      (l'.node x).connectState ≠ .disconnected := by
    intro l' y o rest hact hstay
    rcases x.eq_or_eq_peer y with rfl | rfl
    · rw [hact.node]
      exact hstay hx
    · rw [hact.node_peer]
      exact hx
  cases a with
  | request y r =>
    apply hacts (Link.acts_request (endpointParty α cap) l y r)
    intro hy
    cases r with
    | connect => show SFPconnectstate.sentSyn0 ≠ _; decide
    | write p => exact hy
  | deliver y =>
    cases hm : l.messages y with
    | nil => rw [Link.deliver_of_messages_nil _ hm]; exact hx
    | cons f fs =>
      have hin := h y
      have hout := h y.peer
      rw [Side.peer_peer] at hout
      rw [hm] at hin hout
      apply hacts (Link.acts_deliver (endpointParty α cap) hm)
      intro _
      exact hin.2.ne_disconnected hout.2 ((l.node y).receive_reacts (hout.1.proper f (by simp)))
  | lose y i => exact ha.1.elim
  | corrupt y i f => exact ha.1.elim

/-- So a party that is open stays open. -/
theorem stays_open_run (h : Link.Both Polite l)
    (has : Meets (Link.step (endpointParty α cap)) PoliteStep l as) {x : Side}
    (hx : (l.node x).connectState ≠ .disconnected) :
    ((run (Link.step (endpointParty α cap)) l as).node x).connectState ≠ .disconnected := by
  have hstep : ∀ (l : Net α) a, Link.Both Polite l ∧ (l.node x).connectState ≠ .disconnected →
      PoliteStep l a → Link.Both Polite (l.step (endpointParty α cap) a) ∧
        ((l.step (endpointParty α cap) a).node x).connectState ≠ .disconnected := by
    intro l a hl ha
    refine ⟨both_polite_step hl.1 ha, ?_⟩
    exact stays_open hl.1 ha hl.2
  exact (Lib.run_invariant hstep ⟨h, hx⟩ has).2

/-- Once somebody has connected, somebody is not disconnected. -/
theorem open_of_connect (h : Link.Both Polite l)
    (has : Meets (Link.step (endpointParty α cap)) PoliteStep l as) {x : Side}
    (hx : .request x .connect ∈ as) :
    ((run (Link.step (endpointParty α cap)) l as).node x).connectState ≠ .disconnected := by
  -- the request opens that side, and it stays open
  obtain ⟨before, after, rfl⟩ := List.append_of_mem hx
  obtain ⟨hbefore, hconnect, hafter⟩ := Lib.meets_append.mp has
  have hmiddle := both_polite_run h hbefore
  rw [Lib.run_append, Lib.run_cons]
  apply stays_open_run _ hafter
  · rw [Link.step_request, Link.node_act]
    show SFPconnectstate.sentSyn0 ≠ _
    decide
  · exact both_polite_step hmiddle hconnect

/-- With both channels empty the states agree. -/
theorem quiet_agreement (h : Link.Both Honest l) (hquiet : ∀ x, l.messages x = []) :
    (∀ x, (l.node x).connectState = .connected) ∨
      ∀ x, (l.node x).connectState = .disconnected := by
  have hleft := h .left
  have hright := h .right
  rw [Honest, hquiet, hquiet] at hleft hright
  rcases Owed.quiet hleft hright with ⟨hl, hr⟩ | ⟨hl, hr⟩
  · exact Or.inl (Side.forall_of_peer .left hl hr)
  · exact Or.inr (Side.forall_of_peer .left hl hr)

end Runs

/-! ## Runs between contexts -/

variable [SfpConfig]

/-- `sfpWritePacket` is not called on a disconnected context. -/
def WritesOpenLine (l : Line) : Action Request (List UInt8) → Prop
  | .request x (.write _ _ _) => (l.node x).connectState ≠ .disconnected
  | _ => True

/-- A lossless action replaces nothing, -/
theorem goodAction_of_lossless {a : Action Request (List UInt8)} (ha : a.Lossless) :
    sfpAbstraction.GoodAction a := by
  cases a with
  | corrupt x i segment => exact ha.elim
  | _ => trivial

/-- on the line or between its endpoints. -/
theorem lossless_action {a : Action Request (List UInt8)} (ha : a.Lossless) :
    (sfpAbstraction.action a).Lossless := by
  cases a <;> exact ha

/-- The condition on writes is the same for contexts and endpoints. -/
theorem politeStep_of_line {l : Line} {a : Action Request (List UInt8)} (ha : a.Lossless)
    (hopen : WritesOpenLine l a) :
    PoliteStep (sfpAbstraction.link l) (sfpAbstraction.action a) := by
  refine ⟨lossless_action ha, ?_⟩
  intro x r hr p hp
  cases a with
  | request y q =>
    cases q with
    | connect =>
      simp only [Lib.Abstraction.action, sfpAbstraction, Action.request.injEq] at hr
      rw [hp] at hr
      exact absurd hr.2 (by simp)
    | write stack packet fits =>
      simp only [Lib.Abstraction.action, Action.request.injEq] at hr
      rw [← hr.1]
      exact hopen
  | _ => simp [Lib.Abstraction.action] at hr

/-- **Quiescent agreement.** In every run without loss the two contexts are both connected or both
disconnected whenever both channels are empty; they are connected if somebody called `sfpConnect`
and nobody called `sfpWritePacket` on a disconnected context. -/
theorem quiescent_agreement (memory : Side → SFPcontext) {as : List (Action Request (List UInt8))}
    (has : ∀ a ∈ as, a.Lossless) :
    let l := run (Link.step sfpParty) (lineStart memory) as
    (∀ x, l.chan x = []) →
      ((∀ x, (l.node x).connectState = .connected) ∨
        ∀ x, (l.node x).connectState = .disconnected) ∧
      (Meets (Link.step sfpParty) WritesOpenLine (lineStart memory) as →
        (∃ x, .request x .connect ∈ as) → ∀ x, (l.node x).connectState = .connected) := by
  intro l hempty
  have hgood := goodLink_lineStart memory
  have hactions : Meets (Link.step sfpParty) (fun _ a => sfpAbstraction.GoodAction a)
      (lineStart memory) as :=
    Lib.meets_of_forall fun a ha => goodAction_of_lossless (has a ha)
  have hrun := sfpAbstraction.link_run hgood hactions
  have hquiet : ∀ x, (sfpAbstraction.link l).messages x = [] :=
    fun x => sfpAbstraction.messages_link_of_nil (hempty x)
  have hlossless : ∀ a ∈ as.map sfpAbstraction.action, a.Lossless := by
    intro a ha
    obtain ⟨b, hb, rfl⟩ := List.mem_map.mp ha
    exact lossless_action (has b hb)
  have hhonest : Link.Both Honest (sfpAbstraction.link l) := by
    rw [hrun]
    exact both_honest_run (both_honest_start _) hlossless
  -- first the agreement, without any promise of the users
  have hagree := quiet_agreement hhonest hquiet
  refine ⟨hagree, ?_⟩
  rintro hopen ⟨x, hx⟩
  -- then the side that asked is still open, so both are connected
  have hpolite : Meets (Link.step (endpointParty (List UInt8) sfpConfigHistoryCapacity)) PoliteStep
      (sfpAbstraction.link (lineStart memory)) (as.map sfpAbstraction.action) := by
    apply sfpAbstraction.link_meets _ hgood hactions
      ((Lib.meets_of_forall has).and hopen)
    exact fun l a _ _ h => politeStep_of_line h.1 h.2
  have hnode : ((sfpAbstraction.link l).node x).connectState ≠ .disconnected := by
    rw [hrun]
    exact open_of_connect (both_polite_start _) hpolite (List.mem_map_of_mem hx)
  rcases hagree with hagree | hagree
  · exact hagree
  · exact absurd (hagree x) hnode

end Libsfp

namespace Libsfp

open Lib (Side Link Action Meets run)

section HeaderDefaults

attribute [local instance] headerDefaults

/-- Both sides are connected when the early run is over. -/
theorem quiescent_agreement_early :
    let l := run (Link.step sfpParty) (lineStart fun _ => SFPcontext.zero)
      (.request .left .connect :: earlyRun)
    (l.node .left).connectState = .connected ∧ (l.node .right).connectState = .connected := by
  have hlossless : ∀ a ∈ .request .left .connect :: earlyRun, a.Lossless := by
    intro a ha
    rcases List.mem_cons.mp ha with rfl | ha
    · trivial
    · exact (oneWriter_earlyRun a ha).lossless
  have hactions : Meets (Link.step sfpParty) (fun _ a => sfpAbstraction.GoodAction a)
      askedLine earlyRun :=
    Lib.meets_of_forall fun a ha => (oneWriter_earlyRun a ha).goodAction
  -- by the time the left side writes it has asked for the session
  have hopen : Meets (Link.step sfpParty) WritesOpenLine askedLine earlyRun := by
    apply sfpAbstraction.meets_of_link
      (fun l a => OneWriter .left a ∧ (l.node .left).connectState ≠ .disconnected) _
      goodLink_askedLine hactions
    · decide +kernel
    · intro l a _ _ h
      have hwriter := oneWriter_iff.mp h.1
      cases a with
      | request y r =>
        cases r with
        | connect => trivial
        | write stack packet fits =>
          have hy : y = .left := hwriter
          subst hy
          exact h.2
      | _ => trivial
  obtain ⟨hempty, -⟩ := quiet_earlyRun
  have hagree := quiescent_agreement (fun _ => SFPcontext.zero) hlossless hempty
  have hconnected := hagree.2 ⟨trivial, hopen⟩ ⟨.left, by simp⟩
  exact ⟨hconnected .left, hconnected .right⟩

end HeaderDefaults

end Libsfp
