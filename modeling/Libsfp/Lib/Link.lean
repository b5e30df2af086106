import Mathlib.Data.Fintype.Basic
import Mathlib.Logic.Function.Basic
import Libsfp.Lib.Runs

/-!
# Two Parties and Two Channels

Two copies of one party joined by two FIFO channels. A party reacts to requests of its user and to
messages of its peer; each reaction is a new state, messages for the peer and payloads for the
user. The environment chooses the order: it makes requests, delivers the oldest message of a
channel, loses messages or replaces them.

Besides the parties and the channels a link records its history: what each user wrote and was
given, and for each message in flight the position of the payload it carries in the order in which
its sender's user wrote. Reactions never look at that record.

An abstraction of one party into another one carries over to links and to whole runs.
-/

namespace Libsfp.Lib

/-! ## Parties -/

inductive Side where
  | left | right
  deriving DecidableEq, Repr

namespace Side

instance : Fintype Side := ⟨{left, right}, by intro x; cases x <;> decide⟩

def peer : Side → Side
  | left => right
  | right => left

/-- The peer of the peer is the side itself. -/
@[simp] theorem peer_peer (x : Side) : x.peer.peer = x := by cases x <;> rfl
@[simp] theorem peer_ne (x : Side) : x.peer ≠ x := by cases x <;> decide
@[simp] theorem ne_peer (x : Side) : x ≠ x.peer := x.peer_ne.symm

/-- There are only two sides. -/
theorem eq_or_eq_peer (x y : Side) : x = y ∨ x = y.peer := by
  cases x <;> cases y <;> decide

/-- What holds of a side and of its peer holds of both sides. -/
theorem forall_of_peer {P : Side → Prop} (x : Side) (h : P x) (hpeer : P x.peer) : ∀ y, P y := by
  intro y
  rcases y.eq_or_eq_peer x with rfl | rfl
  · exact h
  · exact hpeer

end Side

/-- What a party does at once: its next state, its messages, the payloads for its user. -/
structure Outcome (ν μ π : Type*) where
  node : ν
  sent : List μ
  got : List π

/-- One thing after another. -/
def Outcome.andThen {ν μ π : Type*} (o o' : Outcome ν μ π) : Outcome ν μ π :=
  ⟨o'.node, o.sent ++ o'.sent, o.got ++ o'.got⟩

/-- A party: states `ν`, messages `μ`, requests `ρ`, payloads `π`. -/
structure Party (ν μ ρ π : Type*) where
  request : ν → ρ → Outcome ν μ π
  hear : ν → μ → Outcome ν μ π
  /-- The payloads that a request asks to send. -/
  written : ρ → List π
  /-- The message carries a payload. -/
  carries : μ → Bool

variable {ν μ ρ π ν' μ' ρ' : Type*}

/-! ## Links -/

/-- A message in flight, with the position of its payload. -/
structure Parcel (μ : Type*) where
  message : μ
  pos : Nat
  deriving DecidableEq, Repr

/-- Messages sent together carry the last payloads written, in order: the last one carries the
payload number `n - 1`. -/
def stamp (carries : μ → Bool) (n : Nat) : List μ → List (Parcel μ)
  | [] => []
  -- messages that carry nothing get the position of the next payload
  | m :: ms => ⟨m, n - (m :: ms).countP carries⟩ :: stamp carries n ms

@[simp] theorem stamp_nil (carries : μ → Bool) (n : Nat) : stamp carries n [] = [] := rfl

@[simp] theorem stamp_cons (carries : μ → Bool) (n : Nat) (m : μ) (ms : List μ) :
    stamp carries n (m :: ms)
      = ⟨m, n - (m :: ms).countP carries⟩ :: stamp carries n ms := rfl

/-- Stamping changes no message. -/
@[simp] theorem map_message_stamp (carries : μ → Bool) (n : Nat) (ms : List μ) :
    (stamp carries n ms).map Parcel.message = ms := by
  induction ms with
  | nil => rfl
  | cons m ms ih => rw [stamp_cons, List.map_cons, ih]

structure Link (ν μ π : Type*) where
  node : Side → ν
  /-- The messages in flight towards a side, oldest first. -/
  chan : Side → List (Parcel μ)
  /-- What the user of a side asked to send so far. -/
  wrote : Side → List π
  /-- What the user of a side was given so far. -/
  got : Side → List π
  /-- The positions of the messages with which the user was given something. -/
  took : Side → List Nat

/-- What the environment can do. -/
inductive Action (ρ μ : Type*) where
  | request (x : Side) (r : ρ)
  | deliver (x : Side)
  | lose (x : Side) (i : Nat)
  | corrupt (x : Side) (i : Nat) (m : μ)

/-- Nothing is lost or replaced. -/
def Action.Lossless : Action ρ μ → Prop
  | .request _ _ => True
  | .deliver _ => True
  | _ => False

/-- The payloads that the user of `x` asks to send. -/
def Action.written (P : Party ν μ ρ π) (x : Side) : Action ρ μ → List π
  | .request y r => if y = x then P.written r else []
  | _ => []

namespace Link

/-- Two parties that have not exchanged anything yet. -/
def start (node : Side → ν) : Link ν μ π where
  node := node
  chan := fun _ => []
  wrote := fun _ => []
  got := fun _ => []
  took := fun _ => []

/-- One side acts; `payloads` is what its user wrote for that. -/
def act (carries : μ → Bool) (l : Link ν μ π) (x : Side) (o : Outcome ν μ π)
    (payloads : List π) (pos : Nat) : Link ν μ π where
  node := Function.update l.node x o.node
  chan := Function.update l.chan x.peer
    (l.chan x.peer ++ stamp carries (l.wrote x ++ payloads).length o.sent)
  wrote := Function.update l.wrote x (l.wrote x ++ payloads)
  got := Function.update l.got x (l.got x ++ o.got)
  took := Function.update l.took x (l.took x ++ o.got.map fun _ => pos)

def setChan (l : Link ν μ π) (x : Side) (ps : List (Parcel μ)) : Link ν μ π :=
  { l with chan := Function.update l.chan x ps }

/-- Replace the message of a parcel; the position stays that of the message replaced. -/
def replaceAt (ps : List (Parcel μ)) (i : Nat) (m : μ) : List (Parcel μ) :=
  ps.modify i fun p => { p with message := m }

def step (P : Party ν μ ρ π) (l : Link ν μ π) : Action ρ μ → Link ν μ π
  | .request x r => l.act P.carries x (P.request (l.node x) r) (P.written r) 0
  | .deliver x =>
    match l.chan x with
    | [] => l
    | p :: ps => (l.setChan x ps).act P.carries x (P.hear (l.node x) p.message) [] p.pos
  -- the environment may lose or damage what is in flight
  | .lose x i => l.setChan x ((l.chan x).eraseIdx i)
  | .corrupt x i m => l.setChan x (replaceAt (l.chan x) i m)

/-- How many payloads of a side were written but not yet handed to the user of its peer. -/
def outstanding (l : Link ν μ π) (x : Side) : Nat :=
  (l.wrote x).length - (l.got x.peer).length

/-- A request changes its own side at once. -/
theorem step_request (P : Party ν μ ρ π) (l : Link ν μ π) (x : Side) (r : ρ) :
    l.step P (.request x r) = l.act P.carries x (P.request (l.node x) r) (P.written r) 0 := rfl

/-- Nothing in flight, nothing delivered. -/
theorem step_deliver_nil (P : Party ν μ ρ π) {l : Link ν μ π} {x : Side} (h : l.chan x = []) :
    l.step P (.deliver x) = l := by
  simp only [step, h]

/-- The oldest parcel is taken off the channel, then heard. -/
theorem step_deliver_cons (P : Party ν μ ρ π) {l : Link ν μ π} {x : Side} {p : Parcel μ}
    {ps : List (Parcel μ)} (h : l.chan x = p :: ps) :
    l.step P (.deliver x)
      = (l.setChan x ps).act P.carries x (P.hear (l.node x) p.message) [] p.pos := by
  simp only [step, h]

section Projections

variable (carries : μ → Bool) (l : Link ν μ π) (x : Side) (o : Outcome ν μ π) (ws : List π)
  (pos : Nat)

/-- The side that acts is in its next state; its peer stays where it is. -/
@[simp] theorem node_act : (l.act carries x o ws pos).node x = o.node := by simp [act]
@[simp] theorem node_act_peer : (l.act carries x o ws pos).node x.peer = l.node x.peer := by
  simp [act]

/-- What a side sends goes to the end of the channel towards its peer. -/
@[simp] theorem chan_act_peer : (l.act carries x o ws pos).chan x.peer
    = l.chan x.peer ++ stamp carries (l.wrote x ++ ws).length o.sent := by simp [act]
@[simp] theorem chan_act : (l.act carries x o ws pos).chan x = l.chan x := by simp [act]

/-- What was written for it is recorded for the side that acts alone. -/
@[simp] theorem wrote_act : (l.act carries x o ws pos).wrote x = l.wrote x ++ ws := by simp [act]
@[simp] theorem wrote_act_peer : (l.act carries x o ws pos).wrote x.peer = l.wrote x.peer := by
  simp [act]

/-- So is what its user is given, -/
@[simp] theorem got_act : (l.act carries x o ws pos).got x = l.got x ++ o.got := by simp [act]
@[simp] theorem got_act_peer : (l.act carries x o ws pos).got x.peer = l.got x.peer := by
  simp [act]

/-- and the position it was given with. -/
@[simp] theorem took_act :
    (l.act carries x o ws pos).took x = l.took x ++ o.got.map fun _ => pos := by simp [act]
@[simp] theorem took_act_peer : (l.act carries x o ws pos).took x.peer = l.took x.peer := by
  simp [act]

/-! The same, when it is the peer that acts. -/

@[simp] theorem node_peer_act : (l.act carries x.peer o ws pos).node x = l.node x := by
  simp [act]
@[simp] theorem chan_peer_act : (l.act carries x.peer o ws pos).chan x
    = l.chan x ++ stamp carries (l.wrote x.peer ++ ws).length o.sent := by simp [act]
@[simp] theorem wrote_peer_act : (l.act carries x.peer o ws pos).wrote x = l.wrote x := by
  simp [act]
@[simp] theorem got_peer_act : (l.act carries x.peer o ws pos).got x = l.got x := by
  simp [act]

variable (ps : List (Parcel μ))

/-- Only the one channel is replaced. -/
@[simp] theorem chan_setChan : (l.setChan x ps).chan x = ps := by simp [setChan]
@[simp] theorem chan_setChan_peer : (l.setChan x ps).chan x.peer = l.chan x.peer := by
  simp [setChan]
@[simp] theorem chan_peer_setChan : (l.setChan x.peer ps).chan x = l.chan x := by
  simp [setChan]
@[simp] theorem node_setChan : (l.setChan x ps).node = l.node := rfl
@[simp] theorem wrote_setChan : (l.setChan x ps).wrote = l.wrote := rfl
@[simp] theorem got_setChan : (l.setChan x ps).got = l.got := rfl
@[simp] theorem took_setChan : (l.setChan x ps).took = l.took := rfl

end Projections

/-- Only requests write. -/
theorem wrote_step (P : Party ν μ ρ π) (l : Link ν μ π) (a : Action ρ μ) (x : Side) :
    (l.step P a).wrote x = l.wrote x ++ a.written P x := by
  cases a with
  | request y r =>
    rw [step_request]
    -- the side itself, or its peer
    rcases x.eq_or_eq_peer y with rfl | rfl
    · rw [wrote_act, Action.written, if_pos rfl]
    · rw [wrote_act_peer, Action.written, if_neg y.ne_peer, List.append_nil]
  | deliver y =>
    cases hchan : l.chan y with
    | nil =>
      rw [step_deliver_nil P hchan]
      exact (List.append_nil _).symm
    | cons p ps =>
      rw [step_deliver_cons P hchan]
      rcases x.eq_or_eq_peer y with rfl | rfl
      · rw [wrote_act, wrote_setChan]
        rfl
      · rw [wrote_act_peer, wrote_setChan]
        exact (List.append_nil _).symm
  | lose y i => exact (List.append_nil _).symm
  | corrupt y i m => exact (List.append_nil _).symm

/-- What is heard writes nothing. -/
theorem wrote_deliver (P : Party ν μ ρ π) (l : Link ν μ π) (x y : Side) :
    (l.step P (.deliver x)).wrote y = l.wrote y := by
  rw [wrote_step]
  exact List.append_nil _

/-- A request writes for its own side only. -/
theorem wrote_request (P : Party ν μ ρ π) (l : Link ν μ π) (x : Side) (r : ρ) :
    (l.step P (.request x r)).wrote x = l.wrote x ++ P.written r ∧
      (l.step P (.request x r)).wrote x.peer = l.wrote x.peer := by
  rw [step_request]
  exact ⟨wrote_act _ _ _ _ _ _, wrote_act_peer _ _ _ _ _ _⟩

/-- What a user wrote in a run is what the actions of the run say. -/
theorem wrote_run (P : Party ν μ ρ π) (l : Link ν μ π) (as : List (Action ρ μ)) (x : Side) :
    (run (step P) l as).wrote x = l.wrote x ++ as.flatMap (Action.written P x) := by
  induction as generalizing l with
  | nil => exact (List.append_nil _).symm
  | cons a as ih => rw [run_cons, ih, wrote_step, List.append_assoc, List.flatMap_cons]

/-! ## Lossless links -/

/-- The messages in flight towards a side. -/
def messages (l : Link ν μ π) (x : Side) : List μ :=
  (l.chan x).map Parcel.message

/-- What one side does, seen from outside: `rest` is what is still on its way to it. -/
structure Acts (l l' : Link ν μ π) (x : Side) (o : Outcome ν μ π) (rest : List μ) : Prop where
  node : l'.node x = o.node
  node_peer : l'.node x.peer = l.node x.peer
  messages : l'.messages x = rest
  messages_peer : l'.messages x.peer = l.messages x.peer ++ o.sent

/-- A request leaves what is on its way to the side. -/
theorem acts_request (P : Party ν μ ρ π) (l : Link ν μ π) (x : Side) (r : ρ) :
    Acts l (l.step P (.request x r)) x (P.request (l.node x) r) (l.messages x) where
  node := by rw [step_request, node_act]
  node_peer := by rw [step_request, node_act_peer]
  messages := by rw [step_request, Link.messages, chan_act]; rfl
  messages_peer := by
    rw [step_request, Link.messages, chan_act_peer, List.map_append, map_message_stamp]
    rfl

/-- A delivery takes the oldest message off what is on its way to the side. -/
theorem acts_deliver (P : Party ν μ ρ π) {l : Link ν μ π} {x : Side} {m : μ} {ms : List μ}
    (h : l.messages x = m :: ms) :
    Acts l (l.step P (.deliver x)) x (P.hear (l.node x) m) ms := by
  obtain ⟨p, ps, hchan, rfl, rfl⟩ := List.map_eq_cons_iff.mp h
  rw [step_deliver_cons P hchan]
  refine ⟨by rw [node_act], by rw [node_act_peer, node_setChan], ?_, ?_⟩
  · rw [Link.messages, chan_act, chan_setChan]
  · rw [Link.messages, chan_act_peer, chan_setChan_peer, List.map_append, map_message_stamp]
    rfl

/-- A delivery from an empty channel does nothing. -/
theorem deliver_of_messages_nil (P : Party ν μ ρ π) {l : Link ν μ π} {x : Side}
    (h : l.messages x = []) : l.step P (.deliver x) = l :=
  step_deliver_nil P (List.map_eq_nil_iff.mp h)

/-- What the users are given on a request. -/
theorem got_request (P : Party ν μ ρ π) (l : Link ν μ π) (x : Side) (r : ρ) :
    (l.step P (.request x r)).got x = l.got x ++ (P.request (l.node x) r).got ∧
      (l.step P (.request x r)).got x.peer = l.got x.peer := by
  rw [step_request]
  exact ⟨got_act _ _ _ _ _ _, got_act_peer _ _ _ _ _ _⟩

/-- What the users are given when a message is heard. -/
theorem got_deliver (P : Party ν μ ρ π) {l : Link ν μ π} {x : Side} {m : μ} {ms : List μ}
    (h : l.messages x = m :: ms) :
    (l.step P (.deliver x)).got x = l.got x ++ (P.hear (l.node x) m).got ∧
      (l.step P (.deliver x)).got x.peer = l.got x.peer := by
  obtain ⟨p, ps, hchan, rfl, rfl⟩ := List.map_eq_cons_iff.mp h
  rw [step_deliver_cons P hchan]
  exact ⟨got_act _ _ _ _ _ _, got_act_peer _ _ _ _ _ _⟩

/-! ### Up to positions -/

/-- Two links that differ at most in the positions they record. -/
structure Alike (l l' : Link ν μ π) : Prop where
  node : l.node = l'.node
  messages : l.messages = l'.messages
  wrote : l.wrote = l'.wrote
  got : l.got = l'.got

namespace Alike

variable {l l' l'' : Link ν μ π}

theorem refl (l : Link ν μ π) : Alike l l := ⟨rfl, rfl, rfl, rfl⟩

theorem symm (h : Alike l l') : Alike l' l :=
  ⟨h.node.symm, h.messages.symm, h.wrote.symm, h.got.symm⟩

theorem trans (h : Alike l l') (h' : Alike l' l'') : Alike l l'' :=
  ⟨h.node.trans h'.node, h.messages.trans h'.messages, h.wrote.trans h'.wrote,
    h.got.trans h'.got⟩

end Alike

/-- What is sent is behind what was in flight. -/
theorem messages_act (carries : μ → Bool) (l : Link ν μ π) (x : Side) (o : Outcome ν μ π)
    (ws : List π) (pos : Nat) : (l.act carries x o ws pos).messages
      = Function.update l.messages x.peer (l.messages x.peer ++ o.sent) := by
  funext y
  rcases y.eq_or_eq_peer x.peer with rfl | rfl
  · rw [Link.messages, chan_act_peer, Function.update_self, List.map_append, map_message_stamp]
    rfl
  · rw [Side.peer_peer, Link.messages, chan_act, Function.update_of_ne x.ne_peer]
    rfl

/-- The messages of a channel that was replaced. -/
theorem messages_setChan (l : Link ν μ π) (x : Side) (ps : List (Parcel μ)) :
    (l.setChan x ps).messages = Function.update l.messages x (ps.map Parcel.message) := by
  funext y
  by_cases hy : y = x
  · subst hy
    rw [Link.messages, chan_setChan, Function.update_self]
  · rw [Function.update_of_ne hy]
    exact congrArg (List.map Parcel.message) (Function.update_of_ne hy ..)

/-- Positions have no part in what a side does, -/
theorem Alike.act {l l' : Link ν μ π} (h : Alike l l') (carries : μ → Bool) (x : Side)
    (o : Outcome ν μ π) (ws : List π) (pos pos' : Nat) :
    Alike (l.act carries x o ws pos) (l'.act carries x o ws pos') where
  node := by rw [Link.act, Link.act, h.node]
  messages := by rw [messages_act, messages_act, h.messages]
  wrote := by rw [Link.act, Link.act, h.wrote]
  got := by rw [Link.act, Link.act, h.got]

theorem Alike.setChan {l l' : Link ν μ π} (h : Alike l l') (x : Side)
    {ps ps' : List (Parcel μ)} (hps : ps.map Parcel.message = ps'.map Parcel.message) :
    Alike (l.setChan x ps) (l'.setChan x ps') where
  node := h.node
  messages := by rw [messages_setChan, messages_setChan, h.messages, hps]
  wrote := h.wrote
  got := h.got

/-- Links that differ in positions only go on so. -/
theorem Alike.step {l l' : Link ν μ π} (h : Alike l l') (P : Party ν μ ρ π) (a : Action ρ μ) :
    Alike (l.step P a) (l'.step P a) := by
  have hmessages : ∀ y, (l.chan y).map Parcel.message = (l'.chan y).map Parcel.message :=
    fun y => congrFun h.messages y
  cases a with
  | request x r =>
    rw [step_request, step_request, h.node]
    exact h.act ..
  | deliver x =>
    have hx := hmessages x
    cases hchan : l.chan x with
    | nil =>
      rw [hchan] at hx
      have hchan' : l'.chan x = [] := List.map_eq_nil_iff.mp hx.symm
      rwa [step_deliver_nil P hchan, step_deliver_nil P hchan']
    | cons p ps =>
      rw [hchan] at hx
      obtain ⟨p', ps', hchan', hp, hps⟩ := List.map_eq_cons_iff.mp hx.symm
      rw [step_deliver_cons P hchan, step_deliver_cons P hchan', h.node, hp]
      exact (h.setChan x hps.symm).act ..
  | lose x i =>
    apply h.setChan
    rw [← List.eraseIdx_map, ← List.eraseIdx_map, hmessages]
  | corrupt x i m =>
    apply h.setChan
    have hreplace : ∀ ps : List (Parcel μ), (replaceAt ps i m).map Parcel.message
        = (ps.map Parcel.message).modify i fun _ => m := by
      intro ps
      induction ps generalizing i with
      | nil => cases i <;> rfl
      | cons p ps ih =>
        cases i with
        | zero => rfl
        | succ i => exact congrArg (p.message :: ·) (ih i)
    rw [hreplace, hreplace, hmessages]

theorem Alike.run {l l' : Link ν μ π} (h : Alike l l') (P : Party ν μ ρ π)
    (as : List (Action ρ μ)) : Alike (run (Link.step P) l as) (run (Link.step P) l' as) := by
  induction as generalizing l l' with
  | nil => exact h
  | cons a as ih => exact ih (h.step P a)

/-- To do nothing. -/
theorem alike_act_nil (carries : μ → Bool) (l : Link ν μ π) (x : Side) (pos : Nat) :
    Alike (l.act carries x ⟨l.node x, [], []⟩ [] pos) l where
  node := Function.update_eq_self x l.node
  messages := by rw [messages_act, List.append_nil, Function.update_eq_self]
  wrote := by simp only [Link.act, List.append_nil, Function.update_eq_self]
  got := by simp only [Link.act, List.append_nil, Function.update_eq_self]

/-- One side does one thing and then another. -/
theorem alike_act_act (carries : μ → Bool) (l : Link ν μ π) (x : Side) (o o' : Outcome ν μ π)
    (ws ws' : List π) (pos pos' : Nat) :
    Alike ((l.act carries x o ws pos).act carries x o' ws' pos')
      (l.act carries x (o.andThen o') (ws ++ ws') pos) where
  node := Function.update_idem ..
  messages := by
    rw [messages_act, messages_act, messages_act, Function.update_self, Function.update_idem,
      List.append_assoc]
    rfl
  wrote := by
    simp only [Link.act, Function.update_self, Function.update_idem, List.append_assoc]
  got := by
    simp only [Link.act, Outcome.andThen, Function.update_self, Function.update_idem,
      List.append_assoc]

/-- `I` holds of both sides: each is given its own state, that of its peer, what it has in flight
to its peer and what is in flight to it. -/
def Both (I : ν → ν → List μ → List μ → Prop) (l : Link ν μ π) : Prop :=
  ∀ x, I (l.node x) (l.node x.peer) (l.messages x.peer) (l.messages x)

/-- After one side acts, the two instances of a symmetric invariant are one about that side and one
about its peer. -/
theorem both_of_acts {I : ν → ν → List μ → List μ → Prop} {l l' : Link ν μ π} {x : Side}
    {o : Outcome ν μ π} {rest : List μ} (h : Acts l l' x o rest)
    (hx : I o.node (l.node x.peer) (l.messages x.peer ++ o.sent) rest)
    (hpeer : I (l.node x.peer) o.node rest (l.messages x.peer ++ o.sent)) : Both I l' := by
  refine Side.forall_of_peer x ?_ ?_
  · rw [h.node, h.node_peer, h.messages, h.messages_peer]
    exact hx
  · rw [Side.peer_peer, h.node, h.node_peer, h.messages, h.messages_peer]
    exact hpeer

/-- **Symmetric invariants**: what the reaction of either party to a request and to a message
preserves, a step without loss preserves. `A` is a condition on the requests, `H` on the state in
which a message is heard. -/
theorem Both.step {I : ν → ν → List μ → List μ → Prop} {P : Party ν μ ρ π} {A : ν → ρ → Prop}
    {H : ν → ν → List μ → List μ → Prop}
    (hrequest : ∀ {e e' out inn} r, A e r → I e e' out inn → I e' e inn out →
      I (P.request e r).node e' (out ++ (P.request e r).sent) inn ∧
        I e' (P.request e r).node inn (out ++ (P.request e r).sent))
    (hhear : ∀ {e e' out inn} m, H e e' out (m :: inn) → I e e' out (m :: inn) →
      I e' e (m :: inn) out →
      I (P.hear e m).node e' (out ++ (P.hear e m).sent) inn ∧
        I e' (P.hear e m).node inn (out ++ (P.hear e m).sent))
    {l : Link ν μ π} (h : Both I l) {a : Action ρ μ} (ha : a.Lossless)
    (hA : ∀ x r, a = .request x r → A (l.node x) r)
    (hH : ∀ x, a = .deliver x → H (l.node x) (l.node x.peer) (l.messages x.peer) (l.messages x)) :
    Both I (l.step P a) := by
  -- the same instance, seen from the other side
  have hpeer : ∀ x, I (l.node x.peer) (l.node x) (l.messages x) (l.messages x.peer) := by
    intro x
    have hx := h x.peer
    rwa [Side.peer_peer] at hx
  cases a with
  | request x r =>
    obtain ⟨hx, hx'⟩ := hrequest r (hA x r rfl) (h x) (hpeer x)
    exact both_of_acts (acts_request P l x r) hx hx'
  | deliver x =>
    cases hm : l.messages x with
    | nil => rw [deliver_of_messages_nil P hm]; exact h
    | cons m ms =>
      -- both instances speak of the message that is heard
      have hin := h x
      have hin' := hpeer x
      have hhears := hH x rfl
      rw [hm] at hin hin' hhears
      obtain ⟨hx, hx'⟩ := hhear m hhears hin hin'
      exact both_of_acts (acts_deliver P hm) hx hx'
  | lose x i => exact ha.elim
  | corrupt x i m => exact ha.elim

end Link

/-! ## Abstraction -/

def Outcome.map (f : ν → ν') (g : μ → μ') (o : Outcome ν μ π) : Outcome ν' μ' π :=
  ⟨f o.node, o.sent.map g, o.got⟩

def Parcel.map (g : μ → μ') (p : Parcel μ) : Parcel μ' := ⟨g p.message, p.pos⟩

/-- An abstraction of one party into another one: on good states and good messages every reaction
commutes with it, and leaves and produces good ones. -/
structure Abstraction (P : Party ν μ ρ π) (P' : Party ν' μ' ρ' π) where
  node : ν → ν'
  message : μ → μ'
  request : ρ → ρ'
  Good : ν → Prop
  GoodMessage : μ → Prop
  request_good : ∀ {n}, Good n → ∀ r, Good (P.request n r).node ∧
    ∀ m ∈ (P.request n r).sent, GoodMessage m
  hear_good : ∀ {n m}, Good n → GoodMessage m → Good (P.hear n m).node ∧
    ∀ k ∈ (P.hear n m).sent, GoodMessage k
  request_map : ∀ {n}, Good n → ∀ r,
    P'.request (node n) (request r) = (P.request n r).map node message
  hear_map : ∀ {n m}, Good n → GoodMessage m →
    P'.hear (node n) (message m) = (P.hear n m).map node message
  written_map : ∀ r, P'.written (request r) = P.written r
  carries_map : ∀ m, P'.carries (message m) = P.carries m

namespace Abstraction

variable {P : Party ν μ ρ π} {P' : Party ν' μ' ρ' π} (F : Abstraction P P')

def link (l : Link ν μ π) : Link ν' μ' π where
  node := fun x => F.node (l.node x)
  chan := fun x => (l.chan x).map (Parcel.map F.message)
  wrote := l.wrote
  got := l.got
  took := l.took

/-- The record of a link is not abstracted. -/
theorem got_link (l : Link ν μ π) : (F.link l).got = l.got := rfl
theorem wrote_link (l : Link ν μ π) : (F.link l).wrote = l.wrote := rfl
theorem took_link (l : Link ν μ π) : (F.link l).took = l.took := rfl

/-- The messages in flight are abstracted one by one. -/
theorem messages_link (l : Link ν μ π) (x : Side) :
    (F.link l).messages x = (l.messages x).map F.message := by
  simp [link, Link.messages, Parcel.map]

/-- An abstracted channel is empty when the channel is. -/
theorem chan_link_eq_nil {l : Link ν μ π} {x : Side} :
    (F.link l).chan x = [] ↔ l.chan x = [] := by
  simp [link]

/-- Nothing in flight stays nothing in flight. -/
theorem messages_link_of_nil {l : Link ν μ π} {x : Side} (h : l.chan x = []) :
    (F.link l).messages x = [] := by
  rw [F.messages_link, Link.messages, h]
  rfl

theorem outstanding_link (l : Link ν μ π) (x : Side) :
    (F.link l).outstanding x = l.outstanding x := rfl

def action : Action ρ μ → Action ρ' μ'
  | .request x r => .request x (F.request r)
  | .deliver x => .deliver x
  | .lose x i => .lose x i
  | .corrupt x i m => .corrupt x i (F.message m)

/-- Good parties, good messages in flight. -/
structure GoodLink (l : Link ν μ π) : Prop where
  node : ∀ x, F.Good (l.node x)
  chan : ∀ x, ∀ p ∈ l.chan x, F.GoodMessage p.message

/-- Messages are only replaced by good ones. -/
def GoodAction : Action ρ μ → Prop
  | .corrupt _ _ m => F.GoodMessage m
  | _ => True

/-- The abstract request asks to send the same payloads. -/
theorem written_action (a : Action ρ μ) (x : Side) :
    (F.action a).written P' x = a.written P x := by
  cases a with
  | request y r =>
    simp only [action, Action.written]
    rw [F.written_map]
  | deliver y => rfl
  | lose y i => rfl
  | corrupt y i m => rfl

/-- Stamping commutes with the abstraction, since it counts the same payloads. -/
theorem stamp_map (n : Nat) (ms : List μ) :
    stamp P'.carries n (ms.map F.message)
      = (stamp P.carries n ms).map (Parcel.map F.message) := by
  induction ms with
  | nil => rfl
  | cons m ms ih =>
    -- the position of a parcel depends only on how many messages carry a payload
    have hcount : ∀ ks : List μ, (ks.map F.message).countP P'.carries = ks.countP P.carries := by
      intro ks
      rw [List.countP_map]
      exact List.countP_congr fun k _ => by simp [F.carries_map]
    rw [List.map_cons, stamp_cons, stamp_cons, List.map_cons, ih, ← List.map_cons, hcount]
    rfl

/-- One side acts before or after the abstraction. -/
theorem link_act (l : Link ν μ π) (x : Side) (o : Outcome ν μ π) (ws : List π) (pos : Nat) :
    F.link (l.act P.carries x o ws pos)
      = (F.link l).act P'.carries x (o.map F.node F.message) ws pos := by
  -- both updated functions are abstracted pointwise
  have hnode : (fun y => F.node (Function.update l.node x o.node y))
      = Function.update (fun y => F.node (l.node y)) x (F.node o.node) := by
    funext y
    rcases y.eq_or_eq_peer x with rfl | rfl <;> simp
  have hchan : (fun y => (Function.update l.chan x.peer (l.chan x.peer ++
        stamp P.carries (l.wrote x ++ ws).length o.sent) y).map (Parcel.map F.message))
      = Function.update (fun y => (l.chan y).map (Parcel.map F.message)) x.peer
        ((l.chan x.peer).map (Parcel.map F.message) ++
          stamp P'.carries (l.wrote x ++ ws).length (o.sent.map F.message)) := by
    funext y
    rcases y.eq_or_eq_peer x.peer with rfl | rfl
    · simp [F.stamp_map]
    · simp
  simp only [link, Link.act, Outcome.map, hnode, hchan]

/-- A channel is replaced before or after the abstraction. -/
theorem link_setChan (l : Link ν μ π) (x : Side) (ps : List (Parcel μ)) :
    F.link (l.setChan x ps) = (F.link l).setChan x (ps.map (Parcel.map F.message)) := by
  have hchan : (fun y => (Function.update l.chan x ps y).map (Parcel.map F.message))
      = Function.update (fun y => (l.chan y).map (Parcel.map F.message)) x
        (ps.map (Parcel.map F.message)) := by
    funext y
    rcases y.eq_or_eq_peer x with rfl | rfl <;> simp
  simp only [link, Link.setChan, hchan]

/-- Reactions that leave and produce good things keep a link good. -/
theorem good_act {l : Link ν μ π} (hl : F.GoodLink l) (x : Side) {o : Outcome ν μ π}
    (hnode : F.Good o.node) (hsent : ∀ m ∈ o.sent, F.GoodMessage m) (ws : List π) (pos : Nat) :
    F.GoodLink (l.act P.carries x o ws pos) where
  node := by
    refine Side.forall_of_peer x ?_ ?_
    · rw [Link.node_act]; exact hnode
    · rw [Link.node_act_peer]; exact hl.node x.peer
  chan := by
    refine Side.forall_of_peer x ?_ ?_
    · rw [Link.chan_act]; exact hl.chan x
    · rw [Link.chan_act_peer]
      intro p hp
      rcases List.mem_append.mp hp with hp | hp
      · exact hl.chan x.peer p hp
      · apply hsent
        -- a stamped parcel holds one of the messages sent
        rw [← map_message_stamp P.carries (l.wrote x ++ ws).length o.sent]
        exact List.mem_map_of_mem hp

/-- A channel of good messages keeps a link good. -/
theorem good_setChan {l : Link ν μ π} (hl : F.GoodLink l) (x : Side) {ps : List (Parcel μ)}
    (hps : ∀ p ∈ ps, F.GoodMessage p.message) : F.GoodLink (l.setChan x ps) where
  node := hl.node
  chan := by
    refine Side.forall_of_peer x ?_ ?_
    · rw [Link.chan_setChan]; exact hps
    · rw [Link.chan_setChan_peer]; exact hl.chan x.peer

/-- A parcel of the changed channel was there before or holds the replacement. -/
theorem mem_replaceAt {ps : List (Parcel μ)} {i : Nat} {m : μ} {p : Parcel μ}
    (h : p ∈ Link.replaceAt ps i m) : p ∈ ps ∨ p.message = m := by
  induction ps generalizing i with
  | nil => cases i <;> simp [Link.replaceAt] at h
  | cons q ps ih =>
    cases i with
    | zero =>
      rw [Link.replaceAt, List.modify_zero_cons, List.mem_cons] at h
      rcases h with rfl | h
      · exact Or.inr rfl
      · exact Or.inl (List.mem_cons_of_mem q h)
    | succ i =>
      rw [Link.replaceAt, List.modify_succ_cons, List.mem_cons] at h
      rcases h with rfl | h
      · exact Or.inl (by simp)
      · exact (ih h).imp_left (List.mem_cons_of_mem q)

/-- Replacing commutes with mapping, -/
theorem map_replaceAt (g : μ → μ') (ps : List (Parcel μ)) (i : Nat) (m : μ) :
    (Link.replaceAt ps i m).map (Parcel.map g)
      = Link.replaceAt (ps.map (Parcel.map g)) i (g m) := by
  induction ps generalizing i with
  | nil => cases i <;> rfl
  | cons q ps ih =>
    cases i with
    | zero => rfl
    | succ i =>
      have hrest := ih i
      simp only [Link.replaceAt] at hrest
      simp only [Link.replaceAt, List.modify_succ_cons, List.map_cons, hrest]

/-- and so does losing. -/
theorem map_eraseIdx (g : μ → μ') (ps : List (Parcel μ)) (i : Nat) :
    (ps.eraseIdx i).map (Parcel.map g) = (ps.map (Parcel.map g)).eraseIdx i := by
  induction ps generalizing i with
  | nil => rfl
  | cons q ps ih =>
    cases i with
    | zero => rfl
    | succ i => rw [List.eraseIdx_cons_succ, List.map_cons, List.map_cons, ih,
        List.eraseIdx_cons_succ]

/-- **Every step keeps a link good**, if it only replaces messages by good ones. -/
theorem good_step {l : Link ν μ π} (hl : F.GoodLink l) {a : Action ρ μ} (ha : F.GoodAction a) :
    F.GoodLink (l.step P a) := by
  cases a with
  | request x r =>
    obtain ⟨hnode, hsent⟩ := F.request_good (hl.node x) r
    exact F.good_act hl x hnode hsent _ _
  | deliver x =>
    cases hchan : l.chan x with
    | nil => rw [Link.step_deliver_nil P hchan]; exact hl
    | cons p ps =>
      rw [Link.step_deliver_cons P hchan]
      -- what is heard and what stays in flight were both good
      have hall : ∀ q ∈ p :: ps, F.GoodMessage q.message := hchan ▸ hl.chan x
      obtain ⟨hnode, hsent⟩ := F.hear_good (hl.node x) (hall p (by simp))
      exact F.good_act (F.good_setChan hl x fun q hq => hall q (by simp [hq])) x hnode hsent _ _
  | lose x i =>
    exact F.good_setChan hl x fun q hq => hl.chan x q (List.mem_of_mem_eraseIdx hq)
  | corrupt x i m =>
    apply F.good_setChan hl x
    intro q hq
    rcases mem_replaceAt hq with hq | hq
    · exact hl.chan x q hq
    · rw [hq]; exact ha

/-- **Abstraction commutes with every step.** -/
theorem link_step {l : Link ν μ π} (hl : F.GoodLink l) (a : Action ρ μ) :
    F.link (l.step P a) = (F.link l).step P' (F.action a) := by
  cases a with
  | request x r =>
    rw [Link.step_request, F.link_act, ← F.request_map (hl.node x), ← F.written_map]
    rfl
  | deliver x =>
    cases hchan : l.chan x with
    | nil =>
      have hchan' : (F.link l).chan x = [] := by simp [link, hchan]
      rw [Link.step_deliver_nil P hchan]
      exact (Link.step_deliver_nil P' hchan').symm
    | cons p ps =>
      have hchan' : (F.link l).chan x
          = p.map F.message :: ps.map (Parcel.map F.message) := by simp [link, hchan]
      have hgood : F.GoodMessage p.message := hl.chan x p (by simp [hchan])
      rw [Link.step_deliver_cons P hchan, F.link_act, F.link_setChan,
        ← F.hear_map (hl.node x) hgood]
      exact (Link.step_deliver_cons P' hchan').symm
  | lose x i =>
    rw [Link.step, F.link_setChan, map_eraseIdx]
    rfl
  | corrupt x i m =>
    rw [Link.step, F.link_setChan, map_replaceAt]
    rfl

/-- **Abstraction commutes with whole runs.** -/
theorem link_run {l : Link ν μ π} (hl : F.GoodLink l) {as : List (Action ρ μ)}
    (has : Meets (Link.step P) (fun _ a => F.GoodAction a) l as) :
    F.link (run (Link.step P) l as) = run (Link.step P') (F.link l) (as.map F.action) :=
  have hgood : ∀ s a, F.GoodLink s → F.GoodAction a → F.GoodLink (s.step P a) :=
    fun _ _ hs ha => F.good_step hs ha
  run_simulates hgood (fun _ a hs _ => F.link_step hs a) hl has

/-- Conditions on the steps carry over to the abstract run. -/
theorem link_meets {Q : Link ν μ π → Action ρ μ → Prop}
    {Q' : Link ν' μ' π → Action ρ' μ' → Prop}
    (hQ : ∀ l a, F.GoodLink l → F.GoodAction a → Q l a → Q' (F.link l) (F.action a))
    {l : Link ν μ π} (hl : F.GoodLink l) {as : List (Action ρ μ)}
    (has : Meets (Link.step P) (fun _ a => F.GoodAction a) l as)
    (hq : Meets (Link.step P) Q l as) :
    Meets (Link.step P') Q' (F.link l) (as.map F.action) :=
  have hgood : ∀ s a, F.GoodLink s → F.GoodAction a → F.GoodLink (s.step P a) :=
    fun _ _ hs ha => F.good_step hs ha
  meets_simulates hgood (fun _ a hs _ => F.link_step hs a) hQ hl has hq

/-- Conditions that hold of the abstract run hold of the run itself. -/
theorem meets_of_link {Q : Link ν μ π → Action ρ μ → Prop}
    (Q' : Link ν' μ' π → Action ρ' μ' → Prop)
    (hQ : ∀ l a, F.GoodLink l → F.GoodAction a → Q' (F.link l) (F.action a) → Q l a)
    {l : Link ν μ π} (hl : F.GoodLink l) {as : List (Action ρ μ)}
    (has : Meets (Link.step P) (fun _ a => F.GoodAction a) l as)
    (hq : Meets (Link.step P') Q' (F.link l) (as.map F.action)) :
    Meets (Link.step P) Q l as :=
  have hgood : ∀ s a, F.GoodLink s → F.GoodAction a → F.GoodLink (s.step P a) :=
    fun _ _ hs ha => F.good_step hs ha
  meets_of_simulates hgood (fun _ a hs _ => F.link_step hs a) hQ hl has hq

end Abstraction

end Libsfp.Lib
