import Libsfp.Session.Window

/-!
# One Side Connects

One side connects and writes, the other one only answers, nothing is lost. The session goes through
four phases: the `SYN0` is on its way; it was answered; the answer was confirmed; the confirmation
was taken in. Packets written early are refused in the first three and provoke further `SYN1`s,
every one of which makes the writer confirm once more and replay its history. From the first
confirmation on, what is on its way to the receiver is a `Flow`: each packet is either the next one
or one the receiver already has.
-/

namespace Libsfp

open Lib (Side Outcome Party Parcel Link Action Meets run stamp)

variable {α : Type*}

/-! ## Flows -/

/-- Without loss: packets in flight to a receiver that expects number `m` are the next ones in
order, up to the last one written, and repetitions of less than 64 packets back. -/
inductive Flow (W : List α) : Nat → List (Parcel (Frame α)) → Prop where
  | done : Flow W W.length []
  | fresh {m : Nat} {a : α} {ps : List (Parcel (Frame α))} (packet : W[m]? = some a)
      (rest : Flow W (m + 1) ps) : Flow W m (⟨.usr (m % seqRange) a, m⟩ :: ps)
  | again {m pos : Nat} {a : α} {ps : List (Parcel (Frame α))} (packet : W[pos]? = some a)
      (le : pos ≤ m) (near : m < pos + seqRange) (rest : Flow W (max m (pos + 1)) ps) :
      Flow W m (⟨.rtx (pos % seqRange) a, pos⟩ :: ps)
  | confirm {m pos : Nat} {ps : List (Parcel (Frame α))} (rest : Flow W m ps) :
      Flow W m (⟨.syn2, pos⟩ :: ps)

namespace Flow

variable {W : List α} {m : Nat} {ps qs : List (Parcel (Frame α))}

theorem append (h : Flow W m ps) (hqs : Flow W W.length qs) : Flow W m (ps ++ qs) := by
  induction h with
  | done => exact hqs
  | fresh packet _ ih => exact .fresh packet ih
  | again packet le near _ ih => exact .again packet le near ih
  | confirm _ ih => exact .confirm ih

/-- A new packet at the end. -/
theorem write (h : Flow W m ps) (a : α) :
    Flow (W ++ [a]) m (ps ++ [⟨.usr (W.length % seqRange) a, W.length⟩]) := by
  have hgrow : ∀ {n : Nat} {b : α}, W[n]? = some b → (W ++ [a])[n]? = some b := by
    intro n b hb
    have hlt : n < W.length := (List.getElem?_eq_some_iff.mp hb).1
    rw [List.getElem?_append_left hlt]
    exact hb
  induction h with
  | done =>
    have hdone : Flow (W ++ [a]) (W.length + 1) [] := by
      have hend := @Flow.done _ (W ++ [a])
      rwa [List.length_append, List.length_singleton] at hend
    exact .fresh (by simp) hdone
  | fresh packet _ ih => exact .fresh (hgrow packet) ih
  | again packet le near _ ih => exact .again (hgrow packet) le near ih
  | confirm _ ih => exact .confirm ih

end Flow

/-- A burst of retransmissions up to the last packet, towards a receiver that is not behind its
first one and not 64 ahead of it. -/
theorem flow_retransmissions {W l : List α} (hl : l <:+ W) {m : Nat}
    (hfrom : W.length - l.length ≤ m) (hto : m ≤ W.length)
    (hnear : m < W.length - l.length + seqRange) :
    Flow W m (stamp Frame.isUser W.length
      (Endpoint.retransmissions ((W.length - l.length) % seqRange) l)) := by
  induction l generalizing m with
  | nil =>
    have hm : m = W.length := by simp at hfrom; omega
    rw [hm]
    exact .done
  | cons a l ih =>
    have hle : l.length + 1 ≤ W.length := hl.length_le
    -- the label is counted up with the position
    have hlabel : ((W.length - (a :: l).length) % seqRange + 1) % seqRange
        = (W.length - l.length) % seqRange := by
      rw [Nat.mod_add_mod, List.length_cons]
      congr 1
      omega
    have hcount := countP_retransmissions ((W.length - (a :: l).length) % seqRange) (a :: l)
    rw [Endpoint.retransmissions] at hcount ⊢
    rw [Lib.stamp_cons, hcount, hlabel]
    rw [List.length_cons] at hfrom hnear
    -- the receiver has the first packet or expects it
    refine .again ?_ (by rw [List.length_cons]; exact hfrom) (by rw [List.length_cons]; exact hnear)
      (ih ((List.suffix_cons a l).trans hl) ?_ ?_ ?_)
    · obtain ⟨front, rfl⟩ := hl
      have hpos : (front ++ a :: l).length - (a :: l).length = front.length := by simp
      rw [hpos, List.getElem?_append_right (Nat.le_refl _), Nat.sub_self, List.getElem?_cons_zero]
    · rw [List.length_cons]; omega
    · rw [List.length_cons]; omega
    · rw [List.length_cons]; simp only [seqRange] at *; omega

/-! ## The connecting side -/

/-- The connecting side before the first `SYN1`: everything written is in the history. -/
structure Early (cap : Nat) (e : Endpoint α) (W : List α) : Prop where
  state : e.connectState = .sentSyn0
  txSeq : e.txSeq = W.length % seqRange
  history : e.history = W
  few : W.length ≤ cap

section Early

variable {cap : Nat} {e : Endpoint α} {W : List α}

theorem Early.write (h : Early cap e W) (hroom : W.length < cap) (a : α) :
    Early cap (e.write cap a).endpoint (W ++ [a]) where
  state := h.state
  txSeq := by
    show (e.txSeq + 1) % seqRange = _
    rw [h.txSeq, Nat.mod_add_mod, List.length_append, List.length_singleton]
  history := by
    -- there is still room, so nothing is dropped
    have hdrop : e.history.length + 1 - cap = 0 := by rw [h.history]; omega
    show (e.history ++ [a]).drop (e.history.length + 1 - cap) = _
    rw [hdrop, h.history, List.drop_zero]
  few := by
    rw [List.length_append, List.length_singleton]
    exact hroom

/-- The first `SYN1` is answered with `SYN2` and everything written so far. -/
theorem Early.receiveSyn1 (h : Early cap e W) (hwhole : e.ReplaysWhole .syn1) :
    e.receiveSyn1.endpoint.connectState = .connected ∧ Sends cap e.receiveSyn1.endpoint W ∧
      e.receiveSyn1.got = [] ∧ ∃ pos post,
        stamp Frame.isUser W.length e.receiveSyn1.sent = ⟨.syn2, pos⟩ :: post ∧
        Flow W 0 post := by
  simp only [Endpoint.receiveSyn1, h.state]
  by_cases hW : W = []
  · -- nothing written yet, nothing to replay
    subst hW
    have hreplay : e.replay = ⟨e, [], []⟩ := by simp [Endpoint.replay, h.txSeq]
    rw [hreplay]
    refine ⟨trivial, ⟨h.txSeq, ?_, ?_⟩, trivial, _, _, rfl, .done⟩
    · rw [h.history]
    · rw [h.history]
      exact Nat.zero_le _
  · have hpos : 0 < W.length := List.length_pos_of_ne_nil hW
    -- something was written, so the label must not have come round to the first one again
    have hne : e.txSeq ≠ 0 := by
      intro hzero
      exact hW (h.history ▸ hwhole.1 h.state hzero)
    -- the whole history is the session, so the replay starts at its beginning
    have hskip : e.skipTo 0 = 0 := by
      rw [Endpoint.skipTo, h.txSeq, h.history]
      simp only [seqRange]
      omega
    have hkept : e.kept 0 = W := by
      rw [Endpoint.kept, hskip, h.history, if_pos hpos, List.drop_zero]
    have hreplay : e.replay
        = ⟨{ e with txSeq := W.length % seqRange, history := W },
            Endpoint.retransmissions 0 W, []⟩ := by
      rw [Endpoint.replay, if_pos hne, Endpoint.replayFrom, hkept, Nat.zero_add]
    rw [hreplay]
    refine ⟨trivial, ⟨rfl, List.suffix_refl _, h.few⟩, trivial, _, _, rfl, ?_⟩
    have hflow := flow_retransmissions (List.suffix_refl W) (m := 0) (by omega) (by omega)
      (by simp)
    simpa using hflow

/-- A later `SYN1` is answered with `SYN2` and a repetition of what is left in the history. -/
theorem Sends.receiveSyn1 (h : Sends cap e W) (hstate : e.connectState = .connected)
    (hwhole : e.ReplaysWhole .syn1) :
    e.receiveSyn1.endpoint.connectState = .connected ∧ Sends cap e.receiveSyn1.endpoint W ∧
      e.receiveSyn1.got = [] ∧
      Flow W W.length (stamp Frame.isUser W.length e.receiveSyn1.sent) := by
  simp only [Endpoint.receiveSyn1, hstate]
  by_cases hzero : e.txSeq = 0
  · -- the label has just wrapped around (or nothing was written)
    have hreplay : e.replay = ⟨e, [], []⟩ := by simp [Endpoint.replay, hzero]
    rw [hreplay]
    exact ⟨trivial, ⟨h.txSeq, h.history, h.capacity⟩, trivial, .confirm .done⟩
  · have hholds : e.Holds 0 := hwhole.2 hstate hzero
    obtain ⟨hsuffix, hfew, hlabel⟩ := h.kept (by decide) (Ne.symm hzero) hholds
    have hnext := h.replayFrom (by decide) (Ne.symm hzero) hholds
    have hreplay : e.replay = e.replayFrom 0 := if_pos hzero
    rw [hreplay]
    refine ⟨trivial, ⟨hnext.txSeq, hnext.history, hnext.capacity⟩, trivial, ?_⟩
    -- the receiver has all of it already
    have hburst := flow_retransmissions hsuffix (m := W.length) (Nat.sub_le _ _)
      (Nat.le_refl _) (by omega)
    rw [← hlabel] at hburst
    exact .confirm hburst

end Early

/-! ## The phases -/

/-- The answering side in state `state`, when it has taken in `n` packets. It writes nothing. -/
structure Answers (e : Endpoint α) (state : SFPconnectstate) (n : Nat) : Prop where
  state : e.connectState = state
  txSeq : e.txSeq = 0
  rxSeq : e.rxSeq = n % seqRange

def Users (ps : List (Parcel (Frame α))) : Prop :=
  ∀ p ∈ ps, p.message.isUser = true

def Syn1s (ps : List (Parcel (Frame α))) : Prop :=
  ∀ p ∈ ps, p.message = .syn1

/-- The phases of a session that `e` opens: its user wrote `W`, the user of `r` was given `G`;
`forth` is on its way to `r` and `back` to `e`. -/
inductive Opening (cap : Nat) (e r : Endpoint α) (W G : List α)
    (forth back : List (Parcel (Frame α))) : Prop where
  | asked (pos : Nat) (ps : List (Parcel (Frame α))) (early : Early cap e W)
      (forth_eq : forth = ⟨.syn0, pos⟩ :: ps) (users : Users ps) (back_eq : back = [])
      (got : G = [])
  | answered (early : Early cap e W) (answers : Answers r .sentSyn1 0) (users : Users forth)
      (syn1s : Syn1s back) (got : G = [])
  | confirmed (pos : Nat) (pre post : List (Parcel (Frame α)))
      (state : e.connectState = .connected) (sends : Sends cap e W)
      (answers : Answers r .sentSyn1 0) (forth_eq : forth = pre ++ ⟨.syn2, pos⟩ :: post)
      (users : Users pre) (flow : Flow W 0 post) (syn1s : Syn1s back) (got : G = [])
  | opened (state : e.connectState = .connected) (sends : Sends cap e W)
      (answers : Answers r .connected G.length) (got : G <+: W) (flow : Flow W G.length forth)
      (syn1s : Syn1s back)

theorem Users.append {ps qs : List (Parcel (Frame α))} (hps : Users ps) (hqs : Users qs) :
    Users (ps ++ qs) := List.forall_mem_append.mpr ⟨hps, hqs⟩

theorem Syn1s.snoc {ps : List (Parcel (Frame α))} (hps : Syn1s ps) (n : Nat) :
    Syn1s (ps ++ stamp Frame.isUser n [(.syn1 : Frame α)]) := by
  intro p hp
  rcases List.mem_append.mp hp with hp | hp
  · exact hps p hp
  · simp only [Lib.stamp_cons, Lib.stamp_nil, List.mem_singleton] at hp
    rw [hp]

theorem stamp_write (cap : Nat) (e : Endpoint α) (W : List α) (a : α) :
    stamp Frame.isUser (W ++ [a]).length (e.write cap a).sent
      = [⟨.usr e.txSeq a, W.length⟩] := by
  simp [Endpoint.write, Frame.isUser]

namespace Opening

variable {cap : Nat} {e r : Endpoint α} {W G : List α} {forth back : List (Parcel (Frame α))}
  {p : Parcel (Frame α)}

/-- The connecting side writes. -/
theorem write (h : Opening cap e r W G forth back) (a : α)
    (hroom : e.connectState ≠ .connected → W.length < cap) :
    Opening cap (e.write cap a).endpoint r (W ++ [a]) G
      (forth ++ stamp Frame.isUser (W ++ [a]).length (e.write cap a).sent) back := by
  rw [stamp_write]
  have huser : Users [(⟨.usr e.txSeq a, W.length⟩ : Parcel (Frame α))] := by
    intro p hp
    rw [List.mem_singleton.mp hp]
    rfl
  cases h with
  | asked pos ps early forth_eq users back_eq got =>
    have hfew := hroom (by rw [early.state]; decide)
    refine .asked pos (ps ++ [⟨.usr e.txSeq a, W.length⟩]) (early.write hfew a) ?_
      (users.append huser) back_eq got
    rw [forth_eq, List.cons_append]
  | answered early answers users syn1s got =>
    have hfew := hroom (by rw [early.state]; decide)
    exact .answered (early.write hfew a) answers (users.append huser) syn1s got
  -- the new packet is behind the confirmation
  | confirmed pos pre post state sends answers forth_eq users flow syn1s got =>
    refine .confirmed pos pre (post ++ [⟨.usr e.txSeq a, W.length⟩]) state (sends.write a) answers
      ?_ users ?_ syn1s got
    · rw [forth_eq, List.append_assoc, List.cons_append]
    · rw [sends.txSeq]
      exact flow.write a
  | opened state sends answers got flow syn1s =>
    refine .opened state (sends.write a) answers (got.trans (List.prefix_append _ _)) ?_ syn1s
    rw [sends.txSeq]
    exact flow.write a

/-- The connecting side hears a frame; the answering side sends it nothing but `SYN1`. -/
theorem hearBack (h : Opening cap e r W G forth (p :: back))
    (hwhole : e.ReplaysWhole p.message) :
    (e.receive p.message).got = [] ∧
      Opening cap (e.receive p.message).endpoint r W G
        (forth ++ stamp Frame.isUser W.length (e.receive p.message).sent) back := by
  cases h with
  | asked pos ps early forth_eq users back_eq got => exact absurd back_eq (List.cons_ne_nil _ _)
  -- the first `SYN1` starts the flow
  | answered early answers users syn1s got =>
    have hp : p.message = .syn1 := syn1s p (by simp)
    obtain ⟨hstate, hsends, hgot, pos, post, hstamp, hflow⟩ := early.receiveSyn1
      (hp ▸ hwhole)
    have hreceive : e.receive p.message = e.receiveSyn1 := by rw [hp]; rfl
    rw [hreceive, hstamp]
    exact ⟨hgot, .confirmed pos forth post hstate hsends answers rfl users hflow
      (fun q hq => syn1s q (by simp [hq])) got⟩
  | confirmed pos pre post state sends answers forth_eq users flow syn1s got =>
    have hp : p.message = .syn1 := syn1s p (by simp)
    obtain ⟨hstate, hsends, hgot, hflow⟩ := sends.receiveSyn1 state (hp ▸ hwhole)
    have hreceive : e.receive p.message = e.receiveSyn1 := by rw [hp]; rfl
    rw [hreceive]
    refine ⟨hgot, .confirmed pos pre _ hstate hsends answers ?_ users (flow.append hflow)
      (fun q hq => syn1s q (by simp [hq])) got⟩
    rw [forth_eq, List.append_assoc, List.cons_append]
  -- a further `SYN1` repeats what is left of the history
  | opened state sends answers got flow syn1s =>
    have hp : p.message = .syn1 := syn1s p (by simp)
    obtain ⟨hstate, hsends, hgot, hflow⟩ := sends.receiveSyn1 state (hp ▸ hwhole)
    have hreceive : e.receive p.message = e.receiveSyn1 := by rw [hp]; rfl
    rw [hreceive]
    exact ⟨hgot, .opened hstate hsends answers got (flow.append hflow)
      (fun q hq => syn1s q (by simp [hq]))⟩

/-- What the answering side sends is not a packet, so its stamp does not matter. -/
theorem receive_user_sentSyn1 (hstate : r.connectState = .sentSyn1)
    (hp : p.message.isUser = true) : r.receive p.message = r.answer .syn1 := by
  cases hm : p.message with
  | usr seq a => simp [Endpoint.receive, Endpoint.receiveUser, hstate]
  | rtx seq a => simp [Endpoint.receive, Endpoint.receiveUser, hstate]
  | _ => simp [hm, Frame.isUser] at hp

/-- The answering side hears a frame. -/
theorem hearForth (h : Opening cap e r W G (p :: forth) back) (n : Nat) :
    Opening cap e (r.receive p.message).endpoint W (G ++ (r.receive p.message).got) forth
      (back ++ stamp Frame.isUser n (r.receive p.message).sent) := by
  cases h with
  | asked pos ps early forth_eq users back_eq got =>
    -- the `SYN0` itself
    obtain ⟨rfl, rfl⟩ := List.cons_eq_cons.mp forth_eq
    subst back_eq got
    refine .answered early ⟨rfl, rfl, rfl⟩ users ?_ rfl
    exact Syn1s.snoc (by simp [Syn1s]) n
  -- a packet in front of the confirmation is answered with one more `SYN1`
  | answered early answers users syn1s got =>
    rw [receive_user_sentSyn1 answers.state (users p (by simp))]
    exact .answered early answers (fun q hq => users q (by simp [hq])) (syn1s.snoc n)
      (by rw [got]; rfl)
  | confirmed pos pre post state sends answers forth_eq users flow syn1s got =>
    cases pre with
    | nil =>
      -- the confirmation
      obtain ⟨rfl, rfl⟩ := List.cons_eq_cons.mp forth_eq
      subst got
      have hreceive : r.receive .syn2 = ⟨{ r with connectState := .connected }, [], []⟩ := by
        simp [Endpoint.receive, Endpoint.receiveSyn, Endpoint.receiveSyn2, answers.state,
          Endpoint.replay, answers.txSeq]
      rw [hreceive]
      exact .opened state sends ⟨rfl, answers.txSeq, answers.rxSeq⟩ List.nil_prefix flow
        (by simpa using syn1s)
    | cons q pre =>
      -- an early packet in front of it
      obtain ⟨rfl, rfl⟩ := List.cons_eq_cons.mp forth_eq
      rw [receive_user_sentSyn1 answers.state (users p (by simp))]
      exact .confirmed pos pre post state sends answers rfl (fun q hq => users q (by simp [hq]))
        flow (syn1s.snoc n) (by rw [got]; rfl)
  | opened state sends answers got flow syn1s =>
    -- the next packet of the writer extends the prefix
    have htake : ∀ {a : α}, W[G.length]? = some a → G ++ [a] <+: W := by
      intro a ha
      obtain ⟨rest, rfl⟩ := got
      rw [List.getElem?_append_right (Nat.le_refl _), Nat.sub_self] at ha
      cases rest with
      | nil => simp at ha
      | cons b rest =>
        simp only [List.getElem?_cons_zero, Option.some.injEq] at ha
        exact ⟨rest, by rw [ha, List.append_assoc, List.singleton_append]⟩
    generalize hn : G.length = m at flow answers htake
    cases flow with
    | @fresh _ a _ packet rest =>
      -- the next packet
      have hreceive : r.receive (.usr (m % seqRange) a)
          = ⟨{ r with rxSeq := (m + 1) % seqRange }, [], [a]⟩ := by
        simp [Endpoint.receive, Endpoint.receiveUser, answers.state, answers.rxSeq]
      rw [hreceive]
      refine .opened state sends ⟨answers.state, answers.txSeq, ?_⟩ (htake packet) ?_
        (by simpa using syn1s)
      · rw [List.length_append, List.length_singleton, hn]
      · rw [List.length_append, List.length_singleton, hn]
        exact rest
    | @again _ pos a _ packet le near rest =>
      by_cases hpos : pos = m
      · -- a repetition of a packet that was dropped before the session opened
        subst hpos
        have hreceive : r.receive (.rtx (pos % seqRange) a)
            = ⟨{ r with rxSeq := (pos + 1) % seqRange }, [], [a]⟩ := by
          simp [Endpoint.receive, Endpoint.receiveUser, answers.state, answers.rxSeq]
        rw [hreceive]
        refine .opened state sends ⟨answers.state, answers.txSeq, ?_⟩ (htake packet) ?_
          (by simpa using syn1s)
        · rw [List.length_append, List.length_singleton, hn]
        · rw [List.length_append, List.length_singleton, hn]
          rwa [Nat.max_eq_right (Nat.le_succ _)] at rest
      · -- a repetition of a packet that was taken in
        have hlabel : pos % seqRange ≠ r.rxSeq := by
          intro heq
          rw [answers.rxSeq] at heq
          exact hpos (Lib.eq_of_label_eq heq near (by omega))
        have hreceive : r.receive (.rtx (pos % seqRange) a) = ⟨r, [], []⟩ := by
          simp [Endpoint.receive, Endpoint.receiveUser, answers.state, hlabel]
        rw [Nat.max_eq_left (by omega)] at rest
        subst hn
        rw [hreceive]
        exact .opened state sends (by simpa using answers) (by simpa using got)
          (by simpa using rest) (by simpa using syn1s)
    | confirm rest =>
      -- one more confirmation
      have hreceive : r.receive .syn2 = ⟨{ r with connectState := .connected }, [], []⟩ := by
        simp [Endpoint.receive, Endpoint.receiveSyn, Endpoint.receiveSyn2, answers.state,
          Endpoint.replay, answers.txSeq]
      subst hn
      rw [hreceive]
      refine .opened state sends ⟨rfl, answers.txSeq, ?_⟩ (by simpa using got)
        (by simpa using rest) (by simpa using syn1s)
      simpa using answers.rxSeq

/-- At every moment what was delivered is a prefix of what was written. -/
theorem got_prefix (h : Opening cap e r W G forth back) : G <+: W := by
  cases h with
  | opened _ _ _ got _ _ => exact got
  | asked _ _ _ _ _ _ got => rw [got]; exact List.nil_prefix
  | answered _ _ _ _ got => rw [got]; exact List.nil_prefix
  | confirmed _ _ _ _ _ _ _ _ _ _ got => rw [got]; exact List.nil_prefix

/-- With nothing on its way to a connected receiver, everything was delivered. -/
theorem got_all (h : Opening cap e r W G [] back) (hstate : r.connectState = .connected) :
    G = W := by
  cases h with
  | asked pos ps _ forth_eq _ _ _ => exact absurd forth_eq.symm (List.cons_ne_nil _ _)
  | answered _ answers _ _ _ =>
    rw [answers.state] at hstate
    exact absurd hstate (by decide)
  | confirmed _ _ _ _ _ answers _ _ _ _ _ =>
    rw [answers.state] at hstate
    exact absurd hstate (by decide)
  | opened _ _ _ got flow _ =>
    -- an empty flow has come to the end
    have hlen : G.length = W.length := by
      generalize G.length = n at flow
      cases flow
      rfl
    exact got.eq_of_length hlen

end Opening

/-! ## Runs between endpoints -/

/-- The phases, read off a link on which `x` connects. -/
def OpeningOn (cap : Nat) (x : Side) (l : Net α) : Prop :=
  Opening cap (l.node x) (l.node x.peer) (l.wrote x) (l.got x.peer) (l.chan x.peer) (l.chan x)

/-- Only `x` writes, nothing is lost, nobody connects again. -/
def OneWriter (x : Side) : Action (EndpointRequest α) (Frame α) → Prop
  | .request y (.write _) => y = x
  | .deliver _ => True
  | _ => False

instance (x : Side) : DecidablePred (OneWriter x : Action (EndpointRequest α) (Frame α) → Prop)
  | .request y (.write _) => inferInstanceAs (Decidable (y = x))
  | .request _ .connect => isFalse id
  | .deliver _ => isTrue trivial
  | .lose _ _ => isFalse id
  | .corrupt _ _ _ => isFalse id

/-- What `x` writes before it is connected fits into its history. -/
def EarlyFits (cap : Nat) (x : Side) (l : Net α) : Action (EndpointRequest α) (Frame α) → Prop
  | .request _ (.write _) => (l.node x).connectState ≠ .connected → (l.wrote x).length < cap
  | _ => True

instance (cap : Nat) (x : Side) (l : Net α) : DecidablePred (EarlyFits cap x l)
  | .request _ (.write _) =>
    inferInstanceAs (Decidable ((l.node x).connectState ≠ .connected → _ < cap))
  | .request _ .connect => isTrue trivial
  | .deliver _ => isTrue trivial
  | .lose _ _ => isTrue trivial
  | .corrupt _ _ _ => isTrue trivial

/-- If the step takes in a `SYN1`, the replay is what the peer may have missed. -/
def WholeReplay (l : Net α) : Action (EndpointRequest α) (Frame α) → Prop
  | .deliver x => ∀ p ∈ (l.chan x).head?, (l.node x).ReplaysWhole p.message
  | _ => True

instance (l : Net α) : DecidablePred (WholeReplay l)
  | .request _ _ => isTrue trivial
  | .deliver x =>
    inferInstanceAs (Decidable (∀ p ∈ (l.chan x).head?, (l.node x).ReplaysWhole p.message))
  | .lose _ _ => isTrue trivial
  | .corrupt _ _ _ => isTrue trivial

section Steps

variable {cap : Nat} {x : Side} {l : Net α} {a : Action (EndpointRequest α) (Frame α)}

theorem openingOn_write (h : OpeningOn cap x l) (p : α)
    (hroom : (l.node x).connectState ≠ .connected → (l.wrote x).length < cap) :
    OpeningOn cap x (l.step (endpointParty α cap) (.request x (.write p))) := by
  rw [Link.step_request, OpeningOn]
  simp only [Link.node_act, Link.node_act_peer, Link.wrote_act, Link.got_act_peer,
    Link.chan_act_peer, Link.chan_act]
  exact h.write p hroom

theorem openingOn_back (h : OpeningOn cap x l) (hwhole : WholeReplay l (.deliver x)) :
    OpeningOn cap x (l.step (endpointParty α cap) (.deliver x)) := by
  cases hchan : l.chan x with
  | nil => rw [Link.step_deliver_nil _ hchan]; exact h
  | cons p ps =>
    rw [OpeningOn, hchan] at h
    have hhead : (l.node x).ReplaysWhole p.message := hwhole p (by simp [hchan])
    obtain ⟨-, hnext⟩ := h.hearBack hhead
    rw [Link.step_deliver_cons _ hchan, OpeningOn]
    simp only [Link.node_act, Link.node_act_peer, Link.wrote_act, Link.got_act_peer,
      Link.chan_act_peer, Link.chan_act, Link.chan_setChan, Link.chan_setChan_peer,
      Link.node_setChan, Link.wrote_setChan, Link.got_setChan, List.append_nil]
    exact hnext

theorem openingOn_forth (h : OpeningOn cap x l) :
    OpeningOn cap x (l.step (endpointParty α cap) (.deliver x.peer)) := by
  cases hchan : l.chan x.peer with
  | nil => rw [Link.step_deliver_nil _ hchan]; exact h
  | cons p ps =>
    rw [OpeningOn, hchan] at h
    rw [Link.step_deliver_cons _ hchan, OpeningOn]
    simp only [Link.node_act, Link.node_peer_act, Link.wrote_peer_act, Link.got_act,
      Link.chan_peer_act, Link.chan_act, Link.chan_setChan, Link.chan_peer_setChan,
      Link.node_setChan, Link.wrote_setChan, Link.got_setChan, List.append_nil]
    exact h.hearForth _

/-- **Step lemma.** -/
theorem openingOn_step (h : OpeningOn cap x l) (ha : OneWriter x a)
    (hroom : EarlyFits cap x l a) (hwhole : WholeReplay l a) :
    OpeningOn cap x (l.step (endpointParty α cap) a) := by
  cases a with
  | request y r =>
    cases r with
    | connect => exact ha.elim
    | write p =>
      have hy : y = x := ha
      subst hy
      exact openingOn_write h p hroom
  | deliver y =>
    -- the connecting side hears `SYN1`s, the other one the flow
    rcases y.eq_or_eq_peer x with rfl | rfl
    · exact openingOn_back h hwhole
    · exact openingOn_forth h
  | lose y i => exact ha.elim
  | corrupt y i f => exact ha.elim

/-- The state right after the connecting side asked. -/
theorem openingOn_connect (cap : Nat) (x : Side) (node : Side → Endpoint α) :
    OpeningOn cap x ((Link.start node).step (endpointParty α cap) (.request x .connect)) := by
  rw [Link.step_request, OpeningOn]
  simp only [Link.node_act, Link.node_act_peer, Link.wrote_act, Link.got_act_peer,
    Link.chan_act_peer, Link.chan_act]
  exact .asked 0 [] ⟨rfl, rfl, rfl, Nat.zero_le _⟩ rfl (by simp [Users]) rfl rfl

/-- **Run lemma.** -/
theorem openingOn_run (h : OpeningOn cap x l)
    {as : List (Action (EndpointRequest α) (Frame α))}
    (has : Meets (Link.step (endpointParty α cap))
      (fun l a => OneWriter x a ∧ EarlyFits cap x l a ∧ WholeReplay l a) l as) :
    OpeningOn cap x (run (Link.step (endpointParty α cap)) l as) :=
  Lib.run_invariant (fun _ _ hs ha => openingOn_step hs ha.1 ha.2.1 ha.2.2) h has

end Steps

end Libsfp
