import Libsfp.Lib.Window
import Libsfp.Session.Network

/-!
# The History Window

One direction of an established session: the sender labels packets modulo 64, keeps the last few of
them, retransmits from any label it is asked for; the receiver takes a packet if and only if its
label is the expected one. `Window` is the invariant that ties the position of every frame in
flight to both ends' counters and to the history. It survives writes, losses, damage and
retransmissions, as long as no retransmission is asked for that the history cannot serve and no
more than 64 packets are on the way.
-/

namespace Libsfp

open Lib (Side Outcome Party Parcel Link Action Abstraction Meets run stamp Near)

variable {α : Type*}

/-! ## Positions in flight -/

/-- A frame in flight says the truth about the packets `W` that were written. -/
structure Sound (W : List α) (p : Parcel (Frame α)) : Prop where
  user : ∀ seq a, p.message.user? = some (seq, a) → seq = p.pos % seqRange ∧ W[p.pos]? = some a
  nak : ∀ seq, p.message = .nak seq → seq < seqRange
  syn : ∀ seq, p.message ≠ .syn seq

theorem sound_of_user {W : List α} {f : Frame α} {pos seq : Nat} {a : α}
    (huser : f.user? = some (seq, a)) (hseq : seq = pos % seqRange) (hget : W[pos]? = some a) :
    Sound W ⟨f, pos⟩ where
  user := by
    intro seq' b hb
    obtain ⟨rfl, rfl⟩ := Prod.mk.inj (Option.some.inj (huser.symm.trans hb))
    exact ⟨hseq, hget⟩
  nak := by
    rintro seq' rfl
    cases huser
  syn := by
    rintro seq' rfl
    cases huser

/-- The positions of the packets in flight. -/
def positions (ps : List (Parcel (Frame α))) : List Nat :=
  (ps.filter fun p => p.message.isUser).map Parcel.pos

@[simp] theorem positions_nil : positions ([] : List (Parcel (Frame α))) = [] := rfl

@[simp] theorem positions_append (ps qs : List (Parcel (Frame α))) :
    positions (ps ++ qs) = positions ps ++ positions qs := by
  simp [positions]

theorem positions_cons_user {p : Parcel (Frame α)} (hp : p.message.isUser = true)
    (ps : List (Parcel (Frame α))) : positions (p :: ps) = p.pos :: positions ps := by
  simp [positions, hp]

theorem positions_cons_other {p : Parcel (Frame α)} (hp : p.message.isUser = false)
    (ps : List (Parcel (Frame α))) : positions (p :: ps) = positions ps := by
  simp [positions, hp]

theorem positions_sublist {ps qs : List (Parcel (Frame α))} (h : ps.Sublist qs) :
    (positions ps).Sublist (positions qs) :=
  (h.filter _).map _

namespace Sound

variable {W : List α} {p : Parcel (Frame α)}

theorem mono (h : Sound W p) (V : List α) : Sound (W ++ V) p where
  user := by
    intro seq a hp
    obtain ⟨hseq, ha⟩ := h.user seq a hp
    have hlt : p.pos < W.length := (List.getElem?_eq_some_iff.mp ha).1
    exact ⟨hseq, by rw [List.getElem?_append_left hlt]; exact ha⟩
  nak := h.nak
  syn := h.syn

theorem pos_lt (h : Sound W p) (hp : p.message.isUser = true) : p.pos < W.length := by
  rw [Frame.isUser_eq, Option.isSome_iff_exists] at hp
  obtain ⟨⟨seq, a⟩, hp⟩ := hp
  exact (List.getElem?_eq_some_iff.mp (h.user seq a hp).2).1

theorem noise (h : p.message.IsNoise) : Sound W p := by
  cases hm : p.message <;> rw [hm] at h
  -- noise has neither a packet nor a label
  case bad => constructor <;> simp [hm, Frame.user?]
  case silent => constructor <;> simp [hm, Frame.user?]
  all_goals exact h.elim

end Sound

theorem lt_of_mem_positions {W : List α} {ps : List (Parcel (Frame α))}
    (h : ∀ p ∈ ps, Sound W p) {n : Nat} (hn : n ∈ positions ps) : n < W.length := by
  obtain ⟨p, hp, rfl⟩ := List.mem_map.mp hn
  rw [List.mem_filter] at hp
  exact (h p hp.1).pos_lt hp.2

/-- Noise in the place of a frame carries no packet. -/
theorem positions_replaceAt (ps : List (Parcel (Frame α))) (i : Nat) {f : Frame α}
    (hf : f.IsNoise) : (positions (Link.replaceAt ps i f)).Sublist (positions ps) := by
  have hother : f.isUser = false := by cases f <;> first | rfl | exact hf.elim
  -- on the place in the channel: the head, or further back
  induction ps generalizing i with
  | nil => cases i <;> exact List.Sublist.refl _
  | cons p ps ih =>
    cases i with
    | zero =>
      rw [Link.replaceAt, List.modify_zero_cons, positions_cons_other hother]
      exact positions_sublist (List.sublist_cons_self p ps)
    | succ i =>
      rw [Link.replaceAt, List.modify_succ_cons]
      cases hp : p.message.isUser
      · rw [positions_cons_other hp, positions_cons_other hp]
        exact ih i
      · rw [positions_cons_user hp, positions_cons_user hp]
        exact (ih i).cons_cons _

/-! ## Bursts -/

theorem countP_retransmissions (seq : Nat) (ps : List α) :
    (Endpoint.retransmissions seq ps).countP Frame.isUser = ps.length := by
  induction ps generalizing seq with
  | nil => rfl
  | cons p ps ih =>
    rw [Endpoint.retransmissions, List.countP_cons_of_pos rfl, ih, List.length_cons]

/-- A retransmission burst occupies the last positions written. -/
theorem positions_retransmissions (n seq : Nat) (ps : List α) (hn : ps.length ≤ n) :
    positions (stamp Frame.isUser n (Endpoint.retransmissions seq ps))
      = List.range' (n - ps.length) ps.length := by
  induction ps generalizing seq with
  | nil => rfl
  | cons p ps ih =>
    rw [List.length_cons] at hn
    have hcount : (Endpoint.retransmissions seq (p :: ps)).countP Frame.isUser
        = (p :: ps).length := countP_retransmissions seq _
    rw [Endpoint.retransmissions] at hcount ⊢
    rw [Lib.stamp_cons, positions_cons_user rfl, hcount, ih _ (by omega), List.length_cons,
      List.range'_succ]
    -- the next packet of the burst is one position further on
    have hnext : n - (ps.length + 1) + 1 = n - ps.length := by omega
    rw [hnext]

/-- A burst that starts with the label of its first packet is sound. -/
theorem sound_retransmissions {W ps : List α} (hps : ps <:+ W) :
    ∀ p ∈ stamp Frame.isUser W.length
        (Endpoint.retransmissions ((W.length - ps.length) % seqRange) ps), Sound W p := by
  induction ps with
  | nil => simp [Endpoint.retransmissions]
  | cons a ps ih =>
    have hle : ps.length + 1 ≤ W.length := hps.length_le
    -- the label after that of the first packet is that of the second
    have hlabel : ((W.length - (a :: ps).length) % seqRange + 1) % seqRange
        = (W.length - ps.length) % seqRange := by
      rw [Nat.mod_add_mod, List.length_cons]
      congr 1
      omega
    have hcount := countP_retransmissions ((W.length - (a :: ps).length) % seqRange) (a :: ps)
    rw [Endpoint.retransmissions] at hcount ⊢
    rw [Lib.stamp_cons, hcount, hlabel]
    intro p hp
    rcases List.mem_cons.mp hp with rfl | hp
    · -- the first packet of the burst
      obtain ⟨front, rfl⟩ := hps
      refine sound_of_user rfl rfl ?_
      have hpos : (front ++ a :: ps).length - (a :: ps).length = front.length := by simp
      simp only [hpos, List.getElem?_append_right (Nat.le_refl _), Nat.sub_self,
        List.getElem?_cons_zero]
    · exact ih ((List.suffix_cons a ps).trans hps) p hp

/-! ## Requests for a retransmission -/

namespace Endpoint

variable {e : Endpoint α} {f : Frame α}

/-- A retransmission is not from the next label, and from the label of a `NAK` or the first one. -/
theorem of_mem_replayLabel {seq : Nat} (h : seq ∈ e.replayLabel f) :
    seq ≠ e.txSeq ∧ (f = .nak seq ∨ seq = 0) := by
  rw [Option.mem_def] at h
  unfold replayLabel at h
  split at h
  · split at h
    next hcond =>
      obtain rfl := Option.some.inj h
      exact ⟨hcond.2, .inl rfl⟩
    next => cases h
  -- `SYN1` and `SYN2` replay the session
  · split at h
    next hcond =>
      obtain rfl := Option.some.inj h
      exact ⟨hcond.2.symm, .inr rfl⟩
    next => cases h
  · split at h
    next hcond =>
      obtain rfl := Option.some.inj h
      exact ⟨hcond.2.symm, .inr rfl⟩
    next => cases h
  · cases h

/-- At most 64 packets have at most one for each label. -/
theorem holds_of_not_underrun {seq : Nat} (hlen : e.history.length ≤ seqRange)
    (htx : e.txSeq < seqRange) (hseq : seq < seqRange) (hne : seq ≠ e.txSeq)
    (hunder : ¬ e.Underrun seq) : e.Holds seq := by
  simp only [Underrun, skipTo, Holds, age, seqRange] at *
  omega

theorem serves_of_not_underruns (htx : e.txSeq < seqRange) (hlen : e.history.length ≤ seqRange)
    (hf : ∀ n, f = .nak n → n < seqRange) (hunder : ¬ e.Underruns f) : e.Serves f := by
  intro seq hseq
  obtain ⟨hne, hlabel⟩ := of_mem_replayLabel hseq
  have hlt : seq < seqRange := by
    rcases hlabel with hnak | rfl
    · exact hf seq hnak
    · decide
  apply holds_of_not_underrun hlen htx hlt hne
  intro h
  exact hunder ⟨seq, hseq, h⟩

end Endpoint

/-! ## The sender -/

/-- The sending half of an endpoint whose user wrote `W`: the next label, and the last packets. -/
structure Sends (cap : Nat) (e : Endpoint α) (W : List α) : Prop where
  txSeq : e.txSeq = W.length % seqRange
  history : e.history <:+ W
  capacity : e.history.length ≤ cap

namespace Sends

variable {cap : Nat} {e : Endpoint α} {W : List α}

theorem write (h : Sends cap e W) (a : α) : Sends cap (e.write cap a).endpoint (W ++ [a]) where
  txSeq := by
    show (e.txSeq + 1) % seqRange = _
    rw [h.txSeq, Nat.mod_add_mod, List.length_append, List.length_singleton]
  history := by
    obtain ⟨front, hfront⟩ := h.history
    rw [← hfront, List.append_assoc]
    exact (List.drop_suffix _ _).trans (List.suffix_append _ _)
  capacity := by
    simp only [Endpoint.write, List.length_drop, List.length_append, List.length_singleton]
    omega

/-- A label that only one packet has determines what is kept: the packets from that one on, fewer
than there are labels. -/
theorem kept (h : Sends cap e W) {seq : Nat} (hseq : seq < seqRange) (hne : seq ≠ e.txSeq)
    (hholds : e.Holds seq) :
    e.kept seq <:+ W ∧ (e.kept seq).length < seqRange ∧
      seq = (W.length - (e.kept seq).length) % seqRange := by
  obtain ⟨hin, honce⟩ := hholds
  have hle := h.history.length_le
  have htx := h.txSeq
  -- the packets in front of it are those the code skips
  have hskip : e.skipTo seq = e.history.length - e.age seq := by
    simp only [Endpoint.skipTo, Endpoint.age, seqRange] at *
    omega
  have hage : 0 < e.age seq ∧ e.age seq < seqRange := by
    simp only [Endpoint.age, seqRange] at *
    omega
  have hkept : e.kept seq = e.history.drop (e.history.length - e.age seq) := by
    rw [Endpoint.kept, hskip, if_pos (by omega)]
  have hlen : (e.kept seq).length = e.age seq := by
    rw [hkept, List.length_drop]
    omega
  refine ⟨?_, hlen ▸ hage.2, ?_⟩
  · rw [hkept]
    exact (List.drop_suffix _ _).trans h.history
  -- the label determines the distance from the newest packet
  · rw [hlen]
    simp only [Endpoint.age, seqRange] at *
    omega

/-- A retransmission that the history can serve changes nothing but the history. -/
theorem replayFrom (h : Sends cap e W) {seq : Nat} (hseq : seq < seqRange) (hne : seq ≠ e.txSeq)
    (hholds : e.Holds seq) : Sends cap (e.replayFrom seq).endpoint W := by
  obtain ⟨hsuffix, -, hlabel⟩ := h.kept hseq hne hholds
  have hle := hsuffix.length_le
  refine ⟨?_, hsuffix, Nat.le_trans (e.length_kept_le seq) h.capacity⟩
  -- the burst counts the label up to where it was
  show (seq + (e.kept seq).length) % seqRange = W.length % seqRange
  generalize (e.kept seq).length = k at hlabel hle
  rw [hlabel, Nat.mod_add_mod, Nat.sub_add_cancel hle]

end Sends

/-! ## One direction -/

/-- One direction of a session. `s` sends and `r` receives; the user of `s` wrote `W`, the user of
`r` was given `G` from the positions `took`; `ps` is in flight towards `r`. -/
structure Window (cap : Nat) (s r : Endpoint α) (W G : List α) (took : List Nat)
    (ps : List (Parcel (Frame α))) : Prop where
  sends : Sends cap s W
  rxSeq : r.rxSeq = G.length % seqRange
  got : G <+: W
  took : took = List.range G.length
  sound : ∀ p ∈ ps, Sound W p
  near : Near seqRange G.length (positions ps)

namespace Window

variable {cap : Nat} {s r : Endpoint α} {W G : List α} {took : List Nat}
  {ps qs : List (Parcel (Frame α))}

/-- Only the sender's half of `s` and the receiver's half of `r` matter. -/
theorem congr (h : Window cap s r W G took ps) (s' r' : Endpoint α) (htx : s'.txSeq = s.txSeq)
    (hhist : s'.history = s.history) (hrx : r'.rxSeq = r.rxSeq) :
    Window cap s' r' W G took ps where
  sends := ⟨htx.trans h.sends.txSeq, hhist ▸ h.sends.history, hhist ▸ h.sends.capacity⟩
  rxSeq := hrx.trans h.rxSeq
  got := h.got
  took := h.took
  sound := h.sound
  near := h.near

/-- Losing frames, or hearing one that changes nothing. -/
theorem sublist (h : Window cap s r W G took ps) (hqs : qs.Sublist ps) :
    Window cap s r W G took qs :=
  { h with
    sound := fun p hp => h.sound p (hqs.subset hp)
    near := h.near.sublist (positions_sublist hqs) }

/-- Frames without a packet that join the ones in flight. -/
theorem append_other (h : Window cap s r W G took ps) (hqs : ∀ q ∈ qs, Sound W q)
    (hother : ∀ q ∈ qs, q.message.isUser = false) : Window cap s r W G took (ps ++ qs) := by
  have hnone : positions qs = [] := by
    rw [positions, List.map_eq_nil_iff, List.filter_eq_nil_iff]
    intro q hq
    simp [hother q hq]
  have hsound := List.forall_mem_append.mpr ⟨h.sound, hqs⟩
  refine { h with sound := hsound, near := ?_ }
  rw [positions_append, hnone, List.append_nil]
  exact h.near

/-- A burst of the last packets written that joins the ones in flight. -/
theorem append_burst (h : Window cap s r W G took ps) {k : Nat}
    (hk : k ≤ W.length) (hburst : k < seqRange) (hqs : ∀ q ∈ qs, Sound W q)
    (hpos : positions qs = List.range' (W.length - k) k) :
    Window cap s r W G took (ps ++ qs) := by
  have htop : W.length - k + k = W.length := Nat.sub_add_cancel hk
  have hsound := List.forall_mem_append.mpr ⟨h.sound, hqs⟩
  refine { h with sound := hsound, near := ?_ }
  rw [positions_append, hpos]
  apply h.near.append_range'
  · intro n hn
    rw [htop]
    exact lt_of_mem_positions h.sound hn
  · rw [htop]
    exact h.got.length_le
  · exact hburst

/-- The sender writes a packet. -/
theorem write (h : Window cap s r W G took ps) (a : α) :
    Window cap (s.write cap a).endpoint r (W ++ [a]) G took
      (ps ++ stamp Frame.isUser (W ++ [a]).length (s.write cap a).sent) := by
  have hgrown : Window cap (s.write cap a).endpoint r (W ++ [a]) G took ps :=
    ⟨h.sends.write a, h.rxSeq, h.got.trans (List.prefix_append _ _), h.took,
      fun p hp => (h.sound p hp).mono [a], h.near⟩
  -- the new frame is the burst of the newest packet alone
  have hparcel : stamp Frame.isUser (W ++ [a]).length (s.write cap a).sent
      = [⟨.usr s.txSeq a, W.length⟩] := by
    simp [Endpoint.write, Frame.isUser]
  rw [hparcel]
  apply hgrown.append_burst (k := 1)
  · simp
  · decide
  · intro q hq
    rw [List.mem_singleton.mp hq]
    exact sound_of_user rfl h.sends.txSeq (by simp)
  · simp [positions, Frame.isUser]

/-- The sender retransmits from a label that its history can serve. -/
theorem replay (h : Window cap s r W G took ps) {seq : Nat} (hseq : seq < seqRange)
    (hne : seq ≠ s.txSeq) (hholds : s.Holds seq) :
    Window cap (s.replayFrom seq).endpoint r W G took
      (ps ++ stamp Frame.isUser W.length (s.replayFrom seq).sent) := by
  obtain ⟨hsuffix, hfew, hlabel⟩ := h.sends.kept hseq hne hholds
  have hle := hsuffix.length_le
  have hmoved : Window cap (s.replayFrom seq).endpoint r W G took ps :=
    { h with sends := h.sends.replayFrom hseq hne hholds }
  apply hmoved.append_burst (k := (s.kept seq).length) hle
  · exact hfew
  · have hsound := sound_retransmissions hsuffix
    rw [← hlabel] at hsound
    exact hsound
  · exact positions_retransmissions _ _ _ hle

/-- **No aliasing**: a packet with the expected label is the next one. -/
theorem accept {p : Parcel (Frame α)} (h : Window cap s r W G took (p :: ps)) {seq : Nat} {a : α}
    (hp : p.message.user? = some (seq, a)) (hseq : seq = r.rxSeq)
    (hout : W.length ≤ G.length + seqRange) :
    p.pos = G.length ∧
      Window cap s { r with rxSeq := (r.rxSeq + 1) % seqRange } W (G ++ [a]) (took ++ [p.pos])
        ps := by
  have huser : p.message.isUser = true := by rw [Frame.isUser_eq, hp]; rfl
  obtain ⟨hlabel, hpacket⟩ := (h.sound p (by simp)).user seq a hp
  have hlt := (h.sound p (by simp)).pos_lt huser
  have hnear := h.near
  rw [positions_cons_user huser] at hnear
  obtain ⟨hbehind, hrest⟩ := hnear
  -- one label, and less than a range apart: the same position
  have hpos : p.pos = G.length := by
    apply Lib.eq_of_label_eq (N := seqRange) _ hbehind (by omega)
    rw [← hlabel, hseq, h.rxSeq]
  refine ⟨hpos, ?_⟩
  refine ⟨h.sends, ?_, ?_, ?_,
    fun q hq => h.sound q (List.mem_cons_of_mem p hq), ?_⟩
  · show (r.rxSeq + 1) % seqRange = (G ++ [a]).length % seqRange
    rw [h.rxSeq, Nat.mod_add_mod, List.length_append, List.length_singleton]
  · obtain ⟨rest, hW⟩ := h.got
    rw [hpos, ← hW, List.getElem?_append_right (Nat.le_refl _), Nat.sub_self] at hpacket
    cases rest with
    | nil => simp at hpacket
    | cons b rest =>
      simp only [List.getElem?_cons_zero, Option.some.injEq] at hpacket
      exact ⟨rest, by rw [← hW, hpacket, List.append_assoc, List.singleton_append]⟩
  · rw [h.took, hpos, List.length_append, List.length_singleton, List.range_succ]
  · apply hrest.anti
    rw [hpos, List.length_append, List.length_singleton]
    exact Nat.le_max_right _ _

/-- A frame is replaced by noise. -/
theorem corrupt (h : Window cap s r W G took ps) (i : Nat) {f : Frame α} (hf : f.IsNoise) :
    Window cap s r W G took (Link.replaceAt ps i f) := by
  refine { h with sound := ?_, near := h.near.sublist (positions_replaceAt ps i hf) }
  intro p hp
  rcases Lib.Abstraction.mem_replaceAt hp with hp | hp
  · exact h.sound p hp
  · exact Sound.noise (hp ▸ hf)

end Window

/-! ## A frame arrives -/

section Hear

variable {cap : Nat} {e s : Endpoint α} {W G V H : List α} {took tookH : List Nat}
  {p : Parcel (Frame α)} {ps qs : List (Parcel (Frame α))}

/-- What one end of a session does with a frame, seen from both directions: `s` sends `W` to `e`
and `e` sends `V` to `s`. -/
structure HearsInSession (cap : Nat) (e s : Endpoint α) (W G V H : List α) (took tookH : List Nat)
    (p : Parcel (Frame α)) (ps qs : List (Parcel (Frame α))) (o : Reaction α) : Prop where
  connected : o.endpoint.connectState = .connected
  incoming : Window cap s o.endpoint W (G ++ o.got) (took ++ o.got.map fun _ => p.pos) ps
  outgoing : Window cap o.endpoint s V H tookH (qs ++ stamp Frame.isUser V.length o.sent)

theorem sound_nak {n seq : Nat} (hseq : seq < seqRange) :
    ∀ q ∈ stamp Frame.isUser n [(.nak seq : Frame α)], Sound V q := by
  intro q hq
  simp only [Lib.stamp_cons, Lib.stamp_nil, List.mem_singleton] at hq
  subst hq
  refine ⟨by simp [Frame.user?], ?_, by simp⟩
  intro k hk
  simp only [Frame.nak.injEq] at hk
  rw [← hk]
  exact hseq

/-- Asking for the expected packet. -/
theorem hears_answer_nak (hconn : e.connectState = .connected)
    (hin : Window cap s e W G took (p :: ps)) (hout : Window cap e s V H tookH qs) :
    HearsInSession cap e s W G V H took tookH p ps qs ⟨e, [.nak e.rxSeq], []⟩ where
  connected := hconn
  incoming := by simpa using hin.sublist (List.sublist_cons_self p ps)
  outgoing := by
    apply hout.append_other
    · apply sound_nak
      rw [hin.rxSeq]
      exact Nat.mod_lt _ (by decide)
    · intro q hq
      simp only [Lib.stamp_cons, Lib.stamp_nil, List.mem_singleton] at hq
      rw [hq]
      rfl

/-- Ignoring a frame. -/
theorem hears_nothing (hconn : e.connectState = .connected)
    (hin : Window cap s e W G took (p :: ps)) (hout : Window cap e s V H tookH qs) :
    HearsInSession cap e s W G V H took tookH p ps qs ⟨e, [], []⟩ where
  connected := hconn
  incoming := by simpa using hin.sublist (List.sublist_cons_self p ps)
  outgoing := by simpa using hout

/-- A packet is taken, refused with a `NAK`, or refused silently. -/
theorem hears_receiveUser (hconn : e.connectState = .connected)
    (hin : Window cap s e W G took (p :: ps)) (hout : Window cap e s V H tookH qs)
    {seq : Nat} {a : α} (hp : p.message.user? = some (seq, a))
    (hfew : W.length ≤ G.length + seqRange) (fresh : Bool) :
    HearsInSession cap e s W G V H took tookH p ps qs (e.receiveUser fresh seq a) := by
  unfold Endpoint.receiveUser
  rw [hconn]
  by_cases hseq : seq = e.rxSeq
  · simp only [hseq, ne_eq, not_true, if_false]
    -- the expected label, hence the next packet
    obtain ⟨-, hnext⟩ := hin.accept hp hseq hfew
    refine ⟨rfl, ?_, ?_⟩
    · simpa [hconn] using hnext
    · rw [Lib.stamp_nil, List.append_nil]
      exact hout.congr _ _ rfl rfl rfl
  · simp only [ne_eq, hseq, not_false_eq_true, if_true]
    -- out of order: only a fresh packet is answered
    cases fresh
    · exact hears_nothing hconn hin hout
    · exact hears_answer_nak hconn hin hout

/-- A retransmission is asked for. -/
theorem hears_receiveNak (hconn : e.connectState = .connected)
    (hin : Window cap s e W G took (p :: ps)) (hout : Window cap e s V H tookH qs)
    {seq : Nat} (hseq : seq < seqRange) (hserves : e.Serves (.nak seq)) :
    HearsInSession cap e s W G V H took tookH p ps qs (e.receiveNak seq) := by
  unfold Endpoint.receiveNak
  rw [hconn]
  by_cases hcurrent : seq = e.txSeq
  · simp only [hcurrent, ne_eq, not_true, if_false]
    exact hears_nothing hconn hin hout
  · simp only [ne_eq, hcurrent, not_false_eq_true, if_true]
    -- the label is not the next one, so the history has to have its packet
    have hholds : e.Holds seq := by
      apply hserves
      simp [Endpoint.replayLabel, hconn, hcurrent]
    refine ⟨hconn, ?_, hout.replay hseq hcurrent hholds⟩
    have hrest := hin.sublist (List.sublist_cons_self p ps)
    simpa [Endpoint.replayFrom] using hrest.congr s (e.replayFrom seq).endpoint rfl rfl rfl

/-- **One frame of a session.** -/
theorem hears_receive (hconn : e.connectState = .connected)
    (hin : Window cap s e W G took (p :: ps)) (hout : Window cap e s V H tookH qs)
    (hserves : e.Serves p.message) (hfew : W.length ≤ G.length + seqRange) :
    HearsInSession cap e s W G V H took tookH p ps qs (e.receive p.message) := by
  have hsound := hin.sound p (by simp)
  cases hp : p.message with
  | usr seq a => exact hears_receiveUser hconn hin hout (by rw [hp]; rfl) hfew true
  | rtx seq a => exact hears_receiveUser hconn hin hout (by rw [hp]; rfl) hfew false
  | nak seq => exact hears_receiveNak hconn hin hout (hsound.nak seq hp) (hp ▸ hserves)
  | syn seq => exact absurd hp (hsound.syn seq)
  | bad => exact hears_answer_nak hconn hin hout
  | silent => exact hears_nothing hconn hin hout

end Hear

/-! ## Whole sessions -/

/-- Two endpoints and the frames between them. -/
abbrev Net (α : Type*) := Link (Endpoint α) (Frame α) α

/-- Both directions of an established session. -/
structure Established (cap : Nat) (l : Net α) : Prop where
  connected : ∀ x, (l.node x).connectState = .connected
  window : ∀ x, Window cap (l.node x) (l.node x.peer) (l.wrote x) (l.got x.peer) (l.took x.peer)
    (l.chan x.peer)

/-- What happens in a session on a lossy line: writes, deliveries, losses, and replacements of
frames by noise. -/
def LossyAction : Action (EndpointRequest α) (Frame α) → Prop
  | .request _ .connect => False
  | .corrupt _ _ f => f.IsNoise
  | _ => True

/-- The step does not take the history-underrun branch. -/
def UnderrunFree (l : Net α) : Action (EndpointRequest α) (Frame α) → Prop
  | .deliver x => ∀ p ∈ (l.chan x).head?, ¬ (l.node x).Underruns p.message
  | _ => True

instance (l : Net α) : DecidablePred (UnderrunFree l)
  | .request _ _ => isTrue trivial
  | .deliver x =>
    inferInstanceAs (Decidable (∀ p ∈ (l.chan x).head?, ¬ (l.node x).Underruns p.message))
  | .lose _ _ => isTrue trivial
  | .corrupt _ _ _ => isTrue trivial

/-- If the step retransmits, then from the only packet with the label asked for. -/
def ServedStep (l : Net α) : Action (EndpointRequest α) (Frame α) → Prop
  | .deliver x => ∀ p ∈ (l.chan x).head?, (l.node x).Serves p.message
  | _ => True

instance (l : Net α) : DecidablePred (ServedStep l)
  | .request _ _ => isTrue trivial
  | .deliver x =>
    inferInstanceAs (Decidable (∀ p ∈ (l.chan x).head?, (l.node x).Serves p.message))
  | .lose _ _ => isTrue trivial
  | .corrupt _ _ _ => isTrue trivial

namespace Established

variable {cap : Nat} {l : Net α}

/-- Both windows of one side determine the session. -/
theorem of_side (x : Side) (hconn : (l.node x).connectState = .connected)
    (hconn' : (l.node x.peer).connectState = .connected)
    (hout : Window cap (l.node x) (l.node x.peer) (l.wrote x) (l.got x.peer) (l.took x.peer)
      (l.chan x.peer))
    (hin : Window cap (l.node x.peer) (l.node x) (l.wrote x.peer) (l.got x) (l.took x)
      (l.chan x)) : Established cap l where
  connected := Side.forall_of_peer x hconn hconn'
  window := Side.forall_of_peer x hout (by rw [Side.peer_peer]; exact hin)

theorem incoming (h : Established cap l) (x : Side) :
    Window cap (l.node x.peer) (l.node x) (l.wrote x.peer) (l.got x) (l.took x) (l.chan x) := by
  have hwindow := h.window x.peer
  rwa [Side.peer_peer] at hwindow

/-- **Step lemma**: a session stays established. -/
theorem step (h : Established cap l) {a : Action (EndpointRequest α) (Frame α)}
    (ha : LossyAction a) (hserves : ServedStep l a) (hfew : ∀ x, l.outstanding x ≤ seqRange) :
    Established cap (l.step (endpointParty α cap) a) := by
  cases a with
  | request x r =>
    cases r with
    | connect => exact ha.elim
    | write p =>
      rw [Link.step_request]
      apply of_side x
      · rw [Link.node_act]
        exact h.connected x
      · rw [Link.node_act_peer]
        exact h.connected x.peer
      · simp only [Link.node_act, Link.node_act_peer, Link.wrote_act, Link.got_act_peer,
          Link.took_act_peer, Link.chan_act_peer]
        exact (h.window x).write p
      · simp only [Link.node_act, Link.node_act_peer, Link.wrote_act_peer, Link.got_act,
          Link.took_act, Link.chan_act]
        simpa [endpointParty, Reaction.outcome, Endpoint.write] using
          (h.incoming x).congr (l.node x.peer) ((l.node x).write cap p).endpoint rfl rfl rfl
  | deliver x =>
    cases hchan : l.chan x with
    | nil => rw [Link.step_deliver_nil _ hchan]; exact h
    | cons p ps =>
      have hin := h.incoming x
      rw [hchan] at hin
      have hserved : (l.node x).Serves p.message := hserves p (by simp [hchan])
      -- what the sender is ahead by bounds what is in flight
      have hroom : (l.wrote x.peer).length ≤ (l.got x).length + seqRange := by
        have hout := hfew x.peer
        rw [Link.outstanding, Side.peer_peer] at hout
        omega
      have hhears := hears_receive (h.connected x) hin (h.window x) hserved hroom
      rw [Link.step_deliver_cons _ hchan]
      apply of_side x
      · rw [Link.node_act]
        exact hhears.connected
      · rw [Link.node_act_peer]
        exact h.connected x.peer
      · simp only [Link.node_act, Link.node_act_peer, Link.wrote_act, Link.got_act_peer,
          Link.took_act_peer, Link.chan_act_peer, Link.chan_setChan_peer, Link.node_setChan,
          Link.wrote_setChan, Link.got_setChan, Link.took_setChan, List.append_nil]
        exact hhears.outgoing
      · simp only [Link.node_act, Link.node_act_peer, Link.wrote_act_peer, Link.got_act,
          Link.took_act, Link.chan_act, Link.chan_setChan, Link.node_setChan,
          Link.wrote_setChan, Link.got_setChan, Link.took_setChan]
        exact hhears.incoming
  -- the other direction does not notice a loss
  | lose x i =>
    refine of_side x (h.connected x) (h.connected x.peer) ?_ ?_
    · rw [Link.step, Link.chan_setChan_peer]
      exact h.window x
    · rw [Link.step, Link.chan_setChan]
      exact (h.incoming x).sublist (List.eraseIdx_sublist _ i)
  | corrupt x i f =>
    refine of_side x (h.connected x) (h.connected x.peer) ?_ ?_
    · rw [Link.step, Link.chan_setChan_peer]
      exact h.window x
    · rw [Link.step, Link.chan_setChan]
      exact (h.incoming x).corrupt i ha

/-- A session in which nothing was written yet. -/
theorem start (cap : Nat) (α : Type*) :
    Established cap (Link.start (fun _ => ⟨.connected, 0, 0, []⟩) : Net α) where
  connected := fun _ => rfl
  window := fun _ => ⟨⟨rfl, List.nil_suffix, Nat.zero_le _⟩, rfl, List.nil_prefix, rfl,
    by simp [Link.start], trivial⟩

/-- **Run lemma.** -/
theorem run (h : Established cap l) {as : List (Action (EndpointRequest α) (Frame α))}
    (has : Meets (Link.step (endpointParty α cap))
      (fun l a => LossyAction a ∧ ServedStep l a ∧ ∀ x, l.outstanding x ≤ seqRange) l as) :
    Established cap (Lib.run (Link.step (endpointParty α cap)) l as) :=
  Lib.run_invariant (fun _ _ hs ha => hs.step ha.1 ha.2.1 ha.2.2) h has

/-- In a history of at most 64 packets no two have one label, so a request that does not underrun
is served. -/
theorem servedStep (hcap : cap ≤ seqRange) (h : Established cap l)
    {a : Action (EndpointRequest α) (Frame α)} (hunder : UnderrunFree l a) : ServedStep l a := by
  cases a with
  | deliver x =>
    intro p hp
    have hsends := (h.window x).sends
    have htx : (l.node x).txSeq < seqRange := hsends.txSeq ▸ Nat.mod_lt _ (by decide)
    refine Endpoint.serves_of_not_underruns htx (Nat.le_trans hsends.capacity hcap) ?_ (hunder p hp)
    intro seq hseq
    exact ((h.incoming x).sound p (List.mem_of_mem_head? hp)).nak seq hseq
  | request x r => trivial
  | lose x i => trivial
  | corrupt x i f => trivial

/-- The run lemma for runs without history underrun. -/
theorem run_underrunFree (hcap : cap ≤ seqRange) (h : Established cap l)
    {as : List (Action (EndpointRequest α) (Frame α))}
    (has : Meets (Link.step (endpointParty α cap))
      (fun l a => LossyAction a ∧ UnderrunFree l a ∧ ∀ x, l.outstanding x ≤ seqRange) l as) :
    Established cap (Lib.run (Link.step (endpointParty α cap)) l as) :=
  Lib.run_invariant (fun _ _ hs ha => hs.step ha.1 (hs.servedStep hcap ha.2.1) ha.2.2) h has

end Established

end Libsfp
