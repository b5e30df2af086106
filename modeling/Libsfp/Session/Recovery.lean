import Mathlib.Data.List.Forall2
import Libsfp.Lib.Repair
import Libsfp.Lib.Window
import Libsfp.Session.ExactlyOnce

/-!
# Recovery from Loss

There are no timers: what was lost comes through because of what is written later. A session in
which packets were lost and nothing is in flight, and one side writes again:

1. the packet it writes is either the one that its peer expects or is answered by a `NAK`,
2. a `NAK` asks for a packet that is still in the history, and the burst it provokes brings the peer
   to the last packet written, whatever is in flight in front of it.

`NAK`s are sent in the order of the packets they ask for, so that none of them asks for a packet
that an earlier one has trimmed from the history.
-/

namespace Libsfp

open Lib (Side Parcel Link Action run Item Repairs burst)

variable {α : Type*}

/-! ## Items in flight -/

/-- The frame carries the packet of `W` that the item stands for. -/
def CarriesItem (W : List α) (f : Frame α) (i : Item) : Prop :=
  ∃ a, W[i.pos]? = some a ∧
    f = if i.fresh then .usr (i.pos % seqRange) a else .rtx (i.pos % seqRange) a

namespace CarriesItem

variable {W : List α} {f : Frame α} {i : Item}

theorem mono (h : CarriesItem W f i) (V : List α) : CarriesItem (W ++ V) f i := by
  obtain ⟨a, ha, hf⟩ := h
  have hlt : i.pos < W.length := (List.getElem?_eq_some_iff.mp ha).1
  exact ⟨a, by rw [List.getElem?_append_left hlt, ha], hf⟩

theorem pos_lt (h : CarriesItem W f i) : i.pos < W.length := by
  obtain ⟨a, ha, -⟩ := h
  exact (List.getElem?_eq_some_iff.mp ha).1

/-- Both kinds of frame are received alike. -/
theorem receive (h : CarriesItem W f i) (e : Endpoint α) :
    ∃ a, W[i.pos]? = some a ∧ e.receive f = e.receiveUser i.fresh (i.pos % seqRange) a := by
  obtain ⟨a, ha, rfl⟩ := h
  refine ⟨a, ha, ?_⟩
  cases i.fresh with
  | true => rfl
  | false => rfl

end CarriesItem

theorem pos_lt_of_forall₂ {W : List α} {fs : List (Frame α)} {items : List Item}
    (h : List.Forall₂ (CarriesItem W) fs items) : ∀ i ∈ items, i.pos < W.length := by
  induction h with
  | nil => nofun
  | cons hhead _ ih =>
    intro i hi
    rcases List.mem_cons.mp hi with rfl | hi
    · exact hhead.pos_lt
    · exact ih i hi

/-- A burst of retransmissions carries the last packets written. -/
theorem carries_retransmissions (W : List α) (n : Nat) :
    List.Forall₂ (CarriesItem W) (Endpoint.retransmissions (n % seqRange) (W.drop n))
      (burst n W.length) := by
  induction hps : W.drop n generalizing n with
  | nil =>
    rw [Lib.burst_of_le (List.drop_eq_nil_iff.mp hps)]
    exact .nil
  | cons a ps ih =>
    have hlt : n < W.length := by
      by_contra hge
      rw [List.drop_eq_nil_of_le (Nat.le_of_not_lt hge)] at hps
      cases hps
    rw [List.drop_eq_getElem_cons hlt, List.cons.injEq] at hps
    rw [Lib.burst_of_lt hlt, Endpoint.retransmissions, Nat.mod_add_mod]
    -- the first packet of the burst, then the rest with the next label
    refine .cons ⟨a, ?_, rfl⟩ (ih (n + 1) hps.2)
    rw [List.getElem?_eq_getElem hlt, hps.1]

/-! ## The invariant -/

/-- `s` has written `W` to `r`, whose user was given `G`; `forth` is in flight to `r` and `back` to
`s`. `items` and `asked` are the packets that the frames carry and ask for, `low` is one from which
on the history is complete. Everything in flight has numbers from `base` on, within one history and
with fewer packets than there are labels; with more than `first` packets written, the gap repairs
itself. -/
structure Recovering (cap base first : Nat) (s r : Endpoint α) (W G : List α)
    (forth back : List (Frame α)) (items : List Item) (asked : List Nat) (low : Nat) : Prop where
  sender : s.connectState = .connected
  receiver : r.connectState = .connected
  txSeq : s.txSeq = W.length % seqRange
  rxSeq : r.rxSeq = G.length % seqRange
  got : G <+: W
  capacity : s.history.length ≤ cap
  history : W.drop low <:+ s.history
  base_le : base ≤ low
  few : W.length ≤ base + cap
  labels : W.length < base + seqRange
  forth : List.Forall₂ (CarriesItem W) forth items
  late : ∀ i ∈ items, base ≤ i.pos
  back : back = asked.map fun n => .nak (n % seqRange)
  asks : (low :: (asked ++ [G.length])).Pairwise (· ≤ ·)
  repairs : first < W.length → asked ≠ [] ∨ Repairs G.length items W.length

namespace Recovering

variable {cap base first low n : Nat} {s r : Endpoint α} {W G : List α}
  {forth back : List (Frame α)} {items : List Item} {asked : List Nat} {f : Frame α} {i : Item}

theorem low_le (h : Recovering cap base first s r W G forth back items asked low) :
    low ≤ G.length := by
  have hasks := h.asks
  rw [List.pairwise_cons] at hasks
  exact hasks.1 _ (by simp)

/-- The receiver is at most a history behind. -/
theorem near (h : Recovering cap base first s r W G forth back items asked low) :
    base ≤ G.length ∧ G.length ≤ W.length :=
  ⟨Nat.le_trans h.base_le h.low_le, h.got.length_le⟩

/-- Asking for the packet that is expected keeps the `NAK`s in order. -/
theorem asks_append (h : Recovering cap base first s r W G forth back items asked low) :
    (low :: (asked ++ [G.length] ++ [G.length])).Pairwise (· ≤ ·) := by
  have hasks := h.asks
  rw [← List.cons_append] at hasks
  -- no `NAK` in flight asks for more than what is expected now
  have hlast := (List.pairwise_append.mp hasks).2.2
  rw [← List.cons_append, ← List.cons_append, List.pairwise_append]
  refine ⟨hasks, List.pairwise_singleton _ _, ?_⟩
  intro a ha b hb
  rw [List.mem_singleton.mp hb]
  rcases List.mem_append.mp ha with ha | ha
  · exact hlast a ha _ (by simp)
  · exact Nat.le_of_eq (List.mem_singleton.mp ha)

/-- So does taking it. -/
theorem asks_succ (h : Recovering cap base first s r W G forth back items asked low) :
    (low :: (asked ++ [G.length + 1])).Pairwise (· ≤ ·) := by
  have hasks := h.asks
  rw [← List.cons_append, List.pairwise_append] at hasks ⊢
  obtain ⟨hfront, -, hlast⟩ := hasks
  refine ⟨hfront, List.pairwise_singleton _ _, ?_⟩
  intro a ha b hb
  rw [List.mem_singleton.mp hb]
  exact Nat.le_succ_of_le (hlast a ha _ (by simp))

/-! ## Steps -/

/-- **A packet is written**: its frame repairs whatever gap there is. -/
theorem write (h : Recovering cap base first s r W G forth back items asked low) (a : α)
    (hroom : W.length + 1 ≤ base + cap) (hlabels : W.length + 1 < base + seqRange) :
    Recovering cap base first (s.write cap a).endpoint r (W ++ [a]) G
      (forth ++ (s.write cap a).sent) back (items ++ [⟨true, W.length⟩]) asked low where
  sender := h.sender
  receiver := h.receiver
  txSeq := by
    show (s.txSeq + 1) % seqRange = _
    rw [h.txSeq, Nat.mod_add_mod, List.length_append, List.length_singleton]
  rxSeq := h.rxSeq
  got := h.got.trans (List.prefix_append _ _)
  capacity := by
    simp only [Endpoint.write, List.length_drop, List.length_append, List.length_singleton]
    omega
  history := by
    -- the packets from number `low` on are no more than fit
    obtain ⟨older, holder⟩ := h.history
    obtain ⟨hbase, hle⟩ := h.near
    have hlow : low ≤ W.length := Nat.le_trans h.low_le hle
    have hold := h.base_le
    have hlen : s.history.length = older.length + (W.length - low) := by
      rw [← holder, List.length_append, List.length_drop]
    have hdrop : s.history.length + 1 - cap ≤ older.length := by omega
    show (W ++ [a]).drop low <:+ (s.history ++ [a]).drop (s.history.length + 1 - cap)
    generalize s.history.length + 1 - cap = k at hdrop
    rw [← holder, List.append_assoc, List.drop_append_of_le_length hdrop,
      List.drop_append_of_le_length hlow]
    exact List.suffix_append _ _
  base_le := h.base_le
  few := by
    rw [List.length_append, List.length_singleton]
    exact hroom
  labels := by
    rw [List.length_append, List.length_singleton]
    exact hlabels
  forth := by
    apply List.rel_append
    · exact h.forth.imp fun f i hfi => hfi.mono [a]
    · -- the new frame carries the new packet
      refine .cons ⟨a, by simp, ?_⟩ .nil
      rw [h.txSeq]
      rfl
  late := by
    intro i hi
    rcases List.mem_append.mp hi with hi | hi
    · exact h.late i hi
    · obtain ⟨hbase, hle⟩ := h.near
      rw [List.mem_singleton.mp hi]
      exact Nat.le_trans hbase hle
  back := h.back
  asks := h.asks
  repairs := by
    intro _
    right
    rw [List.length_append, List.length_singleton]
    exact Lib.repairs_append_fresh _ _ _

/-- The label of a frame in flight is the expected one only if its packet is. -/
theorem label_iff
    (h : Recovering cap base first s r W G (f :: forth) back (i :: items) asked low) :
    i.pos % seqRange = r.rxSeq ↔ i.pos = G.length := by
  rw [h.rxSeq]
  refine ⟨fun hlabel => ?_, fun hpos => by rw [hpos]⟩
  have hlt : i.pos < W.length := pos_lt_of_forall₂ h.forth i (by simp)
  have hlate : base ≤ i.pos := h.late i (by simp)
  obtain ⟨hbase, hle⟩ := h.near
  have hlabels := h.labels
  -- everything in flight lies within one range of labels of the receiver
  apply Lib.eq_of_label_eq hlabel
  · omega
  · omega

/-- The receiver ignores a packet that was sent again. -/
theorem ignore (h : Recovering cap base first s r W G (f :: forth) back (i :: items) asked low)
    (hpos : i.pos ≠ G.length) (hfresh : i.fresh = false) :
    Recovering cap base first s r W G forth back items asked low where
  __ := h
  forth := (List.forall₂_cons.mp h.forth).2
  late := fun j hj => h.late j (List.mem_cons_of_mem i hj)
  repairs := by
    intro hfirst
    -- it was not refused, so what repairs the gap is still to come
    rcases h.repairs hfirst with hasked | ⟨hyes, -⟩ | hrest
    · exact .inl hasked
    · rw [hfresh] at hyes
      cases hyes
    · right
      rwa [Item.next_of_ne hpos] at hrest

/-- It answers a fresh packet that it does not expect. -/
theorem refuse (h : Recovering cap base first s r W G (f :: forth) back (i :: items) asked low) :
    Recovering cap base first s r W G forth (back ++ [.nak r.rxSeq]) items
      (asked ++ [G.length]) low where
  __ := h
  forth := (List.forall₂_cons.mp h.forth).2
  late := fun j hj => h.late j (List.mem_cons_of_mem i hj)
  back := by
    rw [List.map_append, ← h.back, h.rxSeq]
    rfl
  asks := h.asks_append
  repairs := fun _ => .inl (by simp)

/-- It takes the packet that it expects. -/
theorem accept (h : Recovering cap base first s r W G (f :: forth) back (i :: items) asked low)
    (hpos : i.pos = G.length) {a : α} (ha : W[i.pos]? = some a) :
    Recovering cap base first s { r with rxSeq := (r.rxSeq + 1) % seqRange } W (G ++ [a]) forth
      back items asked low where
  __ := h
  receiver := h.receiver
  rxSeq := by
    show (r.rxSeq + 1) % seqRange = _
    rw [h.rxSeq, Nat.mod_add_mod, List.length_append, List.length_singleton]
  got := by
    obtain ⟨rest, hW⟩ := h.got
    rw [hpos, ← hW, List.getElem?_append_right (Nat.le_refl _), Nat.sub_self] at ha
    -- the packet taken is the next one that was written
    cases rest with
    | nil => cases ha
    | cons b rest =>
      obtain rfl : b = a := Option.some.inj ha
      exact ⟨rest, by rw [← hW, List.append_assoc, List.singleton_append]⟩
  forth := (List.forall₂_cons.mp h.forth).2
  late := fun j hj => h.late j (List.mem_cons_of_mem i hj)
  asks := by
    rw [List.length_append, List.length_singleton]
    exact h.asks_succ
  repairs := by
    intro hfirst
    rw [List.length_append, List.length_singleton]
    rcases h.repairs hfirst with hasked | ⟨-, hne⟩ | hrest
    · exact .inl hasked
    · exact absurd hpos hne
    · right
      rwa [Item.next_of_eq hpos] at hrest

/-- **A packet arrives.** -/
theorem hear
    (h : Recovering cap base first s r W G (f :: forth) back (i :: items) asked low) :
    ∃ asked', Recovering cap base first s (r.receive f).endpoint W (G ++ (r.receive f).got) forth
      (back ++ (r.receive f).sent) items asked' low := by
  obtain ⟨a, ha, hreceive⟩ := (List.forall₂_cons.mp h.forth).1.receive r
  have hlabel := h.label_iff
  rw [hreceive, Endpoint.receiveUser, h.receiver]
  -- the label decides, and it says the truth about the position
  by_cases hpos : i.pos = G.length
  · simp only [hlabel.mpr hpos, ne_eq, not_true, if_false, List.append_nil]
    have haccept := h.accept hpos ha
    rw [h.receiver] at haccept
    exact ⟨asked, haccept⟩
  · have hne : i.pos % seqRange ≠ r.rxSeq := fun heq => hpos (hlabel.mp heq)
    simp only [hne, ne_eq, not_false_eq_true, if_true, List.append_nil]
    cases hfresh : i.fresh with
    | true => exact ⟨asked ++ [G.length], h.refuse⟩
    | false =>
      simp only [Bool.false_eq_true, if_false, List.append_nil]
      exact ⟨asked, h.ignore hpos hfresh⟩

/-- What a `NAK` asks for is the end of the history. -/
theorem kept (hcap : cap ≤ seqRange) (hseq : s.txSeq = W.length % seqRange)
    (hfew : s.history.length ≤ cap) (hhistory : W.drop n <:+ s.history) (hn : n < W.length) :
    s.kept (n % seqRange) = W.drop n := by
  obtain ⟨older, holder⟩ := hhistory
  have hlen : s.history.length = older.length + (W.length - n) := by
    rw [← holder, List.length_append, List.length_drop]
  have hskip : s.skipTo (n % seqRange) = older.length := by
    rw [Endpoint.skipTo, hseq, hlen]
    simp only [seqRange] at *
    omega
  rw [Endpoint.kept, hskip, if_pos (by omega), ← holder]
  exact List.drop_left

/-- **A `NAK` arrives**: the burst it provokes repairs the gap. -/
theorem hearNak (hcap : cap ≤ seqRange)
    (h : Recovering cap base first s r W G forth (f :: back) items (n :: asked) low) :
    ∃ items', Recovering cap base first (s.receive f).endpoint r W G
      (forth ++ (s.receive f).sent) back items' asked n ∧ (s.receive f).got = [] := by
  obtain ⟨rfl, hback⟩ := List.cons.inj h.back
  have hasks := h.asks
  rw [List.cons_append, List.pairwise_cons] at hasks
  obtain ⟨hlow, hrest⟩ := hasks
  have hlow : low ≤ n := hlow n (by simp)
  have hn : n ≤ G.length := (List.pairwise_cons.mp hrest).1 _ (by simp)
  obtain ⟨hbase, hle⟩ := h.near
  have hpast := h.base_le
  have hfew := h.few
  have hlabels := h.labels
  -- the history is complete from this packet on: no earlier `NAK` asked for more
  have hhistory : W.drop n <:+ s.history := by
    refine List.IsSuffix.trans ?_ h.history
    obtain ⟨k, rfl⟩ := Nat.exists_eq_add_of_le hlow
    rw [← List.drop_drop]
    exact List.drop_suffix _ _
  show ∃ items', Recovering cap base first (s.receiveNak _).endpoint r W G
    (forth ++ (s.receiveNak _).sent) back items' asked n ∧ (s.receiveNak _).got = []
  rw [Endpoint.receiveNak, h.sender]
  rcases Nat.lt_or_eq_of_le (Nat.le_trans hn hle) with hlt | heq
  · -- the packet asked for is in the history
    have hne : n % seqRange ≠ s.txSeq := by
      intro hlabel
      rw [h.txSeq] at hlabel
      have heq := Lib.eq_of_label_eq hlabel (by omega) (by omega)
      omega
    have hkept := kept hcap h.txSeq h.capacity hhistory hlt
    simp only [hne, ne_eq, not_false_eq_true, if_true, Endpoint.replayFrom, hkept]
    refine ⟨items ++ burst n W.length, ⟨h.sender, h.receiver, ?_, h.rxSeq, h.got, ?_,
      List.suffix_refl _, Nat.le_trans hpast hlow, hfew, hlabels, ?_, ?_, hback, hrest, ?_⟩,
      trivial⟩
    · show (n % seqRange + (W.drop n).length) % seqRange = _
      rw [Nat.mod_add_mod, List.length_drop, Nat.add_sub_cancel' (Nat.le_of_lt hlt)]
    · show (W.drop n).length ≤ cap
      rw [List.length_drop]
      omega
    · exact List.rel_append h.forth (carries_retransmissions W n)
    · intro i hi
      rcases List.mem_append.mp hi with hi | hi
      · exact h.late i hi
      · have hpos := (Lib.pos_of_mem_burst hi).1
        omega
    · intro _
      right
      exact Lib.repairs_append_burst (pos_lt_of_forall₂ h.forth) hn hle
  · -- the receiver has everything already
    have hlabel : n % seqRange = s.txSeq := by rw [h.txSeq, heq]
    have hall : G.length = W.length := Nat.le_antisymm hle (heq ▸ hn)
    simp only [hlabel, ne_eq, not_true, if_false, List.append_nil]
    refine ⟨items, { h with
      history := hhistory, base_le := Nat.le_trans hpast hlow, back := hback, asks := hrest,
      repairs := ?_ }, trivial⟩
    intro _
    right
    rw [hall]
    exact Lib.repairs_of_all (pos_lt_of_forall₂ h.forth)

/-- Once nothing is in flight, everything has arrived. -/
theorem done (h : Recovering cap base first s r W G [] [] items asked low)
    (hfirst : first < W.length) : G = W ∧ s.txSeq = r.rxSeq := by
  obtain rfl : items = [] := List.forall₂_nil_left_iff.mp h.forth
  obtain rfl : asked = [] := List.map_eq_nil_iff.mp h.back.symm
  have hlen : G.length = W.length := by
    rcases h.repairs hfirst with hasked | hall
    · exact absurd rfl hasked
    · exact hall
  exact ⟨h.got.eq_of_length hlen, by rw [h.txSeq, h.rxSeq, hlen]⟩

end Recovering

/-! ## Runs -/

section Runs

variable {cap base first : Nat} {x : Side} {l : Net α}

/-- `x` writes to its peer. -/
def RecoveringOn (cap base first : Nat) (x : Side) (l : Net α) : Prop :=
  ∃ items asked low, Recovering cap base first (l.node x) (l.node x.peer) (l.wrote x)
    (l.got x.peer) (l.messages x.peer) (l.messages x) items asked low

/-- **Step lemma**: as long as what the peer misses fits into the history. -/
theorem recoveringOn_step (hcap : cap ≤ seqRange) (h : RecoveringOn cap base first x l)
    {a : Action (EndpointRequest α) (Frame α)} (ha : OneWriter x a)
    (hroom : (l.wrote x).length + (a.written (endpointParty α cap) x).length ≤ base + cap)
    (hlabels : (l.wrote x).length + (a.written (endpointParty α cap) x).length
      < base + seqRange) :
    RecoveringOn cap base first x (l.step (endpointParty α cap) a) := by
  obtain ⟨items, asked, low, h⟩ := h
  unfold RecoveringOn
  rw [Link.wrote_step]
  cases a with
  | request y q =>
    cases q with
    | connect => exact ha.elim
    | write p =>
      obtain rfl : y = x := ha
      have hwritten : Action.written (endpointParty α cap) y (.request y (.write p)) = [p] :=
        if_pos rfl
      have hacts := Link.acts_request (endpointParty α cap) l y (.write p)
      rw [hwritten] at hroom hlabels ⊢
      rw [hacts.node, hacts.node_peer, hacts.messages, hacts.messages_peer, Link.step_request,
        Link.got_act_peer]
      exact ⟨_, asked, low, h.write p hroom hlabels⟩
  | deliver y =>
    rw [show Action.written (endpointParty α cap) x (.deliver y) = [] from rfl, List.append_nil]
    cases hm : l.messages y with
    | nil =>
      rw [Link.deliver_of_messages_nil _ hm]
      exact ⟨items, asked, low, h⟩
    | cons f fs =>
      have hacts := Link.acts_deliver (endpointParty α cap) hm
      obtain ⟨hgot, hgot'⟩ := Link.got_deliver (endpointParty α cap) hm
      rcases y.eq_or_eq_peer x with rfl | rfl
      · -- the writer hears a `NAK`
        rw [hm] at h
        rw [hacts.node, hacts.node_peer, hacts.messages, hacts.messages_peer, hgot']
        cases asked with
        | nil => exact absurd h.back (List.cons_ne_nil _ _)
        | cons n asked =>
          obtain ⟨items', hhears, -⟩ := h.hearNak hcap
          exact ⟨items', asked, n, hhears⟩
      · -- its peer hears a packet
        have hnode := hacts.node_peer
        have hmessages := hacts.messages_peer
        rw [Side.peer_peer] at hnode hmessages
        rw [hm] at h
        rw [hacts.node, hnode, hacts.messages, hmessages, hgot]
        cases items with
        | nil => cases h.forth
        | cons i items =>
          obtain ⟨asked', hhears⟩ := h.hear
          exact ⟨items, asked', low, hhears⟩
  | lose y i => exact ha.elim
  | corrupt y i f => exact ha.elim

theorem recoveringOn_run (hcap : cap ≤ seqRange)
    {as : List (Action (EndpointRequest α) (Frame α))} (h : RecoveringOn cap base first x l)
    (has : ∀ a ∈ as, OneWriter x a)
    (hroom : (l.wrote x).length + (as.flatMap (Action.written (endpointParty α cap) x)).length
      ≤ base + cap)
    (hlabels : (l.wrote x).length + (as.flatMap (Action.written (endpointParty α cap) x)).length
      < base + seqRange) :
    RecoveringOn cap base first x (run (Link.step (endpointParty α cap)) l as) := by
  induction as generalizing l with
  | nil => exact h
  -- what is still to be written fits behind what this action writes
  | cons a as ih =>
    rw [List.flatMap_cons, List.length_append] at hroom hlabels
    rw [Lib.run_cons]
    apply ih
    · apply recoveringOn_step hcap h (has a (by simp))
      · omega
      · omega
    · exact fun b hb => has b (List.mem_cons_of_mem a hb)
    · rw [Link.wrote_step, List.length_append]
      omega
    · rw [Link.wrote_step, List.length_append]
      omega

end Runs

/-! ## Contexts -/

variable [SfpConfig]

/-- `x` has written packets of which its peer was given the first ones only, and nothing is in
flight. The packets that are missing are the newest ones of the history of `x`. -/
structure LeftBehind (x : Side) (l : Line) : Prop where
  onLine : ∀ y, (l.node y).OnLine
  connected : ∀ y, (l.node y).connectState = .connected
  empty : ∀ y, l.chan y = []
  got : l.got x.peer <+: l.wrote x
  rxSeq : (l.node x.peer).rx.seq.toNat = (l.got x.peer).length % seqRange
  txSeq : (l.node x).tx.seq.toNat = (l.wrote x).length % seqRange
  history : (l.wrote x).drop (l.got x.peer).length
    <:+ (l.node x).tx.history.entries.map SFPpacket.octets

/-- Nothing is in flight, so the gap does not have to repair itself yet. -/
theorem LeftBehind.recoveringOn {x : Side} {l : Line} (h : LeftBehind x l)
    (hfew : (l.wrote x).length ≤ (l.got x.peer).length + sfpConfigHistoryCapacity)
    (hlabels : (l.wrote x).length < (l.got x.peer).length + seqRange) :
    RecoveringOn sfpConfigHistoryCapacity (l.got x.peer).length (l.wrote x).length x
      (sfpAbstraction.link l) := by
  have hmessages : ∀ y, (sfpAbstraction.link l).messages y = [] :=
    fun y => sfpAbstraction.messages_link_of_nil (h.empty y)
  refine ⟨[], [], (l.got x.peer).length, ?_⟩
  rw [hmessages, hmessages]
  exact {
    sender := h.connected x
    receiver := h.connected x.peer
    txSeq := h.txSeq
    rxSeq := h.rxSeq
    got := h.got
    capacity := by
      show ((l.node x).tx.history.entries.map SFPpacket.octets).length ≤ _
      rw [List.length_map]
      exact (l.node x).tx.history.length_entries_le
    history := h.history
    base_le := Nat.le_refl _
    few := hfew
    labels := hlabels
    forth := .nil
    late := by
      intro i hi
      cases hi
    back := rfl
    asks := by
      rw [List.nil_append, List.pairwise_cons]
      exact ⟨fun n hn => Nat.le_of_eq (List.mem_singleton.mp hn).symm,
        List.pairwise_singleton _ _⟩
    repairs := fun hlt => absurd hlt (Nat.lt_irrefl _) }

/-- **Recovery from loss by later traffic.** A side that has written packets of which its peer
misses the newest ones writes more, at least one, no more than the history has room for, and so
that what its peer misses are fewer packets than there are labels. In every run without further
losses, once nothing is in flight, its peer was given every packet once and in order, and the
sequence numbers agree. -/
theorem recovered_by_later_writes (hcap : sfpConfigHistoryCapacity ≤ seqRange) {x : Side}
    {l : Line} (h : LeftBehind x l)
    {as : List (Action Request (List UInt8))} (has : ∀ a ∈ as, OneWriterLine x a)
    (hsome : as.flatMap (Action.written sfpParty x) ≠ [])
    (hfew : (l.wrote x).length + (as.flatMap (Action.written sfpParty x)).length
      ≤ (l.got x.peer).length + sfpConfigHistoryCapacity)
    (hlabels : (l.wrote x).length + (as.flatMap (Action.written sfpParty x)).length
      < (l.got x.peer).length + seqRange) :
    let stop := run (Link.step sfpParty) l as
    (∀ y, stop.chan y = []) →
      stop.got x.peer = l.wrote x ++ as.flatMap (Action.written sfpParty x) ∧
      (stop.node x).tx.seq = (stop.node x.peer).rx.seq := by
  intro stop hempty
  have hgood : sfpAbstraction.GoodLink l := by
    refine ⟨h.onLine, ?_⟩
    intro y p hp
    rw [h.empty] at hp
    cases hp
  have hactions : Lib.Meets (Link.step sfpParty) (fun _ a => sfpAbstraction.GoodAction a) l as :=
    Lib.meets_of_forall fun a ha => (has a ha).goodAction
  have hwriter : ∀ a ∈ as.map sfpAbstraction.action, OneWriter x a := by
    intro a ha
    obtain ⟨b, hb, rfl⟩ := List.mem_map.mp ha
    exact oneWriter_iff.mpr (has b hb)
  have hwritten : (as.map sfpAbstraction.action).flatMap
        (Action.written (endpointParty (List UInt8) sfpConfigHistoryCapacity) x)
      = as.flatMap (Action.written sfpParty x) := by
    rw [List.flatMap_map]
    congr 1
    funext a
    exact sfpAbstraction.written_action a x
  have hroom := hwritten.symm ▸ hfew
  have hrange := hwritten.symm ▸ hlabels
  have hon : RecoveringOn sfpConfigHistoryCapacity (l.got x.peer).length (l.wrote x).length x
      (sfpAbstraction.link stop) := by
    rw [sfpAbstraction.link_run hgood hactions]
    refine recoveringOn_run hcap (h.recoveringOn ?_ ?_) hwriter hroom hrange
    · exact Nat.le_trans (Nat.le_add_right _ _) hfew
    · exact Nat.lt_of_le_of_lt (Nat.le_add_right _ _) hlabels
  have hmessages : ∀ y, (sfpAbstraction.link stop).messages y = [] :=
    fun y => sfpAbstraction.messages_link_of_nil (hempty y)
  obtain ⟨items, asked, low, hrecovering⟩ := hon
  rw [hmessages, hmessages] at hrecovering
  have hwrote : stop.wrote x = l.wrote x ++ as.flatMap (Action.written sfpParty x) :=
    Link.wrote_run sfpParty l as x
  -- at least one packet was written, so the gap is repairing itself
  have hmore : (l.wrote x).length < (stop.wrote x).length := by
    rw [hwrote, List.length_append]
    exact Nat.lt_add_of_pos_right (List.length_pos_of_ne_nil hsome)
  obtain ⟨hall, hseq⟩ := hrecovering.done hmore
  exact ⟨hall.trans hwrote, UInt8.toNat_inj.mp hseq⟩

end Libsfp

namespace Libsfp

open Lib (Side Action Link run)

section HeaderDefaults

attribute [local instance] headerDefaults

/-- The line on which the only packet of the left side was lost. -/
def lostLine : Line :=
  run (Link.step sfpParty) (sessionStart fun _ => SFPcontext.zero)
    [writeOctet .left 0, .lose .right 0]

theorem goodLink_lostLine : sfpAbstraction.GoodLink lostLine :=
  sfpAbstraction.good_step
    (sfpAbstraction.good_step (goodLink_sessionStart fun _ => SFPcontext.zero)
      (a := writeOctet .left 0) trivial)
    (a := .lose .right 0) trivial

theorem leftBehind_lostLine : LeftBehind .left lostLine where
  onLine := goodLink_lostLine.node
  connected := by
    intro y
    cases y with
    | left => decide +kernel
    | right => decide +kernel
  empty := by
    intro y
    cases y with
    | left => decide +kernel
    | right => decide +kernel
  got := by decide +kernel
  rxSeq := by decide +kernel
  txSeq := by decide +kernel
  history := by decide +kernel

/-- The next packet is refused, and both are sent again. -/
def laterRun : List (Action Request (List UInt8)) :=
  [writeOctet .left 1, .deliver .right, .deliver .left, .deliver .right, .deliver .right]

theorem recovered_by_later_writes_one :
    (run (Link.step sfpParty) lostLine laterRun).got .right = [[0], [1]] := by
  have hempty : ∀ y, (run (Link.step sfpParty) lostLine laterRun).chan y = [] := by
    intro y
    cases y with
    | left => decide +kernel
    | right => decide +kernel
  have hwriter : ∀ a ∈ laterRun, OneWriterLine .left a := by
    intro a ha
    simp only [laterRun, List.mem_cons, List.not_mem_nil, or_false] at ha
    rcases ha with rfl | rfl | rfl | rfl | rfl
    · rfl
    all_goals trivial
  have hrecovered := (recovered_by_later_writes (by decide) leftBehind_lostLine hwriter
    (by decide +kernel) (by decide +kernel) (by decide +kernel) hempty).1
  exact hrecovered.trans (by decide +kernel)

end HeaderDefaults

/-! ## As many packets as there are labels -/

section FullHistory

/-- A build with a history of 64 packets. -/
@[reducible] def fullHistory : SfpConfig := { headerDefaults with
  historyCapacity := 64
  historyCapacity_pos := by decide }

attribute [local instance] fullHistory

theorem three_le_fullHistory : 3 ≤ fullHistory.maxPacketSize := by decide

/-- A packet of one octet, written in that build. -/
def writeFull (x : Side) (octet : UInt8) : Action Request (List UInt8) :=
  .request x (.write (.replicate _ 0) [octet] three_le_fullHistory)

/-- 63 packets are written and lost. -/
def lostRun : List (Action Request (List UInt8)) :=
  (List.range 63).flatMap fun n => [writeFull .left (.ofNat n), .lose .right 0]

/-- The next packet is the 64th: its label is the last one, and the `NAK` that it provokes asks for
the label that comes next. -/
def lastRun : List (Action Request (List UInt8)) :=
  [writeFull .left 63, .deliver .right, .deliver .left]

/-- The line after that loss. -/
def lostHistoryLine : Line :=
  run (Link.step sfpParty) (sessionStart fun _ => SFPcontext.zero) lostRun

theorem goodAction_lostRun : ∀ a ∈ lostRun, sfpAbstraction.GoodAction a := by
  intro a ha
  obtain ⟨n, -, ha⟩ := List.mem_flatMap.mp ha
  simp only [List.mem_cons, List.not_mem_nil, or_false] at ha
  rcases ha with rfl | rfl
  · trivial
  · trivial

/-- Seen as endpoints, the loss can be evaluated. -/
theorem link_lostHistoryLine :
    sfpAbstraction.link lostHistoryLine
      = run (Link.step (endpointParty (List UInt8) sfpConfigHistoryCapacity))
          (sfpAbstraction.link (sessionStart fun _ => SFPcontext.zero))
          (lostRun.map sfpAbstraction.action) :=
  sfpAbstraction.link_run (goodLink_sessionStart _) (Lib.meets_of_forall goodAction_lostRun)

theorem goodLink_lostHistoryLine : sfpAbstraction.GoodLink lostHistoryLine := by
  have hactions : Lib.Meets (Link.step sfpParty) (fun _ a => sfpAbstraction.GoodAction a)
      (sessionStart fun _ => SFPcontext.zero) lostRun :=
    Lib.meets_of_forall goodAction_lostRun
  have hstep : ∀ (l : Line) a, sfpAbstraction.GoodLink l → sfpAbstraction.GoodAction a →
      sfpAbstraction.GoodLink (l.step sfpParty a) :=
    fun _ _ hl ha => sfpAbstraction.good_step hl ha
  rw [lostHistoryLine]
  exact Lib.run_invariant hstep (goodLink_sessionStart _) hactions

theorem leftBehind_lostHistoryLine : LeftBehind .left lostHistoryLine := by
  constructor
  · exact goodLink_lostHistoryLine.node
  · intro y
    rw [← connectState_link, link_lostHistoryLine]
    cases y <;> decide +kernel
  · intro y
    rw [← sfpAbstraction.chan_link_eq_nil, link_lostHistoryLine]
    cases y <;> decide +kernel
  · rw [← sfpAbstraction.got_link, ← sfpAbstraction.wrote_link, link_lostHistoryLine]
    decide +kernel
  · rw [← rxSeq_link, ← sfpAbstraction.got_link, link_lostHistoryLine]
    decide +kernel
  · rw [← txSeq_link, ← sfpAbstraction.wrote_link, link_lostHistoryLine]
    decide +kernel
  · rw [← history_link, ← sfpAbstraction.got_link, ← sfpAbstraction.wrote_link,
      link_lostHistoryLine]
    decide +kernel

/-- All 64 packets fit the history and nothing is lost any more, but none of them arrives. -/
theorem full_history_recovers_nothing :
    let stop := run (Link.step sfpParty) lostHistoryLine lastRun
    LeftBehind .left lostHistoryLine ∧ (∀ a ∈ lastRun, OneWriterLine .left a) ∧
      lastRun.flatMap (Action.written sfpParty .left) ≠ [] ∧
      (lostHistoryLine.wrote .left).length
          + (lastRun.flatMap (Action.written sfpParty .left)).length
        ≤ (lostHistoryLine.got .right).length + sfpConfigHistoryCapacity ∧
      (∀ y, stop.chan y = []) ∧ stop.got .right = [] := by
  have hwriter : ∀ a ∈ lastRun, OneWriterLine .left a := oneWriter_of_all (by decide +kernel)
  have hrun := sfpAbstraction.link_run goodLink_lostHistoryLine
    (Lib.meets_of_forall fun a ha => (hwriter a ha).goodAction)
  refine ⟨leftBehind_lostHistoryLine, hwriter, by decide +kernel, ?_, ?_, ?_⟩
  · rw [← sfpAbstraction.got_link, ← sfpAbstraction.wrote_link, link_lostHistoryLine]
    decide +kernel
  · intro y
    rw [← sfpAbstraction.chan_link_eq_nil, hrun, link_lostHistoryLine]
    cases y <;> decide +kernel
  · rw [← sfpAbstraction.got_link, hrun, link_lostHistoryLine]
    decide +kernel

end FullHistory

end Libsfp
