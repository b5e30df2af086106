import Mathlib.Data.List.Basic

/-!
# Octet Stuffing

Transparent framing over an arbitrary alphabet: a `flag` symbol delimits frames, an `esc` symbol
announces that the next symbol was flipped, and the two reserved symbols never occur raw inside a
frame.

The receiving direction is defined for *every* input, not only for what `stuff` produces: stray,
doubled and trailing escapes are given the meaning a one-bit escape state gives them.
-/

namespace Libsfp.Lib

/-- A stuffing discipline: two reserved symbols and the flip that hides them. -/
structure Stuffing (α : Type*) where
  esc : α
  flag : α
  /-- The transformation applied to the symbol after an escape. -/
  flip : α → α
  esc_ne_flag : esc ≠ flag
  flip_flip : ∀ a, flip (flip a) = a
  flip_esc_ne_esc : flip esc ≠ esc
  flip_esc_ne_flag : flip esc ≠ flag
  flip_flag_ne_flag : flip flag ≠ flag

namespace Stuffing

variable {α : Type*} (S : Stuffing α)

/-- A flipped delimiter is no escape either, since flipping is its own inverse. -/
theorem flip_flag_ne_esc : S.flip S.flag ≠ S.esc := by
  intro h
  have hflip : S.flip S.esc = S.flag := by rw [← h, S.flip_flip]
  exact S.flip_esc_ne_flag hflip

variable [DecidableEq α]

/-! ## Stuffing -/

/-- The symbols sent for one symbol of content. -/
def stuffOne (a : α) : List α :=
  if a = S.esc ∨ a = S.flag then [S.esc, S.flip a] else [a]

/-- The symbols sent for a whole content. -/
def stuff (l : List α) : List α :=
  l.flatMap S.stuffOne

@[simp] theorem stuff_nil : S.stuff [] = [] := rfl

@[simp] theorem stuff_cons (a : α) (l : List α) :
    S.stuff (a :: l) = S.stuffOne a ++ S.stuff l := rfl

/-- Contents are stuffed piece by piece. -/
@[simp] theorem stuff_append (l k : List α) :
    S.stuff (l ++ k) = S.stuff l ++ S.stuff k := by
  simp [stuff]

/-- What is sent for one symbol never contains the frame delimiter. -/
theorem flag_notMem_stuffOne (a : α) : S.flag ∉ S.stuffOne a := by
  unfold stuffOne
  split
  -- a reserved symbol is sent behind an escape, flipped
  next h =>
    have hesc : S.flag ≠ S.esc := S.esc_ne_flag.symm
    rcases h with rfl | rfl
    · simp [hesc, S.flip_esc_ne_flag.symm]
    · simp [hesc, S.flip_flag_ne_flag.symm]
  next h =>
    have hne : a ≠ S.flag := fun ha => h (Or.inr ha)
    simp [hne.symm]

/-- A stuffed content never contains the frame delimiter. -/
theorem flag_notMem_stuff (l : List α) : S.flag ∉ S.stuff l := by
  intro h
  obtain ⟨a, _, ha⟩ := List.mem_flatMap.mp h
  exact S.flag_notMem_stuffOne a ha

/-- Something is sent for every content but the empty one. -/
theorem stuff_ne_nil {l : List α} (h : l ≠ []) : S.stuff l ≠ [] := by
  cases l with
  | nil => exact absurd rfl h
  | cons a l =>
    rw [stuff_cons]
    unfold stuffOne
    split <;> simp

/-! ## Unstuffing -/

/-- The content of a received segment. The flag says whether an escape is pending: every escape
is dropped, a run of escapes flips the symbol after it, a trailing run means nothing. -/
def unstuff : Bool → List α → List α
  | _, [] => []
  | escaping, a :: l =>
    if a = S.esc then unstuff true l
    else (if escaping then S.flip a else a) :: unstuff false l

@[simp] theorem unstuff_nil (e : Bool) : S.unstuff e [] = [] := rfl

/-- Every escape is dropped. -/
theorem unstuff_esc (e : Bool) (l : List α) :
    S.unstuff e (S.esc :: l) = S.unstuff true l := by
  simp [unstuff]

/-- Any other symbol is kept, flipped if an escape is pending. -/
theorem unstuff_cons {a : α} (ha : a ≠ S.esc) (e : Bool) (l : List α) :
    S.unstuff e (a :: l) = (if e then S.flip a else a) :: S.unstuff false l := by
  simp [unstuff, ha]

/-- What is sent for one symbol is read back as that symbol. -/
theorem unstuff_stuffOne (a : α) (k : List α) :
    S.unstuff false (S.stuffOne a ++ k) = a :: S.unstuff false k := by
  unfold stuffOne
  split
  next h =>
    -- the flipped symbol is not taken for another escape
    have hflip : S.flip a ≠ S.esc := by
      rcases h with rfl | rfl
      · exact S.flip_esc_ne_esc
      · exact S.flip_flag_ne_esc
    simp [unstuff, hflip, S.flip_flip]
  next h =>
    have hesc : a ≠ S.esc := fun ha => h (Or.inl ha)
    simp [unstuff, hesc]

/-- **Round trip**: unstuffing recovers exactly the content that was stuffed. -/
theorem unstuff_stuff (l : List α) : S.unstuff false (S.stuff l) = l := by
  induction l with
  | nil => rfl
  | cons a l ih => rw [stuff_cons, unstuff_stuffOne, ih]

/-- Whoever starts to listen in the middle of a content gets no more than is left of it. -/
theorem length_unstuff_suffix {l t : List α} (h : t <:+ S.stuff l) :
    (S.unstuff false t).length ≤ l.length := by
  induction l generalizing t with
  | nil =>
    rw [List.suffix_nil.mp h]
    exact Nat.le_refl _
  | cons a l ih =>
    -- after the escape comes a symbol that is none
    have hshort : ∀ b, b ≠ S.esc → t <:+ b :: S.stuff l →
        (S.unstuff false t).length ≤ l.length + 1 := by
      intro b hb ht
      rcases List.suffix_cons_iff.mp ht with rfl | ht
      · rw [S.unstuff_cons hb, S.unstuff_stuff]
        exact Nat.le_refl _
      · exact Nat.le_succ_of_le (ih ht)
    rw [stuff_cons, stuffOne] at h
    split at h
    next hreserved =>
      rcases List.suffix_cons_iff.mp h with rfl | ht
      · -- nothing was missed: that is the round trip
        have hwhole : S.esc :: ([S.flip a] ++ S.stuff l) = S.stuff (a :: l) := by
          rw [stuff_cons, stuffOne, if_pos hreserved]
          rfl
        have hround := S.unstuff_stuff (a :: l)
        rw [← hwhole] at hround
        exact Nat.le_of_eq (congrArg List.length hround)
      · apply hshort (S.flip a) _ ht
        rcases hreserved with rfl | rfl
        · exact S.flip_esc_ne_esc
        · exact S.flip_flag_ne_esc
    next hplain => exact hshort a (fun ha => hplain (Or.inl ha)) h

/-! ## Segments -/

/-- The segments of a symbol string that are closed by a flag, in order. What follows the last
flag is not a segment yet. -/
def segments (l : List α) : List (List α) :=
  (l.splitOn S.flag).dropLast

/-- The frames on a wire: the nonempty segments between flags. -/
def frames (l : List α) : List (List α) :=
  (S.segments l).filter (fun s => !s.isEmpty)

@[simp] theorem segments_nil : S.segments [] = [] := by
  simp [segments]

/-- A flag closes the segment in front of it. -/
theorem segments_closed {s : List α} (hs : S.flag ∉ s) (l : List α) :
    S.segments (s ++ S.flag :: l) = s :: S.segments l := by
  unfold segments
  rw [List.splitOn_append_cons_self_of_not_mem hs,
    List.dropLast_cons_of_ne_nil (List.splitOn_ne_nil _ _)]

/-- Without a flag there is no segment. -/
theorem segments_open {s : List α} (hs : S.flag ∉ s) : S.segments s = [] := by
  simp [segments, List.splitOn_eq_singleton hs]

/-- Every string is a run of closed segments and an open rest: an induction on the segments. -/
theorem segments_induction {motive : List α → Prop} (hopen : ∀ s, S.flag ∉ s → motive s)
    (hclosed : ∀ s l, S.flag ∉ s → motive l → motive (s ++ S.flag :: l)) (l : List α) :
    motive l := by
  induction hn : l.length using Nat.strongRecOn generalizing l with
  | ind n ih =>
    by_cases hflag : S.flag ∈ l
    · obtain ⟨s, rest, rfl, hs⟩ := List.eq_append_cons_of_mem hflag
      -- the first flag closes a segment, and what follows is shorter
      have hlt : rest.length < n := by simp at hn; omega
      exact hclosed s rest hs (ih _ hlt rest rfl)
    · exact hopen l hflag

@[simp] theorem frames_nil : S.frames [] = [] := by simp [frames]

/-- A closed segment is a frame unless it is empty. -/
theorem frames_closed {s : List α} (hs : S.flag ∉ s) (l : List α) :
    S.frames (s ++ S.flag :: l) = (if s = [] then [] else [s]) ++ S.frames l := by
  unfold frames
  rw [S.segments_closed hs, List.filter_cons]
  cases s <;> simp

/-- One delimited frame in front of a string of delimited frames. -/
theorem frames_delimited {s : List α} (hs : S.flag ∉ s) (hne : s ≠ []) (l : List α) :
    S.frames (S.flag :: (s ++ S.flag :: l)) = s :: S.frames l := by
  -- the leading flag closes an empty segment, which is no frame
  have hopen : S.frames ([] ++ S.flag :: (s ++ S.flag :: l)) = S.frames (s ++ S.flag :: l) := by
    rw [S.frames_closed (by simp)]
    simp
  rw [List.nil_append] at hopen
  rw [hopen, S.frames_closed hs, if_neg hne]
  rfl

/-- The frames of a concatenation of delimited contents are those contents, stuffed. -/
theorem frames_flatMap_delimited (cs : List (List α)) (hcs : ∀ c ∈ cs, c ≠ []) :
    S.frames (cs.flatMap fun c => S.flag :: (S.stuff c ++ [S.flag])) = cs.map S.stuff := by
  induction cs with
  | nil => simp
  | cons c cs ih =>
    have hc : c ≠ [] := hcs c (by simp)
    have hrest := ih (fun d hd => hcs d (by simp [hd]))
    simp only [List.flatMap_cons, List.map_cons, List.cons_append, List.append_assoc,
      List.nil_append]
    rw [S.frames_delimited (S.flag_notMem_stuff c) (S.stuff_ne_nil hc), hrest]

end Stuffing

end Libsfp.Lib
