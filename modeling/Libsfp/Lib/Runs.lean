import Mathlib.Data.Fintype.Basic
import Mathlib.Data.Finset.Lattice.Fold
import Mathlib.Order.WellFounded

/-!
# Runs of a Deterministic Machine

A machine is a step function `step : σ → α → σ`: one action of the environment takes a state to
the next one. A run is a list of actions. This module fixes what it means that every step of a run
meets a condition, and gives the three rules the protocol proofs are assembled from:

1. an invariant preserved by every admitted step holds at the end of every admitted run,
2. a step-by-step simulation carries whole runs, and their conditions, to the abstract machine,
3. a well-founded measure that every enabled action decreases bounds the length of every run.
-/

namespace Libsfp.Lib

variable {σ τ α β : Type*}

/-- The state after a list of actions. -/
def run (step : σ → α → σ) (s : σ) (as : List α) : σ :=
  as.foldl step s

@[simp] theorem run_nil (step : σ → α → σ) (s : σ) : run step s [] = s := rfl

@[simp] theorem run_cons (step : σ → α → σ) (s : σ) (a : α) (as : List α) :
    run step s (a :: as) = run step (step s a) as := rfl

/-- A run can be cut anywhere. -/
theorem run_append (step : σ → α → σ) (s : σ) (as bs : List α) :
    run step s (as ++ bs) = run step (run step s as) bs := by
  simp [run]

/-- Every step of the run meets `P`, a condition on the state before the step and the action. -/
def Meets (step : σ → α → σ) (P : σ → α → Prop) : σ → List α → Prop
  | _, [] => True
  | s, a :: as => P s a ∧ Meets step P (step s a) as

/-- A run on fixed inputs can be checked. -/
instance Meets.decidable (step : σ → α → σ) (P : σ → α → Prop) [∀ s a, Decidable (P s a)] :
    ∀ (s : σ) (as : List α), Decidable (Meets step P s as)
  | _, [] => isTrue trivial
  | s, a :: as =>
    have := Meets.decidable step P (step s a) as
    inferInstanceAs (Decidable (P s a ∧ Meets step P (step s a) as))

section Invariants

variable {step : σ → α → σ} {P Q : σ → α → Prop} {Inv : σ → Prop}

/-- A weaker condition is met as well. -/
theorem Meets.mono (h : ∀ s a, P s a → Q s a) {s : σ} {as : List α}
    (hm : Meets step P s as) : Meets step Q s as := by
  induction as generalizing s with
  | nil => trivial
  | cons a as ih => exact ⟨h s a hm.1, ih hm.2⟩

/-- Two conditions that are met are met together. -/
theorem Meets.and {s : σ} {as : List α} (hP : Meets step P s as) (hQ : Meets step Q s as) :
    Meets step (fun s a => P s a ∧ Q s a) s as := by
  induction as generalizing s with
  | nil => trivial
  | cons a as ih => exact ⟨⟨hP.1, hQ.1⟩, ih hP.2 hQ.2⟩

/-- A condition on the actions alone is met by every run made of such actions. -/
theorem meets_of_forall {A : α → Prop} {s : σ} {as : List α} (h : ∀ a ∈ as, A a) :
    Meets step (fun _ a => A a) s as := by
  induction as generalizing s with
  | nil => trivial
  | cons a as ih => exact ⟨h a (by simp), ih (fun b hb => h b (by simp [hb]))⟩

/-- A run meets a condition when both of its parts do. -/
theorem meets_append {s : σ} {as bs : List α} :
    Meets step P s (as ++ bs) ↔ Meets step P s as ∧ Meets step P (run step s as) bs := by
  induction as generalizing s with
  | nil => simp [Meets]
  | cons a as ih => simp [Meets, ih, and_assoc]

/-- **Invariant rule**: what every admitted step preserves, every admitted run preserves. -/
theorem run_invariant (hstep : ∀ s a, Inv s → P s a → Inv (step s a)) {s : σ} {as : List α}
    (hs : Inv s) (hm : Meets step P s as) : Inv (run step s as) := by
  induction as generalizing s with
  | nil => exact hs
  | cons a as ih => exact ih (hstep s a hs hm.1) hm.2

/-- Invariant rule for runs without a side condition. -/
theorem run_invariant_of_step (hstep : ∀ s a, Inv s → Inv (step s a)) {s : σ} (as : List α)
    (hs : Inv s) : Inv (run step s as) := by
  induction as generalizing s with
  | nil => exact hs
  | cons a as ih => exact ih (hstep s a hs)

end Invariants

section Simulation

variable {step : σ → α → σ} {step' : τ → β → τ} {abs : σ → τ} {absA : α → β} {Good : σ → Prop}
  {P : σ → α → Prop}

/-- **Simulation rule**: if each admitted step from a good state commutes with the abstraction, so
does every admitted run. -/
theorem run_simulates (hgood : ∀ s a, Good s → P s a → Good (step s a))
    (hsim : ∀ s a, Good s → P s a → abs (step s a) = step' (abs s) (absA a)) {s : σ}
    {as : List α} (hs : Good s) (hm : Meets step P s as) :
    abs (run step s as) = run step' (abs s) (as.map absA) := by
  induction as generalizing s with
  | nil => rfl
  | cons a as ih =>
    -- the first step commutes, the rest by induction from the good state behind it
    rw [run_cons, ih (hgood s a hs hm.1) hm.2, hsim s a hs hm.1, List.map_cons, run_cons]

/-- Simulation rule where a step stands for any number of abstract ones, none included. -/
theorem run_simulates_flatMap {absAs : α → List β} (hgood : ∀ s a, Good s → Good (step s a))
    (hsim : ∀ s a, Good s → abs (step s a) = run step' (abs s) (absAs a)) {s : σ} (hs : Good s)
    (as : List α) : abs (run step s as) = run step' (abs s) (as.flatMap absAs) := by
  induction as generalizing s with
  | nil => rfl
  | cons a as ih =>
    rw [run_cons, ih (hgood s a hs), hsim s a hs, List.flatMap_cons, run_append]

/-- Conditions on the steps are carried along a simulation. -/
theorem meets_simulates {Q : σ → α → Prop} {Q' : τ → β → Prop}
    (hgood : ∀ s a, Good s → P s a → Good (step s a))
    (hsim : ∀ s a, Good s → P s a → abs (step s a) = step' (abs s) (absA a))
    (hQ : ∀ s a, Good s → P s a → Q s a → Q' (abs s) (absA a)) {s : σ} {as : List α}
    (hs : Good s) (hm : Meets step P s as) (hq : Meets step Q s as) :
    Meets step' Q' (abs s) (as.map absA) := by
  induction as generalizing s with
  | nil => trivial
  | cons a as ih =>
    refine ⟨hQ s a hs hm.1 hq.1, ?_⟩
    rw [← hsim s a hs hm.1]
    exact ih (hgood s a hs hm.1) hm.2 hq.2

/-- Conditions that the abstract run meets are met by the run itself. -/
theorem meets_of_simulates {Q : σ → α → Prop} {Q' : τ → β → Prop}
    (hgood : ∀ s a, Good s → P s a → Good (step s a))
    (hsim : ∀ s a, Good s → P s a → abs (step s a) = step' (abs s) (absA a))
    (hQ : ∀ s a, Good s → P s a → Q' (abs s) (absA a) → Q s a) {s : σ} {as : List α}
    (hs : Good s) (hm : Meets step P s as) (hq : Meets step' Q' (abs s) (as.map absA)) :
    Meets step Q s as := by
  induction as generalizing s with
  | nil => trivial
  | cons a as ih =>
    obtain ⟨hfirst, hrest⟩ := hq
    refine ⟨hQ s a hs hm.1 hfirst, ?_⟩
    -- the abstract rest starts where the abstraction of the step ends
    rw [← hsim s a hs hm.1] at hrest
    exact ih (hgood s a hs hm.1) hm.2 hrest

end Simulation

/-! ## Costs and termination -/

/-- What the actions of a run cost together, if the action `a` costs `w s a` in the state `s`. -/
def cost (step : σ → α → σ) (w : σ → α → Nat) : σ → List α → Nat
  | _, [] => 0
  | s, a :: as => w s a + cost step w (step s a) as

section Costs

variable {step : σ → α → σ} {w : σ → α → Nat}

@[simp] theorem cost_nil (s : σ) : cost step w s [] = 0 := rfl

@[simp] theorem cost_cons (s : σ) (a : α) (as : List α) :
    cost step w s (a :: as) = w s a + cost step w (step s a) as := rfl

/-- The cost of a run is that of its parts. -/
theorem cost_append (s : σ) (as bs : List α) :
    cost step w s (as ++ bs) = cost step w s as + cost step w (run step s as) bs := by
  induction as generalizing s with
  | nil => simp
  | cons a as ih => simp [ih, Nat.add_assoc]

/-- A run of free actions is free. -/
theorem cost_eq_zero_of_meets {s : σ} {as : List α}
    (h : Meets step (fun s a => w s a = 0) s as) : cost step w s as = 0 := by
  induction as generalizing s with
  | nil => rfl
  | cons a as ih => rw [cost_cons, h.1, ih h.2]

/-- An action that leaves the state alone costs the same each time. -/
theorem cost_replicate {s : σ} {a : α} (h : step s a = s) (n : Nat) :
    cost step w s (List.replicate n a) = n * w s a := by
  induction n with
  | zero => simp
  | succ n ih => rw [List.replicate_succ, cost_cons, h, ih, Nat.succ_mul, Nat.add_comm]

end Costs

/-- **Termination rule**: with finitely many actions, a well-founded measure that every enabled
action decreases bounds the length of every run of enabled actions. -/
theorem exists_run_bound [Fintype α] {step : σ → α → σ} {enabled : σ → α → Prop} {Inv : σ → Prop}
    {μ : Type*} {r : μ → μ → Prop} (hwf : WellFounded r) (m : σ → μ)
    (hinv : ∀ s a, Inv s → enabled s a → Inv (step s a))
    (hdec : ∀ s a, Inv s → enabled s a → r (m (step s a)) (m s)) {s : σ} (hs : Inv s) :
    ∃ n, ∀ as, Meets step enabled s as → as.length ≤ n := by
  induction hm : m s using hwf.induction generalizing s with
  | _ k ih =>
    subst hm
    -- a bound for each enabled first action; the others never start a run
    have hnext : ∀ a, ∃ n, enabled s a →
        ∀ as, Meets step enabled (step s a) as → as.length ≤ n := by
      intro a
      by_cases ha : enabled s a
      · obtain ⟨n, hn⟩ := ih _ (hdec s a hs ha) (hinv s a hs ha) rfl
        exact ⟨n, fun _ => hn⟩
      · exact ⟨0, fun h => absurd h ha⟩
    choose bound hbound using hnext
    refine ⟨Finset.univ.sup bound + 1, ?_⟩
    intro as has
    cases as with
    | nil => simp
    | cons a as =>
      have hlen := hbound a has.1 as has.2
      have hsup : bound a ≤ Finset.univ.sup bound := Finset.le_sup (Finset.mem_univ a)
      rw [List.length_cons]
      exact Nat.succ_le_succ (Nat.le_trans hlen hsup)

end Libsfp.Lib
