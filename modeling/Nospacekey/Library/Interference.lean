import Nospacekey.Library.Runs

/-! Runs that answer as they go, and operations that nobody else can tell have happened. -/

namespace Interference

open Runs

variable {σ ε ρ : Type*} (step : σ → ε → σ × Option ρ)

/-- The state after one operation, whatever is answered. -/
def apply (state : σ) (op : ε) : σ := (step state op).1

/-- What is answered over a run. -/
def answers : σ → List ε → List ρ
  | _, [] => []
  | state, op :: ops => (step state op).2.toList ++ answers (step state op).1 ops

/-- Two runs that differ only in operations that are slight where they happen. -/
inductive DifferIn (slight : σ → ε → Prop) : σ → σ → List ε → List ε → Prop
  | nil (s t : σ) : DifferIn slight s t [] []
  | both {s t : σ} {op : ε} {ops others : List ε} (rest : DifferIn slight (apply step s op) (apply step t op) ops others) :
    DifferIn slight s t (op :: ops) (op :: others)
  | left {s t : σ} {op : ε} {ops others : List ε} (small : slight s op)
    (rest : DifferIn slight (apply step s op) t ops others) : DifferIn slight s t (op :: ops) others
  | right {s t : σ} {op : ε} {ops others : List ε} (small : slight t op)
    (rest : DifferIn slight s (apply step t op) ops others) : DifferIn slight s t ops (op :: others)

variable {step}

/-- Where slight operations change no state and answer nothing that an observer sees, runs that differ only
in them look the same to the observer. -/
theorem DifferIn.unseen {slight : σ → ε → Prop} {sees : ρ → Bool}
    (silent : ∀ state op, slight state op →
      apply step state op = state ∧ ∀ answer ∈ (step state op).2, sees answer = false)
    {s t : σ} {ops others : List ε} (differ : DifferIn step slight s t ops others) (same : s = t) :
    (answers step s ops).filter sees = (answers step t others).filter sees := by
  -- A slight operation adds nothing to what is seen and leaves the runs in one state.
  have hidden : ∀ state op, slight state op → (step state op).2.toList.filter sees = [] := by
    intro state op small
    refine List.filter_eq_nil_iff.mpr fun answer member => ?_
    simp [(silent state op small).2 answer (Option.mem_toList.mp member)]
  induction differ with
  | nil s t => rfl
  | both rest ih =>
    subst same
    rw [answers, answers, List.filter_append, List.filter_append]
    exact congrArg _ (ih rfl)
  | left small rest ih =>
    rw [answers, List.filter_append, hidden _ _ small, List.nil_append]
    exact ih ((silent _ _ small).1.trans same)
  | right small rest ih =>
    rw [answers, List.filter_append, hidden _ _ small, List.nil_append]
    exact ih (same.trans (silent _ _ small).1.symm)

end Interference
