import Mathlib.Data.List.Basic

/-! Finite runs of a deterministic machine and the induction rules for what they preserve. -/

namespace Runs

variable {σ ε : Type*}

/-- The state reached by performing a list of operations from left to right. -/
def exec (apply : σ → ε → σ) (state : σ) (ops : List ε) : σ := ops.foldl apply state

/-- Performing nothing changes nothing. -/
@[simp] theorem exec_nil (apply : σ → ε → σ) (state : σ) : exec apply state [] = state := rfl

/-- A run performs its first operation and then the rest. -/
@[simp] theorem exec_cons (apply : σ → ε → σ) (state : σ) (op : ε) (ops : List ε) :
    exec apply state (op :: ops) = exec apply (apply state op) ops := rfl

/-- Runs compose. -/
theorem exec_append (apply : σ → ε → σ) (state : σ) (front back : List ε) :
    exec apply state (front ++ back) = exec apply (exec apply state front) back := by
  simp [exec, List.foldl_append]

/-- Every operation of the run is admissible in the state it meets. -/
def Admissible (apply : σ → ε → σ) (allowed : σ → ε → Prop) : σ → List ε → Prop
  | _, [] => True
  | state, op :: ops => allowed state op ∧ Admissible apply allowed (apply state op) ops

/-- A run is admissible when both of its parts are. -/
theorem admissible_append {apply : σ → ε → σ} {allowed : σ → ε → Prop} {state : σ}
    {front back : List ε} :
    Admissible apply allowed state (front ++ back) ↔
      Admissible apply allowed state front ∧
        Admissible apply allowed (exec apply state front) back := by
  -- The second part is judged from the state the first one reaches.
  induction front generalizing state with
  | nil => simp [Admissible]
  | cons op ops ih => simp [Admissible, ih, and_assoc]

/-- An operation-wise restriction holds along every run made of such operations. -/
theorem admissible_of_forall {apply : σ → ε → σ} {allowed : ε → Prop} {ops : List ε}
    (all : ∀ op ∈ ops, allowed op) (state : σ) :
    Admissible apply (fun _ op => allowed op) state ops := by
  induction ops generalizing state with
  | nil => trivial
  | cons op ops ih =>
    exact ⟨all op (by simp), ih (fun op member => all op (by simp [member])) _⟩

/-- What holds initially and is preserved by each admissible operation holds after every run. -/
theorem exec_invariant {apply : σ → ε → σ} {allowed : σ → ε → Prop} (invariant : σ → Prop)
    (preserved : ∀ state op, invariant state → allowed state op → invariant (apply state op))
    {state : σ} (initially : invariant state) {ops : List ε}
    (admissible : Admissible apply allowed state ops) : invariant (exec apply state ops) := by
  -- The invariant is carried across one operation at a time.
  induction ops generalizing state with
  | nil => exact initially
  | cons op ops ih => exact ih (preserved state op initially admissible.1) admissible.2

/-- The unrestricted form of the invariant rule. -/
theorem exec_invariant_all {apply : σ → ε → σ} (invariant : σ → Prop)
    (preserved : ∀ state op, invariant state → invariant (apply state op)) {state : σ}
    (initially : invariant state) (ops : List ε) : invariant (exec apply state ops) := by
  induction ops generalizing state with
  | nil => exact initially
  | cons op ops ih => exact ih (preserved state op initially)

/-- When an operation that is not admissible always spoils the state, the admissible runs are those
that meet only good states. -/
theorem admissible_iff_forall_front {apply : σ → ε → σ} {allowed : σ → ε → Prop} {invariant good : σ → Prop}
    (preserved : ∀ state op, invariant state → allowed state op → invariant (apply state op))
    (sound : ∀ state, invariant state → good state)
    (spoiled : ∀ state op, invariant state → ¬ allowed state op → ¬ good (apply state op))
    {state : σ} (initially : invariant state) (ops : List ε) :
    (∀ front, front <+: ops → good (exec apply state front)) ↔ Admissible apply allowed state ops := by
  induction ops generalizing state with
  | nil =>
    refine ⟨fun _ => trivial, fun _ front part => ?_⟩
    rw [List.prefix_nil.mp part]
    exact sound state initially
  | cons op ops ih =>
    constructor
    · intro all
      have first : good (apply state op) := all [op] (List.prefix_iff_eq_append.mpr rfl)
      have admissible : allowed state op := by
        by_contra refused
        exact spoiled state op initially refused first
      refine ⟨admissible, (ih (preserved state op initially admissible)).mp fun front part => ?_⟩
      exact all (op :: front) (List.cons_prefix_cons.mpr ⟨rfl, part⟩)
    · intro admissible front part
      cases front with
      | nil => exact sound state initially
      | cons first front =>
        obtain ⟨rfl, rest⟩ := List.cons_prefix_cons.mp part
        exact (ih (preserved state first initially admissible.1)).mpr admissible.2 front rest

end Runs
