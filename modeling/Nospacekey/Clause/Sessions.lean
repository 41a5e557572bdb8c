import Nospacekey.Clause.Freshness

/-! Runs that remember the prepared rebaselines, in which no request id is ever answered twice. -/

namespace Nospacekey

open Runs

variable {τ : Type}

/-- A clause model with the rebaseline attempts that were prepared on it. -/
structure Session (τ : Type) where
  model : ClauseConversion τ
  attempts : List ClauseRebaseline

namespace ClauseConversion

/-- The rebaseline attempt that an operation prepares. -/
def prepared (m : ClauseConversion τ) : ClauseOp τ → Option ClauseRebaseline
  | .prepareRebaseline key snapshotRequestId convertRequestId now =>
    (m.prepareRebaseline key snapshotRequestId convertRequestId now).2
  | _ => none

end ClauseConversion

namespace Session

open ClauseConversion

variable [EngineToken τ]

/-- The session after one operation. -/
def apply (segmentation : Segmentation) (s : Session τ) (op : ClauseOp τ) : Session τ where
  model := s.model.apply segmentation op
  attempts := s.attempts ++ (s.model.prepared op).toList

/-- A rebaseline reply comes with an attempt that was prepared in this session. -/
def Admits (s : Session τ) : ClauseOp τ → Prop
  | .acceptRebaseline attempt _ _ _ => attempt ∈ s.attempts
  | _ => True

omit [EngineToken τ] in
/-- A prepared attempt is for a request that is waited for, and reserves the last id. -/
theorem prepareRebaseline_some (m : ClauseConversion τ) (key : ClauseRequestKey)
    (snapshotRequestId convertRequestId now : Nat) {attempt : ClauseRebaseline} :
    (m.prepareRebaseline key snapshotRequestId convertRequestId now).2 = some attempt →
      m.Outstanding attempt.original.request.key.requestId ∧
        m.lastRequestId < attempt.convertRequestId ∧
        (m.prepareRebaseline key snapshotRequestId convertRequestId now).1.lastRequestId =
          attempt.convertRequestId := by
  unfold prepareRebaseline
  dsimp only
  split
  · intro found; cases found
  rename_i original pending
  split
  · intro found; cases found
  rename_i admitted
  simp only [Bool.or_eq_true, decide_eq_true_eq, not_or, Nat.not_le, ne_eq, not_not] at admitted
  split
  · intro found; cases found
  intro found
  obtain rfl := Option.some.inj found
  refine ⟨?_, by dsimp only; omega, rfl⟩
  split at pending
  · exact .inr ⟨original, pending, rfl⟩
  · rw [← admitted.1.1.1.1.1.1.1.1] at pending
    exact .inl ⟨original, pending⟩

/-- A prepared attempt is for a request that is waited for, and reserves an id up to the last one. -/
theorem prepared_spec (segmentation : Segmentation) {m : ClauseConversion τ} {op : ClauseOp τ}
    {attempt : ClauseRebaseline} (found : m.prepared op = some attempt) :
    m.Outstanding attempt.original.request.key.requestId ∧ m.lastRequestId < attempt.convertRequestId ∧
      (m.apply segmentation op).lastRequestId = attempt.convertRequestId ∧
      ∀ id, (m.apply segmentation op).Outstanding id → m.Outstanding id := by
  unfold prepared at found
  split at found
  · rename_i key snapshotRequestId convertRequestId now
    obtain ⟨waited, above, last⟩ :=
      prepareRebaseline_some m key snapshotRequestId convertRequestId now found
    refine ⟨waited, above, last, fun id outstanding => ?_⟩
    have quiet := prepareRebaseline_quiet m key snapshotRequestId convertRequestId now
    exact outstanding.mono quiet.issued quiet.boundary
  · cases found

/-- Every id that has been waited for is settled: no attempt can bring it back any more. -/
def Settled (s : Session τ) (id : Nat) : Prop :=
  id ≤ s.model.lastRequestId ∧ ∀ attempt ∈ s.attempts, attempt.convertRequestId = id →
    ¬ s.model.Outstanding attempt.original.request.key.requestId

/-- The requests are numbered, attempts reserved later ids than they replace, and no id that is waited
for can be brought back by an attempt. -/
structure Kept (s : Session τ) : Prop where
  numbered : s.model.Numbered
  ordered : ∀ attempt ∈ s.attempts,
    attempt.original.request.key.requestId < attempt.convertRequestId ∧
      attempt.convertRequestId ≤ s.model.lastRequestId
  settled : ∀ id, s.model.Outstanding id → s.Settled id

section Steps

variable {s : Session τ} {op : ClauseOp τ} (segmentation : Segmentation)

/-- A step renumbers, or an accepted rebaseline leaves only the id it had reserved. -/
theorem step_cases (admits : s.Admits op) :
    Renumbers s.model (s.apply segmentation op).model ∨
      ∃ attempt ∈ s.attempts, s.model.Outstanding attempt.original.request.key.requestId ∧
        s.model.lastRequestId = attempt.convertRequestId ∧
        (s.apply segmentation op).attempts = s.attempts ∧
        (s.apply segmentation op).model.lastRequestId = s.model.lastRequestId ∧
        (∀ id, (s.apply segmentation op).model.Outstanding id → id = attempt.convertRequestId) ∧
        (s.apply segmentation op).model.Numbered := by
  by_cases free : ∀ id, ¬ Reserved op id
  · exact .inl ((apply_evolves segmentation s.model op (delivers_trivially s.model op)).renumbers free)
  cases op with
  | acceptRebaseline attempt response learning now =>
    rcases acceptRebaseline_cases s.model attempt response learning now with same | accepted
    · refine .inl (renumbers_of_withdrawn ?_ ?_ ?_ ?_) <;> simp [apply, ClauseConversion.apply, same]
    · obtain ⟨request, pending, found, ⟨sameRequest, _⟩, id, _, last, _, result⟩ := accepted
      have left := rebased_outstanding s.model attempt request learning
      have waited : s.model.Outstanding attempt.original.request.key.requestId := by
        split at found
        · exact .inr ⟨pending, found, by rw [sameRequest]⟩
        · exact .inl ⟨pending, found⟩
      have only : ∀ other, (s.model.rebased attempt request learning).Outstanding other →
          other = attempt.convertRequestId := by
        rintro other (⟨entry, found⟩ | ⟨entry, found, rfl⟩)
        · exact (left.1 other entry found).1.trans id
        · rw [left.2 entry found]; exact id
      refine .inr ⟨attempt, admits, waited, last, ?_, ?_, ?_, ?_⟩
      · simp [apply, prepared]
      · simp only [apply, ClauseConversion.apply, result, rebased]
        split <;> rfl
      · simpa only [apply, ClauseConversion.apply, result] using only
      · simp only [apply, ClauseConversion.apply, result]
        have lastId : (s.model.rebased attempt request learning).lastRequestId = s.model.lastRequestId := by
          unfold rebased; dsimp only; split <;> rfl
        have waits : (s.model.rebased attempt request learning).window.loadingKey = some request.key := by
          unfold rebased; rfl
        exact
          { issued := fun other entry found => by
              obtain ⟨same, rfl⟩ := left.1 other entry found
              exact same.symm
            apart := fun entry found => by
              unfold rebased at found ⊢
              cases boundary : attempt.boundary with
              | true => rfl
              | false => rw [boundary] at found; cases found
            below := fun other waited => by rw [only other waited, lastId, last]
            loading := fun key entry waiting found => by
              rw [waits] at waiting
              obtain rfl := Option.some.inj waiting
              rw [(left.1 _ entry found).2]
              rfl }
  | _ => exact absurd (fun _ held => held) free

/-- A settled id stays settled, and once it is not waited for any more, it never is again. -/
theorem step_settled (kept : s.Kept) (admits : s.Admits op) {id : Nat} (settled : s.Settled id) :
    (s.apply segmentation op).Settled id ∧
      (¬ s.model.Outstanding id → ¬ (s.apply segmentation op).model.Outstanding id) := by
  obtain ⟨bounded, barred⟩ := settled
  rcases step_cases segmentation admits with renumbers | ⟨chosen, member, waited, last, same, last', only, _⟩
  · have onward := renumbers.last
    refine ⟨⟨le_trans bounded onward, ?_⟩, ?_⟩
    · intro attempt inAttempts reserved outstanding
      rcases List.mem_append.mp inAttempts with old | new
      · have := kept.ordered attempt old
        rcases renumbers.outstanding _ outstanding with before | fresh
        · exact barred attempt old reserved before
        · omega
      · -- A newly prepared attempt reserves an id above every settled one.
        have := (prepared_spec segmentation (Option.mem_toList.mp new)).2.1
        omega
    · intro ended outstanding
      rcases renumbers.outstanding _ outstanding with before | fresh
      · exact ended before
      · omega
  · refine ⟨⟨by omega, ?_⟩, ?_⟩
    · intro attempt inAttempts _ outstanding
      rw [same] at inAttempts
      have := kept.ordered attempt inAttempts
      have := only _ outstanding
      omega
    · intro _ outstanding
      exact barred chosen member (only _ outstanding).symm waited

/-- Every step keeps the session's bookkeeping. -/
theorem step_kept (kept : s.Kept) (admits : s.Admits op) : (s.apply segmentation op).Kept := by
  have stable : ∀ id, s.model.Outstanding id → (s.apply segmentation op).Settled id := fun id waited =>
    (step_settled segmentation kept admits (kept.settled id waited)).1
  rcases step_cases segmentation admits with renumbers | ⟨chosen, member, waited, last, same, last', only, numbered⟩
  · have onward := renumbers.last
    refine { numbered := renumbers.numbered kept.numbered, ordered := ?_, settled := ?_ }
    · intro attempt inAttempts
      rcases List.mem_append.mp inAttempts with old | new
      · have := kept.ordered attempt old
        omega
      · obtain ⟨waited, above, last, _⟩ := prepared_spec segmentation (Option.mem_toList.mp new)
        have := kept.numbered.below _ waited
        exact ⟨by omega, last.ge⟩
    · intro id outstanding
      rcases renumbers.outstanding id outstanding with before | fresh
      · exact stable id before
      · refine ⟨fresh.2, fun attempt inAttempts reserved _ => ?_⟩
        rcases List.mem_append.mp inAttempts with old | new
        · have := kept.ordered attempt old
          omega
        · -- Preparing an attempt asks nothing, so the id was waited for before.
          have := kept.numbered.below id
            ((prepared_spec segmentation (Option.mem_toList.mp new)).2.2.2 id outstanding)
          omega
  · refine { numbered := numbered, ordered := ?_, settled := ?_ }
    · intro attempt inAttempts
      rw [same] at inAttempts
      have := kept.ordered attempt inAttempts
      omega
    · intro id outstanding
      obtain rfl := only id outstanding
      refine ⟨by omega, fun attempt inAttempts _ replaced => ?_⟩
      rw [same] at inAttempts
      have := kept.ordered attempt inAttempts
      have := only _ replaced
      omega

end Steps

section Runs

variable (segmentation : Segmentation)

omit [EngineToken τ] in
/-- A session that starts without requests is in order. -/
theorem kept_of_idle {m : ClauseConversion τ} (issued : m.issued = ∅) (boundary : m.boundaryRequest = none) :
    Kept ⟨m, []⟩ := by
  have idle : ∀ id, ¬ m.Outstanding id := by
    rintro id (⟨entry, found⟩ | ⟨entry, found, _⟩)
    · exact lookup_empty_ne_some (issued ▸ found)
    · rw [boundary] at found; cases found
  exact
    { numbered :=
        { issued := fun _ _ found => (lookup_empty_ne_some (issued ▸ found)).elim
          apart := fun _ found => by rw [boundary] at found; cases found
          below := fun id waited => absurd waited (idle id)
          loading := fun _ _ _ found => (lookup_empty_ne_some (issued ▸ found)).elim }
      ordered := fun _ member => by cases member
      settled := fun id waited => absurd waited (idle id) }

/-- The bookkeeping holds after every run. -/
theorem run_kept {s : Session τ} (kept : s.Kept) {ops : List (ClauseOp τ)}
    (admissible : Admissible (apply segmentation) Admits s ops) : (exec (apply segmentation) s ops).Kept :=
  exec_invariant Kept (fun _ _ kept admits => step_kept segmentation kept admits) kept admissible

/-- An id that was waited for and is not any more is never waited for again. -/
theorem run_retired {s : Session τ} (kept : s.Kept) {id : Nat} (settled : s.Settled id)
    (ended : ¬ s.model.Outstanding id) {ops : List (ClauseOp τ)}
    (admissible : Admissible (apply segmentation) Admits s ops) :
    ¬ (exec (apply segmentation) s ops).model.Outstanding id := by
  -- Settled and ended ids stay so at every step.
  have invariant := exec_invariant
    (fun s : Session τ => s.Kept ∧ s.Settled id ∧ ¬ s.model.Outstanding id)
    (fun s op held admits => by
      obtain ⟨kept, settled, ended⟩ := held
      have step := step_settled segmentation kept admits settled
      exact ⟨step_kept segmentation kept admits, step.1, step.2 ended⟩)
    ⟨kept, settled, ended⟩ admissible
  exact invariant.2.2

/-- An id that is waited for stays settled in every run. -/
theorem run_settled {s : Session τ} (kept : s.Kept) {id : Nat} (settled : s.Settled id)
    {ops : List (ClauseOp τ)} (admissible : Admissible (apply segmentation) Admits s ops) :
    (exec (apply segmentation) s ops).Settled id := by
  have invariant := exec_invariant (fun s : Session τ => s.Kept ∧ s.Settled id)
    (fun s op held admits =>
      ⟨step_kept segmentation held.1 admits, (step_settled segmentation held.1 admits held.2).1⟩)
    ⟨kept, settled⟩ admissible
  exact invariant.2

/-- The session's model does not depend on the attempts it remembers. -/
theorem exec_model (s : Session τ) (ops : List (ClauseOp τ)) :
    (exec (apply segmentation) s ops).model = exec (ClauseConversion.apply segmentation) s.model ops := by
  induction ops generalizing s with
  | nil => rfl
  | cons op ops ih => exact ih (s.apply segmentation op)

end Runs

end Session

end Nospacekey
