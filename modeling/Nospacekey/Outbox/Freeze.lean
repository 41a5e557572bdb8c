import Nospacekey.Clause.Effects

/-! The receipt of a confirmed document write, frozen from the clause model at that moment. -/

namespace Nospacekey

variable {τ : Type}

/-- What the engine may learn from a clause's source. -/
def SurfaceSource.learning : SurfaceSource τ → IntervalLearning τ
  | .candidate token explicitlySelected => .candidate token explicitlySelected
  | .reading => .none .reading
  | .localSurface => .none .invalidated

/-- The interval that a clause confirms. -/
def commitInterval (clause : LocalClause τ) : CommitInterval τ where
  readingStart := clause.start
  readingEnd := clause.stop
  surface := clause.surface
  learning := clause.source.learning

/-- The receipt of a text, under the next commit id where there still is one. -/
def freeze [EngineToken τ] (nextCommitId : Option CommitId) (model : ClauseConversion τ) (text : Text) :
    Option (CommitReceipt τ) := do
  let identity ← model.learningIdentity
  if model.text ≠ text then none
  else
    let commitId ← nextCommitId
    let receipt : CommitReceipt τ :=
      { commitId := commitId
        engineEpoch := identity.engineEpoch
        learningGeneration := identity.learningGeneration
        reading := model.reading
        text := text
        intervals := model.clauses.map commitInterval
        sentenceToken := model.sentenceToken }
    if (receipt.validate fun _ _ => true).isOk then some receipt else none

namespace CommitReceipt

/-- The learning identity a receipt reports its tokens under. -/
def identity (receipt : CommitReceipt τ) : EngineLearningIdentity :=
  ⟨receipt.engineEpoch, receipt.learningGeneration⟩

/-- The engine tokens a receipt hands back. -/
def tokens (receipt : CommitReceipt τ) : List τ :=
  (receipt.intervals.filterMap fun interval =>
    match interval.learning with
    | .candidate token _ => some token
    | .none _ => none) ++ receipt.sentenceToken.toList

end CommitReceipt

/-- A frozen receipt names the model's learning identity and hands back the model's own tokens. -/
theorem freeze_spec [EngineToken τ] {nextCommitId : Option CommitId} {model : ClauseConversion τ}
    {text : Text} {receipt : CommitReceipt τ} (frozen : freeze nextCommitId model text = some receipt) :
    model.learningIdentity = some receipt.identity ∧
      receipt.tokens = model.clauseTokens ++ model.sentenceToken.toList := by
  unfold freeze at frozen
  obtain ⟨identity, known, rest⟩ := Option.bind_eq_some_iff.mp frozen
  split at rest
  · cases rest
  obtain ⟨commitId, _, rest⟩ := Option.bind_eq_some_iff.mp rest
  dsimp only at rest
  split at rest
  · obtain rfl := Option.some.inj rest
    refine ⟨known, ?_⟩
    simp only [CommitReceipt.tokens, ClauseConversion.clauseTokens, List.filterMap_map]
    congr 1
    refine List.filterMap_congr fun clause _ => ?_
    -- A clause's learning has a token exactly where its source has one.
    cases source : clause.source <;>
      simp [commitInterval, SurfaceSource.learning, SurfaceSource.token, source]
  · cases rest

/-- A receipt is frozen under the commit id it is given. -/
theorem freeze_commitId [EngineToken τ] {commitId : CommitId} {model : ClauseConversion τ} {text : Text}
    {receipt : CommitReceipt τ} (frozen : freeze (some commitId) model text = some receipt) :
    receipt.commitId = commitId := by
  unfold freeze at frozen
  obtain ⟨identity, _, rest⟩ := Option.bind_eq_some_iff.mp frozen
  split at rest
  · cases rest
  obtain ⟨id, given, rest⟩ := Option.bind_eq_some_iff.mp rest
  dsimp only at rest
  split at rest
  · obtain rfl := Option.some.inj rest
    exact (Option.some.inj given).symm
  · cases rest

end Nospacekey
