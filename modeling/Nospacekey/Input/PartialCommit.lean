import Nospacekey.Composer.CursorEdits
import Nospacekey.Input.ComposerCalls
import Nospacekey.Input.Replay

/-! A partial commit conserves the reading: what it does not commit stays, and without it everything does. -/

namespace Nospacekey

open Utf8 Runs LocalKanaComposer

/-- The rest of the composition that a result leaves uncommitted. -/
def EngineResult.rest : EngineResult → Option Text
  | .commit _ _ _ (.applied _ remaining) => if remaining.isEmpty then none else some remaining
  | .liveAutoCommitProposal proposal => some proposal.remaining
  | _ => none

namespace InputModule

section Results

variable {m : InputModule} {segmentation : Segmentation}

/-- A validated rest is a proper end of the reading that can be retained. -/
theorem validatePartialReseed_spec {proposed remaining : Text}
    (validated : m.validatePartialReseed segmentation proposed = some remaining) :
    remaining = proposed ∧ remaining ≠ [] ∧
      (∃ consumed, consumed ≠ [] ∧ m.canonicalReading = consumed ++ remaining) ∧
      m.localKana.canRetainSuffix segmentation remaining = true := by
  unfold validatePartialReseed at validated
  dsimp only at validated
  split at validated
  · cases validated
  rename_i filled
  split at validated
  · cases validated
  rename_i accepted
  simp only [Bool.or_eq_true, Bool.not_eq_true', not_or, Bool.not_eq_false, decide_eq_true_eq] at filled accepted
  obtain ⟨⟨proper, ends⟩, can⟩ := accepted
  obtain ⟨front, whole⟩ := List.isSuffixOf_iff_suffix.mp ends
  have same : remaining = proposed := by
    rw [← Option.some.inj validated, ← whole, byteLength_append, Nat.add_sub_cancel, dropBytes_append]
  subst same
  refine ⟨rfl, by simpa using filled.1, ⟨front, ?_, whole.symm⟩, can⟩
  rintro rfl
  rw [← whole, List.nil_append, Nat.sub_self] at proper
  exact proper rfl

/-- A proper end of the reading that can be retained is validated. -/
theorem validatePartialReseed_of {consumed remaining : Text} (spelled : m.canonicalReading = consumed ++ remaining)
    (proper : consumed ≠ []) (filled : remaining ≠ [])
    (can : m.localKana.canRetainSuffix segmentation remaining = true) :
    m.validatePartialReseed segmentation remaining = some remaining := by
  have consumes : byteLength consumed ≠ 0 := fun nothing => proper (byteLength_eq_zero.mp nothing)
  unfold canonicalReading at spelled
  unfold validatePartialReseed
  dsimp only
  rw [spelled, can, byteLength_append, Nat.add_sub_cancel, dropBytes_append]
  have ends : remaining.isSuffixOf (consumed ++ remaining) = true :=
    List.isSuffixOf_iff_suffix.mpr (List.suffix_append _ _)
  simp [filled, consumes, ends]

/-- A validated rest can carry on the latin mode. -/
theorem validatedRemainingLatinFrom_of {consumed remaining : Text}
    (spelled : m.canonicalReading = consumed ++ remaining) :
    ∃ latinFrom, m.validatedRemainingLatinFrom remaining = some latinFrom := by
  unfold canonicalReading at spelled
  unfold validatedRemainingLatinFrom
  split
  · exact ⟨_, rfl⟩
  · dsimp only
    rw [spelled, byteLength_append, if_neg (by omega)]
    exact ⟨_, rfl⟩

variable (segmentation) in
/-- A commit that keeps a rest has validated it. -/
theorem commitOperation_cases (m : InputModule) (candidate : Option Nat) (resolvedText : Text)
    (outcome : EngineCommitOutcome) :
    m.commitOperation segmentation candidate resolvedText outcome = none ∨
      ∃ text remaining latinFrom,
        m.commitOperation segmentation candidate resolvedText outcome =
          some (.commit text candidate remaining latinFrom) ∧
        ∀ rest, remaining = some rest → rest ≠ [] →
          (∃ engineText, outcome = .applied engineText rest) ∧
            m.validatePartialReseed segmentation rest = some rest := by
  cases outcome with
  | fallback text => exact .inr ⟨resolvedText, none, none, rfl, nofun⟩
  | applied engineText proposed =>
    simp only [commitOperation]
    split
    · rename_i empty
      refine .inr ⟨resolvedText, some proposed, none, rfl, fun rest same filled => ?_⟩
      obtain rfl := Option.some.inj same
      exact absurd (by simpa using empty) filled
    · cases validated : m.validatePartialReseed segmentation proposed with
      | none => exact .inl rfl
      | some remaining =>
        obtain ⟨rfl, _⟩ := validatePartialReseed_spec validated
        cases latin : m.validatedRemainingLatinFrom remaining with
        | none => exact .inl (by simp [latin])
        | some latinFrom =>
          refine .inr ⟨engineText, some remaining, latinFrom, by simp [latin, finishOperation], ?_⟩
          rintro rest same -
          obtain rfl := Option.some.inj same
          exact ⟨⟨engineText, rfl⟩, validated⟩

/-- The result answers the candidate commit that is pending. -/
def AnswersPending (m : InputModule) (result : EngineResult) : Prop :=
  ∃ request candidate text outcome identity, result = .commit request (some candidate) text outcome ∧
    m.pendingCandidateCommit = some (request, identity) ∧ m.candidateResult = some identity

variable (segmentation) in
/-- What a result that may leave a rest does: it is rejected, or it returns the commit of what is before
the rest. The composition stays as it is either way. -/
theorem handleEngine_rest (m : InputModule) {result : EngineResult} {remaining : Text}
    (leaves : result.rest = some remaining) :
    ((m.handleEngine segmentation result).2 = .default ∧
        ((m.handleEngine segmentation result).1 = m ∨
          m.AnswersPending result ∧
            (m.handleEngine segmentation result).1 = { m with pendingCandidateCommit := none })) ∨
      ∃ text candidate latinFrom,
        (m.handleEngine segmentation result).2 =
            ⟨false, some (.commit text candidate (some remaining) latinFrom), none⟩ ∧
          m.validatePartialReseed segmentation remaining = some remaining ∧
          ((∃ request candidate text outcome, result = .commit request candidate text outcome ∧
              ∃ pending, (m.handleEngine segmentation result).1 = { m with pendingCandidateCommit := pending }) ∨
            ∃ proposal, result = .liveAutoCommitProposal proposal ∧
              m.canonicalReading = proposal.consumedReading ++ proposal.remaining ∧
              (m.handleEngine segmentation result).1 =
                { m with pendingAutoCommit := some ⟨proposal.proposal, proposal.identity⟩ }) := by
  cases result with
  | commit request candidate resolvedText outcome =>
    -- What the answer of a commit returns, with the module that it is judged in.
    have answered : ∀ n : InputModule, n.localKana = m.localKana → n.state = m.state →
        n.commitOperation segmentation candidate resolvedText outcome = none ∨
          ∃ text latinFrom, n.commitOperation segmentation candidate resolvedText outcome =
              some (.commit text candidate (some remaining) latinFrom) ∧
            m.validatePartialReseed segmentation remaining = some remaining := by
      intro n kana state
      cases outcome with
      | fallback text => cases leaves
      | applied engineText proposed =>
        obtain ⟨filled, rfl⟩ : proposed ≠ [] ∧ proposed = remaining := by
          simp only [EngineResult.rest] at leaves
          split at leaves
          · cases leaves
          · rename_i filled
            exact ⟨by simpa using filled, Option.some.inj leaves⟩
        have empty : proposed.isEmpty = false := by simpa using filled
        simp only [commitOperation, empty, Bool.false_eq_true, if_false]
        cases validated : n.validatePartialReseed segmentation proposed with
        | none => exact .inl rfl
        | some rest =>
          obtain ⟨rfl, _⟩ := validatePartialReseed_spec validated
          cases latin : n.validatedRemainingLatinFrom rest with
          | none => exact .inl (by simp [latin])
          | some latinFrom =>
            refine .inr ⟨engineText, latinFrom, by simp [latin, finishOperation], ?_⟩
            unfold validatePartialReseed at validated ⊢
            rwa [kana] at validated
    simp only [handleEngine, handleCommit]
    split
    · rename_i pendingRequest pendingIdentity pending
      split
      · exact .inl ⟨rfl, .inl rfl⟩
      · rename_i answers
        simp only [Bool.or_eq_true, decide_eq_true_eq, not_or, not_not] at answers
        obtain ⟨⟨rfl, named⟩, identified⟩ := answers
        obtain rejected | ⟨text, latinFrom, operation, validated⟩ :=
          answered { m with pendingCandidateCommit := none } rfl rfl
        · left
          rw [rejected]
          refine ⟨rfl, .inr ⟨?_, rfl⟩⟩
          obtain ⟨chosen, rfl⟩ : ∃ chosen, candidate = some chosen :=
            Option.ne_none_iff_exists'.mp (by simpa using named)
          exact ⟨_, chosen, _, _, pendingIdentity, rfl, pending, identified⟩
        · right
          rw [operation]
          exact ⟨text, candidate, latinFrom, rfl, validated, .inl ⟨_, _, _, _, rfl, none, rfl⟩⟩
    · split
      · exact .inl ⟨rfl, .inl rfl⟩
      · obtain rejected | ⟨text, latinFrom, operation, validated⟩ := answered m rfl rfl
        · rw [rejected]
          exact .inl ⟨rfl, .inl rfl⟩
        · rw [operation]
          exact .inr ⟨text, candidate, latinFrom, rfl, validated, .inl ⟨_, _, _, _, rfl, m.pendingCandidateCommit, rfl⟩⟩
  | liveAutoCommitProposal proposal =>
    obtain rfl := Option.some.inj leaves
    simp only [handleEngine]
    unfold handleAutoCommitProposal
    split
    · exact .inl ⟨rfl, .inl rfl⟩
    · rename_i guarded
      simp only [Bool.or_eq_true, not_or, decide_eq_true_eq, not_not] at guarded
      split
      · exact .inl ⟨rfl, .inl rfl⟩
      · cases validated : m.validatePartialReseed segmentation proposal.remaining with
        | none => exact .inl ⟨rfl, .inl rfl⟩
        | some rest =>
          obtain ⟨rfl, _⟩ := validatePartialReseed_spec validated
          cases latin : m.validatedRemainingLatinFrom proposal.remaining with
          | none => exact .inl (by simp [latin])
          | some latinFrom =>
            right
            simp only [latin]
            exact ⟨proposal.text, none, latinFrom, rfl, trivial, .inr ⟨proposal, rfl, guarded.2, rfl⟩⟩
  | _ => cases leaves

/-- A typed key ends the pending commit of a candidate. -/
theorem handleText_pendingCandidateCommit (m : InputModule) (ch : Char) (style : TextStyle) (replay : ReplayMode) :
    (m.handleText ch style replay).1.pendingCandidateCommit = none := by
  have shown (n : InputModule) : n.immediateDisplay.1.pendingCandidateCommit = n.pendingCandidateCommit := by
    unfold immediateDisplay
    repeat' split
    all_goals rfl
  simp only [handleText]
  rw [shown]
  cases style <;> split <;> rfl

/-- No key returns a commit that keeps a rest. -/
theorem handleKey_whole (m : InputModule) (key : KeyEvent) {text rest : Text} {candidate latinFrom : Option Nat}
    (returned : (m.handleKey segmentation key).2.immediate = some (.commit text candidate (some rest) latinFrom)) :
    False := by
  by_cases edits : key.editsComposition
  · cases handleKey_keepsNothing edits returned
  · cases key with
    | commitCandidate index => cases (candidateCommit_immediate m index).symm.trans returned
    | other => cases returned
    | text | backspace | delete | moveReading | readingHome | readingEnd | escape | enter => exact edits rfl
    | _ =>
      simp only [handleKey] at returned
      split at returned <;> cases returned

/-- New candidates return no commit. -/
theorem replaceCandidatesForRevision_whole (m : InputModule) (values : List Text)
    (selected composition revision : Nat) {text rest : Text} {candidate latinFrom : Option Nat}
    (returned : (m.replaceCandidatesForRevision values selected composition revision).2.immediate =
      some (.commit text candidate (some rest) latinFrom)) : False := by
  unfold replaceCandidatesForRevision at returned
  repeat' split at returned
  all_goals cases returned

/-- A returned commit that keeps a rest has validated it, and leaves the composer alone until it is applied. -/
theorem handle_validated (m : InputModule) (event : InputEvent) {text rest : Text} {candidate latinFrom : Option Nat}
    (returned : (m.handle segmentation event).2.immediate = some (.commit text candidate (some rest) latinFrom))
    (filled : rest ≠ []) :
    m.localKana.canRetainSuffix segmentation rest = true ∧
      (m.handle segmentation event).1.localKana = m.localKana := by
  cases event with
  | key key => exact (m.handleKey_whole key returned).elim
  | lifecycle event =>
    cases event with
    | activated => cases returned
    | deactivated =>
      simp only [handle] at returned
      split at returned <;> cases returned
  | candidates event =>
    cases event with
    | closed => cases returned
    | replace values selected reason =>
      simp only [handle, replaceCandidates] at returned
      repeat' split at returned
      · exact (replaceCandidatesForRevision_whole _ _ _ _ _ returned).elim
      · cases returned
      · cases returned
      · exact (replaceCandidatesForRevision_whole _ _ _ _ _ returned).elim
  | engine result =>
    refine ⟨?_, handleEngine_localKana m result⟩
    simp only [handle] at returned
    cases result with
    | commit request answered resolvedText outcome =>
      -- The rest is what the outcome has left, which was validated in a module with this composer.
      have validated : ∀ n : InputModule, n.localKana = m.localKana →
          n.commitOperation segmentation answered resolvedText outcome =
            some (.commit text candidate (some rest) latinFrom) →
          m.localKana.canRetainSuffix segmentation rest = true := by
        intro n kana operation
        obtain rejected | ⟨_, _, _, same, keeps⟩ :=
          n.commitOperation_cases segmentation answered resolvedText outcome
        · cases rejected.symm.trans operation
        · cases same.symm.trans operation
          rw [← kana]
          exact (validatePartialReseed_spec (keeps rest rfl filled).2).2.2.2
      simp only [handleEngine, handleCommit] at returned
      repeat' split at returned
      · cases returned
      · cases returned
      · rename_i operation
        exact validated { m with pendingCandidateCommit := none } rfl (operation.trans returned)
      · cases returned
      · cases returned
      · rename_i operation
        exact validated m rfl (operation.trans returned)
    | liveAutoCommitProposal proposal =>
      obtain ⟨rejected, _⟩ | ⟨_, _, _, output, validated, _⟩ :=
        m.handleEngine_rest segmentation
          (show (EngineResult.liveAutoCommitProposal proposal).rest = some proposal.remaining from rfl)
      · rw [rejected] at returned
        cases returned
      · rw [output] at returned
        cases returned
        exact (validatePartialReseed_spec validated).2.2.2
    | candidates request values =>
      simp only [handleEngine] at returned
      repeat' split at returned
      · cases returned
      · cases returned
      · exact (replaceCandidatesForRevision_whole _ _ _ _ _ returned).elim
    | explicitSnapshot identity values =>
      simp only [handleEngine] at returned
      split at returned
      · cases returned
      · exact (replaceCandidatesForRevision_whole _ _ _ _ _ returned).elim
    | _ =>
      simp only [handleEngine, handleLiveSnapshot] at returned
      split at returned <;> cases returned

end Results

end InputModule

/-- The receipt that an applied result makes available: that of a proposal, and else the one that was pending. -/
def InputModule.receiptOf (m : InputModule) : EngineResult → Option AutoCommitReceipt
  | .liveAutoCommitProposal proposal => some ⟨proposal.proposal, proposal.identity⟩
  | _ => m.pendingAutoCommit

/-- What a result that may leave a rest does with the reading, until the operation it returns is completed. -/
structure PartialCommit (segmentation : Segmentation) (m : InputModule) (result : EngineResult) (remaining : Text) :
    Prop where
  /-- A result is rejected, or it returns the commit of what is before the rest. -/
  decided : (m.handle segmentation (.engine result)).2 = .default ∨
    ∃ text candidate latinFrom, (m.handle segmentation (.engine result)).2 =
      ⟨false, some (.commit text candidate (some remaining) latinFrom), none⟩
  /-- A rejected result changes nothing, unless it is the answer of the pending candidate commit, which it ends. -/
  rejected : (m.handle segmentation (.engine result)).2 = .default →
    (m.handle segmentation (.engine result)).1 = m ∨
      m.AnswersPending result ∧
        (m.handle segmentation (.engine result)).1 = { m with pendingCandidateCommit := none }
  proper : ∀ operation, (m.handle segmentation (.engine result)).2.immediate = some operation →
    remaining ≠ [] ∧ ∃ consumed, consumed ≠ [] ∧ m.canonicalReading = consumed ++ remaining
  proposed : ∀ proposal, result = .liveAutoCommitProposal proposal →
    ∀ operation, (m.handle segmentation (.engine result)).2.immediate = some operation →
      m.canonicalReading = proposal.consumedReading ++ remaining
  /-- As far as the cursor can be moved to the end, an applied commit leaves the rest. -/
  applied : m.localKana.cursorAtEnd = true ∨ m.canonicalReading.length < 2 ^ 32 →
    ∀ operation, (m.handle segmentation (.engine result)).2.immediate = some operation →
      let completed := (m.handle segmentation (.engine result)).1.complete segmentation operation true
      completed.canonicalReading = remaining ∧ completed.state.composing = true ∧
        completed.canonicalSegments.flatMap InputSegment.text = remaining
  /-- An applied proposal makes its receipt available once, and any other commit the one that was pending. -/
  receipt : ∀ operation, (m.handle segmentation (.engine result)).2.immediate = some operation →
    let completed := (m.handle segmentation (.engine result)).1.complete segmentation operation true
    completed.takeAutoCommitReceipt.2 = m.receiptOf result ∧
      completed.takeAutoCommitReceipt.1.takeAutoCommitReceipt.2 = none
  /-- A commit that is not applied leaves the composition as it was, and adds no receipt. -/
  unapplied : ∀ operation, (m.handle segmentation (.engine result)).2.immediate = some operation →
    let completed := (m.handle segmentation (.engine result)).1.complete segmentation operation false
    completed.canonicalReading = m.canonicalReading ∧ completed.canonicalSegments = m.canonicalSegments ∧
      completed.state.raw = m.state.raw ∧ completed.candidates = m.candidates ∧
      completed.pendingAutoCommit = none ∧ completed.autoCommitReceipt = m.autoCommitReceipt

namespace InputModule

section Completion

variable {m : InputModule} {segmentation : Segmentation}

/-- An applied commit that keeps a rest goes on with it. -/
theorem complete_rest (m : InputModule) (text : Text) (candidate : Option Nat) {remaining : Text}
    (filled : remaining ≠ []) (latinFrom : Option Nat) :
    m.complete segmentation (.commit text candidate (some remaining) latinFrom) true =
      { m with autoCommitReceipt := m.pendingAutoCommit, pendingAutoCommit := none
        }.reseedAfterPartialCommitWithLatin segmentation remaining latinFrom := by
  have some' : remaining.isEmpty = false := by simpa using filled
  simp [complete, some']

/-- The composition of an applied commit is what its composer retains. -/
theorem complete_rest_spec (represented : m.localKana.Represented)
    (fits : m.localKana.cursorAtEnd = true ∨ m.canonicalReading.length < 2 ^ 32) {remaining : Text}
    (validated : m.validatePartialReseed segmentation remaining = some remaining) (text : Text)
    (candidate latinFrom : Option Nat) :
    let completed := m.complete segmentation (.commit text candidate (some remaining) latinFrom) true
    completed.canonicalReading = remaining ∧ completed.state.composing = true ∧
      completed.canonicalSegments = completed.localKana.replaySegments.map ReplaySegment.input ∧
      completed.localKana = (m.localKana.retainSuffix segmentation remaining).1 := by
  have fits : m.localKana.suffix = [] ∨ m.localKana.reading.length < 2 ^ 32 :=
    fits.imp_left fun atEnd => by simpa [cursorAtEnd] using atEnd
  obtain ⟨_, kept, retained⟩ :=
    represented.complete_validated segmentation fits rfl validated text candidate latinFrom
  obtain ⟨spec, _⟩ := represented.retainSuffix_retained segmentation remaining fits kept
  refine ⟨?_, ?_, ?_, retained⟩
  · rw [canonicalReading, retained, spec.reading]
  · rw [complete_rest _ _ _ (validatePartialReseed_spec validated).2.1]
    rfl
  · rw [complete_rest _ _ _ (validatePartialReseed_spec validated).2.1]
    rfl

/-- The text of composed segments is that of the composer's own. -/
theorem flatMap_input (segments : List ReplaySegment) :
    (segments.map ReplaySegment.input).flatMap InputSegment.text = segments.flatMap ReplaySegment.text := by
  rw [List.flatMap_map]
  rfl

/-- An accepted result returns the commit of what is before its rest, and applied it goes on with the rest. -/
theorem complete_accepted (represented : m.localKana.Represented)
    (fits : m.localKana.cursorAtEnd = true ∨ m.canonicalReading.length < 2 ^ 32) {result : EngineResult}
    {remaining : Text} (leaves : result.rest = some remaining) {operation : ImmediateOperation}
    (returned : (m.handle segmentation (.engine result)).2.immediate = some operation) :
    let completed := (m.handle segmentation (.engine result)).1.complete segmentation operation true
    completed.canonicalReading = remaining ∧ completed.state.composing = true ∧
      completed.canonicalSegments = completed.localKana.replaySegments.map ReplaySegment.input ∧
      completed.localKana = (m.localKana.retainSuffix segmentation remaining).1 := by
  have kana : (m.handle segmentation (.engine result)).1.localKana = m.localKana := handleEngine_localKana m result
  obtain ⟨rejected, _⟩ | ⟨text, candidate, latinFrom, output, validated, _⟩ :=
    m.handleEngine_rest segmentation leaves
  · cases (congrArg ModuleOutput.immediate rejected).symm.trans returned
  · obtain rfl := Option.some.inj ((congrArg ModuleOutput.immediate output).symm.trans returned)
    -- The answered module has the composer that the rest was validated with.
    generalize (m.handle segmentation (.engine result)).1 = n at kana
    have validated : n.validatePartialReseed segmentation remaining = some remaining := by
      unfold validatePartialReseed at validated ⊢
      rwa [kana]
    have fits : n.localKana.cursorAtEnd = true ∨ n.canonicalReading.length < 2 ^ 32 := by
      rw [canonicalReading, kana]
      exact fits
    rw [← kana] at represented ⊢
    exact complete_rest_spec represented fits validated text candidate latinFrom

/-- A module whose composer is represented conserves its reading. -/
theorem partialCommit (represented : m.localKana.Represented) {result : EngineResult} {remaining : Text}
    (leaves : result.rest = some remaining) : PartialCommit segmentation m result remaining := by
  -- The answer is that of the engine part of the module.
  have same : m.handle segmentation (.engine result) = m.handleEngine segmentation result := rfl
  have kana : (m.handleEngine segmentation result).1.localKana = m.localKana := handleEngine_localKana m result
  have cases' := m.handleEngine_rest segmentation leaves
  rw [← same] at kana cases'
  generalize answered : m.handle segmentation (.engine result) = answer at kana cases'
  obtain ⟨n, output⟩ := answer
  dsimp only at kana cases'
  obtain ⟨rejected, unchanged⟩ | ⟨text, candidate, latinFrom, rfl, validated, which⟩ := cases'
  · -- A rejected result returns nothing to complete.
    have nothing : ∀ operation, output.immediate ≠ some operation := by
      rw [rejected]
      nofun
    constructor <;> rw [answered]
    · exact .inl rejected
    · exact fun _ => unchanged
    · exact fun operation returned => absurd returned (nothing operation)
    · exact fun _ _ operation returned => absurd returned (nothing operation)
    · exact fun _ operation returned => absurd returned (nothing operation)
    · exact fun operation returned => absurd returned (nothing operation)
    · exact fun operation returned => absurd returned (nothing operation)
  · obtain ⟨_, filled, proper, _⟩ := validatePartialReseed_spec validated
    constructor <;> rw [answered]
    · exact .inr ⟨text, candidate, latinFrom, rfl⟩
    · nofun
    · exact fun _ _ => ⟨filled, proper⟩
    · rintro proposal rfl operation -
      obtain ⟨_, _, _, _, other, _⟩ | ⟨_, own, spelled, _⟩ := which
      · cases other
      · cases own
        obtain rfl := Option.some.inj leaves
        exact spelled
    · intro fits operation returned
      have spec := complete_accepted represented fits leaves (answered ▸ returned)
      rw [answered] at spec
      obtain ⟨reading, composing, segments, retained⟩ := spec
      refine ⟨reading, composing, ?_⟩
      have still := represented.retainSuffix segmentation remaining
      rw [← retained] at still
      rw [segments, flatMap_input, still.replay_text]
      exact reading
    · rintro operation ⟨⟩
      rw [complete_rest _ _ _ filled]
      obtain ⟨_, _, _, _, rfl, _, changed⟩ | ⟨proposal, rfl, _, changed⟩ := which
      · rw [changed]
        exact ⟨rfl, rfl⟩
      · rw [changed]
        exact ⟨rfl, rfl⟩
    · rintro operation ⟨⟩
      obtain ⟨_, _, _, _, rfl, _, changed⟩ | ⟨proposal, rfl, _, changed⟩ := which
      · rw [changed]
        exact ⟨rfl, rfl, rfl, rfl, rfl, rfl⟩
      · rw [changed]
        exact ⟨rfl, rfl, rfl, rfl, rfl, rfl⟩

end Completion

end InputModule

/-- The module, with the operation that its last call returned. -/
structure CommitSession where
  module : InputModule
  outstanding : Option ImmediateOperation

namespace CommitSession

variable {segmentation : Segmentation}

/-- Nothing is composed before the first call. -/
def initial : CommitSession := ⟨.initial, none⟩

/-- The operation that a call returns. -/
def returned (segmentation : Segmentation) (m : InputModule) : ModuleOp → Option ImmediateOperation
  | .handle event => (m.handle segmentation event).2.immediate
  | .setReadingCursor cursor => (m.setReadingCursor cursor).2.immediate
  | _ => none

/-- One call of the module. -/
def step (segmentation : Segmentation) (s : CommitSession) (op : ModuleOp) : CommitSession :=
  ⟨(SnapshotSession.step segmentation ⟨s.module, []⟩ op).module, returned segmentation s.module op⟩

/-- A call keeps the styles of the text: a partial commit is completed before any other call, the reading can
be counted, and no retained beginning ends in an automatic literal. -/
structure Orderly (s : CommitSession) (op : ModuleOp) : Prop where
  counted : s.module.canonicalReading.length < 2 ^ 32
  prompt : ∀ text candidate rest latinFrom, op = .complete (.commit text candidate (some rest) latinFrom) true →
    rest ≠ [] → s.outstanding = some (.commit text candidate (some rest) latinFrom)
  sealed : ∀ front, op = .retainClauseReadingPrefix front → Sealable s.module.localKana front

/-- The composition is in order, and the rest of a partial commit that is outstanding can be retained. -/
structure InOrder (segmentation : Segmentation) (s : CommitSession) : Prop where
  represented : s.module.localKana.Represented
  composed : s.module.localKana.Composed
  retainable : ∀ text candidate rest latinFrom,
    s.outstanding = some (.commit text candidate (some rest) latinFrom) →
    rest ≠ [] → s.module.localKana.canRetainSuffix segmentation rest = true

/-- Every call keeps the composer represented. -/
theorem step_represented {s : CommitSession} (represented : s.module.localKana.Represented) (op : ModuleOp) :
    (s.step segmentation op).module.localKana.Represented := by
  obtain kept | ⟨call, driven, _⟩ := s.module.step_composerStep segmentation op
  · rwa [show (s.step segmentation op).module.localKana = _ from kept]
  · rw [show (s.step segmentation op).module.localKana = _ from driven]
    exact represented.call segmentation call

/-- A returned commit that keeps a rest can retain it. -/
theorem returned_retainable {m : InputModule} {op : ModuleOp} {text rest : Text} {candidate latinFrom : Option Nat}
    (answer : returned segmentation m op = some (.commit text candidate (some rest) latinFrom))
    (filled : rest ≠ []) :
    (SnapshotSession.step segmentation ⟨m, []⟩ op).module.localKana.canRetainSuffix segmentation rest = true := by
  cases op with
  | handle event =>
    obtain ⟨can, same⟩ := m.handle_validated event answer filled
    rwa [show (SnapshotSession.step segmentation ⟨m, []⟩ (.handle event)).module.localKana = _ from same]
  | setReadingCursor cursor => cases InputModule.readingNavigationOutput_keepsNothing answer
  | _ => cases answer

/-- An orderly call keeps the composition in order. -/
theorem InOrder.step {s : CommitSession} (inOrder : s.InOrder segmentation) {op : ModuleOp} (orderly : s.Orderly op) :
    (s.step segmentation op).InOrder segmentation where
  represented := step_represented inOrder.represented op
  retainable _ _ _ _ answer filled := returned_retainable answer filled
  composed := by
    obtain kept | ⟨call, driven, reseeds, retains⟩ := s.module.step_composerStep segmentation op
    · rw [show (s.step segmentation op).module.localKana = _ from kept]
      exact inOrder.composed
    · rw [show (s.step segmentation op).module.localKana = _ from driven]
      refine inOrder.composed.call inOrder.represented orderly.counted ?_
      cases call with
      | reseedReading reading =>
        -- A rest that is outstanding is retained.
        obtain ⟨text, candidate, latinFrom, completes, filled, refused⟩ := reseeds reading rfl
        have outstanding := orderly.prompt text candidate reading latinFrom completes filled
        have can := inOrder.retainable text candidate reading latinFrom outstanding filled
        have kept := (inOrder.represented.retainSuffix_iff segmentation reading (.inr orderly.counted)).mp can
        exact absurd kept (by simp [refused])
      | retainPrefix front => exact orderly.sealed front (retains front rfl)
      | _ => trivial

/-- Keys that are typed one after the other. -/
def typed (text : Text) (style : TextStyle) : List ModuleOp :=
  text.map fun ch => .handle (.key (.text ch style .full))

/-- In every run, what a result does not commit stays, and a result that is not applied leaves everything; after
an orderly run, what stays replays as itself. -/
theorem run_partialCommit (segmentation : Segmentation) (ops : List ModuleOp) {result : EngineResult}
    {remaining : Text} (leaves : result.rest = some remaining) :
    let m := (exec (step segmentation) initial ops).module
    PartialCommit segmentation m result remaining ∧
      (Admissible (step segmentation) Orderly initial ops → m.canonicalReading.length < 2 ^ 32 →
        ∀ operation, (m.handle segmentation (.engine result)).2.immediate = some operation →
          let completed := (m.handle segmentation (.engine result)).1.complete segmentation operation true
          (replayed (completed.canonicalSegments.map InputSegment.replay)).reading = remaining) := by
  have represented : (exec (step segmentation) initial ops).module.localKana.Represented :=
    exec_invariant_all (fun s : CommitSession => s.module.localKana.Represented)
      (fun _ op represented => step_represented represented op) empty_represented ops
  have inOrder (orderly : Admissible (step segmentation) Orderly initial ops) :
      (exec (step segmentation) initial ops).module.localKana.Composed :=
    (exec_invariant (InOrder segmentation) (fun _ _ inOrder orderly => inOrder.step orderly)
      ⟨empty_represented, empty_composed, fun _ _ _ _ outstanding => by cases outstanding⟩ orderly).composed
  dsimp only
  generalize (exec (step segmentation) initial ops).module = m at represented inOrder ⊢
  refine ⟨InputModule.partialCommit represented leaves, fun orderly fits operation returned => ?_⟩
  obtain ⟨reading, _, segments, retained⟩ := InputModule.complete_accepted represented (.inr fits) leaves returned
  -- What the composer retains is in order, and its segments are those that are replayed.
  have still := (inOrder orderly).retainSuffix segmentation remaining
  rw [← retained] at still
  rw [segments, ReplaySegment.map_input_replay, still.replays.1]
  exact reading

/-- What is composed of か and い goes on with い after か is committed. -/
theorem run_partialCommit_kai :
    let m := (exec (step .scalars) initial (typed ['k', 'a', 'i'] .kana ++ [.liveSnapshot 1 1 none])).module
    let result := EngineResult.liveAutoCommitProposal ⟨1, ⟨1, 1, 3, 1, 1⟩, ['蚊'], ['か'], ['い']⟩
    let answer := m.handle .scalars (.engine result)
    PartialCommit .scalars m result ['い'] ∧
      (replayed ((answer.1.complete .scalars (.commit ['蚊'] none (some ['い']) none) true).canonicalSegments.map
        InputSegment.replay)).reading = ['い'] := by
  obtain ⟨conserves, replays⟩ := run_partialCommit .scalars
    (typed ['k', 'a', 'i'] .kana ++ [.liveSnapshot 1 1 none])
    (show (EngineResult.liveAutoCommitProposal ⟨1, ⟨1, 1, 3, 1, 1⟩, ['蚊'], ['か'], ['い']⟩).rest = some ['い']
      from rfl)
  refine ⟨conserves, replays ?_ (by decide +kernel) _ (by decide +kernel)⟩
  -- Nothing is completed or cut in this run.
  exact ⟨⟨by decide +kernel, nofun, nofun⟩, ⟨by decide +kernel, nofun, nofun⟩,
    ⟨by decide +kernel, nofun, nofun⟩, ⟨by decide +kernel, nofun, nofun⟩, trivial⟩

/-- Typed keys are pushed into the composer, and end the pending commit of a candidate. -/
theorem exec_typed (segmentation : Segmentation) (text : Text) (style : TextStyle) {s : CommitSession}
    (noCommit : s.module.pendingCandidateCommit = none) :
    let typed := (exec (step segmentation) s (typed text style)).module
    typed.localKana =
        exec (LocalKanaComposer.call segmentation) s.module.localKana (text.map (.push · style.input)) ∧
      typed.pendingCandidateCommit = none := by
  induction text generalizing s with
  | nil => exact ⟨rfl, noCommit⟩
  | cons ch text ih =>
    obtain ⟨pushed, still⟩ := ih (s := s.step segmentation (.handle (.key (.text ch style .full))))
      (s.module.handleText_pendingCandidateCommit ch style .full)
    refine ⟨?_, still⟩
    rw [List.map_cons, exec_cons, ← show _ = s.module.localKana.call segmentation (.push ch style.input) from
      s.module.handleText_localKana ch style .full]
    exact pushed

/-- With the cursor before a letter and as many letters before it as there are positions, a commit of the first
letter commits nothing. -/
theorem partialCommit_overflow :
    ¬∀ (ops : List ModuleOp) (result : EngineResult) (remaining : Text) (operation : ImmediateOperation),
      let m := (exec (step .scalars) initial ops).module
      result.rest = some remaining → (m.handle .scalars (.engine result)).2.immediate = some operation →
        ((m.handle .scalars (.engine result)).1.complete .scalars operation true).canonicalReading = remaining := by
  intro every
  obtain ⟨n, count⟩ : ∃ n, n + 1 = 2 ^ 32 := ⟨2 ^ 32 - 1, rfl⟩
  generalize restEq : List.replicate (n + 1) 'a' = rest
  have filled : rest ≠ [] := by simp [← restEq]
  have keeps := every (typed ['a'] .direct ++ [.handle (.key .readingHome)] ++ typed rest .direct)
    (.commit 0 none [] (.applied ['x'] rest)) rest
  have represented : (exec (step .scalars) initial
      (typed ['a'] .direct ++ [.handle (.key .readingHome)] ++ typed rest .direct)).module.localKana.Represented :=
    exec_invariant_all (fun s : CommitSession => s.module.localKana.Represented)
      (fun _ op represented => step_represented represented op) empty_represented _
  have started :
      let start := (exec (step .scalars) initial (typed ['a'] .direct ++ [.handle (.key .readingHome)])).module
      start.localKana.pending = [] ∧ start.localKana.stable = [] ∧ start.localKana.suffix = ['a'] ∧
        start.pendingCandidateCommit = none := by
    decide +kernel
  rw [exec_append] at keeps represented
  generalize exec (step .scalars) initial (typed ['a'] .direct ++ [.handle (.key .readingHome)]) = start at *
  obtain ⟨pushed, noCommit⟩ := exec_typed .scalars rest .direct started.2.2.2
  obtain ⟨settled, stable, suffix⟩ := exec_push_direct .scalars rest started.1
  rw [started.2.1, List.nil_append] at stable
  rw [started.2.2.1] at suffix
  rw [show InputStyle.direct = TextStyle.direct.input from rfl, ← pushed] at settled stable suffix
  generalize (exec (step .scalars) start (typed rest .direct)).module = m at *
  -- The letters are the same, so the reading ends with all but its first.
  have reading : m.canonicalReading = ['a'] ++ rest := by
    rw [InputModule.canonicalReading, represented.reading, settled, stable, suffix, List.append_nil, ← restEq,
      ← List.replicate_succ']
    rfl
  have inside : m.localKana.suffix.isEmpty = false := by rw [suffix]; rfl
  have can : m.localKana.canRetainSuffix .scalars rest = true := by
    have ends : rest.isSuffixOf (['a'] ++ rest) = true := List.isSuffixOf_iff_suffix.mpr (List.suffix_append _ _)
    have boundary : isGraphemeBoundary .scalars (['a'] ++ rest) (byteLength ['a']) = true := by
      rw [← restEq]
      simp [isGraphemeBoundary, Segmentation.graphemeStarts, Segmentation.scalars, pieceStarts, List.replicate_succ]
    unfold canRetainSuffix
    rw [inside, show m.localKana.reading = _ from reading, ends, byteLength_append, Nat.add_sub_cancel, boundary]
    simp [filled]
  obtain ⟨latinFrom, latin⟩ := m.validatedRemainingLatinFrom_of reading
  have validated := m.validatePartialReseed_of reading (by simp) filled can
  have handled : m.handle .scalars (.engine (.commit 0 none [] (.applied ['x'] rest))) =
      (m, ⟨false, some (.commit ['x'] none (some rest) latinFrom), none⟩) := by
    simp [InputModule.handle, InputModule.handleEngine, InputModule.handleCommit, noCommit,
      InputModule.commitOperation, validated, latin, InputModule.finishOperation, filled]
  -- The cursor stays where it is, and all that is before it is kept with what is behind it.
  have stays : (m.localKana.setCursor m.localKana.reading.length).1 = m.localKana := by
    have failed : legalBoundaries m.localKana.reading = .error .range := by
      have long : ¬m.localKana.reading.length < 2 ^ 32 := by
        rw [show m.localKana.reading = _ from reading, ← restEq, List.length_append, List.length_replicate]
        omega
      simp only [legalBoundaries, u32TryFrom, if_neg long]
    unfold LocalKanaComposer.setCursor
    rw [failed]
  obtain ⟨segments, found⟩ :
      ∃ segments, m.localKana.retainedStableSuffix .scalars rest = some (rest, segments) :=
    retainedStableSuffix_of represented.stable settled filled (show _ = [] ++ rest from stable) reading
      (by simp [isGraphemeBoundary])
  have kept : (m.localKana.retainSuffix .scalars rest).2 = true ∧
      (m.localKana.retainSuffix .scalars rest).1.reading = rest ++ ['a'] := by
    unfold LocalKanaComposer.retainSuffix LocalKanaComposer.retainAtEnd
    rw [inside, can, stays, found]
    exact ⟨rfl, by simp [refreshReading, settled, suffix]⟩
  have whole := keeps (.commit ['x'] none (some rest) latinFrom) (by simp [EngineResult.rest, filled])
    (by rw [handled])
  rw [handled, InputModule.complete_rest _ _ _ filled] at whole
  have twice : rest ++ ['a'] = rest := by
    refine (kept.2.symm.trans ?_).trans whole
    unfold InputModule.reseedAfterPartialCommitWithLatin
    simp [InputModule.canonicalReading, kept.1]
  simpa using congrArg List.length twice

/-- A refused answer of a candidate commit ends its request, and a receipt that was not taken stays. A rest
replays as other text where it had replaced the composition, as its commit was completed late, or where a
retained beginning ended in an automatic literal, and it is not kept alone where positions overflow. -/
theorem partialCommit_otherwise :
    (let m := (exec (step .scalars) initial (typed ['k', 'a'] .kana ++
        [.handle (.candidates (.replace [['蚊']] 0 .newResult)), .handle (.key (.commitCandidate (some 0)))])).module
      let answer := m.handle .scalars (.engine (.commit 3 (some 0) ['蚊'] (.applied ['蚊'] ['x'])))
      answer.2 = .default ∧ answer.1 ≠ m) ∧
    (let m := (exec (step .scalars) initial (typed ['a', 'i'] .kana ++
        [.liveSnapshot 1 1 none,
          .handle (.engine (.liveAutoCommitProposal ⟨1, ⟨1, 1, 2, 1, 1⟩, ['亜'], ['あ'], ['い']⟩)),
          .complete (.commit ['亜'] none (some ['い']) none) true] ++
        typed ['u'] .kana ++ [.liveSnapshot 1 1 none])).module
      let answer := m.handle .scalars
        (.engine (.liveAutoCommitProposal ⟨2, ⟨2, 1, 4, 1, 1⟩, ['亥'], ['い'], ['う']⟩))
      let operation := ImmediateOperation.commit ['亥'] none (some ['う']) none
      answer.2.immediate = some operation ∧
        (answer.1.complete .scalars operation false).takeAutoCommitReceipt.2 = some ⟨1, ⟨1, 1, 2, 1, 1⟩⟩) ∧
    (let m := (exec (step .scalars) initial (typed ['k', 'a'] .kana ++ typed ['x', 'a'] .direct ++
        [.liveSnapshot 1 1 none,
          .handle (.engine (.liveAutoCommitProposal ⟨1, ⟨1, 1, 4, 1, 1⟩, ['蚊'], ['か'], ['x', 'a']⟩)),
          .handle (.key .backspace), .complete (.commit ['蚊'] none (some ['x', 'a']) (some 0)) true])).module
      let answer := m.handle .scalars (.engine (.commit 0 none [] (.applied ['x'] ['a'])))
      let operation := ImmediateOperation.commit ['x'] none (some ['a']) (some 1)
      answer.2.immediate = some operation ∧
        (replayed ((answer.1.complete .scalars operation true).canonicalSegments.map InputSegment.replay)).reading =
          ['あ']) ∧
    (let m := (exec (step .scalars) initial (typed ['あ'] .direct ++ typed ['x', 'q'] .kana ++
        [.retainClauseReadingPrefix ['あ', 'x']] ++ typed ['n', 'y'] .kana ++ [.handle (.key .backspace)])).module
      let answer := m.handle .scalars (.engine (.commit 0 none [] (.applied ['亜'] ['x', 'n'])))
      let operation := ImmediateOperation.commit ['亜'] none (some ['x', 'n']) none
      answer.2.immediate = some operation ∧
        (replayed ((answer.1.complete .scalars operation true).canonicalSegments.map InputSegment.replay)).reading =
          ['ん']) ∧
    ¬∀ (ops : List ModuleOp) (result : EngineResult) (remaining : Text) (operation : ImmediateOperation),
      let m := (exec (step .scalars) initial ops).module
      result.rest = some remaining → (m.handle .scalars (.engine result)).2.immediate = some operation →
        ((m.handle .scalars (.engine result)).1.complete .scalars operation true).canonicalReading = remaining := by
  refine ⟨?_, ?_, ?_, ?_, partialCommit_overflow⟩ <;> decide +kernel

end CommitSession

end Nospacekey
