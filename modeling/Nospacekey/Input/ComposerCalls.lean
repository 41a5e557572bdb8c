import Nospacekey.Composer.Retention
import Nospacekey.Composer.SuffixRetention
import Nospacekey.Input.Freshness

/-! What each call of the input module asks of its composer, and which of them keep the styles of the text. -/

namespace Nospacekey

open Utf8 Runs LocalKanaComposer

namespace LocalKanaComposer

variable {c : LocalKanaComposer} {segmentation : Segmentation}

/-- A retained beginning that no automatic literal ends keeps a composition in order. -/
theorem Composed.retainPrefix (composed : c.Composed) (fits : c.reading.length < 2 ^ 32) {front : Text}
    (sealable : Sealable c front) : (c.retainPrefix front).1.Composed := by
  by_cases begins : front.isPrefixOf c.reading = true
  · generalize movedEq : (if c.suffix.isEmpty then c else (c.setCursor c.reading.length).1) = d
    obtain ⟨stable, pending, suffix, reading, literals, parsed⟩ :=
      retainPrefix_spec composed movedEq.symm (List.isPrefixOf_iff_prefix.mp begins)
    obtain ⟨_, _, same, moved, _⟩ := cursorToEnd composed
    rw [movedEq] at same moved
    -- The cursor is at the end, where no literal ends the retained text.
    have atEnd : d.suffix = [] ∧ ∀ offset ∈ d.automaticLiterals, offset + 1 ≠ byteLength front := by
      by_cases empty : c.suffix = []
      · rw [same empty]
        exact ⟨empty, sealable.1 empty⟩
      · obtain ⟨noSuffix, noLiterals⟩ := moved empty fits
        exact ⟨noSuffix, fun offset member => by simp [noLiterals] at member⟩
    refine { parsed atEnd.1 with reading := ?_, waiting := ?_, followed := fun _ offset member => ?_ }
    · rw [reading, stable, pending, suffix, List.append_nil]
    · rw [pending]
      exact waiting_nil
    · rw [stable]
      exact atEnd.2 offset ((literals offset).mp member).1
  · have other : (!front.isPrefixOf c.reading) = true := by simp [Bool.eq_false_iff.mpr begins]
    rw [LocalKanaComposer.retainPrefix, if_pos other]
    exact composed

/-- The original of the last literal plays no part in this. -/
theorem Composed.preserveLastLiteralOriginal (composed : c.Composed) (original : Char) :
    (c.preserveLastLiteralOriginal original).Composed := by
  unfold LocalKanaComposer.preserveLastLiteralOriginal
  split
  · exact { composed with }
  · exact composed

/-- A cursor that is moved to the start is there. -/
theorem setCursor_start (fits : c.reading.length < 2 ^ 32) : (c.setCursor 0).1.cursor = 0 := by
  obtain ⟨positions, built⟩ := legalBoundaries_of_lt fits
  have first : (positions.reverse.find? fun position => position ≤ 0).getD 0 = 0 := by
    cases found : positions.reverse.find? fun position => position ≤ 0 with
    | none => rfl
    | some position => simpa using List.find?_some found
  unfold LocalKanaComposer.setCursor
  rw [built]
  dsimp only
  rw [first]
  split
  · rename_i same
    exact same.symm
  · have settled : c.freezePending.pending = [] := by
      unfold LocalKanaComposer.freezePending
      split
      · rename_i empty
        simpa using empty
      · rfl
    have nothing : takeBytes 0 c.freezePending.reading = [] := takeBytes_append [] _
    simp [cursor, settled, nothing]

/-- An adopted reading is direct text. -/
theorem Composed.adoptConversionReading (composed : c.Composed) (represented : c.Represented)
    (fits : c.reading.length < 2 ^ 32) (reading : Text) : (c.adoptConversionReading reading).1.Composed := by
  unfold LocalKanaComposer.adoptConversionReading
  split
  · exact composed
  · rename_i other
    dsimp only
    generalize resolvedEq : (if c.suffix.isEmpty && c.pending = ['n'] then
      some ((normalizeReading c.reading).dropLast ++ ['ん']) else none) = resolvedN
    split
    · exact composed
    · rename_i accepted
      obtain ⟨front, shown⟩ := represented.setCursor 0
      -- A reading that changes is not empty, so the cursor moves from its start to its end.
      have filled : c.reading ≠ [] := by
        intro empty
        have parts := represented.reading.symm.trans empty
        rw [List.append_eq_nil_iff, List.append_eq_nil_iff] at parts
        have unresolved : resolvedN = none := by simp [← resolvedEq, parts.1.2]
        refine accepted (Bool.and_eq_true_iff.mpr ⟨decide_eq_true fun same => ?_, by simp [unresolved]⟩)
        rw [empty] at same
        exact other (empty.trans same)
      have interior : (c.setCursor 0).1.suffix ≠ [] := by
        intro atEnd
        have start := setCursor_start fits
        have length := congrArg List.length front.reading
        rw [shown, atEnd, List.append_nil, List.length_append] at length
        exact filled (List.length_eq_zero_iff.mp (length.trans start))
      have moved := front.movedToEnd (by rwa [shown]) interior
      obtain ⟨_, _, _, forgets, _⟩ := cursorToEnd (composed.setCursor 0).1
      have noLiterals := (forgets interior (by rwa [shown])).2
      rw [if_neg (by simpa using interior)] at noLiterals
      rw [shown] at moved noLiterals
      generalize ((c.setCursor 0).1.setCursor c.reading.length).1 = d at moved noLiterals
      refine Settles.refresh (c := ({ d with stable := [], stableSegments := [] } : LocalKanaComposer).appendStable
        reading .direct)
        { stable := ?_, suffix := moved.suffix, plain := ?_, marked := ?_, waiting := ?_, followed := ?_ }
      · simp [appendStable]
      · intro typed member isKana
        have noSuffix : styled d.suffixSegments = [] := by
          rw [← List.map_eq_nil_iff, moved.suffix, moved.atEnd]
        simp only [appendStable, noSuffix, List.append_nil, styled_appendSegment, styled_nil, List.nil_append,
          styledText, List.mem_map] at member
        obtain ⟨_, _, rfl⟩ := member
        cases isKana
      · simp only [appendStable, noLiterals]
        exact marked_nil _ _
      · simp only [appendStable, moved.finished]
        exact waiting_nil
      · intro _ offset member
        simp [appendStable, noLiterals] at member

/-- What a call must not do to a composition for its replay to stay in order: replace it by letters that
were not typed as such, or retain a beginning that later typing can reopen. -/
def KeepsStyle (c : LocalKanaComposer) : ComposerCall → Prop
  | .reseedReading _ => False
  | .retainPrefix front => Sealable c front
  | _ => True

/-- A call that keeps the styles keeps a composition in order. -/
theorem Composed.call (composed : c.Composed) (represented : c.Represented) (fits : c.reading.length < 2 ^ 32)
    {call : ComposerCall} (keeps : c.KeepsStyle call) : (c.call segmentation call).Composed := by
  cases call with
  | push ch style => exact composed.push ch style
  | backspace => exact composed.deleteBeforeCursor segmentation false
  | backspaceAtCursor => exact composed.deleteBeforeCursor segmentation true
  | clear => exact empty_composed
  | reseedReading reading => exact keeps.elim
  | retainPrefix front => exact composed.retainPrefix fits keeps
  | retainSuffix suffix => exact composed.retainSuffix segmentation suffix
  | finalizePendingN => exact composed.finalizePendingN
  | preserveLastLiteralOriginal original => exact composed.preserveLastLiteralOriginal original
  | adoptConversionReading reading => exact composed.adoptConversionReading represented fits reading
  | setCursor requested => exact (composed.setCursor requested).1
  | moveCursor direction => exact (composed.moveCursor direction).1
  | deleteForward => exact composed.deleteForward

end LocalKanaComposer

namespace InputModule

section Composer

variable {m : InputModule} {segmentation : Segmentation}

@[simp] theorem clearCandidates_localKana (m : InputModule) : m.clearCandidates.localKana = m.localKana := rfl

@[simp] theorem invalidateLiveSnapshot_localKana (m : InputModule) :
    m.invalidateLiveSnapshot.localKana = m.localKana := rfl

@[simp] theorem invalidateLiveDisplay_localKana (m : InputModule) :
    m.invalidateLiveDisplay.localKana = m.localKana := rfl

@[simp] theorem reanchorAfterSurfaceEdit_localKana (m : InputModule) (keepLatinMode : Bool) :
    (m.reanchorAfterSurfaceEdit keepLatinMode).localKana = m.localKana := rfl

@[simp] theorem requestId_localKana (m : InputModule) : m.requestId.1.localKana = m.localKana := rfl

/-- A first key leaves the composer alone. -/
@[simp] theorem beginComposition_localKana (m : InputModule) : m.beginComposition.localKana = m.localKana := by
  unfold beginComposition
  split <;> rfl

/-- The display of a key press leaves the composer alone. -/
@[simp] theorem immediateDisplay_localKana (m : InputModule) : m.immediateDisplay.1.localKana = m.localKana := by
  unfold immediateDisplay
  split
  · rfl
  · split
    · split <;> rfl
    · rfl

/-- A typed key is pushed into the composer. -/
theorem handleText_localKana (m : InputModule) (ch : Char) (style : TextStyle) (replay : ReplayMode) :
    (m.handleText ch style replay).1.localKana = m.localKana.push ch style.input := by
  simp only [handleText]
  cases style <;>
  · simp only [immediateDisplay_localKana, requestId_localKana, invalidateLiveSnapshot_localKana]
    split <;> simp [typeKey, TextStyle.input]

/-- Navigation output leaves the composer alone. -/
@[simp] theorem readingNavigationOutput_localKana (m : InputModule) (moved : Bool) :
    (m.readingNavigationOutput moved).1.localKana = m.localKana := by
  unfold readingNavigationOutput
  split <;> rfl

/-- A candidate commit leaves the composer alone. -/
@[simp] theorem candidateCommit_localKana (m : InputModule) (index : Option Nat) :
    (m.candidateCommit index).1.localKana = m.localKana := by
  unfold candidateCommit
  dsimp only
  split <;> rfl

/-- New candidates leave the composer alone. -/
@[simp] theorem replaceCandidatesForRevision_localKana (m : InputModule) (values : List Text)
    (selected composition revision : Nat) :
    (m.replaceCandidatesForRevision values selected composition revision).1.localKana = m.localKana := by
  unfold replaceCandidatesForRevision
  split
  · rfl
  · split <;> rfl

/-- Replaced candidates leave the composer alone. -/
@[simp] theorem replaceCandidates_localKana (m : InputModule) (values : List Text) (selected : Nat)
    (reason : CandidateReplacement) : (m.replaceCandidates values selected reason).1.localKana = m.localKana := by
  unfold replaceCandidates
  split
  · simp
  · split
    · rfl
    · split
      · rfl
      · simp

/-- A commit that is answered leaves the composer alone until it is applied. -/
@[simp] theorem handleCommit_localKana (m : InputModule) (request : Nat) (candidate : Option Nat)
    (resolvedText : Text) (outcome : EngineCommitOutcome) :
    (m.handleCommit segmentation request candidate resolvedText outcome).1.localKana = m.localKana := by
  unfold handleCommit
  dsimp only
  repeat' split
  all_goals rfl

/-- A proposal leaves the composer alone until it is applied. -/
@[simp] theorem handleAutoCommitProposal_localKana (m : InputModule) (proposal : AutoCommitProposal) :
    (m.handleAutoCommitProposal segmentation proposal).1.localKana = m.localKana := by
  unfold handleAutoCommitProposal
  repeat' split
  all_goals rfl

/-- A result of the engine leaves the composer alone. -/
@[simp] theorem handleEngine_localKana (m : InputModule) (result : EngineResult) :
    (m.handleEngine segmentation result).1.localKana = m.localKana := by
  cases result with
  | reading request text =>
    simp only [handleEngine]
    split <;> simp
  | candidates request values =>
    simp only [handleEngine]
    split
    · rfl
    · split <;> simp
  | commit request candidate resolvedText outcome => simp [handleEngine]
  | disconnected request =>
    simp only [handleEngine]
    split <;> simp
  | liveSnapshot identity text =>
    simp only [handleEngine, handleLiveSnapshot]
    split <;> rfl
  | liveAutoCommitProposal proposal => simp [handleEngine]
  | explicitSnapshot identity candidates =>
    simp only [handleEngine]
    split <;> simp

/-- What a call of the module asks of its composer, if anything. -/
def ComposerStep (segmentation : Segmentation) (m n : InputModule) (op : ModuleOp) : Prop :=
  n.localKana = m.localKana ∨
    ∃ call : ComposerCall, n.localKana = m.localKana.call segmentation call ∧
      (∀ reading, call = .reseedReading reading → ∃ text candidate latinFrom,
        op = .complete (.commit text candidate (some reading) latinFrom) true ∧ reading ≠ [] ∧
          (m.localKana.retainSuffix segmentation reading).2 = false) ∧
      (∀ front, call = .retainPrefix front → op = .retainClauseReadingPrefix front)

/-- A call of the composer that replaces and cuts nothing. -/
theorem ComposerStep.of_call {n : InputModule} {op : ModuleOp} (call : ComposerCall)
    (driven : n.localKana = m.localKana.call segmentation call) (kept : ∀ reading, call ≠ .reseedReading reading)
    (whole : ∀ front, call ≠ .retainPrefix front) : ComposerStep segmentation m n op :=
  .inr ⟨call, driven, fun reading same => absurd same (kept reading), fun front same => absurd same (whole front)⟩

/-- A key asks for one call at most. -/
theorem handleKey_composerStep (m : InputModule) (key : KeyEvent) (op : ModuleOp) :
    ComposerStep segmentation m (m.handleKey segmentation key).1 op := by
  cases key with
  | text ch style replay =>
    exact .of_call (.push ch style.input) (m.handleText_localKana ch style replay) (by simp) (by simp)
  | backspace =>
    simp only [handleKey]
    split
    · unfold handleBackspace
      split
      · exact .inl rfl
      · exact .of_call .backspaceAtCursor rfl (by simp) (by simp)
    · exact .inl rfl
  | delete =>
    simp only [handleKey]
    split
    · unfold handleDelete
      dsimp only
      split
      · exact .inl rfl
      · exact .of_call .deleteForward rfl (by simp) (by simp)
    · exact .inl rfl
  | moveReading direction =>
    simp only [handleKey]
    split
    · exact .of_call (.moveCursor direction) (by simp [LocalKanaComposer.call]) (by simp) (by simp)
    · exact .inl rfl
  | readingHome =>
    simp only [handleKey]
    split
    · exact .of_call (.setCursor 0) (by simp [setReadingCursor, LocalKanaComposer.call]) (by simp) (by simp)
    · exact .inl rfl
  | readingEnd =>
    simp only [handleKey]
    split
    · exact .of_call (.setCursor (2 ^ 32 - 1)) (by simp [setReadingCursor, LocalKanaComposer.call]) (by simp) (by simp)
    · exact .inl rfl
  | space =>
    simp only [handleKey]
    split <;> exact .inl rfl
  | moveCandidate delta =>
    simp only [handleKey]
    split <;> exact .inl rfl
  | selectCandidate index =>
    simp only [handleKey]
    split <;> exact .inl rfl
  | commitCandidate index => exact .inl (by simp [handleKey])
  | enter =>
    left
    simp only [handleKey]
    split
    · simp
    · split <;> rfl
  | escape =>
    simp only [handleKey]
    split <;> exact .inl rfl
  | other => exact .inl rfl

/-- A completion resets the composer, retains what an applied partial commit leaves, or asks for nothing. -/
theorem complete_composerStep (m : InputModule) (operation : ImmediateOperation) (applied : Bool) :
    ComposerStep segmentation m (m.complete segmentation operation applied) (.complete operation applied) := by
  unfold InputModule.complete
  extract_lets settled rejected committed
  have same : settled.localKana = m.localKana := by
    simp only [settled]
    split <;> rfl
  split
  · left
    rw [← same]
    split <;> rfl
  · rename_i accepted
    have accepted : applied = true := by simpa using accepted
    split
    · rename_i text candidate remaining latinFrom
      split
      · rename_i remaining
        split
        · exact .of_call .clear rfl (by simp) (by simp)
        · rename_i filled
          cases kept : (m.localKana.retainSuffix segmentation remaining).2 with
          | true =>
            refine .of_call (.retainSuffix remaining) ?_ (by simp) (by simp)
            simp [committed, same, kept, reseedAfterPartialCommitWithLatin, LocalKanaComposer.call]
          | false =>
            refine .inr ⟨.reseedReading remaining, ?_, fun reading chosen => ?_, (by simp)⟩
            · simp [committed, same, kept, reseedAfterPartialCommitWithLatin, LocalKanaComposer.call]
            · cases chosen
              exact ⟨text, candidate, latinFrom, by rw [accepted], by simpa using filled, kept⟩
      · exact .of_call .clear rfl (by simp) (by simp)
    · exact .of_call .clear rfl (by simp) (by simp)
    · exact .inl same

variable (segmentation) in
/-- Every call of the module asks for one call of its composer at most. -/
theorem step_composerStep (m : InputModule) (op : ModuleOp) :
    ComposerStep segmentation m (SnapshotSession.step segmentation ⟨m, []⟩ op).module op := by
  cases op with
  | handle event =>
    simp only [SnapshotSession.step]
    cases event with
    | key key => exact m.handleKey_composerStep key _
    | lifecycle event =>
      cases event with
      | activated => exact .inl rfl
      | deactivated =>
        simp only [handle]
        split <;> exact .inl rfl
    | engine result => exact .inl (by simp [handle])
    | candidates event =>
      cases event with
      | replace values selected reason => exact .inl (by simp [handle])
      | closed => exact .inl rfl
  | complete operation applied => exact m.complete_composerStep operation applied
  | liveSnapshot configuration connection context =>
    simp only [SnapshotSession.step, InputModule.liveSnapshot]
    split
    · exact .inl rfl
    · unfold issueSnapshot
      split <;> exact .inl rfl
  | explicitSnapshot configuration connection context =>
    simp only [SnapshotSession.step, InputModule.explicitSnapshot]
    split
    · exact .inl rfl
    · unfold issueSnapshot
      split <;> exact .inl rfl
  | rebindExpectedSnapshotConnection configuration connection =>
    simp only [SnapshotSession.step, InputModule.rebindExpectedSnapshotConnection]
    split
    · exact .inl rfl
    · split <;> exact .inl rfl
  | finalizePendingN =>
    simp only [SnapshotSession.step, InputModule.finalizePendingN]
    split
    · exact .inl rfl
    · split
      · exact .inl rfl
      · exact .of_call .finalizePendingN rfl (by simp) (by simp)
  | adoptConversionReading reading =>
    simp only [SnapshotSession.step, InputModule.adoptConversionReading]
    split
    · exact .inl rfl
    · exact .of_call (.adoptConversionReading reading) rfl (by simp) (by simp)
  | retainClauseReadingPrefix front =>
    simp only [SnapshotSession.step, InputModule.retainClauseReadingPrefix]
    split
    · exact .inl rfl
    · split
      · exact .inl rfl
      · split
        · exact .inl rfl
        · refine .inr ⟨.retainPrefix front, rfl, (by simp), fun other same => ?_⟩
          cases same
          rfl
  | preserveLastLiteralOriginal original => exact .of_call (.preserveLastLiteralOriginal original) rfl (by simp) (by simp)
  | setReadingCursor cursor =>
    exact .of_call (.setCursor cursor) (by simp [SnapshotSession.step, setReadingCursor, LocalKanaComposer.call])
      (by simp) (by simp)
  | reset => exact .of_call .clear rfl (by simp) (by simp)
  | setAwaitingLlm awaiting =>
    simp only [SnapshotSession.step, InputModule.setAwaitingLlm]
    split <;> exact .inl rfl
  | setNotation kind => exact .inl rfl
  | invalidateLiveSnapshot | invalidateLiveDisplay => exact .inl rfl
  | takeAutoCommitReceipt => exact .inl rfl
  | backgroundReseed => exact .inl rfl

end Composer

end InputModule

end Nospacekey
