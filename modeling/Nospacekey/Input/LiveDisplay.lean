import Nospacekey.Input.CandidatePane

/-! The text of a typed key is the reading, or a settled conversion with the kana that extends it. -/

namespace Nospacekey

open Runs LocalKanaComposer

namespace LocalKanaComposer

/-- The roman parser never loses all of its text. -/
theorem advanceWithin_ne_nil {c : LocalKanaComposer} (filled : c.stable ++ c.pending ≠ []) (fuel : Nat) :
    (c.advanceWithin fuel).stable ++ (c.advanceWithin fuel).pending ≠ [] := by
  -- Each round moves a unit of its own text to the stable text.
  induction fuel generalizing c with
  | zero => exact filled
  | succ fuel ih =>
    unfold advanceWithin
    cases found : nextUnit c.pending with
    | none => exact filled
    | some unit =>
      refine ih ?_
      have moved := nextUnit_text found
      simp [acceptUnit, appendInputUnit, appendStable, moved]

/-- A pushed key leaves a reading. -/
theorem push_reading_ne_nil (c : LocalKanaComposer) (ch : Char) (style : InputStyle) :
    (c.push ch style).reading ≠ [] := by
  cases style with
  | kana =>
    have parsed (d : LocalKanaComposer) (some' : d.pending ≠ []) :
        d.advancePending.stable ++ d.advancePending.pending ≠ [] := advanceWithin_ne_nil (by simp [some']) _
    intro lost
    simp only [push, withDetached, refreshReading, List.append_assoc, List.append_eq_nil_iff] at lost
    have gone := List.append_eq_nil_iff.mpr ⟨lost.1, lost.2.1⟩
    exact parsed _ (by simp) gone
  | direct => simp [push, withDetached, refreshReading, appendInputUnit, appendStable]

end LocalKanaComposer

namespace InputModule

/-- The module after a call. -/
def call (segmentation : Segmentation) (m : InputModule) (op : ModuleOp) : InputModule :=
  (SnapshotSession.step segmentation ⟨m, []⟩ op).module

end InputModule

/-- A call that edits, moves in, cuts, finishes, starts or renames the composition, shows candidates or loses the
connection. -/
@[grind =] def ModuleOp.disturbs (segmentation : Segmentation) (m : InputModule) (op : ModuleOp) : Bool :=
  (op.output segmentation m).shows.isSome ||
    match op with
    | .handle (.key (.text ..)) => !m.state.composing
    | .handle (.key .backspace) => true
    | .handle (.key .delete) => m.state.composing && m.localKana.deleteForward.2
    | .handle (.key (.moveReading direction)) => m.state.composing && (m.localKana.moveCursor direction).2
    | .handle (.key .readingHome) => m.state.composing && (m.localKana.setCursor 0).2
    | .handle (.key .readingEnd) => m.state.composing && (m.localKana.setCursor (2 ^ 32 - 1)).2
    | .handle (.key (.moveCandidate _)) => !m.candidates.isEmpty
    | .handle (.key (.selectCandidate _)) => !m.candidates.isEmpty
    | .handle (.engine (.disconnected _)) => true
    | .complete (.commit ..) applied => applied
    | .complete .cancel _ => true
    | .rebindExpectedSnapshotConnection configuration connection =>
      (m.rebindExpectedSnapshotConnection configuration connection).2
    | .finalizePendingN => m.finalizePendingN.2 = some true
    | .adoptConversionReading reading => (m.adoptConversionReading reading).2
    | .retainClauseReadingPrefix front => (m.retainClauseReadingPrefix front).2.isSome
    | .setReadingCursor cursor => (m.localKana.setCursor cursor).2
    | .setNotation _ => true
    | .invalidateLiveDisplay => true
    | .reset => true
    | _ => false

/-- A call reports what became of a preedit. -/
def ModuleOp.settles : ModuleOp → Bool
  | .complete (.setPreedit _) _ => true
  | _ => false

namespace InputModule

variable {m n : InputModule} {segmentation : Segmentation}

/-- A display that waits or stands belongs to a composition that goes on at the end of its reading. -/
structure Steady (m : InputModule) : Prop where
  anchored : m.liveDisplayAnchor ≠ none → m.state.composing = true ∧ m.localKana.cursorAtEnd = true
  waiting : m.pendingLiveDisplay ≠ none → m.state.composing = true ∧ m.localKana.cursorAtEnd = true
  expected : ∀ identity, m.expectedSnapshot = some (identity, .live) → m.localKana.cursorAtEnd = true

/-- What a call does to the live display. -/
inductive DisplayStep (segmentation : Segmentation) (m : InputModule) (op : ModuleOp) (n : InputModule) : Prop where
  /-- The display stays as it is. -/
  | keeps (anchor : n.liveDisplayAnchor = m.liveDisplayAnchor) (pending : n.pendingLiveDisplay = m.pendingLiveDisplay)
      (quiet : op.disturbs segmentation m = false) (unsettled : op.settles = false)
  /-- The display is dropped. -/
  | drops (anchor : n.liveDisplayAnchor = none) (pending : n.pendingLiveDisplay = none)
  /-- A display that waits is withdrawn. -/
  | withdraws (anchor : n.liveDisplayAnchor = m.liveDisplayAnchor) (pending : n.pendingLiveDisplay = none)
      (quiet : op.disturbs segmentation m = false) (unsettled : op.settles = false)
  /-- The reply of a snapshot is shown, and waits for the document. -/
  | accepts (identity : SnapshotTicket) (text : Text) (result : op = .handle (.engine (.liveSnapshot identity text)))
      (atEnd : m.localKana.cursorAtEnd = true) (anchor : n.liveDisplayAnchor = m.liveDisplayAnchor)
      (shown : (m.handle segmentation (.engine (.liveSnapshot identity text))).2 =
        ⟨false, some (.setPreedit text), none⟩)
      (pending : n.pendingLiveDisplay = some (text,
        if text.isEmpty then none
        else if m.localKana.pending.isEmpty then some ⟨m.localKana.stable, text⟩ else m.liveDisplayAnchor))
  /-- The document has applied what waited, or it was another text or rejected. -/
  | settles (text : Text) (applied : Bool) (report : op = .complete (.setPreedit text) applied)
      (pending : n.pendingLiveDisplay = none)
      (anchor : n.liveDisplayAnchor = m.liveDisplayAnchor ∨
        applied = true ∧ m.pendingLiveDisplay = some (text, n.liveDisplayAnchor))

/-- A call outside the display keeps it. -/
theorem Steady.keep (steady : m.Steady) {op : ModuleOp} (kana : n.localKana.suffix = m.localKana.suffix)
    (composing : n.state.composing = m.state.composing) (anchor : n.liveDisplayAnchor = m.liveDisplayAnchor)
    (pending : n.pendingLiveDisplay = m.pendingLiveDisplay)
    (expected : ∀ identity, n.expectedSnapshot = some (identity, .live) →
      m.localKana.cursorAtEnd = true ∨ m.expectedSnapshot = some (identity, .live))
    (quiet : op.disturbs segmentation m = false) (unsettled : op.settles = false) :
    n.Steady ∧ DisplayStep segmentation m op n := by
  have atEnd : n.localKana.cursorAtEnd = m.localKana.cursorAtEnd := congrArg List.isEmpty kana
  refine ⟨⟨?_, ?_, fun identity held => ?_⟩, .keeps anchor pending quiet unsettled⟩
  · rw [anchor, composing, atEnd]
    exact steady.anchored
  · rw [pending, composing, atEnd]
    exact steady.waiting
  · rw [atEnd]
    exact (expected identity held).elim id (steady.expected identity)

/-- A call that drops the display may do anything to the composition, as long as no reply is expected for it. -/
theorem drop_displayStep {op : ModuleOp} (anchor : n.liveDisplayAnchor = none) (pending : n.pendingLiveDisplay = none)
    (expected : ∀ identity, n.expectedSnapshot = some (identity, .live) → n.localKana.cursorAtEnd = true) :
    n.Steady ∧ DisplayStep segmentation m op n :=
  ⟨⟨fun held => absurd anchor held, fun held => absurd pending held, expected⟩, .drops anchor pending⟩

/-- Where no snapshot is expected either, none can find the cursor elsewhere. -/
theorem forget_displayStep {op : ModuleOp} (anchor : n.liveDisplayAnchor = none) (pending : n.pendingLiveDisplay = none)
    (expected : n.expectedSnapshot = none) : n.Steady ∧ DisplayStep segmentation m op n := by
  refine drop_displayStep anchor pending fun identity held => ?_
  rw [expected] at held
  cases held

/-- A typed key as it stands before its text is chosen. -/
theorem handleText_typed (m : InputModule) (ch : Char) (style : TextStyle) (replay : ReplayMode) :
    ∃ typed : InputModule, typed.localKana = m.localKana.push ch style.input ∧ typed.state.composing = true ∧
      typed.liveDisplayAnchor = m.liveDisplayAnchor ∧ typed.pendingLiveDisplay = none ∧
      typed.expectedSnapshot = none ∧ (m.handleText ch style replay).1 = typed.immediateDisplay.1 ∧
      (m.handleText ch style replay).2.immediate = some (.setPreedit typed.immediateDisplay.2) := by
  unfold handleText
  extract_lets cursorEdit typed anchored withdrawn
  have kana : typed.localKana = m.localKana.push ch style.input := by
    simp only [typed]
    cases style <;> simp [typeKey, TextStyle.input]
  have same : anchored.localKana = typed.localKana ∧ anchored.liveDisplayAnchor = typed.liveDisplayAnchor := by
    simp only [anchored]
    split <;> exact ⟨rfl, rfl⟩
  have anchor : typed.liveDisplayAnchor = m.liveDisplayAnchor := by
    simp only [typed]
    unfold beginComposition
    cases style <;> split <;> rfl
  have composing : anchored.state.composing = true := by
    simp only [anchored]
    split
    · -- The pushed key leaves a reading, so the composition goes on with it.
      have filled := push_reading_ne_nil m.localKana ch style.input
      rw [← kana] at filled
      simpa [reanchorAfterSurfaceEdit] using filled
    · simp only [typed]
      cases style <;> rfl
  exact ⟨withdrawn.requestId.1, same.1.trans kana, composing, same.2.trans anchor, rfl, rfl, rfl, rfl⟩

/-- The text of a key press is the reading, and the display goes, or it is spliced at the display that stands. -/
theorem immediateDisplay_cases (m : InputModule) :
    (m.immediateDisplay = (m.invalidateLiveDisplay, m.canonicalReading)) ∨
      ∃ anchor rest, m.liveDisplayAnchor = some anchor ∧ m.localKana.cursorAtEnd = true ∧
        m.localKana.stable = anchor.reading ++ rest ∧
        m.immediateDisplay = (m, anchor.text ++ rest ++ m.localKana.pending) := by
  unfold immediateDisplay
  split
  · exact .inl rfl
  · rename_i atEnd
    split
    · rename_i anchor held
      split
      · rename_i extends'
        obtain ⟨rest, whole⟩ := List.isPrefixOf_iff_prefix.mp extends'
        right
        refine ⟨anchor, rest, held, by simpa using atEnd, whole.symm, ?_⟩
        rw [← whole, List.drop_left]
      · exact .inl rfl
    · exact .inl rfl

/-- A typed key keeps the display that its text is spliced at, and drops any other. -/
theorem handleText_displayStep (steady : m.Steady) (ch : Char) (style : TextStyle) (replay : ReplayMode) :
    (m.handleText ch style replay).1.Steady ∧
      DisplayStep segmentation m (.handle (.key (.text ch style replay))) (m.handleText ch style replay).1 := by
  obtain ⟨typed, _, composing, anchor, pending, expected, result, output⟩ := m.handleText_typed ch style replay
  rw [result]
  obtain dropped | ⟨held, rest, stands, atEnd, _, shown⟩ := typed.immediateDisplay_cases
  · rw [dropped]
    exact drop_displayStep rfl rfl (by simp [invalidateLiveDisplay, expected])
  · rw [shown]
    have before := (steady.anchored (by simp [← anchor, stands])).1
    refine ⟨⟨fun _ => ⟨composing, atEnd⟩, fun waits => absurd pending waits, by simp [expected]⟩,
      .withdraws anchor pending ?_ rfl⟩
    simp [ModuleOp.disturbs, ModuleOp.output, handle, handleKey, ModuleOutput.shows, output, before]

/-- A call that changes nothing keeps the display. -/
theorem Steady.idle (steady : m.Steady) {op : ModuleOp} (quiet : op.disturbs segmentation m = false)
    (unsettled : op.settles = false) : m.Steady ∧ DisplayStep segmentation m op m :=
  steady.keep rfl rfl rfl rfl (fun _ held => .inr held) quiet unsettled

/-- A withdrawn snapshot takes with it the display that waits for it. -/
theorem Steady.withdraw (steady : m.Steady) {op : ModuleOp} (kana : n.localKana.suffix = m.localKana.suffix)
    (composing : n.state.composing = m.state.composing) (anchor : n.liveDisplayAnchor = m.liveDisplayAnchor)
    (pending : n.pendingLiveDisplay = none) (expected : n.expectedSnapshot = none)
    (quiet : op.disturbs segmentation m = false) (unsettled : op.settles = false) :
    n.Steady ∧ DisplayStep segmentation m op n := by
  have atEnd : n.localKana.cursorAtEnd = m.localKana.cursorAtEnd := congrArg List.isEmpty kana
  refine ⟨⟨?_, fun waits => absurd pending waits, by simp [expected]⟩, .withdraws anchor pending quiet unsettled⟩
  rw [anchor, composing, atEnd]
  exact steady.anchored

/-- A cursor that moves drops the display, and one that does not keeps it. -/
theorem navigation_displayStep (steady : m.Steady) {op : ModuleOp} {c : LocalKanaComposer} {moved : Bool}
    (stuck : moved = false → c = m.localKana) (quiet : moved = false → op.disturbs segmentation m = false)
    (unsettled : op.settles = false) :
    ({ m with localKana := c }.readingNavigationOutput moved).1.Steady ∧
      DisplayStep segmentation m op ({ m with localKana := c }.readingNavigationOutput moved).1 := by
  cases moved with
  | false =>
    obtain rfl := stuck rfl
    exact steady.idle (quiet rfl) unsettled
  | true => exact forget_displayStep rfl rfl rfl

/-- Navigation shows no candidates. -/
theorem readingNavigationOutput_unshown (m : InputModule) (moved : Bool) :
    (m.readingNavigationOutput moved).2.shows = none := by
  cases moved <;> rfl

/-- A candidate commit keeps the display, and shows no candidates. -/
theorem candidateCommit_displayStep (steady : m.Steady) {op : ModuleOp} (index : Option Nat)
    (quiet : op.disturbs segmentation m = false) (unsettled : op.settles = false) :
    (m.candidateCommit index).1.Steady ∧ DisplayStep segmentation m op (m.candidateCommit index).1 := by
  unfold candidateCommit
  dsimp only
  split
  · exact steady.keep rfl rfl rfl rfl (fun _ held => .inr held) quiet unsettled
  · exact steady.idle quiet unsettled

/-- Candidates that are shown drop the display, and others keep it. -/
theorem replaceCandidatesForRevision_displayStep (steady : m.Steady) {op : ModuleOp} (values : List Text)
    (selected composition revision : Nat)
    (quiet : (m.replaceCandidatesForRevision values selected composition revision).2 = .default →
      op.disturbs segmentation m = false) (unsettled : op.settles = false) :
    (m.replaceCandidatesForRevision values selected composition revision).1.Steady ∧
      DisplayStep segmentation m op (m.replaceCandidatesForRevision values selected composition revision).1 := by
  unfold replaceCandidatesForRevision at quiet ⊢
  split
  · rename_i refused
    exact steady.idle (quiet (by rw [if_pos refused])) unsettled
  · rename_i current
    split
    · rename_i empty
      exact steady.keep rfl rfl rfl rfl (fun _ held => .inr held) (quiet (by rw [if_neg current, if_pos empty])) unsettled
    · exact drop_displayStep rfl rfl steady.expected

/-- Candidates that replace others drop the display, unless they are refused. -/
theorem replaceCandidates_displayStep (steady : m.Steady) (values : List Text) (selected : Nat)
    (reason : CandidateReplacement) :
    (m.replaceCandidates values selected reason).1.Steady ∧
      DisplayStep segmentation m (.handle (.candidates (.replace values selected reason)))
        (m.replaceCandidates values selected reason).1 := by
  have quiet : (m.replaceCandidates values selected reason).2 = .default →
      ModuleOp.disturbs segmentation m (.handle (.candidates (.replace values selected reason))) = false := by
    intro refused
    simp [ModuleOp.disturbs, ModuleOp.output, handle, refused, ModuleOutput.shows, ModuleOutput.default]
  cases reason with
  | newResult => exact replaceCandidatesForRevision_displayStep steady values selected _ _ quiet rfl
  | userDriven =>
    simp only [replaceCandidates] at quiet ⊢
    split
    · rename_i hidden
      exact steady.idle (quiet (by rw [hidden])) rfl
    · rename_i current displayed
      rw [displayed] at quiet
      dsimp only at quiet
      split
      · rename_i refused
        exact steady.idle (quiet (by rw [if_pos refused])) rfl
      · rename_i asked
        simp only [Bool.or_eq_true, not_or, Bool.not_eq_true] at asked
        have filled : values.isEmpty = false := asked.1.1.1
        have accepted : (m.composition ≠ m.composition || m.revision ≠ m.revision || false) = false := by simp
        unfold replaceCandidatesForRevision
        simp only [accepted, filled, Bool.false_eq_true, if_false]
        exact drop_displayStep rfl rfl steady.expected

/-- A rebound connection drops the display, and otherwise there was nothing to rebind. -/
theorem rebindExpectedSnapshotConnection_displayStep (steady : m.Steady) (configuration connection : Nat) :
    (m.rebindExpectedSnapshotConnection configuration connection).1.Steady ∧
      DisplayStep segmentation m (.rebindExpectedSnapshotConnection configuration connection)
        (m.rebindExpectedSnapshotConnection configuration connection).1 := by
  have quiet : (m.rebindExpectedSnapshotConnection configuration connection).2 = false →
      ModuleOp.disturbs segmentation m (.rebindExpectedSnapshotConnection configuration connection) = false :=
    fun refused => refused
  unfold rebindExpectedSnapshotConnection at quiet ⊢
  cases expected : m.expectedSnapshot with
  | none => exact steady.idle (quiet (by rw [expected])) rfl
  | some awaited =>
    obtain ⟨identity, purpose⟩ := awaited
    simp only [expected] at quiet ⊢
    split
    · rename_i other
      exact steady.idle (quiet (by rw [if_pos other])) rfl
    · refine drop_displayStep rfl rfl fun rebound held => ?_
      -- The purpose of the snapshot stays, so a live one was expected before.
      obtain ⟨rfl, rfl⟩ := Prod.mk.inj (Option.some.inj held)
      exact steady.expected identity expected

/-- What a key does to the live display. -/
theorem handleKey_displayStep (steady : m.Steady)
    (spelled : m.localKana.reading = m.localKana.stable ++ m.localKana.pending ++ m.localKana.suffix) (key : KeyEvent) :
    (m.handleKey segmentation key).1.Steady ∧
      DisplayStep segmentation m (.handle (.key key)) (m.handleKey segmentation key).1 := by
  -- Without a composition no display stands or waits.
  have without (stopped : ¬ m.state.composing = true) : m.liveDisplayAnchor = none ∧ m.pendingLiveDisplay = none :=
    ⟨Classical.not_not.mp fun held => stopped (steady.anchored held).1,
      Classical.not_not.mp fun held => stopped (steady.waiting held).1⟩
  cases key with
  | text ch style replay => exact handleText_displayStep steady ch style replay
  | moveReading direction =>
    simp only [handleKey]
    split
    · rename_i composing
      refine navigation_displayStep steady moveCursor_of_stuck (fun stuck => ?_) rfl
      simpa [ModuleOp.disturbs, ModuleOp.output, handle, handleKey, composing, readingNavigationOutput_unshown]
        using stuck
    · rename_i stopped
      exact drop_displayStep (without stopped).1 (without stopped).2 steady.expected
  | readingHome =>
    simp only [handleKey]
    split
    · rename_i composing
      refine navigation_displayStep steady setCursor_of_stuck (fun stuck => ?_) rfl
      simpa [ModuleOp.disturbs, ModuleOp.output, handle, handleKey, composing, setReadingCursor,
        readingNavigationOutput_unshown] using stuck
    · rename_i stopped
      exact drop_displayStep (without stopped).1 (without stopped).2 steady.expected
  | readingEnd =>
    simp only [handleKey]
    split
    · rename_i composing
      refine navigation_displayStep steady setCursor_of_stuck (fun stuck => ?_) rfl
      simpa [ModuleOp.disturbs, ModuleOp.output, handle, handleKey, composing, setReadingCursor,
        readingNavigationOutput_unshown] using stuck
    · rename_i stopped
      exact drop_displayStep (without stopped).1 (without stopped).2 steady.expected
  | delete =>
    simp only [handleKey]
    split
    · rename_i composing
      unfold handleDelete
      dsimp only
      split
      · rename_i stuck
        have stuck : m.localKana.deleteForward.2 = false := by simpa using stuck
        refine steady.idle ?_ rfl
        simp [ModuleOp.disturbs, ModuleOp.output, handle, handleKey, handleDelete, composing, stuck,
          ModuleOutput.shows, ModuleOutput.swallowed]
      · exact forget_displayStep rfl rfl rfl
    · rename_i stopped
      exact drop_displayStep (without stopped).1 (without stopped).2 steady.expected
  | backspace =>
    simp only [handleKey]
    split
    · unfold handleBackspace
      split
      · -- At the start of a reading no display stands, for it would stand at the end.
        rename_i start
        obtain ⟨⟨stable, pending⟩, filled⟩ :
            (m.localKana.stable = [] ∧ m.localKana.pending = []) ∧ ¬ m.localKana.reading = [] := by
          simpa [LocalKanaComposer.cursor, canonicalReading] using start
        have interior : ¬ m.localKana.cursorAtEnd = true := by
          intro atEnd
          have whole : m.localKana.suffix = [] := by simpa [cursorAtEnd] using atEnd
          exact filled (by simp [spelled, stable, pending, whole])
        exact drop_displayStep (Classical.not_not.mp fun held => interior (steady.anchored held).2)
          (Classical.not_not.mp fun held => interior (steady.waiting held).2) steady.expected
      · exact forget_displayStep rfl rfl rfl
    · rename_i stopped
      exact drop_displayStep (without stopped).1 (without stopped).2 steady.expected
  | space =>
    have quiet : ModuleOp.disturbs segmentation m (.handle (.key .space)) = false := by
      simp only [ModuleOp.disturbs, ModuleOp.output, handle, handleKey]
      split <;> rfl
    simp only [handleKey]
    split
    · exact steady.keep rfl rfl rfl rfl (fun _ held => .inr held) quiet rfl
    · exact steady.idle quiet rfl
  | moveCandidate delta =>
    simp only [handleKey]
    split
    · rename_i nothing
      refine steady.idle ?_ rfl
      simp [ModuleOp.disturbs, ModuleOp.output, handle, handleKey, nothing, ModuleOutput.shows, ModuleOutput.default]
    · exact drop_displayStep rfl rfl steady.expected
  | selectCandidate index =>
    simp only [handleKey]
    split
    · rename_i nothing
      refine steady.idle ?_ rfl
      simp [ModuleOp.disturbs, ModuleOp.output, handle, handleKey, nothing, ModuleOutput.shows, ModuleOutput.default]
    · exact drop_displayStep rfl rfl steady.expected
  | commitCandidate index =>
    refine candidateCommit_displayStep steady index ?_ rfl
    simp [ModuleOp.disturbs, ModuleOp.output, handle, handleKey, ModuleOutput.shows, candidateCommit_immediate]
  | enter =>
    have quiet : ModuleOp.disturbs segmentation m (.handle (.key .enter)) = false := by
      simp only [ModuleOp.disturbs, ModuleOp.output, handle, handleKey]
      split
      · simp [ModuleOutput.shows, candidateCommit_immediate]
      · split <;> rfl
    simp only [handleKey]
    split
    · exact candidateCommit_displayStep steady none quiet rfl
    · split <;> exact steady.idle quiet rfl
  | escape =>
    have quiet : ModuleOp.disturbs segmentation m (.handle (.key .escape)) = false := by
      simp only [ModuleOp.disturbs, ModuleOp.output, handle, handleKey]
      split <;> rfl
    simp only [handleKey]
    split <;> exact steady.idle quiet rfl
  | other => exact steady.idle rfl rfl

/-- A commit that is answered keeps the display until it is completed. -/
theorem handleCommit_displayStep (steady : m.Steady) (request : Nat) (candidate : Option Nat) (resolvedText : Text)
    (outcome : EngineCommitOutcome) :
    (m.handleCommit segmentation request candidate resolvedText outcome).1.Steady ∧
      DisplayStep segmentation m (.handle (.engine (.commit request candidate resolvedText outcome)))
        (m.handleCommit segmentation request candidate resolvedText outcome).1 := by
  have quiet : ModuleOp.disturbs segmentation m
      (.handle (.engine (.commit request candidate resolvedText outcome))) = false := by
    have unshown : (m.handleCommit segmentation request candidate resolvedText outcome).2.shows = none := by
      unfold handleCommit
      dsimp only
      repeat' split
      all_goals first
        | rfl
        | exact commitOperation_unshown (by assumption)
    simp [ModuleOp.disturbs, ModuleOp.output, handle, handleEngine, unshown]
  unfold handleCommit
  dsimp only
  repeat' split
  all_goals exact steady.keep rfl rfl rfl rfl (fun _ held => .inr held) quiet rfl

/-- The reply of a snapshot disturbs nothing. -/
theorem liveSnapshot_undisturbed (m : InputModule) (identity : SnapshotTicket) (text : Text) :
    ModuleOp.disturbs segmentation m (.handle (.engine (.liveSnapshot identity text))) = false := by
  simp only [ModuleOp.disturbs, ModuleOp.output, handle, handleEngine, handleLiveSnapshot]
  split <;> rfl

/-- What a result of the engine does to the live display. -/
theorem handleEngine_displayStep (steady : m.Steady) (result : EngineResult) :
    (m.handleEngine segmentation result).1.Steady ∧
      DisplayStep segmentation m (.handle (.engine result)) (m.handleEngine segmentation result).1 := by
  cases result with
  | reading request text =>
    have quiet : ModuleOp.disturbs segmentation m (.handle (.engine (.reading request text))) = false := by
      simp only [ModuleOp.disturbs, ModuleOp.output, handle, handleEngine]
      split <;> rfl
    simp only [handleEngine]
    split
    · exact steady.idle quiet rfl
    · obtain dropped | ⟨_, _, _, _, _, shown⟩ := m.immediateDisplay_cases
      · rw [dropped]
        exact drop_displayStep rfl rfl steady.expected
      · rw [shown]
        exact steady.idle quiet rfl
  | candidates request values =>
    have quiet : (m.handleEngine segmentation (.candidates request values)).2 = .default →
        ModuleOp.disturbs segmentation m (.handle (.engine (.candidates request values))) = false := by
      intro refused
      simp [ModuleOp.disturbs, ModuleOp.output, handle, refused, ModuleOutput.shows, ModuleOutput.default]
    simp only [handleEngine] at quiet ⊢
    split
    · rename_i nothing
      exact steady.idle (quiet (by rw [nothing])) rfl
    · rename_i expected composition revision awaited
      split
      · rename_i other
        exact steady.idle (quiet (by rw [awaited]; simp [other])) rfl
      · rename_i same
        refine replaceCandidatesForRevision_displayStep steady values 0 _ _ (fun refused => quiet ?_) rfl
        rw [awaited]
        simpa [same] using refused
  | commit request candidate resolvedText outcome =>
    exact handleCommit_displayStep steady request candidate resolvedText outcome
  | disconnected request =>
    simp only [handleEngine]
    split <;> exact drop_displayStep rfl rfl steady.expected
  | liveSnapshot identity text =>
    have quiet : ModuleOp.disturbs segmentation m (.handle (.engine (.liveSnapshot identity text))) = false :=
      m.liveSnapshot_undisturbed identity text
    simp only [handleEngine]
    unfold handleLiveSnapshot
    split
    · exact steady.idle quiet rfl
    · rename_i accepted
      simp only [Bool.or_eq_true, not_or, decide_eq_true_eq, not_not, Bool.not_eq_true', Bool.not_eq_false] at accepted
      have atEnd := steady.expected identity accepted.1.2
      have shown : (m.handle segmentation (.engine (.liveSnapshot identity text))).2 =
          ⟨false, some (.setPreedit text), none⟩ := by
        simp [handle, handleEngine, handleLiveSnapshot, accepted, displayOperation]
      exact ⟨⟨steady.anchored, fun _ => ⟨accepted.2, atEnd⟩, steady.expected⟩,
        .accepts identity text rfl atEnd rfl shown rfl⟩
  | liveAutoCommitProposal proposal =>
    have quiet : ModuleOp.disturbs segmentation m (.handle (.engine (.liveAutoCommitProposal proposal))) = false := by
      simp only [ModuleOp.disturbs, ModuleOp.output, handle, handleEngine, handleAutoCommitProposal]
      repeat' split
      all_goals rfl
    simp only [handleEngine, handleAutoCommitProposal]
    repeat' split
    all_goals exact steady.keep rfl rfl rfl rfl (fun _ held => .inr held) quiet rfl
  | explicitSnapshot identity values =>
    have quiet : (m.handleEngine segmentation (.explicitSnapshot identity values)).2 = .default →
        ModuleOp.disturbs segmentation m (.handle (.engine (.explicitSnapshot identity values))) = false := by
      intro refused
      simp [ModuleOp.disturbs, ModuleOp.output, handle, refused, ModuleOutput.shows, ModuleOutput.default]
    simp only [handleEngine] at quiet ⊢
    split
    · rename_i refused
      exact steady.idle (quiet (by rw [if_pos refused])) rfl
    · rename_i accepted
      refine replaceCandidatesForRevision_displayStep steady values 0 _ _ (fun refused => quiet ?_) rfl
      rw [if_neg accepted]
      exact refused

/-- What a completion does to the live display. -/
theorem complete_displayStep (steady : m.Steady) (operation : ImmediateOperation) (applied : Bool) :
    (m.complete segmentation operation applied).Steady ∧
      DisplayStep segmentation m (.complete operation applied) (m.complete segmentation operation applied) := by
  have unshown : (ModuleOp.output segmentation m (.complete operation applied)).shows = none := rfl
  cases operation with
  | setPreedit text =>
    -- Whatever waited is settled by the report, and stands if it was applied as it was.
    cases waits : m.pendingLiveDisplay with
    | none =>
      have same : m.complete segmentation (.setPreedit text) applied =
          if applied then m else { m with pendingAutoCommit := none } := by
        cases applied <;> simp [complete, waits]
      rw [same]
      split <;>
      · exact ⟨⟨steady.anchored, steady.waiting, steady.expected⟩, .settles text applied rfl waits (.inl rfl)⟩
    | some awaited =>
      obtain ⟨awaitedText, anchor⟩ := awaited
      have belongs := steady.waiting (by simp [waits])
      refine ⟨?_, .settles text applied rfl ?_ ?_⟩
      · have settled : ∀ n : InputModule, n.state = m.state → n.localKana = m.localKana →
            n.expectedSnapshot = m.expectedSnapshot → n.Steady := by
          intro n state kana expected
          refine ⟨fun _ => ?_, fun _ => ?_, ?_⟩
          · rw [state, kana]
            exact belongs
          · rw [state, kana]
            exact belongs
          · rw [expected, kana]
            exact steady.expected
        cases applied <;> exact settled _ (by simp [complete, waits]) (by simp [complete, waits]) (by simp [complete, waits])
      · cases applied <;> simp [complete, waits]
      · cases applied with
        | false => simp [complete, waits]
        | true =>
          by_cases same : text = awaitedText
          · subst same
            simp [complete, waits]
          · simp [complete, waits, same]
  | showCandidates identity values selected =>
    have same : m.complete segmentation (.showCandidates identity values selected) applied =
        if applied then m else { m with pendingAutoCommit := none } := by
      cases applied <;> simp [complete]
    rw [same]
    split <;> exact steady.keep rfl rfl rfl rfl (fun _ held => .inr held) rfl rfl
  | cancel =>
    cases applied with
    | true => exact forget_displayStep rfl rfl rfl
    | false => exact forget_displayStep rfl rfl rfl
  | commit text candidate remaining latinFrom =>
    cases applied with
    | false => exact steady.keep rfl rfl rfl rfl (fun _ held => .inr held) rfl rfl
    | true =>
      cases remaining with
      | none => exact forget_displayStep rfl rfl rfl
      | some rest =>
        cases rest with
        | nil => exact forget_displayStep rfl rfl rfl
        | cons first rest => exact forget_displayStep rfl rfl rfl

variable (segmentation) in
/-- What a call does to the live display. -/
theorem call_displayStep (steady : m.Steady)
    (spelled : m.localKana.reading = m.localKana.stable ++ m.localKana.pending ++ m.localKana.suffix) (op : ModuleOp) :
    (m.call segmentation op).Steady ∧ DisplayStep segmentation m op (m.call segmentation op) := by
  cases op with
  | handle event =>
    cases event with
    | key key => exact handleKey_displayStep steady spelled key
    | lifecycle event =>
      have quiet : ModuleOp.disturbs segmentation m (.handle (.lifecycle event)) = false := by
        cases event with
        | activated => rfl
        | deactivated =>
          simp only [ModuleOp.disturbs, ModuleOp.output, handle]
          split <;> rfl
      cases event with
      | activated => exact steady.idle quiet rfl
      | deactivated =>
        simp only [call, SnapshotSession.step, handle]
        split <;> exact steady.idle quiet rfl
    | engine result => exact handleEngine_displayStep steady result
    | candidates event =>
      cases event with
      | closed => exact steady.keep rfl rfl rfl rfl (fun _ held => .inr held) rfl rfl
      | replace values selected reason => exact replaceCandidates_displayStep steady values selected reason
  | complete operation applied => exact complete_displayStep steady operation applied
  | liveSnapshot configuration connection context =>
    simp only [call, SnapshotSession.step, InputModule.liveSnapshot]
    split
    · exact steady.idle rfl rfl
    · rename_i composing
      unfold issueSnapshot
      split
      · exact steady.idle rfl rfl
      · have atEnd : m.localKana.cursorAtEnd = true := by
          simp only [Bool.or_eq_true, not_or, Bool.not_eq_true', Bool.not_eq_false] at composing
          exact composing.2
        exact steady.keep rfl rfl rfl rfl (fun _ _ => .inl atEnd) rfl rfl
  | explicitSnapshot configuration connection context =>
    simp only [call, SnapshotSession.step, InputModule.explicitSnapshot]
    split
    · exact steady.idle rfl rfl
    · unfold issueSnapshot
      split
      · exact steady.idle rfl rfl
      · refine steady.keep rfl rfl rfl rfl (fun identity held => ?_) rfl rfl
        -- An explicit snapshot is no live one.
        cases held
  | rebindExpectedSnapshotConnection configuration connection =>
    exact rebindExpectedSnapshotConnection_displayStep steady configuration connection
  | finalizePendingN =>
    have quiet : m.finalizePendingN.2 ≠ some true → ModuleOp.disturbs segmentation m .finalizePendingN = false :=
      fun refused => decide_eq_false refused
    simp only [call, SnapshotSession.step]
    unfold InputModule.finalizePendingN at quiet ⊢
    dsimp only at quiet ⊢
    split
    · rename_i nothing
      exact steady.idle (quiet (by rw [if_pos nothing]; simp)) rfl
    · rename_i completed
      split
      · rename_i exhausted
        exact steady.idle (quiet (by rw [if_neg completed, exhausted]; simp)) rfl
      · exact forget_displayStep rfl rfl rfl
  | adoptConversionReading reading =>
    have quiet : (m.adoptConversionReading reading).2 = false →
        ModuleOp.disturbs segmentation m (.adoptConversionReading reading) = false := fun refused => refused
    simp only [call, SnapshotSession.step]
    unfold InputModule.adoptConversionReading at quiet ⊢
    dsimp only at quiet ⊢
    split
    · rename_i refused
      exact steady.idle (quiet (by rw [if_pos refused])) rfl
    · exact forget_displayStep rfl rfl rfl
  | retainClauseReadingPrefix front =>
    have quiet : (m.retainClauseReadingPrefix front).2 = none →
        ModuleOp.disturbs segmentation m (.retainClauseReadingPrefix front) = false :=
      fun refused => congrArg Option.isSome refused
    simp only [call, SnapshotSession.step]
    cases next : u64CheckedAdd m.revision 1 with
    | none =>
      have same : m.retainClauseReadingPrefix front = (m, none) := by
        simp [InputModule.retainClauseReadingPrefix, next]
      rw [same]
      exact steady.idle (quiet (by rw [same])) rfl
    | some revision =>
      unfold InputModule.retainClauseReadingPrefix at quiet ⊢
      simp only [next] at quiet ⊢
      split
      · rename_i refused
        exact steady.idle (quiet (by rw [if_pos refused])) rfl
      · rename_i accepted
        split
        · rename_i refused
          exact steady.idle (quiet (by rw [if_neg accepted, if_pos refused])) rfl
        · exact forget_displayStep rfl rfl rfl
  | preserveLastLiteralOriginal original =>
    refine steady.keep ?_ rfl rfl rfl (fun _ held => .inr held) rfl rfl
    simp only [call, SnapshotSession.step, InputModule.preserveLastLiteralOriginal,
      LocalKanaComposer.preserveLastLiteralOriginal]
    split <;> rfl
  | setReadingCursor cursor =>
    refine navigation_displayStep steady setCursor_of_stuck (fun stuck => ?_) rfl
    simpa [ModuleOp.disturbs, ModuleOp.output, setReadingCursor, readingNavigationOutput_unshown] using stuck
  | setNotation kind => exact forget_displayStep rfl rfl rfl
  | setAwaitingLlm awaiting =>
    cases awaiting with
    | true => exact steady.withdraw rfl rfl rfl rfl rfl rfl rfl
    | false => exact steady.keep rfl rfl rfl rfl (fun _ held => .inr held) rfl rfl
  | invalidateLiveSnapshot => exact steady.withdraw rfl rfl rfl rfl rfl rfl rfl
  | invalidateLiveDisplay => exact drop_displayStep rfl rfl steady.expected
  | takeAutoCommitReceipt => exact steady.keep rfl rfl rfl rfl (fun _ held => .inr held) rfl rfl
  | backgroundReseed => exact steady.keep rfl rfl rfl rfl (fun _ held => .inr held) rfl rfl
  | reset => exact forget_displayStep rfl rfl rfl

/-- The calls leave the composition and its display undisturbed. -/
def Undisturbed (segmentation : Segmentation) (m : InputModule) (ops : List ModuleOp) : Prop :=
  Admissible (call segmentation) (fun m op => op.disturbs segmentation m = false) m ops

/-- The module shows the reply of a snapshot for a reading without unfinished keys. -/
structure Shows (segmentation : Segmentation) (m : InputModule) (identity : SnapshotTicket) (text reading : Text) :
    Prop where
  filled : text ≠ []
  returned : (m.handle segmentation (.engine (.liveSnapshot identity text))).2 =
    ⟨false, some (.setPreedit text), none⟩
  finished : m.localKana.pending = []
  spelled : m.canonicalReading = reading

/-- A run has shown a text for a reading, and waits for the document since. -/
def Awaiting (segmentation : Segmentation) (ops : List ModuleOp) (text reading : Text) : Prop :=
  ∃ front identity waiting, ops = front ++ .handle (.engine (.liveSnapshot identity text)) :: waiting ∧
    (exec (call segmentation) initial front).Shows segmentation identity text reading ∧
    (∀ op ∈ waiting, op.settles = false) ∧
    (exec (call segmentation) initial front).Undisturbed segmentation
      (.handle (.engine (.liveSnapshot identity text)) :: waiting)

/-- A run has shown a text for a reading, the document has applied it, and nothing has disturbed it since. -/
def Standing (segmentation : Segmentation) (ops : List ModuleOp) (text reading : Text) : Prop :=
  ∃ front identity waiting after,
    ops = front ++ .handle (.engine (.liveSnapshot identity text)) ::
      (waiting ++ .complete (.setPreedit text) true :: after) ∧
    (exec (call segmentation) initial front).Shows segmentation identity text reading ∧
    (∀ op ∈ waiting, op.settles = false) ∧
    (exec (call segmentation) initial front).Undisturbed segmentation
      (.handle (.engine (.liveSnapshot identity text)) :: (waiting ++ .complete (.setPreedit text) true :: after))

/-- A call that disturbs nothing is added to an undisturbed run. -/
theorem Undisturbed.snoc {front back : List ModuleOp} {op : ModuleOp}
    (undisturbed : (exec (call segmentation) initial front).Undisturbed segmentation back)
    (quiet : op.disturbs segmentation (exec (call segmentation) initial (front ++ back)) = false) :
    (exec (call segmentation) initial front).Undisturbed segmentation (back ++ [op]) := by
  refine admissible_append.mpr ⟨undisturbed, ?_, trivial⟩
  rwa [exec_append] at quiet

/-- A display that waits goes on waiting. -/
theorem Awaiting.snoc {ops : List ModuleOp} {text reading : Text} {op : ModuleOp}
    (awaiting : Awaiting segmentation ops text reading) (unsettled : op.settles = false)
    (quiet : op.disturbs segmentation (exec (call segmentation) initial ops) = false) :
    Awaiting segmentation (ops ++ [op]) text reading := by
  obtain ⟨front, identity, waiting, rfl, shows, alone, undisturbed⟩ := awaiting
  refine ⟨front, identity, waiting ++ [op], by simp, shows, fun other member => ?_, undisturbed.snoc quiet⟩
  rcases List.mem_append.mp member with before | last
  · exact alone other before
  · exact List.mem_singleton.mp last ▸ unsettled

/-- A display that stands goes on standing. -/
theorem Standing.snoc {ops : List ModuleOp} {text reading : Text} {op : ModuleOp}
    (standing : Standing segmentation ops text reading)
    (quiet : op.disturbs segmentation (exec (call segmentation) initial ops) = false) :
    Standing segmentation (ops ++ [op]) text reading := by
  obtain ⟨front, identity, waiting, after, rfl, shows, alone, undisturbed⟩ := standing
  exact ⟨front, identity, waiting, after ++ [op], by simp, shows, alone, by simpa using undisturbed.snoc quiet⟩

/-- A display that waited stands once the document has applied it. -/
theorem Awaiting.settle {ops : List ModuleOp} {text reading : Text} (awaiting : Awaiting segmentation ops text reading) :
    Standing segmentation (ops ++ [.complete (.setPreedit text) true]) text reading := by
  obtain ⟨front, identity, waiting, rfl, shows, alone, undisturbed⟩ := awaiting
  have extended := undisturbed.snoc
    (show (ModuleOp.complete (.setPreedit text) true).disturbs segmentation _ = false from rfl)
  exact ⟨front, identity, waiting, [], by simp, shows, alone, by simpa using extended⟩

/-- Every display that stands or waits after a run is accounted for by the run. -/
structure Tracked (segmentation : Segmentation) (ops : List ModuleOp) : Prop where
  steady : (exec (call segmentation) initial ops).Steady
  represented : (exec (call segmentation) initial ops).localKana.Represented
  standing : ∀ anchor, (exec (call segmentation) initial ops).liveDisplayAnchor = some anchor →
    Standing segmentation ops anchor.text anchor.reading
  awaiting : ∀ text anchor, (exec (call segmentation) initial ops).pendingLiveDisplay = some (text, some anchor) →
    (anchor.text = text ∧ Awaiting segmentation ops text anchor.reading) ∨
      (exec (call segmentation) initial ops).liveDisplayAnchor = some anchor

/-- A further call keeps the displays accounted for. -/
theorem Tracked.snoc {ops : List ModuleOp} (tracked : Tracked segmentation ops) (op : ModuleOp) :
    Tracked segmentation (ops ++ [op]) := by
  have last : exec (call segmentation) initial (ops ++ [op]) =
      (exec (call segmentation) initial ops).call segmentation op := by
    rw [exec_append]
    rfl
  have spelled := tracked.represented.reading
  obtain ⟨steady, step⟩ := call_displayStep segmentation tracked.steady spelled op
  have represented : ((exec (call segmentation) initial ops).call segmentation op).localKana.Represented :=
    CommitSession.step_represented (s := ⟨_, none⟩) tracked.represented op
  refine ⟨last ▸ steady, last ▸ represented, ?_, ?_⟩
  · rw [last]
    intro anchor stands
    cases step with
    | keeps same _ quiet => exact (tracked.standing anchor (same ▸ stands)).snoc quiet
    | drops gone => cases gone.symm.trans stands
    | withdraws same _ quiet => exact (tracked.standing anchor (same ▸ stands)).snoc quiet
    | accepts identity text result _ same =>
      subst result
      exact (tracked.standing anchor (same ▸ stands)).snoc (liveSnapshot_undisturbed _ identity text)
    | settles text applied report _ settled =>
      subst report
      obtain same | ⟨rfl, waited⟩ := settled
      · exact (tracked.standing anchor (same ▸ stands)).snoc rfl
      · -- What was applied had waited, or was the display that stood before.
        obtain ⟨rfl, awaiting⟩ | stood := tracked.awaiting text anchor (stands ▸ waited)
        · exact awaiting.settle
        · exact (tracked.standing anchor stood).snoc rfl
  · rw [last]
    intro text anchor waits
    cases step with
    | keeps same pending quiet unsettled =>
      obtain ⟨rfl, awaiting⟩ | stood := tracked.awaiting text anchor (pending ▸ waits)
      · exact .inl ⟨rfl, awaiting.snoc unsettled quiet⟩
      · exact .inr (same.trans stood)
    | drops _ gone => cases gone.symm.trans waits
    | withdraws _ gone => cases gone.symm.trans waits
    | settles _ _ _ gone => cases gone.symm.trans waits
    | accepts identity shown result atEnd same returned pending =>
      subst result
      obtain ⟨rfl, chosen⟩ := Prod.mk.inj (Option.some.inj (pending.symm.trans waits))
      split at chosen
      · cases chosen
      · rename_i filled
        split at chosen
        · -- Without unfinished keys the reading is the stable text.
          rename_i finished
          obtain rfl := Option.some.inj chosen
          have finished : (exec (call segmentation) initial ops).localKana.pending = [] := by simpa using finished
          have whole : (exec (call segmentation) initial ops).localKana.suffix = [] := by
            simpa [cursorAtEnd] using atEnd
          have reading : (exec (call segmentation) initial ops).canonicalReading =
              (exec (call segmentation) initial ops).localKana.stable := by
            simp [canonicalReading, spelled, finished, whole]
          exact .inl ⟨rfl, ops, identity, [], rfl, ⟨by simpa using filled, returned, finished, reading⟩, (by simp),
            liveSnapshot_undisturbed _ identity _, trivial⟩
        · exact .inr (same.trans chosen)

/-- The displays of every run are accounted for. -/
theorem run_tracked (segmentation : Segmentation) (ops : List ModuleOp) : Tracked segmentation ops := by
  -- The calls are added one at a time at the end.
  induction ops using List.reverseRecOn with
  | nil => exact ⟨⟨nofun, nofun, nofun⟩, empty_represented, nofun, nofun⟩
  | append_singleton ops op ih => exact ih.snoc op

/-- In every run, the text that a typed key shows is the reading, or the text of a snapshot's reply that stands for
the beginning of the reading, with the kana and the unfinished keys behind it. -/
theorem run_textDisplay (segmentation : Segmentation) (ops : List ModuleOp) (ch : Char) (style : TextStyle)
    (replay : ReplayMode) :
    let typed := (exec (call segmentation) initial ops).handle segmentation (.key (.text ch style replay))
    ∃ shown, typed.2.immediate = some (.setPreedit shown) ∧
      (shown = typed.1.canonicalReading ∨
        ∃ text reading rest, Standing segmentation ops text reading ∧
          (exec (call segmentation) initial ops).state.composing = true ∧
          shown = text ++ rest ++ typed.1.localKana.pending ∧
          reading ++ rest ++ typed.1.localKana.pending = typed.1.canonicalReading) := by
  have tracked := run_tracked segmentation ops
  have grown : ((exec (call segmentation) initial ops).call segmentation
      (.handle (.key (.text ch style replay)))).localKana.Represented :=
    @CommitSession.step_represented segmentation ⟨_, none⟩ tracked.represented (.handle (.key (.text ch style replay)))
  obtain ⟨typed, _, _, anchor, _, _, result, output⟩ :=
    (exec (call segmentation) initial ops).handleText_typed ch style replay
  have final : ((exec (call segmentation) initial ops).handle segmentation (.key (.text ch style replay))).1 =
      typed.immediateDisplay.1 := result
  have spelled : typed.immediateDisplay.1.localKana.reading = typed.immediateDisplay.1.localKana.stable ++
      typed.immediateDisplay.1.localKana.pending ++ typed.immediateDisplay.1.localKana.suffix := by
    rw [← final]
    exact grown.reading
  refine ⟨typed.immediateDisplay.2, output, ?_⟩
  rw [final]
  obtain dropped | ⟨held, rest, stands, atEnd, begins, shown⟩ := typed.immediateDisplay_cases
  · left
    rw [dropped]
    rfl
  · right
    rw [shown] at spelled ⊢
    have stood := anchor.symm.trans stands
    have whole : typed.localKana.suffix = [] := by simpa [cursorAtEnd] using atEnd
    refine ⟨held.text, held.reading, rest, tracked.standing held stood, ?_, rfl, ?_⟩
    · exact (tracked.steady.anchored (by simp [stood])).1
    · change held.reading ++ rest ++ typed.localKana.pending = typed.localKana.reading
      rw [show typed.localKana.reading = _ from spelled]
      simp [begins, whole]

/-- A Delete at the end of the reading deletes nothing, and the next key is still spliced at the display. -/
theorem delete_atEnd :
    let shown := exec (call .scalars) initial
      [.handle (.key (.text 'a' .kana .full)), .liveSnapshot 1 1 none,
        .handle (.engine (.liveSnapshot ⟨1, 1, 1, 1, 1⟩ ['亜'])), .complete (.setPreedit ['亜']) true]
    let deleted := shown.handle .scalars (.key .delete)
    let typed := deleted.1.handle .scalars (.key (.text 'i' .kana .full))
    deleted.2 = .swallowed ∧ typed.2.immediate = some (.setPreedit ['亜', 'い']) ∧
      typed.1.canonicalReading = ['あ', 'い'] := by
  decide

end InputModule

end Nospacekey
