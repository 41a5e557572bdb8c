import Nospacekey.Input.PartialCommit

/-! What each call of the input module does to the candidates on the screen. -/

namespace Nospacekey

/-- What of a module concerns the candidates on the screen. -/
structure CandidatePane where
  values : List Text
  selected : Nat
  identity : Option CandidateResultIdentity
  interacted : Bool
  pending : Option (Nat × CandidateResultIdentity)

/-- No candidates are shown. -/
def CandidatePane.empty : CandidatePane := ⟨[], 0, none, false, none⟩

/-- Candidates on the screen have an identity, and one of them is selected. -/
structure CandidatePane.Coherent (pane : CandidatePane) : Prop where
  hidden : pane.identity = none → pane.values = []
  placed : pane.values ≠ [] → pane.selected < pane.values.length

/-- The candidates of a module. -/
def InputModule.pane (m : InputModule) : CandidatePane :=
  ⟨m.candidates, m.selected, m.candidateResult, m.candidateInteracted, m.pendingCandidateCommit⟩

/-- The candidates that an output shows, with their identity. -/
def ModuleOutput.shows (output : ModuleOutput) : Option (CandidateResultIdentity × List Text) :=
  match output.immediate with
  | some (.showCandidates identity values _) => some (identity, values)
  | _ => none

/-- The request and the identity of the candidate commit that an output asks for. -/
def ModuleOutput.asks (output : ModuleOutput) : Option (Nat × CandidateResultIdentity) :=
  match output.background with
  | some (.commit request identity _ _) => some (request, identity)
  | _ => none

namespace ModuleOp

/-- The output of a call. -/
def output (segmentation : Segmentation) (m : InputModule) : ModuleOp → ModuleOutput
  | .handle event => (m.handle segmentation event).2
  | .setReadingCursor cursor => (m.setReadingCursor cursor).2
  | _ => .default

/-- The request of a candidate commit whose answer a call accepts. -/
def accepts (output : ModuleOutput) : ModuleOp → Option Nat
  | .handle (.engine (.commit request (some _) _ _)) => if output = .default then none else some request
  | _ => none

/-- A user touches the candidates. -/
def interacts (m : InputModule) : ModuleOp → Bool
  | .handle (.key (.moveCandidate _)) => !m.candidates.isEmpty
  | .handle (.key (.selectCandidate _)) => !m.candidates.isEmpty
  | .handle (.key .enter) => !m.candidates.isEmpty
  | .handle (.key (.commitCandidate index)) =>
    !m.candidates.isEmpty && index.all fun position => position < m.candidates.length
  | _ => false

/-- A call offers candidates that no user asked for. -/
def offers : ModuleOp → Bool
  | .handle (.engine _) => true
  | .handle (.candidates (.replace _ _ .newResult)) => true
  | _ => false

/-- A call edits, moves in, finishes or leaves the composition that the candidates belong to, or closes them. -/
def releases (m : InputModule) : ModuleOp → Bool
  | .handle (.key (.text ..)) => true
  | .handle (.key .backspace) => m.state.composing && !(m.localKana.cursor = 0 && !m.canonicalReading.isEmpty)
  | .handle (.key .delete) => m.state.composing && m.localKana.deleteForward.2
  | .handle (.key (.moveReading direction)) => m.state.composing && (m.localKana.moveCursor direction).2
  | .handle (.key .readingHome) => m.state.composing && (m.localKana.setCursor 0).2
  | .handle (.key .readingEnd) => m.state.composing && (m.localKana.setCursor (2 ^ 32 - 1)).2
  | .handle (.candidates .closed) => true
  | .complete (.commit ..) applied => applied
  | .complete .cancel applied => applied
  | .setReadingCursor cursor => (m.localKana.setCursor cursor).2
  | .finalizePendingN => m.finalizePendingN.2 = some true
  | .retainClauseReadingPrefix front => (m.retainClauseReadingPrefix front).2.isSome
  | .reset => true
  | _ => false

end ModuleOp

/-- What a call does to the candidates. -/
inductive PaneStep (m : InputModule) (op : ModuleOp) (n : InputModule) (output : ModuleOutput) : Prop where
  /-- The candidates stay as they are. -/
  | keeps (same : n.pane = m.pane) (kept : op.releases m = false) (untouched : op.interacts m = false)
      (unaccepted : op.accepts output = none) (unshown : output.shows = none) (unasked : output.asks = none)
  /-- The candidates are dropped, which an offer cannot do to candidates that were touched. -/
  | clears (gone : n.pane = .empty) (released : op.releases m = true ∨ m.candidateInteracted = false)
      (untouched : op.interacts m = false) (unaccepted : op.accepts output = none) (unshown : output.shows = none)
      (unasked : output.asks = none)
  /-- Other candidates are shown, which are touched already where the user asked for them. -/
  | shows (identity : CandidateResultIdentity) (values : List Text) (selected : Nat) (interacted : Bool)
      (placed : n.pane = ⟨values, selected, some identity, interacted, none⟩) (within : selected < values.length)
      (frozen : m.candidateInteracted = true → interacted = true ∧ op.offers = false)
      (kept : op.releases m = false) (untouched : op.interacts m = false) (unaccepted : op.accepts output = none)
      (shown : output.shows = some (identity, values)) (unasked : output.asks = none)
  /-- Another candidate is selected. -/
  | previews (selected : Nat) (placed : n.pane = { m.pane with selected := selected, interacted := true })
      (within : selected < m.candidates.length) (kept : op.releases m = false) (touched : op.interacts m = true)
      (unaccepted : op.accepts output = none) (unshown : output.shows = none) (unasked : output.asks = none)
  /-- The commit of a candidate is asked for, under a request of its own. -/
  | asks (identity : CandidateResultIdentity) (position : Nat) (text : Text)
      (displayed : m.candidateResult = some identity) (found : m.candidates[position]? = some text)
      (placed : n.pane = { m.pane with interacted := true, pending := some (m.nextRequest + 1, identity) })
      (kept : op.releases m = false) (touched : op.interacts m = true) (unaccepted : op.accepts output = none)
      (unshown : output.shows = none)
      (asked : output.background = some (.commit (m.nextRequest + 1) identity (some position) (some text)))
      (counted : n.nextRequest = m.nextRequest + 1)
  /-- The pending commit of a candidate is answered. -/
  | answers (request : Nat) (identity : CandidateResultIdentity)
      (awaited : m.pendingCandidateCommit = some (request, identity))
      (displayed : m.candidateResult = some identity) (placed : n.pane = { m.pane with pending := none })
      (kept : op.releases m = false) (untouched : op.interacts m = false)
      (accepted : ∀ answered, op.accepts output = some answered → answered = request)
      (unshown : output.shows = none) (unasked : output.asks = none)

/-- A call that returns nothing accepts no answer. -/
theorem ModuleOp.accepts_default (op : ModuleOp) : op.accepts .default = none := by
  unfold accepts
  split
  · exact if_pos rfl
  · rfl

/-- A call that returns nothing, touches nothing and keeps the candidates. -/
theorem PaneStep.idle {m n : InputModule} {op : ModuleOp} (same : n.pane = m.pane) (kept : op.releases m = false)
    (untouched : op.interacts m = false) : PaneStep m op n .default :=
  .keeps same kept untouched op.accepts_default rfl rfl

/-- A deletion shows no candidates. -/
theorem InputModule.deletionOperation_unshown (m : InputModule) (eaten : Bool) (background : Option BackgroundIntent) :
    ModuleOutput.shows ⟨eaten, some m.deletionOperation, background⟩ = none := by
  unfold deletionOperation
  split <;> rfl

namespace InputModule

variable {m : InputModule} {segmentation : Segmentation}

/-- The display of a key press leaves the candidates alone. -/
@[simp] theorem immediateDisplay_pane (m : InputModule) : m.immediateDisplay.1.pane = m.pane := by
  -- At most the display anchor is dropped.
  unfold immediateDisplay
  split
  · rfl
  · split
    · split <;> rfl
    · rfl

/-- The display of a key press takes no request. -/
@[simp] theorem immediateDisplay_nextRequest (m : InputModule) :
    m.immediateDisplay.1.nextRequest = m.nextRequest := by
  -- At most the display anchor is dropped.
  unfold immediateDisplay
  split
  · rfl
  · split
    · split <;> rfl
    · rfl

/-- A typed key drops the candidates. -/
theorem handleText_paneStep (m : InputModule) (ch : Char) (style : TextStyle) (replay : ReplayMode) :
    PaneStep m (.handle (.key (.text ch style replay))) (m.handleText ch style replay).1
      (m.handleText ch style replay).2 := by
  -- The candidates go before the key is typed, and nothing after it brings them back.
  refine .clears ?_ (.inl rfl) rfl rfl rfl ?_
  · simp only [handleText, immediateDisplay_pane]
    cases style <;> split <;> rfl
  · simp only [handleText, ModuleOutput.asks]
    split
    · rename_i asked
      split at asked <;> cases asked
    · rfl

/-- A typed key takes a request of its own. -/
theorem handleText_nextRequest (m : InputModule) (ch : Char) (style : TextStyle) (replay : ReplayMode) :
    (m.handleText ch style replay).1.nextRequest = m.nextRequest + 1 := by
  simp only [handleText, immediateDisplay_nextRequest]
  unfold beginComposition
  cases style <;> split <;> split <;> rfl

/-- A move of the reading cursor drops the candidates, and without one they stay. -/
theorem navigation_paneStep {op : ModuleOp} (c : LocalKanaComposer) {moved : Bool}
    (moves : op.releases m = moved) (untouched : op.interacts m = false)
    (unaccepted : ∀ output, op.accepts output = none) :
    PaneStep m op ({ m with localKana := c }.readingNavigationOutput moved).1
      ({ m with localKana := c }.readingNavigationOutput moved).2 := by
  cases moved with
  | false => exact .keeps rfl moves untouched (unaccepted _) rfl rfl
  | true => exact .clears rfl (.inl moves) untouched (unaccepted _) rfl rfl

/-- A candidate commit asks for the candidate of its index, where there is one. -/
theorem candidateCommit_paneStep {op : ModuleOp} (index : Option Nat) (coherent : m.pane.Coherent)
    (kept : op.releases m = false)
    (touched : op.interacts m = (!m.candidates.isEmpty && index.all fun position => position < m.candidates.length))
    (unaccepted : ∀ output, op.accepts output = none) :
    PaneStep m op (m.candidateCommit index).1 (m.candidateCommit index).2 := by
  -- Without an index the selected candidate is meant, and there is one as soon as there are candidates.
  have touched : op.interacts m = (m.candidates[index.getD m.selected]?).isSome := by
    have placed : m.candidates ≠ [] → m.selected < m.candidates.length := coherent.placed
    rw [touched, Bool.eq_iff_iff]
    cases index with
    | none =>
      cases empty : m.candidates with
      | nil => simp
      | cons first rest => simpa [empty] using placed
    | some position =>
      cases empty : m.candidates with
      | nil => simp
      | cons first rest => simp
  unfold candidateCommit
  dsimp only
  split
  · rename_i identity text displayed found
    exact .asks identity _ text displayed found rfl kept (by simp [touched, found]) (unaccepted _) rfl rfl rfl
  · rename_i missing
    refine .keeps rfl kept ?_ (unaccepted _) rfl rfl
    -- Without an identity there are no candidates to commit.
    rw [touched]
    cases identity : m.candidateResult with
    | none =>
      have nothing : m.candidates = [] := coherent.hidden identity
      simp [nothing]
    | some displayed =>
      cases found : m.candidates[index.getD m.selected]? with
      | none => rfl
      | some text => exact (missing displayed text identity found).elim

/-- A preview selects one of the candidates. -/
theorem previewCandidate_paneStep {op : ModuleOp} {selected : Nat} (within : selected < m.candidates.length)
    (kept : op.releases m = false) (touched : op.interacts m = true)
    (unaccepted : ∀ output, op.accepts output = none) :
    PaneStep m op (m.previewCandidate selected).1 (m.previewCandidate selected).2 :=
  .previews selected rfl within kept touched (unaccepted _) rfl rfl

/-- New candidates are shown, unless they are of another composition or the ones present were touched. -/
theorem replaceCandidatesForRevision_paneStep {op : ModuleOp} (values : List Text)
    (selected composition revision : Nat) (kept : op.releases m = false) (untouched : op.interacts m = false)
    (unaccepted : ∀ output, op.accepts output = none) :
    PaneStep m op (m.replaceCandidatesForRevision values selected composition revision).1
      (m.replaceCandidatesForRevision values selected composition revision).2 := by
  unfold replaceCandidatesForRevision
  split
  · exact .keeps rfl kept untouched (unaccepted _) rfl rfl
  · rename_i current
    simp only [Bool.or_eq_true, not_or, Bool.not_eq_true] at current
    split
    · exact .clears rfl (.inr current.2) untouched (unaccepted _) rfl rfl
    · -- The list is not empty, so the selection is moved into it.
      rename_i filled
      have within : min selected (values.length - 1) < values.length := by
        have : values.length ≠ 0 := by simpa using filled
        omega
      refine .shows _ values _ _ rfl within (fun touched => ?_) kept untouched (unaccepted _) rfl rfl
      exact absurd touched (by simp [current.2])

/-- Replaced candidates are shown, and the ones a user asked for count as touched. -/
theorem replaceCandidates_paneStep (m : InputModule) (values : List Text) (selected : Nat)
    (reason : CandidateReplacement) :
    PaneStep m (.handle (.candidates (.replace values selected reason))) (m.replaceCandidates values selected reason).1
      (m.replaceCandidates values selected reason).2 := by
  cases reason with
  | newResult =>
    exact replaceCandidatesForRevision_paneStep values selected _ _ rfl rfl fun _ => rfl
  | userDriven =>
    simp only [replaceCandidates]
    split
    · exact .idle rfl rfl rfl
    · split
      · exact .idle rfl rfl rfl
      · rename_i asked
        simp only [Bool.or_eq_true, not_or, Bool.not_eq_true] at asked
        have filled : values.isEmpty = false := asked.1.1.1
        -- The flag is set aside for the replacement, which is therefore never refused.
        have accepted : (m.composition ≠ m.composition || m.revision ≠ m.revision || false) = false := by simp
        unfold replaceCandidatesForRevision
        simp only [accepted, filled, Bool.false_eq_true, if_false]
        have within : min selected (values.length - 1) < values.length := by
          have : values.length ≠ 0 := by simpa using filled
          omega
        exact .shows _ values _ true rfl within (fun _ => ⟨rfl, rfl⟩) rfl rfl rfl rfl rfl

/-- What a key does to the candidates. -/
theorem handleKey_paneStep (coherent : m.pane.Coherent) (key : KeyEvent) :
    PaneStep m (.handle (.key key)) (m.handleKey segmentation key).1 (m.handleKey segmentation key).2 := by
  have filled (some' : ¬ m.candidates.isEmpty = true) : 0 < m.candidates.length := by
    simpa [List.length_pos_iff] using some'
  cases key with
  | text ch style replay => exact handleText_paneStep m ch style replay
  | moveReading direction =>
    simp only [handleKey]
    split
    · rename_i composing
      exact navigation_paneStep _ (by simp [ModuleOp.releases, composing]) rfl fun _ => rfl
    · rename_i idle
      exact .idle rfl (by simp [ModuleOp.releases, idle]) rfl
  | readingHome =>
    simp only [handleKey]
    split
    · rename_i composing
      exact navigation_paneStep _ (by simp [ModuleOp.releases, composing]) rfl fun _ => rfl
    · rename_i idle
      exact .idle rfl (by simp [ModuleOp.releases, idle]) rfl
  | readingEnd =>
    simp only [handleKey]
    split
    · rename_i composing
      exact navigation_paneStep _ (by simp [ModuleOp.releases, composing]) rfl fun _ => rfl
    · rename_i idle
      exact .idle rfl (by simp [ModuleOp.releases, idle]) rfl
  | delete =>
    simp only [handleKey]
    split
    · rename_i composing
      unfold handleDelete
      dsimp only
      split
      · rename_i stuck
        exact .keeps rfl (by simpa [ModuleOp.releases, composing] using stuck) rfl rfl rfl rfl
      · rename_i deleted
        refine .clears rfl (.inl ?_) rfl rfl (deletionOperation_unshown _ _ _) rfl
        simpa [ModuleOp.releases, composing] using deleted
    · rename_i idle
      exact .idle rfl (by simp [ModuleOp.releases, idle]) rfl
  | backspace =>
    simp only [handleKey]
    split
    · rename_i composing
      unfold handleBackspace
      split
      · rename_i stuck
        exact .keeps rfl (by simpa [ModuleOp.releases, composing] using stuck) rfl rfl rfl rfl
      · rename_i deleted
        refine .clears rfl (.inl ?_) rfl rfl (deletionOperation_unshown _ _ _) rfl
        simpa [ModuleOp.releases, composing, imp_iff_not_or] using deleted
    · rename_i idle
      exact .idle rfl (by simp [ModuleOp.releases, idle]) rfl
  | space =>
    simp only [handleKey]
    split
    · exact .keeps rfl rfl rfl rfl rfl rfl
    · exact .idle rfl rfl rfl
  | moveCandidate delta =>
    simp only [handleKey]
    split
    · rename_i nothing
      exact .idle rfl rfl (by simp [ModuleOp.interacts, nothing])
    · rename_i some'
      -- The move wraps around, so it ends in the list.
      have positive := filled some'
      have range := Int.emod_lt_of_pos ((m.selected : Int) + delta) (Int.natCast_pos.mpr positive)
      have within : (((m.selected : Int) + delta) % m.candidates.length).toNat < m.candidates.length := by omega
      exact previewCandidate_paneStep within rfl (by simp [ModuleOp.interacts, some']) fun _ => rfl
  | selectCandidate index =>
    simp only [handleKey]
    split
    · rename_i nothing
      exact .idle rfl rfl (by simp [ModuleOp.interacts, nothing])
    · rename_i some'
      have positive := filled some'
      have within : min index (m.candidates.length - 1) < m.candidates.length := by omega
      exact previewCandidate_paneStep within rfl (by simp [ModuleOp.interacts, some']) fun _ => rfl
  | commitCandidate index => exact candidateCommit_paneStep index coherent rfl rfl fun _ => rfl
  | enter =>
    simp only [handleKey]
    split
    · rename_i some'
      have some' : m.candidates ≠ [] := by simpa using some'
      exact candidateCommit_paneStep none coherent rfl (by simp [ModuleOp.interacts]) fun _ => rfl
    · rename_i nothing
      have nothing : m.candidates = [] := by simpa using nothing
      split
      · exact .keeps rfl rfl (by simp [ModuleOp.interacts, nothing]) rfl rfl rfl
      · exact .idle rfl rfl (by simp [ModuleOp.interacts, nothing])
  | escape =>
    simp only [handleKey]
    split
    · exact .keeps rfl rfl rfl rfl rfl rfl
    · exact .idle rfl rfl rfl
  | other => exact .idle rfl rfl rfl

/-- The operation that an answered commit returns shows no candidates. -/
theorem commitOperation_unshown {candidate : Option Nat} {resolvedText : Text} {outcome : EngineCommitOutcome}
    {operation : ImmediateOperation}
    (returned : m.commitOperation segmentation candidate resolvedText outcome = some operation) :
    ModuleOutput.shows ⟨false, some operation, none⟩ = none := by
  -- It is a commit, whatever the outcome.
  obtain rejected | ⟨_, _, _, same, _⟩ := m.commitOperation_cases segmentation candidate resolvedText outcome
  · cases rejected.symm.trans returned
  · obtain rfl := Option.some.inj (same.symm.trans returned)
    rfl

/-- The answer of a commit leaves the candidates alone, apart from the commit that it answers. -/
theorem handleCommit_paneStep (m : InputModule) (request : Nat) (candidate : Option Nat) (resolvedText : Text)
    (outcome : EngineCommitOutcome) :
    PaneStep m (.handle (.engine (.commit request candidate resolvedText outcome)))
      (m.handleCommit segmentation request candidate resolvedText outcome).1
      (m.handleCommit segmentation request candidate resolvedText outcome).2 := by
  unfold handleCommit
  dsimp only
  split
  · rename_i awaited identity pending
    split
    · exact .idle rfl rfl rfl
    · rename_i answered
      simp only [Bool.or_eq_true, decide_eq_true_eq, not_or, not_not] at answered
      obtain ⟨⟨rfl, _⟩, displayed⟩ := answered
      have named : ∀ output answered, ModuleOp.accepts output
          (.handle (.engine (.commit request candidate resolvedText outcome))) = some answered →
          answered = request := by
        intro output answered accepted
        unfold ModuleOp.accepts at accepted
        split at accepted
        · rename_i same
          cases same
          split at accepted <;> cases accepted
          rfl
        · cases accepted
      split
      · exact .answers request identity pending displayed rfl rfl rfl (named _) rfl rfl
      · rename_i operation returned
        exact .answers request identity pending displayed rfl rfl rfl (named _) (commitOperation_unshown returned) rfl
  · split
    · exact .idle rfl rfl rfl
    · rename_i whole
      have whole : candidate = none := by simpa using whole
      subst whole
      split
      · exact .idle rfl rfl rfl
      · rename_i operation returned
        exact .keeps rfl rfl rfl rfl (commitOperation_unshown returned) rfl

/-- What a result of the engine does to the candidates. -/
theorem handleEngine_paneStep (m : InputModule) (result : EngineResult) :
    PaneStep m (.handle (.engine result)) (m.handleEngine segmentation result).1
      (m.handleEngine segmentation result).2 := by
  cases result with
  | reading request text =>
    simp only [handleEngine]
    split
    · exact .keeps rfl rfl rfl rfl rfl rfl
    · exact .keeps (by simp) rfl rfl rfl rfl rfl
  | candidates request values =>
    simp only [handleEngine]
    split
    · exact .idle rfl rfl rfl
    · split
      · exact .idle rfl rfl rfl
      · exact replaceCandidatesForRevision_paneStep values 0 _ _ rfl rfl fun _ => rfl
  | commit request candidate resolvedText outcome => exact m.handleCommit_paneStep request candidate resolvedText outcome
  | disconnected request =>
    simp only [handleEngine]
    split <;> exact .keeps rfl rfl rfl rfl rfl rfl
  | liveSnapshot identity text =>
    simp only [handleEngine, handleLiveSnapshot]
    split
    · exact .idle rfl rfl rfl
    · exact .keeps rfl rfl rfl rfl rfl rfl
  | liveAutoCommitProposal proposal =>
    simp only [handleEngine, handleAutoCommitProposal]
    repeat' split
    all_goals first
      | exact .idle rfl rfl rfl
      | exact .keeps rfl rfl rfl rfl rfl rfl
  | explicitSnapshot identity values =>
    simp only [handleEngine]
    split
    · exact .idle rfl rfl rfl
    · exact replaceCandidatesForRevision_paneStep values 0 _ _ rfl rfl fun _ => rfl

/-- A completed commit or cancellation drops the candidates, and any other completion leaves them alone. -/
theorem complete_paneStep (m : InputModule) (operation : ImmediateOperation) (applied : Bool) :
    PaneStep m (.complete operation applied) (m.complete segmentation operation applied) .default := by
  unfold InputModule.complete
  extract_lets settled rejected committed
  have same : settled.pane = m.pane := by
    simp only [settled]
    split <;> rfl
  split
  · rename_i refused
    have refused : applied = false := by simpa using refused
    subst refused
    have kept : ModuleOp.releases m (.complete operation false) = false := by cases operation <;> rfl
    split <;> exact .idle same kept rfl
  · rename_i accepted
    have accepted : applied = true := by simpa using accepted
    subst accepted
    split
    · split
      · split <;> exact .clears rfl (.inl rfl) rfl rfl rfl rfl
      · exact .clears rfl (.inl rfl) rfl rfl rfl rfl
    · exact .clears rfl (.inl rfl) rfl rfl rfl rfl
    · rename_i uncommitted uncancelled
      refine .idle same ?_ rfl
      cases operation with
      | commit text candidate remaining latinFrom => exact (uncommitted text candidate remaining latinFrom rfl).elim
      | cancel => exact (uncancelled rfl).elim
      | setPreedit | showCandidates => rfl

variable (segmentation) in
/-- What a call does to the candidates. -/
theorem step_paneStep (coherent : m.pane.Coherent) (op : ModuleOp) :
    PaneStep m op (SnapshotSession.step segmentation ⟨m, []⟩ op).module (op.output segmentation m) := by
  cases op with
  | handle event =>
    cases event with
    | key key => exact handleKey_paneStep coherent key
    | lifecycle event =>
      cases event with
      | activated => exact .idle rfl rfl rfl
      | deactivated =>
        simp only [SnapshotSession.step, ModuleOp.output, handle]
        split
        · exact .keeps rfl rfl rfl rfl rfl rfl
        · exact .idle rfl rfl rfl
    | engine result => exact handleEngine_paneStep m result
    | candidates event =>
      cases event with
      | replace values selected reason => exact replaceCandidates_paneStep m values selected reason
      | closed => exact .clears rfl (.inl rfl) rfl rfl rfl rfl
  | complete operation applied => exact m.complete_paneStep operation applied
  | liveSnapshot configuration connection context =>
    simp only [SnapshotSession.step, InputModule.liveSnapshot]
    split
    · exact .idle rfl rfl rfl
    · unfold issueSnapshot
      split <;> exact .idle rfl rfl rfl
  | explicitSnapshot configuration connection context =>
    simp only [SnapshotSession.step, InputModule.explicitSnapshot]
    split
    · exact .idle rfl rfl rfl
    · unfold issueSnapshot
      split <;> exact .idle rfl rfl rfl
  | rebindExpectedSnapshotConnection configuration connection =>
    simp only [SnapshotSession.step, InputModule.rebindExpectedSnapshotConnection]
    split
    · exact .idle rfl rfl rfl
    · split <;> exact .idle rfl rfl rfl
  | finalizePendingN =>
    have step : ∀ result, m.finalizePendingN = result →
        PaneStep m .finalizePendingN result.1 .default := by
      rintro result same
      have released : ModuleOp.releases m .finalizePendingN = decide (result.2 = some true) := by
        rw [← same]
        rfl
      unfold InputModule.finalizePendingN at same
      dsimp only at same
      split at same
      · subst same
        exact .idle rfl released rfl
      · split at same
        · subst same
          exact .idle rfl released rfl
        · subst same
          exact .clears rfl (.inl released) rfl rfl rfl rfl
    exact step _ rfl
  | adoptConversionReading reading =>
    simp only [SnapshotSession.step, InputModule.adoptConversionReading]
    split <;> exact .idle rfl rfl rfl
  | retainClauseReadingPrefix front =>
    have step : ∀ result, m.retainClauseReadingPrefix front = result →
        PaneStep m (.retainClauseReadingPrefix front) result.1 .default := by
      rintro result same
      have released : ModuleOp.releases m (.retainClauseReadingPrefix front) = result.2.isSome := by
        rw [← same]
        rfl
      unfold InputModule.retainClauseReadingPrefix at same
      split at same
      · subst same
        exact .idle rfl released rfl
      · split at same
        · subst same
          exact .idle rfl released rfl
        · dsimp only at same
          split at same
          · subst same
            exact .idle rfl released rfl
          · subst same
            exact .clears rfl (.inl released) rfl rfl rfl rfl
    exact step _ rfl
  | preserveLastLiteralOriginal original => exact .idle rfl rfl rfl
  | setReadingCursor cursor => exact navigation_paneStep _ rfl rfl fun _ => rfl
  | setNotation kind => exact .idle rfl rfl rfl
  | setAwaitingLlm awaiting =>
    simp only [SnapshotSession.step, InputModule.setAwaitingLlm]
    split <;> exact .idle rfl rfl rfl
  | invalidateLiveSnapshot | invalidateLiveDisplay => exact .idle rfl rfl rfl
  | takeAutoCommitReceipt => exact .idle rfl rfl rfl
  | backgroundReseed => exact .idle rfl rfl rfl
  | reset => exact .clears rfl (.inl rfl) rfl rfl rfl rfl

/-- New candidates take no request. -/
theorem replaceCandidatesForRevision_nextRequest (m : InputModule) (values : List Text)
    (selected composition revision : Nat) :
    (m.replaceCandidatesForRevision values selected composition revision).1.nextRequest = m.nextRequest := by
  unfold replaceCandidatesForRevision
  split
  · rfl
  · split <;> rfl

/-- A candidate commit takes at most one request. -/
theorem candidateCommit_nextRequest (m : InputModule) (index : Option Nat) :
    m.nextRequest ≤ (m.candidateCommit index).1.nextRequest := by
  unfold candidateCommit
  dsimp only
  split
  · exact Nat.le_succ _
  · exact Nat.le_refl _

/-- Navigation takes no request. -/
theorem readingNavigationOutput_nextRequest (m : InputModule) (moved : Bool) :
    (m.readingNavigationOutput moved).1.nextRequest = m.nextRequest := by
  cases moved <;> rfl

/-- A key never takes a request back. -/
theorem handleKey_nextRequest (m : InputModule) (key : KeyEvent) :
    m.nextRequest ≤ (m.handleKey segmentation key).1.nextRequest := by
  cases key with
  | text ch style replay => exact Nat.le_of_lt (by simp [handleKey, handleText_nextRequest])
  | commitCandidate index => exact m.candidateCommit_nextRequest index
  | enter =>
    simp only [handleKey]
    split
    · exact m.candidateCommit_nextRequest none
    · split <;> exact Nat.le_refl _
  | delete =>
    simp only [handleKey, handleDelete]
    split
    · split
      · exact Nat.le_refl _
      · exact Nat.le_succ _
    · exact Nat.le_refl _
  | backspace =>
    simp only [handleKey, handleBackspace]
    split
    · split
      · exact Nat.le_refl _
      · exact Nat.le_succ _
    · exact Nat.le_refl _
  | moveReading | readingHome | readingEnd =>
    simp only [handleKey, setReadingCursor]
    split
    · rw [readingNavigationOutput_nextRequest]
    · exact Nat.le_refl _
  | space =>
    simp only [handleKey]
    split
    · exact Nat.le_succ _
    · exact Nat.le_refl _
  | moveCandidate | selectCandidate | escape =>
    simp only [handleKey]
    split <;> exact Nat.le_refl _
  | other => exact Nat.le_refl _

/-- A result of the engine takes no request. -/
theorem handleEngine_nextRequest (m : InputModule) (result : EngineResult) :
    (m.handleEngine segmentation result).1.nextRequest = m.nextRequest := by
  cases result with
  | reading request text =>
    simp only [handleEngine]
    split <;> simp
  | candidates request values =>
    simp only [handleEngine]
    split
    · rfl
    · split
      · rfl
      · exact replaceCandidatesForRevision_nextRequest m values 0 _ _
  | commit request candidate resolvedText outcome =>
    simp only [handleEngine, handleCommit]
    repeat' split
    all_goals rfl
  | explicitSnapshot identity values =>
    simp only [handleEngine]
    split
    · rfl
    · exact replaceCandidatesForRevision_nextRequest m values 0 _ _
  | _ =>
    simp only [handleEngine, handleLiveSnapshot, handleAutoCommitProposal]
    repeat' split
    all_goals rfl

variable (segmentation) in
/-- No call takes a request back. -/
theorem step_nextRequest (m : InputModule) (op : ModuleOp) :
    m.nextRequest ≤ (SnapshotSession.step segmentation ⟨m, []⟩ op).module.nextRequest := by
  cases op with
  | handle event =>
    cases event with
    | key key => exact m.handleKey_nextRequest key
    | engine result => exact Nat.le_of_eq (m.handleEngine_nextRequest result).symm
    | lifecycle event =>
      cases event <;> simp only [SnapshotSession.step, handle]
      · exact Nat.le_refl _
      · split <;> exact Nat.le_refl _
    | candidates event =>
      cases event with
      | closed => exact Nat.le_refl _
      | replace values selected reason =>
        simp only [SnapshotSession.step, handle, replaceCandidates]
        repeat' split
        all_goals simp [replaceCandidatesForRevision_nextRequest]
  | setReadingCursor cursor =>
    exact Nat.le_of_eq
      (readingNavigationOutput_nextRequest { m with localKana := (m.localKana.setCursor cursor).1 } _).symm
  | backgroundReseed => exact Nat.le_succ _
  | liveSnapshot configuration connection context =>
    simp only [SnapshotSession.step, InputModule.liveSnapshot, issueSnapshot]
    repeat' split
    all_goals exact Nat.le_refl _
  | explicitSnapshot configuration connection context =>
    simp only [SnapshotSession.step, InputModule.explicitSnapshot, issueSnapshot]
    repeat' split
    all_goals exact Nat.le_refl _
  | retainClauseReadingPrefix front =>
    simp only [SnapshotSession.step, InputModule.retainClauseReadingPrefix]
    repeat' split
    all_goals exact Nat.le_refl _
  | complete operation applied =>
    simp only [SnapshotSession.step, InputModule.complete]
    repeat' split
    all_goals exact Nat.le_refl _
  | _ =>
    simp only [SnapshotSession.step, InputModule.finalizePendingN, InputModule.adoptConversionReading,
      InputModule.rebindExpectedSnapshotConnection, InputModule.setAwaitingLlm]
    repeat' split
    all_goals exact Nat.le_refl _

end InputModule

end Nospacekey
