import Nospacekey.Ipc.ClauseLaws
import Nospacekey.Input.Module
import Nospacekey.Library.Runs

/-! An accepted snapshot reply belongs to the last snapshot issued, for the composition still present. -/

namespace Nospacekey

open Runs

namespace InputModule

variable {m n k : InputModule} {segmentation : Segmentation}

/-- What a snapshot sends, and the identity it is sent under, are those of both modules. -/
structure SameComposition (m n : InputModule) : Prop where
  segments : m.canonicalSegments = n.canonicalSegments
  reading : m.canonicalReading = n.canonicalReading
  composition : m.composition = n.composition
  revision : m.revision = n.revision

/-- Every composition is the same as itself. -/
theorem SameComposition.refl (m : InputModule) : SameComposition m m := ⟨rfl, rfl, rfl, rfl⟩

/-- Two compositions that are the same as a third are the same. -/
theorem SameComposition.trans (first : SameComposition m n) (second : SameComposition n k) :
    SameComposition m k where
  segments := first.segments.trans second.segments
  reading := first.reading.trans second.reading
  composition := first.composition.trans second.composition
  revision := first.revision.trans second.revision

/-- The four views depend only on the composer, the keys, the latin start and the replay path. -/
theorem SameComposition.of_eq (kana : n.localKana = m.localKana) (raw : n.state.raw = m.state.raw)
    (latin : n.state.latinFrom = m.state.latinFrom)
    (replay : n.replayFromCanonical = m.replayFromCanonical) (composition : n.composition = m.composition)
    (revision : n.revision = m.revision) : SameComposition m n where
  segments := by simp only [canonicalSegments, replaySegments, kana, raw, latin, replay]
  reading := by simp only [canonicalReading, kana]
  composition := composition.symm
  revision := revision.symm

/-- A step issues no snapshot, and still expects a reply only where the composition is untouched. -/
structure Retains (m n : InputModule) : Prop where
  counter : n.nextSnapshotRequest = m.nextSnapshotRequest
  expected : ∀ identity purpose, n.expectedSnapshot = some (identity, purpose) →
    SameComposition m n ∧
      ∃ held, m.expectedSnapshot = some (held, purpose) ∧ held.request = identity.request

/-- Doing nothing retains the expected snapshot. -/
theorem Retains.refl (m : InputModule) : Retains m m :=
  ⟨rfl, fun identity _ held => ⟨.refl m, identity, held, rfl⟩⟩

/-- Steps that retain the expected snapshot compose. -/
theorem Retains.trans (first : Retains m n) (second : Retains n k) : Retains m k where
  counter := second.counter.trans first.counter
  expected identity purpose held := by
    -- The snapshot still expected at the end was expected in between, with the same composition.
    obtain ⟨same, between, heldBetween, requestBetween⟩ := second.expected identity purpose held
    obtain ⟨sameFirst, before, heldBefore, requestBefore⟩ := first.expected between purpose heldBetween
    exact ⟨sameFirst.trans same, before, heldBefore, requestBefore.trans requestBetween⟩

/-- A step that expects no reply any more may change the composition as it likes. -/
theorem Retains.of_none (counter : n.nextSnapshotRequest = m.nextSnapshotRequest)
    (none_expected : n.expectedSnapshot = none) : Retains m n :=
  ⟨counter, fun identity purpose held => by simp [none_expected] at held⟩

/-- A step outside the composition keeps the expected snapshot. -/
theorem Retains.of_same (counter : n.nextSnapshotRequest = m.nextSnapshotRequest)
    (expected : n.expectedSnapshot = m.expectedSnapshot) (same : SameComposition m n) : Retains m n :=
  ⟨counter, fun identity _ held => ⟨same, identity, expected ▸ held, rfl⟩⟩

/-- Dropping the candidates leaves the composition alone. -/
theorem clearCandidates_retains (m : InputModule) : Retains m m.clearCandidates :=
  .of_same rfl rfl (.of_eq rfl rfl rfl rfl rfl rfl)

/-- Dropping the display anchor leaves the composition alone. -/
theorem invalidateLiveDisplay_retains (m : InputModule) : Retains m m.invalidateLiveDisplay :=
  .of_same rfl rfl (.of_eq rfl rfl rfl rfl rfl rfl)

/-- A new request id leaves the composition alone. -/
theorem requestId_retains (m : InputModule) : Retains m m.requestId.1 :=
  .of_same rfl rfl (.of_eq rfl rfl rfl rfl rfl rfl)

/-- A reset expects no reply. -/
theorem reset_retains (m : InputModule) : Retains m m.reset := .of_none rfl rfl

/-- The display of a key press changes at most the display anchor. -/
theorem immediateDisplay_retains (m : InputModule) : Retains m m.immediateDisplay.1 := by
  unfold immediateDisplay
  split
  · exact invalidateLiveDisplay_retains m
  · split
    · split
      · exact .refl m
      · exact invalidateLiveDisplay_retains m
    · exact invalidateLiveDisplay_retains m

/-- New candidates leave the composition alone. -/
theorem replaceCandidatesForRevision_retains (m : InputModule) (values : List Text)
    (selected composition revision : Nat) :
    Retains m (m.replaceCandidatesForRevision values selected composition revision).1 := by
  unfold replaceCandidatesForRevision
  split
  · exact .refl m
  · split
    · exact clearCandidates_retains m
    · exact .of_same rfl rfl (.of_eq rfl rfl rfl rfl rfl rfl)

/-- Candidates replaced by an event leave the composition alone. -/
theorem replaceCandidates_retains (m : InputModule) (values : List Text) (selected : Nat)
    (reason : CandidateReplacement) : Retains m (m.replaceCandidates values selected reason).1 := by
  unfold replaceCandidates
  split
  · exact replaceCandidatesForRevision_retains m values selected _ _
  · split
    · exact .refl m
    · split
      · exact .refl m
      · -- The interaction flag is set aside for the replacement and put back after it.
        have aside : Retains m { m with candidateInteracted := false } :=
          .of_same rfl rfl (.of_eq rfl rfl rfl rfl rfl rfl)
        have replaced := aside.trans
          (replaceCandidatesForRevision_retains _ values selected m.composition m.revision)
        exact replaced.trans (.of_same rfl rfl (.of_eq rfl rfl rfl rfl rfl rfl))

/-- A candidate commit asks the engine and leaves the composition alone. -/
theorem candidateCommit_retains (m : InputModule) (index : Option Nat) :
    Retains m (m.candidateCommit index).1 := by
  unfold candidateCommit
  dsimp only
  split
  · exact .of_same rfl rfl (.of_eq rfl rfl rfl rfl rfl rfl)
  · exact .refl m

/-- A preview leaves the composition alone. -/
theorem previewCandidate_retains (m : InputModule) (selected : Nat) :
    Retains m (m.previewCandidate selected).1 :=
  .of_same rfl rfl (.of_eq rfl rfl rfl rfl rfl rfl)

/-- The composer stays as it is when its cursor does not move. -/
theorem setCursor_of_stuck {c : LocalKanaComposer} {requested : Nat}
    (stuck : (c.setCursor requested).2 = false) : (c.setCursor requested).1 = c := by
  unfold LocalKanaComposer.setCursor at stuck ⊢
  split at stuck
  · rfl
  · dsimp only at stuck ⊢
    split at stuck
    · rename_i same
      rw [if_pos same]
    · simp at stuck

/-- The composer stays as it is when there is no place to move to. -/
theorem moveCursor_of_stuck {c : LocalKanaComposer} {direction : Int}
    (stuck : (c.moveCursor direction).2 = false) : (c.moveCursor direction).1 = c := by
  unfold LocalKanaComposer.moveCursor at stuck ⊢
  split at stuck
  · rfl
  · dsimp only at stuck ⊢
    generalize (if 0 < direction then _ else _ : Option Nat) = next at stuck ⊢
    cases next with
    | none => rfl
    | some position => exact setCursor_of_stuck stuck

/-- Navigation that moves the cursor withdraws the snapshot, and otherwise changes nothing. -/
theorem navigation_retains (m : InputModule) (c : LocalKanaComposer) (moved : Bool)
    (stuck : moved = false → c = m.localKana) :
    Retains m ({ m with localKana := c }.readingNavigationOutput moved).1 := by
  cases moved with
  | false =>
    obtain rfl := stuck rfl
    exact .refl m
  | true => exact .of_none rfl rfl

/-- A placed reading cursor retains the snapshot unless it moves. -/
theorem setReadingCursor_retains (m : InputModule) (cursor : Nat) :
    Retains m (m.setReadingCursor cursor).1 :=
  navigation_retains m _ _ setCursor_of_stuck

/-- Typing a key issues no snapshot. -/
theorem typeKey_nextSnapshotRequest (m : InputModule) (ch : Char) (style : TextStyle) :
    (m.beginComposition.clearCandidates.typeKey ch style).nextSnapshotRequest = m.nextSnapshotRequest := by
  unfold beginComposition
  cases style <;> split <;> rfl

/-- A typed key withdraws the snapshot. -/
theorem handleText_retains (m : InputModule) (ch : Char) (style : TextStyle) (replay : ReplayMode) :
    Retains m (m.handleText ch style replay).1 := by
  -- The key withdraws the snapshot before the request id and the display are made.
  unfold handleText
  extract_lets cursorEdit typed anchored withdrawn
  have withdraws : Retains m withdrawn := by
    refine .of_none ?_ rfl
    have counted := m.typeKey_nextSnapshotRequest ch style
    change anchored.nextSnapshotRequest = _
    simp only [anchored]
    split <;> exact counted
  exact (withdraws.trans (requestId_retains _)).trans (immediateDisplay_retains _)

/-- A deletion behind the cursor withdraws the snapshot, and without one nothing changes. -/
theorem handleDelete_retains (m : InputModule) : Retains m m.handleDelete.1 := by
  unfold handleDelete
  dsimp only
  split
  · exact .refl m
  · exact .of_none rfl rfl

/-- A deletion before the cursor withdraws the snapshot, and without one nothing changes. -/
theorem handleBackspace_retains (m : InputModule) : Retains m (m.handleBackspace segmentation).1 := by
  unfold handleBackspace
  split
  · exact .refl m
  · exact .of_none rfl rfl

/-- No key issues a snapshot, and a key that changes the composition withdraws the expected one. -/
theorem handleKey_retains (m : InputModule) (key : KeyEvent) : Retains m (m.handleKey segmentation key).1 := by
  cases key with
  | text ch style replay => exact handleText_retains m ch style replay
  | moveReading direction =>
    simp only [handleKey]
    split
    · exact navigation_retains m _ _ moveCursor_of_stuck
    · exact .refl m
  | readingHome =>
    simp only [handleKey]
    split
    · exact setReadingCursor_retains m _
    · exact .refl m
  | readingEnd =>
    simp only [handleKey]
    split
    · exact setReadingCursor_retains m _
    · exact .refl m
  | delete =>
    simp only [handleKey]
    split
    · exact handleDelete_retains m
    · exact .refl m
  | backspace =>
    simp only [handleKey]
    split
    · exact handleBackspace_retains m
    · exact .refl m
  | space =>
    simp only [handleKey]
    split
    · exact .of_same rfl rfl (.of_eq rfl rfl rfl rfl rfl rfl)
    · exact .refl m
  | moveCandidate delta =>
    simp only [handleKey]
    split
    · exact .refl m
    · exact previewCandidate_retains m _
  | selectCandidate index =>
    simp only [handleKey]
    split
    · exact .refl m
    · exact previewCandidate_retains m _
  | commitCandidate index => exact candidateCommit_retains m index
  | enter =>
    simp only [handleKey]
    split
    · exact candidateCommit_retains m none
    · split <;> exact .refl m
  | escape =>
    simp only [handleKey]
    split <;> exact .refl m
  | other => exact .refl m

/-- A commit reply leaves the composition to its completion. -/
theorem handleCommit_retains (m : InputModule) (request : Nat) (candidate : Option Nat) (text : Text)
    (outcome : EngineCommitOutcome) :
    Retains m (m.handleCommit segmentation request candidate text outcome).1 := by
  unfold handleCommit
  dsimp only
  split
  · split
    · exact .refl m
    · split <;> exact .of_same rfl rfl (.of_eq rfl rfl rfl rfl rfl rfl)
  · split
    · exact .refl m
    · split <;> exact .refl m

/-- A shown snapshot reply leaves the composition alone. -/
theorem handleLiveSnapshot_retains (m : InputModule) (identity : SnapshotTicket) (text : Text) :
    Retains m (m.handleLiveSnapshot identity text).1 := by
  unfold handleLiveSnapshot
  split
  · exact .refl m
  · exact .of_same rfl rfl (.of_eq rfl rfl rfl rfl rfl rfl)

/-- A proposed commit leaves the composition to its completion. -/
theorem handleAutoCommitProposal_retains (m : InputModule) (proposal : AutoCommitProposal) :
    Retains m (m.handleAutoCommitProposal segmentation proposal).1 := by
  unfold handleAutoCommitProposal
  split
  · exact .refl m
  · split
    · exact .refl m
    · split
      · exact .refl m
      · split
        · exact .refl m
        · exact .of_same rfl rfl (.of_eq rfl rfl rfl rfl rfl rfl)

/-- No engine result issues a snapshot or changes the composition. -/
theorem handleEngine_retains (m : InputModule) (result : EngineResult) :
    Retains m (m.handleEngine segmentation result).1 := by
  cases result with
  | reading request text =>
    simp only [handleEngine]
    split
    · exact .refl m
    · exact immediateDisplay_retains m
  | candidates request values =>
    simp only [handleEngine]
    split
    · exact .refl m
    · split
      · exact .refl m
      · exact replaceCandidatesForRevision_retains m _ _ _ _
  | commit request candidate text outcome => exact handleCommit_retains m request candidate text outcome
  | disconnected request =>
    simp only [handleEngine]
    split <;> exact invalidateLiveDisplay_retains m
  | liveSnapshot identity text => exact handleLiveSnapshot_retains m identity text
  | liveAutoCommitProposal proposal => exact handleAutoCommitProposal_retains m proposal
  | explicitSnapshot identity candidates =>
    simp only [handleEngine]
    split
    · exact .refl m
    · exact replaceCandidatesForRevision_retains m _ _ _ _

/-- No event issues a snapshot, and one that changes the composition withdraws the expected one. -/
theorem handle_retains (m : InputModule) (event : InputEvent) : Retains m (m.handle segmentation event).1 := by
  cases event with
  | key key => exact handleKey_retains m key
  | lifecycle event =>
    cases event with
    | activated => exact .refl m
    | deactivated =>
      simp only [handle]
      split <;> exact .refl m
  | engine result => exact handleEngine_retains m result
  | candidates event =>
    cases event with
    | replace values selected reason => exact replaceCandidates_retains m values selected reason
    | closed => exact clearCandidates_retains m

/-- A completion that changes the composition withdraws the snapshot. -/
theorem complete_retains (m : InputModule) (operation : ImmediateOperation) (applied : Bool) :
    Retains m (m.complete segmentation operation applied) := by
  -- The pending display is settled first, outside the composition.
  unfold complete
  extract_lets settled rejected committed
  have settles : Retains m settled := by
    simp only [settled]
    split
    · exact .of_same rfl rfl (.of_eq rfl rfl rfl rfl rfl rfl)
    · exact .refl m
  refine settles.trans ?_
  split
  · split
    · exact .of_none rfl rfl
    · exact .of_same rfl rfl (.of_eq rfl rfl rfl rfl rfl rfl)
  · split
    · split
      · split
        · exact .of_none rfl rfl
        · exact .of_none rfl rfl
      · exact .of_none rfl rfl
    · exact reset_retains settled
    · exact .refl settled

/-- A rebound connection keeps the request, the purpose and the composition. -/
theorem rebindExpectedSnapshotConnection_retains (m : InputModule) (configuration connection : Nat) :
    Retains m (m.rebindExpectedSnapshotConnection configuration connection).1 := by
  unfold rebindExpectedSnapshotConnection
  split
  · exact .refl m
  · rename_i identity purpose held
    split
    · exact .refl m
    · -- Only the connection generation of the identity is replaced.
      refine ⟨rfl, fun rebound answered expected => ⟨.of_eq rfl rfl rfl rfl rfl rfl, identity, ?_⟩⟩
      obtain ⟨rfl, rfl⟩ := Prod.mk.inj (Option.some.inj expected)
      exact ⟨held, rfl⟩

/-- A completed final n withdraws the snapshot, and without one nothing changes. -/
theorem finalizePendingN_retains (m : InputModule) : Retains m m.finalizePendingN.1 := by
  unfold finalizePendingN
  dsimp only
  split
  · exact .refl m
  · split
    · exact .refl m
    · exact .of_none rfl rfl

/-- An adopted reading withdraws the snapshot, and a rejected one changes nothing. -/
theorem adoptConversionReading_retains (m : InputModule) (reading : Text) :
    Retains m (m.adoptConversionReading reading).1 := by
  unfold adoptConversionReading
  dsimp only
  split
  · exact .refl m
  · exact .of_none rfl rfl

/-- A retained prefix withdraws the snapshot, and a rejected one changes nothing. -/
theorem retainClauseReadingPrefix_retains (m : InputModule) (front : Text) :
    Retains m (m.retainClauseReadingPrefix front).1 := by
  unfold retainClauseReadingPrefix
  split
  · exact .refl m
  · split
    · exact .refl m
    · dsimp only
      split
      · exact .refl m
      · exact .of_none rfl rfl

/-- The lock of a language model's conversion withdraws the snapshot when it is set. -/
theorem setAwaitingLlm_retains (m : InputModule) (awaiting : Bool) : Retains m (m.setAwaitingLlm awaiting) := by
  cases awaiting with
  | true => exact .of_none rfl rfl
  | false => exact .of_same rfl rfl (.of_eq rfl rfl rfl rfl rfl rfl)

/-- A corrected original changes the journal, which no snapshot sends. -/
theorem preserveLastLiteralOriginal_retains (m : InputModule) (original : Char) :
    Retains m (m.preserveLastLiteralOriginal original) := by
  unfold preserveLastLiteralOriginal LocalKanaComposer.preserveLastLiteralOriginal
  split
  · exact .of_same rfl rfl ⟨rfl, rfl, rfl, rfl⟩
  · exact .refl m

end InputModule

/-- The calls that the input module receives. -/
inductive ModuleOp where
  | handle (event : InputEvent)
  | complete (operation : ImmediateOperation) (applied : Bool)
  | liveSnapshot (configurationGeneration connectionGeneration : Nat) (leftContext : Option Text)
  | explicitSnapshot (configurationGeneration connectionGeneration : Nat) (leftContext : Option Text)
  | rebindExpectedSnapshotConnection (configurationGeneration connectionGeneration : Nat)
  | finalizePendingN
  | adoptConversionReading (reading : Text)
  | retainClauseReadingPrefix (front : Text)
  | preserveLastLiteralOriginal (original : Char)
  | setReadingCursor (cursor : Nat)
  | setNotation (kind : Notation)
  | setAwaitingLlm (awaiting : Bool)
  | invalidateLiveSnapshot
  | invalidateLiveDisplay
  | takeAutoCommitReceipt
  | backgroundReseed
  | reset

/-- A snapshot with the module at the moment it was issued. -/
structure Issued where
  snapshot : CompositionSnapshot
  module : InputModule

/-- A module with the snapshots it has issued, in order. -/
structure SnapshotSession where
  module : InputModule
  issued : List Issued

namespace SnapshotSession

variable {segmentation : Segmentation}

/-- The session before its first call. -/
def initial : SnapshotSession := ⟨.initial, []⟩

/-- An issued snapshot is recorded with the module it was issued by. -/
def record (s : SnapshotSession) (result : InputModule × Option BackgroundIntent) : SnapshotSession :=
  match result with
  | (m, some (.liveSnapshot snapshot)) => ⟨m, s.issued ++ [⟨snapshot, s.module⟩]⟩
  | (m, _) => ⟨m, s.issued⟩

/-- One call of the module. -/
def step (segmentation : Segmentation) (s : SnapshotSession) : ModuleOp → SnapshotSession
  | .handle event => { s with module := (s.module.handle segmentation event).1 }
  | .complete operation applied => { s with module := s.module.complete segmentation operation applied }
  | .liveSnapshot configuration connection context =>
    s.record (s.module.liveSnapshot configuration connection context)
  | .explicitSnapshot configuration connection context =>
    s.record (s.module.explicitSnapshot configuration connection context)
  | .rebindExpectedSnapshotConnection configuration connection =>
    { s with module := (s.module.rebindExpectedSnapshotConnection configuration connection).1 }
  | .finalizePendingN => { s with module := s.module.finalizePendingN.1 }
  | .adoptConversionReading reading => { s with module := (s.module.adoptConversionReading reading).1 }
  | .retainClauseReadingPrefix front => { s with module := (s.module.retainClauseReadingPrefix front).1 }
  | .preserveLastLiteralOriginal original => { s with module := s.module.preserveLastLiteralOriginal original }
  | .setReadingCursor cursor => { s with module := (s.module.setReadingCursor cursor).1 }
  | .setNotation kind => { s with module := s.module.setNotation kind }
  | .setAwaitingLlm awaiting => { s with module := s.module.setAwaitingLlm awaiting }
  | .invalidateLiveSnapshot => { s with module := s.module.invalidateLiveSnapshot }
  | .invalidateLiveDisplay => { s with module := s.module.invalidateLiveDisplay }
  | .takeAutoCommitReceipt => { s with module := s.module.takeAutoCommitReceipt.1 }
  | .backgroundReseed => { s with module := s.module.backgroundReseed.1 }
  | .reset => { s with module := s.module.reset }

/-- A reply is expected for the last snapshot only, while its composition is still the module's. -/
structure Fresh (s : SnapshotSession) : Prop where
  bounded : ∀ entry ∈ s.issued, entry.snapshot.identity.request ≤ s.module.nextSnapshotRequest
  ordered : s.issued.Pairwise fun earlier later =>
    earlier.snapshot.identity.request < later.snapshot.identity.request
  expected : ∀ identity purpose, s.module.expectedSnapshot = some (identity, purpose) →
    ∃ earlier last, s.issued = earlier ++ [last] ∧ last.snapshot.identity.request = identity.request ∧
      last.snapshot.purpose = purpose ∧ last.module.SameComposition s.module

/-- Nothing is expected before the first call. -/
theorem initial_fresh : initial.Fresh where
  bounded := by simp [initial]
  ordered := by simp [initial]
  expected identity purpose held := by simp [initial, InputModule.initial] at held

/-- A call that retains the snapshot keeps it the last one. -/
theorem Fresh.of_retains {s : SnapshotSession} (fresh : s.Fresh) {n : InputModule}
    (retains : s.module.Retains n) : Fresh { s with module := n } where
  bounded entry member := by
    rw [retains.counter]
    exact fresh.bounded entry member
  ordered := fresh.ordered
  expected identity purpose held := by
    -- What the module expects now it expected before, with the composition it has now.
    obtain ⟨same, before, heldBefore, request⟩ := retains.expected identity purpose held
    obtain ⟨earlier, last, issued, answers, purposed, sent⟩ := fresh.expected before purpose heldBefore
    exact ⟨earlier, last, issued, answers.trans request, purposed, sent.trans same⟩

/-- An issued snapshot becomes the last one and the only one expected. -/
theorem Fresh.issueSnapshot {s : SnapshotSession} (fresh : s.Fresh) (purpose : SnapshotPurpose)
    (configuration connection : Nat) (context : Option Text) :
    (s.record (s.module.issueSnapshot purpose configuration connection context)).Fresh := by
  unfold InputModule.issueSnapshot
  cases next : u64CheckedAdd s.module.nextSnapshotRequest 1 with
  | none => exact fresh
  | some request =>
    -- The request id is above those of every snapshot issued so far.
    have above := u64CheckedAdd_eq_some next
    refine ⟨fun entry member => ?_, ?_, fun identity answered held => ?_⟩
    · rcases List.mem_append.mp member with old | new
      · have bound := fresh.bounded entry old
        exact Nat.le_trans bound (above ▸ Nat.le_succ _)
      · obtain rfl := List.mem_singleton.mp new
        exact Nat.le_refl _
    · refine List.pairwise_append.mpr ⟨fresh.ordered, List.pairwise_singleton _ _, fun old member new last => ?_⟩
      obtain rfl := List.mem_singleton.mp last
      exact above ▸ Nat.lt_succ_of_le (fresh.bounded old member)
    · obtain ⟨rfl, rfl⟩ := Prod.mk.inj (Option.some.inj held)
      exact ⟨s.issued, _, rfl, rfl, rfl, .of_eq rfl rfl rfl rfl rfl rfl⟩

/-- Every call keeps the expected snapshot fresh. -/
theorem Fresh.step {s : SnapshotSession} (fresh : s.Fresh) (op : ModuleOp) : (s.step segmentation op).Fresh := by
  cases op with
  | handle event => exact fresh.of_retains (s.module.handle_retains event)
  | complete operation applied => exact fresh.of_retains (s.module.complete_retains operation applied)
  | liveSnapshot configuration connection context =>
    simp only [SnapshotSession.step, InputModule.liveSnapshot]
    split
    · exact fresh
    · exact fresh.issueSnapshot .live configuration connection context
  | explicitSnapshot configuration connection context =>
    simp only [SnapshotSession.step, InputModule.explicitSnapshot]
    split
    · exact fresh
    · exact fresh.issueSnapshot .explicit configuration connection context
  | rebindExpectedSnapshotConnection configuration connection =>
    exact fresh.of_retains (s.module.rebindExpectedSnapshotConnection_retains configuration connection)
  | finalizePendingN => exact fresh.of_retains s.module.finalizePendingN_retains
  | adoptConversionReading reading => exact fresh.of_retains (s.module.adoptConversionReading_retains reading)
  | retainClauseReadingPrefix front => exact fresh.of_retains (s.module.retainClauseReadingPrefix_retains front)
  | preserveLastLiteralOriginal original =>
    exact fresh.of_retains (s.module.preserveLastLiteralOriginal_retains original)
  | setReadingCursor cursor => exact fresh.of_retains (s.module.setReadingCursor_retains cursor)
  | setNotation kind => exact fresh.of_retains (.of_none rfl rfl)
  | setAwaitingLlm awaiting => exact fresh.of_retains (s.module.setAwaitingLlm_retains awaiting)
  | invalidateLiveSnapshot => exact fresh.of_retains (.of_none rfl rfl)
  | invalidateLiveDisplay => exact fresh.of_retains s.module.invalidateLiveDisplay_retains
  | takeAutoCommitReceipt => exact fresh.of_retains (.of_same rfl rfl (.of_eq rfl rfl rfl rfl rfl rfl))
  | backgroundReseed => exact fresh.of_retains s.module.requestId_retains
  | reset => exact fresh.of_retains s.module.reset_retains

end SnapshotSession

/-- The snapshot identity and purpose that a result answers. -/
def EngineResult.answers : EngineResult → Option (SnapshotTicket × SnapshotPurpose)
  | .liveSnapshot identity _ => some (identity, .live)
  | .liveAutoCommitProposal proposal => some (proposal.identity, .live)
  | .explicitSnapshot identity _ => some (identity, .explicit)
  | _ => none

/-- A reply is accepted only while its snapshot is expected and the module composes, and it leaves
the composition as it was. -/
theorem InputModule.handleEngine_accepts {m : InputModule} {segmentation : Segmentation}
    {result : EngineResult} {identity : SnapshotTicket} {purpose : SnapshotPurpose}
    (answers : result.answers = some (identity, purpose))
    (accepted : (m.handleEngine segmentation result).2 ≠ .default) :
    m.expectedSnapshot = some (identity, purpose) ∧ m.state.composing := by
  cases result with
  | reading | candidates | commit | disconnected => simp [EngineResult.answers] at answers
  | liveSnapshot answered text =>
    obtain ⟨rfl, rfl⟩ := Prod.mk.inj (Option.some.inj answers)
    simp only [InputModule.handleEngine, InputModule.handleLiveSnapshot] at accepted
    split at accepted
    · exact absurd rfl accepted
    · rename_i guarded
      simp only [Bool.or_eq_true, not_or, decide_eq_true_eq, not_not, Bool.not_eq_true', Bool.not_eq_false]
        at guarded
      exact ⟨guarded.1.2, guarded.2⟩
  | liveAutoCommitProposal proposal =>
    obtain ⟨rfl, rfl⟩ := Prod.mk.inj (Option.some.inj answers)
    simp only [InputModule.handleEngine, InputModule.handleAutoCommitProposal] at accepted
    split at accepted
    · exact absurd rfl accepted
    · rename_i guarded
      simp only [Bool.or_eq_true, not_or, decide_eq_true_eq, not_not, Bool.not_eq_true', Bool.not_eq_false]
        at guarded
      exact ⟨guarded.1.1.1.1.2, guarded.1.1.1.2⟩
  | explicitSnapshot answered candidates =>
    obtain ⟨rfl, rfl⟩ := Prod.mk.inj (Option.some.inj answers)
    simp only [InputModule.handleEngine] at accepted
    split at accepted
    · exact absurd rfl accepted
    · rename_i guarded
      simp only [Bool.or_eq_true, not_or, decide_eq_true_eq, not_not, Bool.not_eq_true', Bool.not_eq_false]
        at guarded
      exact guarded

namespace SnapshotSession

/-- In every run an accepted snapshot reply finds the module composing, with the segments, the
reading, the composition and the revision of the moment the snapshot of that request was issued, and
no snapshot was issued since. -/
theorem run_fresh (segmentation : Segmentation) (ops : List ModuleOp) (result : EngineResult)
    (identity : SnapshotTicket) (purpose : SnapshotPurpose)
    (answers : result.answers = some (identity, purpose))
    (accepted :
      ((exec (step segmentation) initial ops).module.handle segmentation (.engine result)).2 ≠ .default) :
    let s := exec (step segmentation) initial ops
    s.module.state.composing ∧
      ∃ earlier last, s.issued = earlier ++ [last] ∧
        last.snapshot.identity.request = identity.request ∧ last.snapshot.purpose = purpose ∧
        (∀ entry ∈ earlier, entry.snapshot.identity.request ≠ identity.request) ∧
        last.module.SameComposition s.module := by
  -- Only the expected snapshot is accepted, and every call keeps that one fresh.
  have fresh : Fresh (exec (step segmentation) initial ops) :=
    exec_invariant_all Fresh (fun s op fresh => fresh.step op) initial_fresh ops
  obtain ⟨expected, composing⟩ := InputModule.handleEngine_accepts answers accepted
  obtain ⟨earlier, last, issued, request, purposed, same⟩ := fresh.expected identity purpose expected
  refine ⟨composing, earlier, last, issued, request, purposed, fun entry member => ?_, same⟩
  -- Request ids increase, so no earlier snapshot has the one answered.
  have ordered := fresh.ordered
  rw [issued] at ordered
  have below := (List.pairwise_append.mp ordered).2.2 entry member last (by simp)
  exact request ▸ Nat.ne_of_lt below

/-- A key and a live snapshot, whose reply is then accepted. -/
theorem run_fresh_live :
    let s := exec (step .scalars) initial
      [.handle (.key (.text 'a' .kana .full)), .liveSnapshot 1 1 none, .rebindExpectedSnapshotConnection 1 2]
    s.module.state.composing ∧
      ∃ earlier last, s.issued = earlier ++ [last] ∧
        last.snapshot.identity.request = 1 ∧ last.snapshot.purpose = .live ∧
        (∀ entry ∈ earlier, entry.snapshot.identity.request ≠ 1) ∧
        last.module.SameComposition s.module :=
  run_fresh .scalars _ (.liveSnapshot ⟨1, 1, 1, 1, 2⟩ ['亜']) ⟨1, 1, 1, 1, 2⟩ .live rfl (by decide)

end SnapshotSession

end Nospacekey
