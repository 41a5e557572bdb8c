import Nospacekey.Composer.LocalKana
import Nospacekey.Input.State

/-! The input module, an event boundary that knows neither the document nor the engine's transport. -/

namespace Nospacekey

open Utf8

/-- The unsigned 64-bit successor that wraps around. -/
def u64WrappingSucc (n : Nat) : Nat := (n + 1) % 2 ^ 64

inductive TextStyle where
  | kana
  | direct
  deriving DecidableEq, Repr

structure InputSegment where
  text : Text
  style : TextStyle
  deriving DecidableEq, Repr

/-- The style of typed text for the composer. -/
def TextStyle.input : TextStyle → InputStyle
  | .kana => .kana
  | .direct => .direct

/-- The style of a composer's segment for the engine. -/
def InputStyle.text : InputStyle → TextStyle
  | .kana => .kana
  | .direct => .direct

/-- A composer's segment as it is sent to the engine. -/
def ReplaySegment.input (segment : ReplaySegment) : InputSegment := ⟨segment.text, segment.style.text⟩

/-- A segment sent to the engine as a composer's segment. -/
def InputSegment.replay (segment : InputSegment) : ReplaySegment := ⟨segment.text, segment.style.input⟩

/-- The identity a snapshot is issued under. The request tells apart snapshots of one revision, as
navigation can change the replay without changing the reading. -/
structure SnapshotTicket where
  request : Nat
  composition : Nat
  revision : Nat
  configurationGeneration : Nat
  connectionGeneration : Nat
  deriving DecidableEq, Repr

structure CandidateResultIdentity where
  composition : Nat
  revision : Nat
  result : Nat
  deriving DecidableEq, Repr

structure AutoCommitReceipt where
  proposal : Nat
  identity : SnapshotTicket
  deriving DecidableEq, Repr

structure AutoCommitProposal where
  proposal : Nat
  identity : SnapshotTicket
  text : Text
  consumedReading : Text
  remaining : Text
  deriving DecidableEq, Repr

inductive SnapshotPurpose where
  | live
  | explicit
  deriving DecidableEq, Repr

structure CompositionSnapshot where
  identity : SnapshotTicket
  purpose : SnapshotPurpose
  segments : List InputSegment
  leftContext : Option Text
  liveSearchWidth : Nat
  deriving DecidableEq, Repr

inductive ReplayMode where
  | delta
  | full
  deriving DecidableEq, Repr

inductive KeyEvent where
  | text (ch : Char) (style : TextStyle) (replay : ReplayMode)
  | backspace
  | delete
  | moveReading (direction : Int)
  | readingHome
  | readingEnd
  | space
  | moveCandidate (delta : Int)
  | selectCandidate (index : Nat)
  | commitCandidate (index : Option Nat)
  | enter
  | escape
  | other
  deriving DecidableEq, Repr

inductive LifecycleEvent where
  | activated
  | deactivated
  deriving DecidableEq, Repr

inductive EngineCommitOutcome where
  | applied (text remaining : Text)
  | fallback (text : Text)
  deriving DecidableEq, Repr

inductive EngineResult where
  | reading (request : Nat) (text : Text)
  | candidates (request : Nat) (values : List Text)
  | commit (request : Nat) (candidate : Option Nat) (resolvedText : Text) (outcome : EngineCommitOutcome)
  | disconnected (request : Nat)
  | liveSnapshot (identity : SnapshotTicket) (text : Text)
  | liveAutoCommitProposal (proposal : AutoCommitProposal)
  | explicitSnapshot (identity : SnapshotTicket) (candidates : List Text)
  deriving DecidableEq, Repr

inductive CandidateReplacement where
  | newResult
  | userDriven
  deriving DecidableEq, Repr

inductive CandidateEvent where
  | replace (values : List Text) (selected : Nat) (reason : CandidateReplacement)
  | closed
  deriving DecidableEq, Repr

inductive InputEvent where
  | key (key : KeyEvent)
  | lifecycle (event : LifecycleEvent)
  | engine (result : EngineResult)
  | candidates (event : CandidateEvent)
  deriving DecidableEq, Repr

inductive ImmediateOperation where
  | setPreedit (text : Text)
  | showCandidates (identity : CandidateResultIdentity) (values : List Text) (selected : Nat)
  | commit (text : Text) (candidate : Option Nat) (remaining : Option Text) (remainingLatinFrom : Option Nat)
  | cancel
  deriving DecidableEq, Repr

inductive BackgroundIntent where
  | insert (request : Nat) (segments : List InputSegment)
  | reseed (request : Nat) (segments : List InputSegment)
  | convert (request : Nat)
  | commit (request : Nat) (candidateResult : CandidateResultIdentity) (candidate : Option Nat)
      (text : Option Text)
  | liveSnapshot (snapshot : CompositionSnapshot)
  deriving DecidableEq, Repr

structure ModuleOutput where
  eaten : Bool
  immediate : Option ImmediateOperation
  background : Option BackgroundIntent
  deriving DecidableEq, Repr

/-- The output of an event that is not handled. -/
def ModuleOutput.default : ModuleOutput := ⟨false, none, none⟩

/-- The output of a key that is eaten without any effect. -/
def ModuleOutput.swallowed : ModuleOutput := ⟨true, none, none⟩

/-- A settled live-conversion result kept as the display anchor. While the canonical reading keeps
extending its reading, new keys are shown behind its text. -/
structure LiveDisplayAnchor where
  reading : Text
  text : Text
  deriving DecidableEq, Repr

structure InputModule where
  state : InputState
  localKana : LocalKanaComposer
  candidates : List Text
  selected : Nat
  candidateResult : Option CandidateResultIdentity
  candidateInteracted : Bool
  nextCandidateResult : Nat
  expectedCandidates : Option (Nat × Nat × Nat)
  pendingCandidateCommit : Option (Nat × CandidateResultIdentity)
  nextRequest : Nat
  nextSnapshotRequest : Nat
  composition : Nat
  revision : Nat
  expectedSnapshot : Option (SnapshotTicket × SnapshotPurpose)
  pendingAutoCommit : Option AutoCommitReceipt
  autoCommitReceipt : Option AutoCommitReceipt
  replayFromCanonical : Bool
  cursorReplayPending : Bool
  liveDisplayAnchor : Option LiveDisplayAnchor
  pendingLiveDisplay : Option (Text × Option LiveDisplayAnchor)
  deriving DecidableEq, Repr

namespace InputModule

/-- The module before its first event. -/
def initial : InputModule where
  state := .empty
  localKana := .empty
  candidates := []
  selected := 0
  candidateResult := none
  candidateInteracted := false
  nextCandidateResult := 0
  expectedCandidates := none
  pendingCandidateCommit := none
  nextRequest := 0
  nextSnapshotRequest := 0
  composition := 0
  revision := 0
  expectedSnapshot := none
  pendingAutoCommit := none
  autoCommitReceipt := none
  replayFromCanonical := false
  cursorReplayPending := false
  liveDisplayAnchor := none
  pendingLiveDisplay := none

def canonicalReading (m : InputModule) : Text := m.localKana.reading

def readingCursor (m : InputModule) : Nat := m.localKana.cursor

def readingRevision (m : InputModule) : Nat := m.revision

/-- The segments that replay the composition, from the composer or from the typed keys. -/
def replaySegments (m : InputModule) : List InputSegment :=
  if m.replayFromCanonical then m.localKana.replaySegments.map ReplaySegment.input
  else
    match m.state.latinFrom with
    | some index =>
      if 0 < index && index < byteLength m.state.raw then
        [⟨takeBytes index m.state.raw, .kana⟩, ⟨dropBytes index m.state.raw, .direct⟩]
      else if index = 0 && !m.state.raw.isEmpty then [⟨m.state.raw, .direct⟩]
      else [⟨m.state.raw, .kana⟩]
    | none => [⟨m.state.raw, .kana⟩]

def canonicalSegments (m : InputModule) : List InputSegment := m.replaySegments

def displayOperation (text : Text) : ImmediateOperation := .setPreedit text

def finishOperation (text : Text) (cancel : Bool) (candidate : Option Nat) (remaining : Option Text)
    (remainingLatinFrom : Option Nat) : ImmediateOperation :=
  if cancel then .cancel else .commit text candidate remaining remainingLatinFrom

def requestId (m : InputModule) : InputModule × Nat :=
  ({ m with nextRequest := m.nextRequest + 1 }, m.nextRequest + 1)

def clearCandidates (m : InputModule) : InputModule :=
  { m with
    candidates := []
    selected := 0
    candidateResult := none
    candidateInteracted := false
    expectedCandidates := none
    pendingCandidateCommit := none }

def invalidateLiveSnapshot (m : InputModule) : InputModule :=
  { m with pendingLiveDisplay := none, expectedSnapshot := none, pendingAutoCommit := none }

/-- Drops the live display anchor. Every key press retires the pending snapshot, but the anchor
survives plain typing and goes only with what does not extend the reading. -/
def invalidateLiveDisplay (m : InputModule) : InputModule :=
  { m with pendingLiveDisplay := none, liveDisplayAnchor := none }

def reset (m : InputModule) : InputModule :=
  invalidateLiveDisplay
    { clearCandidates
        { m with
          state := m.state.reset
          localKana := .empty
          replayFromCanonical := false
          cursorReplayPending := false } with
      expectedCandidates := none
      expectedSnapshot := none
      pendingAutoCommit := none
      autoCommitReceipt := none }

/-- Issue a snapshot for a purpose, unless its request ids are exhausted. -/
def issueSnapshot (m : InputModule) (purpose : SnapshotPurpose)
    (configurationGeneration connectionGeneration : Nat) (leftContext : Option Text) :
    InputModule × Option BackgroundIntent :=
  match u64CheckedAdd m.nextSnapshotRequest 1 with
  | none => (m, none)
  | some request =>
    let identity : SnapshotTicket :=
      { request := request
        composition := m.composition
        revision := m.revision
        configurationGeneration := configurationGeneration
        connectionGeneration := connectionGeneration }
    ({ m with nextSnapshotRequest := request, expectedSnapshot := some (identity, purpose) },
      some (.liveSnapshot
        { identity := identity
          purpose := purpose
          segments := m.replaySegments
          leftContext := leftContext
          liveSearchWidth := 1 }))

def liveSnapshot (m : InputModule) (configurationGeneration connectionGeneration : Nat)
    (leftContext : Option Text) : InputModule × Option BackgroundIntent :=
  if !m.state.composing || !m.localKana.cursorAtEnd then (m, none)
  else m.issueSnapshot .live configurationGeneration connectionGeneration leftContext

def explicitSnapshot (m : InputModule) (configurationGeneration connectionGeneration : Nat)
    (leftContext : Option Text) : InputModule × Option BackgroundIntent :=
  if !m.state.composing then (m, none)
  else m.issueSnapshot .explicit configurationGeneration connectionGeneration leftContext

/-- The typed keys replaced by the reading, and the latin mode moved to its direct end. -/
def reanchorAfterSurfaceEdit (m : InputModule) (keepLatinMode : Bool) : InputModule :=
  let reading := m.localKana.reading
  let latinFrom :=
    if keepLatinMode then
      some (((m.localKana.replaySegments.getLast?.filter fun segment => segment.style = .direct).map
        fun segment => byteLength reading - byteLength segment.text).getD (byteLength reading))
    else none
  { m with
    state := { m.state with
      raw := reading
      composing := !reading.isEmpty
      notationFixed := none
      latinFrom := if reading.isEmpty then none else latinFrom }
    replayFromCanonical := true }

def reseedAfterPartialCommitWithLatin (segmentation : Segmentation) (m : InputModule) (remaining : Text)
    (latinFrom : Option Nat) : InputModule :=
  let retained := m.localKana.retainSuffix segmentation remaining
  let m := { m with
    state := m.state.reseedAfterPartialCommitWithLatin remaining latinFrom
    localKana := if retained.2 then retained.1 else .reseedReading remaining
    replayFromCanonical := true }
  let m := m.clearCandidates
  -- The remaining reading has no known surface form, so the committed prefix's text goes.
  ({ m with revision := u64WrappingSucc m.revision }).invalidateLiveSnapshot.invalidateLiveDisplay

def complete (segmentation : Segmentation) (m : InputModule) (operation : ImmediateOperation)
    (applied : Bool) : InputModule :=
  let m :=
    match operation, m.pendingLiveDisplay with
    | .setPreedit text, some (pendingText, anchor) =>
      { m with
        pendingLiveDisplay := none
        liveDisplayAnchor := if applied && text = pendingText then anchor else m.liveDisplayAnchor }
    | _, _ => m
  if !applied then
    let m := { m with pendingAutoCommit := none }
    match operation with
    | .cancel =>
      ({ m with
          state := m.state.resumeComposingAfterCancelReject
          revision := u64WrappingSucc m.revision }).invalidateLiveSnapshot.invalidateLiveDisplay
    | _ => m
  else
    match operation with
    | .commit _ _ remaining remainingLatinFrom =>
      let m := { m with autoCommitReceipt := m.pendingAutoCommit, pendingAutoCommit := none }
      match remaining with
      | some remaining =>
        if remaining.isEmpty then m.reset
        else m.reseedAfterPartialCommitWithLatin segmentation remaining remainingLatinFrom
      | none => m.reset
    | .cancel => m.reset
    | _ => m

def takeAutoCommitReceipt (m : InputModule) : InputModule × Option AutoCommitReceipt :=
  ({ m with autoCommitReceipt := none }, m.autoCommitReceipt)

def setNotation (m : InputModule) (kind : Notation) : InputModule :=
  ({ m with state := { m.state with notationFixed := some kind } }).invalidateLiveSnapshot.invalidateLiveDisplay

/-- A reply calculated before a correction must not overwrite its result. -/
def setAwaitingLlm (m : InputModule) (awaiting : Bool) : InputModule :=
  let m := if awaiting then m.invalidateLiveSnapshot else m
  { m with state := m.state.setAwaitingLlm awaiting }

def liveDisplayAnchorMatches (m : InputModule) (reading text : Text) : Bool :=
  m.localKana.readingParts.2.isEmpty
    && m.liveDisplayAnchor.any fun anchor => anchor.reading = reading && anchor.text = text

/-- The preedit of a key press: the anchor's text with the local kana that extends it. -/
def immediateDisplay (m : InputModule) : InputModule × Text :=
  if !m.localKana.cursorAtEnd then (m.invalidateLiveDisplay, m.canonicalReading)
  else
    match m.liveDisplayAnchor with
    | some anchor =>
      if anchor.reading.isPrefixOf m.localKana.stable then
        (m, anchor.text ++ m.localKana.stable.drop anchor.reading.length ++ m.localKana.pending)
      else (m.invalidateLiveDisplay, m.localKana.reading)
    | none => (m.invalidateLiveDisplay, m.localKana.reading)

def rebindExpectedSnapshotConnection (m : InputModule)
    (configurationGeneration connectionGeneration : Nat) : InputModule × Bool :=
  match m.expectedSnapshot with
  | none => (m, false)
  | some (identity, purpose) =>
    if identity.configurationGeneration ≠ configurationGeneration then (m, false)
    else
      (invalidateLiveDisplay
        { m with
          expectedSnapshot := some ({ identity with connectionGeneration := connectionGeneration }, purpose) },
        true)

def candidateCommit (m : InputModule) (index : Option Nat) : InputModule × ModuleOutput :=
  let index := index.getD m.selected
  match m.candidateResult, m.candidates[index]? with
  | some candidateResult, some text =>
    let (m, request) := { m with candidateInteracted := true }.requestId
    ({ m with pendingCandidateCommit := some (request, candidateResult) },
      ⟨true, none, some (.commit request candidateResult (some index) (some text))⟩)
  | _, _ => (m, .default)

def backgroundReseed (m : InputModule) : InputModule × BackgroundIntent :=
  let (m, request) := m.requestId
  (m, .insert request m.replaySegments)

def replaceCandidatesForRevision (m : InputModule) (values : List Text) (selected composition revision : Nat) :
    InputModule × ModuleOutput :=
  if composition ≠ m.composition || revision ≠ m.revision || m.candidateInteracted then (m, .default)
  else if values.isEmpty then (m.clearCandidates, .default)
  else
    let m := { m with nextCandidateResult := u64WrappingSucc m.nextCandidateResult }.invalidateLiveDisplay
    let identity : CandidateResultIdentity :=
      { composition := composition, revision := revision, result := m.nextCandidateResult }
    let selected := min selected (values.length - 1)
    ({ m with
        selected := selected
        candidates := values
        candidateResult := some identity
        pendingCandidateCommit := none },
      ⟨false, some (.showCandidates identity values selected), none⟩)

def replaceCandidates (m : InputModule) (values : List Text) (selected : Nat) (reason : CandidateReplacement) :
    InputModule × ModuleOutput :=
  match reason with
  | .newResult => m.replaceCandidatesForRevision values selected m.composition m.revision
  | .userDriven =>
    match m.candidateResult with
    | none => (m, .default)
    | some current =>
      if values.isEmpty || !m.state.composing || current.composition ≠ m.composition
          || current.revision ≠ m.revision then (m, .default)
      else
        let result := { m with candidateInteracted := false }.replaceCandidatesForRevision values selected
          m.composition m.revision
        ({ result.1 with candidateInteracted := true }, result.2)

def readingNavigationOutput (m : InputModule) (moved : Bool) : InputModule × ModuleOutput :=
  if !moved then (m, .swallowed)
  else
    let m := m.clearCandidates
    let m := ({ m with
      state := { m.state with notationFixed := none } }).invalidateLiveSnapshot.invalidateLiveDisplay
    let m := { m with replayFromCanonical := true, cursorReplayPending := true }
    (m, ⟨true, some (displayOperation m.canonicalReading), none⟩)

def setReadingCursor (m : InputModule) (cursor : Nat) : InputModule × ModuleOutput :=
  let moved := m.localKana.setCursor cursor
  { m with localKana := moved.1 }.readingNavigationOutput moved.2

/-- A move to another candidate that is shown in the preedit. -/
def previewCandidate (m : InputModule) (selected : Nat) : InputModule × ModuleOutput :=
  let m := { { m with candidateInteracted := true }.invalidateLiveDisplay with selected := selected }
  (m, ⟨true, some (displayOperation ((m.candidates[selected]?).getD [])), none⟩)

/-- The operation that shows a reading after a deletion, or ends the composition without one. -/
def deletionOperation (m : InputModule) : ImmediateOperation :=
  if m.localKana.reading.isEmpty then .cancel else displayOperation m.localKana.reading

/-- The first key starts a composition of its own. -/
def beginComposition (m : InputModule) : InputModule :=
  if !m.state.composing then
    { m with composition := u64WrappingSucc m.composition, revision := 0, replayFromCanonical := false }
  else m

/-- A key in the keys typed so far and in the composer. -/
def typeKey (m : InputModule) (ch : Char) : TextStyle → InputModule
  | .kana => { m with state := m.state.onChar ch, localKana := m.localKana.push ch .kana }
  | .direct =>
    -- A direct insertion makes a styled boundary that the typed keys do not show, so the composer's
    -- segments are the authority for full replays from here on.
    { m with
      state := m.state.onCharLatin ch
      localKana := m.localKana.push ch .direct
      replayFromCanonical := true }

/-- A key typed elsewhere than at the end is an edit of the reading. -/
def isCursorEdit (m : InputModule) : Bool := m.cursorReplayPending || !m.localKana.cursorAtEnd

def handleText (m : InputModule) (ch : Char) (style : TextStyle) (replay : ReplayMode) :
    InputModule × ModuleOutput :=
  let cursorEdit := m.isCursorEdit
  let m := m.beginComposition.clearCandidates.typeKey ch style
  let m := if cursorEdit then m.reanchorAfterSurfaceEdit m.state.latinMode else m
  let m := { m with cursorReplayPending := false, revision := u64WrappingSucc m.revision }.invalidateLiveSnapshot
  let (m, request) := m.requestId
  let segments :=
    match replay with
    | .delta => [⟨[ch], style⟩]
    | .full => m.replaySegments
  let (m, shown) := m.immediateDisplay
  (m,
    { eaten := true
      immediate := some (displayOperation shown)
      background := some
        (if cursorEdit then .reseed request m.canonicalSegments else .insert request segments) })

def handleDelete (m : InputModule) : InputModule × ModuleOutput :=
  let deleted := m.localKana.deleteForward
  if !deleted.2 then (m, .swallowed)
  else
    let m := { m with localKana := deleted.1 }.clearCandidates.invalidateLiveDisplay
    let m := m.reanchorAfterSurfaceEdit m.state.latinMode
    let m := { m with revision := u64WrappingSucc m.revision }.invalidateLiveSnapshot
    let (m, request) := m.requestId
    (m, ⟨true, some m.deletionOperation, some (.reseed request m.canonicalSegments)⟩)

def handleBackspace (segmentation : Segmentation) (m : InputModule) : InputModule × ModuleOutput :=
  if m.localKana.cursor = 0 && !m.canonicalReading.isEmpty then (m, .swallowed)
  else
    let m := m.clearCandidates.invalidateLiveDisplay
    let keepLatinMode := m.state.latinMode
    let m := { m with
      state := m.state.onBackspace, localKana := m.localKana.backspaceAtCursor segmentation }
    let m := m.reanchorAfterSurfaceEdit keepLatinMode
    let m := { m with revision := u64WrappingSucc m.revision }.invalidateLiveSnapshot
    let (m, request) := m.requestId
    (m, ⟨true, some m.deletionOperation, some (.reseed request m.replaySegments)⟩)

def handleKey (segmentation : Segmentation) (m : InputModule) : KeyEvent → InputModule × ModuleOutput
  | .text ch style replay => m.handleText ch style replay
  | .moveReading direction =>
    if m.state.composing then
      let moved := m.localKana.moveCursor direction
      { m with localKana := moved.1 }.readingNavigationOutput moved.2
    else (m, .default)
  | .readingHome => if m.state.composing then m.setReadingCursor 0 else (m, .default)
  | .readingEnd => if m.state.composing then m.setReadingCursor (2 ^ 32 - 1) else (m, .default)
  | .delete => if m.state.composing then m.handleDelete else (m, .default)
  | .backspace => if m.state.composing then m.handleBackspace segmentation else (m, .default)
  | .space =>
    if m.state.composing then
      let (m, request) := m.requestId
      ({ m with expectedCandidates := some (request, m.composition, m.revision) },
        ⟨true, none, some (.convert request)⟩)
    else (m, .default)
  | .moveCandidate delta =>
    if m.candidates.isEmpty then (m, .default)
    else m.previewCandidate ((m.selected + delta) % m.candidates.length).toNat
  | .selectCandidate index =>
    if m.candidates.isEmpty then (m, .default)
    else m.previewCandidate (min index (m.candidates.length - 1))
  | .commitCandidate index => m.candidateCommit index
  | .enter =>
    if !m.candidates.isEmpty then m.candidateCommit none
    else if m.state.composing then
      (m, ⟨true, some (finishOperation m.localKana.reading false none none none), none⟩)
    else (m, .default)
  | .escape =>
    if m.state.composing then (m, ⟨true, some (finishOperation [] true none none none), none⟩)
    else (m, .default)
  | .other => (m, .default)

def validatePartialReseed (segmentation : Segmentation) (m : InputModule) (proposed : Text) : Option Text :=
  let canonical := m.localKana.reading
  if proposed.isEmpty || byteLength canonical < byteLength proposed then none
  else
    let prefixLen := byteLength canonical - byteLength proposed
    if prefixLen = 0 || !proposed.isSuffixOf canonical || !m.localKana.canRetainSuffix segmentation proposed then
      none
    else some (dropBytes prefixLen canonical)

/-- The first direct segment that reaches behind the start of the suffix. -/
def latinStartFrom (suffixStart : Nat) : Nat → List ReplaySegment → Option Nat
  | _, [] => none
  | offset, segment :: rest =>
    let stop := offset + byteLength segment.text
    if suffixStart < stop && segment.style = .direct then some (max offset suffixStart - suffixStart)
    else latinStartFrom suffixStart stop rest

def validatedRemainingLatinFrom (m : InputModule) (remaining : Text) : Option (Option Nat) :=
  if m.state.latinFrom.isNone then some none
  else
    let canonical := m.localKana.reading
    if byteLength canonical < byteLength remaining then none
    else
      some (some ((latinStartFrom (byteLength canonical - byteLength remaining) 0
        m.localKana.replaySegments).getD (byteLength remaining)))

/-- The commit that an engine outcome leads to, or nothing where its rest cannot be kept. -/
def commitOperation (segmentation : Segmentation) (m : InputModule) (candidate : Option Nat)
    (resolvedText : Text) : EngineCommitOutcome → Option ImmediateOperation
  | .applied engineText remaining =>
    if remaining.isEmpty then some (finishOperation resolvedText false candidate (some remaining) none)
    else do
      let remaining ← m.validatePartialReseed segmentation remaining
      let remainingLatinFrom ← m.validatedRemainingLatinFrom remaining
      return finishOperation engineText false candidate (some remaining) remainingLatinFrom
  | .fallback _ => some (finishOperation resolvedText false candidate none none)

def handleCommit (segmentation : Segmentation) (m : InputModule) (request : Nat) (candidate : Option Nat)
    (resolvedText : Text) (outcome : EngineCommitOutcome) : InputModule × ModuleOutput :=
  let answered (m : InputModule) : InputModule × ModuleOutput :=
    match m.commitOperation segmentation candidate resolvedText outcome with
    | none => (m, .default)
    | some operation => (m, ⟨false, some operation, none⟩)
  match m.pendingCandidateCommit with
  | some (pendingRequest, pendingIdentity) =>
    if request ≠ pendingRequest || candidate.isNone || m.candidateResult ≠ some pendingIdentity then (m, .default)
    else answered { m with pendingCandidateCommit := none }
  | none => if candidate.isSome then (m, .default) else answered m

def handleLiveSnapshot (m : InputModule) (identity : SnapshotTicket) (text : Text) :
    InputModule × ModuleOutput :=
  if m.state.awaitingLlm || m.expectedSnapshot ≠ some (identity, .live) || !m.state.composing then (m, .default)
  else
    let anchor :=
      if text.isEmpty then none
      else if m.localKana.pending.isEmpty then some { reading := m.localKana.stable, text := text }
      else m.liveDisplayAnchor
    ({ m with pendingLiveDisplay := some (text, anchor) }, ⟨false, some (displayOperation text), none⟩)

def handleAutoCommitProposal (segmentation : Segmentation) (m : InputModule) (proposal : AutoCommitProposal) :
    InputModule × ModuleOutput :=
  if m.state.awaitingLlm || m.expectedSnapshot ≠ some (proposal.identity, .live) || !m.state.composing
      || m.pendingAutoCommit.isSome || proposal.text.isEmpty
      || m.localKana.reading ≠ proposal.consumedReading ++ proposal.remaining then (m, .default)
  else if proposal.consumedReading.isEmpty then (m, .default)
  else
    match m.validatePartialReseed segmentation proposal.remaining with
    | none => (m, .default)
    | some remaining =>
      match m.validatedRemainingLatinFrom remaining with
      | none => (m, .default)
      | some remainingLatinFrom =>
        ({ m with
            pendingAutoCommit := some { proposal := proposal.proposal, identity := proposal.identity } },
          ⟨false, some (finishOperation proposal.text false none (some remaining) remainingLatinFrom), none⟩)

def handleEngine (segmentation : Segmentation) (m : InputModule) : EngineResult → InputModule × ModuleOutput
  | .reading _ text =>
    if text.isEmpty && m.state.raw.isEmpty then (m, ⟨false, some .cancel, none⟩)
    else
      let (m, shown) := m.immediateDisplay
      (m, ⟨false, some (displayOperation shown), none⟩)
  | .candidates request values =>
    match m.expectedCandidates with
    | none => (m, .default)
    | some (expected, composition, revision) =>
      if request ≠ expected then (m, .default)
      else m.replaceCandidatesForRevision values 0 composition revision
  | .commit request candidate resolvedText outcome =>
    m.handleCommit segmentation request candidate resolvedText outcome
  | .disconnected _ =>
    let m := m.invalidateLiveDisplay
    if m.state.raw.isEmpty then (m, ⟨false, some .cancel, none⟩)
    else (m, ⟨false, some (displayOperation m.localKana.reading), none⟩)
  | .liveSnapshot identity text => m.handleLiveSnapshot identity text
  | .liveAutoCommitProposal proposal => m.handleAutoCommitProposal segmentation proposal
  | .explicitSnapshot identity candidates =>
    if m.expectedSnapshot ≠ some (identity, .explicit) || !m.state.composing then (m, .default)
    else m.replaceCandidatesForRevision candidates 0 identity.composition identity.revision

def handle (segmentation : Segmentation) (m : InputModule) : InputEvent → InputModule × ModuleOutput
  | .key key => m.handleKey segmentation key
  | .lifecycle .activated => (m, .default)
  | .lifecycle .deactivated =>
    if m.state.composing then (m, ⟨false, some (finishOperation [] true none none none), none⟩)
    else (m, .default)
  | .engine result => m.handleEngine segmentation result
  | .candidates (.replace values selected reason) => m.replaceCandidates values selected reason
  | .candidates .closed => (m.clearCandidates, .default)

/-- Completing a final n is a revision of its own, and fails where there is none left. -/
def finalizePendingN (m : InputModule) : InputModule × Option Bool :=
  let composer := m.localKana.finalizePendingN
  if !composer.2 then (m, some false)
  else
    match u64CheckedAdd m.revision 1 with
    | none => (m, none)
    | some revision =>
      let m := { m with localKana := composer.1, revision := revision }
      let m := m.reanchorAfterSurfaceEdit m.state.latinMode
      (m.clearCandidates.invalidateLiveSnapshot.invalidateLiveDisplay, some true)

def adoptConversionReading (m : InputModule) (reading : Text) : InputModule × Bool :=
  let adopted := m.localKana.adoptConversionReading reading
  if !adopted.2 then (m, false)
  else
    let m := { m with localKana := adopted.1 }
    ((m.reanchorAfterSurfaceEdit m.state.latinMode).invalidateLiveSnapshot.invalidateLiveDisplay, true)

def originalInput (m : InputModule) (start stop : Nat) : Option Text := m.localKana.originalInput start stop

def preserveLastLiteralOriginal (m : InputModule) (original : Char) : InputModule :=
  { m with localKana := m.localKana.preserveLastLiteralOriginal original }

def retainClauseReadingPrefix (m : InputModule) (front : Text) : InputModule × Option Nat :=
  match u64CheckedAdd m.revision 1 with
  | none => (m, none)
  | some revision =>
    if !front.isPrefixOf m.localKana.reading || byteLength m.localKana.reading ≤ byteLength front
        || !((legalBoundaries m.localKana.reading).toOption.any fun positions => positions.contains front.length)
    then (m, none)
    else
      let retained := m.localKana.retainPrefix front
      if !retained.2 then (m, none)
      else
        let m := { m with localKana := retained.1 }.reanchorAfterSurfaceEdit false
        (({ m with revision := revision }).clearCandidates.invalidateLiveSnapshot.invalidateLiveDisplay,
          some revision)

end InputModule

end Nospacekey
