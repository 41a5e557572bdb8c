import Nospacekey.Clause.Notation
import Nospacekey.Text.Grapheme
import Nospacekey.Library.Table
import Nospacekey.Library.Tiling

/-! The local owner of clause selection and surfaces, to which engine replies only supply calculations. -/

namespace Nospacekey

open Tiling (splice)

inductive OperationMode where
  | editing
  | converting
  deriving DecidableEq, Repr

inductive SurfaceSource (τ : Type) where
  | reading
  | candidate (token : τ) (explicitlySelected : Bool)
  | localSurface
  deriving DecidableEq, Repr

/-- Whether the surface is the reading itself. -/
def SurfaceSource.isReading {τ : Type} : SurfaceSource τ → Bool
  | .reading => true
  | _ => false

/-- The source left once the engine's token is retired. -/
def SurfaceSource.retire {τ : Type} : SurfaceSource τ → SurfaceSource τ
  | .candidate _ _ => .localSurface
  | source => source

structure LocalClause (τ : Type) where
  id : Nat
  start : Nat
  stop : Nat
  surface : Text
  source : SurfaceSource τ
  deriving DecidableEq, Repr

inductive CandidateWindow (τ : Type) where
  | closed
  | loading (key : ClauseRequestKey)
  | ready (clause : Nat) (candidates : List (ClauseCandidate τ)) (selected : Nat)
  deriving DecidableEq, Repr

/-- The request a loading window waits for. -/
def CandidateWindow.loadingKey {τ : Type} : CandidateWindow τ → Option ClauseRequestKey
  | .loading key => some key
  | _ => none

/-- Whether no window is open. -/
def CandidateWindow.isClosed {τ : Type} : CandidateWindow τ → Bool
  | .closed => true
  | _ => false

/-- Whether the window shows a list. -/
def CandidateWindow.isReady {τ : Type} : CandidateWindow τ → Bool
  | .ready _ _ _ => true
  | _ => false

structure IssuedCandidates where
  request : ClauseCandidatesRequest
  deadline : Nat
  conversion : Option ConvertClausesRequest
  rebaselineUsed : Bool
  advance : Int
  deriving DecidableEq, Repr

structure CachedCandidates (τ : Type) where
  start : Nat
  stop : Nat
  preceding : List PrecedingSurface
  candidates : List (ClauseCandidate τ)
  deriving DecidableEq, Repr

inductive LocalEditOutcome where
  | unchanged
  | changed
  | readingChanged
  | empty
  | editing
  | exhausted
  deriving DecidableEq, Repr

inductive CancelStage where
  | none
  | selectedReading
  deriving DecidableEq, Repr

structure ClauseRebaseline where
  original : IssuedCandidates
  boundary : Bool
  identity : SnapshotIdentity
  snapshotRequestId : Nat
  convertRequestId : Nat
  deriving DecidableEq, Repr

structure AutoCommitOffer where
  proposal : Nat
  text : Text
  consumedReading : Text
  remaining : Text
  deriving DecidableEq, Repr

/-- The fields of a snapshot reply that a rebaseline reads, or any other reply. -/
inductive Response (τ : Type) where
  | snapshotResult (identity : SnapshotIdentity) (baseline : Nat) (clauseData : SnapshotClauseData τ)
      (text : Text) (autoCommit : Option AutoCommitOffer)
  | other
  deriving DecidableEq, Repr

structure NotationCycle where
  kind : Notation
  start : Nat
  stop : Nat
  material : Text
  step : Nat
  deriving DecidableEq, Repr

structure ClauseConversion (τ : Type) where
  learningIdentity : Option EngineLearningIdentity
  mode : OperationMode
  reading : Text
  identity : SnapshotIdentity
  baseline : Nat
  revision : Nat
  clauses : List (LocalClause τ)
  selected : Nat
  window : CandidateWindow τ
  sentenceToken : Option τ
  issued : Table Nat IssuedCandidates
  cache : Table Nat (CachedCandidates τ)
  lastRequestId : Nat
  nextClauseId : Option Nat
  boundaryRequest : Option IssuedCandidates
  cancelStage : CancelStage
  userDriven : Bool
  editingClause : Option Nat
  notationCycle : Option NotationCycle

/-- Requests expire this many milliseconds after they were issued. -/
def requestLifetime : Nat := 1200

/-- The scalars of a reading from one offset up to another. -/
def slice (reading : Text) (start stop : Nat) : Text := (reading.drop start).take (stop - start)

namespace ClauseConversion

variable {τ : Type}

/-- The clause an initial wire clause becomes. -/
def localClause [EngineToken τ] (clause : WireClause τ) : LocalClause τ where
  id := clause.id
  start := clause.readingStart
  stop := clause.readingEnd
  surface := clause.surface
  source :=
    match clause.state with
    | .reading => .reading
    -- A validated converted clause has a token.
    | .converted => .candidate (clause.candidateToken.getD EngineToken.empty) false

def fromSnapshot [EngineToken τ] (identity : SnapshotIdentity) (baseline : Nat)
    (data : SnapshotClauseData τ) (text : Text) :
    Except ClauseValidationError (ClauseConversion τ) := do
  data.validate text
  let clauses := data.clauses.map localClause
  return {
    learningIdentity := none
    mode := .converting
    reading := data.reading
    identity := identity
    baseline := baseline
    revision := data.conversionRevision
    clauses := clauses
    selected := 0
    window := .closed
    sentenceToken := data.sentenceToken
    issued := ∅
    cache := ∅
    lastRequestId := data.requestId
    nextClauseId := u64CheckedAdd ((clauses.map LocalClause.id).foldl max 0) 1
    boundaryRequest := none
    cancelStage := .none
    userDriven := false
    editingClause := none
    notationCycle := none }

def fromReading (identity : SnapshotIdentity) (reading : Text) : Option (ClauseConversion τ) := do
  let stop ← u32TryFrom reading.length
  if stop = 0 then none
  else
    some {
      learningIdentity := none
      mode := .editing
      reading := reading
      identity := identity
      baseline := 0
      revision := 0
      clauses := [{ id := 1, start := 0, stop := stop, surface := reading, source := .reading }]
      selected := 0
      window := .closed
      sentenceToken := none
      issued := ∅
      cache := ∅
      lastRequestId := 0
      nextClauseId := some 2
      boundaryRequest := none
      cancelStage := .none
      userDriven := true
      editingClause := none
      notationCycle := none }

def resetNotationCycle (m : ClauseConversion τ) : ClauseConversion τ :=
  { m with notationCycle := none }

/-- The displayed text is the surfaces in order. -/
def text (m : ClauseConversion τ) : Text := m.clauses.flatMap LocalClause.surface

/-- The reading a range of the model covers. -/
def readingOf (m : ClauseConversion τ) (start stop : Nat) : Text := slice m.reading start stop

/-- Freeze the applied live clauses on the first Space. A locally typed suffix remains a reading
clause until the user converts that interval. -/
def promoteLiveDisplay (m : ClauseConversion τ) (identity : SnapshotIdentity) (reading text : Text) :
    Option (ClauseConversion τ) := do
  if m.identity.composition ≠ identity.composition
      || m.identity.configurationGeneration ≠ identity.configurationGeneration
      || m.identity.connectionGeneration ≠ identity.connectionGeneration
      || identity.revision < m.identity.revision
      || m.clauses.all (fun clause => clause.source.isReading)
      || !m.reading.isPrefixOf reading then none
  else
    let suffix := reading.drop m.reading.length
    if text ≠ m.text ++ suffix then none
    else if suffix.isEmpty then
      some { m with identity := identity, mode := .converting, userDriven := true }
    else
      let start ← u32TryFrom m.reading.length
      let stop ← u32TryFrom reading.length
      let boundaries ← (legalBoundaries reading).toOption
      if !boundaries.contains start then none
      else
        let id ← m.nextClauseId
        let next ← u64CheckedAdd id 1
        let revision ← u64CheckedAdd m.revision 1
        some { m with
          nextClauseId := some next
          clauses := m.clauses ++
            [{ id := id, start := start, stop := stop, surface := suffix, source := .reading }]
          reading := reading
          sentenceToken := none
          revision := revision
          identity := identity
          mode := .converting
          userDriven := true }

/-- Closing a loading window also withdraws its request. -/
def closeWindow (m : ClauseConversion τ) : ClauseConversion τ :=
  { m with
    boundaryRequest := none
    issued :=
      match m.window.loadingKey with
      | some key => m.issued.erase key.requestId
      | none => m.issued
    window := .closed }

def beginReadingEdit (m : ClauseConversion τ) (index : Nat) :
    ClauseConversion τ × LocalEditOutcome :=
  match m.clauses[index]? with
  | none => (m, .unchanged)
  | some clause =>
    match u64CheckedAdd m.revision 1 with
    | none => (m, .exhausted)
    | some revision =>
      let edited := { clause with
        surface := m.readingOf clause.start clause.stop, source := .reading }
      let m := { m with
        clauses := m.clauses.set index edited
        editingClause := some clause.id
        selected := index
        mode := .editing
        revision := revision
        cancelStage := .none
        notationCycle := none
        userDriven := true }
      ({ m.closeWindow with cache := ∅, issued := ∅, sentenceToken := none }, .changed)

/-- The clause under edit, while the model is in editing mode. -/
def editedClause (m : ClauseConversion τ) : Option (LocalClause τ) :=
  if m.mode ≠ .editing then none
  else m.clauses.find? fun clause => some clause.id = m.editingClause

def editingRange (m : ClauseConversion τ) : Option (Nat × Nat) :=
  m.editedClause.map fun clause => (clause.start, clause.stop)

/-- The place of the clause under edit. -/
def editedIndex (m : ClauseConversion τ) : Nat :=
  m.clauses.findIdx fun clause => some clause.id = m.editingClause

/-- A later clause after the edited interval changed its length, with a new id and no engine token. -/
def shiftClause (firstId : Nat) (delta : Int) (offset : Nat) (clause : LocalClause τ) :
    LocalClause τ :=
  { clause with
    id := firstId + 1 + offset
    start := (clause.start + delta).toNat
    stop := (clause.stop + delta).toNat
    source := clause.source.retire }

/-- The later clauses of an edited interval, untouched when its length stays the same. -/
def shiftClauses (firstId : Nat) (delta : Int) (later : List (LocalClause τ)) : List (LocalClause τ) :=
  if delta ≠ 0 then later.mapIdx (shiftClause firstId delta) else later

/-- The accepted edit of one interval whose two edges are legal boundaries of the new reading. -/
def replaceInterval (m : ClauseConversion τ) (reading : Text) (readingRevision : Nat)
    (start newStop : Nat) : ClauseConversion τ × LocalEditOutcome :=
  match u64CheckedAdd m.revision 1 with
  | none => (m, .exhausted)
  | some revision =>
    if readingRevision ≤ m.identity.revision then (m, .unchanged)
    else
      let index := m.editedIndex
      let newLen := reading.length
      let oldLen := m.reading.length
      let changedIds := 1 + if newLen ≠ oldLen then m.clauses.length - index - 1 else 0
      match m.nextClauseId with
      | none => (m, .exhausted)
      | some firstId =>
        match u64CheckedAdd firstId changedIds with
        | none => (m, .exhausted)
        | some nextId =>
          let delta : Int := newLen - oldLen
          let edited : LocalClause τ :=
            { id := firstId, start := start, stop := newStop
              surface := slice reading start newStop, source := .reading }
          let later := shiftClauses firstId delta (m.clauses.drop (index + 1))
          let emptied := newStop = start
          let clauses := m.clauses.take index ++ (if emptied then later else edited :: later)
          let m := { m with
            clauses := clauses
            editingClause := if emptied then none else some firstId
            mode := if emptied then .converting else m.mode
            selected := if emptied then min index (clauses.length - 1) else m.selected
            reading := reading
            identity := { m.identity with revision := readingRevision }
            revision := revision
            nextClauseId := some nextId
            cancelStage := .none
            notationCycle := none }
          let m := { m.closeWindow with cache := ∅, issued := ∅, sentenceToken := none }
          (m, if clauses.isEmpty then .empty else .readingChanged)

/-- The clauses from one place to another become one reading clause under edit. -/
def absorbNeighbours (m : ClauseConversion τ) (first last : Nat) : ClauseConversion τ :=
  match m.clauses[first]?, m.clauses[last]? with
  | some front, some back =>
    { m with
      clauses := splice m.clauses first (last + 1)
        [{ id := front.id, start := front.start, stop := back.stop
           surface := m.readingOf front.start back.stop, source := .reading }]
      selected := first
      editingClause := some front.id }
  -- Both places are those of the edited clause or of a neighbour it has.
  | _, _ => m

/-- The outer places of the clauses that an edit with illegal edges makes one interval. -/
def absorbedPlaces (m : ClauseConversion τ) (boundaries : List Nat) (start newStop : Nat) : Nat × Nat :=
  let index := m.editedIndex
  (if !boundaries.contains start then index - 1 else index,
    if !boundaries.contains newStop then min (index + 1) (m.clauses.length - 1) else index)

/-- One attempt at the edit, which may retry on a draft that absorbed neighbouring clauses. -/
def replaceEditedReadingBy (retry : ClauseConversion τ → ClauseConversion τ × LocalEditOutcome)
    (m : ClauseConversion τ) (reading : Text) (readingRevision : Nat) :
    ClauseConversion τ × LocalEditOutcome :=
  match m.editingRange with
  | none => (m, .unchanged)
  | some (start, stop) =>
    let front := m.reading.take start
    let back := m.reading.drop stop
    match u32TryFrom reading.length with
    | none => (m, .exhausted)
    | some newLen =>
      let kept := start + m.reading.length - stop
      if newLen < kept || !front.isPrefixOf reading || !back.isSuffixOf reading then (m, .unchanged)
      else
        let newStop := start + newLen - kept
        match legalBoundaries reading with
        | .error _ => (m, .unchanged)
        | .ok boundaries =>
          if !boundaries.contains start || !boundaries.contains newStop then
            -- A combining mark newly attached across an interval edge makes that neighbouring
            -- clause part of the edited reading as well.
            let absorbed := m.absorbedPlaces boundaries start newStop
            if absorbed.1 = absorbed.2 then (m, .unchanged)
            else
              let result := retry (m.absorbNeighbours absorbed.1 absorbed.2)
              match result.2 with
              | .readingChanged => result
              | .empty => result
              | outcome => (m, outcome)
          else m.replaceInterval reading readingRevision start newStop

/-- The edit with a bound on how often neighbours may still be absorbed. -/
def replaceEditedReadingWithin (reading : Text) (readingRevision : Nat) :
    Nat → ClauseConversion τ → ClauseConversion τ × LocalEditOutcome
  | 0, m => replaceEditedReadingBy (fun draft => (draft, .unchanged)) m reading readingRevision
  | fuel + 1, m =>
    replaceEditedReadingBy (replaceEditedReadingWithin reading readingRevision fuel) m reading
      readingRevision

/-- The input module changes only the active reading interval. All other surfaces stay local, and
absolute-offset changes retire their old tokens. -/
def replaceEditedReading (m : ClauseConversion τ) (reading : Text) (readingRevision : Nat) :
    ClauseConversion τ × LocalEditOutcome :=
  -- Each absorption leaves fewer clauses, so their number bounds the recursion.
  replaceEditedReadingWithin reading readingRevision m.clauses.length m

def deleteDisplayTail (segmentation : Segmentation) (m : ClauseConversion τ) :
    ClauseConversion τ × LocalEditOutcome :=
  match m.clauses.getLast? with
  | none => (m, .unchanged)
  | some last =>
    match lastGraphemeStart segmentation last.surface with
    | none => (m, .unchanged)
    | some retainedBytes =>
      match u64CheckedAdd m.revision 1 with
      | none => (m, .exhausted)
      | some revision =>
        if retainedBytes = 0 then
          match u64CheckedAdd m.identity.revision 1 with
          | none => (m, .exhausted)
          | some readingRevision =>
            let clauses := m.clauses.dropLast
            let m := { m with
              reading := m.reading.take last.start
              clauses := clauses
              selected := min m.selected (clauses.length - 1)
              identity := { m.identity with revision := readingRevision }
              revision := revision
              cancelStage := .none
              userDriven := true }
            ({ m.closeWindow with issued := ∅, cache := ∅, sentenceToken := none },
              if clauses.isEmpty then .empty else .readingChanged)
        else
          let shortened : LocalClause τ := { last with
            surface := Utf8.takeBytes retainedBytes last.surface, source := .localSurface }
          let m := { m with
            clauses := m.clauses.dropLast ++ [shortened]
            revision := revision
            cancelStage := .none
            userDriven := true }
          ({ m.closeWindow with issued := ∅, cache := ∅, sentenceToken := none }, .changed)

/-- Show the reading of the selected clause, or of every clause at the second stage. -/
def revertClause (m : ClauseConversion τ) (all : Bool) (index : Nat) (clause : LocalClause τ) :
    LocalClause τ :=
  if all || index = m.selected then
    { clause with surface := m.readingOf clause.start clause.stop, source := .reading }
  else clause

def escape (m : ClauseConversion τ) : ClauseConversion τ × LocalEditOutcome :=
  if !m.window.isClosed then (m.closeWindow, .changed)
  else if m.clauses.isEmpty then (m, .unchanged)
  else
    match u64CheckedAdd m.revision 1 with
    | none => (m, .exhausted)
    | some revision =>
      let all := m.cancelStage = .selectedReading
      ({ m with
          clauses := m.clauses.mapIdx (m.revertClause all)
          revision := revision
          userDriven := true
          issued := ∅
          cache := ∅
          sentenceToken := none
          cancelStage := if all then .none else .selectedReading
          editingClause := if all then none else m.editingClause
          mode := if all then .editing else m.mode },
        if all then .editing else .changed)

/-- A clause that shows its own reading. -/
def makeReading (m : ClauseConversion τ) (id start stop : Nat) : LocalClause τ :=
  { id := id, start := start, stop := stop, surface := m.readingOf start stop, source := .reading }

/-- Local boundary changes do not issue work or consume any reading. -/
def resizeSelected (m : ClauseConversion τ) (direction : Int) :
    ClauseConversion τ × LocalEditOutcome :=
  if direction = 0 || m.mode ≠ .converting then (m, .unchanged)
  else
    match m.clauses[m.selected]?, (legalBoundaries m.reading).toOption with
    | some selected, some boundaries =>
      let nextStop :=
        if 0 < direction then boundaries.find? fun position => selected.stop < position
        else
          boundaries.reverse.find? fun position =>
            position < selected.stop && selected.start < position
      match nextStop with
      | none => (m, .unchanged)
      | some nextStop =>
        let right := m.clauses[m.selected + 1]?
        let tailStop := right.elim selected.stop LocalClause.stop
        let suffix := nextStop < tailStop
        match u64CheckedAdd m.revision 1 with
        | none => (m, .exhausted)
        | some revision =>
          match m.nextClauseId with
          | none => (m, .exhausted)
          | some firstId =>
            match u64CheckedAdd firstId (if suffix then 2 else 1) with
            | none => (m, .exhausted)
            | some nextId =>
              let head := m.makeReading firstId selected.start nextStop
              let replacements :=
                if suffix then [head, m.makeReading (firstId + 1) nextStop tailStop] else [head]
              let stop := m.selected + 1 + if right.isSome then 1 else 0
              ({ m with
                  clauses := splice m.clauses m.selected stop replacements
                  nextClauseId := some nextId
                  cancelStage := .none
                  revision := revision
                  userDriven := true
                  window := .closed
                  boundaryRequest := none
                  issued := ∅
                  cache := ∅
                  sentenceToken := none },
                .changed)
    | _, _ => (m, .unchanged)

def boundaryLoading (m : ClauseConversion τ) : Bool := m.boundaryRequest.isSome

/-- What precedes a clause, as requests carry it. -/
def precedingSurface (clause : LocalClause τ) : PrecedingSurface where
  clauseId := clause.id
  readingStart := clause.start
  readingEnd := clause.stop
  surface := clause.surface

def preceding (m : ClauseConversion τ) (index : Nat) : List PrecedingSurface :=
  (m.clauses.take index).map precedingSurface

/-- The range of a clause, as requests carry it. -/
def clauseRange (clause : LocalClause τ) : ClauseRange where
  id := clause.id
  readingStart := clause.start
  readingEnd := clause.stop

/-- The key of a request about one clause in the present state. -/
def requestKey (m : ClauseConversion τ) (clauseId requestId : Nat) : ClauseRequestKey where
  identity := m.identity
  baseline := m.baseline
  conversionRevision := m.revision
  clauseId := clauseId
  requestId := requestId

def openBoundaryConversion (m : ClauseConversion τ) (requestId now : Nat) :
    ClauseConversion τ × Option ConvertClausesRequest :=
  if m.mode ≠ .converting || !m.window.isClosed || requestId ≤ m.lastRequestId then (m, none)
  else
    match m.clauses[m.selected]? with
    | none => (m, none)
    | some selected =>
      if !selected.source.isReading then (m, none)
      else
        let run := (m.clauses.drop m.selected).takeWhile fun clause => clause.source.isReading
        let run := if m.editingClause = some selected.id then run.take 1 else run
        let request : ConvertClausesRequest :=
          { key := m.requestKey selected.id requestId
            reading := m.reading
            clauses := run.map clauseRange
            precedingSurfaces := m.preceding m.selected }
        match request.validate with
        | .error _ => (m, none)
        | .ok _ =>
          ({ m with
              lastRequestId := requestId
              window := .loading request.key
              cancelStage := .none
              boundaryRequest := some
                { request :=
                    { key := request.key
                      reading := request.reading
                      readingStart := selected.start
                      readingEnd := selected.stop
                      precedingSurfaces := request.precedingSurfaces
                      includePrefixCandidates := true }
                  conversion := some request
                  deadline := now + requestLifetime
                  rebaselineUsed := false
                  advance := 0 }
              userDriven := true },
            some request)

/-- Learning identity is independent of the visible composition, so the user's surfaces stay when
their tokens expire. -/
def invalidateLearning (m : ClauseConversion τ) : ClauseConversion τ :=
  { m with
    learningIdentity := none
    sentenceToken := none
    clauses := m.clauses.map fun clause => { clause with source := clause.source.retire }
    issued := ∅
    cache := ∅
    window := .closed
    boundaryRequest := none
    userDriven := true }

/-- The reply's identity continues the one the model already has, if any. -/
def continuesLearning (m : ClauseConversion τ) (identity : EngineLearningIdentity) : Bool :=
  m.learningIdentity.all fun old =>
    old.engineEpoch = identity.engineEpoch && old.learningGeneration ≤ identity.learningGeneration

/-- A converted clause replaces the range it was requested for. -/
def convertedClause [EngineToken τ] (clause : WireClause τ) : LocalClause τ := localClause clause

/-- Replace clauses one for one until either list ends. -/
def replaceLeading : List (LocalClause τ) → List (LocalClause τ) → List (LocalClause τ)
  | _ :: old, new :: rest => new :: replaceLeading old rest
  | old, [] => old
  | [], _ => []

def acceptBoundaryConversion [EngineToken τ] (m : ClauseConversion τ) (key : ClauseRequestKey)
    (status : ConvertClausesStatus τ) (learning : Option EngineLearningIdentity) (now : Nat) :
    ClauseConversion τ × Bool :=
  match m.boundaryRequest with
  | none => (m, false)
  | some pending =>
    match pending.conversion with
    | none => (m, false)
    | some request =>
      if request.key ≠ key || key.identity ≠ m.identity || key.baseline ≠ m.baseline
          || key.conversionRevision ≠ m.revision || m.window.loadingKey ≠ some key then (m, false)
      else if pending.deadline ≤ now then (m.closeWindow, false)
      else
        match status with
        | .pending => (m, false)
        | .unavailable _ => (m.closeWindow, false)
        | .ready clauses =>
          let valid := (request.validateResult clauses).isOk
            && learning.any fun identity => !identity.engineEpoch.isEmpty && m.continuesLearning identity
          let start := m.clauses.findIdx fun clause => clause.id = key.clauseId
          if start = m.clauses.length then (m.closeWindow, false)
          else
            let currentRanges := ((m.clauses.drop start).take request.clauses.length).map clauseRange
            match u64CheckedAdd m.revision 1 with
            | none => (m.closeWindow, false)
            | some revision =>
              if !valid || currentRanges ≠ request.clauses then (m.closeWindow, false)
              else
                let m := if m.learningIdentity ≠ learning then
                  { m.invalidateLearning with learningIdentity := learning } else m
                let m := { m with
                  clauses := m.clauses.take start ++
                    replaceLeading (m.clauses.drop start) (clauses.map convertedClause)
                  revision := revision
                  issued := ∅
                  cache := ∅ }
                (m.closeWindow, true)

/-- Reserve ids from the same counter as every snapshot and candidate request. The old model remains
authoritative until a validated initial response arrives. -/
def prepareRebaseline (m : ClauseConversion τ) (key : ClauseRequestKey)
    (snapshotRequestId convertRequestId now : Nat) : ClauseConversion τ × Option ClauseRebaseline :=
  let boundary := m.boundaryRequest.any fun pending => pending.request.key = key
  match if boundary then m.boundaryRequest else m.issued.lookup key.requestId with
  | none => (m, none)
  | some original =>
    if original.request.key ≠ key || m.identity ≠ key.identity || m.baseline ≠ key.baseline
        || m.revision ≠ key.conversionRevision || m.window.loadingKey ≠ some key
        || original.rebaselineUsed || original.deadline ≤ now
        || snapshotRequestId ≤ m.lastRequestId || convertRequestId ≤ snapshotRequestId then (m, none)
    else
      match u64CheckedAdd m.identity.connectionGeneration 1 with
      | none => (m, none)
      | some connection =>
        ({ m with lastRequestId := convertRequestId },
          some
            { original := original
              boundary := boundary
              identity := { m.identity with connectionGeneration := connection }
              snapshotRequestId := snapshotRequestId
              convertRequestId := convertRequestId })

/-- Whether the clause under selection has an id. -/
def selects (m : ClauseConversion τ) (clauseId : Nat) : Bool :=
  m.clauses[m.selected]?.any fun clause => clause.id = clauseId

/-- The pending request of a rebaseline, asked again under the key of its conversion. -/
def renewed (attempt : ClauseRebaseline) (request : ConvertClausesRequest) :
    IssuedCandidates :=
  { attempt.original with
    request := { attempt.original.request with key := request.key }
    conversion := some request
    rebaselineUsed := true }

/-- The model under a new baseline, which waits for the conversion of the pending interval. -/
def rebased (m : ClauseConversion τ) (attempt : ClauseRebaseline) (request : ConvertClausesRequest)
    (learning : EngineLearningIdentity) : ClauseConversion τ :=
  let m := { m.invalidateLearning with
    identity := attempt.identity
    baseline := request.key.baseline
    learningIdentity := some learning }
  let m :=
    if attempt.boundary then { m with boundaryRequest := some (renewed attempt request) }
    else { m with issued := m.issued.insert request.key.requestId (renewed attempt request) }
  { m with window := .loading request.key }

/-- Only the new baseline, identity and learning provenance change here. The caller must calculate
the returned exact interval within the original deadline. -/
def acceptRebaseline [EngineToken τ] (m : ClauseConversion τ) (attempt : ClauseRebaseline)
    (response : Response τ) (learning : EngineLearningIdentity) (now : Nat) :
    ClauseConversion τ × Option ConvertClausesRequest :=
  let original := attempt.original.request
  let key := original.key
  match if attempt.boundary then m.boundaryRequest else m.issued.lookup key.requestId with
  | none => (m, none)
  | some issued =>
    if issued.request ≠ original || issued.deadline ≠ attempt.original.deadline
        || issued.conversion ≠ attempt.original.conversion || issued.deadline ≤ now
        || m.identity ≠ key.identity || m.baseline ≠ key.baseline
        || m.revision ≠ key.conversionRevision || m.reading ≠ original.reading
        || m.window.loadingKey ≠ some key || m.lastRequestId ≠ attempt.convertRequestId
        || !m.selects key.clauseId || learning.engineEpoch.isEmpty
        || m.learningIdentity.any (fun old => old.engineEpoch = learning.engineEpoch
            && learning.learningGeneration < old.learningGeneration) then (m, none)
    else
      match response with
      | .other => (m, none)
      | .snapshotResult identity baseline clauseData text autoCommit =>
        if identity ≠ attempt.identity || baseline = 0
            || clauseData.requestId ≠ attempt.snapshotRequestId
            || clauseData.conversionRevision ≠ m.revision || clauseData.reading ≠ m.reading
            || autoCommit.isSome || !(clauseData.validate text).isOk then (m, none)
        else
          match if attempt.boundary then attempt.original.conversion.map ConvertClausesRequest.clauses
            else some [{ id := key.clauseId, readingStart := original.readingStart,
                         readingEnd := original.readingEnd }] with
          | none => (m, none)
          | some clauses =>
            let request : ConvertClausesRequest :=
              { key := { key with
                  identity := attempt.identity
                  baseline := baseline
                  requestId := attempt.convertRequestId }
                reading := m.reading
                clauses := clauses
                precedingSurfaces := original.precedingSurfaces }
            match request.validate with
            | .error _ => (m, none)
            | .ok _ => (m.rebased attempt request learning, some request)

/-- Withdraw a request, and close the window if it was waiting for exactly that one. -/
def endRequest (m : ClauseConversion τ) (key : ClauseRequestKey) : ClauseConversion τ :=
  let m := { m with issued := m.issued.erase key.requestId }
  if m.window.loadingKey = some key then { m with window := .closed, boundaryRequest := none } else m

def acceptRebasedConversion [EngineToken τ] (m : ClauseConversion τ) (key : ClauseRequestKey)
    (status : ConvertClausesStatus τ) (learning : Option EngineLearningIdentity)
    (candidateRequestId now : Nat) : ClauseConversion τ × Option ClauseCandidatesRequest :=
  match m.issued.lookup key.requestId with
  | none => (m, none)
  | some pending =>
    match pending.conversion with
    | none => (m, none)
    | some conversion =>
      if conversion.key ≠ key || m.identity ≠ key.identity || m.baseline ≠ key.baseline
          || m.revision ≠ key.conversionRevision || m.window.loadingKey ≠ some key
          || !m.selects key.clauseId then (m, none)
      else
        let valid := now < pending.deadline && m.lastRequestId < candidateRequestId
          && learning.isSome && m.learningIdentity = learning
        match status with
        | .pending => (m, none)
        | .unavailable _ => (m.endRequest key, none)
        | .ready clauses =>
          match u64CheckedAdd m.revision 1 with
          | none => (m.endRequest key, none)
          | some revision =>
            if !valid || !(conversion.validateResult clauses).isOk then (m.endRequest key, none)
            else
              -- This calculation restores an expired candidate request. The visible surface stays
              -- candidate 1, and only selecting a candidate changes it.
              let next := { pending with
                conversion := none
                request := { pending.request with
                  key := { key with conversionRevision := revision, requestId := candidateRequestId } } }
              ({ m with
                  revision := revision
                  lastRequestId := candidateRequestId
                  issued := (m.issued.erase key.requestId).insert candidateRequestId next
                  window := .loading next.request.key },
                some next.request)

/-- Whole-reading correction has no engine candidate provenance. -/
def replaceWholeSurface (m : ClauseConversion τ) (surface : Text) : ClauseConversion τ × Bool :=
  let m := { m with cancelStage := .none }
  match u64CheckedAdd m.revision 1, m.clauses.head? with
  | some revision, some first =>
    ({ m with
        clauses := [{ id := first.id, start := 0, stop := m.reading.length
                      surface := surface, source := .localSurface }]
        selected := 0
        revision := revision
        mode := .converting
        userDriven := true
        window := .closed
        boundaryRequest := none
        issued := ∅
        cache := ∅
        sentenceToken := none },
      true)
  | _, _ => (m, false)

/-- The surface of a notation change, its source, and the rotation state it leaves. -/
def notationSurface (m : ClauseConversion τ) (start stop : Nat) (kind : Notation)
    (original : Option Text) : Text × SurfaceSource τ × Option NotationCycle :=
  let reading := m.readingOf start stop
  match kind with
  | .hiragana => (reading, .reading, none)
  | .katakana => (toKatakana reading, .localSurface, none)
  | .hankakuKana => (toHankakuKana reading, .localSurface, none)
  | kind =>
    let material := original.getD reading
    let step := match m.notationCycle with
      | some cycle =>
        if cycle.kind = kind ∧ cycle.start = start ∧ cycle.stop = stop ∧ cycle.material = material then
          (cycle.step + 1) % 3
        else 0
      | none => 0
    -- Only ASCII width and case changes are valid without a complete journal.
    let ascii := asciiCase step true material
    (if kind = .zenkakuEisu then toZenkakuAscii ascii else ascii, .localSurface,
      some { kind := kind, start := start, stop := stop, material := material, step := step })

def transformNotation (m : ClauseConversion τ) (start stop : Nat) (kind : Notation)
    (original : Option Text) : ClauseConversion τ × Bool :=
  let m := { m with cancelStage := .none }
  match m.clauses.findIdx? (fun clause => clause.start = start),
      m.clauses.findIdx? (fun clause => clause.stop = stop) with
  | some first, some last =>
    if last < first then (m, false)
    else
      let shown := m.notationSurface start stop kind original
      match u64CheckedAdd m.revision 1, m.clauses[first]? with
      | some revision, some front =>
        let clauses := splice m.clauses first (last + 1)
          [{ id := front.id, start := start, stop := stop, surface := shown.1, source := shown.2.1 }]
        -- A changed preceding surface invalidates every following candidate list.
        let retained := (clauses.take first).map LocalClause.id
        ({ m with
            clauses := clauses
            selected := first
            revision := revision
            notationCycle := shown.2.2
            userDriven := true
            mode := if kind = .hiragana then m.mode else .converting
            window := .closed
            boundaryRequest := none
            issued := ∅
            cache := m.cache.retain fun id => retained.contains id },
          true)
      | _, _ => (m, false)
  | _, _ => (m, false)

def transformKana (m : ClauseConversion τ) (start stop : Nat) (kind : Notation) :
    ClauseConversion τ × Bool :=
  m.transformNotation start stop kind none

def refreshLearningIdentity (m : ClauseConversion τ) (identity : EngineLearningIdentity) :
    ClauseConversion τ :=
  if m.learningIdentity = some identity then m
  else if !m.continuesLearning identity then m
  else
    -- Requests issued after invalidation still have their own deadlines and verified response
    -- identity, so supplying metadata must not cancel Space.
    let fresh := { m.invalidateLearning with issued := m.issued, learningIdentity := some identity }
    match m.window.loadingKey with
    | some key => { fresh with window := .loading key }
    | none => fresh

/-- A generation-checked configuration acknowledgement is authoritative for this connection,
including a new engine epoch after reconnecting. -/
def configuredLearningIdentity (m : ClauseConversion τ) (identity : Option EngineLearningIdentity) :
    ClauseConversion τ :=
  match identity with
  | none => m.invalidateLearning
  | some identity =>
    let m := if m.learningIdentity.any (fun old => old.engineEpoch ≠ identity.engineEpoch) then
      m.invalidateLearning else m
    m.refreshLearningIdentity identity

/-- Movement may retain an in-flight reply for the cache, but never for the next window. -/
def moveClause (m : ClauseConversion τ) (offset : Int) : ClauseConversion τ :=
  { m with
    window := .closed
    boundaryRequest := none
    userDriven := true
    selected :=
      if m.clauses.isEmpty then m.selected
      else (max 0 (min (m.selected + offset) (m.clauses.length - 1))).toNat }

/-- Whether a candidate shows what a clause already shows. -/
def shows (clause : LocalClause τ) (candidate : ClauseCandidate τ) : Bool :=
  candidate.surface = clause.surface && candidate.readingEnd = clause.stop

def openReady (m : ClauseConversion τ) (candidates : List (ClauseCandidate τ)) :
    ClauseConversion τ :=
  match m.clauses[m.selected]? with
  -- Callers hold a selected clause.
  | none => m
  | some clause =>
    { m with window :=
        .ready clause.id candidates ((candidates.findIdx? (shows clause)).getD 0) }

/-- The surface already shown is the first choice of a fresh list. The cache keeps this order, so
closing and reopening the window does not reorder the user's choices. -/
def anchorCandidates [EngineToken τ] (m : ClauseConversion τ) (id : Nat)
    (candidates : List (ClauseCandidate τ)) : List (ClauseCandidate τ) :=
  match m.clauses.find? fun clause => clause.id = id with
  | none => candidates
  | some clause =>
    if clause.source.isReading then candidates
    else
      let anchor := (candidates.find? (shows clause)).getD
        { surface := clause.surface
          -- A local-only entry has the empty token, which is never sent to the engine.
          token := match clause.source with
            | .candidate token _ => token
            | _ => EngineToken.empty
          readingStart := clause.start
          readingEnd := clause.stop }
      anchor :: (candidates.eraseP (shows clause)).filter fun candidate =>
        candidate.surface ≠ anchor.surface || candidate.readingEnd ≠ anchor.readingEnd

/-- The surface source of a chosen candidate. -/
def candidateSource [EngineToken τ] (candidate : ClauseCandidate τ) : SurfaceSource τ :=
  if EngineToken.isEmpty candidate.token then .localSurface else .candidate candidate.token true

/-- The clauses from the selection up to a place give way to what a choice shows. -/
def applyChoice (m : ClauseConversion τ) (revision replaceEnd : Nat)
    (replacements : List (LocalClause τ)) (nextId : Option Nat) : ClauseConversion τ :=
  let clauses := splice m.clauses m.selected replaceEnd replacements
  let retained := (clauses.take (m.selected + 1)).map LocalClause.id
  { m with
    clauses := clauses
    nextClauseId := nextId
    revision := revision
    userDriven := true
    issued := ∅
    cache := m.cache.retain fun id => retained.contains id }

def selectCandidate [EngineToken τ] (m : ClauseConversion τ) (index : Nat) :
    ClauseConversion τ × Bool :=
  let m := { m with cancelStage := .none }
  match m.window with
  | .closed => (m, false)
  | .loading _ => (m, false)
  | .ready clause candidates _ =>
    match candidates[index]?, m.clauses[m.selected]? with
    | some candidate, some c =>
      if c.id ≠ clause then (m, false)
      else
        match u64CheckedAdd m.revision 1, m.cache.lookup clause with
        | some revision, some cached =>
          -- The list keeps its original interval while cycling. A shorter choice splits off a
          -- reading clause, and choosing a longer one replaces only that suffix.
          match (m.clauses.drop m.selected).findIdx? fun c => c.stop = cached.stop with
          | none => (m, false)
          | some beyond =>
            let last := m.selected + beyond
            let changedBoundary := c.stop ≠ candidate.readingEnd
            let replacement : LocalClause τ := { c with
              stop := candidate.readingEnd
              surface := candidate.surface
              source := candidateSource candidate }
            let sentence := if changedBoundary then none else m.sentenceToken
            let sentence :=
              if c.start = 0 ∧ candidate.readingEnd = m.reading.length then
                if EngineToken.isEmpty candidate.token then none else some candidate.token
              else sentence
            let replaceEnd := if changedBoundary then last + 1 else m.selected + 1
            let chosen := { m with
              sentenceToken := sentence, window := .ready clause candidates index }
            if changedBoundary && candidate.readingEnd < cached.stop then
              match m.nextClauseId with
              | none => (m, false)
              | some id =>
                match u64CheckedAdd id 1, readingSlice m.reading candidate.readingEnd cached.stop with
                | some next, some surface =>
                  (chosen.applyChoice revision replaceEnd
                    [replacement, { id := id, start := candidate.readingEnd, stop := cached.stop
                                    surface := surface, source := .reading }] (some next),
                    true)
                | _, _ => (m, false)
            else (chosen.applyChoice revision replaceEnd [replacement] m.nextClauseId, true)
        | _, _ => (m, false)
    | _, _ => (m, false)

def advanceCandidate [EngineToken τ] (m : ClauseConversion τ) (direction : Int) :
    ClauseConversion τ × Bool :=
  match m.window with
  | .ready _ candidates selected =>
    -- An open list is never empty, so the remainder is an index into it.
    m.selectCandidate ((selected + direction) % candidates.length).toNat
  | _ => (m, false)

/-- Callers allocate ids from the connection owner's counter shared with initial snapshots. -/
def openCandidates (m : ClauseConversion τ) (requestId now : Nat) :
    ClauseConversion τ × Option ClauseCandidatesRequest :=
  if m.mode ≠ .converting || m.clauses.isEmpty || !m.window.isClosed then (m, none)
  else
    match m.clauses[m.selected]? with
    -- The selection is inside a nonempty clause list.
    | none => (m, none)
    | some c =>
      let m := { m with userDriven := true, cancelStage := .none }
      let preceding := m.preceding m.selected
      match (m.cache.lookup c.id).filter fun cached =>
          cached.start = c.start && cached.stop = c.stop && cached.preceding = preceding with
      | some cached => (m.openReady cached.candidates, none)
      | none =>
        if requestId ≤ m.lastRequestId then (m, none)
        else
          let request : ClauseCandidatesRequest :=
            { key := m.requestKey c.id requestId
              reading := m.reading
              readingStart := c.start
              readingEnd := c.stop
              precedingSurfaces := preceding
              includePrefixCandidates := true }
          ({ m with
              lastRequestId := requestId
              issued := m.issued.insert requestId
                { request := request
                  deadline := now + requestLifetime
                  conversion := none
                  rebaselineUsed := false
                  advance := 0 }
              window := .loading request.key },
            some request)

/-- A Space that opens the list also moves once. That intent is kept across asynchronous replies,
including a rebaseline, without replaying the key. -/
def cycleCandidate [EngineToken τ] (m : ClauseConversion τ) (requestId : Nat) (direction : Int)
    (now : Nat) : ClauseConversion τ × Option ClauseCandidatesRequest :=
  if m.window.isReady then ((m.advanceCandidate direction).1, none)
  else
    match m.openCandidates requestId now with
    | (m, some request) =>
      match m.issued.lookup request.key.requestId with
      | some issued =>
        ({ m with
            issued := m.issued.insert request.key.requestId { issued with advance := direction } },
          some request)
      | none => (m, some request)
    | (m, none) =>
      if m.window.isReady then ((m.advanceCandidate direction).1, none) else (m, none)

/-- The accepted branch of a candidate reply: the list goes to the cache, and to the window if that
still waits for it. -/
def storeCandidates [EngineToken τ] (m : ClauseConversion τ) (key : ClauseRequestKey)
    (issued : IssuedCandidates) (candidates : List (ClauseCandidate τ)) : ClauseConversion τ × Bool :=
  let candidates := m.anchorCandidates key.clauseId candidates
  let m := { m with
    cache := m.cache.insert key.clauseId
      { start := issued.request.readingStart
        stop := issued.request.readingEnd
        preceding := issued.request.precedingSurfaces
        candidates := candidates }
    issued := m.issued.erase key.requestId }
  if m.selects key.clauseId && m.window.loadingKey = some key then
    let m := m.openReady candidates
    (if issued.advance ≠ 0 then (m.advanceCandidate issued.advance).1 else m, true)
  else (m, false)

def acceptCandidates [EngineToken τ] (m : ClauseConversion τ) (key : ClauseRequestKey)
    (status : ClauseCandidatesStatus τ) (now : Nat) : ClauseConversion τ × Bool :=
  match m.issued.lookup key.requestId with
  | none => (m, false)
  | some issued =>
    if issued.request.key ≠ key || m.identity ≠ key.identity || m.baseline ≠ key.baseline
        || m.revision ≠ key.conversionRevision then (m, false)
    else if issued.deadline ≤ now then (m.endRequest key, false)
    else
      match status with
      | .unavailable _ => (m.endRequest key, false)
      | .pending => if issued.conversion.isSome then (m.endRequest key, false) else (m, false)
      | .ready candidates =>
        if issued.conversion.isSome then (m.endRequest key, false)
        else if !(issued.request.validateCandidates candidates).isOk then (m.endRequest key, false)
        else m.storeCandidates key issued candidates

def acceptCandidatesWithIdentity [EngineToken τ] (m : ClauseConversion τ) (key : ClauseRequestKey)
    (status : ClauseCandidatesStatus τ) (identity : Option EngineLearningIdentity) (now : Nat) :
    ClauseConversion τ × Bool :=
  match status with
  | .ready candidates =>
    match m.issued.lookup key.requestId with
    | none => (m, false)
    | some issued =>
      if issued.conversion.isSome then (m.endRequest key, false)
      else if issued.request.key ≠ key || m.identity ≠ key.identity || m.baseline ≠ key.baseline
          || m.revision ≠ key.conversionRevision then (m, false)
      else if issued.deadline ≤ now || !(issued.request.validateCandidates candidates).isOk then
        (m.endRequest key, false)
      else
        match identity with
        | none => (m.endRequest key, false)
        | some identity =>
          if !m.continuesLearning identity then (m.endRequest key, false)
          else if m.learningIdentity ≠ some identity then
            let loading := m.window.loadingKey = some key
            let fresh := { m.invalidateLearning with learningIdentity := some identity }
            let fresh := { fresh with issued := fresh.issued.insert key.requestId issued }
            let fresh := if loading then { fresh with window := .loading key } else fresh
            fresh.acceptCandidates key status now
          else m.acceptCandidates key status now
  | _ => m.acceptCandidates key status now

def requestDeadline (m : ClauseConversion τ) (key : ClauseRequestKey) : Option Nat :=
  match m.boundaryRequest.filter fun pending => pending.request.key = key with
  | some pending => some pending.deadline
  | none =>
    ((m.issued.lookup key.requestId).filter fun issued => issued.request.key = key).map
      IssuedCandidates.deadline

def expire (m : ClauseConversion τ) (now : Nat) : ClauseConversion τ :=
  let m := if m.boundaryRequest.any fun pending => pending.deadline ≤ now then m.closeWindow else m
  let expired := (m.issued.values.filter fun issued => issued.deadline ≤ now).map
    fun issued => issued.request.key
  expired.foldl endRequest m

/-- The page of nine candidates that shows the selection, and its place on the page. -/
def page (m : ClauseConversion τ) : Option (List (ClauseCandidate τ) × Nat) :=
  match m.window with
  | .ready _ candidates selected =>
    let start := selected / 9 * 9
    some ((candidates.drop start).take 9, selected - start)
  | _ => none

end ClauseConversion

end Nospacekey
