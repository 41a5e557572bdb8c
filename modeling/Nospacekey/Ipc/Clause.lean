import Nospacekey.Library.BinarySearch
import Mathlib.Algebra.Ring.Nat

/-! Shared reading coordinates and immutable clause payloads.

Reading positions are scalar offsets and clause ids are counters, both natural numbers here. The
source keeps them in 32 and 64 bits, so the bounds appear where it checks them. -/

namespace Nospacekey

/-- A string as the sequence of its Unicode scalars. -/
abbrev Text := List Char

/-- The engine's candidate tokens are opaque to the client, which only tells the empty one apart. -/
class EngineToken (τ : Type) where
  /-- Whether the token is the empty string. -/
  isEmpty : τ → Bool
  /-- The empty string, which marks an entry made locally. -/
  empty : τ
  /-- The empty token is recognised as such. -/
  isEmpty_empty : isEmpty empty = true

attribute [simp] EngineToken.isEmpty_empty

instance : EngineToken String where
  isEmpty := String.isEmpty
  empty := ""
  isEmpty_empty := rfl

/-- Counts of 32 bits, as a checked conversion leaves them. -/
def u32TryFrom (value : Nat) : Option Nat := if value < 2 ^ 32 then some value else none

/-- Addition on 64-bit counters, refused on overflow. -/
def u64CheckedAdd (left right : Nat) : Option Nat :=
  if left + right < 2 ^ 64 then some (left + right) else none

/-- Durations and clock readings are nanoseconds. -/
def durationFromMillis (millis : Nat) : Nat := millis * 1000000

def durationFromSecs (secs : Nat) : Nat := secs * 1000000000

structure SnapshotIdentity where
  composition : Nat
  revision : Nat
  configurationGeneration : Nat
  connectionGeneration : Nat
  deriving DecidableEq, Repr

structure ClauseRequestKey where
  identity : SnapshotIdentity
  baseline : Nat
  conversionRevision : Nat
  clauseId : Nat
  requestId : Nat
  deriving DecidableEq, Repr

inductive ClauseState where
  | reading
  | converted
  deriving DecidableEq, Repr

structure WireClause (τ : Type) where
  id : Nat
  readingStart : Nat
  readingEnd : Nat
  state : ClauseState
  surface : Text
  candidateToken : Option τ
  deriving DecidableEq, Repr

structure SnapshotClauseData (τ : Type) where
  reading : Text
  conversionRevision : Nat
  requestId : Nat
  clauses : List (WireClause τ)
  sentenceToken : Option τ
  deriving DecidableEq, Repr

structure ClauseRange where
  id : Nat
  readingStart : Nat
  readingEnd : Nat
  deriving DecidableEq, Repr

structure PrecedingSurface where
  clauseId : Nat
  readingStart : Nat
  readingEnd : Nat
  surface : Text
  deriving DecidableEq, Repr

structure ClauseCandidate (τ : Type) where
  surface : Text
  token : τ
  readingStart : Nat
  readingEnd : Nat
  deriving DecidableEq, Repr

structure ClauseCandidatesRequest where
  key : ClauseRequestKey
  reading : Text
  readingStart : Nat
  readingEnd : Nat
  precedingSurfaces : List PrecedingSurface
  -- Opt in only when the client can preserve the unconsumed reading suffix.
  includePrefixCandidates : Bool
  deriving DecidableEq, Repr

structure ConvertClausesRequest where
  key : ClauseRequestKey
  reading : Text
  clauses : List ClauseRange
  precedingSurfaces : List PrecedingSurface
  deriving DecidableEq, Repr

inductive ClauseUnavailableReason where
  | invalidRequest
  | expired
  | disconnected
  | noCandidates
  | busy
  deriving DecidableEq, Repr

inductive ClauseCandidatesStatus (τ : Type) where
  | pending
  | ready (candidates : List (ClauseCandidate τ))
  | unavailable (reason : ClauseUnavailableReason)
  deriving DecidableEq, Repr

inductive ConvertClausesStatus (τ : Type) where
  | pending
  | ready (clauses : List (WireClause τ))
  | unavailable (reason : ClauseUnavailableReason)
  deriving DecidableEq, Repr

structure CommitId where
  clientInstance : Text
  sequence : Nat
  deriving DecidableEq, Repr

inductive NoLearningReason where
  | reading
  | invalidated
  | notLearningTarget
  deriving DecidableEq, Repr

inductive IntervalLearning (τ : Type) where
  | candidate (token : τ) (explicitlySelected : Bool)
  | none (reason : NoLearningReason)
  deriving DecidableEq, Repr

structure CommitInterval (τ : Type) where
  readingStart : Nat
  readingEnd : Nat
  surface : Text
  learning : IntervalLearning τ
  deriving DecidableEq, Repr

structure CommitReceipt (τ : Type) where
  commitId : CommitId
  engineEpoch : Text
  learningGeneration : Nat
  reading : Text
  text : Text
  intervals : List (CommitInterval τ)
  sentenceToken : Option τ
  deriving DecidableEq, Repr

inductive ReceiptRejection where
  | conflict
  | expired
  | staleLearningGeneration
  | invalidToken
  | invalidIntervals
  | capacity
  deriving DecidableEq, Repr

inductive ReceiptStatus where
  | applied
  | alreadyProcessed
  | rejected (reason : ReceiptRejection)
  deriving DecidableEq, Repr

inductive ClauseValidationError where
  | reading
  | range
  | duplicateId
  | surface
  | token
  deriving DecidableEq, Repr

/-- The engine process and learning generation that tokens were issued under. -/
structure EngineLearningIdentity where
  engineEpoch : Text
  learningGeneration : Nat
  deriving DecidableEq, Repr

/-- Katakana with a hiragana counterpart is folded onto it, and nothing else changes. -/
def normalizeReading (input : Text) : Text :=
  input.map fun c =>
    if 0x30a1 ≤ c.toNat ∧ c.toNat ≤ 0x30f6 then Char.ofNat (c.toNat - 0x60) else c

/-- The two combining sound marks, which no boundary may precede. -/
def combiningMark (scalar : Char) : Bool := scalar = '\u3099' || scalar = '\u309a'

/-- Offsets after the first scalar at which the following scalar is not a combining mark. -/
@[grind =] def innerBoundaries : Nat → Text → List Nat
  | _, [] => []
  | index, scalar :: rest =>
    if combiningMark scalar then innerBoundaries (index + 1) rest
    else index :: innerBoundaries (index + 1) rest

/-- Coordinates are scalar offsets, even when one grapheme contains several scalars. -/
def legalBoundaries (reading : Text) : Except ClauseValidationError (List Nat) :=
  match u32TryFrom reading.length with
  | none => .error .range
  | some len =>
    .ok (0 :: innerBoundaries 1 reading.tail ++ if len ≠ 0 then [len] else [])

/-- The scalars from one offset up to another. -/
def readingSlice (reading : Text) (start stop : Nat) : Option Text :=
  if stop < start then none
  else if reading.length < stop then none
  else some ((reading.drop start).take (stop - start))

/-- Whether a boundary list holds a position, found by binary search. -/
def boundaryFound (boundaries : List Nat) (position : Nat) : Bool :=
  (BinarySearch.binarySearch boundaries position).isSome

/-- The clause loop of a payload check, from one cursor, with the ids and surface seen so far. -/
def validateClausesFrom {τ : Type} [EngineToken τ] (reading : Text)
    (boundaries : List Nat) (stop : Nat) :
    Nat → List Nat → Text → List (WireClause τ) →
      Except ClauseValidationError (Nat × Text)
  | cursor, _, surface, [] => .ok (cursor, surface)
  | cursor, ids, surface, clause :: rest =>
    if clause.id ∈ ids then .error .duplicateId
    else if clause.readingStart ≠ cursor || clause.readingEnd ≤ cursor || stop < clause.readingEnd
        || !boundaryFound boundaries clause.readingEnd then .error .range
    else
      match clause.state with
      | .reading =>
        if clause.candidateToken.isSome then .error .token
        else if readingSlice reading cursor clause.readingEnd ≠ some clause.surface then
          .error .surface
        else
          validateClausesFrom reading boundaries stop clause.readingEnd (clause.id :: ids)
            (surface ++ clause.surface) rest
      | .converted =>
        if clause.candidateToken.all EngineToken.isEmpty then .error .token
        else if clause.surface.isEmpty then .error .surface
        else
          validateClausesFrom reading boundaries stop clause.readingEnd (clause.id :: ids)
            (surface ++ clause.surface) rest

/-- Full snapshots use the whole reading, while interval conversion uses its exact requested range. -/
def validateClauses {τ : Type} [EngineToken τ] (reading : Text) (clauses : List (WireClause τ))
    (start stop : Nat) (text : Text) : Except ClauseValidationError Unit := do
  if normalizeReading reading ≠ reading then .error .reading
  else
    let boundaries ← legalBoundaries reading
    if stop < start || !boundaryFound boundaries start || !boundaryFound boundaries stop then
      .error .range
    else
      let (cursor, surface) ← validateClausesFrom reading boundaries stop start [] [] clauses
      if cursor ≠ stop then .error .range
      else if surface ≠ text then .error .surface
      else .ok ()

/-- The preceding-surface loop, from one cursor and with the ids seen so far. -/
def validatePrecedingFrom (boundaries : List Nat) :
    Nat → List Nat → List PrecedingSurface →
      Except ClauseValidationError Nat
  | cursor, _, [] => .ok cursor
  | cursor, ids, item :: rest =>
    if item.clauseId ∈ ids then .error .duplicateId
    else if item.readingStart ≠ cursor || item.readingEnd ≤ cursor
        || !boundaryFound boundaries item.readingEnd then .error .range
    else if item.surface.isEmpty then .error .surface
    else validatePrecedingFrom boundaries item.readingEnd (item.clauseId :: ids) rest

/-- The surfaces before a target must lead up to it from the start of the reading. -/
def validatePreceding (reading : Text) (preceding : List PrecedingSurface)
    (target : Nat) : Except ClauseValidationError Unit := do
  if normalizeReading reading ≠ reading then .error .reading
  else
    let boundaries ← legalBoundaries reading
    let cursor ← validatePrecedingFrom boundaries 0 [] preceding
    if cursor ≠ target || !boundaryFound boundaries target then .error .range
    else .ok ()

/-- A snapshot covers its whole reading and spells the displayed text. -/
def SnapshotClauseData.validate {τ : Type} [EngineToken τ] (data : SnapshotClauseData τ)
    (text : Text) : Except ClauseValidationError Unit :=
  match u32TryFrom data.reading.length with
  | none => .error .range
  | some stop => validateClauses data.reading data.clauses 0 stop text

/-- A candidate request names a nonempty interval and the surfaces that lead up to it. -/
def ClauseCandidatesRequest.validate (request : ClauseCandidatesRequest) :
    Except ClauseValidationError Unit := do
  validatePreceding request.reading request.precedingSurfaces request.readingStart
  let boundaries ← legalBoundaries request.reading
  if request.readingEnd ≤ request.readingStart || !boundaries.contains request.readingEnd
      || request.precedingSurfaces.any (fun p => p.clauseId = request.key.clauseId) then
    .error .range
  else .ok ()

/-- The candidate loop of a reply check. -/
def ClauseCandidatesRequest.validateCandidatesFrom {τ : Type} [EngineToken τ]
    (request : ClauseCandidatesRequest) (boundaries : List Nat) :
    List (ClauseCandidate τ) → Except ClauseValidationError Unit
  | [] => .ok ()
  | candidate :: rest =>
    if candidate.readingStart ≠ request.readingStart || candidate.readingEnd ≤ request.readingStart
        || request.readingEnd < candidate.readingEnd
        || (!request.includePrefixCandidates && candidate.readingEnd ≠ request.readingEnd)
        || !boundaries.contains candidate.readingEnd then .error .range
    else if candidate.surface.isEmpty then .error .surface
    else if EngineToken.isEmpty candidate.token then .error .token
    else validateCandidatesFrom request boundaries rest

/-- A candidate reply is nonempty and every candidate covers a legal prefix of the interval. -/
def ClauseCandidatesRequest.validateCandidates {τ : Type} [EngineToken τ]
    (request : ClauseCandidatesRequest) (candidates : List (ClauseCandidate τ)) :
    Except ClauseValidationError Unit := do
  request.validate
  if candidates.isEmpty then .error .surface
  else
    let boundaries ← legalBoundaries request.reading
    request.validateCandidatesFrom boundaries candidates

/-- The range loop of a conversion request, from one cursor and with the ids seen so far. -/
def validateRangesFrom (boundaries : List Nat) :
    Nat → List Nat → List ClauseRange → Except ClauseValidationError Unit
  | _, _, [] => .ok ()
  | cursor, ids, range :: rest =>
    if range.id ∈ ids then .error .duplicateId
    else if range.readingStart ≠ cursor || range.readingEnd ≤ cursor
        || !boundaries.contains range.readingEnd then .error .range
    else validateRangesFrom boundaries range.readingEnd (range.id :: ids) rest

/-- A conversion request names consecutive ranges starting at the clause of its key. -/
def ConvertClausesRequest.validate (request : ConvertClausesRequest) :
    Except ClauseValidationError Unit := do
  match request.clauses.head? with
  | none => .error .range
  | some first =>
    validatePreceding request.reading request.precedingSurfaces first.readingStart
    if first.id ≠ request.key.clauseId then .error .range
    else
      let boundaries ← legalBoundaries request.reading
      validateRangesFrom boundaries first.readingStart
        (request.precedingSurfaces.map PrecedingSurface.clauseId) request.clauses

/-- The range a wire clause claims. -/
def WireClause.range {τ : Type} (clause : WireClause τ) : ClauseRange where
  id := clause.id
  readingStart := clause.readingStart
  readingEnd := clause.readingEnd

/-- A conversion reply answers exactly the requested ranges with clauses that pass the payload check. -/
def ConvertClausesRequest.validateResult {τ : Type} [EngineToken τ]
    (request : ConvertClausesRequest) (clauses : List (WireClause τ)) :
    Except ClauseValidationError Unit := do
  request.validate
  if request.clauses.length ≠ clauses.length
      || !(request.clauses.zip clauses).all (fun pair => pair.1 = pair.2.range) then
    .error .range
  else
    -- A validated request has a first and a last range.
    validateClauses request.reading clauses (request.clauses.headD ⟨0, 0, 0⟩).readingStart
      (request.clauses.getLastD ⟨0, 0, 0⟩).readingEnd (clauses.flatMap WireClause.surface)

/-- The interval loop of a receipt check, from one cursor and with the surface seen so far. -/
def validateIntervalsFrom {τ : Type} [EngineToken τ] (reading : Text)
    (boundaries : List Nat) (tokenMatches : τ → CommitInterval τ → Bool) :
    Nat → Text → List (CommitInterval τ) →
      Except ClauseValidationError (Nat × Text)
  | cursor, surface, [] => .ok (cursor, surface)
  | cursor, surface, interval :: rest => do
    if interval.readingStart ≠ cursor || interval.readingEnd ≤ cursor
        || !boundaries.contains interval.readingEnd then .error .range
    else if interval.surface.isEmpty then .error .surface
    else
      match interval.learning with
      | .candidate token _ =>
        if EngineToken.isEmpty token || !tokenMatches token interval then .error .token
        else
          validateIntervalsFrom reading boundaries tokenMatches interval.readingEnd
            (surface ++ interval.surface) rest
      | .none .reading =>
        if readingSlice reading cursor interval.readingEnd ≠ some interval.surface then
          .error .surface
        else
          validateIntervalsFrom reading boundaries tokenMatches interval.readingEnd
            (surface ++ interval.surface) rest
      | .none _ =>
        validateIntervalsFrom reading boundaries tokenMatches interval.readingEnd
          (surface ++ interval.surface) rest

/-- Token material is engine-owned, and callers validate it before performing any learning. -/
def CommitReceipt.validate {τ : Type} [EngineToken τ] (receipt : CommitReceipt τ)
    (tokenMatches : τ → CommitInterval τ → Bool) : Except ClauseValidationError Unit := do
  if normalizeReading receipt.reading ≠ receipt.reading then .error .reading
  else
    let boundaries ← legalBoundaries receipt.reading
    let (cursor, surface) ←
      validateIntervalsFrom receipt.reading boundaries tokenMatches 0 [] receipt.intervals
    if boundaries.getLast? ≠ some cursor then .error .range
    else if surface ≠ receipt.text then .error .surface
    else .ok ()

end Nospacekey
