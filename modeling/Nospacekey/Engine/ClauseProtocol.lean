import Nospacekey.Ipc.Clause
import Mathlib.Data.Finset.Basic

/-! The engine's own checks of clause payloads, written with sets where the client searches lists. -/

namespace Nospacekey

namespace ClauseCoordinates

variable {τ : Type} [EngineToken τ]

def normalize (input : Text) : Text :=
  input.map fun scalar =>
    if 0x30a1 ≤ scalar.toNat ∧ scalar.toNat ≤ 0x30f6 then Char.ofNat (scalar.toNat - 0x60) else scalar

def legalBoundaries (reading : Text) : Except ClauseValidationError (List Nat) :=
  match u32TryFrom reading.length with
  | none => .error .range
  | some count =>
    let result := (reading.zipIdx.drop 1).foldl (fun result (scalar, offset) =>
      if scalar.toNat ≠ 0x3099 ∧ scalar.toNat ≠ 0x309a then result ++ [offset] else result) [0]
    .ok (if 0 < count then result ++ [count] else result)

def slice (reading : Text) (start stop : Nat) : Option Text :=
  if start ≤ stop ∧ stop ≤ reading.length then some ((reading.drop start).take (stop - start)) else none

/-- One turn of the clause loop, which carries the cursor, the ids and the surface so far. -/
def validateClause (reading : Text) (boundaries : Finset Nat) (stop : Nat) (state : Nat × Finset Nat × Text)
    (clause : WireClause τ) : Except ClauseValidationError (Nat × Finset Nat × Text) :=
  let (cursor, ids, surface) := state
  let next := (clause.readingEnd, insert clause.id ids, surface ++ clause.surface)
  if clause.id ∈ ids then .error .duplicateId
  else if ¬(clause.readingStart = cursor ∧ cursor < clause.readingEnd ∧ clause.readingEnd ≤ stop ∧
      clause.readingEnd ∈ boundaries) then .error .range
  else
    match clause.state with
    | .reading =>
      if clause.candidateToken.isSome then .error .token
      else if slice reading cursor clause.readingEnd ≠ some clause.surface then .error .surface
      else .ok next
    | .converted =>
      match clause.candidateToken with
      | none => .error .token
      | some token =>
        if EngineToken.isEmpty token then .error .token
        else if clause.surface.isEmpty then .error .surface
        else .ok next

def validate (reading : Text) (clauses : List (WireClause τ)) (start stop : Nat) (text : Text) :
    Except ClauseValidationError Unit := do
  if normalize reading ≠ reading then .error .reading
  else
    let boundaries := (← legalBoundaries reading).toFinset
    if ¬(start ≤ stop ∧ start ∈ boundaries ∧ stop ∈ boundaries) then .error .range
    else
      let (cursor, _, surface) ← clauses.foldlM (validateClause reading boundaries stop) (start, ∅, [])
      if cursor ≠ stop then .error .range
      else if surface ≠ text then .error .surface
      else .ok ()

/-- One turn of the loop over the preceding surfaces. -/
def validatePrecedingItem (boundaries : Finset Nat) (state : Nat × Finset Nat) (item : PrecedingSurface) :
    Except ClauseValidationError (Nat × Finset Nat) :=
  let (cursor, ids) := state
  if item.clauseId ∈ ids then .error .duplicateId
  else if ¬(item.readingStart = cursor ∧ cursor < item.readingEnd ∧ item.readingEnd ∈ boundaries) then
    .error .range
  else if item.surface.isEmpty then .error .surface
  else .ok (item.readingEnd, insert item.clauseId ids)

def validatePreceding (reading : Text) (preceding : List PrecedingSurface) (target : Nat) :
    Except ClauseValidationError Unit := do
  if normalize reading ≠ reading then .error .reading
  else
    let boundaries := (← legalBoundaries reading).toFinset
    let (cursor, _) ← preceding.foldlM (validatePrecedingItem boundaries) (0, ∅)
    if cursor = target ∧ target ∈ boundaries then .ok () else .error .range

end ClauseCoordinates

namespace ClauseProtocol

variable {τ : Type} [EngineToken τ]

/-- The request as the engine decodes it, where a missing option is no option. -/
structure ClauseCandidatesRequest where
  key : ClauseRequestKey
  reading : Text
  readingStart : Nat
  readingEnd : Nat
  precedingSurfaces : List PrecedingSurface
  includePrefixCandidates : Option Bool
  deriving DecidableEq, Repr

namespace ClauseCandidatesRequest

/-- The request that the client sends or would have sent. -/
def wire (request : ClauseCandidatesRequest) : Nospacekey.ClauseCandidatesRequest where
  key := request.key
  reading := request.reading
  readingStart := request.readingStart
  readingEnd := request.readingEnd
  precedingSurfaces := request.precedingSurfaces
  includePrefixCandidates := request.includePrefixCandidates.getD false

def validate (request : ClauseCandidatesRequest) : Except ClauseValidationError Unit := do
  ClauseCoordinates.validatePreceding request.reading request.precedingSurfaces request.readingStart
  if request.readingStart < request.readingEnd then
    if request.readingEnd ∈ (← ClauseCoordinates.legalBoundaries request.reading) ∧
        ¬request.precedingSurfaces.any (fun preceding => preceding.clauseId = request.key.clauseId) then .ok ()
    else .error .range
  else .error .range

/-- One turn of the loop over the candidates. -/
def validateCandidate (request : ClauseCandidatesRequest) (boundaries : Finset Nat)
    (candidate : ClauseCandidate τ) : Except ClauseValidationError Unit :=
  if ¬(candidate.readingStart = request.readingStart ∧ request.readingStart < candidate.readingEnd ∧
      candidate.readingEnd ≤ request.readingEnd ∧ candidate.readingEnd ∈ boundaries ∧
      (request.includePrefixCandidates = some true ∨ candidate.readingEnd = request.readingEnd)) then
    .error .range
  else if candidate.surface.isEmpty then .error .surface
  else if EngineToken.isEmpty candidate.token then .error .token
  else .ok ()

def validateCandidates (request : ClauseCandidatesRequest) (candidates : List (ClauseCandidate τ)) :
    Except ClauseValidationError Unit := do
  request.validate
  if candidates.isEmpty then .error .surface
  else
    let boundaries := (← ClauseCoordinates.legalBoundaries request.reading).toFinset
    candidates.forM (request.validateCandidate boundaries)

end ClauseCandidatesRequest

/-- One turn of the loop over the requested ranges. -/
def validateRange (boundaries : Finset Nat) (state : Nat × Finset Nat) (range : ClauseRange) :
    Except ClauseValidationError (Nat × Finset Nat) :=
  let (cursor, ids) := state
  if range.id ∈ ids then .error .duplicateId
  else if ¬(range.readingStart = cursor ∧ cursor < range.readingEnd ∧ range.readingEnd ∈ boundaries) then
    .error .range
  else .ok (range.readingEnd, insert range.id ids)

namespace ConvertClausesRequest

def validate (request : ConvertClausesRequest) : Except ClauseValidationError Unit :=
  match request.clauses with
  | [] => .error .range
  | first :: _ => do
    ClauseCoordinates.validatePreceding request.reading request.precedingSurfaces first.readingStart
    if first.id ≠ request.key.clauseId then .error .range
    else
      let boundaries := (← ClauseCoordinates.legalBoundaries request.reading).toFinset
      let ids := (request.precedingSurfaces.map PrecedingSurface.clauseId).toFinset
      let _ ← request.clauses.foldlM (validateRange boundaries) (first.readingStart, ids)
      .ok ()

def validateResult (request : ConvertClausesRequest) (result : List (WireClause τ)) :
    Except ClauseValidationError Unit := do
  ConvertClausesRequest.validate request
  if request.clauses.length = result.length ∧ (request.clauses.zip result).all (fun (range, clause) =>
      range.id = clause.id && range.readingStart = clause.readingStart && range.readingEnd = clause.readingEnd) then
    -- The request is valid, so there is a first range and a last one.
    ClauseCoordinates.validate request.reading result (request.clauses.headD ⟨0, 0, 0⟩).readingStart
      (request.clauses.getLastD ⟨0, 0, 0⟩).readingEnd (result.map WireClause.surface).flatten
  else .error .range

end ConvertClausesRequest

/-- One turn of the loop over a receipt's intervals. -/
def validateInterval (reading : Text) (boundaries : List Nat) (tokenMatches : τ → CommitInterval τ → Bool)
    (state : Nat × Text) (interval : CommitInterval τ) : Except ClauseValidationError (Nat × Text) :=
  let (cursor, surface) := state
  let next := (interval.readingEnd, surface ++ interval.surface)
  if ¬(interval.readingStart = cursor ∧ cursor < interval.readingEnd ∧ interval.readingEnd ∈ boundaries) then
    .error .range
  else if interval.surface.isEmpty then .error .surface
  else
    match interval.learning with
    | .candidate token _ =>
      if ¬EngineToken.isEmpty token ∧ tokenMatches token interval then .ok next else .error .token
    | .none .reading =>
      if ClauseCoordinates.slice reading cursor interval.readingEnd = some interval.surface then .ok next else .error .surface
    | .none _ => .ok next

namespace CommitReceipt

def validate (receipt : CommitReceipt τ) (tokenMatches : τ → CommitInterval τ → Bool) :
    Except ClauseValidationError Unit := do
  if ClauseCoordinates.normalize receipt.reading ≠ receipt.reading then .error .reading
  else
    let boundaries ← ClauseCoordinates.legalBoundaries receipt.reading
    let (cursor, surface) ←
      receipt.intervals.foldlM (validateInterval receipt.reading boundaries tokenMatches) (0, [])
    if some cursor ≠ boundaries.getLast? then .error .range
    else if surface ≠ receipt.text then .error .surface
    else .ok ()

end CommitReceipt

end ClauseProtocol

end Nospacekey
