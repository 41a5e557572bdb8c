import Nospacekey.Engine.ClauseProtocol
import Nospacekey.Ipc.ClauseLaws

/-! The engine's checks and the client's are the same predicates, down to the error. -/

namespace Nospacekey

variable {τ : Type} [EngineToken τ]

namespace ClauseCoordinates

/-- Both sides fold katakana in the same way. -/
@[simp] theorem normalize_eq (input : Text) : normalize input = normalizeReading input := rfl

/-- Both sides cut the same slices. -/
@[simp] theorem slice_eq (reading : Text) (start stop : Nat) :
    slice reading start stop = readingSlice reading start stop := by
  unfold slice readingSlice
  by_cases ordered : start ≤ stop
  · by_cases within : stop ≤ reading.length
    · rw [if_pos ⟨ordered, within⟩, if_neg (Nat.not_lt.mpr ordered), if_neg (Nat.not_lt.mpr within)]
    · rw [if_neg (fun both => within both.2), if_neg (Nat.not_lt.mpr ordered), if_pos (Nat.lt_of_not_le within)]
  · rw [if_neg (fun both => ordered both.1), if_pos (Nat.lt_of_not_le ordered)]

/-- A scalar is known by its value. -/
theorem combiningMark_iff (scalar : Char) :
    combiningMark scalar = true ↔ scalar.toNat = 0x3099 ∨ scalar.toNat = 0x309a := by
  have known (other : Char) : scalar = other ↔ scalar.toNat = other.toNat :=
    ⟨congrArg Char.toNat, fun same => Char.toNat_inj.mp same⟩
  simp only [combiningMark, Bool.or_eq_true, decide_eq_true_eq, known]
  rfl

/-- The engine's pass over the scalars collects the inner boundaries. -/
theorem foldl_boundaries (text : Text) (index : Nat) (result : List Nat) :
    (text.zipIdx index).foldl (fun result (scalar, offset) =>
      if scalar.toNat ≠ 0x3099 ∧ scalar.toNat ≠ 0x309a then result ++ [offset] else result) result =
      result ++ innerBoundaries index text := by
  induction text generalizing index result with
  | nil => simp [innerBoundaries]
  | cons scalar rest ih =>
    rw [List.zipIdx_cons, List.foldl_cons, ih]
    have turn : innerBoundaries index (scalar :: rest) =
      if combiningMark scalar then innerBoundaries (index + 1) rest
      else index :: innerBoundaries (index + 1) rest := rfl
    rw [turn]
    dsimp only
    by_cases mark : combiningMark scalar = true
    · have either := (combiningMark_iff scalar).mp mark
      rw [if_neg (fun both => either.elim both.1 both.2), if_pos mark]
    · have neither := not_or.mp (mt (combiningMark_iff scalar).mpr mark)
      rw [if_pos neither, if_neg mark, List.append_assoc, List.singleton_append]

/-- Both sides list the same boundaries. -/
@[simp] theorem legalBoundaries_eq (reading : Text) :
    legalBoundaries reading = Nospacekey.legalBoundaries reading := by
  unfold legalBoundaries Nospacekey.legalBoundaries
  cases u32TryFrom reading.length with
  | none => rfl
  | some count =>
    have scalars : (reading.zipIdx).drop 1 = reading.tail.zipIdx 1 := by cases reading <;> rfl
    rw [scalars, foldl_boundaries]
    cases count <;> simp

/-- On a list of boundaries, the client's binary search is membership. -/
theorem boundaryFound_eq {reading : Text} {boundaries : List Nat}
    (built : Nospacekey.legalBoundaries reading = .ok boundaries) (position : Nat) :
    boundaryFound boundaries position = decide (position ∈ boundaries) := by
  have sorted := legalBoundaries_sorted built
  rw [Bool.eq_iff_iff, decide_eq_true_eq, boundaryFound, BinarySearch.binarySearch_isSome_iff sorted]

/-- The client refuses a range where the engine does not accept it. -/
theorem misplaced_iff {start cursor stop : Nat} {found : Bool} :
    (decide (start ≠ cursor) || decide (stop ≤ cursor) || !found) = true ↔
      ¬(start = cursor ∧ cursor < stop ∧ found = true) := by
  cases found <;> simp only [Bool.or_eq_true, decide_eq_true_eq, Bool.not_true, Bool.not_false] <;> grind

/-- The engine's clause loop and the client's end alike. -/
theorem foldlM_validateClause {reading : Text} {boundaries : List Nat}
    (built : Nospacekey.legalBoundaries reading = .ok boundaries) (stop : Nat) (clauses : List (WireClause τ)) :
    ∀ (cursor : Nat) (ids : Finset Nat) (seen : List Nat) (surface : Text), (∀ id, id ∈ ids ↔ id ∈ seen) →
      (clauses.foldlM (validateClause reading boundaries.toFinset stop) (cursor, ids, surface)).map
          (fun state => (state.1, state.2.2)) =
        validateClausesFrom reading boundaries stop cursor seen surface clauses := by
  -- The cursor, the ids and the surface go from one clause to the next.
  induction clauses with
  | nil => exact fun cursor ids seen surface _ => rfl
  | cons clause rest ih =>
    intro cursor ids seen surface same
    have continued := ih clause.readingEnd (insert clause.id ids) (clause.id :: seen)
      (surface ++ clause.surface) (fun id => by rw [Finset.mem_insert, List.mem_cons, same])
    have member : clause.readingEnd ∈ boundaries.toFinset ↔ boundaryFound boundaries clause.readingEnd = true := by
      rw [List.mem_toFinset, boundaryFound_eq built, decide_eq_true_eq]
    rw [List.foldlM_cons, validateClause, validateClausesFrom]
    simp only [same, member, slice_eq]
    by_cases duplicate : clause.id ∈ seen
    · rw [if_pos duplicate, if_pos duplicate]
      rfl
    rw [if_neg duplicate, if_neg duplicate]
    have refused : (decide (clause.readingStart ≠ cursor) || decide (clause.readingEnd ≤ cursor) ||
        decide (stop < clause.readingEnd) || !boundaryFound boundaries clause.readingEnd) = true ↔
        ¬(clause.readingStart = cursor ∧ cursor < clause.readingEnd ∧ clause.readingEnd ≤ stop ∧
          boundaryFound boundaries clause.readingEnd = true) := by
      cases boundaryFound boundaries clause.readingEnd <;>
        simp only [Bool.or_eq_true, decide_eq_true_eq, Bool.not_true, Bool.not_false] <;> grind
    by_cases placed : clause.readingStart = cursor ∧ cursor < clause.readingEnd ∧ clause.readingEnd ≤ stop ∧
        boundaryFound boundaries clause.readingEnd = true
    · rw [if_neg (not_not.mpr placed), if_neg (mt refused.mp (not_not.mpr placed))]
      cases clause.state with
      | reading =>
        dsimp only
        by_cases tokened : clause.candidateToken.isSome = true
        · rw [if_pos tokened, if_pos tokened]
          rfl
        rw [if_neg tokened, if_neg tokened]
        by_cases differs : readingSlice reading cursor clause.readingEnd ≠ some clause.surface
        · rw [if_pos differs, if_pos differs]
          rfl
        · rw [if_neg differs, if_neg differs]
          exact continued
      | converted =>
        dsimp only
        cases clause.candidateToken with
        | none => rfl
        | some token =>
          rw [Option.all_some]
          dsimp only
          by_cases blank : EngineToken.isEmpty token = true
          · rw [if_pos blank, if_pos blank]
            rfl
          rw [if_neg blank, if_neg blank]
          by_cases bare : clause.surface.isEmpty = true
          · rw [if_pos bare, if_pos bare]
            rfl
          · rw [if_neg bare, if_neg bare]
            exact continued
    · rw [if_pos placed, if_pos (refused.mpr placed)]
      rfl

/-- Both sides accept the same clauses, and refuse others with the same error. -/
theorem validate_eq (reading : Text) (clauses : List (WireClause τ)) (start stop : Nat) (text : Text) :
    validate reading clauses start stop text = validateClauses reading clauses start stop text := by
  unfold validate validateClauses
  rw [normalize_eq, legalBoundaries_eq]
  by_cases spelled : normalizeReading reading ≠ reading
  · rw [if_pos spelled, if_pos spelled]
  rw [if_neg spelled, if_neg spelled]
  cases built : Nospacekey.legalBoundaries reading with
  | error error => rfl
  | ok boundaries =>
    dsimp only [bind, Except.bind]
    have found (position : Nat) : position ∈ boundaries.toFinset ↔ boundaryFound boundaries position = true := by
      rw [List.mem_toFinset, boundaryFound_eq built, decide_eq_true_eq]
    have refused : (decide (stop < start) || !boundaryFound boundaries start || !boundaryFound boundaries stop) = true ↔
        ¬(start ≤ stop ∧ start ∈ boundaries.toFinset ∧ stop ∈ boundaries.toFinset) := by
      rw [found, found]
      cases boundaryFound boundaries start <;> cases boundaryFound boundaries stop <;> simp
    by_cases within : start ≤ stop ∧ start ∈ boundaries.toFinset ∧ stop ∈ boundaries.toFinset
    · rw [if_neg (not_not.mpr within), if_neg (mt refused.mp (not_not.mpr within))]
      have loop := foldlM_validateClause built stop clauses start ∅ [] [] (by simp)
      rw [← loop]
      cases clauses.foldlM (validateClause reading boundaries.toFinset stop) (start, ∅, []) <;> rfl
    · rw [if_pos within, if_pos (refused.mpr within)]

/-- The engine's loop over the preceding surfaces and the client's end alike. -/
theorem foldlM_validatePrecedingItem {reading : Text} {boundaries : List Nat}
    (built : Nospacekey.legalBoundaries reading = .ok boundaries) (preceding : List PrecedingSurface) :
    ∀ (cursor : Nat) (ids : Finset Nat) (seen : List Nat), (∀ id, id ∈ ids ↔ id ∈ seen) →
      (preceding.foldlM (validatePrecedingItem boundaries.toFinset) (cursor, ids)).map Prod.fst =
        validatePrecedingFrom boundaries cursor seen preceding := by
  induction preceding with
  | nil => exact fun cursor ids seen _ => rfl
  | cons item rest ih =>
    intro cursor ids seen same
    have continued := ih item.readingEnd (insert item.clauseId ids) (item.clauseId :: seen)
      (fun id => by rw [Finset.mem_insert, List.mem_cons, same])
    have member : item.readingEnd ∈ boundaries.toFinset ↔ boundaryFound boundaries item.readingEnd = true := by
      rw [List.mem_toFinset, boundaryFound_eq built, decide_eq_true_eq]
    rw [List.foldlM_cons, validatePrecedingItem, validatePrecedingFrom]
    simp only [same, member, misplaced_iff]
    by_cases duplicate : item.clauseId ∈ seen
    · rw [if_pos duplicate, if_pos duplicate]
      rfl
    rw [if_neg duplicate, if_neg duplicate]
    split
    · rfl
    split
    · rfl
    · exact continued

/-- Both sides accept the same preceding surfaces, and refuse others with the same error. -/
theorem validatePreceding_eq (reading : Text) (preceding : List PrecedingSurface) (target : Nat) :
    validatePreceding reading preceding target = Nospacekey.validatePreceding reading preceding target := by
  unfold validatePreceding Nospacekey.validatePreceding
  rw [normalize_eq, legalBoundaries_eq]
  by_cases spelled : normalizeReading reading ≠ reading
  · rw [if_pos spelled, if_pos spelled]
  rw [if_neg spelled, if_neg spelled]
  cases built : Nospacekey.legalBoundaries reading with
  | error error => rfl
  | ok boundaries =>
    dsimp only [bind, Except.bind]
    rw [← foldlM_validatePrecedingItem built preceding 0 ∅ [] (by simp)]
    cases preceding.foldlM (validatePrecedingItem boundaries.toFinset) (0, ∅) with
    | error error => rfl
    | ok state =>
      dsimp only [Except.map]
      simp only [List.mem_toFinset, boundaryFound_eq built]
      by_cases reached : state.1 = target <;> by_cases legal : target ∈ boundaries <;> simp [reached, legal]

end ClauseCoordinates

namespace ClauseProtocol

/-- A reading without boundaries is out of range. -/
theorem range_of_legalBoundaries {reading : Text} {error : ClauseValidationError}
    (missing : legalBoundaries reading = .error error) : error = .range := by
  unfold legalBoundaries at missing
  split at missing
  · exact (Except.error.inj missing).symm
  · cases missing

/-- Both sides accept the same candidate requests. -/
theorem ClauseCandidatesRequest.validate_eq (request : ClauseCandidatesRequest) :
    request.validate = request.wire.validate := by
  unfold validate Nospacekey.ClauseCandidatesRequest.validate
  rw [ClauseCoordinates.validatePreceding_eq, ClauseCoordinates.legalBoundaries_eq]
  dsimp only [wire]
  cases validatePreceding request.reading request.precedingSurfaces request.readingStart with
  | error error => rfl
  | ok =>
    dsimp only [bind, Except.bind]
    cases built : legalBoundaries request.reading with
    | error error =>
      cases range_of_legalBoundaries built
      dsimp only
      exact ite_self _
    | ok boundaries =>
      dsimp only
      -- All three conditions lead to the same error.
      have refused : (decide (request.readingEnd ≤ request.readingStart) || !boundaries.contains request.readingEnd ||
          request.precedingSurfaces.any fun preceding => preceding.clauseId = request.key.clauseId) = true ↔
          ¬(request.readingStart < request.readingEnd ∧ request.readingEnd ∈ boundaries ∧
            ¬(request.precedingSurfaces.any fun preceding => preceding.clauseId = request.key.clauseId) = true) := by
        simp only [Bool.or_eq_true, decide_eq_true_eq, Bool.not_eq_true', List.contains_eq_mem, decide_eq_false_iff_not]
        grind
      by_cases ordered : request.readingStart < request.readingEnd
      · rw [if_pos ordered]
        by_cases legal : request.readingEnd ∈ boundaries ∧
            ¬(request.precedingSurfaces.any fun preceding => preceding.clauseId = request.key.clauseId) = true
        · rw [if_pos legal]
          exact (if_neg (mt refused.mp (not_not.mpr ⟨ordered, legal⟩))).symm
        · rw [if_neg legal]
          exact (if_pos (refused.mpr fun both => legal both.2)).symm
      · rw [if_neg ordered]
        exact (if_pos (refused.mpr fun both => ordered both.1)).symm

/-- Both sides accept the same candidates one by one. -/
theorem ClauseCandidatesRequest.forM_validateCandidate (request : ClauseCandidatesRequest)
    (boundaries : List Nat) (candidates : List (ClauseCandidate τ)) :
    candidates.forM (request.validateCandidate boundaries.toFinset) =
      request.wire.validateCandidatesFrom boundaries candidates := by
  induction candidates with
  | nil => rfl
  | cons candidate rest ih =>
    have refused : (decide (candidate.readingStart ≠ request.wire.readingStart) ||
        decide (candidate.readingEnd ≤ request.wire.readingStart) ||
        decide (request.wire.readingEnd < candidate.readingEnd) ||
        (!request.wire.includePrefixCandidates && decide (candidate.readingEnd ≠ request.wire.readingEnd)) ||
        !boundaries.contains candidate.readingEnd) = true ↔
        ¬(candidate.readingStart = request.readingStart ∧ request.readingStart < candidate.readingEnd ∧
          candidate.readingEnd ≤ request.readingEnd ∧ candidate.readingEnd ∈ boundaries.toFinset ∧
          (request.includePrefixCandidates = some true ∨ candidate.readingEnd = request.readingEnd)) := by
      -- A missing option counts as one that is switched off.
      have option : request.wire.includePrefixCandidates = true ↔
          request.includePrefixCandidates = some true := by
        unfold wire
        cases request.includePrefixCandidates <;> simp
      have start : request.wire.readingStart = request.readingStart := rfl
      have stop : request.wire.readingEnd = request.readingEnd := rfl
      rw [← option, List.mem_toFinset, start, stop]
      simp only [Bool.or_eq_true, decide_eq_true_eq, Bool.and_eq_true, Bool.not_eq_true', List.contains_eq_mem,
        decide_eq_false_iff_not]
      grind
    show (request.validateCandidate boundaries.toFinset candidate >>= fun _ =>
      rest.forM (request.validateCandidate boundaries.toFinset)) = _
    rw [validateCandidate, Nospacekey.ClauseCandidatesRequest.validateCandidatesFrom]
    simp only [refused]
    split
    · rfl
    split
    · rfl
    split
    · rfl
    · exact ih

/-- Both sides accept the same candidate replies. -/
theorem ClauseCandidatesRequest.validateCandidates_eq (request : ClauseCandidatesRequest)
    (candidates : List (ClauseCandidate τ)) :
    request.validateCandidates candidates = request.wire.validateCandidates candidates := by
  unfold validateCandidates Nospacekey.ClauseCandidatesRequest.validateCandidates
  rw [request.validate_eq, ClauseCoordinates.legalBoundaries_eq]
  cases request.wire.validate with
  | error error => rfl
  | ok =>
    dsimp only [bind, Except.bind]
    split
    · rfl
    · dsimp only [wire]
      cases legalBoundaries request.reading with
      | error error => rfl
      | ok boundaries => exact request.forM_validateCandidate boundaries candidates

/-- The engine's loop over the requested ranges and the client's end alike. -/
theorem foldlM_validateRange (boundaries : List Nat) (ranges : List ClauseRange) :
    ∀ (cursor : Nat) (ids : Finset Nat) (seen : List Nat), (∀ id, id ∈ ids ↔ id ∈ seen) →
      (ranges.foldlM (validateRange boundaries.toFinset) (cursor, ids)).map (fun _ => ()) =
        validateRangesFrom boundaries cursor seen ranges := by
  induction ranges with
  | nil => exact fun cursor ids seen _ => rfl
  | cons range rest ih =>
    intro cursor ids seen same
    have continued := ih range.readingEnd (insert range.id ids) (range.id :: seen)
      (fun id => by rw [Finset.mem_insert, List.mem_cons, same])
    have member : range.readingEnd ∈ boundaries.toFinset ↔ boundaries.contains range.readingEnd = true := by
      rw [List.mem_toFinset, List.contains_iff_mem]
    rw [List.foldlM_cons, validateRange, validateRangesFrom]
    simp only [same, member, ClauseCoordinates.misplaced_iff]
    split
    · rfl
    split
    · rfl
    · exact continued

/-- Both sides accept the same conversion requests. -/
theorem ConvertClausesRequest.validate_eq (request : ConvertClausesRequest) :
    ConvertClausesRequest.validate request = request.validate := by
  unfold validate Nospacekey.ConvertClausesRequest.validate
  cases ranges : request.clauses with
  | nil => rfl
  | cons first rest =>
    dsimp only [List.head?_cons]
    rw [ClauseCoordinates.validatePreceding_eq, ClauseCoordinates.legalBoundaries_eq]
    cases validatePreceding request.reading request.precedingSurfaces first.readingStart with
    | error error => rfl
    | ok =>
      dsimp only [bind, Except.bind]
      split
      · rfl
      cases legalBoundaries request.reading with
      | error error => rfl
      | ok boundaries =>
        dsimp only
        rw [← foldlM_validateRange boundaries (first :: rest) first.readingStart
          (request.precedingSurfaces.map PrecedingSurface.clauseId).toFinset _ (fun id => List.mem_toFinset)]
        cases (first :: rest).foldlM (validateRange boundaries.toFinset) _ <;> rfl

omit [EngineToken τ] in
/-- A clause answers a range when all three fields agree. -/
theorem sameRange (range : ClauseRange) (clause : WireClause τ) :
    (decide (range.id = clause.id) && decide (range.readingStart = clause.readingStart) &&
      decide (range.readingEnd = clause.readingEnd)) = decide (range = clause.range) := by
  obtain ⟨id, start, stop⟩ := range
  simp [WireClause.range, Bool.and_assoc]

/-- Both sides accept the same conversion replies. -/
theorem ConvertClausesRequest.validateResult_eq (request : ConvertClausesRequest) (result : List (WireClause τ)) :
    ConvertClausesRequest.validateResult request result = request.validateResult result := by
  unfold validateResult Nospacekey.ConvertClausesRequest.validateResult
  rw [ConvertClausesRequest.validate_eq]
  cases request.validate with
  | error error => rfl
  | ok =>
    dsimp only [bind, Except.bind]
    simp only [sameRange, List.flatMap_def]
    generalize (request.clauses.zip result).all (fun pair => decide (pair.1 = pair.2.range)) = aligned
    by_cases length : request.clauses.length = result.length <;> cases aligned <;>
      simp [length, ClauseCoordinates.validate_eq]

/-- The engine's loop over a receipt's intervals and the client's are the same. -/
theorem foldlM_validateInterval (reading : Text) (boundaries : List Nat)
    (tokenMatches : τ → CommitInterval τ → Bool) (intervals : List (CommitInterval τ)) :
    ∀ (cursor : Nat) (surface : Text),
      intervals.foldlM (validateInterval reading boundaries tokenMatches) (cursor, surface) =
        validateIntervalsFrom reading boundaries tokenMatches cursor surface intervals := by
  induction intervals with
  | nil => exact fun cursor surface => rfl
  | cons interval rest ih =>
    intro cursor surface
    have continued := ih interval.readingEnd (surface ++ interval.surface)
    have member : interval.readingEnd ∈ boundaries ↔ boundaries.contains interval.readingEnd = true :=
      List.contains_iff_mem.symm
    rw [List.foldlM_cons, validateInterval, validateIntervalsFrom]
    simp only [member, ClauseCoordinates.misplaced_iff, ClauseCoordinates.slice_eq]
    split
    · rfl
    split
    · rfl
    cases interval.learning with
    | candidate token explicit =>
      dsimp only
      cases EngineToken.isEmpty token <;> cases tokenMatches token interval <;> first | rfl | exact continued
    | none reason =>
      cases reason with
      | reading =>
        dsimp only
        by_cases sliced : readingSlice reading cursor interval.readingEnd = some interval.surface
        · rw [if_pos sliced, if_neg (not_not.mpr sliced)]
          exact continued
        · rw [if_neg sliced, if_pos sliced]
          rfl
      | invalidated => exact continued
      | notLearningTarget => exact continued

/-- Both sides accept the same receipts. -/
theorem CommitReceipt.validate_eq (receipt : CommitReceipt τ) (tokenMatches : τ → CommitInterval τ → Bool) :
    CommitReceipt.validate receipt tokenMatches = receipt.validate tokenMatches := by
  unfold validate Nospacekey.CommitReceipt.validate
  rw [ClauseCoordinates.normalize_eq, ClauseCoordinates.legalBoundaries_eq]
  by_cases spelled : normalizeReading receipt.reading ≠ receipt.reading
  · rw [if_pos spelled, if_pos spelled]
  rw [if_neg spelled, if_neg spelled]
  cases legalBoundaries receipt.reading with
  | error error => rfl
  | ok boundaries =>
    dsimp only [bind, Except.bind]
    rw [foldlM_validateInterval]
    cases validateIntervalsFrom receipt.reading boundaries tokenMatches 0 [] receipt.intervals with
    | error error => rfl
    | ok state => simp only [ne_comm]

/-- The checks of the engine are those of the client, and what they accept. -/
structure SamePredicates (τ : Type) [EngineToken τ] : Prop where
  clauses : ∀ (reading : Text) (clauses : List (WireClause τ)) (start stop : Nat) (text : Text),
    ClauseCoordinates.validate reading clauses start stop text = validateClauses reading clauses start stop text
  preceding : ∀ (reading : Text) (preceding : List PrecedingSurface) (target : Nat),
    ClauseCoordinates.validatePreceding reading preceding target = validatePreceding reading preceding target
  candidatesRequest : ∀ request : ClauseCandidatesRequest, request.validate = request.wire.validate
  candidates : ∀ (request : ClauseCandidatesRequest) (candidates : List (ClauseCandidate τ)),
    request.validateCandidates candidates = request.wire.validateCandidates candidates
  convertRequest : ∀ request : Nospacekey.ConvertClausesRequest,
    ConvertClausesRequest.validate request = request.validate
  result : ∀ (request : Nospacekey.ConvertClausesRequest) (result : List (WireClause τ)),
    ConvertClausesRequest.validateResult request result = request.validateResult result
  receipt : ∀ (receipt : Nospacekey.CommitReceipt τ) (tokenMatches : τ → CommitInterval τ → Bool),
    CommitReceipt.validate receipt tokenMatches = receipt.validate tokenMatches
  /-- A reading that is too long for the wire has no legal boundaries. -/
  accepted : ∀ (reading : Text) (clauses : List (WireClause τ)) (start stop : Nat) (text : Text),
    validateClauses reading clauses start stop text = .ok () ↔
      (∀ scalar ∈ reading, ¬(0x30a1 ≤ scalar.toNat ∧ scalar.toNat ≤ 0x30f6)) ∧ start ≤ stop ∧
        (reading.length < 2 ^ 32 ∧ LegalBoundary reading start ∧ LegalBoundary reading stop) ∧
        (clauses.map WireClause.id).Nodup ∧ Tiling.Tiles start (clauses.map WireClause.span) stop ∧
        (∀ clause ∈ clauses, clause.Valid reading stop) ∧ (clauses.map WireClause.surface).flatten = text

/-- For every payload, the engine and the client come to the same verdict. -/
theorem validators_samePredicates : SamePredicates τ where
  clauses := ClauseCoordinates.validate_eq
  preceding := ClauseCoordinates.validatePreceding_eq
  candidatesRequest := ClauseCandidatesRequest.validate_eq
  candidates := ClauseCandidatesRequest.validateCandidates_eq
  convertRequest := ConvertClausesRequest.validate_eq
  result := ConvertClausesRequest.validateResult_eq
  receipt := CommitReceipt.validate_eq
  accepted := by
    intro reading clauses start stop text
    rw [validateClauses_ok_iff, normalizeReading_eq_iff, List.flatMap_def]
    tauto

end ClauseProtocol

end Nospacekey
