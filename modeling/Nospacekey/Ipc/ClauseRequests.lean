import Nospacekey.Ipc.ClauseLaws

/-! What a request or a receipt must say for its check to accept it. -/

namespace Nospacekey

open Tiling

/-- The interval that a preceding surface covers. -/
def PrecedingSurface.span (item : PrecedingSurface) : Nat × Nat := (item.readingStart, item.readingEnd)

/-- The interval that a range covers. -/
def ClauseRange.span (range : ClauseRange) : Nat × Nat := (range.readingStart, range.readingEnd)

/-- The interval that a receipt's clause covers. -/
def CommitInterval.span {τ : Type} (interval : CommitInterval τ) : Nat × Nat :=
  (interval.readingStart, interval.readingEnd)

/-- The surfaces that lead up to a position: consecutive, legal, under distinct ids and none of them empty. -/
structure LeadsUp (reading : Text) (preceding : List PrecedingSurface) (target : Nat) : Prop where
  tiles : Tiles 0 (preceding.map PrecedingSurface.span) target
  distinct : (preceding.map PrecedingSurface.clauseId).Nodup
  legal : ∀ item ∈ preceding, LegalBoundary reading item.readingEnd
  shown : ∀ item ∈ preceding, item.surface ≠ []

section Checks

variable {reading : Text} {boundaries : List Nat}

/-- The preceding-surface loop accepts consecutive legal surfaces with new, distinct ids. -/
theorem validatePrecedingFrom_ok (built : legalBoundaries reading = .ok boundaries) {cursor target : Nat}
    {ids : List Nat} {preceding : List PrecedingSurface}
    (tiles : Tiles cursor (preceding.map PrecedingSurface.span) target)
    (distinct : (preceding.map PrecedingSurface.clauseId).Nodup) (fresh : ∀ item ∈ preceding, item.clauseId ∉ ids)
    (legal : ∀ item ∈ preceding, LegalBoundary reading item.readingEnd)
    (shown : ∀ item ∈ preceding, item.surface ≠ []) :
    validatePrecedingFrom boundaries cursor ids preceding = .ok target := by
  -- Each iteration checks its surface against the cursor and then continues behind it.
  induction preceding generalizing cursor ids with
  | nil => exact congrArg Except.ok tiles
  | cons item rest ih =>
    obtain ⟨start, nonempty, tiles⟩ := tiles
    obtain ⟨absent, distinct⟩ := List.nodup_cons.mp distinct
    simp only [List.forall_mem_cons] at fresh legal shown
    have ends : boundaryFound boundaries item.readingEnd = true := (boundaryFound_iff built).mpr legal.1
    have apart : ∀ other ∈ rest, other.clauseId ∉ item.clauseId :: ids := fun other member inIds => by
      rcases List.mem_cons.mp inIds with same | old
      · exact absent (same ▸ List.mem_map_of_mem member)
      · exact fresh.2 other member old
    simp only [PrecedingSurface.span] at start nonempty
    have ordered : ¬item.readingEnd ≤ cursor := Nat.not_le.mpr (start ▸ nonempty)
    unfold validatePrecedingFrom
    rw [if_neg fresh.1, if_neg (by simp [start, ordered, ends]), if_neg (by simpa using shown.1)]
    exact ih tiles distinct apart legal.2 shown.2

/-- The preceding-surface check accepts what leads up to its target. -/
theorem validatePreceding_ok (normal : normalizeReading reading = reading) (fits : reading.length < 2 ^ 32)
    {preceding : List PrecedingSurface} {target : Nat} (leads : LeadsUp reading preceding target)
    (legal : LegalBoundary reading target) : validatePreceding reading preceding target = .ok () := by
  obtain ⟨boundaries, built⟩ := legalBoundaries_of_lt fits
  have reached : validatePrecedingFrom boundaries 0 [] preceding = .ok target :=
    validatePrecedingFrom_ok built leads.tiles leads.distinct (fun _ _ absurdity => by cases absurdity) leads.legal
      leads.shown
  have found : boundaryFound boundaries target = true := (boundaryFound_iff built).mpr legal
  unfold validatePreceding
  rw [if_neg (not_not.mpr normal)]
  simp [built, reached, found, bind, Except.bind]

/-- A candidate request is accepted when it names a nonempty legal interval of a clause that is not among those
before it. -/
theorem ClauseCandidatesRequest.validate_ok {request : ClauseCandidatesRequest}
    (normal : normalizeReading request.reading = request.reading) (fits : request.reading.length < 2 ^ 32)
    (leads : LeadsUp request.reading request.precedingSurfaces request.readingStart)
    (starts : LegalBoundary request.reading request.readingStart)
    (nonempty : request.readingStart < request.readingEnd) (stops : LegalBoundary request.reading request.readingEnd)
    (apart : ∀ item ∈ request.precedingSurfaces, item.clauseId ≠ request.key.clauseId) :
    request.validate = .ok () := by
  obtain ⟨boundaries, built⟩ := legalBoundaries_of_lt fits
  have preceding := validatePreceding_ok normal fits leads starts
  have found : request.readingEnd ∈ boundaries := (mem_legalBoundaries built).mpr stops
  unfold ClauseCandidatesRequest.validate
  simp only [preceding, built, bind, Except.bind]
  rw [if_neg]
  simpa [found, nonempty] using apart

/-- The range loop accepts consecutive legal ranges with new, distinct ids. -/
theorem validateRangesFrom_ok (built : legalBoundaries reading = .ok boundaries) {cursor target : Nat} {ids : List Nat}
    {ranges : List ClauseRange} (tiles : Tiles cursor (ranges.map ClauseRange.span) target)
    (distinct : (ranges.map ClauseRange.id).Nodup) (fresh : ∀ range ∈ ranges, range.id ∉ ids)
    (legal : ∀ range ∈ ranges, LegalBoundary reading range.readingEnd) :
    validateRangesFrom boundaries cursor ids ranges = .ok () := by
  induction ranges generalizing cursor ids with
  | nil => rfl
  | cons range rest ih =>
    obtain ⟨start, nonempty, tiles⟩ := tiles
    obtain ⟨absent, distinct⟩ := List.nodup_cons.mp distinct
    simp only [List.forall_mem_cons] at fresh legal
    have ends : range.readingEnd ∈ boundaries := (mem_legalBoundaries built).mpr legal.1
    have apart : ∀ other ∈ rest, other.id ∉ range.id :: ids := fun other member inIds => by
      rcases List.mem_cons.mp inIds with same | old
      · exact absent (same ▸ List.mem_map_of_mem member)
      · exact fresh.2 other member old
    simp only [ClauseRange.span] at start nonempty
    have ordered : ¬range.readingEnd ≤ cursor := Nat.not_le.mpr (start ▸ nonempty)
    unfold validateRangesFrom
    rw [if_neg fresh.1, if_neg (by simp [start, ordered, ends])]
    exact ih tiles distinct apart legal.2

/-- A conversion request is accepted when its ranges follow what leads up to them, the first under the key's id. -/
theorem ConvertClausesRequest.validate_ok {request : ConvertClausesRequest} {first : ClauseRange} {target : Nat}
    (head : request.clauses.head? = some first) (keyed : first.id = request.key.clauseId)
    (normal : normalizeReading request.reading = request.reading) (fits : request.reading.length < 2 ^ 32)
    (leads : LeadsUp request.reading request.precedingSurfaces first.readingStart)
    (starts : LegalBoundary request.reading first.readingStart)
    (tiles : Tiles first.readingStart (request.clauses.map ClauseRange.span) target)
    (distinct : (request.clauses.map ClauseRange.id).Nodup)
    (apart : ∀ range ∈ request.clauses, range.id ∉ request.precedingSurfaces.map PrecedingSurface.clauseId)
    (legal : ∀ range ∈ request.clauses, LegalBoundary request.reading range.readingEnd) :
    request.validate = .ok () := by
  obtain ⟨boundaries, built⟩ := legalBoundaries_of_lt fits
  have preceding := validatePreceding_ok normal fits leads starts
  have ranges := validateRangesFrom_ok built tiles distinct apart legal
  unfold ConvertClausesRequest.validate
  simp [head, preceding, keyed, built, ranges, bind, Except.bind]

/-- The check of a conversion request does not read its key, but for the clause's id. -/
theorem ConvertClausesRequest.validate_congr {request other : ConvertClausesRequest}
    (keyed : other.key.clauseId = request.key.clauseId) (reading : other.reading = request.reading)
    (clauses : other.clauses = request.clauses) (preceding : other.precedingSurfaces = request.precedingSurfaces) :
    other.validate = request.validate := by
  unfold ConvertClausesRequest.validate
  rw [keyed, reading, clauses, preceding]

end Checks

section Receipts

variable {τ : Type} [EngineToken τ] {reading : Text} {boundaries : List Nat}

/-- What a receipt's clause says for the check to accept it: a reading is shown as such, and a token is not empty. -/
structure CommitInterval.Valid (reading : Text) (interval : CommitInterval τ) : Prop where
  legal : LegalBoundary reading interval.readingEnd
  within : interval.readingEnd ≤ reading.length
  shown : interval.surface ≠ []
  token : ∀ token explicitlySelected, interval.learning = .candidate token explicitlySelected →
    EngineToken.isEmpty token = false
  read : interval.learning = .none .reading →
    interval.surface = (reading.drop interval.readingStart).take (interval.readingEnd - interval.readingStart)

/-- The interval loop accepts consecutive valid intervals, and spells their surfaces. -/
theorem validateIntervalsFrom_ok (built : legalBoundaries reading = .ok boundaries) {cursor target : Nat}
    {surface : Text} {intervals : List (CommitInterval τ)}
    (tiles : Tiles cursor (intervals.map CommitInterval.span) target)
    (valid : ∀ interval ∈ intervals, interval.Valid reading) :
    validateIntervalsFrom reading boundaries (fun _ _ => true) cursor surface intervals =
      .ok (target, surface ++ intervals.flatMap CommitInterval.surface) := by
  induction intervals generalizing cursor surface with
  | nil =>
    obtain rfl : cursor = target := tiles
    simp [validateIntervalsFrom]
  | cons interval rest ih =>
    obtain ⟨start, nonempty, tiles⟩ := tiles
    obtain ⟨valid, others⟩ := List.forall_mem_cons.mp valid
    have ends : interval.readingEnd ∈ boundaries := (mem_legalBoundaries built).mpr valid.legal
    simp only [CommitInterval.span] at start nonempty tiles
    have ordered : ¬interval.readingEnd ≤ cursor := Nat.not_le.mpr (start ▸ nonempty)
    have onward : validateIntervalsFrom reading boundaries (fun _ _ => true) interval.readingEnd
        (surface ++ interval.surface) rest =
          .ok (target, surface ++ (interval.surface ++ rest.flatMap CommitInterval.surface)) := by
      rw [← List.append_assoc]
      exact ih tiles others
    unfold validateIntervalsFrom
    rw [if_neg (by simp [start, ordered, ends]), if_neg (by simpa using valid.shown), List.flatMap_cons]
    cases learning : interval.learning with
    | candidate token explicitlySelected =>
      simpa [valid.token token explicitlySelected learning] using onward
    | none reason =>
      cases reason with
      | reading =>
        have read : readingSlice reading cursor interval.readingEnd = some interval.surface :=
          readingSlice_eq_some_iff.mpr
            ⟨start ▸ nonempty.le, valid.within, by rw [valid.read learning, start]⟩
        simpa [read] using onward
      | invalidated => exact onward
      | notLearningTarget => exact onward

/-- A receipt is accepted when its intervals tile the reading, are valid, and spell the text. -/
theorem CommitReceipt.validate_ok {receipt : CommitReceipt τ}
    (normal : normalizeReading receipt.reading = receipt.reading) (fits : receipt.reading.length < 2 ^ 32)
    (tiles : Tiles 0 (receipt.intervals.map CommitInterval.span) receipt.reading.length)
    (valid : ∀ interval ∈ receipt.intervals, interval.Valid receipt.reading)
    (spelled : receipt.intervals.flatMap CommitInterval.surface = receipt.text) :
    (receipt.validate fun _ _ => true) = .ok () := by
  obtain ⟨boundaries, built⟩ := legalBoundaries_of_lt fits
  have read : validateIntervalsFrom receipt.reading boundaries (fun _ _ => true) 0 [] receipt.intervals =
      .ok (receipt.reading.length, [] ++ receipt.intervals.flatMap CommitInterval.surface) :=
    validateIntervalsFrom_ok built tiles valid
  have last : boundaries.getLast? = some receipt.reading.length := by
    rw [(legalBoundaries_ok_iff.mp built).2]
    by_cases empty : receipt.reading.length = 0
    · obtain nil := List.length_eq_zero_iff.mp empty
      simp [nil, innerBoundaries]
    · rw [if_pos empty, List.getLast?_append]
      rfl
  unfold CommitReceipt.validate
  rw [if_neg (not_not.mpr normal)]
  simp [built, read, last, spelled, bind, Except.bind]

end Receipts

end Nospacekey
