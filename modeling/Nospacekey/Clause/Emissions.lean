import Nospacekey.Clause.Sendable
import Nospacekey.Clause.Choices
import Nospacekey.Outbox.Freeze

/-! Whatever the clause model emits passes the checks of the wire. -/

namespace Nospacekey

open Runs Tiling

variable {τ : Type}

namespace ClauseConversion

/-- The conversion of the reading clauses from the selected one on, before it is checked. -/
def boundaryConversion (m : ClauseConversion τ) (requestId : Nat) : Option ConvertClausesRequest :=
  if m.mode ≠ .converting || !m.window.isClosed || requestId ≤ m.lastRequestId then none
  else
    match m.clauses[m.selected]? with
    | none => none
    | some selected =>
      if !selected.source.isReading then none
      else
        let run := (m.clauses.drop m.selected).takeWhile fun clause => clause.source.isReading
        let run := if m.editingClause = some selected.id then run.take 1 else run
        some
          { key := m.requestKey selected.id requestId
            reading := m.reading
            clauses := run.map clauseRange
            precedingSurfaces := m.preceding m.selected }

/-- The conversion that an accepted rebaseline asks, before it is checked. -/
def rebaselineConversion [EngineToken τ] (m : ClauseConversion τ) (attempt : ClauseRebaseline)
    (response : Response τ) (learning : EngineLearningIdentity) (now : Nat) : Option ConvertClausesRequest :=
  let original := attempt.original.request
  let key := original.key
  match if attempt.boundary then m.boundaryRequest else m.issued.lookup key.requestId with
  | none => none
  | some issued =>
    if issued.request ≠ original || issued.deadline ≠ attempt.original.deadline
        || issued.conversion ≠ attempt.original.conversion || issued.deadline ≤ now
        || m.identity ≠ key.identity || m.baseline ≠ key.baseline
        || m.revision ≠ key.conversionRevision || m.reading ≠ original.reading
        || m.window.loadingKey ≠ some key || m.lastRequestId ≠ attempt.convertRequestId
        || !m.selects key.clauseId || learning.engineEpoch.isEmpty
        || m.learningIdentity.any (fun old => old.engineEpoch = learning.engineEpoch
            && learning.learningGeneration < old.learningGeneration) then none
    else
      match response with
      | .other => none
      | .snapshotResult identity baseline clauseData text autoCommit =>
        if identity ≠ attempt.identity || baseline = 0
            || clauseData.requestId ≠ attempt.snapshotRequestId
            || clauseData.conversionRevision ≠ m.revision || clauseData.reading ≠ m.reading
            || autoCommit.isSome || !(clauseData.validate text).isOk then none
        else
          (if attempt.boundary then attempt.original.conversion.map ConvertClausesRequest.clauses
            else some [{ id := key.clauseId, readingStart := original.readingStart,
                         readingEnd := original.readingEnd }]).map fun clauses =>
            { key := { key with
                identity := attempt.identity
                baseline := baseline
                requestId := attempt.convertRequestId }
              reading := m.reading
              clauses := clauses
              precedingSurfaces := original.precedingSurfaces }

section Emissions

variable {m : ClauseConversion τ}

/-- A boundary conversion is asked when it passes its check. -/
theorem openBoundaryConversion_eq (m : ClauseConversion τ) (requestId now : Nat) :
    (m.openBoundaryConversion requestId now).2 =
      (m.boundaryConversion requestId).filter fun request => request.validate.isOk := by
  unfold openBoundaryConversion boundaryConversion
  by_cases closed : (decide (m.mode ≠ .converting) || !m.window.isClosed || decide (requestId ≤ m.lastRequestId)) = true
  · rw [if_pos closed, if_pos closed]
    rfl
  rw [if_neg closed, if_neg closed]
  cases m.clauses[m.selected]? with
  | none => rfl
  | some selected =>
    dsimp only
    by_cases own : (!selected.source.isReading) = true
    · rw [if_pos own, if_pos own]
      rfl
    rw [if_neg own, if_neg own]
    split
    · rename_i reason refused
      simp [Option.filter, refused, Except.isOk, Except.toBool]
    · rename_i passed
      simp [Option.filter, passed, Except.isOk, Except.toBool]

/-- The conversion of a rebaseline is asked when it passes its check. -/
theorem acceptRebaseline_eq [EngineToken τ] (m : ClauseConversion τ) (attempt : ClauseRebaseline)
    (response : Response τ) (learning : EngineLearningIdentity) (now : Nat) :
    (m.acceptRebaseline attempt response learning now).2 =
      (m.rebaselineConversion attempt response learning now).filter fun request => request.validate.isOk := by
  unfold acceptRebaseline rebaselineConversion
  dsimp only
  cases (if attempt.boundary = true then m.boundaryRequest
    else m.issued.lookup attempt.original.request.key.requestId) with
  | none => rfl
  | some issued =>
    dsimp only
    split
    · rfl
    cases response with
    | other => rfl
    | snapshotResult identity baseline clauseData text autoCommit =>
      dsimp only
      split
      · rfl
      cases (if attempt.boundary = true then attempt.original.conversion.map ConvertClausesRequest.clauses
        else some [(⟨attempt.original.request.key.clauseId, attempt.original.request.readingStart,
          attempt.original.request.readingEnd⟩ : ClauseRange)]) with
      | none => rfl
      | some clauses =>
        dsimp only [Option.map_some]
        split
        · rename_i reason refused
          simp [Option.filter, refused, Except.isOk, Except.toBool]
        · rename_i passed
          simp [Option.filter, passed, Except.isOk, Except.toBool]

/-- What precedes a clause leads up to it. -/
theorem leadsUp_preceding (formed : m.WellFormed) (legible : m.Legible) {index : Nat} {clause : LocalClause τ}
    (found : m.clauses[index]? = some clause) : LeadsUp m.reading (m.preceding index) clause.start := by
  have old : ∀ other ∈ m.clauses.take index, other ∈ m.clauses := fun other member => List.mem_of_mem_take member
  have shape : m.clauses = m.clauses.take index ++ clause :: m.clauses.drop (index + 1) := by
    obtain ⟨inside, same⟩ := List.getElem?_eq_some_iff.mp found
    rw [← same, List.getElem_cons_drop, List.take_append_drop]
  have tiles := formed.tiles
  rw [shape, List.map_append, tiles_append] at tiles
  obtain ⟨mid, before, start, _⟩ := tiles
  obtain rfl : clause.start = mid := start
  refine { tiles := ?_, distinct := ?_, legal := fun item member => ?_, shown := fun item member => ?_ }
  · unfold preceding
    rw [List.map_map]
    exact before
  · unfold preceding
    rw [List.map_map]
    exact formed.distinct.sublist ((List.take_sublist index m.clauses).map _)
  · obtain ⟨other, inFront, rfl⟩ := List.mem_map.mp member
    exact formed.legal_stop (old other inFront)
  · obtain ⟨other, inFront, rfl⟩ := List.mem_map.mp member
    exact legible.surface_ne_nil formed (old other inFront)

/-- A clause's id is not among those before it. -/
theorem id_notMem_preceding (formed : m.WellFormed) {index place : Nat} {clause : LocalClause τ} (behind : index ≤ place)
    (found : m.clauses[place]? = some clause) : ∀ item ∈ m.preceding index, item.clauseId ≠ clause.id := by
  intro item member same
  obtain ⟨other, inFront, rfl⟩ := List.mem_map.mp member
  obtain ⟨i, inside, rfl⟩ := List.mem_iff_getElem.mp inFront
  rw [List.length_take] at inside
  rw [List.getElem_take] at same
  obtain ⟨within, rfl⟩ := List.getElem?_eq_some_iff.mp found
  -- Ids are distinct, so the two places would be one.
  have equal : i = place := by
    have inFront : i < (m.clauses.map LocalClause.id).length := by rw [List.length_map]; omega
    have atPlace : place < (m.clauses.map LocalClause.id).length := by rwa [List.length_map]
    have ids : (m.clauses.map LocalClause.id)[i] = (m.clauses.map LocalClause.id)[place] := by
      rw [List.getElem_map, List.getElem_map]
      exact same
    exact (List.Nodup.getElem_inj_iff formed.distinct).mp ids
  omega

/-- A request that describes the model passes its check. -/
theorem Carries.validate (formed : m.WellFormed) (legible : m.Legible) {request : ClauseCandidatesRequest}
    (carries : m.Carries request) : request.validate = .ok () := by
  obtain ⟨reading, index, clause, found, range, preceding⟩ := carries
  have member := List.mem_of_getElem? found
  have bounds := formed.bounds member
  have id : clause.id = request.key.clauseId := congrArg ClauseRange.id range
  have start : clause.start = request.readingStart := congrArg ClauseRange.readingStart range
  have stop : clause.stop = request.readingEnd := congrArg ClauseRange.readingEnd range
  refine ClauseCandidatesRequest.validate_ok ?_ ?_ ?_ ?_ ?_ ?_ ?_
  · rw [reading]
    exact legible.normal
  · rw [reading]
    exact formed.fits
  · rw [reading, ← preceding, ← start]
    exact leadsUp_preceding formed legible found
  · rw [reading, ← start]
    exact formed.legal_start member
  · rw [← start, ← stop]
    exact bounds.1
  · rw [reading, ← stop]
    exact formed.legal_stop member
  · rw [← preceding, ← id]
    exact id_notMem_preceding formed le_rfl found

/-- A conversion of consecutive clauses, from one on, passes its check. -/
theorem validate_conversion (formed : m.WellFormed) (legible : m.Legible) {index : Nat} {clause : LocalClause τ}
    (found : m.clauses[index]? = some clause) {run : List (LocalClause τ)} (nonempty : run ≠ [])
    (isPrefix : run <+: m.clauses.drop index) {request : ConvertClausesRequest}
    (keyed : request.key.clauseId = clause.id) (reading : request.reading = m.reading)
    (clauses : request.clauses = run.map clauseRange) (preceding : request.precedingSurfaces = m.preceding index) :
    request.validate = .ok () := by
  obtain ⟨rest, whole⟩ := isPrefix
  have places : ∀ other ∈ run, ∃ place, index ≤ place ∧ m.clauses[place]? = some other := by
    intro other member
    obtain ⟨i, inside, rfl⟩ := List.mem_iff_getElem.mp member
    refine ⟨index + i, Nat.le_add_right _ _, ?_⟩
    rw [← List.getElem?_drop, ← whole, List.getElem?_append_left inside, List.getElem?_eq_getElem inside]
  have head : run.head? = some clause := by
    have first : (run ++ rest).head? = some clause := by rw [whole, List.head?_drop, found]
    cases run with
    | nil => exact absurd rfl nonempty
    | cons other more => exact first
  have spans := formed.tiles
  rw [← List.take_append_drop index m.clauses, ← whole, List.map_append, List.map_append, tiles_append] at spans
  obtain ⟨start, before, behind⟩ := spans
  obtain ⟨stop, tiles, _⟩ := tiles_append.mp behind
  obtain rfl : clause.start = start := by
    cases run with
    | nil => cases head
    | cons other more =>
      obtain rfl := Option.some.inj head
      exact tiles.1
  have first : request.clauses.head? = some (clauseRange clause) := by
    rw [clauses, List.head?_map, head]
    rfl
  have covered : Tiles clause.start (request.clauses.map ClauseRange.span) stop := by
    rw [clauses, List.map_map]
    exact tiles
  refine ConvertClausesRequest.validate_ok first ?_ ?_ ?_ ?_ ?_ covered ?_ ?_ ?_
  · exact keyed.symm
  · rw [reading]
    exact legible.normal
  · rw [reading]
    exact formed.fits
  · rw [reading, preceding]
    exact leadsUp_preceding formed legible found
  · rw [reading]
    exact formed.legal_start (List.mem_of_getElem? found)
  · rw [clauses, List.map_map]
    have ids := formed.distinct
    rw [← List.take_append_drop index m.clauses, ← whole, List.map_append, List.map_append] at ids
    exact (List.nodup_append.mp (List.nodup_append.mp ids).2.1).1
  · intro range member inFront
    rw [clauses] at member
    obtain ⟨other, inRun, rfl⟩ := List.mem_map.mp member
    obtain ⟨place, after, atPlace⟩ := places other inRun
    rw [preceding] at inFront
    obtain ⟨item, inItems, same⟩ := List.mem_map.mp inFront
    exact id_notMem_preceding formed after atPlace item inItems same
  · intro range member
    rw [clauses] at member
    obtain ⟨other, inRun, rfl⟩ := List.mem_map.mp member
    obtain ⟨place, _, atPlace⟩ := places other inRun
    rw [reading]
    exact formed.legal_stop (List.mem_of_getElem? atPlace)

/-- The conversion of the selected reading clauses passes its check. -/
theorem boundaryConversion_valid (formed : m.WellFormed) (legible : m.Legible) {requestId : Nat}
    {request : ConvertClausesRequest} (built : m.boundaryConversion requestId = some request) :
    request.validate = .ok () := by
  unfold boundaryConversion at built
  split at built
  · cases built
  split at built
  · cases built
  rename_i selected found
  split at built
  · cases built
  rename_i reads
  rw [Bool.not_eq_true', Bool.not_eq_false] at reads
  dsimp only at built
  obtain rfl := Option.some.inj built
  -- The selected clause is the first of the run.
  have first : ∃ more, (m.clauses.drop m.selected).takeWhile (fun clause => clause.source.isReading) =
      selected :: more := by
    obtain ⟨inside, rfl⟩ := List.getElem?_eq_some_iff.mp found
    rw [← List.getElem_cons_drop inside]
    exact ⟨_, List.takeWhile_cons_of_pos reads⟩
  obtain ⟨more, run⟩ := first
  have within := List.takeWhile_prefix (fun clause : LocalClause τ => clause.source.isReading) (l := m.clauses.drop m.selected)
  have asked : ∀ part, part = (if m.editingClause = some selected.id then
      ((m.clauses.drop m.selected).takeWhile fun clause => clause.source.isReading).take 1
      else (m.clauses.drop m.selected).takeWhile fun clause => clause.source.isReading) →
      part ≠ [] ∧ part <+: m.clauses.drop m.selected := by
    rintro part rfl
    split
    · exact ⟨by rw [run]; simp, (List.take_prefix _ _).trans within⟩
    · exact ⟨by rw [run]; simp, within⟩
  exact validate_conversion formed legible found (asked _ rfl).1 (asked _ rfl).2 rfl rfl rfl rfl

/-- The conversion of a rebaseline passes its check. -/
theorem rebaselineConversion_valid [EngineToken τ] (sound : m.Sound) (sendable : m.Sendable)
    {attempt : ClauseRebaseline} {response : Response τ} {learning : EngineLearningIdentity} {now : Nat}
    {request : ConvertClausesRequest} (built : m.rebaselineConversion attempt response learning now = some request) :
    request.validate = .ok () := by
  unfold rebaselineConversion at built
  dsimp only at built
  split at built
  · cases built
  rename_i issued found
  split at built
  · cases built
  rename_i admitted
  simp only [Bool.or_eq_true, decide_eq_true_eq, not_or, ne_eq, not_not] at admitted
  obtain ⟨⟨⟨⟨⟨⟨⟨⟨⟨⟨⟨⟨same, _⟩, converting⟩, _⟩, _⟩, _⟩, revision⟩, reading⟩, _⟩, _⟩, _⟩, _⟩, _⟩ := admitted
  split at built
  · cases built
  split at built
  · cases built
  obtain ⟨clauses, asked, rfl⟩ := Option.map_eq_some_iff.mp built
  have timely : m.Timely issued := by
    split at found
    · exact sound.boundary issued found
    · exact sound.issued _ issued found
  have carries := timely.carries (by rw [same, revision])
  rw [same] at carries
  obtain ⟨_, index, clause, atIndex, range, preceding⟩ := carries
  split at asked
  · -- The conversion was checked when it was asked first.
    rename_i boundary
    rw [if_pos boundary] at found
    obtain ⟨conversion, given, rfl⟩ := Option.map_eq_some_iff.mp asked
    rw [← converting] at given
    obtain ⟨key, sameReading, samePreceding⟩ := timely.conversion conversion given
    rw [← sendable.asked issued conversion found given]
    refine ConvertClausesRequest.validate_congr ?_ ?_ rfl ?_
    · rw [key, same]
    · rw [sameReading, same, reading]
    · rw [samePreceding, same]
  · obtain rfl := Option.some.inj asked
    have inside : [clause] <+: m.clauses.drop index := by
      obtain ⟨within, rfl⟩ := List.getElem?_eq_some_iff.mp atIndex
      rw [← List.getElem_cons_drop within]
      exact ⟨_, rfl⟩
    refine validate_conversion sound.formed sendable.legible atIndex (List.cons_ne_nil _ _) inside ?_ rfl ?_ preceding.symm
    · exact (congrArg ClauseRange.id range).symm
    · rw [List.map_singleton, range]

/-- A request that the operation asks passes its check. -/
theorem asked_valid {request : ConvertClausesRequest} {built : Option ConvertClausesRequest}
    (sent : built.filter (fun request => request.validate.isOk) = some request) : request.validate = .ok () := by
  obtain ⟨_, passed⟩ := Option.filter_eq_some_iff.mp sent
  cases checked : request.validate with
  | error _ => simp [checked, Except.isOk, Except.toBool] at passed
  | ok => rfl

/-- Every operation of a caller that speaks well keeps the model sendable. -/
theorem apply_sendable [EngineToken τ] (segmentation : Segmentation) (sound : m.Sound) (sendable : m.Sendable)
    {op : ClauseOp τ} (spoken : WellSpoken op) : (m.apply segmentation op).Sendable := by
  have legible := sendable.legible
  cases op with
  | promoteLiveDisplay identity reading text =>
    simp only [apply]
    cases promoted : m.promoteLiveDisplay identity reading text with
    | none => exact sendable
    | some m' =>
      show m'.Sendable
      have legible := promoteLiveDisplay_legible legible spoken promoted
      obtain ⟨window, _, cache, _⟩ := promoteLiveDisplay_kept promoted
      rcases promoteLiveDisplay_cases promoted with quiet | extended
      · exact quiet.sendable sendable
      · refine sendable.mono legible (clauseTokens_subset ?_) (fun _ _ found => cache ▸ found) (.inl window)
          (fun _ found => extended.boundary ▸ found)
        obtain ⟨added, clauses, plain⟩ := extended.clauses
        intro clause member
        rw [clauses] at member
        rcases List.mem_append.mp member with old | new
        · exact .inr ⟨clause, old, rfl⟩
        · obtain rfl := List.mem_singleton.mp new
          exact .inl (by rw [plain]; rfl)
  | beginReadingEdit index =>
    exact (beginReadingEdit_edited m index).sendable sendable (beginReadingEdit_legible legible index)
  | replaceEditedReading reading readingRevision =>
    exact (replaceEditedReading_edited m reading readingRevision).sendable sendable
      (replaceEditedReading_legible legible spoken readingRevision)
  | deleteDisplayTail =>
    exact (deleteDisplayTail_edited m segmentation).sendable sendable (deleteDisplayTail_legible segmentation legible)
  | escape => exact (escape_edited m).sendable sendable (escape_legible legible)
  | resizeSelected direction =>
    exact (resizeSelected_edited direction).sendable sendable (resizeSelected_legible legible direction)
  | openBoundaryConversion requestId now =>
    simp only [apply]
    rcases openBoundaryConversion_cases m requestId now with ⟨_, same⟩ |
      ⟨entry, request, sent, ⟨converting, _⟩, _, _, _, _, _, asked⟩
    · rw [same]
      exact sendable
    · refine asked.sendable sendable fun conversion _ also => ?_
      obtain rfl := Option.some.inj (converting.symm.trans also)
      rw [openBoundaryConversion_eq] at sent
      exact asked_valid sent
  | acceptBoundaryConversion key status learning now =>
    exact acceptBoundaryConversion_sendable sendable key status learning now
  | prepareRebaseline key snapshotRequestId convertRequestId now =>
    exact (prepareRebaseline_quiet m key snapshotRequestId convertRequestId now).sendable sendable
  | acceptRebaseline attempt response learning now =>
    simp only [apply]
    rcases acceptRebaseline_cases m attempt response learning now with same | ⟨request, _, _, _, _, _, _, asked, result⟩
    · rw [same]
      exact sendable
    · have sent := acceptRebaseline_eq m attempt response learning now
      rw [result] at sent
      have reasked : (m.reasked attempt request).Sendable := asked.sendable sendable fun conversion _ also => by
        obtain rfl := Option.some.inj (show some request = some conversion from also)
        exact asked_valid sent.symm
      rw [result]
      exact (rebased_forgotten m attempt request learning).sendable reasked
  | acceptRebasedConversion key status learning candidateRequestId now =>
    simp only [apply]
    rcases acceptRebasedConversion_cases m key status learning candidateRequestId now with same |
      ⟨_, _, _, _, _, _, ended | ⟨entry, _, _, _, boundary, _, asked⟩⟩
    · rw [same]
      exact sendable
    · rw [ended]
      exact (endRequest_quiet m key).sendable sendable
    · exact asked.sendable sendable fun conversion waits converting =>
        sendable.asked entry conversion (boundary ▸ waits) converting
  | replaceWholeSurface surface =>
    exact (replaceWholeSurface_edited m surface).sendable sendable (replaceWholeSurface_legible legible spoken)
  | transformKana start stop kind =>
    exact (transformNotation_edited m start stop kind none).sendable sendable
      (transformNotation_legible legible sound.formed start stop kind (by simp))
  | transformNotation start stop kind original =>
    exact (transformNotation_edited m start stop kind original).sendable sendable
      (transformNotation_legible legible sound.formed start stop kind spoken)
  | invalidateLearning => exact (invalidateLearning_forgotten m).sendable sendable
  | refreshLearningIdentity identity =>
    simp only [apply]
    rcases refreshLearningIdentity_cases m identity with same | ⟨forgotten, _⟩
    · rw [same]
      exact sendable
    · exact forgotten.sendable sendable
  | configuredLearningIdentity identity =>
    simp only [apply]
    rcases configuredLearningIdentity_cases m identity with same | forgotten
    · rw [same]
      exact sendable
    · exact forgotten.sendable sendable
  | closeWindow => exact (closeWindow_quiet m).sendable sendable
  | moveClause offset => exact (moveClause_quiet m offset).sendable sendable
  | openCandidates requestId now => exact openCandidates_sendable sendable requestId now
  | cycleCandidate requestId direction now => exact cycleCandidate_sendable sendable requestId direction now
  | acceptCandidates key status now => exact acceptCandidates_sendable sendable key status now
  | acceptCandidatesWithIdentity key status identity now =>
    simp only [apply]
    rcases acceptCandidatesWithIdentity_cases m key status identity now with same | ⟨ended, _⟩ | ⟨mid, under, _, result⟩
    · rw [same]
      exact sendable
    · rw [ended]
      exact (endRequest_quiet m key).sendable sendable
    · rw [result]
      rcases under with rfl | ⟨entry, learning, _, found, _, rfl⟩
      · exact acceptCandidates_sendable sendable key status now
      · exact acceptCandidates_sendable ((underIdentity_forgotten learning found).sendable sendable) key status now
  | endRequest key => exact (endRequest_quiet m key).sendable sendable
  | expire now => exact (expire_quiet m now).sendable sendable
  | selectCandidate index => exact selectCandidate_sendable sendable index
  | advanceCandidate direction => exact advanceCandidate_sendable sendable direction
  | resetNotationCycle => exact (resetNotationCycle_quiet m).sendable sendable

/-- A model that has just been built from a normalised reading is sendable. -/
theorem Initial.sendable [EngineToken τ] (initial : Initial m) (normal : normalizeReading m.reading = m.reading) :
    m.Sendable := by
  -- Nothing is kept, shown or asked yet.
  have fresh : (∀ clause ∈ m.clauses, clause.source ≠ .reading → clause.surface ≠ []) →
      (∀ clause ∈ m.clauses, ∀ token, clause.source.token = some token → EngineToken.isEmpty token = false) →
      m.cache = ∅ → m.Sendable := fun shown solid cache =>
    { legible := ⟨normal, shown⟩
      solid := fun token member => by
        obtain ⟨clause, inClauses, found⟩ := List.mem_filterMap.mp member
        exact solid clause inClauses token found
      kept := fun _ _ found => (lookup_empty_ne_some (cache ▸ found)).elim
      listed := fun _ _ _ open' => by rw [initial.closed] at open'; cases open'
      asked := fun _ _ found => by rw [initial.idle.2] at found; cases found }
  cases initial with
  | @snapshot identity baseline data text m built =>
    unfold fromSnapshot at built
    cases checked : data.validate text with
    | error _ => rw [checked] at built; cases built
    | ok =>
      rw [checked] at built
      obtain ⟨_, _, _, _, _, _, _, _, valid⟩ :=
        validateClauses_ok_iff.mp (SnapshotClauseData.validate_ok_iff.mp checked)
      obtain rfl := Except.ok.inj built
      refine fresh (fun clause member own => ?_) (fun clause member token found => ?_) rfl
      · obtain ⟨wire, inData, rfl⟩ := List.mem_map.mp member
        cases state : wire.state with
        | reading => exact absurd (by simp [localClause, state]) own
        | converted => exact (valid wire inData).converted_surface state
      · obtain ⟨wire, inData, rfl⟩ := List.mem_map.mp member
        exact localClause_solid (valid wire inData) found
  | reading built =>
    unfold fromReading at built
    obtain ⟨stop, _, built⟩ := Option.bind_eq_some_iff.mp built
    split at built
    · cases built
    obtain rfl := (Option.some.inj built).symm
    refine fresh (fun clause member own => ?_) (fun clause member token found => ?_) rfl
    · rw [List.mem_singleton.mp member] at own
      exact absurd rfl own
    · rw [List.mem_singleton.mp member] at found
      cases found

/-- A receipt is frozen for the whole display whenever there are an identity and a commit id, and passes its check. -/
theorem freeze_valid [EngineToken τ] (formed : m.WellFormed) (sendable : m.Sendable) {identity : EngineLearningIdentity}
    (known : m.learningIdentity = some identity) (commitId : CommitId) :
    ∃ receipt, freeze (some commitId) m m.text = some receipt ∧ (receipt.validate fun _ _ => true) = .ok () := by
  have spans : (m.clauses.map commitInterval).map CommitInterval.span = m.clauses.map LocalClause.span := by
    rw [List.map_map]
    rfl
  have valid : ∀ interval ∈ m.clauses.map commitInterval, interval.Valid m.reading := by
    intro interval member
    obtain ⟨clause, inClauses, rfl⟩ := List.mem_map.mp member
    refine
      { legal := formed.legal_stop inClauses
        within := (formed.bounds inClauses).2
        shown := sendable.legible.surface_ne_nil formed inClauses
        token := fun token explicitlySelected learning => ?_
        read := fun learning => ?_ }
    · refine sendable.solid token (List.mem_filterMap.mpr ⟨clause, inClauses, ?_⟩)
      cases source : clause.source <;> simp_all [commitInterval, SurfaceSource.learning, SurfaceSource.token]
    · refine formed.shown clause inClauses ?_
      cases source : clause.source <;> simp_all [commitInterval, SurfaceSource.learning]
  have passed := fun receipt : CommitReceipt τ => @CommitReceipt.validate_ok τ _ receipt
  unfold freeze
  rw [known]
  simp only [Option.bind_eq_bind, Option.bind_some, ne_eq, not_true_eq_false, if_false]
  have spelled : (m.clauses.map commitInterval).flatMap CommitInterval.surface = m.text := by
    rw [List.flatMap_map]
    rfl
  have accepted := passed
    { commitId := commitId, engineEpoch := identity.engineEpoch, learningGeneration := identity.learningGeneration
      reading := m.reading, text := m.text, intervals := m.clauses.map commitInterval
      sentenceToken := m.sentenceToken }
    sendable.legible.normal formed.fits (spans ▸ formed.tiles) valid spelled
  rw [accepted]
  exact ⟨_, if_pos rfl, accepted⟩

/-- What a model sends passes the checks: every request for candidates or a conversion, and the receipt of a commit. -/
structure Emits [EngineToken τ] (m : ClauseConversion τ) : Prop where
  candidates : ∀ requestId now request, (m.openCandidates requestId now).2 = some request → request.validate = .ok ()
  cycled : ∀ requestId direction now request, (m.cycleCandidate requestId direction now).2 = some request →
    request.validate = .ok ()
  rebased : ∀ key status learning candidateRequestId now request,
    (m.acceptRebasedConversion key status learning candidateRequestId now).2 = some request → request.validate = .ok ()
  boundary : ∀ requestId now, (m.openBoundaryConversion requestId now).2 = m.boundaryConversion requestId
  rebaselined : ∀ attempt response learning now,
    (m.acceptRebaseline attempt response learning now).2 = m.rebaselineConversion attempt response learning now
  frozen : ∀ identity commitId, m.learningIdentity = some identity → m.clauses ≠ [] →
    ∃ receipt, freeze (some commitId) m m.text = some receipt ∧ (receipt.validate fun _ _ => true) = .ok ()

/-- A sendable model sends only what passes the checks. -/
theorem emits_of_sendable [EngineToken τ] (sound : m.Sound) (sendable : m.Sendable) : m.Emits := by
  have formed := sound.formed
  have opened : ∀ requestId now request, (m.openCandidates requestId now).2 = some request →
      request.validate = .ok () := by
    intro requestId now request sent
    rcases openCandidates_cases m requestId now with ⟨silent, _⟩ | ⟨entry, sent', _, _, _, _, _, _, asked⟩
    · rw [silent] at sent
      cases sent
    · obtain rfl := Option.some.inj (sent'.symm.trans sent)
      exact (asked.carries sound).validate formed sendable.legible
  have filtered : ∀ built : Option ConvertClausesRequest, (∀ request, built = some request → request.validate = .ok ()) →
      built.filter (fun request => request.validate.isOk) = built := by
    intro built valid
    cases built with
    | none => rfl
    | some request => simp [Option.filter, valid request rfl, Except.isOk, Except.toBool]
  refine
    { candidates := opened
      cycled := fun requestId direction now request sent => ?_
      rebased := fun key status learning candidateRequestId now request sent => ?_
      boundary := fun requestId now => ?_
      rebaselined := fun attempt response learning now => ?_
      frozen := fun identity commitId known _ => freeze_valid formed sendable known commitId }
  · refine opened requestId now request ?_
    unfold cycleCandidate at sent
    split at sent
    · cases sent
    generalize m.openCandidates requestId now = result at *
    obtain ⟨m', asked⟩ := result
    cases asked with
    | none =>
      dsimp only at sent
      split at sent <;> cases sent
    | some asked =>
      dsimp only at sent
      split at sent <;> exact sent
  · rcases acceptRebasedConversion_cases m key status learning candidateRequestId now with same |
      ⟨_, _, _, _, _, _, ended | ⟨entry, ⟨_, _, _, _, sent'⟩, _, _, _, _, asked⟩⟩
    · rw [same] at sent
      cases sent
    · rw [ended] at sent
      cases sent
    · obtain rfl := Option.some.inj (sent'.symm.trans sent)
      exact (asked.carries sound).validate formed sendable.legible
  · rw [openBoundaryConversion_eq]
    exact filtered _ fun request built => boundaryConversion_valid formed sendable.legible built
  · rw [acceptRebaseline_eq]
    exact filtered _ fun request built => rebaselineConversion_valid sound sendable built

/-- Whatever the model sends in a run passes the checks, when readings are normalised and nothing empty is passed in. -/
theorem run_emits [EngineToken τ] (segmentation : Segmentation) (initial : Initial m)
    (normal : normalizeReading m.reading = m.reading) {ops : List (ClauseOp τ)} (spoken : ∀ op ∈ ops, WellSpoken op) :
    (exec (apply segmentation) m ops).Emits := by
  have kept : ∀ (ops : List (ClauseOp τ)) (m : ClauseConversion τ), m.Sound → m.Sendable →
      (∀ op ∈ ops, WellSpoken op) →
      (exec (apply segmentation) m ops).Sound ∧ (exec (apply segmentation) m ops).Sendable := by
    intro ops
    induction ops with
    | nil => exact fun m sound sendable _ => ⟨sound, sendable⟩
    | cons op ops ih =>
      intro m sound sendable spoken
      obtain ⟨first, rest⟩ := List.forall_mem_cons.mp spoken
      exact ih _ (apply_sound segmentation sound op) (apply_sendable segmentation sound sendable first) rest
  obtain ⟨sound, sendable⟩ := kept ops m initial.sound (initial.sendable normal) spoken
  exact emits_of_sendable sound sendable

/-- After a notation change candidates are asked, and the display is frozen. -/
theorem run_emits_kana : ∃ m : ClauseConversion String, fromReading ⟨1, 1, 1, 1⟩ ['か', 'な'] = some m ∧
    (exec (apply Segmentation.scalars) m
      [.configuredLearningIdentity (some ⟨['e'], 3⟩), .transformKana 0 2 .katakana]).Emits ∧
    ((exec (apply Segmentation.scalars) m
      [.configuredLearningIdentity (some ⟨['e'], 3⟩), .transformKana 0 2 .katakana]).openCandidates 1 0).2.isSome = true ∧
    (freeze (some ⟨['c'], 1⟩) (exec (apply Segmentation.scalars) m
      [.configuredLearningIdentity (some ⟨['e'], 3⟩), .transformKana 0 2 .katakana]) ['カ', 'ナ']).isSome = true := by
  have built : (fromReading ⟨1, 1, 1, 1⟩ ['か', 'な'] : Option (ClauseConversion String)) = some _ := rfl
  refine ⟨_, built, run_emits Segmentation.scalars (.reading built) (by decide) ?_, rfl, rfl⟩
  intro op member
  simp only [List.mem_cons, List.not_mem_nil, or_false] at member
  rcases member with rfl | rfl <;> trivial

end Emissions

end ClauseConversion

end Nospacekey
