import Nospacekey.Clause.Requests

/-! Accepting the engine's replies, and the effect of every operation on the clause model. -/

namespace Nospacekey

open Tiling

variable {τ : Type}

namespace ClauseConversion

/-- A boundary conversion shows the engine's clauses in place of those it was asked about. -/
structure Converted (m m' : ClauseConversion τ) (under : Option EngineLearningIdentity)
    (wire : List (WireClause τ)) : Prop where
  formed : m.Sound → m'.WellFormed
  reading : m'.reading = m.reading
  revision : m.revision < m'.revision
  learning : m'.learningIdentity = under
  sentence : m'.sentenceToken = none ∨
    (m'.sentenceToken = m.sentenceToken ∧ m.learningIdentity = under)
  lastRequestId : m'.lastRequestId = m.lastRequestId
  tokens : ∀ token ∈ m'.clauseTokens, (token ∈ m.clauseTokens ∧ m.learningIdentity = under) ∨
    token ∈ wire.filterMap WireClause.candidateToken
  issued : m'.issued = ∅
  boundary : m'.boundaryRequest = none
  cache : m'.cache = ∅
  window : m'.window = .closed

/-- A candidate reply to a pending request of this revision goes to the kept lists, and to the window
if that waits for it. -/
structure Stored [EngineToken τ] (m m' : ClauseConversion τ) (entry : IssuedCandidates)
    (candidates : List (ClauseCandidate τ)) : Prop where
  reading : m'.reading = m.reading
  clauses : m'.clauses = m.clauses
  revision : m'.revision = m.revision
  nextClauseId : m'.nextClauseId = m.nextClauseId
  learning : m'.learningIdentity = m.learningIdentity
  sentence : m'.sentenceToken = m.sentenceToken
  selected : m'.selected = m.selected
  lastRequestId : m'.lastRequestId = m.lastRequestId
  pending : ∃ id, m.issued.lookup id = some entry
  current : entry.request.key.conversionRevision = m.revision
  valid : entry.request.validateCandidates candidates = .ok ()
  issued : ∀ id other, m'.issued.lookup id = some other → m.issued.lookup id = some other
  answered : m'.issued.lookup entry.request.key.requestId = none
  boundary : m'.boundaryRequest = m.boundaryRequest
  cache : m'.cache = m.cache.insert entry.request.key.clauseId
    { start := entry.request.readingStart
      stop := entry.request.readingEnd
      preceding := entry.request.precedingSurfaces
      candidates := m.anchorCandidates entry.request.key.clauseId candidates }
  window : m'.window = m.window ∨ ∃ clause shown, m.clauses[m.selected]? = some clause ∧
    clause.id = entry.request.key.clauseId ∧
    m'.window = .ready clause.id (m.anchorCandidates entry.request.key.clauseId candidates) shown

section Conversion

variable {m m' : ClauseConversion τ}

/-- A conversion keeps the model sound. -/
theorem Converted.sound {learning : Option EngineLearningIdentity} {wire : List (WireClause τ)}
    (converted : Converted m m' learning wire) (sound : m.Sound) : m'.Sound where
  formed := converted.formed sound
  issued := fun _ _ found => (lookup_empty_ne_some (converted.issued ▸ found)).elim
  boundary := fun _ found => by rw [converted.boundary] at found; cases found
  cached := fun _ _ found => (lookup_empty_ne_some (converted.cache ▸ found)).elim
  ready := fun _ _ _ open' => by rw [converted.window] at open'; cases open'

/-- Replacing leading elements keeps what is behind them. -/
theorem replaceLeading_eq {old new : List (LocalClause τ)} (room : new.length ≤ old.length) :
    replaceLeading old new = new ++ old.drop new.length := by
  -- Both lists are walked together until the new one ends.
  induction new generalizing old with
  | nil => cases old <;> rfl
  | cons clause rest ih =>
    cases old with
    | nil => simp at room
    | cons first old =>
      simp only [replaceLeading, List.cons_append, List.length_cons, List.drop_succ_cons,
        List.cons.injEq, true_and]
      exact ih (by simpa using room)

/-- Without requests there is none to withdraw. -/
theorem closeWindow_issued {m : ClauseConversion τ} (empty : m.issued = ∅) :
    m.closeWindow.issued = ∅ := by
  unfold closeWindow
  cases m.window.loadingKey with
  | none => exact empty
  | some key => rw [empty]; rfl

variable [EngineToken τ]

/-- An accepted wire clause becomes a reading clause that shows its slice, or keeps its token. -/
theorem convertedClause_spec {reading : Text} {stop : Nat} {clause : WireClause τ}
    (valid : clause.Valid reading stop) :
    clauseRange (convertedClause clause) = clause.range ∧
      ((convertedClause clause).source = .reading →
        (convertedClause clause).surface = slice reading clause.readingStart clause.readingEnd) ∧
      ∀ token, (convertedClause clause).source.token = some token → clause.candidateToken = some token := by
  refine ⟨rfl, ?_, ?_⟩
  · intro isReading
    cases state : clause.state with
    | reading => exact (readingSlice_eq_some_iff.mp (valid.reading_surface state)).2.2
    | converted => simp [convertedClause, localClause, state] at isReading
  · intro token found
    cases state : clause.state with
    | reading => simp [convertedClause, localClause, state, SurfaceSource.token] at found
    | converted =>
      obtain ⟨solid, present, _⟩ := valid.converted_token state
      simp only [convertedClause, localClause, state, present, Option.getD_some,
        SurfaceSource.token, Option.some.injEq] at found
      rw [present, found]

/-- Showing wire clauses over the ranges they were requested for is a conversion. -/
theorem converted_of_base {m mid : ClauseConversion τ} {learning : Option EngineLearningIdentity}
    {wire : List (WireClause τ)} {request : ConvertClausesRequest} {index revision stop : Nat}
    (sameReading : mid.reading = m.reading) (sameLast : mid.lastRequestId = m.lastRequestId)
    (formed : m.WellFormed → mid.WellFormed) (learned : mid.learningIdentity = learning)
    (sentence : mid.sentenceToken = none ∨
      (mid.sentenceToken = m.sentenceToken ∧ m.learningIdentity = learning))
    (tokens : ∀ token ∈ mid.clauseTokens, token ∈ m.clauseTokens ∧ m.learningIdentity = learning)
    (revised : m.revision < revision)
    (taken : ((mid.clauses.drop index).take wire.length).map clauseRange = wire.map WireClause.range)
    (valid : ∀ clause ∈ wire, clause.Valid request.reading stop)
    (reading : m.Sound → request.reading = m.reading) :
    Converted m (closeWindow { mid with
      clauses := mid.clauses.take index ++ replaceLeading (mid.clauses.drop index) (wire.map convertedClause)
      revision := revision
      issued := ∅
      cache := ∅ }) learning wire := by
  have length : wire.length ≤ (mid.clauses.drop index).length := by
    have := congrArg List.length taken
    simp only [List.length_map, List.length_take] at this
    omega
  rw [replaceLeading_eq (by simpa using length), List.length_map]
  -- Every clause is an old one or one of the reply.
  have origin : ∀ clause ∈ mid.clauses.take index ++ (wire.map convertedClause ++
      (mid.clauses.drop index).drop wire.length),
      clause ∈ mid.clauses ∨ ∃ w ∈ wire, clause = convertedClause w := by
    intro clause member
    rcases List.mem_append.mp member with front | member
    · exact .inl (List.mem_of_mem_take front)
    · rcases List.mem_append.mp member with new | back
      · obtain ⟨w, inWire, rfl⟩ := List.mem_map.mp new
        exact .inr ⟨w, inWire, rfl⟩
      · exact .inl (List.mem_of_mem_drop (List.mem_of_mem_drop back))
  exact
    { formed := fun sound => by
        have formed := formed sound.formed
        have covered : (mid.clauses.take index ++ (wire.map convertedClause ++
            (mid.clauses.drop index).drop wire.length)).map clauseRange = mid.clauses.map clauseRange := by
          conv_rhs => rw [← List.take_append_drop index mid.clauses,
            ← List.take_append_drop wire.length (mid.clauses.drop index)]
          simp only [List.map_append, taken, List.map_map]
          rfl
        refine formed.reshow rfl covered rfl ?_ ?_
        · intro clause member isReading
          rcases origin clause member with old | ⟨w, inWire, rfl⟩
          · exact formed.shown clause old isReading
          · have shown := (convertedClause_spec (valid w inWire)).2.1 isReading
            rw [reading sound] at shown
            unfold readingOf
            simp only [closeWindow, sameReading]
            exact shown
        · intro some
          have length := congrArg List.length covered
          simp only [List.length_map] at length
          simp only [closeWindow] at some ⊢
          rw [length]
          exact formed.selected (fun empty => some (List.length_eq_zero_iff.mp (by rw [length, empty]; rfl)))
      reading := sameReading
      revision := revised
      learning := learned
      sentence := sentence
      lastRequestId := sameLast
      tokens := by
        intro token member
        obtain ⟨clause, inClauses, found⟩ := List.mem_filterMap.mp member
        rcases origin clause inClauses with old | ⟨w, inWire, rfl⟩
        · exact .inl (tokens token (List.mem_filterMap.mpr ⟨clause, old, found⟩))
        · exact .inr (List.mem_filterMap.mpr ⟨w, inWire, (convertedClause_spec (valid w inWire)).2.2 token found⟩)
      issued := closeWindow_issued rfl
      boundary := rfl
      cache := rfl
      window := rfl }

/-- A boundary reply is accepted exactly for the pending request, whose ranges are the present ones. -/
theorem acceptBoundaryConversion_cases (m : ClauseConversion τ) (key : ClauseRequestKey)
    (status : ConvertClausesStatus τ) (learning : Option EngineLearningIdentity) (now : Nat) :
    ((m.acceptBoundaryConversion key status learning now).2 = false ∧
        Quiet m (m.acceptBoundaryConversion key status learning now).1) ∨
      ∃ pending request wire index, m.boundaryRequest = some pending ∧ pending.conversion = some request ∧
        request.key = key ∧ key.conversionRevision = m.revision ∧ status = .ready wire ∧
        ((m.clauses.drop index).take request.clauses.length).map clauseRange = request.clauses ∧
        (∀ clause, m.clauses[index]? = some clause → clause.id = key.clauseId) ∧
        index < m.clauses.length ∧
        Converted m (m.acceptBoundaryConversion key status learning now).1 learning wire := by
  unfold acceptBoundaryConversion
  split
  · exact .inl ⟨rfl, Quiet.refl m⟩
  rename_i pending issued
  split
  · exact .inl ⟨rfl, Quiet.refl m⟩
  rename_i request conversion
  split
  · exact .inl ⟨rfl, Quiet.refl m⟩
  rename_i admitted
  simp only [Bool.or_eq_true, decide_eq_true_eq, not_or, ne_eq, not_not] at admitted
  split
  · exact .inl ⟨rfl, closeWindow_quiet m⟩
  split
  · exact .inl ⟨rfl, Quiet.refl m⟩
  · exact .inl ⟨rfl, closeWindow_quiet m⟩
  rename_i wire
  dsimp only
  split
  · exact .inl ⟨rfl, closeWindow_quiet m⟩
  rename_i found
  split
  · exact .inl ⟨rfl, closeWindow_quiet m⟩
  rename_i revision added
  split
  · exact .inl ⟨rfl, closeWindow_quiet m⟩
  rename_i agreed
  simp only [Bool.or_eq_true, Bool.not_eq_true', decide_eq_true_eq, not_or, Bool.not_eq_false,
    Bool.and_eq_true, ne_eq, not_not] at agreed
  obtain ⟨⟨passed, _⟩, ranges⟩ := agreed
  have result : request.validateResult wire = .ok () := by
    cases checked : request.validateResult wire with
    | error _ => simp [checked, Except.isOk, Except.toBool] at passed
    | ok => rfl
  obtain ⟨_, wireRanges, start, stop, text, valid⟩ := validateResult_ok result
  have valid := (validateClauses_ok_iff.mp valid).2.2.2.2.2.2.2.2
  have inside : m.clauses.findIdx (fun clause => decide (clause.id = key.clauseId)) < m.clauses.length := by
    have bound : m.clauses.findIdx (fun clause => decide (clause.id = key.clauseId)) ≤ m.clauses.length :=
      List.findIdx_le_length
    omega
  generalize place : m.clauses.findIdx (fun clause => decide (clause.id = key.clauseId)) = index at *
  have identified : ∀ clause, m.clauses[index]? = some clause → clause.id = key.clauseId := by
    intro clause atIndex
    rw [← place] at atIndex
    simpa using List.findIdx_of_getElem?_eq_some atIndex
  refine .inr ⟨pending, request, wire, index, issued, conversion, admitted.1.1.1.1, admitted.1.2, rfl, ranges,
    identified, inside, ?_⟩
  -- The request describes the present reading, so its validated slices are the model's.
  have reading : m.Sound → request.reading = m.reading := by
    intro sound
    have timely := sound.boundary pending issued
    obtain ⟨sameKey, sameReading, _⟩ := timely.conversion request conversion
    rw [sameReading]
    refine (timely.carries ?_).1
    rw [← sameKey, admitted.1.1.1.1, admitted.1.2]
  have revised := u64CheckedAdd_eq_some added
  have taken : ((m.clauses.drop index).take wire.length).map clauseRange = wire.map WireClause.range := by
    have counted := congrArg List.length wireRanges
    rw [List.length_map] at counted
    rw [counted, wireRanges, ranges]
  by_cases same : m.learningIdentity = learning
  · rw [if_neg (by simpa using same)]
    exact converted_of_base rfl rfl (fun formed => formed) same (.inr ⟨rfl, same⟩)
      (fun token member => ⟨member, same⟩) (by omega) taken valid reading
  · rw [if_pos (by simpa using same)]
    have forgotten := invalidateLearning_forgotten m
    refine converted_of_base rfl rfl
      (fun formed => (forgotten.formed formed).congr rfl rfl rfl (fun _ inside => inside)) rfl (.inl rfl)
      ?_ (by omega) ?_ valid reading
    · intro token member
      obtain ⟨clause, inClauses, found⟩ := List.mem_filterMap.mp member
      obtain ⟨old, _, rfl⟩ := List.mem_map.mp inClauses
      rw [SurfaceSource.token_retire] at found
      cases found
    · simp only [invalidateLearning]
      rw [← List.map_drop, ← List.map_take, List.map_map]
      exact taken

end Conversion

section Candidates

variable [EngineToken τ] {m m' : ClauseConversion τ}

/-- An anchored list holds the delivered candidates and perhaps what the clause already shows. -/
theorem mem_anchorCandidates {id : Nat} {candidates : List (ClauseCandidate τ)}
    {candidate : ClauseCandidate τ} (member : candidate ∈ m.anchorCandidates id candidates) :
    candidate ∈ candidates ∨ ∃ clause ∈ m.clauses, clause.id = id ∧
      candidate.readingStart = clause.start ∧ candidate.readingEnd = clause.stop ∧
      (candidate.token = EngineToken.empty ∨ clause.source.token = some candidate.token) := by
  unfold anchorCandidates at member
  split at member
  · exact .inl member
  rename_i clause found
  split at member
  · exact .inl member
  rcases List.mem_cons.mp member with rfl | later
  · cases shown : candidates.find? (shows clause) with
    | some anchor => exact .inl (List.mem_of_find?_eq_some shown)
    | none =>
      refine .inr ⟨clause, List.mem_of_find?_eq_some found, by simpa using List.find?_some found,
        rfl, rfl, ?_⟩
      cases source : clause.source with
      | candidate token chosen => exact .inr rfl
      | reading => exact .inl rfl
      | localSurface => exact .inl rfl
  · exact .inl (List.mem_of_mem_eraseP (List.mem_of_mem_filter later))

/-- Anchoring never empties a list. -/
theorem anchorCandidates_ne_nil {id : Nat} {candidates : List (ClauseCandidate τ)}
    (nonempty : candidates ≠ []) : m.anchorCandidates id candidates ≠ [] := by
  unfold anchorCandidates
  split
  · exact nonempty
  · split
    · exact nonempty
    · exact List.cons_ne_nil _ _

/-- An anchored reply covers legal parts of the interval it was requested for. -/
theorem anchorCandidates_legal (sound : m.Sound) {request : ClauseCandidatesRequest}
    {candidates : List (ClauseCandidate τ)} (carries : m.Carries request)
    (passed : request.validateCandidates candidates = .ok ()) (preceding : List PrecedingSurface) :
    CachedCandidates.Legal m.reading
      { start := request.readingStart, stop := request.readingEnd, preceding := preceding
        candidates := m.anchorCandidates request.key.clauseId candidates } := by
  obtain ⟨_, nonempty, valid⟩ := validateCandidates_ok passed
  obtain ⟨reading, index, clause, atIndex, range, _⟩ := carries
  have inClauses := List.mem_of_getElem? atIndex
  have bounds := sound.formed.bounds inClauses
  have id : clause.id = request.key.clauseId := congrArg ClauseRange.id range
  have start : clause.start = request.readingStart := congrArg ClauseRange.readingStart range
  have stop : clause.stop = request.readingEnd := congrArg ClauseRange.readingEnd range
  -- A delivered candidate passed the check, and an anchor is the clause itself.
  have covered : ∀ candidate ∈ m.anchorCandidates request.key.clauseId candidates,
      request.readingStart < candidate.readingEnd ∧ candidate.readingEnd ≤ request.readingEnd ∧
        LegalBoundary m.reading candidate.readingEnd := by
    intro candidate member
    rcases mem_anchorCandidates member with delivered | ⟨anchor, present, same, _, edge, _⟩
    · have := valid candidate delivered
      exact ⟨this.nonempty, this.within, reading ▸ this.legal⟩
    · have equal := sound.formed.eq_of_id present inClauses (same.trans id.symm)
      subst equal
      rw [edge, ← start, ← stop]
      exact ⟨bounds.1, le_rfl, sound.formed.legal_stop present⟩
  exact
    { nonempty := anchorCandidates_ne_nil nonempty
      starts := fun candidate member => (covered candidate member).1
      stops := fun candidate member => (covered candidate member).2.1
      legal := fun candidate member => (covered candidate member).2.2 }

/-- Storing a reply keeps the model sound. -/
theorem Stored.sound {entry : IssuedCandidates} {candidates : List (ClauseCandidate τ)}
    (stored : Stored m m' entry candidates) (sound : m.Sound) : m'.Sound := by
  obtain ⟨place, found⟩ := stored.pending
  have carries := (sound.issued place entry found).carries stored.current
  have legal := anchorCandidates_legal sound carries stored.valid entry.request.precedingSurfaces
  obtain ⟨_, index, clause, atIndex, range, _⟩ := carries
  have id : clause.id = entry.request.key.clauseId := congrArg ClauseRange.id range
  have start : clause.start = entry.request.readingStart := congrArg ClauseRange.readingStart range
  have stop : clause.stop = entry.request.readingEnd := congrArg ClauseRange.readingEnd range
  have inClauses := List.mem_of_getElem? atIndex
  have progress : m.revision < m'.revision ∨ (m'.revision = m.revision ∧ m'.reading = m.reading ∧
      m'.clauses.map precedingSurface = m.clauses.map precedingSurface) :=
    .inr ⟨stored.revision, stored.reading, by rw [stored.clauses]⟩
  have formed : m'.WellFormed := sound.formed.congr stored.reading stored.clauses stored.nextClauseId
    (by rw [stored.selected]; exact fun _ inside => inside)
  -- A list kept now is the new one or was kept before.
  have kept : ∀ id cached, m'.cache.lookup id = some cached →
      (id = clause.id ∧ cached.start = clause.start ∧ cached.stop = clause.stop ∧ cached.Legal m.reading) ∨
        m.cache.lookup id = some cached := by
    intro key cached look
    rw [stored.cache] at look
    rcases Table.lookup_insert_cases look with ⟨rfl, rfl⟩ | ⟨_, old⟩
    · exact .inl ⟨id.symm, start.symm, stop.symm, legal⟩
    · exact .inr old
  have timely : ∀ key other, m'.issued.lookup key = some other → m'.Timely other := fun key other look =>
    (sound.issued key other (stored.issued key other look)).mono progress
  exact
    { formed := formed
      issued := timely
      boundary := fun other look => by
        rw [stored.boundary] at look
        exact (sound.boundary other look).mono progress
      cached := fun key cached look => by
        rw [stored.reading]
        rcases kept key cached look with ⟨_, _, _, good⟩ | old
        · exact good
        · exact sound.cached key cached old
      ready := by
        intro clauseId list selected open'
        rcases stored.window with same | ⟨shownClause, shown, atSelected, sameId, after⟩
        · -- The list that was open before reaches no further than this request's interval.
          rw [same] at open'
          have offers := sound.ready _ _ _ open'
          exact
            { nonempty := offers.nonempty
              present := by rw [stored.clauses]; exact offers.present
              legal := by rw [stored.reading]; exact offers.legal
              cached := by
                intro cached look candidate inList
                rcases kept _ cached look with ⟨rfl, _, edge, _⟩ | old
                · rw [edge, stop]
                  exact offers.issued place entry found id.symm stored.current candidate inList
                · exact offers.cached cached old candidate inList
              issued := fun key other look about current =>
                offers.issued key other (stored.issued key other look) about
                  (current.trans stored.revision) }
        · rw [after, CandidateWindow.ready.injEq] at open'
          obtain ⟨rfl, rfl, _⟩ := open'
          have equal := sound.formed.eq_of_id (List.mem_of_getElem? atSelected) inClauses
            (sameId.trans id.symm)
          subst equal
          refine offers_of_within formed timely (by rw [stored.clauses]; exact inClauses)
            legal.nonempty (start ▸ legal.starts) (stop ▸ legal.stops)
            (by rw [stored.reading]; exact legal.legal) ?_
          intro cached look
          rw [stored.cache, sameId, AList.lookup_insert] at look
          rw [stop, ← Option.some.inj look] }

/-- A validated reply is stored, and then the list may also move once. -/
theorem storeCandidates_cases {key : ClauseRequestKey} {entry : IssuedCandidates}
    {candidates : List (ClauseCandidate τ)} (found : m.issued.lookup key.requestId = some entry)
    (same : entry.request.key = key) (current : m.revision = key.conversionRevision)
    (passed : entry.request.validateCandidates candidates = .ok ()) :
    ∃ mid, Stored m mid entry candidates ∧
      ((m.storeCandidates key entry candidates).1 = mid ∨
        ∃ direction, (m.storeCandidates key entry candidates).1 = (mid.advanceCandidate direction).1) := by
  subst same
  have erased : ∀ id other, (m.issued.erase entry.request.key.requestId).lookup id = some other →
      m.issued.lookup id = some other := fun _ _ look => (Table.lookup_of_lookup_erase look).2
  unfold storeCandidates
  dsimp only
  split
  · rename_i waiting
    simp only [Bool.and_eq_true, selects, Option.any_eq_true, decide_eq_true_eq] at waiting
    obtain ⟨⟨clause, atSelected, id⟩, _⟩ := waiting
    simp only [openReady, atSelected]
    have window : Stored m { m with
        cache := m.cache.insert entry.request.key.clauseId
          { start := entry.request.readingStart
            stop := entry.request.readingEnd
            preceding := entry.request.precedingSurfaces
            candidates := m.anchorCandidates entry.request.key.clauseId candidates }
        issued := m.issued.erase entry.request.key.requestId
        window := .ready clause.id (m.anchorCandidates entry.request.key.clauseId candidates)
          (((m.anchorCandidates entry.request.key.clauseId candidates).findIdx? (shows clause)).getD 0) }
        entry candidates :=
      ⟨rfl, rfl, rfl, rfl, rfl, rfl, rfl, rfl, ⟨_, found⟩, current.symm, passed, erased, AList.lookup_erase _ _,
        rfl, rfl,
        .inr ⟨clause, _, atSelected, id, rfl⟩⟩
    refine ⟨_, window, ?_⟩
    split
    · exact .inr ⟨_, rfl⟩
    · exact .inl rfl
  · refine ⟨_, ?_, .inl rfl⟩
    exact ⟨rfl, rfl, rfl, rfl, rfl, rfl, rfl, rfl, ⟨_, found⟩, current.symm, passed, erased, AList.lookup_erase _ _,
        rfl, rfl,
      .inl rfl⟩

/-- A candidate reply is stored exactly for the pending request it answers, or at most ends one. -/
theorem acceptCandidates_cases (m : ClauseConversion τ) (key : ClauseRequestKey)
    (status : ClauseCandidatesStatus τ) (now : Nat) :
    (m.acceptCandidates key status now).1 = m ∨
      ((m.acceptCandidates key status now).1 = m.endRequest key ∧
        ∃ entry, m.issued.lookup key.requestId = some entry ∧ entry.request.key = key) ∨
      ∃ entry candidates mid, m.issued.lookup key.requestId = some entry ∧ entry.request.key = key ∧
        status = .ready candidates ∧ Stored m mid entry candidates ∧
        ((m.acceptCandidates key status now).1 = mid ∨
          ∃ direction, (m.acceptCandidates key status now).1 = (mid.advanceCandidate direction).1) := by
  unfold acceptCandidates
  split
  · exact .inl rfl
  rename_i entry found
  split
  · exact .inl rfl
  rename_i admitted
  simp only [Bool.or_eq_true, decide_eq_true_eq, not_or, ne_eq, not_not] at admitted
  have ended : ∃ entry, m.issued.lookup key.requestId = some entry ∧ entry.request.key = key :=
    ⟨entry, found, admitted.1.1.1⟩
  split
  · exact .inr (.inl ⟨rfl, ended⟩)
  split
  · exact .inr (.inl ⟨rfl, ended⟩)
  · split
    · exact .inr (.inl ⟨rfl, ended⟩)
    · exact .inl rfl
  · rename_i candidates
    split
    · exact .inr (.inl ⟨rfl, ended⟩)
    split
    · exact .inr (.inl ⟨rfl, ended⟩)
    rename_i passed
    have passed : entry.request.validateCandidates candidates = .ok () := by
      cases checked : entry.request.validateCandidates candidates with
      | error _ => simp [checked, Except.isOk, Except.toBool] at passed
      | ok => rfl
    obtain ⟨mid, stored, result⟩ := storeCandidates_cases found admitted.1.1.1 admitted.2 passed
    exact .inr (.inr ⟨entry, candidates, mid, found, admitted.1.1.1, rfl, stored, result⟩)

/-- The model a reply under a new learning identity is accepted into: tokens are retired, and only
the answered request and its window stay. -/
def underIdentity (m : ClauseConversion τ) (key : ClauseRequestKey) (entry : IssuedCandidates)
    (identity : EngineLearningIdentity) : ClauseConversion τ :=
  let fresh := { m.invalidateLearning with learningIdentity := some identity }
  let fresh := { fresh with issued := fresh.issued.insert key.requestId entry }
  if m.window.loadingKey = some key then { fresh with window := .loading key } else fresh

omit [EngineToken τ] in
/-- Preparing for a new identity forgets the tokens of the old one. -/
theorem underIdentity_forgotten {key : ClauseRequestKey} {entry : IssuedCandidates}
    (identity : EngineLearningIdentity) (found : m.issued.lookup key.requestId = some entry) :
    Forgotten m (m.underIdentity key entry identity) := by
  have kept : ∀ id other, ((∅ : Table Nat IssuedCandidates).insert key.requestId entry).lookup id = some other →
      m.issued.lookup id = some other := by
    intro id other look
    rcases Table.lookup_insert_cases look with ⟨rfl, rfl⟩ | ⟨_, old⟩
    · exact found
    · exact (lookup_empty_ne_some old).elim
  unfold underIdentity
  dsimp only
  split
  · rename_i loading
    cases window : m.window with
    | closed => rw [window] at loading; cases loading
    | ready clause candidates selected => rw [window] at loading; cases loading
    | loading waiting =>
      rw [window] at loading
      obtain rfl := Option.some.inj loading
      exact { invalidateLearning_forgotten m with
        issued := kept, window := .inr ⟨window.symm, by rw [window]; rfl⟩ }
  · exact { invalidateLearning_forgotten m with issued := kept }

/-- A reply with an identity is accepted as such, after the old identity's tokens are retired where
the two differ, or at most ends a request. -/
theorem acceptCandidatesWithIdentity_cases (m : ClauseConversion τ) (key : ClauseRequestKey)
    (status : ClauseCandidatesStatus τ) (identity : Option EngineLearningIdentity) (now : Nat) :
    (m.acceptCandidatesWithIdentity key status identity now).1 = m ∨
      ((m.acceptCandidatesWithIdentity key status identity now).1 = m.endRequest key ∧
        ∃ entry, m.issued.lookup key.requestId = some entry ∧
          (entry.request.key = key ∨ entry.conversion.isSome = true)) ∨
      (∃ mid, (mid = m ∨ ∃ entry learning, identity = some learning ∧
          m.issued.lookup key.requestId = some entry ∧ entry.request.key = key ∧
          mid = m.underIdentity key entry learning) ∧
        (∀ candidates, status = .ready candidates →
          identity.isSome = true ∧ mid.learningIdentity = identity) ∧
        (m.acceptCandidatesWithIdentity key status identity now).1 =
          (mid.acceptCandidates key status now).1) := by
  unfold acceptCandidatesWithIdentity
  split
  · rename_i candidates
    split
    · exact .inl rfl
    rename_i entry found
    split
    · rename_i converting
      exact .inr (.inl ⟨rfl, entry, found, .inr converting⟩)
    split
    · exact .inl rfl
    rename_i admitted
    simp only [Bool.or_eq_true, decide_eq_true_eq, not_or, ne_eq, not_not] at admitted
    have ended : ∃ entry, m.issued.lookup key.requestId = some entry ∧
        (entry.request.key = key ∨ entry.conversion.isSome = true) :=
      ⟨entry, found, .inl admitted.1.1.1⟩
    split
    · exact .inr (.inl ⟨rfl, ended⟩)
    split
    · exact .inr (.inl ⟨rfl, ended⟩)
    rename_i learning
    split
    · exact .inr (.inl ⟨rfl, ended⟩)
    split
    · refine .inr (.inr ⟨m.underIdentity key entry learning,
        .inr ⟨entry, learning, rfl, found, admitted.1.1.1, rfl⟩, fun _ _ => ⟨rfl, ?_⟩, rfl⟩)
      unfold underIdentity
      dsimp only
      split <;> rfl
    · rename_i same
      simp only [ne_eq, not_not] at same
      exact .inr (.inr ⟨m, .inl rfl, fun _ _ => ⟨rfl, same⟩, rfl⟩)
  · rename_i notReady
    exact .inr (.inr ⟨m, .inl rfl, fun candidates ready => absurd ready (notReady candidates), rfl⟩)

end Candidates

section Rebaseline

/-- The model right after the pending request was asked again, before the old tokens are retired. -/
def reasked (m : ClauseConversion τ) (attempt : ClauseRebaseline) (request : ConvertClausesRequest) :
    ClauseConversion τ :=
  { m with
    boundaryRequest := if attempt.boundary then some (renewed attempt request) else m.boundaryRequest
    issued :=
      if attempt.boundary then m.issued else m.issued.insert request.key.requestId (renewed attempt request)
    window := .loading request.key }

/-- Asking the pending request again under a new key issues it. -/
theorem reasked_asked {m : ClauseConversion τ} {attempt : ClauseRebaseline}
    {request : ConvertClausesRequest} (clause : request.key.clauseId = attempt.original.request.key.clauseId)
    (revision : request.key.conversionRevision = m.revision)
    (reading : request.reading = attempt.original.request.reading)
    (preceding : request.precedingSurfaces = attempt.original.request.precedingSurfaces)
    (carries : m.Sound → m.Carries attempt.original.request) :
    Asked m (m.reasked attempt request) (renewed attempt request) where
  reading := rfl
  clauses := rfl
  revision := le_rfl
  nextClauseId := rfl
  learning := rfl
  sentence := rfl
  selected := rfl
  current := revision
  carries := fun sound => by
    obtain ⟨same, index, found, atIndex, range, before⟩ := carries sound
    exact ⟨same, index, found, atIndex, by rw [range, ← clause]; rfl, before⟩
  conversion := fun _ same => by cases same; exact ⟨rfl, reading, preceding⟩
  issued := fun id other look => by
    unfold reasked at look
    dsimp only at look
    split at look
    · exact .inr look
    · rcases Table.lookup_insert_cases look with ⟨same, new⟩ | ⟨_, old⟩
      · exact .inl ⟨same, new⟩
      · exact .inr old
  boundary := fun other look => by
    unfold reasked at look
    dsimp only at look
    split at look
    · exact .inl (Option.some.inj look).symm
    · exact .inr look
  once := by
    unfold reasked
    cases attempt.boundary with
    | true => exact .inr rfl
    | false => exact .inl rfl
  cache := fun _ _ found => found
  window := rfl

/-- What the new baseline retires, besides the tokens, is every other request. -/
theorem rebased_forgotten (m : ClauseConversion τ) (attempt : ClauseRebaseline)
    (request : ConvertClausesRequest) (learning : EngineLearningIdentity) :
    Forgotten (m.reasked attempt request) (m.rebased attempt request learning) := by
  unfold rebased reasked
  cases attempt.boundary with
  | true =>
    exact
      { reading := rfl, clauses := rfl, revision := rfl, nextClauseId := rfl, selected := rfl
        sentence := rfl, lastRequestId := rfl, cache := rfl
        issued := fun _ _ found => (lookup_empty_ne_some found).elim
        boundary := fun _ found => found
        window := .inr ⟨rfl, rfl⟩ }
  | false =>
    exact
      { reading := rfl, clauses := rfl, revision := rfl, nextClauseId := rfl, selected := rfl
        sentence := rfl, lastRequestId := rfl, cache := rfl
        issued := fun id other found => by
          rcases Table.lookup_insert_cases found with ⟨rfl, rfl⟩ | ⟨_, old⟩
          · exact AList.lookup_insert _
          · exact (lookup_empty_ne_some old).elim
        boundary := fun _ absurdity => by cases absurdity
        window := .inr ⟨rfl, rfl⟩ }

/-- Under a new baseline only the pending request of the rebaseline is left. -/
theorem rebased_outstanding (m : ClauseConversion τ) (attempt : ClauseRebaseline)
    (request : ConvertClausesRequest) (learning : EngineLearningIdentity) :
    (∀ id other, (m.rebased attempt request learning).issued.lookup id = some other →
      id = request.key.requestId ∧ other = renewed attempt request) ∧
      ∀ other, (m.rebased attempt request learning).boundaryRequest = some other →
        other = renewed attempt request := by
  unfold rebased
  cases attempt.boundary with
  | true =>
    exact ⟨fun _ _ found => (lookup_empty_ne_some found).elim, fun _ found => (Option.some.inj found).symm⟩
  | false =>
    refine ⟨fun id other found => ?_, fun _ absurdity => by cases absurdity⟩
    rcases Table.lookup_insert_cases found with new | ⟨_, old⟩
    · exact new
    · exact (lookup_empty_ne_some old).elim

variable [EngineToken τ]

/-- An accepted rebaseline replaces exactly the pending request it was prepared for, under the id it
reserved. Any other reply leaves the model alone. -/
theorem acceptRebaseline_cases (m : ClauseConversion τ) (attempt : ClauseRebaseline)
    (response : Response τ) (learning : EngineLearningIdentity) (now : Nat) :
    m.acceptRebaseline attempt response learning now = (m, none) ∨
      ∃ request pending,
        (if attempt.boundary then m.boundaryRequest
          else m.issued.lookup attempt.original.request.key.requestId) = some pending ∧
        (pending.request = attempt.original.request ∧ pending.deadline = attempt.original.deadline ∧
          m.window.loadingKey = some attempt.original.request.key) ∧
        request.key.requestId = attempt.convertRequestId ∧
        attempt.original.request.key.conversionRevision = m.revision ∧
        m.lastRequestId = attempt.convertRequestId ∧
        Asked m (m.reasked attempt request) (renewed attempt request) ∧
        m.acceptRebaseline attempt response learning now = (m.rebased attempt request learning, some request) := by
  unfold acceptRebaseline
  dsimp only
  split
  · exact .inl rfl
  rename_i pending found
  split
  · exact .inl rfl
  rename_i admitted
  simp only [Bool.or_eq_true, decide_eq_true_eq, not_or, ne_eq, not_not] at admitted
  split
  · exact .inl rfl
  rename_i identity baseline clauseData text autoCommit
  split
  · exact .inl rfl
  split
  · exact .inl rfl
  rename_i ranges _
  split
  · exact .inl rfl
  obtain ⟨⟨⟨⟨⟨⟨⟨⟨⟨⟨⟨⟨request, deadline⟩, _⟩, _⟩, _⟩, _⟩, current⟩, reading⟩, window⟩, last⟩, _⟩, _⟩, _⟩ := admitted
  have timely : m.Sound → m.Timely pending := by
    intro sound
    split at found
    · exact sound.boundary pending found
    · exact sound.issued _ pending found
  have carries : m.Sound → m.Carries attempt.original.request := by
    intro sound
    rw [← request]
    exact (timely sound).carries (by rw [request, current])
  exact .inr ⟨_, pending, found, ⟨request, deadline, window⟩, rfl, current.symm, last,
    reasked_asked rfl current.symm reading rfl carries, rfl⟩

/-- An accepted rebased conversion asks for the candidates again, under a new id and revision. -/
theorem acceptRebasedConversion_cases (m : ClauseConversion τ) (key : ClauseRequestKey)
    (status : ConvertClausesStatus τ) (learning : Option EngineLearningIdentity)
    (candidateRequestId now : Nat) :
    m.acceptRebasedConversion key status learning candidateRequestId now = (m, none) ∨
      ∃ pending conversion, m.issued.lookup key.requestId = some pending ∧
        pending.conversion = some conversion ∧ conversion.key = key ∧ key.conversionRevision = m.revision ∧
        (m.acceptRebasedConversion key status learning candidateRequestId now = (m.endRequest key, none) ∨
          ∃ entry, (entry.request.key.requestId = candidateRequestId ∧ entry.deadline = pending.deadline ∧
              entry.rebaselineUsed = pending.rebaselineUsed ∧ m.window.loadingKey = some key ∧
              (m.acceptRebasedConversion key status learning candidateRequestId now).2 = some entry.request) ∧
            m.lastRequestId < candidateRequestId ∧
            (m.acceptRebasedConversion key status learning candidateRequestId now).1.lastRequestId =
              candidateRequestId ∧
            (m.acceptRebasedConversion key status learning candidateRequestId now).1.boundaryRequest =
              m.boundaryRequest ∧
            (m.acceptRebasedConversion key status learning candidateRequestId now).1.issued =
              (m.issued.erase key.requestId).insert candidateRequestId entry ∧
            Asked m (m.acceptRebasedConversion key status learning candidateRequestId now).1 entry) := by
  unfold acceptRebasedConversion
  split
  · exact .inl rfl
  rename_i pending found
  split
  · exact .inl rfl
  rename_i conversion converting
  split
  · exact .inl rfl
  rename_i admitted
  simp only [Bool.or_eq_true, decide_eq_true_eq, not_or, ne_eq, not_not] at admitted
  dsimp only
  split
  · exact .inl rfl
  all_goals
    refine .inr ⟨pending, conversion, found, converting, admitted.1.1.1.1.1, admitted.1.1.2.symm, ?_⟩
  · exact .inl rfl
  split
  · exact .inl rfl
  rename_i revision added
  split
  · exact .inl rfl
  rename_i agreed
  simp only [Bool.or_eq_true, Bool.not_eq_true', not_or, Bool.not_eq_false, Bool.and_eq_true,
    decide_eq_true_eq] at agreed
  have revised := u64CheckedAdd_eq_some added
  refine .inr ⟨{ pending with
    conversion := none
    request := { pending.request with
      key := { key with conversionRevision := revision, requestId := candidateRequestId } } },
    ⟨rfl, rfl, rfl, admitted.1.2, rfl⟩, agreed.1.1.1.2, rfl, rfl, rfl, ?_⟩
  exact
    { reading := rfl, clauses := rfl, revision := by dsimp only; omega, nextClauseId := rfl
      learning := rfl, sentence := rfl, selected := rfl, current := rfl
      carries := fun sound => by
        have timely := sound.issued _ pending found
        have sameKey : pending.request.key = key :=
          (timely.conversion conversion converting).1.symm.trans admitted.1.1.1.1.1
        obtain ⟨same, index, clause, atIndex, range, before⟩ :=
          timely.carries (by rw [sameKey, admitted.1.1.2])
        exact ⟨same, index, clause, atIndex, by rw [range, sameKey], before⟩
      conversion := fun _ absurdity => by cases absurdity
      issued := fun id other look => by
        rcases Table.lookup_insert_cases look with ⟨same, new⟩ | ⟨_, old⟩
        · exact .inl ⟨same, new⟩
        · exact .inr (Table.lookup_of_lookup_erase old).2
      boundary := fun _ found => .inr found
      once := .inl rfl
      cache := fun _ _ found => found
      window := rfl }

end Rebaseline

end ClauseConversion

end Nospacekey
