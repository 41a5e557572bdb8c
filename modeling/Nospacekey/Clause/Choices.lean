import Nospacekey.Clause.Atomicity

/-! Choices from one open list only depend on the last of them. -/

namespace Nospacekey

open Runs Tiling

variable {τ : Type}

namespace ClauseConversion

/-- The interval of an open list: the selected clause, and behind it at most one reading clause with the rest. -/
structure Divided (m : ClauseConversion τ) (id : Nat) (cached : CachedCandidates τ) (before : List (LocalClause τ))
    (c : LocalClause τ) (rest after : List (LocalClause τ)) : Prop where
  place : before.length = m.selected
  clauses : m.clauses = before ++ c :: (rest ++ after)
  same : c.id = id
  start : c.start = cached.start
  whole : c.stop = cached.stop ∧ rest = [] ∨ c.stop < cached.stop ∧
    ∃ r, rest = [r] ∧ r.start = c.stop ∧ r.stop = cached.stop ∧ r.source = .reading

/-- An open list's interval is divided as choices leave it, and what is still asked about its clause is asked about
that interval. -/
def Spread (m : ClauseConversion τ) : Prop :=
  ∀ id candidates shown, m.window = .ready id candidates shown → ∃ cached, m.cache.lookup id = some cached ∧
    (∃ before c rest after, m.Divided id cached before c rest after) ∧
    ∀ key entry, m.issued.lookup key = some entry → entry.request.key.clauseId = id →
      entry.request.key.conversionRevision = m.revision → entry.request.readingEnd = cached.stop

section Division

variable {m m' : ClauseConversion τ}

/-- Without an open list nothing is divided. -/
theorem spread_of_unready (window : m.window.isReady = false) : m.Spread := by
  intro id candidates shown ready
  rw [ready] at window
  cases window

/-- A list that is opened for a clause has the clause's interval. -/
theorem divided_of_selected {c : LocalClause τ} {cached : CachedCandidates τ}
    (atSelected : m.clauses[m.selected]? = some c) (start : cached.start = c.start) (stop : cached.stop = c.stop) :
    m.Divided c.id cached (m.clauses.take m.selected) c [] (m.clauses.drop (m.selected + 1)) where
  place := by
    have inside := (List.getElem?_eq_some_iff.mp atSelected).1
    rw [List.length_take]
    omega
  clauses := by
    obtain ⟨inside, found⟩ := List.getElem?_eq_some_iff.mp atSelected
    rw [List.nil_append, ← found, List.getElem_cons_drop, List.take_append_drop]
  same := rfl
  start := start.symm
  whole := .inl ⟨stop.symm, rfl⟩

/-- What keeps the list open keeps its division, and may only append clauses or withdraw requests. -/
theorem Spread.of_kept (spread : m.Spread) (sound : m.Sound) (window : m'.window = m.window)
    (selected : m'.selected = m.selected) (cache : m'.cache = m.cache)
    (clauses : ∃ more, m'.clauses = m.clauses ++ more) (revision : m.revision ≤ m'.revision)
    (issued : ∀ key entry, m'.issued.lookup key = some entry → m.issued.lookup key = some entry) : m'.Spread := by
  intro id candidates shown ready
  obtain ⟨cached, kept, ⟨before, c, rest, after, divided⟩, asked⟩ := spread id candidates shown (window ▸ ready)
  obtain ⟨more, appended⟩ := clauses
  refine ⟨cached, cache ▸ kept, ⟨before, c, rest, after ++ more, ?_⟩, fun key entry found about current => ?_⟩
  · exact { divided with
      place := divided.place.trans selected.symm
      clauses := by rw [appended, divided.clauses]; simp }
  · have old := issued key entry found
    have timely := (sound.issued key entry old).revision
    exact asked key entry old about (by omega)

/-- An edit that is refused keeps the division. -/
theorem Untouched.spread (untouched : Untouched m m') (spread : m.Spread) (sound : m.Sound) : m'.Spread :=
  spread.of_kept sound untouched.window untouched.selected untouched.cache
    ⟨[], by rw [untouched.clauses, List.append_nil]⟩ untouched.revision.ge
    fun key entry found => by rwa [untouched.issued] at found

/-- An atomic edit keeps the division or closes the list. -/
theorem Atomic.spread {result : ClauseConversion τ × LocalEditOutcome} (atomic : Atomic m result) (spread : m.Spread)
    (sound : m.Sound) : result.1.Spread := by
  rcases atomic with untouched | ⟨closed, _⟩
  · exact untouched.spread spread sound
  · exact spread_of_unready (by rw [closed]; rfl)

/-- The same for an edit that reports whether it was made. -/
theorem AtomicOn.spread {result : ClauseConversion τ × Bool} (atomic : AtomicOn m result) (spread : m.Spread)
    (sound : m.Sound) : result.1.Spread := by
  rcases atomic with untouched | ⟨closed, _⟩
  · exact untouched.spread spread sound
  · exact spread_of_unready (by rw [closed]; rfl)

/-- Forgetting the learning identity never leaves a list open. -/
theorem Forgotten.spread (forgotten : Forgotten m m') : m'.Spread := by
  rcases forgotten.window with closed | ⟨same, unready⟩
  · exact spread_of_unready (by rw [closed]; rfl)
  · exact spread_of_unready (by rw [same]; exact unready)

/-- A promotion keeps an open list, and may only append a clause. -/
theorem promoteLiveDisplay_kept {identity : SnapshotIdentity} {reading text : Text}
    (promoted : m.promoteLiveDisplay identity reading text = some m') :
    m'.window = m.window ∧ m'.selected = m.selected ∧ m'.cache = m.cache ∧
      (∃ more, m'.clauses = m.clauses ++ more) ∧ m.revision ≤ m'.revision ∧ m'.issued = m.issued := by
  unfold promoteLiveDisplay at promoted
  split at promoted
  · cases promoted
  dsimp only at promoted
  split at promoted
  · cases promoted
  split at promoted
  · obtain rfl := (Option.some.inj promoted).symm
    exact ⟨rfl, rfl, rfl, ⟨[], (List.append_nil _).symm⟩, le_rfl, rfl⟩
  obtain ⟨start, _, promoted⟩ := Option.bind_eq_some_iff.mp promoted
  obtain ⟨stop, _, promoted⟩ := Option.bind_eq_some_iff.mp promoted
  obtain ⟨boundaries, _, promoted⟩ := Option.bind_eq_some_iff.mp promoted
  split at promoted
  · cases promoted
  obtain ⟨id, _, promoted⟩ := Option.bind_eq_some_iff.mp promoted
  obtain ⟨next, _, promoted⟩ := Option.bind_eq_some_iff.mp promoted
  obtain ⟨revision, added, promoted⟩ := Option.bind_eq_some_iff.mp promoted
  obtain rfl := (Option.some.inj promoted).symm
  have grows := u64CheckedAdd_eq_some added
  exact ⟨rfl, rfl, rfl, ⟨_, rfl⟩, by dsimp only; omega, rfl⟩

/-- Withdrawing a request keeps the division or closes the list. -/
theorem endRequest_spread (spread : m.Spread) (sound : m.Sound) (key : ClauseRequestKey) : (m.endRequest key).Spread := by
  have erased : ∀ id entry, (m.issued.erase key.requestId).lookup id = some entry → m.issued.lookup id = some entry :=
    fun id entry found => (Table.lookup_of_lookup_erase found).2
  unfold endRequest
  dsimp only
  split
  · exact spread_of_unready rfl
  · exact spread.of_kept sound rfl rfl rfl ⟨[], (List.append_nil _).symm⟩ le_rfl erased

/-- Expiry keeps the division or closes the list. -/
theorem expire_spread (spread : m.Spread) (sound : m.Sound) (now : Nat) : (m.expire now).Spread := by
  have withdrawn : ∀ (keys : List ClauseRequestKey) (m : ClauseConversion τ), m.Spread → m.Sound →
      (keys.foldl endRequest m).Spread := by
    intro keys
    induction keys with
    | nil => exact fun m spread _ => spread
    | cons key rest ih =>
      exact fun m spread sound => ih _ (endRequest_spread spread sound key) ((endRequest_quiet m key).sound sound)
  unfold expire
  dsimp only
  split
  · exact withdrawn _ _ (spread_of_unready rfl) ((closeWindow_quiet m).sound sound)
  · exact withdrawn _ _ spread sound

end Division

section Choice

variable [EngineToken τ] {m m' : ClauseConversion τ} {index id beyond : Nat} {candidates : List (ClauseCandidate τ)}
  {candidate : ClauseCandidate τ} {c c' : LocalClause τ} {cached kept : CachedCandidates τ}
  {before rest after : List (LocalClause τ)}

/-- A choice divides the list's interval anew: its candidate is shown up to where it ends, and the rest is read. -/
theorem ChoiceOf.divided (choice : ChoiceOf m index id candidates candidate c' kept beyond m')
    (divided : m.Divided id cached before c rest after) (found : m.cache.lookup id = some cached)
    (within : candidate.readingEnd ≤ cached.stop) :
    (∃ rest', m'.Divided id cached before (showing c candidate) rest' after) ∧ m'.cache.lookup id = some cached := by
  obtain rfl : kept = cached := Option.some.inj (choice.kept.symm.trans found)
  have selected : m.selected = before.length := divided.place.symm
  obtain rfl : c' = c := by
    have atSelected := choice.atSelected
    rw [divided.clauses, selected, List.getElem?_append_right (le_refl _), Nat.sub_self] at atSelected
    exact (Option.some.inj atSelected).symm
  -- The interval ends with the selected clause, or with the one that holds the rest.
  have last : beyond = rest.length := by
    have reached := choice.reached
    rw [divided.clauses, selected, List.drop_left] at reached
    rcases divided.whole with ⟨ends, rfl⟩ | ⟨apart, r, rfl, _, ends, _⟩
    · rw [List.findIdx?_cons, if_pos (by simpa using ends)] at reached
      exact (Option.some.inj reached).symm
    · rw [List.findIdx?_cons, if_neg (by simpa using apart.ne), List.singleton_append, List.findIdx?_cons,
        if_pos (by simpa using ends)] at reached
      exact (Option.some.inj reached).symm
  obtain ⟨rest', clauses, shape⟩ := choice.clauses
  rw [divided.clauses] at clauses
  have anew : ∃ rest', m'.Divided id kept before (showing c' candidate) rest' after := by
    by_cases unchanged : c'.stop = candidate.readingEnd
    · -- The boundary stays, and so does what is behind it.
      obtain rfl : rest' = [] := by
        rcases shape with plain | ⟨changed, _⟩
        · exact plain.2
        · exact absurd unchanged changed.1
      have spliced : splice (before ++ ([c'] ++ (rest ++ after))) m.selected (m.selected + 1) [showing c' candidate] =
          before ++ ([showing c' candidate] ++ (rest ++ after)) :=
        splice_between before [c'] (rest ++ after) [showing c' candidate] selected (by rw [selected]; rfl)
      rw [if_pos unchanged] at clauses
      refine ⟨rest, divided.place.trans choice.selected.symm, clauses.trans spliced, divided.same, divided.start, ?_⟩
      show candidate.readingEnd = kept.stop ∧ _ ∨ candidate.readingEnd < kept.stop ∧ ∃ r, _ ∧ _ = candidate.readingEnd ∧ _
      rw [← unchanged]
      exact divided.whole
    · have spliced : splice (before ++ ((c' :: rest) ++ after)) m.selected (m.selected + rest.length + 1)
          (showing c' candidate :: rest') = before ++ ((showing c' candidate :: rest') ++ after) :=
        splice_between before (c' :: rest) after (showing c' candidate :: rest') selected
          (by rw [selected, List.length_cons]; omega)
      rw [if_neg unchanged, last] at clauses
      refine ⟨rest', divided.place.trans choice.selected.symm, clauses.trans spliced, divided.same, divided.start, ?_⟩
      rcases shape with ⟨reaches, rfl⟩ | ⟨⟨_, shorter⟩, next, rfl⟩
      · refine .inl ⟨le_antisymm within ?_, rfl⟩
        by_contra shorter
        exact reaches ⟨unchanged, Nat.not_le.mp shorter⟩
      · exact .inr ⟨shorter, _, rfl, rfl, rfl, rfl⟩
  refine ⟨anew, ?_⟩
  -- The list's clause stays the selected one, so what is kept for it stays too.
  obtain ⟨rest', divided'⟩ := anew
  have listed : id ∈ (m'.clauses.take (m.selected + 1)).map LocalClause.id := by
    refine List.mem_map.mpr ⟨showing c' candidate, ?_, divided'.same⟩
    rw [divided'.clauses, selected]
    simp [List.take_append]
  rw [choice.cache, Table.lookup_retain, if_pos (by simpa using listed), found]

/-- A choice keeps the division of the interval that it chooses in. -/
theorem ChoiceOf.spread (choice : ChoiceOf m index id candidates candidate c' kept beyond m') (spread : m.Spread)
    (sound : m.Sound) : m'.Spread := by
  intro other list shown ready
  rw [choice.window, CandidateWindow.ready.injEq] at ready
  obtain ⟨rfl, rfl, rfl⟩ := ready
  obtain ⟨shown, window⟩ := choice.open'
  obtain ⟨cached, found, ⟨before, c, rest, after, divided⟩, _⟩ := spread _ _ _ window
  have within := (sound.ready _ _ _ window).cached cached found candidate (List.mem_of_getElem? choice.inList)
  obtain ⟨⟨rest', anew⟩, found'⟩ := choice.divided divided found within
  refine ⟨cached, found', ⟨before, _, rest', after, anew⟩, fun key entry asked => ?_⟩
  rw [choice.issued] at asked
  exact (lookup_empty_ne_some asked).elim

/-- Choosing keeps the division. -/
theorem selectCandidate_spread (spread : m.Spread) (sound : m.Sound) (index : Nat) :
    (m.selectCandidate index).1.Spread := by
  rcases selectCandidate_result m index with same | ⟨_, id, candidates, candidate, c, cached, beyond, choice⟩
  · rw [same]
    exact (clearCancelStage_untouched m).spread spread sound
  · exact choice.spread spread sound

/-- Cycling keeps the division. -/
theorem advanceCandidate_spread (spread : m.Spread) (sound : m.Sound) (direction : Int) :
    (m.advanceCandidate direction).1.Spread := by
  unfold advanceCandidate
  split
  · exact selectCandidate_spread spread sound _
  · exact spread

omit [EngineToken τ] in
/-- A request of the present revision about the selected clause asks for the clause's interval. -/
theorem readingEnd_of_current (sound : m.Sound) {c : LocalClause τ} (member : c ∈ m.clauses) {key : Nat}
    {entry : IssuedCandidates} (found : m.issued.lookup key = some entry) (about : entry.request.key.clauseId = c.id)
    (current : entry.request.key.conversionRevision = m.revision) :
    entry.request.readingStart = c.start ∧ entry.request.readingEnd = c.stop := by
  obtain ⟨_, index, other, atIndex, range, _⟩ := (sound.issued key entry found).carries current
  have same : other.id = c.id := (congrArg ClauseRange.id range).trans about
  obtain rfl := sound.formed.eq_of_id (List.mem_of_getElem? atIndex) member same
  exact ⟨(congrArg ClauseRange.readingStart range).symm, (congrArg ClauseRange.readingEnd range).symm⟩

omit [EngineToken τ] in
/-- A kept list is shown for the whole of its clause. -/
theorem Listed.spread {cached : CachedCandidates τ} (listed : Listed m m' cached) (sound : m.Sound) : m'.Spread := by
  intro id candidates shown ready
  obtain ⟨c, shown', atSelected, found, start, stop, window⟩ := listed.window
  rw [window, CandidateWindow.ready.injEq] at ready
  obtain ⟨rfl, rfl, rfl⟩ := ready
  have atSelected' : m'.clauses[m'.selected]? = some c := by rwa [listed.clauses, listed.selected]
  refine ⟨cached, listed.cache ▸ found, ⟨_, c, [], _, divided_of_selected atSelected' start stop⟩,
    fun key entry asked about current => ?_⟩
  rw [listed.issued] at asked
  rw [listed.revision] at current
  rw [(readingEnd_of_current sound (List.mem_of_getElem? atSelected) asked about current).2, stop]

/-- A stored reply is about the interval of the list that is open or that it opens. -/
theorem Stored.spread {entry : IssuedCandidates} {candidates : List (ClauseCandidate τ)}
    (stored : Stored m m' entry candidates) (spread : m.Spread) (sound : m.Sound) : m'.Spread := by
  obtain ⟨place, pending⟩ := stored.pending
  intro id list shown ready
  rcases stored.window with same | ⟨c, shown', atSelected, about, window⟩
  · obtain ⟨cached, found, ⟨before, c, rest, after, divided⟩, asked⟩ := spread id list shown (same ▸ ready)
    have onward : ∀ key other, m'.issued.lookup key = some other → other.request.key.clauseId = id →
        other.request.key.conversionRevision = m'.revision → other.request.readingEnd = cached.stop :=
      fun key other found about current =>
        asked key other (stored.issued key other found) about (current.trans stored.revision)
    by_cases about : entry.request.key.clauseId = id
    · -- The reply's list is kept in place of the old one, for the same interval.
      have stop := asked place entry pending about stored.current
      have start : entry.request.readingStart = c.start := by
        have member : c ∈ m.clauses := by rw [divided.clauses]; simp
        exact (readingEnd_of_current sound member pending (about.trans divided.same.symm) stored.current).1
      refine ⟨_, by rw [stored.cache, about, AList.lookup_insert], ⟨before, c, rest, after, { divided with
        place := divided.place.trans stored.selected.symm
        clauses := stored.clauses.trans divided.clauses
        start := start.symm
        whole := ?_ }⟩, fun key other found about current => ?_⟩
      · have whole := divided.whole
        rw [← stop] at whole
        exact whole
      · rw [onward key other found about current]
        exact stop.symm
    · refine ⟨cached, ?_, ⟨before, c, rest, after, { divided with
        place := divided.place.trans stored.selected.symm
        clauses := stored.clauses.trans divided.clauses }⟩, onward⟩
      rw [stored.cache, AList.lookup_insert_ne (Ne.symm about), found]
  · rw [window, CandidateWindow.ready.injEq] at ready
    obtain ⟨rfl, rfl, rfl⟩ := ready
    have member := List.mem_of_getElem? atSelected
    obtain ⟨start, stop⟩ := readingEnd_of_current sound member pending about.symm stored.current
    have atSelected' : m'.clauses[m'.selected]? = some c := by rwa [stored.clauses, stored.selected]
    refine ⟨_, by rw [stored.cache, about, AList.lookup_insert], ⟨_, c, [], _, divided_of_selected atSelected' start stop⟩,
      fun key other asked also current => ?_⟩
    rw [stored.revision] at current
    rw [(readingEnd_of_current sound member (stored.issued key other asked) also current).2]
    exact stop.symm

/-- A candidate reply keeps the division. -/
theorem acceptCandidates_spread (spread : m.Spread) (sound : m.Sound) (key : ClauseRequestKey)
    (status : ClauseCandidatesStatus τ) (now : Nat) : (m.acceptCandidates key status now).1.Spread := by
  rcases acceptCandidates_cases m key status now with same | ⟨ended, _⟩ | stored
  · rw [same]
    exact spread
  · rw [ended]
    exact endRequest_spread spread sound key
  · obtain ⟨entry, candidates, mid, _, _, _, stored, result⟩ := stored
    rcases result with result | ⟨direction, result⟩ <;> rw [result]
    · exact stored.spread spread sound
    · exact advanceCandidate_spread (stored.spread spread sound) (stored.sound sound) direction

omit [EngineToken τ] in
/-- Opening a list keeps the division. -/
theorem openCandidates_spread (spread : m.Spread) (sound : m.Sound) (requestId now : Nat) :
    (m.openCandidates requestId now).1.Spread := by
  rcases openCandidates_cases m requestId now with ⟨_, quiet | ⟨_, listed⟩⟩ | ⟨entry, _, _, _, _, _, _, _, asked⟩
  · cases window : m.window with
    | ready id candidates shown =>
      -- A list that is open is left alone.
      have same : m.openCandidates requestId now = (m, none) := by
        unfold openCandidates
        simp [window, CandidateWindow.isClosed]
      rw [same]
      exact spread
    | _ =>
      refine spread_of_unready ?_
      rcases quiet.window with same | closed
      · rw [same, window]
        rfl
      · rw [closed]
        rfl
  · exact listed.spread sound
  · exact spread_of_unready (by rw [asked.window]; rfl)

/-- Opening a list and moving once keeps the division. -/
theorem cycleCandidate_spread (spread : m.Spread) (sound : m.Sound) (requestId : Nat) (direction : Int) (now : Nat) :
    (m.cycleCandidate requestId direction now).1.Spread := by
  have opened := openCandidates_spread spread sound requestId now
  have sound' : (m.openCandidates requestId now).1.Sound :=
    apply_sound .scalars sound (.openCandidates requestId now)
  rcases openCandidates_cases m requestId now with ⟨silent, _⟩ | ⟨entry, sent, _, _, _, _, _, _, asked⟩
  · unfold cycleCandidate
    split
    · exact advanceCandidate_spread spread sound direction
    generalize m.openCandidates requestId now = result at *
    obtain ⟨m', request⟩ := result
    dsimp only at silent opened sound'
    subst silent
    dsimp only
    split
    · exact advanceCandidate_spread opened sound' direction
    · exact opened
  · unfold cycleCandidate
    split
    · exact advanceCandidate_spread spread sound direction
    have window := asked.window
    generalize m.openCandidates requestId now = result at *
    obtain ⟨m', request⟩ := result
    dsimp only at sent window
    subst sent
    dsimp only
    split <;> exact spread_of_unready (by dsimp only; rw [window]; rfl)

/-- Every operation keeps the division. -/
theorem apply_spread (segmentation : Segmentation) (spread : m.Spread) (sound : m.Sound) (op : ClauseOp τ) :
    (m.apply segmentation op).Spread := by
  have appended : ∀ m : ClauseConversion τ, ∃ more, m.clauses = m.clauses ++ more :=
    fun m => ⟨[], (List.append_nil _).symm⟩
  cases op with
  | promoteLiveDisplay identity reading text =>
    simp only [apply]
    cases promoted : m.promoteLiveDisplay identity reading text with
    | none => exact spread
    | some m' =>
      obtain ⟨window, selected, cache, clauses, revision, issued⟩ := promoteLiveDisplay_kept promoted
      exact spread.of_kept sound window selected cache clauses revision fun _ _ found => issued ▸ found
  | beginReadingEdit index => exact (beginReadingEdit_atomic m index).spread spread sound
  | replaceEditedReading reading readingRevision =>
    exact (replaceEditedReading_atomic m reading readingRevision).spread spread sound
  | deleteDisplayTail => exact (deleteDisplayTail_atomic segmentation m).spread spread sound
  | escape => exact (escape_atomic m).spread spread sound
  | resizeSelected direction => exact (resizeSelected_atomic m direction).spread spread sound
  | openBoundaryConversion requestId now =>
    simp only [apply]
    rcases openBoundaryConversion_cases m requestId now with ⟨_, same⟩ | ⟨entry, _, _, _, _, _, _, _, _, asked⟩
    · rw [same]
      exact spread
    · exact spread_of_unready (by rw [asked.window]; rfl)
  | acceptBoundaryConversion key status learning now =>
    simp only [apply]
    unfold acceptBoundaryConversion
    split
    · exact spread
    split
    · exact spread
    split
    · exact spread
    split
    · exact spread_of_unready rfl
    split
    · exact spread
    · exact spread_of_unready rfl
    dsimp only
    split
    · exact spread_of_unready rfl
    split
    · exact spread_of_unready rfl
    split
    · exact spread_of_unready rfl
    · exact spread_of_unready rfl
  | prepareRebaseline key snapshotRequestId convertRequestId now =>
    simp only [apply]
    unfold prepareRebaseline
    dsimp only
    split
    · exact spread
    split
    · exact spread
    split
    · exact spread
    · exact spread.of_kept sound rfl rfl rfl (appended m) le_rfl fun _ _ found => found
  | acceptRebaseline attempt response learning now =>
    simp only [apply]
    rcases acceptRebaseline_cases m attempt response learning now with same | ⟨request, _, _, _, _, _, _, _, result⟩
    · rw [same]
      exact spread
    · rw [result]
      exact spread_of_unready rfl
  | acceptRebasedConversion key status learning candidateRequestId now =>
    simp only [apply]
    rcases acceptRebasedConversion_cases m key status learning candidateRequestId now with same |
      ⟨_, _, _, _, _, _, ended | ⟨entry, _, _, _, _, _, asked⟩⟩
    · rw [same]
      exact spread
    · rw [ended]
      exact endRequest_spread spread sound key
    · exact spread_of_unready (by rw [asked.window]; rfl)
  | replaceWholeSurface surface => exact (replaceWholeSurface_atomic m surface).spread spread sound
  | transformKana start stop kind => exact (transformNotation_atomic m start stop kind none).spread spread sound
  | transformNotation start stop kind original =>
    exact (transformNotation_atomic m start stop kind original).spread spread sound
  | invalidateLearning => exact (invalidateLearning_forgotten m).spread
  | refreshLearningIdentity identity =>
    simp only [apply]
    rcases refreshLearningIdentity_cases m identity with same | ⟨forgotten, _⟩
    · rw [same]
      exact spread
    · exact forgotten.spread
  | configuredLearningIdentity identity =>
    simp only [apply]
    rcases configuredLearningIdentity_cases m identity with same | forgotten
    · rw [same]
      exact spread
    · exact forgotten.spread
  | closeWindow => exact spread_of_unready rfl
  | moveClause offset => exact spread_of_unready rfl
  | openCandidates requestId now => exact openCandidates_spread spread sound requestId now
  | cycleCandidate requestId direction now => exact cycleCandidate_spread spread sound requestId direction now
  | acceptCandidates key status now => exact acceptCandidates_spread spread sound key status now
  | acceptCandidatesWithIdentity key status identity now =>
    simp only [apply]
    rcases acceptCandidatesWithIdentity_cases m key status identity now with same | ⟨ended, _⟩ | ⟨mid, under, _, result⟩
    · rw [same]
      exact spread
    · rw [ended]
      exact endRequest_spread spread sound key
    · rw [result]
      rcases under with rfl | ⟨entry, learning, _, found, _, rfl⟩
      · exact acceptCandidates_spread spread sound key status now
      · have forgotten := underIdentity_forgotten learning found
        exact acceptCandidates_spread forgotten.spread (forgotten.sound sound) key status now
  | endRequest key => exact endRequest_spread spread sound key
  | expire now => exact expire_spread spread sound now
  | selectCandidate index => exact selectCandidate_spread spread sound index
  | advanceCandidate direction => exact advanceCandidate_spread spread sound direction
  | resetNotationCycle => exact spread.of_kept sound rfl rfl rfl (appended m) le_rfl fun _ _ found => found

/-- A model that has just been built shows no list. -/
theorem Initial.closed (initial : Initial m) : m.window = .closed := by
  cases initial with
  | @snapshot identity baseline data text m built =>
    unfold fromSnapshot at built
    cases checked : data.validate text with
    | error _ => rw [checked] at built; cases built
    | ok =>
      rw [checked] at built
      obtain rfl := (Except.ok.inj built).symm
      rfl
  | @reading identity reading m built =>
    unfold fromReading at built
    obtain ⟨stop, _, rest⟩ := Option.bind_eq_some_iff.mp built
    split at rest
    · cases rest
    · obtain rfl := (Option.some.inj rest).symm
      rfl

/-- After any operations an open list's interval is divided as choices leave it. -/
theorem run_spread (segmentation : Segmentation) (initial : Initial m) (ops : List (ClauseOp τ)) :
    (exec (apply segmentation) m ops).Spread := by
  have start : m.Sound ∧ m.Spread := ⟨initial.sound, spread_of_unready (by rw [initial.closed]; rfl)⟩
  have preserved : ∀ (m : ClauseConversion τ) op, m.Sound ∧ m.Spread →
      (m.apply segmentation op).Sound ∧ (m.apply segmentation op).Spread :=
    fun m op ⟨sound, spread⟩ => ⟨apply_sound segmentation sound op, apply_spread segmentation spread sound op⟩
  exact (exec_invariant_all _ preserved start ops).2

end Choice

/-- A call that chooses from the open list. -/
inductive CandidateChoice where
  | select (index : Nat)
  | advance (direction : Int)
  deriving DecidableEq, Repr

/-- The index that a call chooses from a list of a length, after another one. -/
def CandidateChoice.index (count shown : Nat) : CandidateChoice → Nat
  | .select index => index
  | .advance direction => ((shown + direction) % count).toNat

/-- The index that calls choose last. -/
def chosenIndex (count shown : Nat) (choices : List CandidateChoice) : Nat :=
  choices.foldl (CandidateChoice.index count) shown

/-- What of a clause the display shows. -/
def view (c : LocalClause τ) : Nat × Nat × Text := (c.start, c.stop, c.surface)

/-- What is behind a candidate in its list's interval: the rest of the reading, untouched. -/
def readRest (reading : Text) (stop : Nat) (candidate : ClauseCandidate τ) : List (Nat × Nat × Text) :=
  if candidate.readingEnd < stop then [(candidate.readingEnd, stop, slice reading candidate.readingEnd stop)] else []

section Choosing

variable [EngineToken τ]

def choose (m : ClauseConversion τ) : CandidateChoice → ClauseConversion τ × Bool
  | .select index => m.selectCandidate index
  | .advance direction => m.advanceCandidate direction

/-- The model after calls that all succeed. -/
def chooseAll (m : ClauseConversion τ) : List CandidateChoice → Option (ClauseConversion τ)
  | [] => some m
  | choice :: rest => if (m.choose choice).2 then (m.choose choice).1.chooseAll rest else none

variable {m m' : ClauseConversion τ} {id shown : Nat} {candidates : List (ClauseCandidate τ)}
  {cached : CachedCandidates τ} {before rest after : List (LocalClause τ)} {c : LocalClause τ}

/-- A call that succeeds chooses its index from the open list. -/
theorem choose_result (window : m.window = .ready id candidates shown) {choice : CandidateChoice}
    (made : (m.choose choice).2 = true) : ∃ candidate c cached beyond,
      ChoiceOf m (choice.index candidates.length shown) id candidates candidate c cached beyond (m.choose choice).1 := by
  have same : m.choose choice = m.selectCandidate (choice.index candidates.length shown) := by
    cases choice with
    | select index => rfl
    | advance direction =>
      show m.advanceCandidate direction = _
      unfold advanceCandidate
      rw [window]
      rfl
  rw [same] at made ⊢
  rcases selectCandidate_result m (choice.index candidates.length shown) with refused | ⟨_, found⟩
  · rw [refused] at made
    cases made
  · obtain ⟨id', candidates', candidate, c, cached, beyond, chosen⟩ := found
    obtain ⟨shown', window'⟩ := chosen.open'
    rw [window, CandidateWindow.ready.injEq] at window'
    obtain ⟨rfl, rfl, _⟩ := window'
    exact ⟨candidate, c, cached, beyond, chosen⟩

/-- Calls that all succeed leave the list open at the index chosen last, and the interval divided for that choice. -/
theorem chooseAll_divided (choices : List CandidateChoice) (sound : m.Sound)
    (window : m.window = .ready id candidates shown) (found : m.cache.lookup id = some cached)
    (divided : m.Divided id cached before c rest after) (all : m.chooseAll choices = some m') (some' : choices ≠ []) :
    ∃ candidate rest', candidates[chosenIndex candidates.length shown choices]? = some candidate ∧
      m'.reading = m.reading ∧ m'.window = .ready id candidates (chosenIndex candidates.length shown choices) ∧
      m'.Sound ∧ m'.Divided id cached before (showing c candidate) rest' after := by
  induction choices generalizing m c rest shown with
  | nil => exact absurd rfl some'
  | cons choice choices ih =>
    unfold chooseAll at all
    split at all
    case isFalse => cases all
    rename_i made
    obtain ⟨candidate, c', kept, beyond, chosen⟩ := choose_result window made
    have within := (sound.ready _ _ _ window).cached cached found candidate (List.mem_of_getElem? chosen.inList)
    obtain ⟨⟨rest', anew⟩, found'⟩ := chosen.divided divided found within
    have sound' : (m.choose choice).1.Sound := by
      cases choice with
      | select index => exact apply_sound .scalars sound (.selectCandidate index)
      | advance direction => exact apply_sound .scalars sound (.advanceCandidate direction)
    cases choices with
    | nil =>
      obtain rfl := Option.some.inj all
      exact ⟨candidate, rest', chosen.inList, chosen.reading, chosen.window, sound', anew⟩
    | cons next later =>
      obtain ⟨last, rest'', inList, reading, window'', sound'', divided''⟩ :=
        ih sound' chosen.window found' anew all (List.cons_ne_nil _ _)
      exact ⟨last, rest'', inList, reading.trans chosen.reading, window'', sound'', divided''⟩

omit [EngineToken τ] in
/-- A division shows its clause, and the untouched reading behind it. -/
theorem Divided.view_rest (divided : m.Divided id cached before c rest after) (formed : m.WellFormed) :
    rest.map view = if c.stop < cached.stop then [(c.stop, cached.stop, slice m.reading c.stop cached.stop)] else [] := by
  rcases divided.whole with ⟨ends, rfl⟩ | ⟨apart, r, rfl, start, stop, read⟩
  · rw [if_neg (by omega)]
    rfl
  · have member : r ∈ m.clauses := by rw [divided.clauses]; simp
    have surface := formed.shown r member read
    rw [if_pos apart, List.map_singleton, view, surface, start, stop]
    rfl

omit [EngineToken τ] in
/-- As many steps forward as the list is long lead back to where they started. -/
theorem chosenIndex_cycle {count shown : Nat} (inside : shown < count) :
    chosenIndex count shown (List.replicate count (.advance 1)) = shown := by
  have steps : ∀ k, chosenIndex count shown (List.replicate k (.advance 1)) = (shown + k) % count := by
    intro k
    induction k with
    | zero => exact (Nat.mod_eq_of_lt inside).symm
    | succ k ih =>
      rw [List.replicate_succ' (n := k), chosenIndex, List.foldl_append]
      unfold chosenIndex at ih
      rw [ih]
      show (((((shown + k) % count : Nat) : Int) + 1) % (count : Int)).toNat = _
      have cast : ((((shown + k) % count : Nat) : Int) + 1) % (count : Int) = (((shown + k) % count + 1) % count : Nat) := by
        push_cast
        rfl
      rw [cast, Int.toNat_natCast, Nat.mod_add_mod, Nat.add_assoc]
  rw [steps, Nat.add_mod_right, Nat.mod_eq_of_lt inside]

/-- Calls that choose from an open list and all succeed show what was chosen last: its candidate up to where that ends,
then the untouched reading up to the end of the list's interval, between the same clauses as before. So calls that choose
the same index last show the same, and once around the list is back at what the list shows. -/
theorem run_choices (segmentation : Segmentation) {start : ClauseConversion τ} (initial : Initial start)
    (ops : List (ClauseOp τ)) :
    let m := exec (apply segmentation) start ops
    ∀ id candidates shown, m.window = .ready id candidates shown → ∃ cached before after,
      m.cache.lookup id = some cached ∧ (∃ c rest, m.Divided id cached before c rest after) ∧
      (∀ choices m', choices ≠ [] → m.chooseAll choices = some m' → ∃ candidate c rest,
        candidates[chosenIndex candidates.length shown choices]? = some candidate ∧ m'.reading = m.reading ∧
          m'.window = .ready id candidates (chosenIndex candidates.length shown choices) ∧
          m'.clauses = before ++ c :: (rest ++ after) ∧ c.id = id ∧
          view c = (cached.start, candidate.readingEnd, candidate.surface) ∧
          rest.map view = readRest m.reading cached.stop candidate ∧ ∀ r ∈ rest, r.source = .reading) ∧
      (∀ choices choices' m' m'', choices ≠ [] → choices' ≠ [] → m.chooseAll choices = some m' →
        m.chooseAll choices' = some m'' →
        chosenIndex candidates.length shown choices = chosenIndex candidates.length shown choices' →
        m'.reading = m''.reading ∧ m'.clauses.map view = m''.clauses.map view) ∧
      ∀ candidate m', candidates[shown]? = some candidate → m.clauses[m.selected]?.any (shows · candidate) = true →
        m.chooseAll (List.replicate candidates.length (.advance 1)) = some m' →
        m'.reading = m.reading ∧ m'.clauses.map view = m.clauses.map view := by
  intro m id candidates shown window
  have sound : m.Sound := run_sound segmentation initial ops
  obtain ⟨cached, found, ⟨before, c, rest, after, divided⟩, _⟩ :=
    run_spread segmentation initial ops id candidates shown window
  have every : ∀ choices m', choices ≠ [] → m.chooseAll choices = some m' → ∃ candidate c rest,
      candidates[chosenIndex candidates.length shown choices]? = some candidate ∧ m'.reading = m.reading ∧
        m'.window = .ready id candidates (chosenIndex candidates.length shown choices) ∧
        m'.clauses = before ++ c :: (rest ++ after) ∧ c.id = id ∧
        view c = (cached.start, candidate.readingEnd, candidate.surface) ∧
        rest.map view = readRest m.reading cached.stop candidate ∧ ∀ r ∈ rest, r.source = .reading := by
    intro choices m' some' all
    obtain ⟨candidate, rest', inList, reading, window', sound', divided'⟩ :=
      chooseAll_divided choices sound window found divided all some'
    refine ⟨candidate, _, rest', inList, reading, window', divided'.clauses, divided'.same, ?_, ?_, ?_⟩
    · rw [view, divided'.start]
      rfl
    · rw [divided'.view_rest sound'.formed, reading]
      rfl
    · rcases divided'.whole with ⟨_, rfl⟩ | ⟨_, r, rfl, _, _, read⟩
      · simp
      · simpa using read
  have views : ∀ choices m', choices ≠ [] → m.chooseAll choices = some m' → ∃ candidate,
      candidates[chosenIndex candidates.length shown choices]? = some candidate ∧ m'.reading = m.reading ∧
        m'.clauses.map view = before.map view ++ (cached.start, candidate.readingEnd, candidate.surface) ::
          (readRest m.reading cached.stop candidate ++ after.map view) := by
    intro choices m' some' all
    obtain ⟨candidate, c, rest, inList, reading, _, clauses, _, first, behind, _⟩ := every choices m' some' all
    exact ⟨candidate, inList, reading, by rw [clauses, List.map_append, List.map_cons, List.map_append, first, behind]⟩
  refine ⟨cached, before, after, found, ⟨c, rest, divided⟩, every, ?_, ?_⟩
  · intro choices choices' m' m'' some' some'' all all' same
    obtain ⟨candidate, inList, reading, shows⟩ := views choices m' some' all
    obtain ⟨candidate', inList', reading', shows'⟩ := views choices' m'' some'' all'
    rw [same] at inList
    obtain rfl := Option.some.inj (inList.symm.trans inList')
    exact ⟨reading.trans reading'.symm, shows.trans shows'.symm⟩
  · intro candidate m' inList shown' all
    have inside : shown < candidates.length := (List.getElem?_eq_some_iff.mp inList).1
    have steps : List.replicate candidates.length (CandidateChoice.advance 1) ≠ [] := by
      simp only [ne_eq, List.replicate_eq_nil_iff]
      omega
    obtain ⟨candidate', inList', reading, after'⟩ := views _ m' steps all
    rw [chosenIndex_cycle inside] at inList'
    obtain rfl := Option.some.inj (inList.symm.trans inList')
    -- What is shown before is the candidate that the list is at.
    have atSelected : m.clauses[m.selected]? = some c := by
      rw [divided.clauses, ← divided.place, List.getElem?_append_right (le_refl _), Nat.sub_self]
      rfl
    simp only [atSelected, Option.any_some, shows, Bool.and_eq_true, decide_eq_true_eq] at shown'
    refine ⟨reading, ?_⟩
    rw [after', divided.clauses, List.map_append, List.map_cons, List.map_append, divided.view_rest sound.formed, view,
      divided.start, readRest, shown'.1, shown'.2]

/-- Of the two candidates that are offered for カナ, the last one shows the same however it is reached, and once around
the list is カナ again. -/
theorem run_choices_kana : ∃ start m m' m'' back : ClauseConversion String,
    fromReading ⟨1, 1, 1, 1⟩ ['か', 'な'] = some start ∧
      exec (apply Segmentation.scalars) start [.transformKana 0 2 .katakana, .openCandidates 1 0,
        .acceptCandidates ⟨⟨1, 1, 1, 1⟩, 0, 1, 1, 1⟩ (.ready [⟨['仮', '名'], "t", 0, 2⟩, ⟨['蚊'], "u", 0, 1⟩]) 0] = m ∧
      m.chooseAll [.select 1, .advance 1] = some m' ∧ m.chooseAll [.select 2] = some m'' ∧
      m.chooseAll (List.replicate 3 (.advance 1)) = some back ∧
      (∃ before c rest after, m'.clauses = before ++ c :: (rest ++ after) ∧ c.id = 1 ∧ ∀ r ∈ rest, r.source = .reading) ∧
      m'.clauses.map view = m''.clauses.map view ∧ back.clauses.map view = m.clauses.map view := by
  have built : (fromReading ⟨1, 1, 1, 1⟩ ['か', 'な'] : Option (ClauseConversion String)) = some _ := rfl
  obtain ⟨cached, before, after, _, _, every, same, around⟩ := run_choices .scalars (.reading built)
    [.transformKana 0 2 .katakana, .openCandidates 1 0,
      .acceptCandidates ⟨⟨1, 1, 1, 1⟩, 0, 1, 1, 1⟩ (.ready [⟨['仮', '名'], "t", 0, 2⟩, ⟨['蚊'], "u", 0, 1⟩]) 0]
    1 [⟨['カ', 'ナ'], "", 0, 2⟩, ⟨['仮', '名'], "t", 0, 2⟩, ⟨['蚊'], "u", 0, 1⟩] 0 rfl
  obtain ⟨_, c, rest, _, _, _, clauses, id, _, _, read⟩ :=
    every [.select 1, .advance 1] _ (by decide) rfl
  exact ⟨_, _, _, _, _, built, rfl, rfl, rfl, rfl, ⟨before, c, rest, after, clauses, id, read⟩,
    (same [.select 1, .advance 1] [.select 2] _ _ (by decide) (by decide) rfl rfl rfl).2,
    (around _ _ rfl (by decide +kernel) rfl).2⟩

/-- Once around a list that was opened for a clause whose reading is not in it is not back at the reading. -/
theorem advance_reading :
    ¬∀ (start : ClauseConversion String), Initial start → ∀ (ops : List (ClauseOp String)) id candidates shown,
      (exec (apply Segmentation.scalars) start ops).window = .ready id candidates shown → ∀ m',
        (exec (apply Segmentation.scalars) start ops).chooseAll (List.replicate candidates.length (.advance 1)) = some m' →
          m'.clauses.map view = (exec (apply Segmentation.scalars) start ops).clauses.map view := by
  intro every
  have built : (fromReading ⟨1, 1, 1, 1⟩ ['か', 'な'] : Option (ClauseConversion String)) = some _ := rfl
  have back := every _ (.reading built) [.transformKana 0 2 .katakana, .resizeSelected (-1), .openCandidates 1 0,
    .acceptCandidates ⟨⟨1, 1, 1, 1⟩, 0, 2, 2, 1⟩ (.ready [⟨['蚊'], "t", 0, 1⟩]) 0] 2 [⟨['蚊'], "t", 0, 1⟩] 0 rfl _ rfl
  exact absurd back (by decide +kernel)

end Choosing

end ClauseConversion

end Nospacekey
