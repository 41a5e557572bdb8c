import Nospacekey.Clause.Selection

/-! Issuing requests, showing kept lists and changing the learning identity. -/

namespace Nospacekey

open Tiling

variable {τ : Type}

namespace ClauseConversion

/-- A request is issued: it describes the model at the revision it leaves behind. -/
structure Asked (m m' : ClauseConversion τ) (entry : IssuedCandidates) : Prop where
  reading : m'.reading = m.reading
  clauses : m'.clauses = m.clauses
  revision : m.revision ≤ m'.revision
  nextClauseId : m'.nextClauseId = m.nextClauseId
  learning : m'.learningIdentity = m.learningIdentity
  sentence : m'.sentenceToken = m.sentenceToken
  selected : m'.selected = m.selected
  current : entry.request.key.conversionRevision = m'.revision
  carries : m.Sound → m.Carries entry.request
  conversion : ∀ conversion, entry.conversion = some conversion →
    conversion.key = entry.request.key ∧ conversion.reading = entry.request.reading ∧
      conversion.precedingSurfaces = entry.request.precedingSurfaces
  issued : ∀ id other, m'.issued.lookup id = some other →
    id = entry.request.key.requestId ∧ other = entry ∨ m.issued.lookup id = some other
  boundary : ∀ other, m'.boundaryRequest = some other → other = entry ∨ m.boundaryRequest = some other
  once : m'.boundaryRequest = m.boundaryRequest ∨ m'.issued = m.issued
  cache : ∀ id cached, m'.cache.lookup id = some cached → m.cache.lookup id = some cached
  window : m'.window = .loading entry.request.key

/-- A list that was kept for the selected clause is shown. -/
structure Listed (m m' : ClauseConversion τ) (cached : CachedCandidates τ) : Prop where
  reading : m'.reading = m.reading
  clauses : m'.clauses = m.clauses
  revision : m'.revision = m.revision
  nextClauseId : m'.nextClauseId = m.nextClauseId
  learning : m'.learningIdentity = m.learningIdentity
  sentence : m'.sentenceToken = m.sentenceToken
  selected : m'.selected = m.selected
  lastRequestId : m'.lastRequestId = m.lastRequestId
  issued : m'.issued = m.issued
  boundary : m'.boundaryRequest = m.boundaryRequest
  cache : m'.cache = m.cache
  window : ∃ clause shown, m.clauses[m.selected]? = some clause ∧
    m.cache.lookup clause.id = some cached ∧ cached.start = clause.start ∧ cached.stop = clause.stop ∧
    m'.window = .ready clause.id cached.candidates shown

section Effects

variable {m m' : ClauseConversion τ}

/-- Issuing a request keeps the model sound. -/
theorem Asked.sound {entry : IssuedCandidates} (asked : Asked m m' entry) (sound : m.Sound) :
    m'.Sound := by
  have progress : m.revision < m'.revision ∨ (m'.revision = m.revision ∧ m'.reading = m.reading ∧
      m'.clauses.map precedingSurface = m.clauses.map precedingSurface) := by
    rcases Nat.eq_or_lt_of_le asked.revision with same | later
    · exact .inr ⟨same.symm, asked.reading, by rw [asked.clauses]⟩
    · exact .inl later
  have timely : m'.Timely entry :=
    { revision := asked.current.le
      carries := fun _ => (asked.carries sound).congr asked.reading (by rw [asked.clauses])
      conversion := asked.conversion }
  exact
    { formed := sound.formed.congr asked.reading asked.clauses asked.nextClauseId
        (by rw [asked.selected]; exact fun _ inside => inside)
      issued := fun id other found => by
        rcases asked.issued id other found with ⟨_, rfl⟩ | old
        · exact timely
        · exact (sound.issued id other old).mono progress
      boundary := fun other found => by
        rcases asked.boundary other found with rfl | old
        · exact timely
        · exact (sound.boundary other old).mono progress
      cached := fun id cached found => asked.reading ▸ sound.cached id cached (asked.cache id cached found)
      ready := fun _ _ _ open' => by rw [asked.window] at open'; cases open' }

/-- A list that reaches no further than its clause may be shown for it. -/
theorem offers_of_within (formed : m.WellFormed)
    (timely : ∀ id entry, m.issued.lookup id = some entry → m.Timely entry)
    {clause : LocalClause τ} (member : clause ∈ m.clauses)
    {candidates : List (ClauseCandidate τ)} (nonempty : candidates ≠ [])
    (starts : ∀ candidate ∈ candidates, clause.start < candidate.readingEnd)
    (stops : ∀ candidate ∈ candidates, candidate.readingEnd ≤ clause.stop)
    (legal : ∀ candidate ∈ candidates, LegalBoundary m.reading candidate.readingEnd)
    (kept : ∀ cached, m.cache.lookup clause.id = some cached → cached.stop = clause.stop) :
    m.Offers clause.id candidates where
  nonempty := nonempty
  present := ⟨clause, member, rfl, starts⟩
  legal := legal
  cached := fun cached found candidate inList => by
    rw [kept cached found]
    exact stops candidate inList
  issued := by
    intro id entry found about current candidate inList
    -- A request of this revision about the clause asks for the clause's own interval.
    obtain ⟨_, index, other, atIndex, range, _⟩ := (timely id entry found).carries current
    have sameId : other.id = clause.id := (congrArg ClauseRange.id range).trans about
    have equal := formed.eq_of_id (List.mem_of_getElem? atIndex) member sameId
    subst equal
    have stop : other.stop = entry.request.readingEnd := congrArg ClauseRange.readingEnd range
    rw [← stop]
    exact stops candidate inList

/-- Showing a kept list keeps the model sound. -/
theorem Listed.sound {cached : CachedCandidates τ} (listed : Listed m m' cached) (sound : m.Sound) :
    m'.Sound where
  formed := sound.formed.congr listed.reading listed.clauses listed.nextClauseId
    (by rw [listed.selected]; exact fun _ inside => inside)
  issued := fun id entry found => by
    rw [listed.issued] at found
    exact (sound.issued id entry found).mono
      (.inr ⟨listed.revision, listed.reading, by rw [listed.clauses]⟩)
  boundary := fun entry found => by
    rw [listed.boundary] at found
    exact (sound.boundary entry found).mono
      (.inr ⟨listed.revision, listed.reading, by rw [listed.clauses]⟩)
  cached := fun id other found => by
    rw [listed.cache] at found
    exact listed.reading ▸ sound.cached id other found
  ready := by
    intro clauseId candidates selected open'
    obtain ⟨clause, shown, atSelected, found, start, stop, after⟩ := listed.window
    rw [after, CandidateWindow.ready.injEq] at open'
    obtain ⟨rfl, rfl, _⟩ := open'
    have legal := sound.cached _ _ found
    have offers : m.Offers clause.id cached.candidates :=
      offers_of_within sound.formed sound.issued (List.mem_of_getElem? atSelected) legal.nonempty
        (fun candidate inList => start ▸ legal.starts candidate inList)
        (fun candidate inList => stop ▸ legal.stops candidate inList) legal.legal
        (fun other also => by rw [found] at also; cases also; exact stop)
    refine offers.mono ?_ ?_ ?_ ?_
    · rw [listed.clauses]
      exact fun clause member _ => ⟨clause, member, rfl, rfl⟩
    · rw [listed.reading]
      exact fun _ legal => legal
    · rw [listed.cache]
      exact fun _ _ found => found
    · rw [listed.issued, listed.revision]
      exact fun _ _ found current => ⟨found, current⟩

end Effects

section Learning

variable (m : ClauseConversion τ)

/-- Invalidating the learning identity retires every token. -/
theorem invalidateLearning_forgotten : Forgotten m m.invalidateLearning where
  reading := rfl
  clauses := rfl
  revision := rfl
  nextClauseId := rfl
  selected := rfl
  sentence := rfl
  lastRequestId := rfl
  issued := fun _ _ found => (lookup_empty_ne_some found).elim
  boundary := fun _ absurdity => by cases absurdity
  cache := rfl
  window := .inl rfl

/-- Forgetting twice is forgetting. -/
theorem Forgotten.trans {a b c : ClauseConversion τ} (first : Forgotten a b) (second : Forgotten b c) :
    Forgotten a c where
  reading := second.reading.trans first.reading
  clauses := by
    rw [second.clauses, first.clauses, List.map_map]
    refine List.map_congr_left fun clause _ => ?_
    have twice : clause.source.retire.retire = clause.source.retire := by cases clause.source <;> rfl
    simp [twice]
  revision := second.revision.trans first.revision
  nextClauseId := second.nextClauseId.trans first.nextClauseId
  selected := second.selected.trans first.selected
  sentence := second.sentence
  lastRequestId := second.lastRequestId.trans first.lastRequestId
  issued := fun id entry found => first.issued id entry (second.issued id entry found)
  boundary := fun entry found => first.boundary entry (second.boundary entry found)
  cache := second.cache
  window := by
    rcases second.window with closed | ⟨kept, unready⟩
    · exact .inl closed
    · rcases first.window with closed | ⟨same, before⟩
      · exact .inl (kept.trans closed)
      · exact .inr ⟨kept.trans same, before⟩

/-- A refreshed identity is the present one, is refused, or retires every token. -/
theorem refreshLearningIdentity_cases (identity : EngineLearningIdentity) :
    m.refreshLearningIdentity identity = m ∨
      Forgotten m (m.refreshLearningIdentity identity) ∧
        (m.refreshLearningIdentity identity).learningIdentity = some identity := by
  unfold refreshLearningIdentity
  split
  · exact .inl rfl
  split
  · exact .inl rfl
  refine .inr ?_
  cases window : m.window with
  | closed => exact ⟨{ invalidateLearning_forgotten m with issued := fun _ _ found => found }, rfl⟩
  | loading key =>
    refine ⟨{ invalidateLearning_forgotten m with issued := fun _ _ found => found, window := ?_ }, rfl⟩
    exact .inr ⟨window.symm, by rw [window]; rfl⟩
  | ready clause candidates selected =>
    exact ⟨{ invalidateLearning_forgotten m with issued := fun _ _ found => found }, rfl⟩

/-- An acknowledged identity leaves the model alone or retires every token. -/
theorem configuredLearningIdentity_cases (identity : Option EngineLearningIdentity) :
    m.configuredLearningIdentity identity = m ∨ Forgotten m (m.configuredLearningIdentity identity) := by
  unfold configuredLearningIdentity
  split
  · exact .inr (invalidateLearning_forgotten m)
  rename_i identity
  dsimp only
  split
  · rcases refreshLearningIdentity_cases m.invalidateLearning identity with same | ⟨forgotten, _⟩
    · rw [same]; exact .inr (invalidateLearning_forgotten m)
    · exact .inr ((invalidateLearning_forgotten m).trans forgotten)
  · rcases refreshLearningIdentity_cases m identity with same | ⟨forgotten, _⟩
    · exact .inl same
    · exact .inr forgotten

end Learning

section Opening

variable (m : ClauseConversion τ)

/-- Opening the list shows a kept one, asks for a new one, or does nothing. -/
theorem openCandidates_cases (requestId now : Nat) :
    ((m.openCandidates requestId now).2 = none ∧
        (Quiet m (m.openCandidates requestId now).1 ∨
          ∃ cached, Listed m (m.openCandidates requestId now).1 cached)) ∨
      ∃ entry, (m.openCandidates requestId now).2 = some entry.request ∧
        entry.request.key.requestId = requestId ∧ (entry.conversion = none ∧ entry.deadline = now + requestLifetime) ∧
        m.lastRequestId < requestId ∧ (m.openCandidates requestId now).1.lastRequestId = requestId ∧
        (m.openCandidates requestId now).1.boundaryRequest = m.boundaryRequest ∧
        (m.openCandidates requestId now).1.issued = m.issued.insert requestId entry ∧
        Asked m (m.openCandidates requestId now).1 entry := by
  unfold openCandidates
  split
  · exact .inl ⟨rfl, .inl (Quiet.refl m)⟩
  split
  · exact .inl ⟨rfl, .inl (Quiet.refl m)⟩
  rename_i c atSelected
  dsimp only
  split
  · rename_i cached found
    obtain ⟨found, matches'⟩ := Option.filter_eq_some_iff.mp found
    simp only [Bool.and_eq_true, decide_eq_true_eq] at matches'
    refine .inl ⟨rfl, .inr ⟨cached, ?_⟩⟩
    unfold openReady
    simp only [atSelected]
    exact
      { reading := rfl, clauses := rfl, revision := rfl, nextClauseId := rfl, learning := rfl
        sentence := rfl, selected := rfl, lastRequestId := rfl, issued := rfl, boundary := rfl, cache := rfl
        window := ⟨c, _, atSelected, found, matches'.1.1, matches'.1.2, rfl⟩ }
  · split
    · exact .inl ⟨rfl, .inl { Quiet.refl m with }⟩
    · rename_i fresh
      rw [Nat.not_le] at fresh
      refine .inr ⟨_, rfl, rfl, ⟨rfl, rfl⟩, fresh, rfl, rfl, rfl, ?_⟩
      exact
        { reading := rfl, clauses := rfl, revision := le_rfl, nextClauseId := rfl, learning := rfl
          sentence := rfl, selected := rfl, current := rfl
          carries := fun _ => ⟨rfl, m.selected, c, atSelected, rfl, rfl⟩
          conversion := fun _ absurdity => by cases absurdity
          issued := fun id other found => by
            rcases Table.lookup_insert_cases found with ⟨same, new⟩ | ⟨_, old⟩
            · exact .inl ⟨same, new⟩
            · exact .inr old
          boundary := fun _ found => .inr found
          once := .inl rfl
          cache := fun _ _ found => found
          window := rfl }

/-- Asking for the conversion of the selected reading clauses issues one boundary request, or nothing. -/
theorem openBoundaryConversion_cases (requestId now : Nat) :
    ((m.openBoundaryConversion requestId now).2 = none ∧ (m.openBoundaryConversion requestId now).1 = m) ∨
      ∃ entry request, (m.openBoundaryConversion requestId now).2 = some request ∧
        (entry.conversion = some request ∧ entry.deadline = now + requestLifetime) ∧
        entry.request.key.requestId = requestId ∧ m.lastRequestId < requestId ∧
        (m.openBoundaryConversion requestId now).1.lastRequestId = requestId ∧
        (m.openBoundaryConversion requestId now).1.boundaryRequest = some entry ∧
        (m.openBoundaryConversion requestId now).1.issued = m.issued ∧
        Asked m (m.openBoundaryConversion requestId now).1 entry := by
  unfold openBoundaryConversion
  split
  · exact .inl ⟨rfl, rfl⟩
  rename_i admitted
  simp only [Bool.or_eq_true, decide_eq_true_eq, not_or, Nat.not_le] at admitted
  split
  · exact .inl ⟨rfl, rfl⟩
  rename_i c atSelected
  split
  · exact .inl ⟨rfl, rfl⟩
  dsimp only
  split
  · exact .inl ⟨rfl, rfl⟩
  refine .inr ⟨_, _, rfl, ⟨rfl, rfl⟩, rfl, admitted.2, rfl, rfl, rfl, ?_⟩
  exact
    { reading := rfl, clauses := rfl, revision := le_rfl, nextClauseId := rfl, learning := rfl
      sentence := rfl, selected := rfl, current := rfl
      carries := fun _ => ⟨rfl, m.selected, c, atSelected, rfl, rfl⟩
      conversion := fun _ same => by cases same; exact ⟨rfl, rfl, rfl⟩
      issued := fun _ _ found => .inr found
      boundary := fun _ found => .inl (Option.some.inj found).symm
      once := .inr rfl
      cache := fun _ _ found => found
      window := rfl }

end Opening

end ClauseConversion

end Nospacekey
