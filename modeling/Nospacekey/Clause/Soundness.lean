import Nospacekey.Clause.Replacement

/-! What requests, cached lists and the open window always say about the clause model. -/

namespace Nospacekey

open Tiling

variable {τ : Type}

/-- A nonempty list whose candidates cover a legal part of the interval it is kept for. -/
structure CachedCandidates.Legal (reading : Text) (cached : CachedCandidates τ) : Prop where
  nonempty : cached.candidates ≠ []
  starts : ∀ candidate ∈ cached.candidates, cached.start < candidate.readingEnd
  stops : ∀ candidate ∈ cached.candidates, candidate.readingEnd ≤ cached.stop
  legal : ∀ candidate ∈ cached.candidates, LegalBoundary reading candidate.readingEnd

/-- Legal positions of one reading that are legal in another keep a cached list legal. -/
theorem CachedCandidates.Legal.mono {reading reading' : Text} {cached : CachedCandidates τ}
    (legal : cached.Legal reading)
    (onward : ∀ position, LegalBoundary reading position → LegalBoundary reading' position) :
    cached.Legal reading' :=
  { legal with legal := fun candidate member => onward _ (legal.legal candidate member) }

namespace ClauseConversion

/-- A request describes the model: its reading, the range of its clause and all that precedes it. -/
def Carries (m : ClauseConversion τ) (request : ClauseCandidatesRequest) : Prop :=
  request.reading = m.reading ∧
    ∃ index clause, m.clauses[index]? = some clause ∧
      clauseRange clause = ⟨request.key.clauseId, request.readingStart, request.readingEnd⟩ ∧
      m.preceding index = request.precedingSurfaces

/-- A request never comes from a later revision, and one of this revision describes the model. -/
structure Timely (m : ClauseConversion τ) (entry : IssuedCandidates) : Prop where
  revision : entry.request.key.conversionRevision ≤ m.revision
  carries : entry.request.key.conversionRevision = m.revision → m.Carries entry.request
  conversion : ∀ conversion, entry.conversion = some conversion →
    conversion.key = entry.request.key ∧ conversion.reading = entry.request.reading ∧
      conversion.precedingSurfaces = entry.request.precedingSurfaces

/-- The open list belongs to a present clause and reaches no further than the list kept for it and
any request of this revision about it. -/
structure Offers (m : ClauseConversion τ) (clauseId : Nat) (candidates : List (ClauseCandidate τ)) :
    Prop where
  nonempty : candidates ≠ []
  present : ∃ clause ∈ m.clauses, clause.id = clauseId ∧
    ∀ candidate ∈ candidates, clause.start < candidate.readingEnd
  legal : ∀ candidate ∈ candidates, LegalBoundary m.reading candidate.readingEnd
  cached : ∀ cached, m.cache.lookup clauseId = some cached →
    ∀ candidate ∈ candidates, candidate.readingEnd ≤ cached.stop
  issued : ∀ id entry, m.issued.lookup id = some entry → entry.request.key.clauseId = clauseId →
    entry.request.key.conversionRevision = m.revision →
    ∀ candidate ∈ candidates, candidate.readingEnd ≤ entry.request.readingEnd

/-- The invariant of the clause model together with everything the engine was or is asked about it. -/
structure Sound (m : ClauseConversion τ) : Prop where
  formed : m.WellFormed
  issued : ∀ id entry, m.issued.lookup id = some entry → m.Timely entry
  boundary : ∀ entry, m.boundaryRequest = some entry → m.Timely entry
  cached : ∀ id cached, m.cache.lookup id = some cached → cached.Legal m.reading
  ready : ∀ clauseId candidates selected, m.window = .ready clauseId candidates selected →
    m.Offers clauseId candidates

variable {m m' : ClauseConversion τ}

/-- What a request says about a model depends on its reading, its ranges and its surfaces. -/
theorem Carries.congr {request : ClauseCandidatesRequest} (carries : m.Carries request)
    (reading : m'.reading = m.reading)
    (clauses : m'.clauses.map precedingSurface = m.clauses.map precedingSurface) :
    m'.Carries request := by
  obtain ⟨same, index, clause, found, range, preceding⟩ := carries
  refine ⟨same.trans reading.symm, index, ?_⟩
  -- The clause at the same place has the same id, interval and surface.
  have place : (m'.clauses.map precedingSurface)[index]? = some (precedingSurface clause) := by
    rw [clauses, List.getElem?_map, found]; rfl
  rw [List.getElem?_map, Option.map_eq_some_iff] at place
  obtain ⟨clause', found', surface⟩ := place
  refine ⟨clause', found', ?_, ?_⟩
  · rw [← range]
    have id := congrArg PrecedingSurface.clauseId surface
    have start := congrArg PrecedingSurface.readingStart surface
    have stop := congrArg PrecedingSurface.readingEnd surface
    simp only [precedingSurface] at id start stop
    simp only [clauseRange, id, start, stop]
  · rw [← preceding]
    unfold ClauseConversion.preceding
    rw [List.map_take, clauses, ← List.map_take]

/-- An older request stays timely while the clauses stay or the revision grows. -/
theorem Timely.mono {entry : IssuedCandidates} (timely : m.Timely entry)
    (progress : m.revision < m'.revision ∨ (m'.revision = m.revision ∧ m'.reading = m.reading ∧
      m'.clauses.map precedingSurface = m.clauses.map precedingSurface)) : m'.Timely entry := by
  rcases progress with later | ⟨same, reading, clauses⟩
  · have := timely.revision
    exact ⟨by omega, fun current => by omega, timely.conversion⟩
  · exact ⟨by rw [same]; exact timely.revision,
      fun current => (timely.carries (by rw [current, same])).congr reading clauses, timely.conversion⟩

/-- An open list stays good while its clause keeps its start and nothing is kept or asked anew. -/
theorem Offers.mono {clauseId : Nat} {candidates : List (ClauseCandidate τ)}
    (offers : m.Offers clauseId candidates)
    (present : ∀ clause ∈ m.clauses, clause.id = clauseId →
      ∃ clause' ∈ m'.clauses, clause'.id = clause.id ∧ clause'.start = clause.start)
    (legal : ∀ position, LegalBoundary m.reading position → LegalBoundary m'.reading position)
    (cache : ∀ id cached, m'.cache.lookup id = some cached → m.cache.lookup id = some cached)
    (issued : ∀ id entry, m'.issued.lookup id = some entry →
      entry.request.key.conversionRevision = m'.revision →
      m.issued.lookup id = some entry ∧ entry.request.key.conversionRevision = m.revision) :
    m'.Offers clauseId candidates where
  nonempty := offers.nonempty
  present := by
    obtain ⟨clause, member, id, starts⟩ := offers.present
    obtain ⟨clause', member', id', start⟩ := present clause member id
    exact ⟨clause', member', id'.trans id, fun candidate inList => start ▸ starts candidate inList⟩
  legal := fun candidate inList => legal _ (offers.legal candidate inList)
  cached := fun cached found => offers.cached cached (cache _ _ found)
  issued := fun id entry found about current =>
    offers.issued id entry (issued id entry found current).1 about (issued id entry found current).2

/-- Quiet steps keep the model sound. -/
theorem Quiet.sound (quiet : Quiet m m') (sound : m.Sound) : m'.Sound where
  formed := quiet.wellFormed sound.formed
  issued := fun id entry found => (sound.issued id entry (quiet.issued id entry found)).mono
    (.inr ⟨quiet.revision, quiet.reading, by rw [quiet.clauses]⟩)
  boundary := fun entry found => (sound.boundary entry (quiet.boundary entry found)).mono
    (.inr ⟨quiet.revision, quiet.reading, by rw [quiet.clauses]⟩)
  cached := fun id cached found => quiet.reading ▸ sound.cached id cached (quiet.cache id cached found)
  ready := by
    intro clauseId candidates selected open'
    rcases quiet.window with kept | closed
    · rw [kept] at open'
      refine (sound.ready _ _ _ open').mono ?_ ?_ quiet.cache ?_
      · rw [quiet.clauses]
        exact fun clause member _ => ⟨clause, member, rfl, rfl⟩
      · rw [quiet.reading]
        exact fun _ legal => legal
      · exact fun id entry found current => ⟨quiet.issued id entry found, current.trans quiet.revision⟩
    · rw [closed] at open'
      cases open'

/-- Local edits keep the model sound. -/
theorem Reshaped.sound (reshaped : Reshaped m m') (sound : m.Sound) : m'.Sound where
  formed := reshaped.formed sound.formed
  issued := fun id entry found =>
    (sound.issued id entry (reshaped.issued id entry found)).mono (.inl reshaped.revision)
  boundary := fun entry found =>
    (sound.boundary entry (reshaped.boundary entry found)).mono (.inl reshaped.revision)
  cached := fun id cached found =>
    (reshaped.cache id cached found).1 ▸ sound.cached id cached (reshaped.cache id cached found).2
  ready := fun clauseId candidates selected open' => by rw [reshaped.window] at open'; cases open'

/-- Local operations keep the model sound. -/
theorem Edited.sound (edited : Edited m m') (sound : m.Sound) : m'.Sound := by
  cases edited with
  | quiet effect => exact effect.sound sound
  | reshaped effect => exact effect.sound sound

/-- Promotion keeps the model sound. -/
theorem Extended.sound (extended : Extended m m') (sound : m.Sound) : m'.Sound where
  formed := extended.formed sound.formed
  issued := fun id entry found => by
    rw [extended.issued] at found
    exact (sound.issued id entry found).mono (.inl extended.revision)
  boundary := fun entry found => by
    rw [extended.boundary] at found
    exact (sound.boundary entry found).mono (.inl extended.revision)
  cached := fun id cached found => by
    rw [extended.cache] at found
    exact (sound.cached id cached found).mono extended.legal
  ready := by
    intro clauseId candidates selected open'
    rw [extended.window] at open'
    refine (sound.ready _ _ _ open').mono ?_ extended.legal ?_ ?_
    · intro clause member _
      obtain ⟨added, clauses, _⟩ := extended.clauses
      exact ⟨clause, by rw [clauses]; simp [member], rfl, rfl⟩
    · intro id cached found
      rwa [extended.cache] at found
    · intro id entry found current
      -- No request was issued at the revision that the promotion made.
      rw [extended.issued] at found
      have := (sound.issued id entry found).revision
      have := extended.revision
      omega

/-- Retiring the engine tokens keeps the partition. -/
theorem Forgotten.formed (forgotten : Forgotten m m') (formed : m.WellFormed) : m'.WellFormed := by
  refine formed.reshow forgotten.reading ?_ forgotten.nextClauseId ?_ ?_
  · unfold ranges
    rw [forgotten.clauses, List.map_map]
    rfl
  · intro clause member isReading
    rw [forgotten.clauses] at member
    obtain ⟨old, inOld, rfl⟩ := List.mem_map.mp member
    unfold readingOf
    rw [forgotten.reading]
    exact formed.shown old inOld ((SurfaceSource.retire_eq_reading _).mp isReading)
  · rw [forgotten.clauses, forgotten.selected, List.length_map]
    exact fun some => formed.selected (by simpa using some)

/-- Retiring the engine tokens changes no id, interval or surface. -/
theorem Forgotten.surfaces (forgotten : Forgotten m m') :
    m'.clauses.map precedingSurface = m.clauses.map precedingSurface := by
  rw [forgotten.clauses, List.map_map]
  rfl

/-- Losing the learning identity keeps the model sound. -/
theorem Forgotten.sound (forgotten : Forgotten m m') (sound : m.Sound) : m'.Sound where
  formed := forgotten.formed sound.formed
  issued := fun id entry found => (sound.issued id entry (forgotten.issued id entry found)).mono
    (.inr ⟨forgotten.revision, forgotten.reading, forgotten.surfaces⟩)
  boundary := fun entry found => (sound.boundary entry (forgotten.boundary entry found)).mono
    (.inr ⟨forgotten.revision, forgotten.reading, forgotten.surfaces⟩)
  cached := fun id cached found => (lookup_empty_ne_some (forgotten.cache ▸ found)).elim
  ready := by
    intro clauseId candidates selected open'
    rcases forgotten.window with closed | ⟨kept, unready⟩
    · rw [closed] at open'; cases open'
    · rw [kept] at open'
      rw [open'] at unready
      cases unready

end ClauseConversion

end Nospacekey
