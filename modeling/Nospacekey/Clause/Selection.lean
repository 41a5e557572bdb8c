import Nospacekey.Clause.Soundness

/-! Choosing a candidate of the open list divides or merges clauses within the list's interval. -/

namespace Nospacekey

open Tiling

variable {τ : Type}

namespace ClauseConversion

/-- A choice from the open list: the selection shows a candidate, and the list stays open. -/
structure Chosen [EngineToken τ] (m m' : ClauseConversion τ) (clauseId : Nat)
    (candidates : List (ClauseCandidate τ)) : Prop where
  formed : m.Sound → m'.WellFormed
  reading : m'.reading = m.reading
  revision : m.revision < m'.revision
  learning : m'.learningIdentity = m.learningIdentity
  sentence : m'.sentenceToken = none ∨ m'.sentenceToken = m.sentenceToken ∨
    ∃ candidate ∈ candidates, EngineToken.isEmpty candidate.token = false ∧
      m'.sentenceToken = some candidate.token
  lastRequestId : m'.lastRequestId = m.lastRequestId
  tokens : ∀ token ∈ m'.clauseTokens, token ∈ m.clauseTokens ∨
    ∃ candidate ∈ candidates, EngineToken.isEmpty candidate.token = false ∧ candidate.token = token
  issued : m'.issued = ∅
  boundary : m'.boundaryRequest = m.boundaryRequest
  cache : ∀ id cached, m'.cache.lookup id = some cached → m.cache.lookup id = some cached
  shown : ∃ selected, m.window = .ready clauseId candidates selected
  window : ∃ selected, m'.window = .ready clauseId candidates selected
  present : m.Sound → ∀ clause ∈ m.clauses, clause.id = clauseId →
    ∃ clause' ∈ m'.clauses, clause'.id = clause.id ∧ clause'.start = clause.start

section Choice

variable [EngineToken τ] {m m' : ClauseConversion τ}

/-- A choice keeps the model sound. -/
theorem Chosen.sound {clauseId : Nat} {candidates : List (ClauseCandidate τ)}
    (chosen : Chosen m m' clauseId candidates) (sound : m.Sound) : m'.Sound where
  formed := chosen.formed sound
  issued := fun id entry found => (lookup_empty_ne_some (chosen.issued ▸ found)).elim
  boundary := fun entry found => by
    rw [chosen.boundary] at found
    exact (sound.boundary entry found).mono (.inl chosen.revision)
  cached := fun id cached found => chosen.reading ▸ sound.cached id cached (chosen.cache id cached found)
  ready := by
    intro id list selected open'
    obtain ⟨shown, before⟩ := chosen.shown
    obtain ⟨index, after⟩ := chosen.window
    rw [after, CandidateWindow.ready.injEq] at open'
    obtain ⟨rfl, rfl, rfl⟩ := open'
    refine (sound.ready _ _ _ before).mono (chosen.present sound) ?_ chosen.cache ?_
    · rw [chosen.reading]
      exact fun _ legal => legal
    · exact fun id entry found => (lookup_empty_ne_some (chosen.issued ▸ found)).elim

/-- A chosen candidate's source has the candidate's token, or none where that is empty. -/
theorem token_candidateSource {candidate : ClauseCandidate τ} {token : τ}
    (found : (candidateSource candidate).token = some token) :
    EngineToken.isEmpty candidate.token = false ∧ candidate.token = token := by
  unfold candidateSource at found
  split at found
  · cases found
  · rename_i solid
    exact ⟨by simpa using solid, Option.some.inj found⟩

/-- A chosen candidate never shows a plain reading. -/
theorem candidateSource_ne_reading (candidate : ClauseCandidate τ) :
    candidateSource candidate ≠ .reading := by
  unfold candidateSource
  split <;> simp

/-- Replacing clauses from the selection on by a chosen candidate is a choice. -/
theorem applyChoice_chosen {m : ClauseConversion τ} {candidates : List (ClauseCandidate τ)}
    {c replacement : LocalClause τ} {candidate : ClauseCandidate τ} {shown index revision replaceEnd : Nat}
    {sentence : Option τ} {rest : List (LocalClause τ)} {nextId : Option Nat} {stage : CancelStage}
    (window : m.window = .ready c.id candidates shown) (atSelected : m.clauses[m.selected]? = some c)
    (inList : candidate ∈ candidates) (revised : m.revision < revision)
    (id : replacement.id = c.id) (start : replacement.start = c.start)
    (source : replacement.source = candidateSource candidate)
    (plain : ∀ clause ∈ rest, clause.source = .reading)
    (spoken : sentence = none ∨ sentence = m.sentenceToken ∨
      ∃ candidate ∈ candidates, EngineToken.isEmpty candidate.token = false ∧
        sentence = some candidate.token)
    (formed : m.Sound → ∀ m' : ClauseConversion τ, m'.reading = m.reading →
      m'.clauses = splice m.clauses m.selected replaceEnd (replacement :: rest) →
      m'.nextClauseId = nextId → m'.selected = m.selected → m'.WellFormed) :
    Chosen m
      (applyChoice
        { m with cancelStage := stage, sentenceToken := sentence, window := .ready c.id candidates index }
        revision replaceEnd (replacement :: rest) nextId)
      c.id candidates where
  formed := fun sound => formed sound _ rfl rfl rfl rfl
  reading := rfl
  revision := revised
  learning := rfl
  sentence := spoken
  lastRequestId := rfl
  tokens := by
    intro token member
    obtain ⟨clause, inClauses, found⟩ := List.mem_filterMap.mp member
    rcases mem_or_mem_of_mem_splice inClauses with old | new
    · exact .inl (List.mem_filterMap.mpr ⟨clause, old, found⟩)
    · rcases List.mem_cons.mp new with rfl | later
      · rw [source] at found
        exact .inr ⟨candidate, inList, token_candidateSource found⟩
      · rw [plain clause later] at found
        cases found
  issued := rfl
  boundary := rfl
  cache := fun _ _ kept => Table.lookup_of_lookup_retain kept
  shown := ⟨shown, window⟩
  window := ⟨index, rfl⟩
  present := by
    intro sound clause member same
    have equal : clause = c := sound.formed.eq_of_id member (List.mem_of_getElem? atSelected) same
    subst equal
    refine ⟨replacement, ?_, id, start⟩
    simp [applyChoice, splice]

/-- Choosing shows one of the candidates, or only leaves a pending cancellation. -/
theorem selectCandidate_cases (m : ClauseConversion τ) (index : Nat) :
    Quiet m (m.selectCandidate index).1 ∨
      ∃ clauseId candidates, Chosen m (m.selectCandidate index).1 clauseId candidates := by
  unfold selectCandidate
  dsimp only
  split
  · exact .inl (clearCancelStage_quiet m)
  · exact .inl (clearCancelStage_quiet m)
  rename_i clauseId candidates shown window
  split
  case h_2 => exact .inl (clearCancelStage_quiet m)
  rename_i candidate c atIndex atSelected
  split
  · exact .inl (clearCancelStage_quiet m)
  rename_i same
  simp only [ne_eq, not_not] at same
  split
  case h_2 => exact .inl (clearCancelStage_quiet m)
  rename_i revision cached added listed
  split
  · exact .inl (clearCancelStage_quiet m)
  rename_i beyond reached
  have revised := u64CheckedAdd_eq_some added
  have inList := List.mem_of_getElem? atIndex
  have member := List.mem_of_getElem? atSelected
  subst same
  -- The list's interval ends with a clause at or behind the selection.
  obtain ⟨back, atBack, edge⟩ : ∃ back, m.clauses[m.selected + beyond]? = some back ∧
      back.stop = cached.stop := by
    obtain ⟨inside, holds, _⟩ := List.findIdx?_eq_some_iff_getElem.mp reached
    refine ⟨(m.clauses.drop m.selected)[beyond], ?_, by simpa only [decide_eq_true_eq] using holds⟩
    rw [← List.getElem?_drop]
    exact List.getElem?_eq_getElem inside
  have spoken : ∀ sentence : Option τ, sentence = (if c.start = 0 ∧ candidate.readingEnd = m.reading.length
        then if EngineToken.isEmpty candidate.token then none else some candidate.token
        else if c.stop ≠ candidate.readingEnd then none else m.sentenceToken) →
      sentence = none ∨ sentence = m.sentenceToken ∨
        ∃ candidate ∈ candidates, EngineToken.isEmpty candidate.token = false ∧
          sentence = some candidate.token := by
    rintro _ rfl
    split
    · split
      · exact .inl rfl
      · rename_i solid
        exact .inr (.inr ⟨candidate, inList, by simpa using solid, rfl⟩)
    · split
      · exact .inl rfl
      · exact .inr (.inl rfl)
  have offers : ∀ sound : m.Sound, c.start < candidate.readingEnd ∧
      LegalBoundary m.reading candidate.readingEnd ∧ candidate.readingEnd ≤ cached.stop := by
    intro sound
    have offers := sound.ready _ _ _ window
    obtain ⟨clause, present, id, starts⟩ := offers.present
    have equal : clause = c := sound.formed.eq_of_id present member id
    subst equal
    exact ⟨starts _ inList, offers.legal _ inList, offers.cached cached listed _ inList⟩
  split
  · rename_i shorter
    simp only [ne_eq, decide_not, Bool.and_eq_true, Bool.not_eq_true', decide_eq_false_iff_not,
      decide_eq_true_eq] at shorter
    split
    · exact .inl (clearCancelStage_quiet m)
    rename_i id numbered
    split
    case h_2 => exact .inl (clearCancelStage_quiet m)
    rename_i next surface counted sliced
    obtain rfl := u64CheckedAdd_eq_some counted
    obtain ⟨_, _, rfl⟩ := readingSlice_eq_some_iff.mp sliced
    refine .inr ⟨c.id, candidates, applyChoice_chosen window atSelected inList (by omega) rfl rfl rfl
      (by simp) (spoken _ (by simp)) ?_⟩
    -- A shorter candidate leaves the rest of the interval as a new reading clause.
    intro sound m' reading clauses nextId selected
    obtain ⟨onward, legal, _⟩ := offers sound
    rw [if_pos (by simpa using shorter.1)] at clauses
    refine sound.formed.splice (Nat.le_add_right _ _) atSelected atBack _ reading clauses (by simp)
      ?_ ?_ ?_ ?_ ?_ ?_ (fun none => by rw [none] at numbered; cases numbered) selected
    · exact ⟨rfl, onward, rfl, shorter.2, edge.symm⟩
    · have tail := sound.formed.legal_stop (List.mem_of_getElem? atBack)
      rw [edge] at tail
      simp [legal, tail]
    · have := sound.formed.below id numbered c member
      simp
      omega
    · simp [numbered]
    · intro bound known
      rw [nextId, Option.some.injEq] at known
      have := sound.formed.below id numbered c member
      simp [numbered]
      omega
    · simp [candidateSource_ne_reading, readingOf, slice]
  · rename_i reaches
    refine .inr ⟨c.id, candidates, applyChoice_chosen window atSelected inList (by omega) rfl rfl rfl
      (by simp) (spoken _ (by simp)) ?_⟩
    intro sound m' reading clauses nextId selected
    obtain ⟨onward, legal, within⟩ := offers sound
    by_cases changed : c.stop = candidate.readingEnd
    · -- Without a new boundary only the selected clause changes what it shows.
      rw [if_neg (by simpa using changed)] at clauses
      exact sound.formed.merge le_rfl atSelected atSelected _ (by rfl) (by rfl) changed.symm
        (fun plain => absurd plain (candidateSource_ne_reading candidate)) reading clauses nextId selected
    · -- The longest candidate takes back what a shorter one had split off.
      rw [if_pos (by simpa using changed)] at clauses
      refine sound.formed.merge (Nat.le_add_right _ _) atSelected atBack _ (by rfl) (by rfl) ?_
        (fun plain => absurd plain (candidateSource_ne_reading candidate)) reading clauses nextId selected
      rw [edge]
      simp [changed] at reaches
      exact le_antisymm within reaches

end Choice

end ClauseConversion

end Nospacekey
