import Nospacekey.Clause.Sessions

/-! An edit of the clauses that is refused leaves them, and all that is known of them, as they were. -/

namespace Nospacekey

open Tiling

variable {τ : Type}

namespace ClauseConversion

/-- What an edit may change is as it was. A refused edit may still have left a pending cancellation. -/
structure Untouched (m m' : ClauseConversion τ) : Prop where
  reading : m'.reading = m.reading
  identity : m'.identity = m.identity
  revision : m'.revision = m.revision
  clauses : m'.clauses = m.clauses
  selected : m'.selected = m.selected
  mode : m'.mode = m.mode
  editingClause : m'.editingClause = m.editingClause
  nextClauseId : m'.nextClauseId = m.nextClauseId
  sentenceToken : m'.sentenceToken = m.sentenceToken
  window : m'.window = m.window
  cache : m'.cache = m.cache
  issued : m'.issued = m.issued

/-- An edit reports that it changed nothing, or that a counter is exhausted. -/
def Refuses (outcome : LocalEditOutcome) : Prop := outcome = .unchanged ∨ outcome = .exhausted

/-- An edit that is refused leaves the model, and one that is made closes the window. -/
def Atomic (m : ClauseConversion τ) (result : ClauseConversion τ × LocalEditOutcome) : Prop :=
  Untouched m result.1 ∨ result.1.window = .closed ∧ ¬Refuses result.2

/-- The same for an edit that reports whether it was made. -/
def AtomicOn (m : ClauseConversion τ) (result : ClauseConversion τ × Bool) : Prop :=
  Untouched m result.1 ∨ result.1.window = .closed ∧ result.2 = true

section Edits

variable {m : ClauseConversion τ}

/-- Doing nothing touches nothing. -/
theorem Untouched.refl (m : ClauseConversion τ) : Untouched m m :=
  ⟨rfl, rfl, rfl, rfl, rfl, rfl, rfl, rfl, rfl, rfl, rfl, rfl⟩

/-- A pending cancellation is no part of the clauses. -/
theorem clearCancelStage_untouched (m : ClauseConversion τ) : Untouched m { m with cancelStage := .none } :=
  ⟨rfl, rfl, rfl, rfl, rfl, rfl, rfl, rfl, rfl, rfl, rfl, rfl⟩

/-- An edit that does nothing is atomic. -/
theorem atomic_refl (m : ClauseConversion τ) (outcome : LocalEditOutcome) : Atomic m (m, outcome) :=
  .inl (Untouched.refl m)

/-- Every other outcome is that of an edit that was made. -/
theorem atomic_closed {m' : ClauseConversion τ} {outcome : LocalEditOutcome} (window : m'.window = .closed)
    (made : ¬Refuses outcome) : Atomic m (m', outcome) :=
  .inr ⟨window, made⟩

/-- A refused edit leaves the model. -/
theorem Atomic.untouched {result : ClauseConversion τ × LocalEditOutcome} (atomic : Atomic m result)
    (refused : Refuses result.2) : Untouched m result.1 := by
  rcases atomic with untouched | ⟨_, made⟩
  · exact untouched
  · exact absurd refused made

/-- The same for an edit that reports whether it was made. -/
theorem AtomicOn.untouched {result : ClauseConversion τ × Bool} (atomic : AtomicOn m result)
    (refused : result.2 = false) : Untouched m result.1 := by
  rcases atomic with untouched | ⟨_, made⟩
  · exact untouched
  · rw [refused] at made
    cases made

/-- Beginning an edit is atomic. -/
theorem beginReadingEdit_atomic (m : ClauseConversion τ) (index : Nat) : Atomic m (m.beginReadingEdit index) := by
  unfold beginReadingEdit
  split
  · exact atomic_refl m _
  split
  · exact atomic_refl m _
  · exact atomic_closed rfl (by simp [Refuses])

/-- Replacing the edited reading is atomic: drafts that absorbed neighbours are dropped when they fail. -/
theorem replaceEditedReading_atomic (m : ClauseConversion τ) (reading : Text) (readingRevision : Nat) :
    Atomic m (m.replaceEditedReading reading readingRevision) := by
  rcases replaceEditedReading_replaced m reading readingRevision with ⟨effect, made⟩ | ⟨same, _⟩
  · refine .inr ⟨effect.window, ?_⟩
    rcases made with made | made <;> simp [Refuses, made]
  · refine .inl ?_
    rw [same]
    exact Untouched.refl m

/-- Deleting at the end of the display is atomic. -/
theorem deleteDisplayTail_atomic (segmentation : Segmentation) (m : ClauseConversion τ) :
    Atomic m (m.deleteDisplayTail segmentation) := by
  unfold deleteDisplayTail
  split
  · exact atomic_refl m _
  split
  · exact atomic_refl m _
  split
  · exact atomic_refl m _
  split
  · split
    · exact atomic_refl m _
    · refine atomic_closed rfl ?_
      split <;> simp [Refuses]
  · exact atomic_closed rfl (by simp [Refuses])

/-- Escape is atomic. -/
theorem escape_atomic (m : ClauseConversion τ) : Atomic m m.escape := by
  unfold escape
  split
  · exact atomic_closed rfl (by simp [Refuses])
  rename_i open'
  split
  · exact atomic_refl m _
  split
  · exact atomic_refl m _
  · have closed : m.window = .closed := by
      cases window : m.window <;> simp_all [CandidateWindow.isClosed]
    refine atomic_closed closed ?_
    split <;> simp [Refuses]

/-- Resizing the selected clause is atomic. -/
theorem resizeSelected_atomic (m : ClauseConversion τ) (direction : Int) : Atomic m (m.resizeSelected direction) := by
  unfold resizeSelected
  split
  · exact atomic_refl m _
  split
  case h_2 => exact atomic_refl m _
  dsimp only
  split
  · exact atomic_refl m _
  split
  · exact atomic_refl m _
  split
  · exact atomic_refl m _
  split
  · exact atomic_refl m _
  · exact atomic_closed rfl (by simp [Refuses])

/-- Replacing the whole surface is atomic. -/
theorem replaceWholeSurface_atomic (m : ClauseConversion τ) (surface : Text) :
    AtomicOn m (m.replaceWholeSurface surface) := by
  unfold replaceWholeSurface
  dsimp only
  split
  · exact .inr ⟨rfl, rfl⟩
  · exact .inl (clearCancelStage_untouched m)

/-- Changing the notation of a range is atomic. -/
theorem transformNotation_atomic (m : ClauseConversion τ) (start stop : Nat) (kind : Notation)
    (original : Option Text) : AtomicOn m (m.transformNotation start stop kind original) := by
  unfold transformNotation
  dsimp only
  split
  case h_2 => exact .inl (clearCancelStage_untouched m)
  split
  · exact .inl (clearCancelStage_untouched m)
  split
  · exact .inr ⟨rfl, rfl⟩
  · exact .inl (clearCancelStage_untouched m)

/-- A clause that shows a candidate, up to where the candidate ends. -/
def showing [EngineToken τ] (c : LocalClause τ) (candidate : ClauseCandidate τ) : LocalClause τ :=
  { c with
    stop := candidate.readingEnd
    surface := candidate.surface
    source := candidateSource candidate }

/-- What a successful choice puts in place of the clauses of the list's interval that it changes. -/
structure ChoiceOf [EngineToken τ] (m : ClauseConversion τ) (index : Nat) (id : Nat)
    (candidates : List (ClauseCandidate τ)) (candidate : ClauseCandidate τ) (c : LocalClause τ)
    (cached : CachedCandidates τ) (beyond : Nat) (m' : ClauseConversion τ) : Prop where
  open' : ∃ shown, m.window = .ready id candidates shown
  inList : candidates[index]? = some candidate
  atSelected : m.clauses[m.selected]? = some c
  same : c.id = id
  kept : m.cache.lookup id = some cached
  reached : (m.clauses.drop m.selected).findIdx? (fun clause => clause.stop = cached.stop) = some beyond
  reading : m'.reading = m.reading
  selected : m'.selected = m.selected
  window : m'.window = .ready id candidates index
  clauses : ∃ rest, m'.clauses = splice m.clauses m.selected
      (if c.stop = candidate.readingEnd then m.selected + 1 else m.selected + beyond + 1)
      (showing c candidate :: rest) ∧
    ((¬(c.stop ≠ candidate.readingEnd ∧ candidate.readingEnd < cached.stop) ∧ rest = []) ∨
      (c.stop ≠ candidate.readingEnd ∧ candidate.readingEnd < cached.stop) ∧ ∃ next,
        rest = [{ id := next, start := candidate.readingEnd, stop := cached.stop
                  surface := slice m.reading candidate.readingEnd cached.stop, source := .reading }])
  cache : m'.cache = m.cache.retain fun id => ((m'.clauses.take (m.selected + 1)).map LocalClause.id).contains id
  issued : m'.issued = ∅

/-- Choosing a candidate is refused and leaves the model, or shows the candidate in the open list. -/
theorem selectCandidate_result [EngineToken τ] (m : ClauseConversion τ) (index : Nat) :
    m.selectCandidate index = ({ m with cancelStage := .none }, false) ∨
      (m.selectCandidate index).2 = true ∧ ∃ id candidates candidate c cached beyond,
        ChoiceOf m index id candidates candidate c cached beyond (m.selectCandidate index).1 := by
  unfold selectCandidate
  dsimp only
  split
  · exact .inl rfl
  · exact .inl rfl
  rename_i id candidates shown window
  split
  case h_2 => exact .inl rfl
  rename_i candidate c inList atSelected
  split
  · exact .inl rfl
  rename_i same
  split
  case h_2 => exact .inl rfl
  rename_i revision cached added kept
  split
  · exact .inl rfl
  rename_i beyond reached
  split
  · rename_i shorter
    simp only [ne_eq, decide_not, Bool.and_eq_true, Bool.not_eq_true', decide_eq_false_iff_not,
      decide_eq_true_eq] at shorter
    split
    · exact .inl rfl
    rename_i fresh numbered
    split
    case h_2 => exact .inl rfl
    rename_i next surface counted sliced
    obtain ⟨_, _, rfl⟩ := readingSlice_eq_some_iff.mp sliced
    refine .inr ⟨rfl, id, candidates, candidate, c, cached, beyond,
      { open' := ⟨shown, window⟩, inList := inList, atSelected := atSelected, same := not_not.mp same, kept := kept,
        reached := reached, reading := rfl, selected := rfl, window := rfl, cache := rfl, issued := rfl,
        clauses := ⟨_, ?_, .inr ⟨shorter, fresh, rfl⟩⟩ }⟩
    rw [if_neg shorter.1]
    simp [applyChoice, showing, shorter.1, slice]
  · rename_i reaches
    simp only [ne_eq, decide_not, Bool.and_eq_true, Bool.not_eq_true', decide_eq_false_iff_not,
      decide_eq_true_eq] at reaches
    refine .inr ⟨rfl, id, candidates, candidate, c, cached, beyond,
      { open' := ⟨shown, window⟩, inList := inList, atSelected := atSelected, same := not_not.mp same, kept := kept,
        reached := reached, reading := rfl, selected := rfl, window := rfl, cache := rfl, issued := rfl,
        clauses := ⟨[], ?_, .inl ⟨reaches, rfl⟩⟩ }⟩
    by_cases unchanged : c.stop = candidate.readingEnd <;> simp [applyChoice, showing, unchanged]

/-- A choice that is refused leaves the model. -/
theorem selectCandidate_untouched [EngineToken τ] (m : ClauseConversion τ) (index : Nat)
    (refused : (m.selectCandidate index).2 = false) : Untouched m (m.selectCandidate index).1 := by
  rcases selectCandidate_result m index with same | ⟨made, _⟩
  · rw [same]
    exact clearCancelStage_untouched m
  · rw [refused] at made
    cases made

end Edits

section Claims

variable [EngineToken τ] (segmentation : Segmentation)

/-- An edit that reports that it changed nothing, or that a counter is exhausted, leaves all of the model, and the drafts
of a replaced reading only merge neighbours, at most all of them. -/
theorem edits_atomic (m : ClauseConversion τ) :
    (∀ index, Refuses (m.beginReadingEdit index).2 → Untouched m (m.beginReadingEdit index).1) ∧
    (∀ reading readingRevision, Refuses (m.replaceEditedReading reading readingRevision).2 →
      Untouched m (m.replaceEditedReading reading readingRevision).1) ∧
    (Refuses (m.deleteDisplayTail segmentation).2 → Untouched m (m.deleteDisplayTail segmentation).1) ∧
    (Refuses m.escape.2 → Untouched m m.escape.1) ∧
    (∀ direction, Refuses (m.resizeSelected direction).2 → Untouched m (m.resizeSelected direction).1) ∧
    (∀ start stop kind original, (m.transformNotation start stop kind original).2 = false →
      Untouched m (m.transformNotation start stop kind original).1) ∧
    (∀ surface, (m.replaceWholeSurface surface).2 = false → Untouched m (m.replaceWholeSurface surface).1) ∧
    (∀ index, (m.selectCandidate index).2 = false → Untouched m (m.selectCandidate index).1) ∧
    (∀ identity reading text, m.promoteLiveDisplay identity reading text = none →
      Untouched m (m.apply segmentation (.promoteLiveDisplay identity reading text))) ∧
    ∀ reading readingRevision,
      (m.replaceEditedReading reading readingRevision =
        replaceEditedReadingBy (fun draft => draft.replaceEditedReading reading readingRevision) m reading
          readingRevision) ∧
      (∀ retry retry' : ClauseConversion τ → ClauseConversion τ × LocalEditOutcome,
        (∀ first last, first < last → last < m.clauses.length →
          retry (m.absorbNeighbours first last) = retry' (m.absorbNeighbours first last)) →
        replaceEditedReadingBy retry m reading readingRevision =
          replaceEditedReadingBy retry' m reading readingRevision) ∧
      (∀ first last, first < last → last < m.clauses.length →
        (m.absorbNeighbours first last).clauses.length < m.clauses.length) ∧
      ∀ fuel, m.clauses.length ≤ fuel + 1 →
        replaceEditedReadingWithin reading readingRevision fuel m = m.replaceEditedReading reading readingRevision := by
  refine ⟨fun index => (beginReadingEdit_atomic m index).untouched,
    fun reading readingRevision => (replaceEditedReading_atomic m reading readingRevision).untouched,
    (deleteDisplayTail_atomic segmentation m).untouched, (escape_atomic m).untouched,
    fun direction => (resizeSelected_atomic m direction).untouched,
    fun start stop kind original => (transformNotation_atomic m start stop kind original).untouched,
    fun surface => (replaceWholeSurface_atomic m surface).untouched, selectCandidate_untouched m,
    fun identity reading text refused => ?_, fun reading readingRevision => ⟨?_, fun retry retry' same => ?_,
      fun first last => length_absorbNeighbours, fun fuel => replaceEditedReadingWithin_eq m reading readingRevision⟩⟩
  · show Untouched m ((m.promoteLiveDisplay identity reading text).getD m)
    rw [refused]
    exact Untouched.refl m
  · exact replaceEditedReading_eq m reading readingRevision
  · exact replaceEditedReadingBy_congr same reading readingRevision

/-- Where no revision is left every edit of a reading is refused, and a range, a list or a display that does not fit is
refused before that. -/
theorem edits_atomic_exhausted : ∃ m : ClauseConversion String,
    (fromReading ⟨1, 1, 1, 1⟩ ['か', 'な']).map (fun m => { m with revision := 2 ^ 64 - 1, editingClause := some 1 }) =
        some m ∧
      Untouched m (m.beginReadingEdit 0).1 ∧ Untouched m (m.replaceEditedReading ['か', 'ま'] 2).1 ∧
      Untouched m (m.deleteDisplayTail .scalars).1 ∧ Untouched m m.escape.1 ∧ Untouched m (m.resizeSelected 1).1 ∧
      Untouched m (m.transformNotation 1 2 .katakana none).1 ∧ Untouched m (m.replaceWholeSurface ['仮']).1 ∧
      Untouched m (m.selectCandidate 0).1 ∧
      Untouched m (m.apply .scalars (.promoteLiveDisplay ⟨1, 1, 1, 2⟩ ['か', 'な'] ['仮', '名'])) ∧
      replaceEditedReadingBy (fun draft => draft.replaceEditedReading ['か', 'ま'] 2) m ['か', 'ま'] 2 =
        replaceEditedReadingBy (fun draft => (draft, .unchanged)) m ['か', 'ま'] 2 ∧
      replaceEditedReadingWithin ['か', 'ま'] 2 0 m = m.replaceEditedReading ['か', 'ま'] 2 := by
  refine ⟨_, rfl, ?_⟩
  obtain ⟨begins, replaces, deletes, escapes, resizes, transforms, whole, selects, promotes, absorbs⟩ :=
    edits_atomic .scalars ({
      learningIdentity := none, mode := .editing, reading := ['か', 'な'], identity := ⟨1, 1, 1, 1⟩, baseline := 0
      revision := 2 ^ 64 - 1, clauses := [⟨1, 0, 2, ['か', 'な'], .reading⟩], selected := 0, window := .closed
      sentenceToken := none, issued := ∅, cache := ∅, lastRequestId := 0, nextClauseId := some 2
      boundaryRequest := none, cancelStage := .none, userDriven := true, editingClause := some 1
      notationCycle := none } : ClauseConversion String)
  exact ⟨begins 0 (.inr rfl), replaces _ 2 (.inr (by decide +kernel)), deletes (.inr (by decide +kernel)),
    escapes (.inr rfl), resizes 1 (.inl rfl), transforms 1 2 _ _ rfl, whole _ rfl, selects 0 rfl,
    promotes _ _ _ (by decide +kernel),
    (absorbs ['か', 'ま'] 2).2.1 _ _ (fun first last ordered within => by simp at within; omega),
    (absorbs ['か', 'ま'] 2).2.2.2 0 (by decide)⟩

end Claims

end ClauseConversion

end Nospacekey
