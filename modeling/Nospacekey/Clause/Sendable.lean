import Nospacekey.Clause.Waits
import Nospacekey.Clause.Atomicity
import Nospacekey.Ipc.ClauseRequests

/-! What the clause model keeps so that everything it sends passes the checks of the wire. -/

namespace Nospacekey

open Runs Tiling

variable {τ : Type}

namespace ClauseConversion

/-- The reading is normalised, and no clause with a surface of its own shows nothing. -/
structure Legible (m : ClauseConversion τ) : Prop where
  normal : normalizeReading m.reading = m.reading
  shown : ∀ clause ∈ m.clauses, clause.source ≠ .reading → clause.surface ≠ []

/-- What the model and all that it keeps for later must be so that it can be sent. -/
structure Sendable [EngineToken τ] (m : ClauseConversion τ) : Prop where
  legible : m.Legible
  solid : ∀ token ∈ m.clauseTokens, EngineToken.isEmpty token = false
  kept : ∀ id cached, m.cache.lookup id = some cached → ∀ candidate ∈ cached.candidates, candidate.surface ≠ []
  listed : ∀ id candidates shown, m.window = .ready id candidates shown →
    ∀ candidate ∈ candidates, candidate.surface ≠ []
  asked : ∀ entry conversion, m.boundaryRequest = some entry → entry.conversion = some conversion →
    conversion.validate = .ok ()

/-- A caller passes normalised readings, and surfaces and materials that are not empty. -/
def WellSpoken : ClauseOp τ → Prop
  | .promoteLiveDisplay _ reading _ => normalizeReading reading = reading
  | .replaceEditedReading reading _ => normalizeReading reading = reading
  | .replaceWholeSurface surface => surface ≠ []
  | .transformNotation _ _ _ original => original ≠ some []
  | _ => True

section Legible

variable {m m' : ClauseConversion τ}

/-- A nonempty part of a reading is not the empty text. -/
theorem slice_ne_nil {reading : Text} {start stop : Nat} (nonempty : start < stop) (within : stop ≤ reading.length) :
    slice reading start stop ≠ [] := by
  intro empty
  have length := congrArg List.length empty
  unfold slice at length
  rw [List.length_take, List.length_drop, List.length_nil] at length
  omega

/-- Every clause of a legible model shows something. -/
theorem Legible.surface_ne_nil (legible : m.Legible) (formed : m.WellFormed) {clause : LocalClause τ}
    (member : clause ∈ m.clauses) : clause.surface ≠ [] := by
  by_cases reads : clause.source = .reading
  · rw [formed.shown clause member reads]
    have bounds := formed.bounds member
    exact slice_ne_nil bounds.1 bounds.2
  · exact legible.shown clause member reads

/-- Part of a normalised reading is normalised. -/
theorem normalizeReading_of_subset {reading other : Text} (normal : normalizeReading reading = reading)
    (part : ∀ scalar ∈ other, scalar ∈ reading) : normalizeReading other = other := by
  rw [normalizeReading_eq_iff] at normal ⊢
  exact fun scalar member => normal scalar (part scalar member)

/-- Clauses that read, or show what old ones with surfaces of their own showed, keep the model legible. -/
theorem Legible.of_origin (legible : m.Legible) (normal : normalizeReading m'.reading = m'.reading)
    (origin : ∀ clause ∈ m'.clauses, clause.source = .reading ∨
      ∃ old ∈ m.clauses, old.surface = clause.surface ∧ (old.source = .reading → clause.source = .reading)) :
    m'.Legible where
  normal := normal
  shown := fun clause member own => by
    rcases origin clause member with reads | ⟨old, inOld, same, reading⟩
    · exact absurd reads own
    · rw [← same]
      exact legible.shown old inOld fun reads => own (reading reads)

/-- The same clauses and reading are as legible. -/
theorem Legible.congr (legible : m.Legible) (reading : m'.reading = m.reading) (clauses : m'.clauses = m.clauses) :
    m'.Legible where
  normal := by rw [reading]; exact legible.normal
  shown := by rw [clauses]; exact legible.shown

/-- Opening a clause for editing keeps the model legible. -/
theorem beginReadingEdit_legible (legible : m.Legible) (index : Nat) : (m.beginReadingEdit index).1.Legible := by
  unfold beginReadingEdit
  split
  · exact legible
  split
  · exact legible
  refine legible.of_origin legible.normal fun clause member => ?_
  rcases List.mem_or_eq_of_mem_set (show clause ∈ m.clauses.set index _ from member) with old | rfl
  · exact .inr ⟨clause, old, rfl, fun reads => reads⟩
  · exact .inl rfl

/-- Absorbing neighbours keeps the model legible. -/
theorem absorbNeighbours_legible (legible : m.Legible) (first last : Nat) :
    (m.absorbNeighbours first last).Legible := by
  unfold absorbNeighbours
  split
  · refine legible.of_origin legible.normal fun clause member => ?_
    rcases mem_or_mem_of_mem_splice member with old | new
    · exact .inr ⟨clause, old, rfl, fun reads => reads⟩
    · exact .inl (by rw [List.mem_singleton.mp new])
  · exact legible

/-- Replacing an interval by a normalised reading keeps the model legible. -/
theorem replaceInterval_legible (legible : m.Legible) {reading : Text} (normal : normalizeReading reading = reading)
    (readingRevision start newStop : Nat) : (m.replaceInterval reading readingRevision start newStop).1.Legible := by
  unfold replaceInterval
  split
  · exact legible
  split
  · exact legible
  dsimp only
  split
  · exact legible
  split
  · exact legible
  refine legible.of_origin normal fun clause member => ?_
  have later : ∀ {firstId delta}, clause ∈ shiftClauses firstId delta (m.clauses.drop (m.editedIndex + 1)) →
      ∃ old ∈ m.clauses, old.surface = clause.surface ∧ (old.source = .reading → clause.source = .reading) := by
    intro firstId delta inLater
    obtain ⟨old, inOld, _, _, surface, source⟩ := mem_shiftClauses inLater
    refine ⟨old, List.mem_of_mem_drop inOld, surface.symm, fun reads => ?_⟩
    rcases source with same | retired
    · rw [same, reads]
    · rw [retired, reads]
      rfl
  rcases List.mem_append.mp member with before | after
  · exact .inr ⟨clause, List.mem_of_mem_take before, rfl, fun reads => reads⟩
  · split at after
    · exact .inr (later after)
    · rcases List.mem_cons.mp after with rfl | inLater
      · exact .inl rfl
      · exact .inr (later inLater)

/-- One attempt at an edit keeps the model legible when its retries do. -/
theorem replaceEditedReadingBy_legible
    {retry : ClauseConversion τ → ClauseConversion τ × LocalEditOutcome}
    (retries : ∀ draft, draft.Legible → (retry draft).1.Legible) (legible : m.Legible) {reading : Text}
    (normal : normalizeReading reading = reading) (readingRevision : Nat) :
    (replaceEditedReadingBy retry m reading readingRevision).1.Legible := by
  unfold replaceEditedReadingBy
  split
  · exact legible
  dsimp only
  split
  · exact legible
  split
  · exact legible
  split
  · exact legible
  split
  · split
    · exact legible
    · have draft : ∀ first last, (retry (m.absorbNeighbours first last)).1.Legible := fun first last =>
        retries _ (absorbNeighbours_legible legible first last)
      split
      · exact draft _ _
      · exact draft _ _
      · exact legible
  · exact replaceInterval_legible legible normal readingRevision _ _

/-- Editing the reading of an interval keeps the model legible. -/
theorem replaceEditedReading_legible (legible : m.Legible) {reading : Text}
    (normal : normalizeReading reading = reading) (readingRevision : Nat) :
    (m.replaceEditedReading reading readingRevision).1.Legible := by
  have within : ∀ fuel (m : ClauseConversion τ), m.Legible →
      (replaceEditedReadingWithin reading readingRevision fuel m).1.Legible := by
    intro fuel
    induction fuel with
    | zero =>
      exact fun m legible => replaceEditedReadingBy_legible (fun _ draft => draft) legible normal readingRevision
    | succ fuel ih => exact fun m legible => replaceEditedReadingBy_legible ih legible normal readingRevision
  exact within _ m legible

/-- What is left of a surface before its last grapheme is not empty, unless that is all there is. -/
theorem takeBytes_lastGraphemeStart_ne_nil {segmentation : Segmentation} {text : Text} {start : Nat}
    (found : lastGraphemeStart segmentation text = some start) (positive : start ≠ 0) :
    Utf8.takeBytes start text ≠ [] := by
  obtain ⟨front, back, rfl, rfl⟩ := lastGraphemeStart_isCharBoundary found
  rw [Utf8.takeBytes_append]
  rintro rfl
  exact positive rfl

/-- Deleting at the end of the display keeps the model legible. -/
theorem deleteDisplayTail_legible (segmentation : Segmentation) (legible : m.Legible) :
    (m.deleteDisplayTail segmentation).1.Legible := by
  unfold deleteDisplayTail
  split
  · exact legible
  rename_i last tail
  split
  · exact legible
  rename_i retained found
  split
  · exact legible
  have before : ∀ clause ∈ m.clauses.dropLast, clause ∈ m.clauses := fun clause member => List.dropLast_subset _ member
  split
  · split
    · exact legible
    · refine legible.of_origin ?_ fun clause member => .inr ⟨clause, before clause member, rfl, fun reads => reads⟩
      exact normalizeReading_of_subset legible.normal fun scalar member => List.mem_of_mem_take member
  · rename_i partly
    refine ⟨legible.normal, fun clause member own => ?_⟩
    rcases List.mem_append.mp member with old | new
    · exact legible.shown clause (before clause old) own
    · rw [List.mem_singleton.mp new]
      exact takeBytes_lastGraphemeStart_ne_nil found partly

/-- Cancelling keeps the model legible. -/
theorem escape_legible (legible : m.Legible) : m.escape.1.Legible := by
  unfold escape
  split
  · exact legible.congr rfl rfl
  split
  · exact legible
  split
  · exact legible
  refine legible.of_origin legible.normal fun clause member => ?_
  obtain ⟨index, inside, rfl⟩ := List.mem_mapIdx.mp member
  unfold revertClause
  split
  · exact .inl rfl
  · exact .inr ⟨_, List.getElem_mem inside, rfl, fun reads => reads⟩

/-- Resizing keeps the model legible. -/
theorem resizeSelected_legible (legible : m.Legible) (direction : Int) : (m.resizeSelected direction).1.Legible := by
  unfold resizeSelected
  split
  · exact legible
  split
  case h_2 => exact legible
  dsimp only
  split
  · exact legible
  split
  · exact legible
  split
  · exact legible
  split
  · exact legible
  refine legible.of_origin legible.normal fun clause member => ?_
  rcases mem_or_mem_of_mem_splice member with old | new
  · exact .inr ⟨clause, old, rfl, fun reads => reads⟩
  · refine .inl ?_
    split at new
    · rcases List.mem_pair.mp new with rfl | rfl <;> rfl
    · rw [List.mem_singleton.mp new]
      rfl

/-- Replacing the whole surface by another that is not empty keeps the model legible. -/
theorem replaceWholeSurface_legible (legible : m.Legible) {surface : Text} (spoken : surface ≠ []) :
    (m.replaceWholeSurface surface).1.Legible := by
  unfold replaceWholeSurface
  dsimp only
  split
  · refine ⟨legible.normal, fun clause member _ => ?_⟩
    rw [List.mem_singleton.mp member]
    exact spoken
  · exact legible.congr rfl rfl

end Legible

section Notation

/-- Every half-width spelling has a character. -/
theorem hankakuKanaTable_ne_nil : ∀ entry ∈ hankakuKanaTable, entry.2 ≠ [] := by decide

/-- Half-width kana of a text is not empty when the text is not. -/
theorem toHankakuKana_ne_nil {text : Text} (spoken : text ≠ []) : toHankakuKana text ≠ [] := by
  cases text with
  | nil => exact absurd rfl spoken
  | cons c rest =>
    unfold toHankakuKana
    rw [List.flatMap_cons]
    intro empty
    have first := (List.append_eq_nil_iff.mp empty).1
    cases found : hankakuKanaTable.lookup c with
    | none => simp [found] at first
    | some spelled =>
      rw [found] at first
      obtain ⟨front, back, whole, _⟩ := List.lookup_eq_some_iff.mp found
      exact hankakuKanaTable_ne_nil (c, spelled) (by rw [whole]; simp) first

/-- Letter case keeps the length of a text. -/
theorem length_asciiCase (step : Nat) (first : Bool) (text : Text) :
    (asciiCase step first text).length = text.length := by
  induction text generalizing first with
  | nil => rfl
  | cons c rest ih =>
    unfold asciiCase
    dsimp only
    split <;> simp [ih]

/-- A notation of a nonempty interval shows something, unless its material is empty. -/
theorem notationSurface_ne_nil (m : ClauseConversion τ) {start stop : Nat} (nonempty : start < stop)
    (within : stop ≤ m.reading.length) (kind : Notation) {original : Option Text} (spoken : original ≠ some []) :
    (m.notationSurface start stop kind original).1 ≠ [] := by
  have reading : m.readingOf start stop ≠ [] := slice_ne_nil nonempty within
  have material : original.getD (m.readingOf start stop) ≠ [] := by
    cases original with
    | none => exact reading
    | some text => exact fun empty => spoken (congrArg some empty)
  have ascii : ∀ step, asciiCase step true (original.getD (m.readingOf start stop)) ≠ [] := fun step empty => by
    have length := length_asciiCase step true (original.getD (m.readingOf start stop))
    rw [empty] at length
    exact material (List.length_eq_zero_iff.mp length.symm)
  unfold notationSurface
  cases kind with
  | hiragana => exact reading
  | katakana => exact fun empty => reading (List.map_eq_nil_iff.mp empty)
  | hankakuKana => exact toHankakuKana_ne_nil reading
  | zenkakuEisu => exact fun empty => ascii _ (List.map_eq_nil_iff.mp empty)
  | hankakuEisu => exact ascii _

variable {m m' : ClauseConversion τ}

/-- A notation change keeps the model legible, unless its material is empty. -/
theorem transformNotation_legible (legible : m.Legible) (formed : m.WellFormed) (start stop : Nat) (kind : Notation)
    {original : Option Text} (spoken : original ≠ some []) :
    (m.transformNotation start stop kind original).1.Legible := by
  have after := (transformNotation_edited m start stop kind original).wellFormed formed
  unfold transformNotation at after ⊢
  dsimp only at after ⊢
  split
  case h_2 => exact legible.congr rfl rfl
  rename_i first last atFirst atLast
  rw [atFirst, atLast] at after
  dsimp only at after
  split
  · exact legible.congr rfl rfl
  rename_i ordered
  rw [if_neg ordered] at after
  split
  case h_2 => exact legible.congr rfl rfl
  rename_i revision front added found
  rw [added, found] at after
  refine ⟨legible.normal, fun clause member own => ?_⟩
  -- The new clause is one of the result's, so its interval is not empty.
  rcases mem_or_mem_of_mem_splice (show clause ∈ splice m.clauses first (last + 1) _ from member) with old | new
  · exact legible.shown clause old own
  · have bounds := after.bounds member
    rw [List.mem_singleton.mp new] at bounds ⊢
    exact notationSurface_ne_nil { m with cancelStage := .none } bounds.1 bounds.2 kind spoken

/-- Promoting to a normalised reading keeps the model legible. -/
theorem promoteLiveDisplay_legible (legible : m.Legible) {identity : SnapshotIdentity} {reading text : Text}
    (normal : normalizeReading reading = reading) (promoted : m.promoteLiveDisplay identity reading text = some m') :
    m'.Legible := by
  unfold promoteLiveDisplay at promoted
  split at promoted
  · cases promoted
  dsimp only at promoted
  split at promoted
  · cases promoted
  split at promoted
  · obtain rfl := (Option.some.inj promoted).symm
    exact legible.congr rfl rfl
  obtain ⟨start, _, promoted⟩ := Option.bind_eq_some_iff.mp promoted
  obtain ⟨stop, _, promoted⟩ := Option.bind_eq_some_iff.mp promoted
  obtain ⟨boundaries, _, promoted⟩ := Option.bind_eq_some_iff.mp promoted
  split at promoted
  · cases promoted
  obtain ⟨id, _, promoted⟩ := Option.bind_eq_some_iff.mp promoted
  obtain ⟨next, _, promoted⟩ := Option.bind_eq_some_iff.mp promoted
  obtain ⟨revision, _, promoted⟩ := Option.bind_eq_some_iff.mp promoted
  obtain rfl := (Option.some.inj promoted).symm
  refine legible.of_origin normal fun clause member => ?_
  rcases List.mem_append.mp member with old | new
  · exact .inr ⟨clause, old, rfl, fun reads => reads⟩
  · exact .inl (by rw [List.mem_singleton.mp new])

end Notation

section Sendable

variable [EngineToken τ] {m m' : ClauseConversion τ}

/-- Lists and requests may go, and the window may close, while the clauses stay legible and gain no token. -/
theorem Sendable.mono (sendable : m.Sendable) (legible : m'.Legible)
    (tokens : ∀ token ∈ m'.clauseTokens, token ∈ m.clauseTokens)
    (cache : ∀ id cached, m'.cache.lookup id = some cached → m.cache.lookup id = some cached)
    (window : m'.window = m.window ∨ m'.window.isReady = false)
    (boundary : ∀ entry, m'.boundaryRequest = some entry → m.boundaryRequest = some entry) : m'.Sendable where
  legible := legible
  solid := fun token member => sendable.solid token (tokens token member)
  kept := fun id cached found => sendable.kept id cached (cache id cached found)
  listed := fun id candidates shown open' => by
    rcases window with same | unready
    · exact sendable.listed id candidates shown (same ▸ open')
    · rw [open'] at unready
      cases unready
  asked := fun entry conversion found => sendable.asked entry conversion (boundary entry found)

omit [EngineToken τ] in
/-- Tokens of the same clauses are the same. -/
theorem clauseTokens_of_clauses (clauses : m'.clauses = m.clauses) :
    ∀ token ∈ m'.clauseTokens, token ∈ m.clauseTokens := by
  unfold clauseTokens
  rw [clauses]
  exact fun _ member => member

/-- Quiet steps keep the model sendable. -/
theorem Quiet.sendable (quiet : Quiet m m') (sendable : m.Sendable) : m'.Sendable :=
  sendable.mono (sendable.legible.congr quiet.reading quiet.clauses) (clauseTokens_of_clauses quiet.clauses) quiet.cache
    (quiet.window.imp_right fun closed => by rw [closed]; rfl) quiet.boundary

/-- Local edits keep the model sendable when they keep it legible. -/
theorem Edited.sendable (edited : Edited m m') (sendable : m.Sendable) (legible : m'.Legible) : m'.Sendable := by
  cases edited with
  | quiet effect => exact effect.sendable sendable
  | reshaped effect =>
    exact sendable.mono legible effect.tokens (fun id cached found => (effect.cache id cached found).2)
      (.inr (by rw [effect.window]; rfl)) effect.boundary

/-- Forgetting the learning identity keeps the model sendable. -/
theorem Forgotten.sendable (forgotten : Forgotten m m') (sendable : m.Sendable) : m'.Sendable := by
  refine sendable.mono ?_ ?_ (fun _ _ found => (lookup_empty_ne_some (forgotten.cache ▸ found)).elim) ?_
    forgotten.boundary
  · refine sendable.legible.of_origin (by rw [forgotten.reading]; exact sendable.legible.normal) fun clause member => ?_
    rw [forgotten.clauses] at member
    obtain ⟨old, inOld, rfl⟩ := List.mem_map.mp member
    exact .inr ⟨old, inOld, rfl, (SurfaceSource.retire_eq_reading _).mpr⟩
  · intro token member
    obtain ⟨clause, inClauses, found⟩ := List.mem_filterMap.mp member
    rw [forgotten.clauses] at inClauses
    obtain ⟨old, _, rfl⟩ := List.mem_map.mp inClauses
    rw [SurfaceSource.token_retire] at found
    cases found
  · rcases forgotten.window with closed | ⟨same, _⟩
    · exact .inr (by rw [closed]; rfl)
    · exact .inl same

/-- Showing a kept list keeps the model sendable. -/
theorem Listed.sendable {cached : CachedCandidates τ} (listed : Listed m m' cached) (sendable : m.Sendable) :
    m'.Sendable where
  legible := sendable.legible.congr listed.reading listed.clauses
  solid := fun token member => sendable.solid token (clauseTokens_of_clauses listed.clauses token member)
  kept := by rw [listed.cache]; exact sendable.kept
  listed := by
    intro id candidates shown open'
    obtain ⟨_, _, _, found, _, _, after⟩ := listed.window
    rw [after, CandidateWindow.ready.injEq] at open'
    obtain ⟨_, rfl, _⟩ := open'
    exact sendable.kept _ _ found
  asked := by rw [listed.boundary]; exact sendable.asked

/-- Asking keeps the model sendable when the conversion that is asked passes its check. -/
theorem Asked.sendable {entry : IssuedCandidates} (asked : Asked m m' entry) (sendable : m.Sendable)
    (valid : ∀ conversion, m'.boundaryRequest = some entry → entry.conversion = some conversion →
      conversion.validate = .ok ()) : m'.Sendable where
  legible := sendable.legible.congr asked.reading asked.clauses
  solid := fun token member => sendable.solid token (clauseTokens_of_clauses asked.clauses token member)
  kept := fun id cached found => sendable.kept id cached (asked.cache id cached found)
  listed := fun _ _ _ open' => by rw [asked.window] at open'; cases open'
  asked := fun other conversion found converting => by
    rcases asked.boundary other found with rfl | old
    · exact valid conversion found converting
    · exact sendable.asked other conversion old converting

/-- An anchored list shows what was delivered, or what its clause shows. -/
theorem anchorCandidates_shown (legible : m.Legible) {id : Nat} {candidates : List (ClauseCandidate τ)}
    (delivered : ∀ candidate ∈ candidates, candidate.surface ≠ []) :
    ∀ candidate ∈ m.anchorCandidates id candidates, candidate.surface ≠ [] := by
  intro candidate member
  unfold anchorCandidates at member
  split at member
  · exact delivered candidate member
  rename_i clause found
  split at member
  · exact delivered candidate member
  rename_i own
  rcases List.mem_cons.mp member with rfl | later
  · cases shown : candidates.find? (shows clause) with
    | some other => exact delivered other (List.mem_of_find?_eq_some shown)
    | none =>
      refine legible.shown clause (List.mem_of_find?_eq_some found) fun reads => own ?_
      rw [reads]
      rfl
  · exact delivered candidate (List.mem_of_mem_eraseP (List.mem_filter.mp later).1)

/-- Storing a reply keeps the model sendable. -/
theorem Stored.sendable {entry : IssuedCandidates} {candidates : List (ClauseCandidate τ)}
    (stored : Stored m m' entry candidates) (sendable : m.Sendable) : m'.Sendable := by
  have anchored : ∀ id, ∀ candidate ∈ m.anchorCandidates id candidates, candidate.surface ≠ [] := fun id =>
    anchorCandidates_shown sendable.legible fun candidate member =>
      ((validateCandidates_ok stored.valid).2.2 candidate member).surface
  exact
    { legible := sendable.legible.congr stored.reading stored.clauses
      solid := fun token member => sendable.solid token (clauseTokens_of_clauses stored.clauses token member)
      kept := fun id cached found => by
        rw [stored.cache] at found
        rcases Table.lookup_insert_cases found with ⟨_, rfl⟩ | ⟨_, old⟩
        · exact anchored _
        · exact sendable.kept id cached old
      listed := fun id list shown open' => by
        rcases stored.window with same | ⟨_, _, _, _, after⟩
        · exact sendable.listed id list shown (same ▸ open')
        · rw [after, CandidateWindow.ready.injEq] at open'
          obtain ⟨_, rfl, _⟩ := open'
          exact anchored _
      asked := by rw [stored.boundary]; exact sendable.asked }

/-- The token of a chosen candidate is not the empty one. -/
theorem candidateSource_solid {candidate : ClauseCandidate τ} {token : τ}
    (found : (candidateSource candidate).token = some token) : EngineToken.isEmpty token = false := by
  unfold candidateSource at found
  split at found
  · cases found
  · rename_i solid
    obtain rfl := Option.some.inj found
    simpa using solid

/-- A choice keeps the model sendable. -/
theorem selectCandidate_sendable (sendable : m.Sendable) (index : Nat) : (m.selectCandidate index).1.Sendable := by
  have boundary := (selectCandidate_withdraws m index).boundary
  rcases selectCandidate_result m index with same | ⟨_, id, candidates, candidate, c, cached, beyond, choice⟩
  · rw [same]
    exact (clearCancelStage_quiet m).sendable sendable
  obtain ⟨shown, open'⟩ := choice.open'
  have listed := sendable.listed _ _ _ open'
  have origin : ∀ clause ∈ (m.selectCandidate index).1.clauses,
      clause ∈ m.clauses ∨ clause = showing c candidate ∨ clause.source = .reading := by
    intro clause member
    obtain ⟨rest, clauses, shape⟩ := choice.clauses
    rw [clauses] at member
    rcases mem_or_mem_of_mem_splice member with old | new
    · exact .inl old
    rcases List.mem_cons.mp new with same | inRest
    · exact .inr (.inl same)
    · rcases shape with ⟨_, rfl⟩ | ⟨_, next, rfl⟩
      · cases inRest
      · exact .inr (.inr (by rw [List.mem_singleton.mp inRest]))
  refine
    { legible := ⟨by rw [choice.reading]; exact sendable.legible.normal, fun clause member own => ?_⟩
      solid := fun token member => ?_
      kept := fun other kept found => ?_
      listed := fun other list place ready => ?_
      asked := fun entry conversion found => sendable.asked entry conversion (boundary entry found) }
  · rcases origin clause member with old | rfl | reads
    · exact sendable.legible.shown clause old own
    · exact listed candidate (List.mem_of_getElem? choice.inList)
    · exact absurd reads own
  · obtain ⟨clause, inClauses, found⟩ := List.mem_filterMap.mp member
    rcases origin clause inClauses with old | rfl | reads
    · exact sendable.solid token (List.mem_filterMap.mpr ⟨clause, old, found⟩)
    · exact candidateSource_solid found
    · rw [reads] at found
      cases found
  · rw [choice.cache] at found
    exact sendable.kept other kept (Table.lookup_of_lookup_retain found)
  · rw [choice.window, CandidateWindow.ready.injEq] at ready
    obtain ⟨_, rfl, _⟩ := ready
    exact listed

/-- Cycling keeps the model sendable. -/
theorem advanceCandidate_sendable (sendable : m.Sendable) (direction : Int) :
    (m.advanceCandidate direction).1.Sendable := by
  unfold advanceCandidate
  split
  · exact selectCandidate_sendable sendable _
  · exact sendable

/-- A candidate reply keeps the model sendable. -/
theorem acceptCandidates_sendable (sendable : m.Sendable) (key : ClauseRequestKey) (status : ClauseCandidatesStatus τ)
    (now : Nat) : (m.acceptCandidates key status now).1.Sendable := by
  rcases acceptCandidates_cases m key status now with same | ⟨ended, _⟩ | stored
  · rw [same]
    exact sendable
  · rw [ended]
    exact (endRequest_quiet m key).sendable sendable
  · obtain ⟨entry, candidates, mid, _, _, _, stored, result⟩ := stored
    rcases result with result | ⟨direction, result⟩ <;> rw [result]
    · exact stored.sendable sendable
    · exact advanceCandidate_sendable (stored.sendable sendable) direction

omit [EngineToken τ] in
/-- A clause that was replaced is an old one or a new one. -/
theorem mem_replaceLeading {old new : List (LocalClause τ)} {clause : LocalClause τ}
    (member : clause ∈ replaceLeading old new) : clause ∈ old ∨ clause ∈ new := by
  induction old generalizing new with
  | nil => cases new <;> cases member
  | cons first rest ih =>
    cases new with
    | nil => exact .inl member
    | cons shown more =>
      rcases List.mem_cons.mp member with rfl | later
      · exact .inr List.mem_cons_self
      · exact (ih later).imp (List.mem_cons_of_mem _) (List.mem_cons_of_mem _)

/-- The clauses after a boundary reply are old ones, maybe with their tokens retired, or come from checked ones. -/
theorem acceptBoundaryConversion_origin (m : ClauseConversion τ) (key : ClauseRequestKey)
    (status : ConvertClausesStatus τ) (learning : Option EngineLearningIdentity) (now : Nat) :
    ∀ clause ∈ (m.acceptBoundaryConversion key status learning now).1.clauses,
      (∃ old ∈ m.clauses, clause.surface = old.surface ∧
        (clause.source = old.source ∨ clause.source = old.source.retire)) ∨
      ∃ (wire : WireClause τ) (reading : Text) (stop : Nat), clause = localClause wire ∧ wire.Valid reading stop := by
  have kept : ∀ clause ∈ m.clauses, ∃ old ∈ m.clauses, clause.surface = old.surface ∧
      (clause.source = old.source ∨ clause.source = old.source.retire) :=
    fun clause member => ⟨clause, member, rfl, .inl rfl⟩
  intro clause member
  unfold acceptBoundaryConversion at member
  split at member
  · exact .inl (kept clause member)
  split at member
  · exact .inl (kept clause member)
  rename_i request _
  split at member
  · exact .inl (kept clause member)
  split at member
  · exact .inl (kept clause member)
  split at member
  · exact .inl (kept clause member)
  · exact .inl (kept clause member)
  rename_i wire
  dsimp only at member
  split at member
  · exact .inl (kept clause member)
  split at member
  · exact .inl (kept clause member)
  split at member
  · exact .inl (kept clause member)
  rename_i agreed
  simp only [Bool.or_eq_true, Bool.not_eq_true', not_or, Bool.not_eq_false, Bool.and_eq_true] at agreed
  obtain ⟨⟨passed, _⟩, _⟩ := agreed
  -- The reply passed its check, so each of its clauses did.
  have result : request.validateResult wire = .ok () := by
    cases checked : request.validateResult wire with
    | error _ => simp [checked, Except.isOk, Except.toBool] at passed
    | ok => rfl
  generalize base : (if m.learningIdentity ≠ learning then
    { m.invalidateLearning with learningIdentity := learning } else m) = mid at member
  have before : ∀ old ∈ mid.clauses, ∃ before ∈ m.clauses, old.surface = before.surface ∧
      (old.source = before.source ∨ old.source = before.source.retire) := by
    rw [← base]
    split
    · intro old inBase
      obtain ⟨before, inOld, rfl⟩ := List.mem_map.mp inBase
      exact ⟨before, inOld, rfl, .inr rfl⟩
    · exact kept
  rcases List.mem_append.mp member with front | back
  · exact .inl (before clause (List.mem_of_mem_take front))
  · rcases mem_replaceLeading back with old | new
    · exact .inl (before clause (List.mem_of_mem_drop old))
    · obtain ⟨converted, inReply, rfl⟩ := List.mem_map.mp new
      obtain ⟨_, _, _, _, _, clauses⟩ := validateResult_ok result
      have checked := (validateClauses_ok_iff.mp clauses).2.2.2.2.2.2.2.2 converted inReply
      exact .inr ⟨converted, _, _, rfl, checked⟩

/-- The token of a clause that passed its check is not the empty one. -/
theorem localClause_solid {wire : WireClause τ} {reading : Text} {stop : Nat} (valid : wire.Valid reading stop)
    {token : τ} (found : (localClause wire).source.token = some token) : EngineToken.isEmpty token = false := by
  cases state : wire.state with
  | reading => simp [localClause, state, SurfaceSource.token] at found
  | converted =>
    obtain ⟨present, given, solid⟩ := valid.converted_token state
    simp only [localClause, state, given, SurfaceSource.token, Option.getD_some, Option.some.injEq] at found
    rw [← found]
    exact solid

/-- A boundary reply keeps the model sendable. -/
theorem acceptBoundaryConversion_sendable (sendable : m.Sendable) (key : ClauseRequestKey)
    (status : ConvertClausesStatus τ) (learning : Option EngineLearningIdentity) (now : Nat) :
    (m.acceptBoundaryConversion key status learning now).1.Sendable := by
  have origin := acceptBoundaryConversion_origin m key status learning now
  rcases acceptBoundaryConversion_cases m key status learning now with ⟨_, quiet⟩ |
    ⟨_, _, _, _, _, _, _, _, _, _, _, _, converted⟩
  · exact quiet.sendable sendable
  refine
    { legible := ⟨by rw [converted.reading]; exact sendable.legible.normal, fun clause member own => ?_⟩
      solid := fun token member => ?_
      kept := fun _ _ found => (lookup_empty_ne_some (converted.cache ▸ found)).elim
      listed := fun _ _ _ open' => by rw [converted.window] at open'; cases open'
      asked := fun _ _ found => by rw [converted.boundary] at found; cases found }
  · rcases origin clause member with ⟨old, inOld, surface, source⟩ | ⟨wire, _, _, rfl, valid⟩
    · rw [surface]
      refine sendable.legible.shown old inOld fun reads => own ?_
      rcases source with same | retired
      · rw [same, reads]
      · rw [retired, reads]
        rfl
    · cases state : wire.state with
      | reading => exact absurd (by simp [localClause, state]) own
      | converted => exact valid.converted_surface state
  · obtain ⟨clause, inClauses, found⟩ := List.mem_filterMap.mp member
    rcases origin clause inClauses with ⟨old, inOld, _, source⟩ | ⟨wire, _, _, rfl, valid⟩
    · rcases source with same | retired
      · exact sendable.solid token (List.mem_filterMap.mpr ⟨old, inOld, same ▸ found⟩)
      · rw [retired, SurfaceSource.token_retire] at found
        cases found
    · exact localClause_solid valid found

/-- Opening a list keeps the model sendable. -/
theorem openCandidates_sendable (sendable : m.Sendable) (requestId now : Nat) :
    (m.openCandidates requestId now).1.Sendable := by
  rcases openCandidates_cases m requestId now with ⟨_, quiet | ⟨_, listed⟩⟩ |
    ⟨entry, _, _, ⟨plain, _⟩, _, _, _, _, asked⟩
  · exact quiet.sendable sendable
  · exact listed.sendable sendable
  · exact asked.sendable sendable fun conversion _ converting => by
      rw [plain] at converting
      cases converting

/-- Opening a list and moving once keeps the model sendable. -/
theorem cycleCandidate_sendable (sendable : m.Sendable) (requestId : Nat) (direction : Int) (now : Nat) :
    (m.cycleCandidate requestId direction now).1.Sendable := by
  have opened := openCandidates_sendable sendable requestId now
  unfold cycleCandidate
  split
  · exact advanceCandidate_sendable sendable direction
  generalize m.openCandidates requestId now = result at *
  obtain ⟨m', request⟩ := result
  cases request with
  | none =>
    dsimp only
    split
    · exact advanceCandidate_sendable opened direction
    · exact opened
  | some request =>
    dsimp only
    split
    · exact opened.mono (opened.legible.congr rfl rfl) (fun _ member => member) (fun _ _ found => found) (.inl rfl)
        fun _ found => found
    · exact opened

end Sendable

end ClauseConversion

end Nospacekey
