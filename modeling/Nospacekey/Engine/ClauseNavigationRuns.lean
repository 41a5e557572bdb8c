import Nospacekey.Engine.ClauseNavigation
import Nospacekey.Engine.SessionIsolation

/-! Moving between the clauses of a candidate does not change what a commit of it does to the corrections. -/

namespace Nospacekey

namespace ClauseNavigation

variable {χ κ δ : Type}

/-! ## Runs -/

/-- A call for the clauses of a session, with what it finds. -/
inductive ClauseCall (κ δ : Type) where
  | move (offset baseIndex : Int) (answers : Answers κ δ)
  | choose (index : Int)

/-- A session, with what its clauses were last fetched and chosen for. -/
structure ClauseRun (χ κ : Type) where
  record : SessionRecord χ κ
  /-- For each clause, the surfaces in front of it when its candidates were fetched, and those candidates. -/
  fetched : Nat → Option (List Text × List (Candidate κ))
  /-- For each clause, what the model had first for it when its surface was chosen. -/
  chosenTop : Nat → Option Text

section Runs

variable (swift : SwiftString) (module : ClauseModule χ κ)

/-- What is fetched for a clause that nothing is kept for. -/
def fetch (answers : Answers κ δ) (state : ClauseState κ) (moved : Nat)
    (fetched : Nat → Option (List Text × List (Candidate κ))) : Nat → Option (List Text × List (Candidate κ)) :=
  match state.candidateCache moved, state.clauses[moved]? with
  | none, some current =>
    Function.update fetched moved
      (some ((state.clauses.take moved).map Candidate.text, (clauseCandidates swift module answers current).1))
  | _, _ => fetched

/-- A call. One that is refused changes nothing. -/
def ClauseRun.call (run : ClauseRun χ κ) : ClauseCall κ δ → ClauseRun χ κ
  | .move offset baseIndex answers =>
    match moveClause swift module answers run.record offset baseIndex,
      enter swift module answers run.record baseIndex with
    | some (record, _), some state =>
      let moved := state.target offset
      { run with
        record := record
        fetched := if state.stays moved then run.fetched else fetch swift module answers state moved run.fetched }
    | _, _ => run
  | .choose index =>
    match selectClauseCandidate swift run.record index, run.record.clauseState with
    | some (record, _), some state =>
      { run with
        record := record
        chosenTop := Function.update run.chosenTop state.selected (state.modelTopTexts state.selected) }
    | _, _ => run

/-- The calls of a run, one after the other. -/
def ClauseRun.calls (run : ClauseRun χ κ) (calls : List (ClauseCall κ δ)) : ClauseRun χ κ :=
  calls.foldl (ClauseRun.call swift module) run

/-- A session with a window and no clauses yet. -/
def ClauseRun.start (record : SessionRecord χ κ) : ClauseRun χ κ := ⟨record, fun _ => none, fun _ => none⟩

end Runs

/-! ## What the converter is relied on for -/

/-- Strings that are the same stay the same when the same is put behind them. -/
def Joins (swift : SwiftString) : Prop :=
  ∀ left left' right right', swift.same left left' = true → swift.same right right' = true →
    swift.same (left ++ right) (left' ++ right') = true

/-- Scalars that are characters by themselves, as kana are, and stay so in the other script. -/
structure Alone (swift : SwiftString) (alone : Char → Prop) : Prop where
  count : ∀ text, (∀ c ∈ text, alone c) → swift.count text = text.length
  normalizeKana : ∀ text, (∀ c ∈ text, alone c) → ∀ c ∈ normalizeKana text, alone c
  toKatakana : ∀ text, (∀ c ∈ text, alone c) → ∀ c ∈ toKatakana text, alone c

/-- A clause takes the first words that there are, and has their surface. Direct input is composed as it is. -/
structure Documented (module : ClauseModule χ κ) : Prop where
  nonempty : ∀ data, data ≠ [] → (module.makePrefixClauseCandidate data).data ≠ []
  front : ∀ data, (module.makePrefixClauseCandidate data).data <+: data
  surface : ∀ data, (module.makePrefixClauseCandidate data).text = joinedWords (module.makePrefixClauseCandidate data)
  direct : ∀ text, module.convertTarget (module.direct text) = text

/-- The readings of a candidate's words are made of such scalars. -/
def Readable (alone : Char → Prop) (candidate : Candidate κ) : Prop :=
  ∀ word ∈ candidate.data, ∀ c ∈ word.ruby, alone c

/-- All candidates that a call can find are readable. -/
def ClauseCall.Readable (alone : Char → Prop) : ClauseCall κ δ → Prop
  | .move _ _ answers =>
    ∀ candidate ∈ answers.dictionaryResults ++ answers.clauseResults, ClauseNavigation.Readable alone candidate
  | .choose _ => True

/-! ## Surfaces -/

section Surfaces

variable {swift : SwiftString} {module : ClauseModule χ κ}

theorem same_refl (text : Text) : swift.same text text = true := by
  simp [SwiftString.same]

theorem same_symm {left right : Text} (same : swift.same left right = true) : swift.same right left = true := by
  simp only [SwiftString.same, decide_eq_true_eq] at *
  exact same.symm

theorem same_trans {left middle right : Text} (front : swift.same left middle = true)
    (back : swift.same middle right = true) : swift.same left right = true := by
  simp only [SwiftString.same, decide_eq_true_eq] at *
  exact front.trans back

/-- Texts that are the same one by one are the same together. -/
theorem same_flatten (joins : Joins swift) {texts others : List Text}
    (each : List.Forall₂ (fun text other => swift.same text other = true) texts others) :
    swift.same texts.flatten others.flatten = true := by
  induction each with
  | nil => exact same_refl []
  | cons same _ ih => exact joins _ _ _ _ same ih

/-- The clauses of words have the surface of the words. -/
theorem flatMap_clausesWithin (documented : Documented module) (fuel : Nat) (data : List DicdataElement)
    (enough : data.length ≤ fuel) :
    (LiveConversionState.clausesWithin module.toKanaKanjiConverterModule fuel data).flatMap Candidate.text =
      data.flatMap DicdataElement.word := by
  induction fuel generalizing data with
  | zero =>
    obtain rfl : data = [] := List.length_eq_zero_iff.mp (by omega)
    rfl
  | succ fuel ih =>
    rw [LiveConversionState.clausesWithin]
    split
    · rename_i empty
      rw [List.isEmpty_iff.mp empty]
      rfl
    · rename_i present
      have some_words := documented.nonempty data (by simpa using present)
      obtain ⟨behind, split⟩ := documented.front data
      simp only [List.isEmpty_iff, some_words, if_false, List.flatMap_cons]
      -- The first clause takes words off, and the others take those behind it.
      have rest : data.drop (module.makePrefixClauseCandidate data).data.length = behind := by
        have taken := congrArg (List.drop (module.makePrefixClauseCandidate data).data.length) split
        rw [List.drop_left] at taken
        exact taken.symm
      have shorter : behind.length ≤ fuel := by
        have length := congrArg List.length split
        have := List.length_pos_iff.mpr some_words
        simp only [List.length_append] at length
        omega
      rw [rest, ih behind shorter, documented.surface, joinedWords, ← List.flatMap_append, split]

/-- The clauses of a candidate have the surface of its words. -/
theorem flatMap_decomposeClauses (documented : Documented module) (candidate : Candidate κ) :
    (decomposeClauses module candidate).flatMap Candidate.text = joinedWords candidate := by
  rw [decomposeClauses, List.flatMap_map]
  exact flatMap_clausesWithin documented _ _ (Nat.le_refl _)

/-- Clauses of the dictionary have the surface that they were looked for with. -/
theorem same_dictionaryBoundaryClauses (documented : Documented module) {answers : Answers κ δ} {reading text : Text}
    {clauses : List (Candidate κ)}
    (found : dictionaryBoundaryClauses swift module answers reading text = some clauses) :
    swift.same (clauses.flatMap Candidate.text) text = true ∧ 2 ≤ clauses.length := by
  obtain ⟨candidate, -, accepted⟩ := List.exists_of_findSome?_eq_some found
  simp only [Option.ite_none_right_eq_some, Bool.and_eq_true, Option.some.injEq] at accepted
  obtain ⟨⟨⟨shown, -⟩, whole⟩, many, rfl⟩ := accepted
  rw [flatMap_decomposeClauses documented]
  exact ⟨same_trans (same_symm whole) shown, many⟩

theorem same_seedClauses (documented : Documented module) {answers : Answers κ δ} {record : SessionRecord χ κ}
    {candidate : Candidate κ} {baseIndex : Nat} {clauses : List (Candidate κ)}
    (seeded : seedClauses swift module answers record candidate baseIndex = some clauses) :
    swift.same (clauses.flatMap Candidate.text) candidate.text = true ∧ 2 ≤ clauses.length ∧
      (record.typoRepairedIndices.getD []).contains baseIndex = false ∧
      covers swift candidate (swift.count (module.convertTarget record.composing)) = true := by
  unfold seedClauses at seeded
  simp only [Option.ite_none_left_eq_some] at seeded
  obtain ⟨literal, covered, whole, seeded⟩ := seeded
  simp only [Bool.not_eq_true, Bool.not_eq_false'] at literal covered whole
  split at seeded
  · obtain ⟨shown, many⟩ := same_dictionaryBoundaryClauses documented seeded
    exact ⟨shown, many, literal, by simpa using covered⟩
  · rename_i many
    rw [Option.some.injEq] at seeded
    subst seeded
    rw [flatMap_decomposeClauses documented]
    exact ⟨same_symm (by simpa using whole), by omega, literal, by simpa using covered⟩

end Surfaces

/-! ## What a session keeps of the candidate -/

section Kept

variable {swift : SwiftString} {module : ClauseModule χ κ}

/-- The clauses are those of the candidate, and one that is recorded does not have its first surface. -/
structure Kept (swift : SwiftString) (seeded state : ClauseState κ) : Prop where
  originalTexts : state.originalTexts = seeded.originalTexts
  sentenceCorrection : state.sentenceCorrection = seeded.sentenceCorrection
  sentenceUnlearn : state.sentenceUnlearn = seeded.sentenceUnlearn
  length : state.clauses.length = state.originalTexts.length
  changed : ∀ i clause original, state.clauseCorrections i = true → state.clauses[i]? = some clause →
    state.originalTexts[i]? = some original → swift.same clause.text original = false

theorem Kept.select {seeded state : ClauseState κ} (kept : Kept swift seeded state) (answers : Answers κ δ)
    (moved : Nat) : Kept swift seeded (state.select swift module answers moved) := by
  obtain ⟨originalTexts, correction, unlearn, length, changed⟩ := kept
  unfold ClauseState.select
  -- Only what is shown changes.
  split
  · exact ⟨originalTexts, correction, unlearn, length, changed⟩
  · split
    · exact ⟨originalTexts, correction, unlearn, length, changed⟩
    · exact ⟨originalTexts, correction, unlearn, length, changed⟩

theorem Kept.choose {seeded state : ClauseState κ} (kept : Kept swift seeded state) (chosen : Candidate κ)
    (index : Nat) : Kept swift seeded (state.choose swift chosen index) where
  originalTexts := kept.originalTexts
  sentenceCorrection := kept.sentenceCorrection
  sentenceUnlearn := kept.sentenceUnlearn
  length := List.length_set.trans kept.length
  changed := by
    intro i clause original recorded shown first
    simp only [ClauseState.choose] at recorded shown first
    by_cases same : i = state.selected
    · -- The choice has just been judged by the first surface.
      subst same
      rw [Function.update_self] at recorded
      have inside : state.selected < state.clauses.length := by
        rw [kept.length]
        exact (List.getElem?_eq_some_iff.mp first).1
      rw [List.getElem?_set_self inside, Option.some.injEq] at shown
      rw [first] at recorded
      simp only [Option.any_some, Bool.and_eq_true, Bool.not_eq_true'] at recorded
      rw [← shown]
      exact recorded.1
    · rw [Function.update_of_ne same] at recorded
      rw [List.getElem?_set_ne (Ne.symm same)] at shown
      exact kept.changed i clause original recorded shown first

/-- A candidate that is taken begins with its own clauses, none of them chosen yet. -/
theorem of_seed {answers : Answers κ δ} {record : SessionRecord χ κ} {baseIndex : Int} {seeded : ClauseState κ}
    (accepted : seed swift module answers record baseIndex = some seeded) :
    ∃ candidate clauses, 0 ≤ baseIndex ∧
      (record.cachedCandidates.getD [])[baseIndex.toNat]? = some candidate ∧
      record.cachedTarget.any (swift.same (module.convertTarget record.composing)) = true ∧
      seedClauses swift module answers record candidate baseIndex.toNat = some clauses ∧
      seeded =
        { clauses := clauses
          selected := 0
          candidates := []
          candidateIndex := 0
          originalTexts := clauses.map Candidate.text
          modelTopTexts := fun _ => none
          clauseCorrections := fun _ => false
          sentenceCorrection :=
            if baseIndex ≠ 0 && !record.cachedModelTop.any (swift.same candidate.text) &&
                candidate.isLearningTarget then
              some (module.convertTarget record.composing, candidate.text)
            else none
          sentenceUnlearn :=
            if baseIndex ≠ 0 && record.cachedModelTop.any (swift.same candidate.text) && record.cachedPromoted &&
                candidate.isLearningTarget then
              some (module.convertTarget record.composing, candidate.text)
            else none
          candidateCache := fun _ => none } := by
  unfold seed at accepted
  simp only at accepted
  split at accepted
  · cases accepted
  · rename_i candidates cached
    simp only [Option.ite_none_left_eq_some, Bool.not_eq_true, Bool.not_eq_false'] at accepted
    obtain ⟨target, index, accepted⟩ := accepted
    split at accepted
    · cases accepted
    · rename_i candidate inside
      obtain ⟨clauses, seededFrom, rfl⟩ := Option.map_eq_some_iff.mp accepted
      exact ⟨candidate, clauses, by omega, by rw [cached]; exact inside, by simpa using target, seededFrom, rfl⟩

theorem Kept.seed {answers : Answers κ δ} {record : SessionRecord χ κ} {baseIndex : Int} {seeded : ClauseState κ}
    (accepted : seed swift module answers record baseIndex = some seeded) : Kept swift seeded seeded := by
  obtain ⟨candidate, clauses, -, -, -, -, rfl⟩ := of_seed accepted
  exact ⟨rfl, rfl, rfl, by simp, fun _ _ _ recorded => by cases recorded⟩

end Kept

/-! ## What is shown -/

section Sound

variable {swift : SwiftString} {module : ClauseModule χ κ} {alone : Char → Prop}

/-- A readable clause has as many characters to read as its words. -/
theorem count_clauseReading (scalars : Alone swift alone) {clause : Candidate κ} (readable : Readable alone clause) :
    swift.count (clauseReading clause) = LiveConversionState.rubyCount swift clause := by
  have joined : ∀ c ∈ clause.data.flatMap DicdataElement.ruby, alone c := by
    intro c mem
    obtain ⟨word, inside, mem⟩ := List.mem_flatMap.mp mem
    exact readable word inside c mem
  rw [clauseReading, scalars.count _ (scalars.normalizeKana _ joined), normalizeKana, List.length_map,
    LiveConversionState.rubyCount, List.length_flatMap]
  -- Word by word, the characters are the scalars.
  congr 1
  refine List.map_congr_left fun word inside => ?_
  exact (scalars.count _ (readable word inside)).symm

/-- Candidates for a clause: they are readable, and they read as long as it does. -/
structure Fits (swift : SwiftString) (alone : Char → Prop) (clause : Candidate κ) (list : List (Candidate κ)) :
    Prop where
  readable : ∀ candidate ∈ list, Readable alone candidate
  covering : ∀ candidate ∈ list,
    LiveConversionState.rubyCount swift candidate = LiveConversionState.rubyCount swift clause

/-- Candidates with the one of a correction in front still cover the reading. -/
theorem covering_promoted (scalars : Alone swift alone) (documented : Documented module) {answers : Answers κ δ}
    {results list : List (Candidate κ)} {reading : Text} (plain : ∀ c ∈ reading, alone c)
    (readable : ∀ candidate ∈ results, Readable alone candidate)
    (covering : ∀ candidate ∈ results, LiveConversionState.rubyCount swift candidate = swift.count reading)
    (found : promoted swift module answers results (module.direct reading) = some list) {candidate : Candidate κ}
    (inside : candidate ∈ list) :
    Readable alone candidate ∧ LiveConversionState.rubyCount swift candidate = swift.count reading := by
  simp only [promoted, documented.direct, Option.ite_none_left_eq_some] at found
  obtain ⟨-, found⟩ := found
  obtain ⟨surface, -, rfl⟩ := Option.map_eq_some_iff.mp found
  rcases List.mem_cons.mp inside with rfl | inside
  · split
    · rename_i existing there
      have inside := List.mem_of_find?_eq_some there
      exact ⟨readable _ inside, covering _ inside⟩
    · -- The reading in the other script is as long.
      have katakana := scalars.toKatakana _ plain
      refine ⟨fun word mem => ?_, ?_⟩
      · rw [List.mem_singleton.mp mem]
        exact katakana
      · simp only [LiveConversionState.rubyCount, List.map_cons, List.map_nil, List.sum_singleton]
        rw [scalars.count _ katakana, scalars.count _ plain, toKatakana, List.length_map]
  · have inside := List.mem_of_mem_filter inside
    exact ⟨readable _ inside, covering _ inside⟩

/-- A clause is among the candidates that are fetched for it, at its place. -/
theorem present_clauseCandidates (answers : Answers κ δ) (current : Candidate κ) :
    (clauseCandidates swift module answers current).1[(clauseCandidates swift module answers current).2.1]? =
      some current := by
  unfold clauseCandidates
  simp only
  split
  · -- The clause takes the place of the candidate with its surface.
    rename_i idx found
    exact List.getElem?_set_self (List.findIdx?_eq_some_iff_getElem.mp found).1
  · rfl

/-- The candidates that are fetched for a clause are the clause and others that fit it. -/
theorem fits_clauseCandidates (scalars : Alone swift alone) (documented : Documented module) {answers : Answers κ δ}
    {current : Candidate κ} (readable : Readable alone current)
    (results : ∀ candidate ∈ answers.clauseResults, Readable alone candidate) :
    Fits swift alone current (clauseCandidates swift module answers current).1 := by
  have plain : ∀ c ∈ clauseReading current, alone c := by
    refine scalars.normalizeKana _ fun c mem => ?_
    obtain ⟨word, inside, mem⟩ := List.mem_flatMap.mp mem
    exact readable word inside c mem
  have length := count_clauseReading scalars readable
  unfold clauseCandidates
  simp only
  generalize kept : FirstOfKey.newItems (fun candidate : Candidate κ => swift.canonical candidate.text) []
    (answers.clauseResults.filter fun candidate => covers swift candidate (swift.count (clauseReading current))) = list
  have kept_inside {candidate : Candidate κ} (inside : candidate ∈ list) :
      Readable alone candidate ∧
        LiveConversionState.rubyCount swift candidate = swift.count (clauseReading current) := by
    rw [← kept] at inside
    obtain ⟨there, covered⟩ := List.mem_filter.mp ((FirstOfKey.newItems_sublist _ _).subset inside)
    exact ⟨results candidate there, by simpa [covers] using covered⟩
  -- With or without a correction in front, all of them cover the reading.
  have all_inside {candidate : Candidate κ}
      (inside : candidate ∈ (promoted swift module answers list (module.direct (clauseReading current))).getD list) :
      Readable alone candidate ∧
        LiveConversionState.rubyCount swift candidate = LiveConversionState.rubyCount swift current := by
    rw [← length]
    cases correction : promoted swift module answers list (module.direct (clauseReading current)) with
    | none =>
      rw [correction] at inside
      exact kept_inside inside
    | some shown =>
      rw [correction] at inside
      exact covering_promoted scalars documented plain (fun _ there => (kept_inside there).1)
        (fun _ there => (kept_inside there).2) correction inside
  generalize (promoted swift module answers list (module.direct (clauseReading current))).getD list = shown
    at all_inside
  -- The clause itself fits, wherever it stands.
  have with_current {candidate : Candidate κ} (inside : candidate ∈ shown ∨ candidate = current) :
      Readable alone candidate ∧
        LiveConversionState.rubyCount swift candidate = LiveConversionState.rubyCount swift current := by
    rcases inside with inside | rfl
    · exact all_inside inside
    · exact ⟨readable, rfl⟩
  split
  · exact ⟨fun _ inside => (with_current (List.mem_or_eq_of_mem_set inside)).1,
      fun _ inside => (with_current (List.mem_or_eq_of_mem_set inside)).2⟩
  · exact ⟨fun _ inside => (with_current (List.mem_cons.mp inside).symm).1,
      fun _ inside => (with_current (List.mem_cons.mp inside).symm).2⟩

/-! ## What is kept for each clause -/

/-- What a clause is recorded for, and what the lists that are kept were fetched for. -/
structure Sound (swift : SwiftString) (fetched : Nat → Option (List Text × List (Candidate κ)))
    (chosenTop : Nat → Option Text) (state : ClauseState κ) : Prop where
  selected : state.selected < state.clauses.length
  present : ∀ i list index, state.candidateCache i = some (list, index) → list[index]? = state.clauses[i]?
  current : ∀ i list index, state.candidateCache i = some (list, index) →
    fetched i = some ((state.clauses.take i).map Candidate.text, list)
  unexpected : ∀ i clause, state.clauseCorrections i = true → state.clauses[i]? = some clause →
    (chosenTop i).any (swift.same clause.text) = false

/-- The candidates that are shown are those that are kept for the selected clause. -/
def Shown (state : ClauseState κ) : Prop :=
  state.candidateCache state.selected = some (state.candidates, state.candidateIndex)

theorem target_lt (state : ClauseState κ) (some_clauses : 0 < state.clauses.length) (offset : Int) :
    state.target offset < state.clauses.length := by
  unfold ClauseState.target
  omega

variable (module) in
/-- A move keeps what is known of the lists, and shows the one of its clause. -/
theorem Sound.select {fetched : Nat → Option (List Text × List (Candidate κ))} {chosenTop : Nat → Option Text}
    {state : ClauseState κ} (sound : Sound swift fetched chosenTop state) (answers : Answers κ δ) {moved : Nat}
    (inside : moved < state.clauses.length) :
    Sound swift (fetch swift module answers state moved fetched) chosenTop
        (state.select swift module answers moved) ∧
      Shown (state.select swift module answers moved) := by
  have there : state.clauses[moved]? = some state.clauses[moved] := List.getElem?_eq_getElem inside
  unfold ClauseState.select fetch
  rw [there]
  cases cached : state.candidateCache moved with
  | some entry =>
    exact ⟨⟨inside, sound.present, sound.current, sound.unexpected⟩, cached⟩
  | none =>
    refine ⟨⟨inside, ?_, ?_, sound.unexpected⟩, Function.update_self _ _ _⟩
    · intro i list index kept
      simp only at kept
      by_cases same : i = moved
      · subst same
        rw [Function.update_self, Option.some.injEq, Prod.mk.injEq] at kept
        rw [← kept.1, ← kept.2, there]
        exact present_clauseCandidates answers _
      · rw [Function.update_of_ne same] at kept
        exact sound.present i list index kept
    · intro i list index kept
      simp only at kept ⊢
      by_cases same : i = moved
      · subst same
        rw [Function.update_self, Option.some.injEq, Prod.mk.injEq] at kept
        rw [Function.update_self, ← kept.1]
      · rw [Function.update_of_ne same] at kept ⊢
        exact sound.current i list index kept

/-- A choice drops the lists behind it and judges the clause. -/
theorem Sound.choose {fetched : Nat → Option (List Text × List (Candidate κ))} {chosenTop : Nat → Option Text}
    {state : ClauseState κ} (sound : Sound swift fetched chosenTop state) (shown : Shown state)
    {chosen : Candidate κ} {index : Nat} (inside : state.candidates[index]? = some chosen) :
    Sound swift fetched (Function.update chosenTop state.selected (state.modelTopTexts state.selected))
        (state.choose swift chosen index) ∧
      Shown (state.choose swift chosen index) := by
  refine ⟨⟨?_, ?_, ?_, ?_⟩, by simp only [Shown, ClauseState.choose, Function.update_self]⟩
  · simp only [ClauseState.choose, List.length_set]
    exact sound.selected
  · intro i list place kept
    simp only [ClauseState.choose] at kept ⊢
    by_cases same : i = state.selected
    · subst same
      rw [Function.update_self, Option.some.injEq, Prod.mk.injEq] at kept
      rw [← kept.1, ← kept.2, inside, List.getElem?_set_self sound.selected]
    · rw [Function.update_of_ne same, Option.ite_none_right_eq_some] at kept
      rw [List.getElem?_set_ne (Ne.symm same)]
      exact sound.present i list place kept.2
  · intro i list place kept
    simp only [ClauseState.choose] at kept ⊢
    -- Only lists up to the clause are left, and the surfaces in front of those stay.
    have front (before : i ≤ state.selected) :
        (state.clauses.set state.selected chosen).take i = state.clauses.take i :=
      List.take_set_of_le before
    by_cases same : i = state.selected
    · subst same
      rw [Function.update_self, Option.some.injEq, Prod.mk.injEq] at kept
      rw [front (Nat.le_refl _), ← kept.1]
      exact sound.current _ _ _ shown
    · rw [Function.update_of_ne same, Option.ite_none_right_eq_some] at kept
      rw [front kept.1]
      exact sound.current i list place kept.2
  · intro i clause recorded there
    simp only [ClauseState.choose] at recorded there
    by_cases same : i = state.selected
    · subst same
      rw [Function.update_self, Bool.and_eq_true] at recorded
      rw [List.getElem?_set_self sound.selected, Option.some.injEq] at there
      rw [Function.update_self, ← there]
      simpa using recorded.2
    · rw [Function.update_of_ne same] at recorded
      rw [List.getElem?_set_ne (Ne.symm same)] at there
      rw [Function.update_of_ne same]
      exact sound.unexpected i clause recorded there

/-- All that is kept for a clause fits it. -/
structure Covered (swift : SwiftString) (alone : Char → Prop) (state : ClauseState κ) : Prop where
  readable : ∀ clause ∈ state.clauses, Readable alone clause
  fits : ∀ i list index clause, state.candidateCache i = some (list, index) → state.clauses[i]? = some clause →
    Fits swift alone clause list

theorem Covered.select {state : ClauseState κ} (scalars : Alone swift alone) (documented : Documented module)
    (covered : Covered swift alone state) {answers : Answers κ δ}
    (results : ∀ candidate ∈ answers.clauseResults, Readable alone candidate) (moved : Nat) :
    Covered swift alone (state.select swift module answers moved) := by
  unfold ClauseState.select
  split
  · exact ⟨covered.readable, covered.fits⟩
  · split
    · exact ⟨covered.readable, covered.fits⟩
    · rename_i current there
      refine ⟨covered.readable, ?_⟩
      intro i list index clause kept shown
      simp only at kept shown
      by_cases same : i = moved
      · subst same
        rw [Function.update_self, Option.some.injEq, Prod.mk.injEq] at kept
        rw [there, Option.some.injEq] at shown
        subst shown
        rw [← kept.1]
        exact fits_clauseCandidates scalars documented (covered.readable _ (List.mem_of_getElem? there)) results
      · rw [Function.update_of_ne same] at kept
        exact covered.fits i list index clause kept shown

theorem Covered.choose {state : ClauseState κ} (covered : Covered swift alone state) (shown : Shown state)
    (selected : state.selected < state.clauses.length) {chosen : Candidate κ} {index : Nat}
    (inside : state.candidates[index]? = some chosen) : Covered swift alone (state.choose swift chosen index) := by
  have before := covered.fits _ _ _ _ shown (List.getElem?_eq_getElem selected)
  have mem := List.mem_of_getElem? inside
  refine ⟨?_, ?_⟩
  · intro clause there
    rcases List.mem_or_eq_of_mem_set there with there | rfl
    · exact covered.readable clause there
    · exact before.readable _ mem
  · intro i list place clause kept there
    simp only [ClauseState.choose] at kept there
    by_cases same : i = state.selected
    · subst same
      rw [Function.update_self, Option.some.injEq, Prod.mk.injEq] at kept
      rw [List.getElem?_set_self selected, Option.some.injEq] at there
      rw [← kept.1, ← there]
      -- The choice reads as long as the surface that it replaces.
      exact ⟨before.readable, fun candidate within => (before.covering _ within).trans (before.covering _ mem).symm⟩
    · rw [Function.update_of_ne same, Option.ite_none_right_eq_some] at kept
      rw [List.getElem?_set_ne (Ne.symm same)] at there
      exact covered.fits i list place clause kept.2 there

end Sound

/-! ## Whole runs -/

section Navigated

variable {swift : SwiftString} {module : ClauseModule χ κ} {alone : Char → Prop}

/-- A call changes nothing, selects a clause, or has the selected one take a surface that is shown. -/
theorem call_cases {run : ClauseRun χ κ} {state : ClauseState κ} (there : run.record.clauseState = some state)
    (call : ClauseCall κ δ) :
    run.call swift module call = run ∨
      (∃ offset baseIndex answers, call = .move offset baseIndex answers ∧
        run.call swift module call =
          { run with
            record :=
              { run.record with clauseState := some (state.select swift module answers (state.target offset)) }
            fetched := fetch swift module answers state (state.target offset) run.fetched }) ∨
      ∃ index chosen, state.candidates[index]? = some chosen ∧
        run.call swift module call =
          { run with
            record := { run.record with clauseState := some (state.choose swift chosen index) }
            chosenTop := Function.update run.chosenTop state.selected (state.modelTopTexts state.selected) } := by
  cases call with
  | move offset baseIndex answers =>
    have entered : enter swift module answers run.record baseIndex = some state := by rw [enter, there]
    simp only [ClauseRun.call, moveClause, entered, Option.map_some]
    by_cases stays : state.stays (state.target offset) = true
    · simp only [stays, if_true]
      exact Or.inl trivial
    · simp only [stays, Bool.false_eq_true, if_false]
      exact Or.inr (Or.inl ⟨offset, baseIndex, answers, rfl, rfl⟩)
  | choose index =>
    simp only [ClauseRun.call, selectClauseCandidate, there]
    by_cases negative : index < 0
    · simp only [negative, if_true]
      exact Or.inl trivial
    · cases inside : state.candidates[index.toNat]? with
      | none =>
        simp only [negative, if_false, Option.map_none]
        exact Or.inl trivial
      | some chosen =>
        simp only [negative, if_false, Option.map_some]
        exact Or.inr (Or.inr ⟨index.toNat, chosen, inside, rfl⟩)

/-- A run among the clauses of a candidate. -/
structure Navigated (swift : SwiftString) (record : SessionRecord χ κ) (seeded : ClauseState κ) (run : ClauseRun χ κ)
    (state : ClauseState κ) : Prop where
  frame : run.record = { record with clauseState := some state }
  kept : Kept swift seeded state
  sound : Sound swift run.fetched run.chosenTop state
  shown : Shown state

variable (module) in
/-- Every call stays among the clauses. -/
theorem Navigated.call {record : SessionRecord χ κ} {seeded : ClauseState κ} {run : ClauseRun χ κ}
    {state : ClauseState κ} (navigated : Navigated swift record seeded run state) (call : ClauseCall κ δ) :
    ∃ after, Navigated swift record seeded (run.call swift module call) after ∧
      (∀ {alone}, Alone swift alone → Documented module → call.Readable alone →
        Covered swift alone state → Covered swift alone after) := by
  have there : run.record.clauseState = some state := by rw [navigated.frame]
  obtain same | ⟨offset, baseIndex, answers, rfl, after⟩ | ⟨index, chosen, inside, after⟩ := call_cases there call
  · rw [same]
    exact ⟨state, navigated, fun _ _ _ covered => covered⟩
  · have within := target_lt state (Nat.zero_lt_of_lt navigated.sound.selected) offset
    obtain ⟨sound, shown⟩ := navigated.sound.select module answers within
    refine ⟨state.select swift module answers (state.target offset), ?_, ?_⟩
    · rw [after]
      exact ⟨by rw [navigated.frame], navigated.kept.select answers _, sound, shown⟩
    · intro alone scalars documented readable covered
      exact covered.select scalars documented
        (fun candidate inside => readable candidate (List.mem_append_right _ inside)) _
  · obtain ⟨sound, shown⟩ := navigated.sound.choose navigated.shown inside
    refine ⟨state.choose swift chosen index, ?_, ?_⟩
    · rw [after]
      exact ⟨by rw [navigated.frame], navigated.kept.choose chosen index, sound, shown⟩
    · intro alone scalars documented readable covered
      exact covered.choose navigated.shown navigated.sound.selected inside

theorem Navigated.calls {record : SessionRecord χ κ} {seeded : ClauseState κ} (calls : List (ClauseCall κ δ))
    {run : ClauseRun χ κ} {state : ClauseState κ} (navigated : Navigated swift record seeded run state) :
    ∃ after, Navigated swift record seeded (run.calls swift module calls) after ∧
      (∀ {alone}, Alone swift alone → Documented module → (∀ call ∈ calls, call.Readable alone) →
        Covered swift alone state → Covered swift alone after) := by
  induction calls generalizing run state with
  | nil => exact ⟨state, navigated, fun _ _ _ covered => covered⟩
  | cons call calls ih =>
    obtain ⟨middle, between, cover⟩ := navigated.call module call
    obtain ⟨after, done, rest⟩ := ih between
    refine ⟨after, done, ?_⟩
    intro alone scalars documented readable covered
    exact rest scalars documented (fun call inside => readable call (List.mem_cons_of_mem _ inside))
      (cover scalars documented (readable call List.mem_cons_self) covered)

/-- The clauses of readable words are readable. -/
theorem readable_clausesWithin (documented : Documented module) (fuel : Nat) {data : List DicdataElement}
    (plain : ∀ word ∈ data, ∀ c ∈ word.ruby, alone c) :
    ∀ clause ∈ LiveConversionState.clausesWithin module.toKanaKanjiConverterModule fuel data,
      Readable alone clause := by
  induction fuel generalizing data with
  | zero => simp [LiveConversionState.clausesWithin]
  | succ fuel ih =>
    rw [LiveConversionState.clausesWithin]
    intro clause inside
    split at inside
    · cases inside
    · dsimp only at inside
      split at inside
      · cases inside
      · rcases List.mem_cons.mp inside with rfl | inside
        · -- A clause has words of the front.
          exact fun word there => plain word ((documented.front data).subset there)
        · exact ih (fun word there => plain word (List.mem_of_mem_drop there)) clause inside

theorem readable_decomposeClauses (documented : Documented module) {candidate : Candidate κ}
    (readable : Readable alone candidate) :
    ∀ clause ∈ decomposeClauses module candidate, Readable alone clause := by
  intro clause inside
  obtain ⟨plain, there, rfl⟩ := List.mem_map.mp inside
  exact readable_clausesWithin documented _ readable plain there

theorem readable_seedClauses (documented : Documented module) {answers : Answers κ δ} {record : SessionRecord χ κ}
    {candidate : Candidate κ} {baseIndex : Nat} {clauses : List (Candidate κ)} (readable : Readable alone candidate)
    (results : ∀ candidate ∈ answers.dictionaryResults, Readable alone candidate)
    (seeded : seedClauses swift module answers record candidate baseIndex = some clauses) :
    ∀ clause ∈ clauses, Readable alone clause := by
  unfold seedClauses at seeded
  simp only [Option.ite_none_left_eq_some] at seeded
  obtain ⟨-, -, -, seeded⟩ := seeded
  split at seeded
  · obtain ⟨found, there, accepted⟩ := List.exists_of_findSome?_eq_some seeded
    simp only [Option.ite_none_right_eq_some, Option.some.injEq] at accepted
    obtain ⟨-, -, rfl⟩ := accepted
    exact readable_decomposeClauses documented (results found there)
  · rw [Option.some.injEq] at seeded
    rw [← seeded]
    exact readable_decomposeClauses documented readable

/-- The first move that is accepted takes a candidate for its clauses and shows one of them. -/
theorem Navigated.first (documented : Documented module) {record : SessionRecord χ κ} (new : record.clauseState = none)
    (offset : Int) {baseIndex : Int} {answers : Answers κ δ} {seeded : ClauseState κ}
    (accepted : seed swift module answers record baseIndex = some seeded) :
    ∃ state, Navigated swift record seeded
        ((ClauseRun.start record).call swift module (.move offset baseIndex answers)) state ∧
      (∀ {alone}, Alone swift alone → (∀ candidate ∈ record.cachedCandidates.getD [], Readable alone candidate) →
        (ClauseCall.move offset baseIndex answers).Readable alone → Covered swift alone state) := by
  obtain ⟨candidate, clauses, -, inside, -, taken, same⟩ := of_seed accepted
  have many : 2 ≤ seeded.clauses.length := by
    rw [same]
    exact (same_seedClauses documented taken).2.1
  have entered : enter swift module answers record baseIndex = some seeded := by rw [enter, new, accepted]
  have fresh : seeded.stays (seeded.target offset) = false := by
    rw [same]
    exact Bool.and_false _
  -- Nothing is kept yet, so that the list of the clause is fetched.
  have sound : Sound swift (fun _ => none) (fun _ => none) seeded := by
    rw [same] at many ⊢
    refine ⟨Nat.zero_lt_of_lt many, ?_, ?_, fun _ _ _ _ => rfl⟩
    · intro i list index kept
      cases kept
    · intro i list index kept
      cases kept
  obtain ⟨after, shown⟩ := sound.select module answers (target_lt seeded (Nat.zero_lt_of_lt many) offset)
  refine ⟨seeded.select swift module answers (seeded.target offset), ?_, ?_⟩
  · have done : (ClauseRun.start record).call swift module (.move offset baseIndex answers) =
        { ClauseRun.start record with
          record :=
            { record with clauseState := some (seeded.select swift module answers (seeded.target offset)) }
          fetched := fetch swift module answers seeded (seeded.target offset) fun _ => none } := by
      simp only [ClauseRun.call, moveClause, ClauseRun.start, entered, Option.map_some, fresh, Bool.false_eq_true,
        if_false]
    rw [done]
    exact ⟨rfl, (Kept.seed accepted).select answers _, after, shown⟩
  · intro alone scalars window readable
    have words := readable_seedClauses documented (window candidate (List.mem_of_getElem? inside))
      (fun found there => readable found (List.mem_append_left _ there)) taken
    have covered : Covered swift alone seeded := by
      rw [same]
      exact ⟨words, fun _ _ _ _ kept => (nomatch kept)⟩
    exact covered.select scalars documented
      (fun found there => readable found (List.mem_append_right _ there)) _

/-- Clauses that all have their first surface are not recorded. -/
theorem Kept.recordedClauses {seeded state : ClauseState κ} (kept : Kept swift seeded state)
    (original : List.Forall₂ (fun text first => swift.same text first = true) (state.clauses.map Candidate.text)
      state.originalTexts) (learningEnabled : Bool) : recordedClauses learningEnabled state = [] := by
  refine List.filter_eq_nil_iff.mpr fun entry inside recorded => ?_
  obtain ⟨clause, i⟩ := entry
  simp only [Bool.and_eq_true] at recorded
  have there : state.clauses[i]? = some clause := List.mem_zipIdx_iff_getElem?.mp inside
  obtain ⟨within, rfl⟩ := List.getElem?_eq_some_iff.mp there
  have first : i < state.originalTexts.length := kept.length ▸ within
  have differs := kept.changed i _ _ recorded.1.2 there (List.getElem?_eq_getElem first)
  have same := original.get (by rwa [List.length_map]) first
  simp only [List.get_eq_getElem, List.getElem_map] at same
  rw [differs] at same
  cases same

/-- A commit of a candidate that takes the whole reading decides by the window. -/
theorem commit_whole (record : SessionRecord χ κ) {index : Int} {candidate : Candidate κ} (within : 0 ≤ index)
    (inside : (record.cachedCandidates.getD [])[index.toNat]? = some candidate)
    (target : record.cachedTarget.any (swift.same (module.convertTarget record.composing)) = true)
    (literal : (record.typoRepairedIndices.getD []).contains index.toNat = false)
    (whole : module.convertTarget (module.prefixComplete record.composing candidate.composingCount) = [])
    (learningEnabled typoLearn : Bool) :
    ∃ committed, commit swift module learningEnabled typoLearn record index = some committed ∧
      committed.text = candidate.text ∧ committed.reading = [] ∧
      committed.edits =
        (if learningEnabled && index ≠ 0 && candidate.isLearningTarget &&
            !record.cachedModelTop.any (swift.same candidate.text) then
          [.record (module.convertTarget record.composing) candidate.text]
        else []) ++
          if learningEnabled && index ≠ 0 && candidate.isLearningTarget &&
              record.cachedModelTop.any (swift.same candidate.text) && record.cachedPromoted then
            [.remove (module.convertTarget record.composing)]
          else [] := by
  -- The window is for what is composed.
  have fresh :
      record.cachedTarget.any (fun kept => !swift.same kept (module.convertTarget record.composing)) = false := by
    cases there : record.cachedTarget with
    | none => rfl
    | some shown =>
      rw [there] at target
      rw [Option.any_some, same_symm target]
      rfl
  unfold commit
  simp only [show ¬index < 0 by omega, if_false, inside, fresh, Bool.false_eq_true, literal]
  refine ⟨_, rfl, rfl, whole, ?_⟩
  simp only [whole, List.isEmpty_nil, Bool.and_true]

/-- Clauses that all have their first surface are committed as the candidate is. -/
theorem same_commit (joins : Joins swift) (documented : Documented module) {record : SessionRecord χ κ}
    {baseIndex : Int} {answers : Answers κ δ} {seeded state : ClauseState κ}
    (consumes : ∀ candidate ∈ record.cachedCandidates.getD [],
      covers swift candidate (swift.count (module.convertTarget record.composing)) = true →
        module.convertTarget (module.prefixComplete record.composing candidate.composingCount) = [])
    (accepted : seed swift module answers record baseIndex = some seeded) (kept : Kept swift seeded state)
    (original : List.Forall₂ (fun text first => swift.same text first = true) (state.clauses.map Candidate.text)
      state.originalTexts) (learningEnabled typoLearn : Bool) :
    ∃ taken whole, commitClauses swift module learningEnabled { record with clauseState := some state } = some taken ∧
      commit swift module learningEnabled typoLearn { record with clauseState := some state } baseIndex = some whole ∧
      swift.same taken.text whole.text = true ∧ taken.reading = [] ∧ whole.reading = [] ∧
      taken.edits = whole.edits := by
  obtain ⟨candidate, clauses, index, inside, target, taken, same⟩ := of_seed accepted
  obtain ⟨surface, -, literal, covered⟩ := same_seedClauses documented taken
  have whole := consumes candidate (List.mem_of_getElem? inside) covered
  -- The surfaces joined are that of the candidate.
  have joined : swift.same (state.clauses.flatMap Candidate.text) candidate.text = true := by
    rw [kept.originalTexts, same] at original
    have each := same_flatten joins original
    rw [← List.flatMap_def, ← List.flatMap_def] at each
    exact same_trans each surface
  have recorded := kept.recordedClauses original learningEnabled
  obtain ⟨committed, accepted, text, reading, edits⟩ :=
    commit_whole { record with clauseState := some state } index inside target literal whole learningEnabled typoLearn
  refine ⟨_, committed, rfl, accepted, ?_, rfl, reading, ?_⟩
  · rw [text]
    exact joined
  · rw [edits]
    simp only [recorded, List.map_nil, List.nil_append, kept.sentenceCorrection, kept.sentenceUnlearn, same]
    -- What was kept when the candidate was taken is what its commit decides by.
    by_cases first : baseIndex = 0 <;>
      cases learningEnabled <;> cases candidate.isLearningTarget <;> cases record.cachedPromoted <;>
      cases record.cachedModelTop.any (swift.same candidate.text) <;> simp [first, joined]

/--
Moving between the clauses of a candidate and back to its surfaces leaves a commit as it was.

Whatever surfaces are chosen, the list that is shown is that of the selected clause, and no list outlives the surfaces
that it was fetched behind. A clause is recorded only for a surface that neither it had at first nor the model had first
when it was chosen.
-/
theorem navigation_kept (joins : Joins swift) (documented : Documented module) {record : SessionRecord χ κ}
    (new : record.clauseState = none)
    (consumes : ∀ candidate ∈ record.cachedCandidates.getD [],
      covers swift candidate (swift.count (module.convertTarget record.composing)) = true →
        module.convertTarget (module.prefixComplete record.composing candidate.composingCount) = [])
    {offset baseIndex : Int} {answers : Answers κ δ}
    (accepted : (moveClause swift module answers record offset baseIndex).isSome = true)
    (calls : List (ClauseCall κ δ)) {run : ClauseRun χ κ}
    (ran : (ClauseRun.start record).calls swift module (.move offset baseIndex answers :: calls) = run) :
    ∃ state clause, run.record = { record with clauseState := some state } ∧
      (List.Forall₂ (fun text first => swift.same text first = true) (state.clauses.map Candidate.text)
          state.originalTexts →
        ∀ learningEnabled typoLearn,
          recordedClauses learningEnabled state = [] ∧
            ∃ taken whole, commitClauses swift module learningEnabled run.record = some taken ∧
              commit swift module learningEnabled typoLearn run.record baseIndex = some whole ∧
              swift.same taken.text whole.text = true ∧ taken.reading = [] ∧ whole.reading = [] ∧
              taken.edits = whole.edits) ∧
      state.clauses[state.selected]? = some clause ∧
      state.candidates[state.candidateIndex]? = some clause ∧
      (∀ alone, Alone swift alone → (∀ candidate ∈ record.cachedCandidates.getD [], Readable alone candidate) →
        (∀ call ∈ ClauseCall.move offset baseIndex answers :: calls, call.Readable alone) →
        ∀ candidate ∈ state.candidates, covers swift candidate (swift.count (clauseReading clause)) = true) ∧
      (∀ i list index, state.candidateCache i = some (list, index) →
        run.fetched i = some ((state.clauses.take i).map Candidate.text, list)) ∧
      ∀ learningEnabled, ∀ entry ∈ recordedClauses learningEnabled state,
        (∀ original, state.originalTexts[entry.2]? = some original → swift.same entry.1.text original = false) ∧
          (run.chosenTop entry.2).any (swift.same entry.1.text) = false := by
  -- The first move is accepted, and takes the candidate for its clauses.
  obtain ⟨seeded, taken⟩ : ∃ seeded, seed swift module answers record baseIndex = some seeded := by
    have entered : enter swift module answers record baseIndex = seed swift module answers record baseIndex := by
      rw [enter, new]
    rw [moveClause, Option.isSome_map, entered] at accepted
    exact Option.isSome_iff_exists.mp accepted
  obtain ⟨first, begun, cover⟩ := Navigated.first documented new offset taken
  obtain ⟨state, done, rest⟩ := begun.calls calls
  rw [show ((ClauseRun.start record).call swift module (.move offset baseIndex answers)).calls swift module calls = run
    from ran] at done
  have there := List.getElem?_eq_getElem done.sound.selected
  refine ⟨state, _, done.frame, ?_, there, ?_, ?_, done.sound.current, ?_⟩
  · intro original learningEnabled typoLearn
    rw [done.frame]
    exact ⟨done.kept.recordedClauses original learningEnabled,
      same_commit joins documented consumes taken done.kept original learningEnabled typoLearn⟩
  · rw [done.sound.present _ _ _ done.shown, there]
  · intro alone scalars window readable candidate inside
    have covered := rest scalars documented (fun call inside => readable call (List.mem_cons_of_mem _ inside))
      (cover scalars window (readable _ List.mem_cons_self))
    have fits := covered.fits _ _ _ _ done.shown there
    rw [covers, decide_eq_true_eq, count_clauseReading scalars (covered.readable _ (List.getElem_mem _))]
    exact fits.covering candidate inside
  · intro learningEnabled entry recorded
    obtain ⟨inside, flags⟩ := List.mem_filter.mp recorded
    simp only [Bool.and_eq_true] at flags
    have shown := List.mem_zipIdx_iff_getElem?.mp inside
    exact ⟨fun original first => done.kept.changed _ _ _ flags.1.2 shown first,
      done.sound.unexpected _ _ flags.1.2 shown⟩

end Navigated

/-! ## A candidate of two words -/

/-- Every letter is read as it is, and every word is a clause. -/
def wordModule : ClauseModule Text Nat :=
  { EngineHost.letterModule with
    empty := []
    direct := id
    inputCount := List.length }

/-- One of the surfaces of a letter. -/
def letter (surface ruby : Char) : Candidate Nat := ⟨[surface], [⟨[surface], [ruby]⟩], 1, true⟩

/-- A window with one candidate. -/
def twoWords : SessionRecord Text Nat where
  composing := ['あ', 'い']
  cachedCandidates := some [⟨['亜', '位'], [⟨['亜'], ['ア']⟩, ⟨['位'], ['イ']⟩], 2, true⟩]
  cachedTarget := some ['あ', 'い']
  cachedModelTop := some ['亜', '位']
  cachedPromoted := false
  typoRepairedIndices := none
  clauseState := none

/-- A call without corrections that finds so many surfaces for its clause. -/
def found (clauseResults : List (Candidate Nat)) : Answers Nat Unit where
  learningEnabled := true
  corrections := CorrectionStore.new 0 none
  files := fun _ => none
  dictionaryResults := []
  clauseResults := clauseResults

/-- The second word is selected. -/
def secondWord : ClauseCall Nat Unit := .move 1 0 (found [letter '意' 'イ', letter '胃' 'イ'])

/-- It takes another surface and its first one again. -/
def taken : List (ClauseCall Nat Unit) := [secondWord, .choose 2, .choose 0]

/-- It takes another surface, and so does the first word then. -/
def rechosen : List (ClauseCall Nat Unit) :=
  [secondWord, .choose 2, .move (-1) 0 (found [letter '阿' 'ア']), .choose 1,
    .move 1 0 (found [letter '胃' 'イ', letter '意' 'イ'])]

theorem documented_wordModule : Documented wordModule where
  nonempty := by
    intro data present
    cases data with
    | nil => exact absurd rfl present
    | cons word data => simp [wordModule, EngineHost.letterModule]
  front := by
    intro data
    simpa [wordModule, EngineHost.letterModule] using List.take_prefix 1 data
  surface := by
    intro data
    rfl
  direct := by
    intro text
    rfl

theorem joins_scalars : Joins SwiftString.scalars := by
  intro left left' right right' front back
  obtain rfl : left = left' := of_decide_eq_true front
  obtain rfl : right = right' := of_decide_eq_true back
  exact same_refl _

theorem alone_scalars : Alone SwiftString.scalars fun _ => True where
  count := by
    intro text _
    simp [SwiftString.count, SwiftString.scalars, Segmentation.scalars]
  normalizeKana := by simp
  toKatakana := by simp

/-- With the first surfaces again, the words are committed as the candidate is. -/
theorem navigation_kept_taken :
    ∃ state, ((ClauseRun.start twoWords).calls SwiftString.scalars wordModule taken).record =
        { twoWords with clauseState := some state } ∧
      recordedClauses true state = [] ∧
      ∀ candidate ∈ state.candidates, LiveConversionState.rubyCount SwiftString.scalars candidate = 1 := by
  obtain ⟨state, clause, frame, kept, there, -, covering, -⟩ :=
    @navigation_kept Text Nat Unit .scalars wordModule joins_scalars documented_wordModule twoWords rfl
      (by
        intro candidate inside _
        rw [List.mem_singleton.mp inside]
        rfl)
      1 0 (found [letter '意' 'イ', letter '胃' 'イ']) (by decide) [.choose 2, .choose 0] _ rfl
  -- Both words have their surfaces again, and the second one is selected.
  have shown : (((ClauseRun.start twoWords).calls SwiftString.scalars wordModule taken).record.clauseState.map
      fun state => (state.clauses, state.originalTexts, state.selected)) =
        some ([letter '亜' 'ア', letter '位' 'イ'], [['亜'], ['位']], 1) := by decide
  rw [show ((ClauseRun.start twoWords).calls SwiftString.scalars wordModule taken).record =
    { twoWords with clauseState := some state } from frame] at shown
  simp only [Option.map_some, Option.some.injEq, Prod.mk.injEq] at shown
  obtain ⟨clauses, originalTexts, selected⟩ := shown
  refine ⟨state, frame, ?_, ?_⟩
  · rw [clauses, originalTexts] at kept
    exact (kept (.cons (by decide) (.cons (by decide) .nil)) true true).1
  · intro candidate inside
    rw [clauses, selected] at there
    have readable (call : ClauseCall Nat Unit) : call.Readable fun _ => True := by
      cases call <;> simp [ClauseCall.Readable, Readable]
    have covered := covering _ alone_scalars (fun _ _ _ _ _ _ => trivial) (fun call _ => readable call) candidate inside
    rw [← Option.some.inj there] at covered
    exact of_decide_eq_true covered

/-- A surface that the model comes to have first is recorded all the same, as it was judged when it was chosen. -/
theorem recordedClauses_rechosen :
    ¬∀ (record : SessionRecord Text Nat) (calls : List (ClauseCall Nat Unit)) (state : ClauseState Nat),
      record.clauseState = none →
      ((ClauseRun.start record).calls SwiftString.scalars wordModule calls).record.clauseState = some state →
      ∀ entry ∈ recordedClauses true state,
        (state.modelTopTexts entry.2).any (SwiftString.scalars.same entry.1.text) = false := by
  intro every
  have last := every twoWords rechosen _ rfl rfl (letter '胃' 'イ', 1)
  exact absurd (last (by decide)) (by decide)

end ClauseNavigation

end Nospacekey
