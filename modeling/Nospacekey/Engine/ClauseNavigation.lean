import Mathlib.Logic.Function.Basic
import Nospacekey.Clause.Notation
import Nospacekey.Engine.EngineHost
import Nospacekey.Library.FirstOfKey
import Nospacekey.Learning.Corrections

/-! The clauses of a candidate: moving between them, choosing their surfaces, and committing them or the candidate. -/

namespace Nospacekey

namespace ClauseNavigation

variable {χ κ δ : Type}

/-- What else the converter's package does with composing text. -/
structure ClauseModule (χ κ : Type) extends KanaKanjiConverterModule χ κ where
  /-- Composing text without input. -/
  empty : χ
  /-- Composing text with input that is taken as it is. -/
  direct : Text → χ
  /-- All input of composing text. -/
  inputCount : χ → κ

/-- What is shown of the clauses and what is kept for each of them. -/
structure ClauseState (κ : Type) where
  clauses : List (Candidate κ)
  selected : Nat
  candidates : List (Candidate κ)
  candidateIndex : Nat
  /-- The surfaces when the candidate was cut into clauses. -/
  originalTexts : List Text
  /-- The first surface that the model had for a clause. -/
  modelTopTexts : Nat → Option Text
  /-- Whether a clause is recorded as a correction when it is committed. -/
  clauseCorrections : Nat → Bool
  /-- The reading and the surface that a commit of the whole candidate would have recorded. -/
  sentenceCorrection : Option (Text × Text)
  /-- Those that it would have had forgotten. -/
  sentenceUnlearn : Option (Text × Text)
  candidateCache : Nat → Option (List (Candidate κ) × Nat)

/-- A session, as far as candidates and clauses go. -/
structure SessionRecord (χ κ : Type) where
  composing : χ
  cachedCandidates : Option (List (Candidate κ))
  cachedTarget : Option Text
  cachedModelTop : Option Text
  cachedPromoted : Bool
  typoRepairedIndices : Option (List Nat)
  clauseState : Option (ClauseState κ)

namespace SessionRecord

def invalidateCandidateCache (record : SessionRecord χ κ) : SessionRecord χ κ :=
  { record with
    cachedCandidates := none
    cachedTarget := none
    cachedModelTop := none
    cachedPromoted := false
    typoRepairedIndices := none
    clauseState := none }

def cacheCandidates (record : SessionRecord χ κ) (candidates : List (Candidate κ)) (target : Text)
    (repairedIndices : Option (List Nat)) (modelTop : Option Text) (promoted : Bool) : SessionRecord χ κ :=
  { record with
    cachedCandidates := some candidates
    cachedTarget := some target
    cachedModelTop := modelTop
    cachedPromoted := promoted
    typoRepairedIndices := repairedIndices
    clauseState := none }

end SessionRecord

/-- What a call finds: the corrections, and the converter's answers for the whole reading and for one clause. -/
structure Answers (κ δ : Type) where
  learningEnabled : Bool
  corrections : CorrectionStore δ
  files : δ → Option (List CorrectionEntry)
  dictionaryResults : List (Candidate κ)
  clauseResults : List (Candidate κ)

section Candidates

variable (swift : SwiftString) (module : ClauseModule χ κ)

def joinedWords (candidate : Candidate κ) : Text := candidate.data.flatMap DicdataElement.word

/-- Whether a candidate takes a whole reading of so many characters. -/
def covers (candidate : Candidate κ) (targetCount : Nat) : Bool :=
  LiveConversionState.rubyCount swift candidate = targetCount

/-- The clauses of a candidate. None is learned from unless the candidate is. -/
def decomposeClauses (candidate : Candidate κ) : List (Candidate κ) :=
  (LiveConversionState.clauses module.toKanaKanjiConverterModule candidate).map fun clause =>
    { clause with isLearningTarget := clause.isLearningTarget && candidate.isLearningTarget }

def clauseReading (clause : Candidate κ) : Text := normalizeKana (clause.data.flatMap DicdataElement.ruby)

/-- The clauses that the dictionary has for a reading and a surface, if there are two at least. -/
def dictionaryBoundaryClauses (answers : Answers κ δ) (reading text : Text) : Option (List (Candidate κ)) :=
  answers.dictionaryResults.findSome? fun candidate =>
    if swift.same candidate.text text && covers swift candidate (swift.count reading) &&
        swift.same candidate.text (joinedWords candidate) then
      let clauses := decomposeClauses module candidate
      if clauses.length ≥ 2 then some clauses else none
    else none

/-- Candidates with the surface of a correction in front, if there is one for what is composed. -/
def promoted (answers : Answers κ δ) (results : List (Candidate κ)) (composing : χ) : Option (List (Candidate κ)) :=
  let target := module.convertTarget composing
  if !answers.learningEnabled then none
  else
    (answers.corrections.lookup answers.files target).2.map fun surface =>
      let top :=
        match results.find? fun candidate =>
          swift.same candidate.text surface && covers swift candidate (swift.count target) with
        | some existing => existing
        | none =>
          { text := surface
            data := [⟨surface, toKatakana target⟩]
            composingCount := module.inputCount composing
            isLearningTarget := true }
      top :: results.filter fun candidate => !swift.same candidate.text surface

/-- The candidates of a clause, with the clause itself among them and its place, and what the model had first. -/
def clauseCandidates (answers : Answers κ δ) (current : Candidate κ) :
    List (Candidate κ) × Nat × Option Text :=
  let reading := clauseReading current
  let list := FirstOfKey.newItems (fun candidate => swift.canonical candidate.text) []
    (answers.clauseResults.filter fun candidate => covers swift candidate (swift.count reading))
  let modelTop := list.head?.map Candidate.text
  let list := (promoted swift module answers list (module.direct reading)).getD list
  match list.findIdx? fun candidate => swift.same candidate.text current.text with
  | some idx => (list.set idx current, idx, modelTop)
  | none => (current :: list, 0, modelTop)

end Candidates

section Calls

variable (swift : SwiftString) (module : ClauseModule χ κ)

def makeClauseView (state : ClauseState κ) : ClauseView :=
  ⟨state.clauses.map Candidate.text, state.selected, state.candidates.map Candidate.text, state.candidateIndex⟩

/-- The clauses that a candidate of the window is taken for. It has to take the whole reading as it is. -/
def seedClauses (answers : Answers κ δ) (record : SessionRecord χ κ) (candidate : Candidate κ) (baseIndex : Nat) :
    Option (List (Candidate κ)) :=
  let target := module.convertTarget record.composing
  if (record.typoRepairedIndices.getD []).contains baseIndex then none
  else if !covers swift candidate (swift.count target) then none
  else if !swift.same candidate.text (joinedWords candidate) then none
  else
    let clauses := decomposeClauses module candidate
    if clauses.length < 2 then dictionaryBoundaryClauses swift module answers target candidate.text else some clauses

/-- The state that a candidate of the window begins with. What a commit of it would do to the corrections is kept. -/
def seed (answers : Answers κ δ) (record : SessionRecord χ κ) (baseIndex : Int) : Option (ClauseState κ) :=
  let target := module.convertTarget record.composing
  match record.cachedCandidates with
  | none => none
  | some candidates =>
    if !record.cachedTarget.any (swift.same target) then none
    else if baseIndex < 0 then none
    else
      match candidates[baseIndex.toNat]? with
      | none => none
      | some candidate =>
        (seedClauses swift module answers record candidate baseIndex.toNat).map fun clauses =>
          let isModelTop := record.cachedModelTop.any (swift.same candidate.text)
          { clauses := clauses
            selected := 0
            candidates := []
            candidateIndex := 0
            originalTexts := clauses.map Candidate.text
            modelTopTexts := fun _ => none
            clauseCorrections := fun _ => false
            sentenceCorrection :=
              if baseIndex ≠ 0 && !isModelTop && candidate.isLearningTarget then some (target, candidate.text) else none
            sentenceUnlearn :=
              if baseIndex ≠ 0 && isModelTop && record.cachedPromoted && candidate.isLearningTarget then
                some (target, candidate.text)
              else none
            candidateCache := fun _ => none }

/-- The state of a session, or the one that it begins with. -/
def enter (answers : Answers κ δ) (record : SessionRecord χ κ) (baseIndex : Int) : Option (ClauseState κ) :=
  match record.clauseState with
  | some state => some state
  | none => seed swift module answers record baseIndex

namespace ClauseState

/-- The clause that a move comes to. -/
def target (state : ClauseState κ) (offset : Int) : Nat :=
  (min (max (state.selected + offset) 0) (state.clauses.length - 1)).toNat

/-- Whether a move has nothing to do. -/
def stays (state : ClauseState κ) (moved : Nat) : Bool := moved = state.selected && !state.candidates.isEmpty

/-- A clause is selected. Its candidates are fetched unless they were kept. -/
def select (answers : Answers κ δ) (state : ClauseState κ) (moved : Nat) : ClauseState κ :=
  match state.candidateCache moved with
  | some (list, index) => { state with selected := moved, candidates := list, candidateIndex := index }
  | none =>
    match state.clauses[moved]? with
    | none => { state with selected := moved }
    | some current =>
      let (list, index, modelTop) := clauseCandidates swift module answers current
      { state with
        selected := moved
        candidates := list
        candidateIndex := index
        modelTopTexts := Function.update state.modelTopTexts moved modelTop
        candidateCache := Function.update state.candidateCache moved (some (list, index)) }

/-- The selected clause takes the surface of another of its candidates. -/
def choose (state : ClauseState κ) (chosen : Candidate κ) (index : Nat) : ClauseState κ :=
  let selected := state.selected
  { state with
    clauses := state.clauses.set selected chosen
    candidateIndex := index
    clauseCorrections := Function.update state.clauseCorrections selected
      (!state.originalTexts[selected]?.any (swift.same chosen.text) &&
        !(state.modelTopTexts selected).any (swift.same chosen.text))
    -- What is kept for the clauses behind it was fetched with the earlier surface in front.
    candidateCache := Function.update (fun i => if i ≤ selected then state.candidateCache i else none) selected
      (some (state.candidates, index)) }

end ClauseState

def moveClause (answers : Answers κ δ) (record : SessionRecord χ κ) (offset baseIndex : Int) :
    Option (SessionRecord χ κ × ClauseView) :=
  (enter swift module answers record baseIndex).map fun state =>
    let moved := state.target offset
    if state.stays moved then (record, makeClauseView state)
    else
      let state := state.select swift module answers moved
      ({ record with clauseState := some state }, makeClauseView state)

def selectClauseCandidate (record : SessionRecord χ κ) (index : Int) : Option (SessionRecord χ κ × ClauseView) :=
  match record.clauseState with
  | none => none
  | some state =>
    if index < 0 then none
    else
      (state.candidates[index.toNat]?).map fun chosen =>
        let state := state.choose swift chosen index.toNat
        ({ record with clauseState := some state }, makeClauseView state)

end Calls

/-- What a commit answers, what it leaves of the session, and what it tells the converter and the corrections. -/
structure Committed (χ κ : Type) where
  text : Text
  reading : Text
  record : SessionRecord χ κ
  /-- What the converter takes as committed. -/
  completed : List (Candidate κ)
  /-- What it learns. -/
  learned : List (Candidate κ)
  edits : List CorrectionEdit

section Commits

variable (swift : SwiftString) (module : ClauseModule χ κ)

/-- A misreading is learned as the reading of what it was repaired to. -/
def repairedPair (record : SessionRecord χ κ) (candidate : Candidate κ) : Candidate κ :=
  { text := candidate.text
    data := [⟨candidate.text, toKatakana (module.convertTarget record.composing)⟩]
    composingCount := module.inputCount record.composing
    isLearningTarget := true }

/-- A commit of a candidate of the window. -/
def commit (learningEnabled typoLearn : Bool) (record : SessionRecord χ κ) (index : Int) : Option (Committed χ κ) :=
  let wholeReading := module.convertTarget record.composing
  if index < 0 then none
  else
    match (record.cachedCandidates.getD [])[index.toNat]? with
    | none => none
    | some candidate =>
      if record.cachedTarget.any fun target => !swift.same target wholeReading then none
      else
        let learned := if learningEnabled && candidate.isLearningTarget then [candidate] else []
        if (record.typoRepairedIndices.getD []).contains index.toNat then
          some
            { text := candidate.text
              reading := []
              record := { record with composing := module.empty }.invalidateCandidateCache
              completed := [candidate]
              learned := learned ++
                if learningEnabled && typoLearn && candidate.isLearningTarget then [repairedPair module record candidate]
                else []
              edits := [] }
        else
          let composing := module.prefixComplete record.composing candidate.composingCount
          let remaining := module.convertTarget composing
          let isModelTop := record.cachedModelTop.any (swift.same candidate.text)
          let decided := learningEnabled && index ≠ 0 && remaining.isEmpty && candidate.isLearningTarget
          some
            { text := candidate.text
              reading := remaining
              record := { record with composing := composing }.invalidateCandidateCache
              completed := [candidate]
              learned := learned
              edits :=
                (if decided && !isModelTop then [.record wholeReading candidate.text] else []) ++
                  if decided && isModelTop && record.cachedPromoted then [.remove wholeReading] else [] }

/-- The clauses that a commit records as corrections, with their places. -/
def recordedClauses (learningEnabled : Bool) (state : ClauseState κ) : List (Candidate κ × Nat) :=
  state.clauses.zipIdx.filter fun entry =>
    learningEnabled && state.clauseCorrections entry.2 && entry.1.isLearningTarget

/-- A commit of the clauses as they are shown. -/
def commitClauses (learningEnabled : Bool) (record : SessionRecord χ κ) : Option (Committed χ κ) :=
  record.clauseState.map fun state =>
    let text := state.clauses.flatMap Candidate.text
    { text := text
      reading := []
      record := { record with composing := module.empty }.invalidateCandidateCache
      completed := state.clauses
      learned := state.clauses.filter fun clause => learningEnabled && clause.isLearningTarget
      edits :=
        (recordedClauses learningEnabled state).map (fun entry => .record (clauseReading entry.1) entry.1.text) ++
          (match state.sentenceCorrection with
          | some (reading, surface) =>
            if learningEnabled && swift.same text surface then [.record reading surface] else []
          | none => []) ++
          match state.sentenceUnlearn with
          | some (reading, surface) => if learningEnabled && swift.same text surface then [.remove reading] else []
          | none => [] }

end Commits

end ClauseNavigation

end Nospacekey
