import Nospacekey.Text.SwiftString
import Mathlib.Algebra.Ring.Nat

/-! The history of leading clauses, from which the engine decides what it may commit by itself. -/

namespace Nospacekey

/-- A word of the dictionary, as far as clauses go by it. -/
structure DicdataElement where
  word : Text
  ruby : Text
  deriving DecidableEq, Repr

/-- A candidate of the converter, which says in the converter's own terms how much input it takes. -/
structure Candidate (κ : Type) where
  text : Text
  data : List DicdataElement
  composingCount : κ
  isLearningTarget : Bool
  deriving DecidableEq, Repr

/-- What the converter's package does with composing text and with words. -/
structure KanaKanjiConverterModule (χ κ : Type) where
  convertTarget : χ → Text
  prefixComplete : χ → κ → χ
  makePrefixClauseCandidate : List DicdataElement → Candidate κ

structure LiveConversionState (κ : Type) where
  /-- The candidates for each clause, the oldest first. -/
  headClauseCandidateHistories : List (List (Candidate κ))
  lastUsedCandidate : Option (Candidate κ)
  deriving DecidableEq, Repr

namespace LiveConversionState

variable {χ κ : Type} (swift : SwiftString) (module : KanaKanjiConverterModule χ κ)

/-- A state without history. -/
def new : LiveConversionState κ := ⟨[], none⟩

def rubyCount (candidate : Candidate κ) : Nat := (candidate.data.map fun word => swift.count word.ruby).sum

/-- The first clause takes its input from the candidate for a first clause that reads the same. -/
def fitFirstClause (firstClauseCandidates : List (Candidate κ)) (clause : Candidate κ) : Candidate κ :=
  match firstClauseCandidates.find? fun first => swift.same first.text clause.text with
  | some first => { clause with composingCount := first.composingCount }
  | none => clause

/-- The clauses that words are cut into, with a bound on their number. -/
def clausesWithin : Nat → List DicdataElement → List (Candidate κ)
  | 0, _ => []
  | fuel + 1, data =>
    if data.isEmpty then []
    else
      let clause := module.makePrefixClauseCandidate data
      -- An empty clause would be cut off forever.
      if clause.data.isEmpty then [] else clause :: clausesWithin fuel (data.drop clause.data.length)

/-- Every clause takes a word at least, so there are no more clauses than words. -/
def clauses (candidate : Candidate κ) : List (Candidate κ) :=
  clausesWithin module candidate.data.length candidate.data

/-- Every clause is added to the history of its place. -/
def pushClauses : List (List (Candidate κ)) → List (Candidate κ) → List (List (Candidate κ))
  | histories, [] => histories
  | [], clauses => clauses.map fun clause => [clause]
  | history :: histories, clause :: clauses => (history ++ [clause]) :: pushClauses histories clauses

def updateHistories (histories : List (List (Candidate κ))) (newCandidate : Candidate κ)
    (firstClauseCandidates : List (Candidate κ)) : List (List (Candidate κ)) :=
  match clauses module newCandidate with
  | [] => histories
  | first :: rest => pushClauses histories (fitFirstClause swift firstClauseCandidates first :: rest)

/-- The history after a live conversion. One with a longer reading is added, one with a shorter reading
only takes the last entry off every place, and one of the same length takes it off and is added. -/
def update (state : LiveConversionState κ) (candidate : Candidate κ)
    (firstClauseCandidates : List (Candidate κ)) : LiveConversionState κ :=
  let newLength := rubyCount swift candidate
  let longer := state.lastUsedCandidate.all fun last => rubyCount swift last < newLength
  let shorter := state.lastUsedCandidate.any fun last => newLength < rubyCount swift last
  let popped := state.headClauseCandidateHistories.map List.dropLast
  { lastUsedCandidate := some candidate
    headClauseCandidateHistories :=
      if longer then updateHistories swift module state.headClauseCandidateHistories candidate firstClauseCandidates
      else if shorter then popped
      else updateHistories swift module popped candidate firstClauseCandidates }

/-- The last entry of the first place, where that place has not changed for long enough. -/
def candidateForCompleteFirstClause (state : LiveConversionState κ) (threshold : Nat) : Option (Candidate κ) :=
  match state.headClauseCandidateHistories with
  | [] => none
  | history :: _ =>
    if history.length < threshold then none
    else
      let texts := (history.drop (history.length - threshold)).map fun clause => swift.canonical clause.text
      if texts.dedup.length = 1 then history.getLast? else none

def didCompleteFirstClause (state : LiveConversionState κ) : LiveConversionState κ :=
  { lastUsedCandidate := none
    headClauseCandidateHistories := state.headClauseCandidateHistories.tail }

end LiveConversionState

end Nospacekey
