import Nospacekey.Engine.ComposingText
import Nospacekey.Engine.LiveConversionState
import Nospacekey.Learning.Corrections
import Nospacekey.Library.Index
import Nospacekey.Library.Runs
import Mathlib.Data.Finset.Insert
import Mathlib.Order.WithBot
import Mathlib.Algebra.Order.Monoid.WithTop
import Mathlib.Order.Lattice.Nat

/-! The ranking of candidates by what was committed recently, with an index over the entries that fit the input. -/

namespace Nospacekey

/-- What a candidate is learned as. A ruby is spelled with kana that have one spelling only, and a surface is kept in
the form by which strings are compared. -/
structure RecentIdentity where
  ruby : Text
  surface : Text
  consumedReading : Nat
  range : ComposingCount
  deriving DecidableEq, Repr

structure PrefixIdentity where
  ruby : Text
  surface : Text
  consumedReading : Nat
  deriving DecidableEq, Repr

/-- The first rank of each identity, and of each prefix. -/
structure LearningIndex where
  exacts : Table RecentIdentity Nat
  prefixes : Table PrefixIdentity Nat

/-- A candidate with what it is sorted by. One without a rank has the greatest. -/
structure DecoratedCandidate where
  candidate : Candidate ComposingCount
  identity : Option RecentIdentity
  rank : WithTop Nat
  offset : Nat

structure RecentLearningOverlay where
  capacity : Nat
  entries : List RecentIdentity

/-- The rank that is found, or the greatest. -/
def rankOf : Option Nat → WithTop Nat
  | none => ⊤
  | some rank => rank

namespace RecentLearningOverlay

variable {χ : Type} (swift : SwiftString) (module : ComposingTextModule χ)

/-- The composing text behind a range, as long as each of its parts fits. -/
def consume (composing : χ) : ComposingCount → Option χ
  | .inputCount count =>
    if 0 ≤ count ∧ count ≤ module.inputCount composing then some (module.prefixComplete composing (.inputCount count))
    else none
  | .surfaceCount count =>
    if 0 ≤ count ∧ count ≤ swift.count (module.convertTarget composing) then
      some (module.prefixComplete composing (.surfaceCount count))
    else none
  | .composite lhs rhs =>
    match consume composing lhs with
    | none => none
    | some composing => consume composing rhs

/-- The identity of a candidate that reads so, if that is a reading of kana. -/
def identityAs (ruby : Text) (candidate : Candidate ComposingCount) : Option RecentIdentity :=
  (CorrectionStore.normalizedKey ruby).map fun ruby =>
    ⟨ruby, swift.canonical candidate.text, swift.count ruby, candidate.composingCount⟩

def identity (candidate : Candidate ComposingCount) : Option RecentIdentity :=
  identityAs swift (candidate.data.flatMap DicdataElement.ruby) candidate

/-- No entry is there before the first commit. -/
def new (capacity : Nat) : RecentLearningOverlay := ⟨max 1 capacity, []⟩

def record (s : RecentLearningOverlay) (candidate : Candidate ComposingCount) : RecentLearningOverlay :=
  match identity swift candidate with
  | none => s
  | some identity => { s with entries := (identity :: s.entries.filter (· ≠ identity)).take s.capacity }

def clear (s : RecentLearningOverlay) : RecentLearningOverlay := { s with entries := [] }

/-- The range of an entry takes exactly its ruby from the composing text. -/
def rangeMatches (identity : RecentIdentity) (composing : χ) : Bool :=
  let reading := module.convertTarget composing
  match consume swift module composing identity.range with
  | none => false
  | some remainder =>
    let left := swift.count (module.convertTarget remainder)
    if left ≤ swift.count reading then
      let consumed := ((swift.graphemes reading).take (swift.count reading - left)).flatten
      CorrectionStore.normalizedKey consumed = some identity.ruby
    else false

def prefixIdentity (identity : RecentIdentity) : PrefixIdentity :=
  ⟨identity.ruby, identity.surface, identity.consumedReading⟩

/-- The entries that fit the composing text, with their ranks. -/
def fitting (learned : List RecentIdentity) (composing : χ) : List (RecentIdentity × Nat) :=
  learned.zipIdx.filter fun entry => rangeMatches swift module entry.1 composing

def learningIndex (learned : List RecentIdentity) (composing : χ) : LearningIndex where
  exacts := Index.firsts (fitting swift module learned composing)
  prefixes := Index.firsts ((fitting swift module learned composing).map fun entry => (prefixIdentity entry.1, entry.2))

/-- One element more of a candidate: its ruby, its words and the best rank so far. -/
def scanElement (index : LearningIndex) (scanned : Text × Text × WithTop Nat) (element : DicdataElement) :
    Text × Text × WithTop Nat :=
  let ruby := scanned.1 ++ element.ruby
  let surface := scanned.2.1 ++ element.word
  match CorrectionStore.normalizedKey ruby with
  | none => (ruby, surface, scanned.2.2)
  | some normalized =>
    (ruby, surface,
      min scanned.2.2 (rankOf (index.prefixes.lookup ⟨normalized, swift.canonical surface, swift.count normalized⟩)))

/-- A main candidate has the best rank of its fronts. -/
def decorateMain (index : LearningIndex) (candidate : Candidate ComposingCount) (offset : Nat) : DecoratedCandidate :=
  let scanned := candidate.data.foldl (scanElement swift index) ([], [], ⊤)
  ⟨candidate, identityAs swift scanned.1 candidate, scanned.2.2, offset⟩

/-- A candidate for the first clause has the rank of its own identity. -/
def decorateFirstClause (index : LearningIndex) (candidate : Candidate ComposingCount) (offset : Nat) :
    DecoratedCandidate :=
  let ruby := candidate.data.foldl (fun ruby element => ruby ++ element.ruby) []
  let identity := identityAs swift ruby candidate
  ⟨candidate, identity, rankOf (identity.bind fun identity => index.exacts.lookup identity), offset⟩

/-- The candidates whose identity has not been seen. -/
def firstOfEach (seen : Finset RecentIdentity) : List DecoratedCandidate → List DecoratedCandidate
  | [] => []
  | decorated :: rest =>
    match decorated.identity with
    | none => decorated :: firstOfEach seen rest
    | some identity =>
      if identity ∈ seen then firstOfEach seen rest else decorated :: firstOfEach (insert identity seen) rest

/-- The order of the candidates. -/
def before (a b : DecoratedCandidate) : Bool :=
  if a.rank = b.rank then a.offset < b.offset else a.rank < b.rank

def rankUnique (decorated : List DecoratedCandidate) : List (Candidate ComposingCount) :=
  ((firstOfEach ∅ decorated).mergeSort fun a b => !before b a).map DecoratedCandidate.candidate

def rankMain (candidates : List (Candidate ComposingCount)) (index : LearningIndex) : List (Candidate ComposingCount) :=
  rankUnique (candidates.zipIdx.map fun entry => decorateMain swift index entry.1 entry.2)

def rankFirstClause (candidates : List (Candidate ComposingCount)) (index : LearningIndex) :
    List (Candidate ComposingCount) :=
  rankUnique (candidates.zipIdx.map fun entry => decorateFirstClause swift index entry.1 entry.2)

def rank (s : RecentLearningOverlay) (mainResults firstClauseResults : List (Candidate ComposingCount))
    (composing : χ) : List (Candidate ComposingCount) × List (Candidate ComposingCount) :=
  if s.entries.isEmpty then (mainResults, firstClauseResults)
  else
    let index := learningIndex swift module s.entries composing
    (rankMain swift mainResults index, rankFirstClause swift firstClauseResults index)

end RecentLearningOverlay

/-- The calls that change what is learned. -/
inductive RecentLearningOp where
  | record (candidate : Candidate ComposingCount)
  | clear

/-- One call, which holds the lock. -/
def RecentLearningOverlay.step (swift : SwiftString) (s : RecentLearningOverlay) :
    RecentLearningOp → RecentLearningOverlay
  | .record candidate => s.record swift candidate
  | .clear => s.clear

end Nospacekey
