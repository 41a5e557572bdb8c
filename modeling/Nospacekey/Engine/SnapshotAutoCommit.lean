import Nospacekey.Engine.LiveConversionState
import Nospacekey.Library.Table

/-! What the engine proposes to commit by itself, one stream for each composition of a connection. -/

namespace Nospacekey

structure SnapshotEnhancementKey where
  composition : Nat
  revision : Nat
  configurationGeneration : Nat
  connectionGeneration : Nat
  conversionRevision : Nat
  requestId : Nat
  deriving DecidableEq, Repr

def SnapshotEnhancementKey.sameReadingIdentity (key other : SnapshotEnhancementKey) : Bool :=
  key.composition = other.composition && key.revision = other.revision
    && key.configurationGeneration = other.configurationGeneration
    && key.connectionGeneration = other.connectionGeneration

structure SnapshotAutoCommitProposal where
  proposal : Nat
  text : Text
  consumedReading : Text
  remaining : Text
  deriving DecidableEq, Repr

/-- A proposal that has been made but not applied yet. -/
structure PendingAutoCommit (κ : Type) where
  key : SnapshotEnhancementKey
  value : SnapshotAutoCommitProposal
  candidate : Candidate κ
  deriving DecidableEq, Repr

structure SnapshotAutoCommitState (κ : Type) where
  live : LiveConversionState κ
  lastRevision : Option Nat
  pending : Option (PendingAutoCommit κ)
  deriving DecidableEq, Repr

structure SnapshotAutoCommitStream where
  connection : Nat
  composition : Nat
  deriving DecidableEq, Repr

/-- The order in which streams are dropped. -/
def SnapshotAutoCommitStream.before (stream other : SnapshotAutoCommitStream) : Bool :=
  stream.connection < other.connection
    || stream.connection = other.connection && stream.composition < other.composition

/-- The tables of the streams and of the receipts that were applied to them. -/
structure SnapshotAutoCommits (κ : Type) where
  states : Table SnapshotAutoCommitStream (SnapshotAutoCommitState κ)
  applied : Table SnapshotAutoCommitStream (SnapshotEnhancementKey × Nat)
  nextProposal : Nat

/-- What a live snapshot offers for a commit: the input, the candidate shown for it, the candidates for its
first clause and its reading. -/
structure LiveSnapshotCandidates (χ κ : Type) where
  composing : χ
  candidate : Candidate κ
  firstClauseCandidates : List (Candidate κ)
  reading : Text

namespace SnapshotAutoCommits

variable {χ κ : Type} (swift : SwiftString) (module : KanaKanjiConverterModule χ κ)

/-- No streams. -/
def new : SnapshotAutoCommits κ := ⟨∅, ∅, 0⟩

/-- The first stream in the order in which they are dropped. -/
def oldest : List SnapshotAutoCommitStream → Option SnapshotAutoCommitStream
  | [] => none
  | stream :: rest =>
    match oldest rest with
    | some other => if other.before stream then some other else some stream
    | none => some stream

/-- Room for a new stream: the other ones of its connection go, and the oldest of all where there are too many. -/
def makeRoom (limit : Nat) (commits : SnapshotAutoCommits κ) (stream : SnapshotAutoCommitStream) :
    SnapshotAutoCommits κ :=
  if (commits.states.lookup stream).isSome then commits
  else
    let replaced (other : SnapshotAutoCommitStream) : Bool :=
      (commits.states.lookup other).isSome && other.connection = stream.connection && other ≠ stream
    let commits := { commits with
      states := commits.states.retain fun other => !replaced other
      applied := commits.applied.retain fun other => !replaced other }
    if limit ≤ commits.states.entries.length then
      match oldest commits.states.keys with
      | some first => { commits with states := commits.states.erase first, applied := commits.applied.erase first }
      | none => commits
    else commits

/-- The reading without its last clusters. -/
def dropLastClusters (reading : Text) (count : Nat) : Text :=
  ((swift.graphemes reading).take (swift.count reading - count)).flatten

/-- The candidate to commit: the first clause if it is stable, or the first candidate for it if the reading is
too long. -/
def front (threshold : Nat) (maxReading : Int) (live : LiveConversionState κ)
    (snapshot : LiveSnapshotCandidates χ κ) : Option (Candidate κ) :=
  (live.candidateForCompleteFirstClause swift threshold).or <|
    if 0 < maxReading && maxReading < swift.count snapshot.reading then snapshot.firstClauseCandidates.head?
    else none

/-- The next number of a proposal. -/
def next (commits : SnapshotAutoCommits κ) : Nat := (commits.nextProposal + 1) % 2 ^ 64

/-- What is proposed for a snapshot that comes after those that its stream has seen. -/
def propose (threshold : Nat) (maxReading : Int) (commits : SnapshotAutoCommits κ)
    (stream : SnapshotAutoCommitStream) (state : SnapshotAutoCommitState κ) (key : SnapshotEnhancementKey)
    (snapshot : LiveSnapshotCandidates χ κ) : SnapshotAutoCommits κ × Option SnapshotAutoCommitProposal :=
  let live := state.live.update swift module snapshot.candidate snapshot.firstClauseCandidates
  let state := { state with live := live, lastRevision := some key.revision, pending := none }
  let kept := { commits with states := commits.states.insert stream state }
  match front swift threshold maxReading live snapshot with
  | none => (kept, none)
  | some clause =>
    let remaining := module.convertTarget (module.prefixComplete snapshot.composing clause.composingCount)
    if remaining.isEmpty || swift.count snapshot.reading ≤ swift.count remaining then (kept, none)
    else
      let proposal : SnapshotAutoCommitProposal :=
        { proposal := commits.next
          text := clause.text
          consumedReading := dropLastClusters swift snapshot.reading (swift.count remaining)
          remaining := remaining }
      let state := { state with pending := some ⟨key, proposal, clause⟩ }
      ({ commits with states := commits.states.insert stream state, nextProposal := commits.next }, some proposal)

def snapshotAutoCommitProposalLocked (limit : Nat) (threshold : Option Nat) (maxReading : Int)
    (commits : SnapshotAutoCommits κ) (key : Option SnapshotEnhancementKey) (connection : Nat)
    (snapshot : LiveSnapshotCandidates χ κ) : SnapshotAutoCommits κ × Option SnapshotAutoCommitProposal :=
  match key, threshold with
  | some key, some threshold =>
    if snapshot.reading.isEmpty then (commits, none)
    else
      let stream : SnapshotAutoCommitStream := ⟨connection, key.composition⟩
      let commits := commits.makeRoom limit stream
      let state := (commits.states.lookup stream).getD ⟨.new, none, none⟩
      if state.lastRevision.any fun last => key.revision < last then (commits, none)
      else
        match state.pending with
        | some pending =>
          if pending.key = key then (commits, some pending.value)
          else if key.revision ≤ pending.key.revision then (commits, none)
          else if state.lastRevision = some key.revision then (commits, none)
          else propose swift module threshold maxReading commits stream state key snapshot
        | none =>
          if state.lastRevision = some key.revision then (commits, none)
          else propose swift module threshold maxReading commits stream state key snapshot
  | _, _ => (commits, none)

/-- The tables after a receipt, whether the receipt is accepted, and the candidate that it commits now. -/
def applySnapshotAutoCommitReceipt (commits : SnapshotAutoCommits κ) (connection : Nat)
    (key : SnapshotEnhancementKey) (proposal : Nat) : SnapshotAutoCommits κ × Bool × Option (Candidate κ) :=
  let stream : SnapshotAutoCommitStream := ⟨connection, key.composition⟩
  if (commits.applied.lookup stream).any fun applied => applied.1.sameReadingIdentity key && applied.2 = proposal then
    (commits, true, none)
  else
    match commits.states.lookup stream with
    | none => (commits, false, none)
    | some state =>
      match state.pending with
      | none => (commits, false, none)
      | some pending =>
        if pending.key.sameReadingIdentity key && pending.value.proposal = proposal then
          let state := { state with live := state.live.didCompleteFirstClause, pending := none }
          ({ commits with
              states := commits.states.insert stream state
              applied := commits.applied.insert stream (key, proposal) },
            true, some pending.candidate)
        else (commits, false, none)

end SnapshotAutoCommits

end Nospacekey
