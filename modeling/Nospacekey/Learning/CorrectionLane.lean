import Nospacekey.Learning.Corrections

/-! The conversion service's corrections, the serial lane that writes them, and the clearing of both. -/

namespace Nospacekey

/-- What waits on the lane's serial queue: a drain of its jobs, or the barrier of a clear. -/
inductive LaneBlock where
  | drain
  | fence
  deriving DecidableEq, Repr

/-- Where the job that writes the corrections stands. It holds on to the table it has captured. -/
inductive CorrectionJob (δ : Type) where
  | none
  | starting
  | captured (store : Nat) (snapshot : PersistenceSnapshot δ)
  | written (store : Nat) (snapshot : PersistenceSnapshot δ)
  deriving DecidableEq, Repr

/-- Where a clear stands. -/
inductive LearningClear where
  | idle
  | waiting
  | fenced
  deriving DecidableEq, Repr

structure CorrectionLane (δ : Type) where
  files : δ → Option (List CorrectionEntry)
  learningDirectory : Option δ
  corrections : CorrectionStore δ
  /-- The tables that a reload has replaced, the last one first. -/
  replaced : List (CorrectionStore δ)
  blocks : List LaneBlock
  /-- A job for the label is waiting; further ones take its place. -/
  coalesced : Bool
  job : CorrectionJob δ
  clear : LearningClear
  /-- A clear has returned cleared, and nothing was recorded since. -/
  cleared : Bool

namespace CorrectionLane

variable {δ : Type} [DecidableEq δ]

/-- A service that has just started with a learning directory on some disk. Without learning, the
directory is still known to a clear, but has no table. -/
def start (files : δ → Option (List CorrectionEntry)) (memoryDir resolved : Option δ) : CorrectionLane δ where
  files := files
  learningDirectory := memoryDir.or resolved
  corrections := .new 0 memoryDir
  replaced := []
  blocks := []
  coalesced := false
  job := .none
  clear := .idle
  cleared := false

/-- A job for the corrections is submitted; an idle lane starts to drain. -/
def enqueueCorrectionPersistence (s : CorrectionLane δ) : CorrectionLane δ :=
  { s with
    coalesced := true
    blocks := if .drain ∈ s.blocks then s.blocks else s.blocks ++ [.drain] }

def correct (s : CorrectionLane δ) (edits : List CorrectionEdit) : CorrectionLane δ :=
  let applied := CorrectionEdit.applyAll s.files s.corrections edits
  let s := { s with corrections := applied.1, cleared := s.cleared && !edits.any (·.isRecord) }
  if applied.2 then s.enqueueCorrectionPersistence else s

/-- Learning that is turned off, or another directory, submits a job; another directory also gets a
table of its own. -/
def reload (s : CorrectionLane δ) (newLearningDirectory : Option δ) (turnedOff : Bool) : CorrectionLane δ :=
  let s := if turnedOff then s.enqueueCorrectionPersistence else s
  if s.learningDirectory ≠ newLearningDirectory then
    let s := s.enqueueCorrectionPersistence
    { s with
      corrections := .new (s.corrections.id + 1) newLearningDirectory
      replaced := s.corrections :: s.replaced
      learningDirectory := newLearningDirectory }
  else s

/-- A job acknowledges what it has written to the table it was captured from. -/
def acknowledge (s : CorrectionLane δ) (store : Nat) (snapshot : PersistenceSnapshot δ) : CorrectionLane δ :=
  let ack := fun other : CorrectionStore δ =>
    if other.id = store then other.acknowledgePersistence snapshot else other
  { s with corrections := ack s.corrections, replaced := s.replaced.map ack, job := .none }

/-- The next step of the job, or of the drain that runs it. -/
def drain (s : CorrectionLane δ) (blocks : List LaneBlock) : CorrectionLane δ :=
  match s.job with
  | .none => if s.coalesced then { s with coalesced := false, job := .starting } else { s with blocks := blocks }
  | .starting =>
    match s.corrections.persistenceSnapshot with
    | none => { s with job := .none }
    | some snapshot => { s with job := .captured s.corrections.id snapshot }
  | .captured store snapshot =>
    { s with files := Function.update s.files snapshot.url (some snapshot.data), job := .written store snapshot }
  | .written store snapshot => s.acknowledge store snapshot

/-- The next step of the lane's serial queue. -/
def work (s : CorrectionLane δ) : CorrectionLane δ :=
  match s.blocks with
  | [] => s
  | .drain :: blocks => s.drain blocks
  | .fence :: blocks => { s with blocks := blocks, clear := .fenced }

/-- The end of a clear: the memory is wiped, and the file is deleted unless the preflight fails. -/
def finishClear (s : CorrectionLane δ) (deletes : Bool) : CorrectionLane δ :=
  let s := { s with corrections := s.corrections.clearMemory, clear := .idle }
  if deletes then
    { s with
      files := fun url => if s.learningDirectory = some url then none else s.files url
      cleared := true }
  else s

/-- A step of the threads that share the service. -/
inductive Op (δ : Type) where
  | correct (edits : List CorrectionEdit)
  | lookup (reading : Text)
  | reload (newLearningDirectory : Option δ) (turnedOff : Bool)
  | work
  | clearLearning
  | finishClear (deletes : Bool)

/-- A step of the system. -/
def step (s : CorrectionLane δ) : Op δ → CorrectionLane δ
  | .correct edits => s.correct edits
  | .lookup reading => { s with corrections := (s.corrections.lookup s.files reading).1 }
  | .reload newLearningDirectory turnedOff => s.reload newLearningDirectory turnedOff
  | .work => s.work
  | .clearLearning =>
    if s.clear = .idle then { s with clear := .waiting, blocks := s.blocks ++ [.fence] } else s
  | .finishClear deletes => if s.clear = .fenced then s.finishClear deletes else s

end CorrectionLane

end Nospacekey
