import Nospacekey.Engine.MaintenanceRuns

/-! The reload of the user dictionary: a job of the maintenance lane that reads the setting and the file anew. -/

namespace Nospacekey

/-- The label of the reload jobs. -/
def dictionaryReload : Text := "dictionary_reload".toList

inductive LoadResult (δ : Type) where
  | absent
  | loaded (imported : List δ)
  | failed
  deriving DecidableEq, Repr

/-- The closures that the lane holds. -/
inductive MaintenanceWork where
  | runDictionaryReload (generation attempt : Nat)
  | other
  deriving DecidableEq, Repr

/-- The lock region that a running reload enters next. -/
inductive ReloadStage (δ : Type) where
  | current
  /-- The number of calls when the generation was found current is kept beside it. -/
  | desired (found : Nat)
  | load
  /-- The number of calls that had returned when the read began is kept beside it. -/
  | loading (after : Nat)
  | importing (dicdata : List δ)
  | stillCurrent
  | retry
  | done (failed : Bool)
  deriving DecidableEq, Repr

structure ReloadJob (δ : Type) where
  generation : Nat
  attempt : Nat
  stage : ReloadStage δ
  deriving DecidableEq, Repr

/-- One execution of the work: its job, and the number of calls when it was found current and when it started. -/
structure ReloadExecution where
  generation : Nat
  attempt : Nat
  found : Nat
  started : Nat
  deriving DecidableEq, Repr

/-- One read of the file: the number of calls that had returned when it began, and its outcome. -/
structure DictionaryRead (δ : Type) where
  after : Nat
  outcome : LoadResult δ
  deriving DecidableEq, Repr

/-- The service as far as reloads go, with the executions and the reads so far. -/
structure DictionaryService (δ : Type) where
  maintenance : MaintenanceRun Text MaintenanceWork
  desiredDictEnabled : Bool
  /-- The number of calls. The service keeps its low 64 bits. -/
  dictionaryReloadGeneration : Nat
  dynamicUserDictionary : List δ
  /-- The generation of the call that has not submitted its job yet. -/
  call : Option Nat
  /-- The reload that the queue is at. -/
  reload : Option (ReloadJob δ)
  executions : List ReloadExecution
  reads : List (DictionaryRead δ)

/-- What happens, one lock region or one end of a read at a time. -/
inductive ReloadOp (δ : Type) where
  | requestDictionaryReload (enabled : Bool)
  | enqueueDictionaryReload
  | submitReload
  | maintenance (op : MaintenanceOp Text MaintenanceWork)
  | checkCurrent
  | readDesired
  | beginLoad
  | endLoad (outcome : LoadResult δ)
  | importDictionary
  | checkStillCurrent
  | scheduleRetry (deadline : Nat)

/-- The templates and what the file holds. A file that cannot be read gives no dictionary. -/
def LoadResult.dicdata {δ : Type} (templates : List δ) : LoadResult δ → Option (List δ)
  | .absent => some templates
  | .loaded imported => some (templates ++ imported)
  | .failed => none

/-- A read dictionary is imported, and a failed read is followed by a retry. -/
def LoadResult.next {δ : Type} (templates : List δ) (outcome : LoadResult δ) : ReloadStage δ :=
  match outcome.dicdata templates with
  | some dicdata => .importing dicdata
  | none => .stillCurrent

namespace DictionaryService

variable {δ : Type}

/-- The service after its start, with the dictionary that it loaded then. -/
def new (capacity : Nat) (enabled : Bool) (dictionary : List δ) : DictionaryService δ where
  maintenance := .new capacity
  desiredDictEnabled := enabled
  dictionaryReloadGeneration := 0
  dynamicUserDictionary := dictionary
  call := none
  reload := none
  executions := []
  reads := []

/-- Generations are compared as 64 bits. -/
def isCurrent (s : DictionaryService δ) (generation : Nat) : Bool :=
  s.dictionaryReloadGeneration % 2 ^ 64 = generation % 2 ^ 64

/-- The calls that have returned. -/
def returned (s : DictionaryService δ) : Nat :=
  if s.call.isSome then s.dictionaryReloadGeneration - 1 else s.dictionaryReloadGeneration

/-- The job that waits for the label of the reloads. -/
def waiting (s : DictionaryService δ) : Option MaintenanceWork := s.maintenance.lane.waiting dictionaryReload

/-- The lane is not full. -/
def HasRoom (s : DictionaryService δ) : Prop := s.maintenance.lane.labelCount < s.maintenance.lane.capacity

instance (s : DictionaryService δ) : Decidable s.HasRoom := inferInstanceAs (Decidable (_ < _))

/-- The reload goes on to its next lock region. -/
def goes (s : DictionaryService δ) (stage : ReloadStage δ) : DictionaryService δ :=
  { s with reload := s.reload.map fun job => { job with stage := stage } }

/-- A reload that the queue takes starts with the check of its generation. -/
def taken (s : DictionaryService δ) : Option (ReloadJob δ) :=
  match s.maintenance.takes with
  | some ⟨_, _, .runDictionaryReload generation attempt⟩ => some ⟨generation, attempt, .current⟩
  | _ => none

/-- What a running reload does in one lock region. -/
def runDictionaryReload (templates : List δ) (s : DictionaryService δ) (job : ReloadJob δ) :
    ReloadOp δ → DictionaryService δ
  | .checkCurrent =>
    if s.isCurrent job.generation then s.goes (.desired s.dictionaryReloadGeneration) else s.goes (.done false)
  | .readDesired =>
    match job.stage with
    | .desired found =>
      { s.goes (if s.desiredDictEnabled then .load else .importing templates) with
        executions := s.executions ++ [⟨job.generation, job.attempt, found, s.dictionaryReloadGeneration⟩] }
    | _ => s
  | .beginLoad => s.goes (.loading s.returned)
  | .endLoad outcome =>
    match job.stage with
    | .loading after =>
      { s.goes (outcome.next templates) with reads := s.reads ++ [⟨after, outcome⟩] }
    | _ => s
  | .importDictionary =>
    match job.stage with
    | .importing dicdata => { s.goes (.done false) with dynamicUserDictionary := dicdata }
    | _ => s
  | .checkStillCurrent =>
    if s.isCurrent job.generation then s.goes (if job.attempt < 2 then .retry else .done true)
    else s.goes (.done false)
  | .scheduleRetry deadline =>
    { s.goes (.done false) with
      maintenance := s.maintenance.step
        (.submitLatestAfter dictionaryReload deadline (.runDictionaryReload job.generation (job.attempt + 1))) }
  | _ => s

def step (templates : List δ) (s : DictionaryService δ) : ReloadOp δ → DictionaryService δ
  | .requestDictionaryReload enabled =>
    { s with
      desiredDictEnabled := enabled
      dictionaryReloadGeneration := s.dictionaryReloadGeneration + 1
      call := some (s.dictionaryReloadGeneration + 1) }
  | .enqueueDictionaryReload =>
    { s with
      dictionaryReloadGeneration := s.dictionaryReloadGeneration + 1
      call := some (s.dictionaryReloadGeneration + 1) }
  | .submitReload =>
    match s.call with
    | some generation =>
      { s with
        maintenance := s.maintenance.step (.submitLatest dictionaryReload (.runDictionaryReload generation 0))
        call := none }
    | none => s
  | .maintenance .drainStep => { s with maintenance := s.maintenance.step .drainStep, reload := s.taken }
  | .maintenance (.finish failed) => { s with maintenance := s.maintenance.step (.finish failed), reload := none }
  | .maintenance op => { s with maintenance := s.maintenance.step op }
  | op =>
    match s.reload with
    | some job => runDictionaryReload templates s job op
    | none => s

/-- The reload is about to enter this lock region. -/
def At (s : DictionaryService δ) (stage : ReloadStage δ) : Prop := ∃ job, s.reload = some job ∧ job.stage = stage

/-- Other callers leave the reload jobs alone. -/
def Foreign : MaintenanceOp Text MaintenanceWork → Prop
  | .submit _ work => work = .other
  | .submitLatest label work => label ≠ dictionaryReload ∧ work = .other
  | .submitLatestAfter label _ work => label ≠ dictionaryReload ∧ work = .other
  | _ => True

/-- Calls are made one at a time, the lane has room for their jobs, and the queue does one thing after the other. -/
def Allowed (s : DictionaryService δ) : ReloadOp δ → Prop
  | .requestDictionaryReload _ | .enqueueDictionaryReload => s.call = none
  | .submitReload => s.call.isSome = true ∧ s.HasRoom
  | .maintenance (.finish failed) =>
    s.maintenance.Allowed (.finish failed) ∧ ∀ job, s.reload = some job → job.stage = .done failed
  | .maintenance op => s.maintenance.Allowed op ∧ Foreign op
  | .checkCurrent => s.At .current
  | .readDesired => ∃ found, s.At (.desired found)
  | .beginLoad => s.At .load
  | .endLoad _ => ∃ after, s.At (.loading after)
  | .importDictionary => ∃ dicdata, s.At (.importing dicdata)
  | .checkStillCurrent => s.At .stillCurrent
  | .scheduleRetry _ => s.At .retry ∧ s.HasRoom

end DictionaryService

end Nospacekey
