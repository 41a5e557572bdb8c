import Nospacekey.Engine.PredictionService
import Nospacekey.Library.Runs

/-! The predictions with the processes that serve them: what is loaded, installed and shut down by which lock region. -/

namespace Nospacekey

open Protocol

/-- What has produced a text. -/
inductive PredictionSource where
  | injectedGenerator
  | runtime (number : Nat)
  deriving DecidableEq, Repr

/-- What a call to predict does next, or what it has answered. -/
inductive PredictionStage where
  | waiting
  | generating
  | generated (text : Option (PredictionSource × Text))
  | markingFailed (runtime : Nat)
  | unavailable (state : Text)
  /-- How often the request generation had been raised at the final check is kept beside the text. -/
  | prediction (source : PredictionSource) (text : Text) (raised : Nat)
  deriving DecidableEq, Repr

/-- A call to predict with what its first lock region has read. -/
structure PredictionRun where
  seq : Nat
  tokenIDs : List Nat
  generation : Nat
  runtime : Option Nat
  /-- How often the request generation had been raised then. -/
  began : Nat
  stage : PredictionStage
  deriving DecidableEq, Repr

/-- What was begun and is not finished: a runtime to shut down, with the load that comes after it, or a load. -/
inductive PredictionTask where
  | shutdown (old next : Option Nat)
  | load (generation : Nat)
  | install (loaded generation : Nat)
  | markLoadFailed (generation : Nat)
  deriving DecidableEq, Repr

/-- The service, its calls and its runtimes. A runtime is known by its place among those that were loaded. -/
structure PredictionLifecycle where
  service : PredictionService
  injectedGenerator : Bool
  generationLock : Option Nat
  calls : List PredictionRun
  tasks : List PredictionTask
  /-- The generation that each runtime was loaded for. -/
  loaded : List Nat
  exited : List Nat
  shutDown : List Nat
  /-- How often the request generation was raised. -/
  raised : Nat
  deriving DecidableEq, Repr

inductive PredictionOp where
  | predict (seq : Nat) (tokenIDs : List Nat)
  | enter (call : Nat)
  | generate (call : Nat) (injected generated : Option Text)
  | conclude (call : Nat)
  | markRuntimeFailed (call : Nat)
  | cancel
  | reload (config : PredictionRuntimeConfig) (files : PredictionFiles)
  | shutdown
  | advance (task : PredictionTask) (succeeds : Bool)
  | exit (runtime : Nat)
  deriving DecidableEq, Repr

/-- The load that a task belongs to. -/
def PredictionTask.generation : PredictionTask → Option Nat
  | .shutdown _ next => next
  | .load generation => some generation
  | .install _ generation => some generation
  | .markLoadFailed generation => some generation

/-- The task will install the runtime or shut it down. -/
def PredictionTask.Holds (runtime : Nat) : PredictionTask → Prop
  | .shutdown old _ => old = some runtime
  | .install loaded _ => loaded = runtime
  | _ => False

/-- What a call has answered. -/
def PredictionRun.response (κ : Type) (call : PredictionRun) : Option (Protocol.Response κ) :=
  match call.stage with
  | .unavailable state => some (.predictionUnavailable call.seq state)
  | .prediction _ text _ => some (.prediction call.seq text)
  | _ => none

namespace PredictionLifecycle

/-- The service as it is made. -/
def new (availability : PredictionAvailability) (injectedGenerator : Bool) : PredictionLifecycle where
  service := ⟨0, 0, availability, none, none⟩
  injectedGenerator := injectedGenerator
  generationLock := none
  calls := []
  tasks := []
  loaded := []
  exited := []
  shutDown := []
  raised := 0

/-- The service after a lock region. -/
def withService (s : PredictionLifecycle) (service : PredictionService) : PredictionLifecycle :=
  { s with
    service := service
    raised := if service.requestGeneration = s.service.requestGeneration then s.raised else s.raised + 1 }

/-- A call goes on to its next step. -/
def goes (s : PredictionLifecycle) (index : Nat) (call : PredictionRun) (stage : PredictionStage) :
    PredictionLifecycle :=
  { s with calls := s.calls.set index { call with stage := stage } }

/-- A call answers, which gives the generation lock back. -/
def answers (s : PredictionLifecycle) (index : Nat) (call : PredictionRun) (stage : PredictionStage) :
    PredictionLifecycle :=
  { s.goes index call stage with generationLock := none }

/-- The first lock region of a call. -/
def predict (s : PredictionLifecycle) (seq : Nat) (tokenIDs : List Nat) : PredictionLifecycle :=
  let stage :=
    if s.service.availability = .ready ∧ (s.injectedGenerator = true ∨ s.service.runtime.isSome = true) then .waiting
    else .unavailable s.service.availability.rawValue
  { s with
    calls := s.calls ++ [⟨seq, tokenIDs, s.service.requestGeneration, s.service.runtime, s.raised, stage⟩] }

/-- The generator that was injected comes first, and then the runtime. -/
def text (s : PredictionLifecycle) (call : PredictionRun) (injected generated : Option Text) :
    Option (PredictionSource × Text) :=
  match s.injectedGenerator, injected, call.runtime with
  | true, some text, _ => some (.injectedGenerator, text)
  | _, _, some runtime => generated.map fun text => (.runtime runtime, text)
  | _, _, none => none

/-- What a call does with the text that was generated, or without one. -/
def conclude (s : PredictionLifecycle) (index : Nat) (call : PredictionRun) :
    Option (PredictionSource × Text) → PredictionLifecycle
  | none =>
    match s.injectedGenerator, call.runtime with
    | false, some runtime =>
      if runtime ∈ s.exited then s.goes index call (.markingFailed runtime)
      else s.answers index call (.unavailable "failed".toList)
    | _, _ => s.answers index call (.unavailable "failed".toList)
  | some (source, text) =>
    if s.service.requestGeneration ≠ call.generation then s.answers index call (.unavailable "stale".toList)
    else s.answers index call (.prediction source text s.raised)

/-- A configuration that is not the current one retires the runtime, and loads another where it can be used. -/
def reload (s : PredictionLifecycle) (config : PredictionRuntimeConfig) (files : PredictionFiles) :
    PredictionLifecycle :=
  if s.service.currentConfig = some config then s
  else
    let service := s.service.reload config files
    let next := if config.enabled ∧ files = .valid then some service.configGeneration else none
    { s.withService service with tasks := s.tasks ++ [.shutdown s.service.runtime next] }

/-- A task does its next step. -/
def advance (s : PredictionLifecycle) (task : PredictionTask) (succeeds : Bool) : PredictionLifecycle :=
  let tasks := s.tasks.erase task
  match task with
  | .shutdown old next =>
    { s with shutDown := s.shutDown ++ old.toList, tasks := tasks ++ (next.map PredictionTask.load).toList }
  | .load generation =>
    if succeeds then
      { s with loaded := s.loaded ++ [generation], tasks := tasks ++ [.install s.loaded.length generation] }
    else { s with tasks := tasks ++ [.markLoadFailed generation] }
  | .install loaded generation =>
    { s.withService (s.service.install loaded generation) with
      tasks := if s.service.configGeneration = generation then tasks else tasks ++ [.shutdown (some loaded) none] }
  | .markLoadFailed generation => { s.withService (s.service.markLoadFailed generation) with tasks := tasks }

/-- What a step does with the call at an index. -/
def callAt (s : PredictionLifecycle) (index : Nat) (f : PredictionRun → PredictionLifecycle) : PredictionLifecycle :=
  match s.calls[index]? with
  | some call => f call
  | none => s

/-- One lock region, or one step without the lock. -/
def step (s : PredictionLifecycle) : PredictionOp → PredictionLifecycle
  | .predict seq tokenIDs => s.predict seq tokenIDs
  | .enter index => s.callAt index fun call => { s.goes index call .generating with generationLock := some index }
  | .generate index injected generated =>
    s.callAt index fun call => s.goes index call (.generated (s.text call injected generated))
  | .conclude index =>
    s.callAt index fun call =>
      match call.stage with
      | .generated text => s.conclude index call text
      | _ => s
  | .markRuntimeFailed index =>
    s.callAt index fun call =>
      match call.stage with
      | .markingFailed runtime =>
        let service := if runtime ∈ s.exited then s.service.markRuntimeFailed runtime else s.service
        (s.withService service).answers index call (.unavailable "failed".toList)
      | _ => s
  | .cancel => s.withService s.service.cancel
  | .reload config files => s.reload config files
  | .shutdown =>
    { s.withService s.service.shutdown with tasks := s.tasks ++ [.shutdown s.service.runtime none] }
  | .advance task succeeds => s.advance task succeeds
  | .exit runtime => { s with exited := s.exited ++ [runtime] }

/-- A call has reached this stage. -/
def At (s : PredictionLifecycle) (index : Nat) (stage : PredictionStage) : Prop :=
  ∃ call, s.calls[index]? = some call ∧ call.stage = stage

/-- A call waits for the generation lock, and then does one thing after the other. -/
def Allowed (s : PredictionLifecycle) : PredictionOp → Prop
  | .enter index => s.At index .waiting ∧ s.generationLock = none
  | .generate index _ _ => s.At index .generating
  | .conclude index => ∃ text, s.At index (.generated text)
  | .markRuntimeFailed index => ∃ runtime, s.At index (.markingFailed runtime)
  | .advance task _ => task ∈ s.tasks
  | .exit runtime => runtime < s.loaded.length
  | _ => True

end PredictionLifecycle

end Nospacekey
