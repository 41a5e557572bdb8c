import Nospacekey.Engine.Protocol

/-! The predictions of a local model, each of which is dropped when something else has happened meanwhile. -/

namespace Nospacekey

open Protocol

inductive PredictionAvailability where
  | disabled
  | loading
  | missingModel
  | unsupportedCPU
  | failed
  | ready
  deriving DecidableEq, Repr

def PredictionAvailability.rawValue : PredictionAvailability → Text
  | .disabled => "disabled".toList
  | .loading => "loading".toList
  | .missingModel => "missing_model".toList
  | .unsupportedCPU => "unsupported_cpu".toList
  | .failed => "failed".toList
  | .ready => "ready".toList

structure PredictionRuntimeConfig where
  enabled : Bool
  modelFolder : Text
  runtimeFolder : Text
  deriving DecidableEq, Repr

/-- What a configuration finds on the machine. -/
inductive PredictionFiles where
  | unsupportedCPU
  | missing
  | invalid
  | valid
  deriving DecidableEq, Repr

/-- The service. A runtime is known by its number, and numbers of generations wrap. -/
structure PredictionService where
  requestGeneration : Nat
  configGeneration : Nat
  availability : PredictionAvailability
  runtime : Option Nat
  currentConfig : Option PredictionRuntimeConfig
  deriving DecidableEq, Repr

/-- The number after another one, in 64 bits. -/
def nextUInt64 (number : Nat) : Nat := (number + 1) % 2 ^ 64

/-- A number in 64 bits is never its own successor. -/
theorem nextUInt64_ne (number : Nat) : nextUInt64 number ≠ number := by
  unfold nextUInt64
  omega

namespace PredictionService

def cancel (service : PredictionService) : PredictionService :=
  { service with requestGeneration := nextUInt64 service.requestGeneration }

/-- A new configuration. Where it can be used its runtime is loaded in the background. -/
def reload (service : PredictionService) (config : PredictionRuntimeConfig) (files : PredictionFiles) :
    PredictionService :=
  if service.currentConfig = some config then service
  else
    { requestGeneration := nextUInt64 service.requestGeneration
      configGeneration := nextUInt64 service.configGeneration
      availability :=
        if !config.enabled then .disabled
        else
          match files with
          | .unsupportedCPU => .unsupportedCPU
          | .missing => .missingModel
          | .invalid => .failed
          | .valid => .loading
      runtime := none
      currentConfig := some config }

def install (service : PredictionService) (loaded generation : Nat) : PredictionService :=
  if service.configGeneration = generation then { service with runtime := some loaded, availability := .ready }
  else service

def markLoadFailed (service : PredictionService) (generation : Nat) : PredictionService :=
  if service.configGeneration = generation then { service with availability := .failed } else service

/-- A runtime that has ended is given up. -/
def markRuntimeFailed (service : PredictionService) (exited : Nat) : PredictionService :=
  if service.runtime = some exited then
    { service with
      runtime := none
      availability := .failed
      requestGeneration := nextUInt64 service.requestGeneration }
  else service

def shutdown (service : PredictionService) : PredictionService :=
  { service with
    requestGeneration := nextUInt64 service.requestGeneration
    configGeneration := nextUInt64 service.configGeneration
    availability := .disabled
    runtime := none }

end PredictionService

/-- Where a call to predict stands: admitted, waiting for the calls before it with what it has read, or
generating with what it has been told each time it asked whether it is cancelled. -/
inductive PredictStage where
  | admitted
  | waiting (generation runtime : Nat)
  | generating (generation runtime : Nat) (cancelled : List Bool)
  deriving DecidableEq, Repr

/-- A call to predict, on its connection's own thread. -/
structure PredictCall where
  seq : Nat
  tokenIds : List Nat
  stage : PredictStage
  deriving DecidableEq, Repr

end Nospacekey
