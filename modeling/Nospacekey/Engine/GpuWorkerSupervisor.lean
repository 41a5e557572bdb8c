import Nospacekey.Library.Runs

/-! The supervisor that owns the GPU worker's process generation and its failure latch. -/

namespace Nospacekey

inductive GpuWorkerFailure where
  | timeout
  | workerExit
  | crash
  | protocolMismatch
  | nativeFailure
  | unsupportedInput
  | unavailable
  | invalidRuntimeDirectory
  | backendPathRejected
  | backendUnavailable
  | gpuUnavailable
  | modelLoad
  | contextLoad
  | decode
  | warmup
  deriving DecidableEq, Repr

inductive GpuWorkerQuarantineReason where
  | timeout
  | workerExit
  | crash
  | workerProtocol
  | candidateMismatch
  | nativeFailure
  | invalidRuntimeDirectory
  | backendPathRejected
  | backendUnavailable
  | gpuUnavailable
  | modelLoad
  | contextLoad
  | decode
  | warmup
  deriving DecidableEq, Repr

inductive GpuWorkerRerankFailure where
  | unknownCandidate
  | duplicateCandidate
  | protocolMismatch
  | timeout
  | workerExit
  | crash
  | workerProtocol
  | candidateMismatch
  | nativeFailure
  | unsupportedInput
  | invalidRuntimeDirectory
  | backendPathRejected
  | backendUnavailable
  | gpuUnavailable
  | modelLoad
  | contextLoad
  | decode
  | warmup
  deriving DecidableEq, Repr

namespace GpuWorkerFailure

/-- `GPUWorkerRerankFailure.from` -/
def rerankFailure : GpuWorkerFailure → GpuWorkerRerankFailure
  | timeout => .timeout
  | workerExit => .workerExit
  | crash => .crash
  | protocolMismatch => .workerProtocol
  | nativeFailure => .nativeFailure
  | unsupportedInput => .unsupportedInput
  | unavailable => .nativeFailure
  | invalidRuntimeDirectory => .invalidRuntimeDirectory
  | backendPathRejected => .backendPathRejected
  | backendUnavailable => .backendUnavailable
  | gpuUnavailable => .gpuUnavailable
  | modelLoad => .modelLoad
  | contextLoad => .contextLoad
  | decode => .decode
  | warmup => .warmup

def quarantineReason : GpuWorkerFailure → GpuWorkerQuarantineReason
  | timeout => .timeout
  | workerExit => .workerExit
  | crash => .crash
  | protocolMismatch => .workerProtocol
  | nativeFailure | unsupportedInput | unavailable => .nativeFailure
  | invalidRuntimeDirectory => .invalidRuntimeDirectory
  | backendPathRejected => .backendPathRejected
  | backendUnavailable => .backendUnavailable
  | gpuUnavailable => .gpuUnavailable
  | modelLoad => .modelLoad
  | contextLoad => .contextLoad
  | decode => .decode
  | warmup => .warmup

end GpuWorkerFailure

namespace GpuWorkerRerankFailure

def quarantineReason : GpuWorkerRerankFailure → GpuWorkerQuarantineReason
  | unknownCandidate | duplicateCandidate | candidateMismatch => .candidateMismatch
  | timeout => .timeout
  | workerExit => .workerExit
  | crash => .crash
  | workerProtocol | protocolMismatch | unsupportedInput => .workerProtocol
  | nativeFailure => .nativeFailure
  | invalidRuntimeDirectory => .invalidRuntimeDirectory
  | backendPathRejected => .backendPathRejected
  | backendUnavailable => .backendUnavailable
  | gpuUnavailable => .gpuUnavailable
  | modelLoad => .modelLoad
  | contextLoad => .contextLoad
  | decode => .decode
  | warmup => .warmup

end GpuWorkerRerankFailure

namespace GpuWorkerQuarantineReason

def rerankFailure : GpuWorkerQuarantineReason → GpuWorkerRerankFailure
  | timeout => .timeout
  | workerExit => .workerExit
  | crash => .crash
  | workerProtocol => .workerProtocol
  | candidateMismatch => .candidateMismatch
  | nativeFailure => .nativeFailure
  | invalidRuntimeDirectory => .invalidRuntimeDirectory
  | backendPathRejected => .backendPathRejected
  | backendUnavailable => .backendUnavailable
  | gpuUnavailable => .gpuUnavailable
  | modelLoad => .modelLoad
  | contextLoad => .contextLoad
  | decode => .decode
  | warmup => .warmup

end GpuWorkerQuarantineReason

inductive GpuWorkerCaller where
  | convert
  | live
  | liveSnapshot
  | explicitSnapshot
  deriving DecidableEq, Repr

namespace GpuWorkerCaller

def isLiveTier : GpuWorkerCaller → Bool
  | live | liveSnapshot => true
  | _ => false

def isBackgroundSnapshot : GpuWorkerCaller → Bool
  | liveSnapshot | explicitSnapshot => true
  | _ => false

end GpuWorkerCaller

/-- What a rerank is asked for: the classic result, and what its guards read off the composition. -/
structure RerankRequest (κ : Type) where
  classic : κ
  convertTargetIsEmpty : Bool
  supportsGpuWorker : Bool
  makesComposingText : Bool
  caller : GpuWorkerCaller
  deriving DecidableEq, Repr

structure GpuWorkerRerankDecision (κ : Type) where
  conversion : κ
  usedWorker : Bool
  failure : Option GpuWorkerRerankFailure
  deriving DecidableEq, Repr

def gpuWorkerRequestCurrentVersion : Nat := 4

/-- A worker's response, with what its candidates come to against the classic result. -/
structure GpuWorkerResponse (κ : Type) where
  version : Nat
  requestID : Nat
  generation : Nat
  failure : Option GpuWorkerFailure
  materialized : Except GpuWorkerRerankFailure κ

/-- `GPUWorkerReranker.apply` -/
def GpuWorkerResponse.apply {κ : Type} (response : GpuWorkerResponse κ) (requestID generation : Nat) :
    Except GpuWorkerRerankFailure κ :=
  if response.version = gpuWorkerRequestCurrentVersion ∧ response.requestID = requestID ∧
      response.generation = generation then
    match response.failure with
    | some failure => .error failure.rerankFailure
    | none => response.materialized
  else .error .protocolMismatch

inductive GpuWorkerTransportReply (κ : Type) where
  | response (response : GpuWorkerResponse κ)
  | timeout
  | exit
  | crash
  | protocolMismatch
  | nativeFailure

/-- What the transport does in a step: whether a start succeeds and leaves a child, and what a request
comes to, before or after its soft deadline. -/
structure GpuWorkerTransportAnswer (κ : Type) where
  startFailure : Option GpuWorkerFailure
  leavesChild : Bool
  reply : GpuWorkerTransportReply κ
  late : Bool

inductive SupervisorState where
  | stopped
  | starting
  | ready
  | retryPending
  | probation
  | liveSuppressed
  | quarantined (reason : GpuWorkerQuarantineReason)
  | disabled
  deriving DecidableEq, Repr

namespace SupervisorState

def isLive : SupervisorState → Bool
  | starting | ready | probation | liveSuppressed => true
  | _ => false

def isRequestable : SupervisorState → Bool
  | ready | probation => true
  | _ => false

/-- `currentFailureLocked` -/
def currentFailure : SupervisorState → Option GpuWorkerRerankFailure
  | quarantined reason => some reason.rerankFailure
  | _ => none

end SupervisorState

/-- What the holder of the operation lock still does before it lets go. -/
inductive OperationEnd (κ : Type) where
  | terminate
  | scheduleAutoRetry (generation : Nat)
  /-- A rerank that was not given a worker answers with the classic result. -/
  | refuse (request : RerankRequest κ)
  | answer (decision : GpuWorkerRerankDecision κ)

/-- Where the holder of the operation lock stands. A start belongs to a rerank, or to a thread. -/
inductive Operation (κ : Type) where
  | ensureReady (request : RerankRequest κ)
  | start (request : Option (RerankRequest κ)) (generation : Nat)
  | finishStart (request : Option (RerankRequest κ)) (generation : Nat) (failure : Option GpuWorkerFailure)
  | prepareRequest (request : RerankRequest κ)
  | request (request : RerankRequest κ) (requestID generation : Nat)
  | handleReply (request : RerankRequest κ) (requestID generation : Nat) (source : Option Nat)
      (reply : GpuWorkerTransportReply κ) (late : Bool)
  | noteRankSuccess (generation : Nat) (rest : List (OperationEnd κ))
  | handleRankTimeout (caller : GpuWorkerCaller) (generation : Nat) (rest : List (OperationEnd κ))
  | quarantine (reason : GpuWorkerQuarantineReason) (generation : Nat) (rest : List (OperationEnd κ))
  | performStart (generation : Nat)
  | terminateTransport (generation : Nat)
  | finish (rest : List (OperationEnd κ))

/-- A thread that does not hold the operation lock: it waits for the lock, for its cooldown, or is
about to arm a probe. -/
inductive SupervisorTask (κ : Type) where
  | rerank (request : RerankRequest κ)
  | armStrongCallerProbe (caller : GpuWorkerCaller)
  | performStart (generation : Nat)
  | autoRetry (generation : Nat)
  | reap (generation : Nat)

/-- What has happened to the worker. -/
inductive SupervisorEvent (κ : Type) where
  /-- The transport was started for a generation. -/
  | started (generation : Nat)
  /-- A response of the child of a generation was accepted under the current generation. -/
  | used (requestID : Nat) (response : GpuWorkerResponse κ) (source : Option Nat) (generation : Nat)
  | answered (decision : GpuWorkerRerankDecision κ)
  /-- A timeout was handled in a state, and has perhaps opened a generation for a retry. -/
  | timedOut (caller : GpuWorkerCaller) (state : SupervisorState) (retry : Option Nat)
  /-- A request has opened a generation for a probe in a state. -/
  | probed (caller : GpuWorkerCaller) (state : SupervisorState) (generation : Nat)
  /-- A retry has passed its cooldown and starts a generation. -/
  | respawned (generation : Nat)
  | validRank
  /-- A lifecycle operation has opened a generation. -/
  | opened (generation : Nat)

/-- The supervisor's fields, the child of its transport, the holder of the operation lock, the other
threads, and the record of what happened, the newest first. -/
structure GpuWorkerSupervisor (κ : Type) where
  allowsLazyStart : Bool
  graceEnabled : Bool
  internalState : SupervisorState
  generation : Nat
  nextRequestID : Nat
  retryArmed : Bool
  terminatedGeneration : Option Nat
  transportGeneration : Option Nat
  autoRetryGeneration : Option Nat
  consecutiveTimeouts : Nat
  /-- The generation that the living child was started for. -/
  child : Option Nat
  holder : Option (Operation κ)
  tasks : List (SupervisorTask κ)
  history : List (SupervisorEvent κ)

namespace GpuWorkerSupervisor

variable {κ : Type}

def init (allowsLazyStart graceEnabled : Bool) : GpuWorkerSupervisor κ where
  allowsLazyStart := allowsLazyStart
  graceEnabled := graceEnabled
  internalState := .stopped
  generation := 1
  nextRequestID := 0
  retryArmed := false
  terminatedGeneration := none
  transportGeneration := none
  autoRetryGeneration := none
  consecutiveTimeouts := 0
  child := none
  holder := none
  tasks := []
  history := []

/-- A rerank that does not reach the worker answers with the classic result. -/
def shortCircuit (s : GpuWorkerSupervisor κ) (request : RerankRequest κ)
    (failure : Option GpuWorkerRerankFailure) : GpuWorkerSupervisor κ :=
  { s with history := .answered ⟨request.classic, false, failure⟩ :: s.history }

/-- A rerank looks at the state, and waits for the operation lock unless the state answers for it. -/
def rerank (s : GpuWorkerSupervisor κ) (request : RerankRequest κ) : GpuWorkerSupervisor κ :=
  if request.convertTargetIsEmpty || !request.supportsGpuWorker then s.shortCircuit request none
  else if !request.makesComposingText then s.shortCircuit request (some .unsupportedInput)
  else
    match s.internalState with
    | .starting | .retryPending => s.shortCircuit request none
    | .liveSuppressed =>
      if request.caller.isLiveTier then s.shortCircuit request none
      else
        { s.shortCircuit request none with tasks := .armStrongCallerProbe request.caller :: s.tasks }
    | .quarantined reason => s.shortCircuit request (some reason.rerankFailure)
    | .stopped =>
      if s.allowsLazyStart then { s with tasks := .rerank request :: s.tasks }
      else s.shortCircuit request none
    | .ready | .probation | .disabled => { s with tasks := .rerank request :: s.tasks }

def startWarmUp (s : GpuWorkerSupervisor κ) : GpuWorkerSupervisor κ :=
  if s.internalState = .stopped then
    { s with
      internalState := .starting
      retryArmed := false
      tasks := .performStart s.generation :: s.tasks }
  else s

/-- The fields that every lifecycle operation resets as it opens the next generation. -/
def openGeneration (s : GpuWorkerSupervisor κ) (state : SupervisorState) (retryArmed : Bool) :
    GpuWorkerSupervisor κ :=
  { s with
    generation := s.generation + 1
    internalState := state
    retryArmed := retryArmed
    terminatedGeneration := none
    autoRetryGeneration := none
    consecutiveTimeouts := 0
    history := .opened (s.generation + 1) :: s.history }

/-- Whether `explicitRetry` opens a generation. -/
def retries (s : GpuWorkerSupervisor κ) : Bool :=
  match s.internalState with
  | .quarantined _ | .retryPending | .probation | .liveSuppressed => !s.retryArmed
  | .stopped | .starting | .disabled | .ready => false

def explicitRetry (s : GpuWorkerSupervisor κ) : GpuWorkerSupervisor κ :=
  if s.retries then s.openGeneration .stopped true else s

/-- Whether a lifecycle operation schedules the termination of the generation it leaves. -/
def shouldTerminate (s : GpuWorkerSupervisor κ) : Bool :=
  s.internalState.isLive || s.transportGeneration = some s.generation

/-- A reaper is scheduled for a generation that may own the transport. -/
def scheduleTermination (s : GpuWorkerSupervisor κ) (generation : Nat) : GpuWorkerSupervisor κ :=
  { s with tasks := .reap generation :: s.tasks }

def modelOrRuntimeChanged (s : GpuWorkerSupervisor κ) : GpuWorkerSupervisor κ :=
  let changed := s.openGeneration .stopped true
  if s.shouldTerminate then changed.scheduleTermination s.generation else changed

def disable (s : GpuWorkerSupervisor κ) : GpuWorkerSupervisor κ :=
  let disabled := s.openGeneration .disabled false
  if s.shouldTerminate then disabled.scheduleTermination s.generation else disabled

/-- A caller in the suppressed state arms one respawn. -/
def armStrongCallerProbe (s : GpuWorkerSupervisor κ) (caller : GpuWorkerCaller) : GpuWorkerSupervisor κ :=
  if s.internalState = .liveSuppressed then
    { s with
      generation := s.generation + 1
      internalState := .retryPending
      autoRetryGeneration := some (s.generation + 1)
      tasks := .autoRetry (s.generation + 1) :: s.tasks
      history := .probed caller s.internalState (s.generation + 1) :: s.history }
  else s

/-- The cooldown of a retry is over. -/
def autoRetry (s : GpuWorkerSupervisor κ) (generation : Nat) : GpuWorkerSupervisor κ :=
  if s.internalState = .retryPending ∧ s.generation = generation ∧
      s.autoRetryGeneration = some generation then
    { s with
      internalState := .starting
      retryArmed := false
      tasks := .performStart generation :: s.tasks
      history := .respawned generation :: s.history }
  else s

/-- What a thread does with the operation lock. -/
def SupervisorTask.operation : SupervisorTask κ → Option (Operation κ)
  | .rerank request => some (.ensureReady request)
  | .performStart generation => some (.performStart generation)
  | .reap generation => some (.terminateTransport generation)
  | .armStrongCallerProbe _ | .autoRetry _ => none

/-- A thread takes the operation lock. -/
def acquire (s : GpuWorkerSupervisor κ) (i : Nat) : GpuWorkerSupervisor κ :=
  match s.holder, s.tasks[i]? with
  | none, some task =>
    match SupervisorTask.operation task with
    | some operation => { s with holder := some operation, tasks := s.tasks.eraseIdx i }
    | none => s
  | _, _ => s

/-- A thread that does not need the operation lock goes on, or a foreground rerank stops waiting for it. -/
def wake (s : GpuWorkerSupervisor κ) (i : Nat) : GpuWorkerSupervisor κ :=
  match s.tasks[i]? with
  | some (.armStrongCallerProbe caller) => { s with tasks := s.tasks.eraseIdx i }.armStrongCallerProbe caller
  | some (.autoRetry generation) => { s with tasks := s.tasks.eraseIdx i }.autoRetry generation
  | some (.rerank request) =>
    if request.caller.isBackgroundSnapshot then s
    else { s with tasks := s.tasks.eraseIdx i }.shortCircuit request none
  | _ => s

/-- What follows a start: the rerank that it belongs to gives up, or the thread ends. -/
def afterStart (request : Option (RerankRequest κ)) : List (OperationEnd κ) :=
  (request.map OperationEnd.refuse).toList

def ensureReady (s : GpuWorkerSupervisor κ) (request : RerankRequest κ) : GpuWorkerSupervisor κ :=
  match s.internalState with
  | .ready | .probation => { s with holder := some (.prepareRequest request) }
  | .stopped =>
    { s with
      internalState := .starting
      retryArmed := false
      transportGeneration := some s.generation
      holder := some (.start (some request) s.generation) }
  | _ => { s with holder := some (.finish [.refuse request]) }

def performStart (s : GpuWorkerSupervisor κ) (generation : Nat) : GpuWorkerSupervisor κ :=
  if s.generation = generation ∧ s.internalState = .starting then
    { s with
      transportGeneration := some generation
      holder := some (.start none generation) }
  else { s with holder := some (.finish []) }

/-- The transport ends any earlier child, and may leave a new one. -/
def start (s : GpuWorkerSupervisor κ) (request : Option (RerankRequest κ)) (generation : Nat)
    (answer : GpuWorkerTransportAnswer κ) : GpuWorkerSupervisor κ :=
  { s with
    child := if answer.leavesChild then some generation else none
    holder := some (.finishStart request generation answer.startFailure)
    history := .started generation :: s.history }

/-- A start that is overtaken by a lifecycle change gives the transport back. -/
def abandonStart (s : GpuWorkerSupervisor κ) (request : Option (RerankRequest κ)) (generation : Nat) :
    GpuWorkerSupervisor κ :=
  { s with
    transportGeneration := if s.transportGeneration = some generation then none else s.transportGeneration
    holder := some (.finish (.terminate :: afterStart request)) }

def finishStart (s : GpuWorkerSupervisor κ) (request : Option (RerankRequest κ)) (generation : Nat)
    (failure : Option GpuWorkerFailure) : GpuWorkerSupervisor κ :=
  if s.generation = generation ∧ s.internalState = .starting then
    match failure with
    | some failure =>
      { s with holder := some (.quarantine failure.quarantineReason generation (afterStart request)) }
    | none =>
      { s with
        autoRetryGeneration := none
        internalState := if s.autoRetryGeneration = some generation then .probation else .ready
        holder := some (match request with
          | some request => .prepareRequest request
          | none => .finish []) }
  else s.abandonStart request generation

/-- The classic result, with a failure or none. -/
def classicDecision (request : RerankRequest κ) (failure : Option GpuWorkerRerankFailure) :
    OperationEnd κ := .answer ⟨request.classic, false, failure⟩

def prepareRequest (s : GpuWorkerSupervisor κ) (request : RerankRequest κ) : GpuWorkerSupervisor κ :=
  if s.internalState.isRequestable ∧ s.transportGeneration = some s.generation then
    { s with
      nextRequestID := s.nextRequestID + 1
      holder := some (.request request (s.nextRequestID + 1) s.generation) }
  else { s with holder := some (.finish [classicDecision request s.internalState.currentFailure]) }

/-- The transport is asked. Only a living child can respond. -/
def request (s : GpuWorkerSupervisor κ) (request : RerankRequest κ) (requestID generation : Nat)
    (answer : GpuWorkerTransportAnswer κ) : GpuWorkerSupervisor κ :=
  { s with
    holder := some (.handleReply request requestID generation s.child
      (match answer.reply, s.child with
        | .response _, none => .exit
        | reply, _ => reply)
      answer.late) }

/-- A failed request quarantines the worker. -/
def failRequest (s : GpuWorkerSupervisor κ) (request : RerankRequest κ) (generation : Nat)
    (reason : GpuWorkerQuarantineReason) : GpuWorkerSupervisor κ :=
  { s with
    holder := some (.quarantine reason generation [classicDecision request (some reason.rerankFailure)]) }

/-- A response in time is used when its generation is still the current one and it fits the request. -/
def handleResponse (s : GpuWorkerSupervisor κ) (request : RerankRequest κ) (requestID generation : Nat)
    (source : Option Nat) (response : GpuWorkerResponse κ) : GpuWorkerSupervisor κ :=
  if s.generation = generation then
    match response.apply requestID generation with
    | .ok conversion =>
      { s with
        holder := some (.noteRankSuccess generation [.answer ⟨conversion, true, none⟩])
        history := .used requestID response source s.generation :: s.history }
    | .error failure => s.failRequest request generation failure.quarantineReason
  else { s with holder := some (.finish [classicDecision request (some .workerProtocol)]) }

def handleReply (s : GpuWorkerSupervisor κ) (request : RerankRequest κ) (requestID generation : Nat)
    (source : Option Nat) (reply : GpuWorkerTransportReply κ) (late : Bool) : GpuWorkerSupervisor κ :=
  if s.graceEnabled && request.caller.isBackgroundSnapshot && late then
    match reply with
    | .response response =>
      -- The late result is discarded; its validity counts for the worker's health.
      if response.requestID = requestID ∧ response.generation = generation then
        { s with holder := some (.noteRankSuccess generation [classicDecision request none]) }
      else { s with holder := some (.finish [classicDecision request none]) }
    | _ =>
      { s with
        holder := some (.handleRankTimeout request.caller generation
          [classicDecision request (some .timeout)]) }
  else
    match reply with
    | .response response => s.handleResponse request requestID generation source response
    | .timeout =>
      { s with
        holder := some (.handleRankTimeout request.caller generation
          [classicDecision request (some .timeout)]) }
    | .exit => s.failRequest request generation .workerExit
    | .crash => s.failRequest request generation .crash
    | .protocolMismatch => s.failRequest request generation .workerProtocol
    | .nativeFailure => s.failRequest request generation .nativeFailure

def noteRankSuccess (s : GpuWorkerSupervisor κ) (generation : Nat) (rest : List (OperationEnd κ)) :
    GpuWorkerSupervisor κ :=
  if s.generation = generation then
    { s with
      consecutiveTimeouts := 0
      internalState := if s.internalState = .probation then .ready else s.internalState
      holder := some (.finish rest)
      history := .validRank :: s.history }
  else { s with holder := some (.finish rest) }

/-- The termination of a child, unless it was terminated before. -/
def terminateUnless (done : Bool) : List (OperationEnd κ) := if done then [] else [.terminate]

def handleRankTimeout (s : GpuWorkerSupervisor κ) (caller : GpuWorkerCaller) (generation : Nat)
    (rest : List (OperationEnd κ)) : GpuWorkerSupervisor κ :=
  if s.generation = generation ∧ s.internalState.isRequestable then
    let terminate := terminateUnless (s.terminatedGeneration = some s.generation)
    let handled := { s with
      consecutiveTimeouts := s.consecutiveTimeouts + 1
      terminatedGeneration := some s.generation
      transportGeneration := none }
    match s.internalState with
    | .ready =>
      { handled with
        generation := s.generation + 1
        internalState := .retryPending
        autoRetryGeneration := some (s.generation + 1)
        holder := some (.finish (terminate ++ .scheduleAutoRetry (s.generation + 1) :: rest))
        history := .timedOut caller s.internalState (some (s.generation + 1)) :: s.history }
    | .probation =>
      if caller.isLiveTier then
        { handled with
          internalState := .liveSuppressed
          holder := some (.finish (terminate ++ rest))
          history := .timedOut caller s.internalState none :: s.history }
      else
        { handled with
          holder := some (.quarantine .timeout generation (terminate ++ rest))
          history := .timedOut caller s.internalState none :: s.history }
    | _ => { handled with holder := some (.finish rest) }
  else { s with holder := some (.finish rest) }

def quarantine (s : GpuWorkerSupervisor κ) (reason : GpuWorkerQuarantineReason) (generation : Nat)
    (rest : List (OperationEnd κ)) : GpuWorkerSupervisor κ :=
  if s.generation = generation then
    match s.internalState with
    | .quarantined _ => { s with holder := some (.finish rest) }
    | _ =>
      { s with
        internalState := .quarantined reason
        autoRetryGeneration := none
        terminatedGeneration := some s.generation
        transportGeneration := none
        holder := some (.finish (terminateUnless (s.terminatedGeneration = some s.generation) ++ rest)) }
  else { s with holder := some (.finish rest) }

def terminateTransport (s : GpuWorkerSupervisor κ) (generation : Nat) : GpuWorkerSupervisor κ :=
  if s.transportGeneration = some generation then
    { s with transportGeneration := none, holder := some (.finish [.terminate]) }
  else { s with holder := some (.finish []) }

/-- The holder of the operation lock winds up and lets go. -/
def finish (s : GpuWorkerSupervisor κ) : List (OperationEnd κ) → GpuWorkerSupervisor κ
  | .terminate :: rest => { s with child := none, holder := some (.finish rest) }
  | .scheduleAutoRetry generation :: rest =>
    { s with tasks := .autoRetry generation :: s.tasks, holder := some (.finish rest) }
  | .refuse request :: rest =>
    { s with
      holder := some (.finish rest)
      history := .answered ⟨request.classic, false, s.internalState.currentFailure⟩ :: s.history }
  | .answer decision :: rest =>
    { s with holder := some (.finish rest), history := .answered decision :: s.history }
  | [] => { s with holder := none }

/-- The holder of the operation lock takes its next step. -/
def operate (s : GpuWorkerSupervisor κ) (answer : GpuWorkerTransportAnswer κ) : GpuWorkerSupervisor κ :=
  match s.holder with
  | none => s
  | some (.ensureReady request) => s.ensureReady request
  | some (.start request generation) => s.start request generation answer
  | some (.finishStart request generation failure) => s.finishStart request generation failure
  | some (.prepareRequest request) => s.prepareRequest request
  | some (.request request requestID generation) => s.request request requestID generation answer
  | some (.handleReply request requestID generation source reply late) =>
    s.handleReply request requestID generation source reply late
  | some (.noteRankSuccess generation rest) => s.noteRankSuccess generation rest
  | some (.handleRankTimeout caller generation rest) => s.handleRankTimeout caller generation rest
  | some (.quarantine reason generation rest) => s.quarantine reason generation rest
  | some (.performStart generation) => s.performStart generation
  | some (.terminateTransport generation) => s.terminateTransport generation
  | some (.finish rest) => s.finish rest

/-- A step of the system. The child may exit at any moment. -/
inductive SupervisorOp (κ : Type) where
  | rerank (request : RerankRequest κ)
  | startWarmUp
  | explicitRetry
  | modelOrRuntimeChanged
  | disable
  | acquire (i : Nat)
  | wake (i : Nat)
  | operate (answer : GpuWorkerTransportAnswer κ)
  | childExits

def step (s : GpuWorkerSupervisor κ) : SupervisorOp κ → GpuWorkerSupervisor κ
  | .rerank request => s.rerank request
  | .startWarmUp => s.startWarmUp
  | .explicitRetry => s.explicitRetry
  | .modelOrRuntimeChanged => s.modelOrRuntimeChanged
  | .disable => s.disable
  | .acquire i => s.acquire i
  | .wake i => s.wake i
  | .operate answer => s.operate answer
  | .childExits => { s with child := none }

end GpuWorkerSupervisor

end Nospacekey
