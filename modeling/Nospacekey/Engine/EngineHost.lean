import Nospacekey.Engine.PredictionService

/-! The handler of requests, which one connection's thread runs among those of the others. -/

namespace Nospacekey

open Protocol

/-- A session: what the conversion code keeps for it, and the connection that it belongs to. -/
structure SessionRecord (ρ : Type) where
  work : ρ
  connection : Nat
  deriving DecidableEq, Repr

/-- What the engine shows of the clauses of a session. -/
structure ClauseView where
  segments : List Text
  selected : Int
  candidates : List Text
  candidateIndex : Int
  deriving DecidableEq, Repr

/-- The state of the model's runtime, as the settings show it. -/
structure ZenzaiRuntimeSnapshot (δ : Type) where
  state : Text
  backend : Option Text
  device : Option Text
  reason : Option Text
  liveLatency : Option (ZenzaiLatencyTierStats δ)
  convertLatency : Option (ZenzaiLatencyTierStats δ)

inductive SnapshotEnhancementPoll where
  | pending
  | unavailable
  | ready (text : Text) (candidates candidateRemaining : Option (List Text)) (clauseData : SnapshotClauseData Text)

/-- What a snapshot is answered with, apart from what is proposed for a commit. -/
structure SnapshotAnswer where
  text : Text
  candidates : Option (List Text)
  candidateRemaining : Option (List Text)
  baseline : Nat
  clauseData : SnapshotClauseData Text

/-- The code behind the requests that neither creates nor ends sessions. It works on what it keeps for a
session, of type `ρ`, on the state that all sessions share, of type `σ` (converter, learning, dictionary,
runtime, settings and queued maintenance), and on what the outside world tells it, of type `ω`. -/
structure ConversionCode (σ ρ χ κ δ ω : Type) where
  engineEpoch : Text
  buildVersion : Text
  newRecord : ρ
  insert : ρ → Text → Option Text → ρ
  backspace : ρ → ρ
  convertTarget : ρ → Text
  convert : Int → Option Text → σ → ρ → ω → σ × ρ × List Text
  typoConvert : Int → Option Text → σ → ρ → ω → σ × ρ × List Text
  reconvert : Int → Text → Option Text → σ → ρ → ω → σ × ρ × List Text
  commit : Int → Nat → σ → ρ → ω → σ × ρ × Option (Text × Text)
  liveConvert : Int → Option Text → Bool → σ → ρ → ω → σ × ρ × Text × Text × Option Text
  llmConvert : Option Text → σ → ρ → ω → Except Text Text
  moveClause : Int → Int → Int → Option Text → σ → ρ → ω → σ × ρ × Option ClauseView
  selectClauseCandidate : Int → Int → σ → ρ → ω → σ × ρ × Option ClauseView
  commitClauses : Int → σ → ρ → ω → σ × ρ × Option (Text × Text)
  endComposition : Int → σ → σ
  currentLearningGeneration : σ → Nat
  clauseCandidates : ClauseProtocol.ClauseCandidatesRequest → σ → ω → σ × ClauseCandidatesResult
  convertClauses : ConvertClausesRequest → σ → ω → σ × ConvertClausesResult
  commitReceipt : CommitReceipt Text → σ → ω → σ × CommitReceiptAck
  autoCommitThreshold : σ → Option Nat
  autoCommitMaxReading : σ → Int
  snapshotCandidates : List SnapshotSegment → Bool → Option Text → SnapshotEnhancementKey → Int → σ → ω →
    σ × Option (LiveSnapshotCandidates χ κ)
  snapshotAnswer : List SnapshotSegment → Bool → Option Text → SnapshotEnhancementKey → Int →
    Option SnapshotAutoCommitProposal → σ → ω → σ × SnapshotAnswer
  recordAutoCommit : Candidate κ → σ → σ
  pollSnapshotEnhancement : SnapshotEnhancementKey → Nat → σ → σ × SnapshotEnhancementPoll
  reload : ReloadConfigParams → σ → ω → σ × Bool
  predictionConfig : Bool → ω → PredictionRuntimeConfig × PredictionFiles
  recordCorrection : Text → Text → σ → σ
  requestDictionaryReload : Bool → σ → σ
  zenzaiRuntimeSnapshot : σ → ZenzaiRuntimeSnapshot δ
  retryZenzai : σ → σ
  beginClearLearning : σ → σ
  clearLearningAccepted : σ → ω → σ × Bool
  prepareForShutdown : σ → ω → σ
  background : σ → ω → σ
  generate : List Nat → List Bool → ω → Option Text

structure ConversionService (σ ρ κ : Type) where
  sessions : Table Int (SessionRecord ρ)
  /-- The sessions of each connection, every one once. -/
  connectionSessions : Table Nat (List Int)
  nextId : Int
  maintenanceShutdownPending : Bool
  autoCommits : SnapshotAutoCommits κ
  /-- The connection that clears what was learned, while it does. -/
  clearingLearning : Option Nat
  shared : σ

namespace ConversionService

variable {σ ρ χ κ δ ω : Type} (code : ConversionCode σ ρ χ κ δ ω)

/-- A service without sessions. -/
def new (shared : σ) : ConversionService σ ρ κ where
  sessions := ∅
  connectionSessions := ∅
  nextId := 1
  maintenanceShutdownPending := false
  autoCommits := .new
  clearingLearning := none
  shared := shared

/-- The sessions that are entered for a connection. -/
def sessionsOf (service : ConversionService σ ρ κ) (connection : Nat) : List Int :=
  (service.connectionSessions.lookup connection).getD []

def startSession (service : ConversionService σ ρ κ) (connection : Nat) : ConversionService σ ρ κ × Int :=
  let id := service.nextId
  ({ service with
      nextId := id + 1
      sessions := service.sessions.insert id ⟨code.newRecord, connection⟩
      connectionSessions := service.connectionSessions.insert connection
        ((service.sessionsOf connection).insert id) },
    id)

def connectionOwns (service : ConversionService σ ρ κ) (session : Int) (connection : Nat) : Bool :=
  (service.sessions.lookup session).any fun record => record.connection = connection

/-- The table of connections without one session, and without its connection if that was its last one. -/
def withoutSession (table : Table Nat (List Int)) (connection : Nat) (session : Int) : Table Nat (List Int) :=
  match table.lookup connection with
  | none => table
  | some ids =>
    let ids := ids.filter fun id => id ≠ session
    if ids.isEmpty then table.erase connection else table.insert connection ids

def endSession (service : ConversionService σ ρ κ) (session : Int) : ConversionService σ ρ κ :=
  let service :=
    match service.sessions.lookup session with
    | none => service
    | some record =>
      { service with
        sessions := service.sessions.erase session
        connectionSessions := withoutSession service.connectionSessions record.connection session }
  -- The converter is cleared in the background once no composition is left.
  if service.sessions.entries.isEmpty then { service with shared := code.endComposition session service.shared }
  else service

def cleanupConnection (service : ConversionService σ ρ κ) (connection : Nat) : ConversionService σ ρ κ :=
  let service :=
    match service.connectionSessions.lookup connection with
    | none => service
    | some ids =>
      let service := ids.foldl (endSession code) service
      { service with connectionSessions := service.connectionSessions.erase connection }
  { service with
    autoCommits := { service.autoCommits with
      states := service.autoCommits.states.retain fun stream => stream.connection ≠ connection
      applied := service.autoCommits.applied.retain fun stream => stream.connection ≠ connection } }

/-- Work on one session and on what all share. The session keeps its connection. -/
def work {β : Type} (service : ConversionService σ ρ κ) (session : Int) (run : σ → ρ → σ × ρ × β) :
    ConversionService σ ρ κ × Option β :=
  match service.sessions.lookup session with
  | none => (service, none)
  | some record =>
    let result := run service.shared record.work
    ({ service with
        shared := result.1
        sessions := service.sessions.insert session { record with work := result.2.1 } },
      some result.2.2)

/-- Shared state after work that no session takes part in. -/
def share {β : Type} (service : ConversionService σ ρ κ) (run : σ → σ × β) : ConversionService σ ρ κ × β :=
  let result := run service.shared
  ({ service with shared := result.1 }, result.2)

def snapshot (swift : SwiftString) (module : KanaKanjiConverterModule χ κ) (limit : Nat)
    (service : ConversionService σ ρ κ) (segments : List SnapshotSegment) (explicit : Bool)
    (leftContext : Option Text) (key : SnapshotEnhancementKey) (connection : Nat) (liveSearchWidth : Int) (world : ω) :
    ConversionService σ ρ κ × SnapshotAnswer × Option SnapshotAutoCommitProposal :=
  let (service, live) := service.share fun shared =>
    code.snapshotCandidates segments explicit leftContext key liveSearchWidth shared world
  let (autoCommits, proposal) :=
    match live with
    | none => (service.autoCommits, none)
    | some live =>
      service.autoCommits.snapshotAutoCommitProposalLocked swift module limit
        (code.autoCommitThreshold service.shared) (code.autoCommitMaxReading service.shared) (some key) connection live
  let (service, answer) := { service with autoCommits := autoCommits }.share fun shared =>
    code.snapshotAnswer segments explicit leftContext key liveSearchWidth proposal shared world
  (service, answer, proposal)

def applySnapshotAutoCommitReceipt (service : ConversionService σ ρ κ) (connection : Nat)
    (key : SnapshotEnhancementKey) (proposal : Nat) : ConversionService σ ρ κ × Bool :=
  let (autoCommits, accepted, candidate) :=
    service.autoCommits.applySnapshotAutoCommitReceipt connection key proposal
  let shared :=
    match candidate with
    | some candidate => code.recordAutoCommit candidate service.shared
    | none => service.shared
  ({ service with autoCommits := autoCommits, shared := shared }, accepted)

def beginMaintenanceShutdownIfIdle (service : ConversionService σ ρ κ) : ConversionService σ ρ κ × Bool :=
  if service.maintenanceShutdownPending || !service.sessions.entries.isEmpty then (service, false)
  else ({ service with maintenanceShutdownPending := true }, true)

/-- The part of a clear under the converter's lock. -/
def finishClearLearning (service : ConversionService σ ρ κ) (world : ω) : ConversionService σ ρ κ × Bool :=
  let (service, cleared) := { service with
    autoCommits := { service.autoCommits with states := ∅, applied := ∅ }
    clearingLearning := none }.share fun shared => code.clearLearningAccepted shared world
  (service, cleared)

end ConversionService

/-- The engine: its service, its predictions and the calls to predict that are running. -/
structure EngineHost (σ ρ κ : Type) where
  service : ConversionService σ ρ κ
  prediction : PredictionService
  predicting : Table Nat PredictCall

namespace EngineHost

variable {σ ρ χ κ δ ω : Type} (swift : SwiftString) (module : KanaKanjiConverterModule χ κ) (limit : Nat)
  (code : ConversionCode σ ρ χ κ δ ω)

/-- What a request is answered with, and whether the process ends once it is. -/
abbrev Reply (δ : Type) := Protocol.Response δ × Bool

/-- An engine that has started. -/
def start (shared : σ) (prediction : PredictionService) : EngineHost σ ρ κ := ⟨.new shared, prediction, ∅⟩

def noSession : Protocol.Response δ := .error "no session".toList

/-- A valid prompt begins as the tokenizer begins one and keeps within its vocabulary. -/
def validPrompt (tokenIds : List Nat) : Bool :=
  2 ≤ tokenIds.length && tokenIds.length ≤ 480 && tokenIds.head? = some 1 && tokenIds.all fun token => token < 99584

/-- The answer for a session, which an unknown one gets as well. -/
def answer {β : Type} (result : ConversionService σ ρ κ × Option β) (respond : β → Protocol.Response δ) :
    ConversionService σ ρ κ × Reply δ :=
  (result.1, (result.2.map respond).getD noSession, false)

/-- The answer for a view of clauses, which the client treats any refusal of alike. -/
def clauseAnswer (result : ConversionService σ ρ κ × Option (Option ClauseView)) : ConversionService σ ρ κ × Reply δ :=
  match result.2.join with
  | some view => (result.1, .clauseView view.segments view.selected view.candidates view.candidateIndex, false)
  | none => (result.1, .error "no clause view".toList, false)

/-- The requests that are handled under the service lock, once it is known that they may be. -/
def dispatch (host : EngineHost σ ρ κ) (connection : Nat) (request : Request) (world : ω) :
    EngineHost σ ρ κ × Reply δ :=
  let service := host.service
  let serve (result : ConversionService σ ρ κ × Reply δ) : EngineHost σ ρ κ × Reply δ :=
    ({ host with service := result.1 }, result.2)
  match request with
  | .queryZenzaiStatus | .retryZenzai => (host, .error "runtime status routing error".toList, false)
  | .predict .. => (host, .error "prediction routing error".toList, false)
  | .ping => (host, .error "ping routing error".toList, false)
  | .pollSnapshotEnhancement .. => (host, .error "snapshot enhancement routing error".toList, false)
  | .clearLearning => (host, .error "learning clear routing error".toList, false)
  | .startSession =>
    let (service, id) := service.startSession code connection
    serve (service, .session id (some 10) (some code.buildVersion) code.engineEpoch
      (code.currentLearningGeneration service.shared), false)
  | .clauseCandidates request =>
    let (service, result) := service.share fun shared => code.clauseCandidates request shared world
    serve (service, .clauseCandidatesResult result, false)
  | .convertClauses request =>
    let (service, result) := service.share fun shared => code.convertClauses request shared world
    serve (service, .convertClausesResult result, false)
  | .commitReceipt receipt =>
    let (service, ack) := service.share fun shared => code.commitReceipt receipt shared world
    serve (service, .commitReceiptAck ack, false)
  | .insert session text style =>
    serve (answer (service.work session fun shared work =>
      let work := code.insert work text style
      (shared, work, code.convertTarget work)) .reading)
  | .backspace session =>
    serve (answer (service.work session fun shared work =>
      let work := code.backspace work
      (shared, work, code.convertTarget work)) .reading)
  | .convert session leftContext =>
    serve (answer (service.work session fun shared work => code.convert session leftContext shared work world)
      .candidates)
  | .typoConvert session leftContext =>
    serve (answer (service.work session fun shared work => code.typoConvert session leftContext shared work world)
      .candidates)
  | .reconvert session surface leftContext =>
    serve (answer (service.work session fun shared work =>
      code.reconvert session surface leftContext shared work world) .candidates)
  | .commit session index =>
    let (service, committed) := service.work session fun shared work => code.commit session index shared work world
    serve (answer (service, committed.join) fun committed => .committed committed.1 committed.2)
  | .endSession session => serve (service.endSession code session, .ok, false)
  | .liveConvert session seq leftContext autoCommit =>
    serve (answer (service.work session fun shared work =>
      code.liveConvert session leftContext autoCommit shared work world)
      fun live => .liveResult seq live.1 live.2.1 live.2.2)
  | .liveSnapshot composition revision configurationGeneration connectionGeneration segments explicit leftContext
      conversionRevision requestId liveSearchWidth =>
    let key : SnapshotEnhancementKey :=
      ⟨composition, revision, configurationGeneration, connectionGeneration, conversionRevision, requestId⟩
    let (service, result, autoCommit) := service.snapshot code swift module limit segments explicit leftContext key
      connection liveSearchWidth world
    let proposal := autoCommit.map fun proposal =>
      Protocol.AutoCommitProposal.mk proposal.proposal proposal.text proposal.consumedReading proposal.remaining
    serve (service, .snapshotResult composition revision configurationGeneration connectionGeneration result.text
      result.candidates result.candidateRemaining result.baseline proposal result.clauseData, false)
  | .autoCommitReceipt composition revision configurationGeneration connectionGeneration proposal =>
    let key : SnapshotEnhancementKey := ⟨composition, revision, configurationGeneration, connectionGeneration, 0, 0⟩
    let (service, accepted) := service.applySnapshotAutoCommitReceipt code connection key proposal
    serve (service, if accepted then .ok else .error "stale auto commit receipt".toList, false)
  | .llmConvert session seq leftContext =>
    match service.sessions.lookup session with
    | none => (host, noSession, false)
    | some record =>
      match code.llmConvert leftContext service.shared record.work world with
      | .ok text => (host, .llmResult seq text, false)
      | .error message => (host, .error message, false)
  | .reloadConfig params =>
    let prediction :=
      match params.inlinePredictionEnabled with
      | some enabled =>
        let (config, files) := code.predictionConfig enabled world
        host.prediction.reload config files
      | none => host.prediction
    let (service, reloaded) := service.share fun shared => code.reload params shared world
    ({ host with service := service, prediction := prediction },
      if reloaded then .ok
      else .error "reload busy (warm-up or conversion in progress); TIP will retry on this connection".toList,
      false)
  | .recordCorrection reading surface =>
    serve ({ service with shared := code.recordCorrection reading surface service.shared }, .ok, false)
  | .reloadDictionary enabled =>
    serve ({ service with shared := code.requestDictionaryReload enabled service.shared }, .ok, false)
  | .moveClause session offset baseIndex leftContext =>
    serve (clauseAnswer (service.work session fun shared work =>
      code.moveClause session offset baseIndex leftContext shared work world))
  | .selectClauseCandidate session index =>
    serve (clauseAnswer (service.work session fun shared work =>
      code.selectClauseCandidate session index shared work world))
  | .commitClauses session =>
    let (service, committed) := service.work session fun shared work => code.commitClauses session shared work world
    match committed.join with
    | some committed => serve (service, .committed committed.1 committed.2, false)
    | none => serve (service, .error "no clause view".toList, false)
  | .shutdown =>
    ({ host with
        prediction := host.prediction.shutdown
        service := { service with shared := code.prepareForShutdown service.shared world } },
      .ok, true)
  | .prepareMaintenance =>
    let (service, idle) := service.beginMaintenanceShutdownIfIdle
    if idle then
      ({ host with
          prediction := host.prediction.shutdown
          service := { service with shared := code.prepareForShutdown service.shared world } },
        .ok, true)
    else serve (service, .error "maintenance busy: active input session".toList, false)

/-- The call of a connection while it is answered later. -/
def withCall (host : EngineHost σ ρ κ) (connection : Nat) (call : PredictCall) : EngineHost σ ρ κ :=
  { host with predicting := host.predicting.insert connection call }

/-- A request that a connection sends. One that is answered later has no answer yet. -/
def handle (host : EngineHost σ ρ κ) (connection : Nat) (request : Request) (world : ω) :
    EngineHost σ ρ κ × Option (Reply δ) :=
  match request with
  | .queryZenzaiStatus =>
    let status := code.zenzaiRuntimeSnapshot host.service.shared
    (host, some (.zenzaiStatus status.state status.backend status.device status.reason status.liveLatency
      status.convertLatency, false))
  | .retryZenzai =>
    ({ host with service := { host.service with shared := code.retryZenzai host.service.shared } }, some (.ok, false))
  | .ping => (host, some (.pong, false))
  | .pollSnapshotEnhancement composition revision configurationGeneration connectionGeneration baseline
      conversionRevision requestId =>
    let key : SnapshotEnhancementKey :=
      ⟨composition, revision, configurationGeneration, connectionGeneration, conversionRevision, requestId⟩
    let responseKey : SnapshotResponseKey :=
      ⟨composition, revision, configurationGeneration, connectionGeneration, baseline, conversionRevision, requestId⟩
    let (service, poll) := host.service.share fun shared => code.pollSnapshotEnhancement key baseline shared
    let response :=
      match poll with
      | .pending => .snapshotEnhancementPending responseKey
      | .unavailable => .snapshotEnhancementUnavailable responseKey
      | .ready text candidates candidateRemaining clauseData =>
        .snapshotEnhancement composition revision configurationGeneration connectionGeneration baseline text
          candidates candidateRemaining clauseData
    ({ host with service := service }, some (response, false))
  | .predict session seq tokenIds =>
    if !host.service.connectionOwns session connection then (host, some (noSession, false))
    else if !validPrompt tokenIds then (host, some (.predictionUnavailable seq "invalid_prompt".toList, false))
    else (host.withCall connection ⟨seq, tokenIds, .admitted⟩, none)
  | .clearLearning =>
    if host.service.clearingLearning.isSome then
      (host, some (.error "learning clear already in progress; retry".toList, false))
    else
      ({ host with service := { host.service with
          clearingLearning := some connection
          shared := code.beginClearLearning host.service.shared } }, none)
  | request =>
    -- All operations below can change the visible conversion context.
    let host := { host with prediction := host.prediction.cancel }
    if request.sessionId.any fun session => !host.service.connectionOwns session connection then
      (host, some (noSession, false))
    else if host.service.maintenanceShutdownPending then
      (host, some (.error "maintenance shutdown in progress".toList, false))
    else
      let (host, reply) := host.dispatch swift module limit code connection request world
      (host, some reply)

/-- The calls without one that has been answered. -/
def answered (host : EngineHost σ ρ κ) (connection : Nat) : EngineHost σ ρ κ :=
  { host with predicting := host.predicting.erase connection }

/-- A call to predict reads which request it is of, and whether there is a model. -/
def capture (host : EngineHost σ ρ κ) (connection : Nat) : EngineHost σ ρ κ × Option (Reply δ) :=
  match host.predicting.lookup connection with
  | some ⟨seq, tokenIds, .admitted⟩ =>
    match host.prediction.availability, host.prediction.runtime with
    | .ready, some runtime =>
      (host.withCall connection ⟨seq, tokenIds, .waiting host.prediction.requestGeneration runtime⟩, none)
    | state, _ => (host.answered connection, some (.predictionUnavailable seq state.rawValue, false))
  | _ => (host, none)

/-- Whether some call has the model. -/
def generating (host : EngineHost σ ρ κ) : Bool :=
  host.predicting.values.any fun call => match call.stage with | .generating .. => true | _ => false

/-- A call to predict gets the model, once no other one has it. -/
def generate (host : EngineHost σ ρ κ) (connection : Nat) : EngineHost σ ρ κ :=
  match host.predicting.lookup connection with
  | some ⟨seq, tokenIds, .waiting generation runtime⟩ =>
    if host.generating then host else host.withCall connection ⟨seq, tokenIds, .generating generation runtime []⟩
  | _ => host

/-- The model asks whether the call is cancelled. -/
def poll (host : EngineHost σ ρ κ) (connection : Nat) : EngineHost σ ρ κ :=
  match host.predicting.lookup connection with
  | some ⟨seq, tokenIds, .generating generation runtime cancelled⟩ =>
    host.withCall connection ⟨seq, tokenIds,
      .generating generation runtime (cancelled ++ [decide (host.prediction.requestGeneration ≠ generation)])⟩
  | _ => host

/-- The model is done with a call, and may have ended. -/
def finish (host : EngineHost σ ρ κ) (connection : Nat) (running : Bool) (world : ω) :
    EngineHost σ ρ κ × Option (Reply δ) :=
  match host.predicting.lookup connection with
  | some ⟨seq, tokenIds, .generating generation runtime cancelled⟩ =>
    let host := host.answered connection
    match code.generate tokenIds cancelled world with
    | none =>
      (if running then host else { host with prediction := host.prediction.markRuntimeFailed runtime },
        some (.predictionUnavailable seq "failed".toList, false))
    | some text =>
      if host.prediction.requestGeneration ≠ generation then
        (host, some (.predictionUnavailable seq "stale".toList, false))
      else (host, some (.prediction seq text, false))
  | _ => (host, none)

/-- A clear that has been accepted is done and answered. -/
def finishClear (host : EngineHost σ ρ κ) (connection : Nat) (world : ω) : EngineHost σ ρ κ × Option (Reply δ) :=
  if host.service.clearingLearning = some connection then
    let (service, cleared) := host.service.finishClearLearning code world
    ({ host with service := service },
      some (if cleared then .ok else .error "learning files still locked; retry after engine restart".toList, false))
  else (host, none)

end EngineHost

/-- What happens to the engine next. -/
inductive HostEvent (ω : Type) where
  | request (connection : Nat) (request : Request) (world : ω)
  | capture (connection : Nat)
  | generate (connection : Nat)
  | poll (connection : Nat)
  | finish (connection : Nat) (running : Bool) (world : ω)
  | finishClear (connection : Nat) (world : ω)
  | install (loaded generation : Nat)
  | markLoadFailed (generation : Nat)
  | background (world : ω)
  | disconnect (connection : Nat)

namespace EngineHost

variable {σ ρ χ κ δ ω : Type} (swift : SwiftString) (module : KanaKanjiConverterModule χ κ) (limit : Nat)
  (code : ConversionCode σ ρ χ κ δ ω)

/-- Whether the thread of a connection is waiting for an answer. -/
def busy (host : EngineHost σ ρ κ) (connection : Nat) : Bool :=
  (host.predicting.lookup connection).isSome || host.service.clearingLearning = some connection

/-- Answers with the connection that gets them. -/
def sent (connection : Nat) (result : EngineHost σ ρ κ × Option (Reply δ)) :
    EngineHost σ ρ κ × Option (Nat × Reply δ) :=
  (result.1, result.2.map fun reply => (connection, reply))

/-- The engine after something has happened, and the answer that is sent. The thread of a connection neither
reads a request nor sees the disconnection while it waits for an answer. -/
def step (host : EngineHost σ ρ κ) : HostEvent ω → EngineHost σ ρ κ × Option (Nat × Reply δ)
  | .request connection request world =>
    if host.busy connection then (host, none)
    else sent connection (host.handle swift module limit code connection request world)
  | .capture connection => sent connection (host.capture connection)
  | .generate connection => (host.generate connection, none)
  | .poll connection => (host.poll connection, none)
  | .finish connection running world => sent connection (host.finish code connection running world)
  | .finishClear connection world => sent connection (host.finishClear code connection world)
  | .install loaded generation => ({ host with prediction := host.prediction.install loaded generation }, none)
  | .markLoadFailed generation => ({ host with prediction := host.prediction.markLoadFailed generation }, none)
  | .background world =>
    ({ host with service := { host.service with shared := code.background host.service.shared world } }, none)
  | .disconnect connection =>
    if host.busy connection then (host, none)
    else ({ host with service := host.service.cleanupConnection code connection }, none)

end EngineHost

end Nospacekey
