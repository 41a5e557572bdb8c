import Nospacekey.Engine.SessionOwnership

/-! What a connection can do to the sessions of another one: nothing, but drop a prediction that is running. -/

namespace Nospacekey

open Protocol Runs Interference ConversionService

variable {σ ρ χ κ δ ω : Type}

/-- Whether a request is for a prediction. -/
def Protocol.Request.isPredict : Request → Bool
  | .predict .. => true
  | _ => false

namespace EngineHost

/-- A request for a session that its connection does not own. -/
def Refused (host : EngineHost σ ρ κ) (connection : Nat) (request : Request) : Prop :=
  ∃ session, request.sessionId = some session ∧ host.service.connectionOwns session connection = false

/-- Another connection than this one sends a request that is refused. -/
def RefusedElsewhere (connection : Nat) (host : EngineHost σ ρ κ) (event : HostEvent ω) : Prop :=
  ∃ other request world, event = .request other request world ∧ other ≠ connection ∧ host.Refused other request

/-- Another connection than this one sends a request for a prediction that is refused. -/
def RefusedPrediction (connection : Nat) (host : EngineHost σ ρ κ) (event : HostEvent ω) : Prop :=
  ∃ other request world, event = .request other request world ∧ other ≠ connection ∧ host.Refused other request ∧
    request.isPredict

section Isolation

variable (swift : SwiftString) (module : KanaKanjiConverterModule χ κ) (limit : Nat) (code : ConversionCode σ ρ χ κ δ ω)

/-- What a connection is answered over a run. -/
def responses (host : EngineHost σ ρ κ) (connection : Nat) (events : List (HostEvent ω)) : List (Nat × Reply δ) :=
  (answers (fun host event => step swift module limit code host event) host events).filter fun reply =>
    reply.1 = connection

variable {host : EngineHost σ ρ κ} {connection : Nat} {request : Request}

/-- A request that is refused is answered like one for an unknown session, and all it does is to cancel the
predictions, unless it is for one itself. -/
theorem handle_refused (refused : host.Refused connection request) (world : ω) :
    host.handle swift module limit code connection request world =
      (if request.isPredict then host else { host with prediction := host.prediction.cancel },
        some (noSession, false)) := by
  obtain ⟨session, asked, foreign⟩ := refused
  -- The requests without a session are not refused.
  have locked : ∀ request : Request, request.sessionId = some session →
      (if request.sessionId.any fun session => !host.service.connectionOwns session connection then
          (({ host with prediction := host.prediction.cancel } : EngineHost σ ρ κ),
            (some (noSession, false) : Option (Reply δ)))
        else if host.service.maintenanceShutdownPending then
          ({ host with prediction := host.prediction.cancel },
            some (.error "maintenance shutdown in progress".toList, false))
        else
          let dispatched := ({ host with prediction := host.prediction.cancel } : EngineHost σ ρ κ).dispatch swift module
            limit code connection request world
          (dispatched.1, some dispatched.2)) =
        ({ host with prediction := host.prediction.cancel }, some (noSession, false)) := by
    intro request asked
    rw [asked, Option.any_some, foreign]
    rfl
  cases request with
  | predict other seq tokenIds =>
    obtain rfl := Option.some.inj asked
    unfold handle
    dsimp only
    rw [foreign]
    rfl
  | ping => cases asked
  | startSession => cases asked
  | clauseCandidates => cases asked
  | convertClauses => cases asked
  | commitReceipt => cases asked
  | liveSnapshot => cases asked
  | pollSnapshotEnhancement => cases asked
  | autoCommitReceipt => cases asked
  | reloadConfig => cases asked
  | clearLearning => cases asked
  | shutdown => cases asked
  | prepareMaintenance => cases asked
  | queryZenzaiStatus => cases asked
  | retryZenzai => cases asked
  | recordCorrection => cases asked
  | reloadDictionary => cases asked
  | _ => exact locked _ asked

/-- A cancelled prediction service is another one. -/
theorem cancel_ne (service : PredictionService) : service.cancel ≠ service := fun same =>
  nextUInt64_ne service.requestGeneration (congrArg PredictionService.requestGeneration same)

/-- A refused request leaves the engine as it is exactly if it is for a prediction. -/
theorem handle_refused_unchanged_iff (refused : host.Refused connection request) (world : ω) :
    (host.handle swift module limit code connection request world).1 = host ↔ request.isPredict := by
  rw [handle_refused swift module limit code refused world]
  cases request.isPredict with
  | true => exact ⟨fun _ => rfl, fun _ => rfl⟩
  | false =>
    refine ⟨fun same => ?_, fun yes => by cases yes⟩
    exact absurd (congrArg EngineHost.prediction same) (cancel_ne _)

/-- A refused request for a prediction goes unnoticed by the other connections. -/
theorem refusedPrediction_silent (state : EngineHost σ ρ κ) (event : HostEvent ω)
    (slight : RefusedPrediction connection state event) :
    apply (fun host event => step swift module limit code host event) state event = state ∧
      ∀ answer ∈ (step swift module limit code state event).2, decide (answer.1 = connection) = false := by
  obtain ⟨other, request, world, rfl, elsewhere, refused, predict⟩ := slight
  unfold apply step
  dsimp only
  split
  · exact ⟨rfl, by simp⟩
  · rw [handle_refused swift module limit code refused world, if_pos predict]
    exact ⟨rfl, by simp [sent, elsewhere]⟩

/-- After every run, sessions and connections are entered in both tables alike and no number is given out
again; a connection that is cleaned up leaves nothing and takes nothing from the others; a refused request is
answered like one for an unknown session and leaves everything as it is exactly if it is for a prediction; and
no other connection can tell whether such requests for predictions were made. -/
theorem run_isolated (shared : σ) (prediction : PredictionService) (events : List (HostEvent ω)) :
    let run := fun (host : EngineHost σ ρ κ) event => step swift module limit code host event
    let host := exec (apply run) (start shared prediction) events
    (∀ session connection, session ∈ host.service.sessionsOf connection ↔
      ∃ record, host.service.sessions.lookup session = some record ∧ record.connection = connection) ∧
    (∀ connection, host.service.connectionSessions.lookup connection ≠ some []) ∧
    (handedOutBy swift module limit code (start shared prediction) events).Nodup ∧
    (∀ connection, CleanedUp host.service (host.service.cleanupConnection code connection) connection) ∧
    (∀ connection request, host.Refused connection request → ∀ world,
      (host.handle swift module limit code connection request world).2 = some (noSession, false) ∧
        ((host.handle swift module limit code connection request world).1 = host ↔ request.isPredict)) ∧
    ∀ connection others, DifferIn run (RefusedPrediction connection) (start shared prediction)
        (start shared prediction) events others →
      responses swift module limit code (start shared prediction) connection events =
        responses swift module limit code (start shared prediction) connection others := by
  obtain ⟨consistent, ordered, _⟩ :=
    @run_consistent σ ρ χ κ δ ω swift module limit code (start shared prediction) (new_consistent shared) events
  refine ⟨fun session connection => ?_, consistent.filled, ordered.imp fun less => ne_of_lt less, fun connection =>
    (consistent.cleanupConnection code connection).2.1, fun connection request refused world => ⟨?_, ?_⟩, ?_⟩
  · rw [consistent.entered, owner, Option.map_eq_some_iff]
  · rw [handle_refused swift module limit code refused world]
  · exact handle_refused_unchanged_iff swift module limit code refused world
  · intro connection others differ
    exact differ.unseen (refusedPrediction_silent swift module limit code) rfl

end Isolation

section Echo

/-- A converter that takes its input letter by letter, and every word for a clause. -/
def letterModule : KanaKanjiConverterModule Text Nat where
  convertTarget := id
  prefixComplete text count := text.drop count
  makePrefixClauseCandidate data :=
    let word := data.take 1
    ⟨word.flatMap DicdataElement.word, word, (word.flatMap DicdataElement.ruby).length, true⟩

/-- An engine that offers every reading as it is, shares nothing and predicts one text. -/
def echoCode : ConversionCode Unit Text Text Nat Nat Unit where
  engineEpoch := "epoch".toList
  buildVersion := "1".toList
  newRecord := []
  insert reading text _ := reading ++ text
  backspace reading := reading.dropLast
  convertTarget := id
  convert _ _ shared reading _ := (shared, reading, [reading])
  typoConvert _ _ shared reading _ := (shared, reading, [reading])
  reconvert _ surface _ shared _ _ := (shared, surface, [surface])
  commit _ _ shared reading _ := (shared, [], some (reading, []))
  liveConvert _ _ _ shared reading _ := (shared, reading, reading, reading, none)
  llmConvert _ _ reading _ := .ok reading
  moveClause _ _ _ _ shared reading _ := (shared, reading, none)
  selectClauseCandidate _ _ shared reading _ := (shared, reading, none)
  commitClauses _ shared reading _ := (shared, reading, none)
  endComposition _ shared := shared
  currentLearningGeneration _ := 0
  clauseCandidates request shared _ := (shared, ⟨request.key, .unavailable .expired⟩)
  convertClauses request shared _ := (shared, ⟨request.key, .unavailable .expired⟩)
  commitReceipt receipt shared _ := (shared, ⟨receipt.commitId, .rejected .expired⟩)
  autoCommitThreshold _ := none
  autoCommitMaxReading _ := 0
  snapshotCandidates _ _ _ _ _ shared _ := (shared, none)
  snapshotAnswer segments _ _ key _ _ shared _ :=
    (shared,
      { text := segments.flatMap SnapshotSegment.text
        candidates := none
        candidateRemaining := none
        baseline := 0
        clauseData := ⟨segments.flatMap SnapshotSegment.text, key.conversionRevision, key.requestId, [], none⟩ })
  recordAutoCommit _ shared := shared
  pollSnapshotEnhancement _ _ shared := (shared, .unavailable)
  reload _ shared _ := (shared, true)
  predictionConfig enabled _ := (⟨enabled, [], []⟩, .missing)
  recordCorrection _ _ shared := shared
  requestDictionaryReload _ shared := shared
  zenzaiRuntimeSnapshot _ := ⟨"unconfigured".toList, none, none, none, none, none⟩
  retryZenzai shared := shared
  beginClearLearning shared := shared
  clearLearningAccepted shared _ := (shared, true)
  prepareForShutdown shared _ := shared
  background shared _ := shared
  generate _ cancelled _ := if cancelled.any id then none else some "です".toList

/-- A model that is ready. -/
def readyModel : PredictionService := ⟨0, 0, .ready, some 0, none⟩

/-- An engine of which nothing has been asked yet. -/
def echoHost : EngineHost Unit Text Nat := start () readyModel

/-- The steps of that engine. -/
def echoStep (host : EngineHost Unit Text Nat) (event : HostEvent Unit) :
    EngineHost Unit Text Nat × Option (Nat × Reply Nat) := step .scalars letterModule 64 echoCode host event

/-- A connection starts a session and asks for a prediction, while another one asks for something. -/
def predictionBesides (meanwhile : List (HostEvent Unit)) : List (HostEvent Unit) :=
  [.request 1 .startSession (), .request 1 (.predict 1 0 [1, 2]) (), .capture 1, .generate 1] ++ meanwhile ++
    [.finish 1 true ()]

/-- The first connection has the session, so a request of the second one for it is refused. -/
theorem refused_beside (request : Request) (asked : request.sessionId = some 1) :
    (exec (apply echoStep) echoHost [.request 1 .startSession (), .request 1 (.predict 1 0 [1, 2]) (), .capture 1,
      .generate 1]).Refused 2 request := ⟨1, asked, by decide +kernel⟩

/-- A request for a session of another connection drops the prediction that this one is waiting for. -/
theorem run_isolated_stale :
    ¬((∀ events connection request, (exec (apply echoStep) echoHost events).Refused connection request → ∀ world,
        ((exec (apply echoStep) echoHost events).handle .scalars letterModule 64 echoCode connection request
          world).1 = exec (apply echoStep) echoHost events) ∧
      ∀ events others connection, DifferIn echoStep (RefusedElsewhere connection) echoHost echoHost events others →
        responses .scalars letterModule 64 echoCode echoHost connection events =
          responses .scalars letterModule 64 echoCode echoHost connection others) := by
  rintro ⟨_, every⟩
  have refused := refused_beside (.insert 1 ['a'] none) rfl
  have differ : DifferIn echoStep (RefusedElsewhere 1) echoHost echoHost
      (predictionBesides [.request 2 (.insert 1 ['a'] none) ()]) (predictionBesides []) :=
    .both (.both (.both (.both (.left ⟨2, _, (), rfl, by decide, refused⟩ (.both (.nil _ _))))))
  exact absurd (every _ _ _ differ) (by decide +kernel)

/-- A request for a prediction of a session of another connection does not, and is answered alike. -/
theorem run_isolated_predicted :
    responses .scalars letterModule 64 echoCode echoHost 1
        (predictionBesides [.request 2 (.predict 1 0 [1, 2]) ()]) =
      responses .scalars letterModule 64 echoCode echoHost 1 (predictionBesides []) ∧
    ((exec (apply echoStep) echoHost [.request 1 .startSession (), .request 1 (.predict 1 0 [1, 2]) (), .capture 1,
      .generate 1]).handle .scalars letterModule 64 echoCode 2 (.endSession 1) ()).2 = some (noSession, false) := by
  constructor
  · refine (run_isolated .scalars letterModule 64 echoCode () readyModel _).2.2.2.2.2 1 (predictionBesides []) ?_
    exact .both (.both (.both (.both (.left ⟨2, _, (), rfl, by decide, refused_beside (.predict 1 0 [1, 2]) rfl, rfl⟩
      (.both (.nil _ _))))))
  · exact ((run_isolated .scalars letterModule 64 echoCode () readyModel _).2.2.2.2.1 2 (.endSession 1)
      (refused_beside (.endSession 1) rfl) ()).1

end Echo

end EngineHost

end Nospacekey
