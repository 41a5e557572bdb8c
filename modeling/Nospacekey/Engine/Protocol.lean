import Nospacekey.Engine.ClauseProtocol
import Nospacekey.Engine.CommitReceiptLedger
import Nospacekey.Engine.SnapshotAutoCommit

/-! The requests that the engine decodes and the responses that it encodes. -/

namespace Nospacekey

namespace Protocol

structure AutoCommitProposal where
  proposal : Nat
  text : Text
  consumedReading : Text
  remaining : Text
  deriving DecidableEq, Repr

structure SnapshotSegment where
  text : Text
  style : Option Text
  deriving DecidableEq, Repr

structure ReloadConfigParams where
  llmEnabled : Bool
  llmApiKey : Text
  llmEndpoint : Text
  llmModel : Text
  llmPrompt : Text
  llmTimeoutMs : Nat
  zenzaiEnabled : Bool
  zenzaiWeight : Text
  /-- Without a value the present one stays, as with the other options. -/
  inlinePredictionEnabled : Option Bool
  learningEnabled : Option Bool
  typoLearnEnabled : Option Bool
  zenzaiInferenceLimit : Option Nat
  deriving DecidableEq, Repr

inductive Request where
  | ping
  | startSession
  | clauseCandidates (request : ClauseProtocol.ClauseCandidatesRequest)
  | convertClauses (request : ConvertClausesRequest)
  | commitReceipt (receipt : CommitReceipt Text)
  | insert (session : Int) (text : Text) (style : Option Text)
  | backspace (session : Int)
  | convert (session : Int) (leftContext : Option Text)
  | typoConvert (session : Int) (leftContext : Option Text)
  | commit (session : Int) (index : Nat)
  | endSession (session : Int)
  | reconvert (session : Int) (surface : Text) (leftContext : Option Text)
  | liveConvert (session : Int) (seq : Nat) (leftContext : Option Text) (autoCommit : Bool)
  | liveSnapshot (composition revision configurationGeneration connectionGeneration : Nat)
      (segments : List SnapshotSegment) (explicit : Bool) (leftContext : Option Text)
      (conversionRevision requestId : Nat) (liveSearchWidth : Int)
  | pollSnapshotEnhancement (composition revision configurationGeneration connectionGeneration baseline
      conversionRevision requestId : Nat)
  | autoCommitReceipt (composition revision configurationGeneration connectionGeneration proposal : Nat)
  | llmConvert (session : Int) (seq : Nat) (leftContext : Option Text)
  | predict (session : Int) (seq : Nat) (tokenIds : List Nat)
  | reloadConfig (params : ReloadConfigParams)
  | clearLearning
  | shutdown
  | prepareMaintenance
  | queryZenzaiStatus
  | retryZenzai
  | recordCorrection (reading surface : Text)
  | reloadDictionary (enabled : Bool)
  | moveClause (session : Int) (offset baseIndex : Int) (leftContext : Option Text)
  | selectClauseCandidate (session : Int) (index : Int)
  | commitClauses (session : Int)
  deriving DecidableEq, Repr

/-- The session of a request, of which the owner is checked. -/
def Request.sessionId : Request → Option Int
  | .ping | .startSession | .liveSnapshot .. | .pollSnapshotEnhancement .. | .autoCommitReceipt ..
  | .clauseCandidates _ | .convertClauses _ | .commitReceipt _
  | .reloadConfig _ | .clearLearning | .shutdown | .prepareMaintenance | .queryZenzaiStatus
  | .retryZenzai | .recordCorrection ..
  | .reloadDictionary _ => none
  | .insert session _ _
  | .reconvert session _ _
  | .commit session _
  | .liveConvert session _ _ _
  | .llmConvert session _ _
  | .predict session _ _
  | .moveClause session _ _ _ => some session
  | .backspace session
  | .convert session _
  | .typoConvert session _
  | .endSession session
  | .selectClauseCandidate session _
  | .commitClauses session => some session

/-- Speed statistics of one tier, with floating point numbers of some type. -/
structure ZenzaiLatencyTierStats (δ : Type) where
  sampleCount : Int
  p50Ms : δ
  p95Ms : δ
  maxMs : δ
  timeoutCount : Int
  deriving DecidableEq, Repr

structure SnapshotResponseKey where
  composition : Nat
  revision : Nat
  configurationGeneration : Nat
  connectionGeneration : Nat
  baseline : Nat
  conversionRevision : Nat
  requestId : Nat
  deriving DecidableEq, Repr

structure ClauseCandidatesResult where
  key : ClauseRequestKey
  outcome : ClauseCandidatesStatus Text
  deriving DecidableEq, Repr

structure ConvertClausesResult where
  key : ClauseRequestKey
  outcome : ConvertClausesStatus Text
  deriving DecidableEq, Repr

inductive Response (δ : Type) where
  | pong
  | clauseCandidatesResult (response : ClauseCandidatesResult)
  | convertClausesResult (response : ConvertClausesResult)
  | commitReceiptAck (response : CommitReceiptAck)
  | session (id : Int) (proto : Option Nat) (boot : Option Text) (engineEpoch : Text) (learningGeneration : Nat)
  | reading (reading : Text)
  | candidates (candidates : List Text)
  | ok
  | error (message : Text)
  | liveResult (seq : Nat) (text reading : Text) (committed : Option Text)
  | snapshotResult (composition revision configurationGeneration connectionGeneration : Nat) (text : Text)
      (candidates candidateRemaining : Option (List Text)) (baseline : Nat)
      (autoCommit : Option AutoCommitProposal) (clauseData : SnapshotClauseData Text)
  | snapshotEnhancement (composition revision configurationGeneration connectionGeneration baseline : Nat)
      (text : Text) (candidates candidateRemaining : Option (List Text)) (clauseData : SnapshotClauseData Text)
  | snapshotEnhancementPending (key : SnapshotResponseKey)
  | snapshotEnhancementUnavailable (key : SnapshotResponseKey)
  | llmResult (seq : Nat) (text : Text)
  | prediction (seq : Nat) (text : Text)
  | predictionUnavailable (seq : Nat) (state : Text)
  | committed (text reading : Text)
  | clauseView (segments : List Text) (selected : Int) (candidates : List Text) (candidateIndex : Int)
  | zenzaiStatus (state : Text) (backend device reason : Option Text)
      (liveLatency convertLatency : Option (ZenzaiLatencyTierStats δ))
  deriving DecidableEq, Repr

end Protocol

end Nospacekey
