import Nospacekey.Input.Module
import Nospacekey.Ipc.Clause
import Nospacekey.Library.Runs

/-! The lane of composition snapshots between the input thread and the snapshot worker. -/

namespace Nospacekey

inductive SnapshotCommand where
  | desiredConfigurationChanged
  | workAvailable
  | close
  deriving DecidableEq, Repr

structure DesiredSnapshotConfiguration (ρ : Type) where
  generation : Nat
  request : ρ
  deriving DecidableEq, Repr

inductive SnapshotStatus where
  | configured (configurationGeneration connectionEpoch : Nat)
      (learningIdentity : Option EngineLearningIdentity)
  | invalidated (configurationGeneration connectionEpoch : Nat)
  | versionMismatch (configurationGeneration connectionEpoch : Nat) (actual : Option Nat)
      (actualBoot : Option Text)
  deriving DecidableEq, Repr

inductive SnapshotConfigureOutcome where
  | configured
  | retryableFailure
  | versionMismatch (actual : Option Nat) (actualBoot : Option Text)
  deriving DecidableEq, Repr

namespace SnapshotConfigureOutcome

def isVersionMismatch : SnapshotConfigureOutcome → Bool
  | .versionMismatch _ _ => true
  | _ => false

end SnapshotConfigureOutcome

structure RetryPolicy where
  base : Nat
  cap : Nat
  healthProbeInterval : Nat
  deriving DecidableEq, Repr

/-- The pause before the attempt that follows so many failures. -/
def RetryPolicy.delay (policy : RetryPolicy) (failures : Nat) : Nat :=
  min (policy.base * min (2 ^ (failures - 1)) (2 ^ 32 - 1)) policy.cap

def snapshotStatusCapacity : Nat := 8

/-- A bounded queue that gives up its oldest element for a new one. -/
def forcePush {α : Type} (capacity : Nat) (queue : List α) (element : α) : List α :=
  (if queue.length < capacity then queue else queue.drop 1) ++ [element]

/-- A snapshot with its number among those that were pushed. The code reads the snapshot only; the
number tells equal snapshots apart. -/
structure Offered where
  serial : Nat
  snapshot : CompositionSnapshot
  deriving DecidableEq, Repr

namespace Offered

def configuration (o : Offered) : Nat := o.snapshot.identity.configurationGeneration

def connection (o : Offered) : Nat := o.snapshot.identity.connectionGeneration

/-- The same snapshot under another connection epoch. -/
def reconnect (o : Offered) (epoch : Nat) : Offered :=
  { o with
    snapshot := { o.snapshot with
      identity := { o.snapshot.identity with connectionGeneration := epoch } } }

/-- What remains of a snapshot when its connection epoch may be replaced. -/
def detached (o : Offered) : Offered := o.reconnect 0

end Offered

/-- What the transport answers in one step of the worker. -/
structure TransportReply (α : Type) where
  outcome : SnapshotConfigureOutcome
  learningIdentity : Option EngineLearningIdentity
  receiptsDelivered : Bool
  healthy : Bool
  result : Option α
  deriving DecidableEq, Repr

/-- Where the input thread stands in a call. -/
inductive SnapshotCaller where
  | idle
  | offering (snapshot : CompositionSnapshot)
  | pushing (snapshot : CompositionSnapshot)
  | swapping
  | notifying
  | unmarking
  | retracting
  | withdrawing
  | burying
  | storing (generation : Nat)
  | announcing
  | waking
  | dropDesired
  | dropPending
  | dropNotified
  | dropGeneration
  | dropClose
  | gone
  deriving DecidableEq, Repr

/-- Where the worker stands in its loop. -/
inductive SnapshotPhase (ρ α : Type) where
  /-- The shutdown flag is read before the worker goes on. -/
  | gate (next : SnapshotPhase ρ α)
  | adopt (second : Bool)
  | raise (second : Bool) (desired : DesiredSnapshotConfiguration ρ)
  | tryReceive
  /-- A wake-up was received, and the flag that coalesces them is cleared. -/
  | unmark (next : SnapshotPhase ρ α)
  | retryDue (woken : Bool)
  | compare (generation : Nat) (request : ρ)
  | configure (generation : Nat) (request : ρ)
  | publish (generation : Nat) (reply : TransportReply α)
  /-- A status is published before the worker goes on. -/
  | report (status : SnapshotStatus) (next : SnapshotPhase ρ α)
  | rebind
  | healthDue (woken : Bool)
  | probe
  | probed (healthy : Bool)
  /-- The stream of a configuration has failed and is about to be invalidated. -/
  | invalidate (failed delay : Nat)
  | recover (delay : Nat)
  | schedule (delay : Nat)
  | decide (woken : Bool)
  | wait
  | drain
  | take
  | drainAgain (o : Offered)
  | convert (o : Offered)
  | converted (result : Option α)
  | leave
  | disconnect
  | bury
  | clearPending
  | clearNotified
  | stopped
  deriving DecidableEq, Repr

namespace SnapshotPhase

variable {ρ α : Type}

/-- The top of the loop. -/
def loop : SnapshotPhase ρ α := .gate (.adopt false)

/-- The snapshot that the worker has taken and not yet handed to the engine. -/
def held : SnapshotPhase ρ α → List Offered
  | .gate next | .unmark next | .report _ next => held next
  | .drainAgain o | .convert o => [o]
  | _ => []

end SnapshotPhase

/-- What has happened on the lane that its promise is about. -/
inductive SnapshotEvent where
  | accepted (o : Offered)
  | adopted (generation : Nat)
  | configured (generation epoch : Nat) (outcome : SnapshotConfigureOutcome)
  | invalidated (epoch : Nat)
  | converted (o : Offered)
  | closed
  deriving DecidableEq, Repr

/-- The state that the two threads share, where each of them stands, the worker's own variables and
the record of what happened, the newest first. -/
structure SnapshotLane (ρ α : Type) where
  capacity : Nat
  policy : RetryPolicy
  now : Nat
  commands : List SnapshotCommand
  receiver : Bool
  pendingSnapshot : Option Offered
  workNotified : Bool
  workerAlive : Bool
  desiredConfiguration : Option (DesiredSnapshotConfiguration ρ)
  desiredGeneration : Nat
  shutdown : Bool
  connectionEpoch : Nat
  statuses : List SnapshotStatus
  results : List α
  caller : SnapshotCaller
  /-- What the last call of the input thread returned. -/
  answer : Bool
  /-- The connection epoch that the input thread has read last. -/
  seenEpoch : Nat
  phase : SnapshotPhase ρ α
  latestConfiguration : Option (Nat × ρ)
  configurationGeneration : Nat
  configureAttempts : Nat
  retryAt : Option Nat
  healthProbeAt : Option Nat
  latestSnapshot : Option Offered
  replayLatestSnapshot : Bool
  selectedReplaySnapshot : Option Offered
  /-- How many snapshots were pushed. -/
  pushes : Nat
  history : List SnapshotEvent
  deriving Repr

namespace SnapshotLane

variable {ρ α : Type}

/-- The lane of a worker that has just started. -/
def start (capacity : Nat) (policy : RetryPolicy) : SnapshotLane ρ α where
  capacity := capacity
  policy := policy
  now := 0
  commands := []
  receiver := true
  pendingSnapshot := none
  workNotified := false
  workerAlive := true
  desiredConfiguration := none
  desiredGeneration := 0
  shutdown := false
  connectionEpoch := 1
  statuses := []
  results := []
  caller := .idle
  answer := true
  seenEpoch := 1
  phase := .loop
  latestConfiguration := none
  configurationGeneration := 0
  configureAttempts := 0
  retryAt := none
  healthProbeAt := none
  latestSnapshot := none
  replayLatestSnapshot := false
  selectedReplaySnapshot := none
  pushes := 0
  history := []

inductive TrySend where
  | ok
  | full
  | disconnected
  deriving DecidableEq, Repr

/-- What the bounded command lane says to another command. -/
def trySend (s : SnapshotLane ρ α) : TrySend :=
  if !s.receiver then .disconnected
  else if s.commands.length < s.capacity then .ok
  else .full

/-- The command is queued when the lane takes it. -/
def queueCommand (s : SnapshotLane ρ α) (command : SnapshotCommand) : SnapshotLane ρ α :=
  if s.trySend = .ok then { s with commands := s.commands ++ [command] } else s

/-- The input thread goes on with its call. -/
def proceed (s : SnapshotLane ρ α) : SnapshotLane ρ α :=
  match s.caller with
  | .offering snapshot =>
    if s.workerAlive then { s with caller := .pushing snapshot }
    else { s with caller := .idle, answer := false }
  | .pushing snapshot =>
    { s with
      pendingSnapshot := some ⟨s.pushes, snapshot⟩
      pushes := s.pushes + 1
      history := .accepted ⟨s.pushes, snapshot⟩ :: s.history
      caller := .swapping }
  | .swapping =>
    if s.workNotified then { s with caller := .idle, answer := true }
    else { s with workNotified := true, caller := .notifying }
  | .notifying =>
    match s.trySend with
    | .ok =>
      { s.queueCommand .workAvailable with caller := .idle, answer := true }
    -- The queued control command already guarantees a wake.
    | .full => { s with caller := .unmarking }
    | .disconnected => { s with caller := .retracting }
  | .unmarking => { s with workNotified := false, caller := .idle, answer := true }
  | .retracting => { s with workNotified := false, caller := .withdrawing }
  | .withdrawing => { s with pendingSnapshot := none, caller := .burying }
  | .burying => { s with workerAlive := false, caller := .idle, answer := false }
  | .storing generation => { s with desiredGeneration := generation, caller := .announcing }
  | .announcing =>
    { s.queueCommand .desiredConfigurationChanged with
      caller := .idle
      answer := s.trySend ≠ .disconnected }
  | .waking => { s.queueCommand .workAvailable with caller := .idle, answer := true }
  | .dropDesired => { s with desiredConfiguration := none, caller := .dropPending }
  | .dropPending => { s with pendingSnapshot := none, caller := .dropNotified }
  | .dropNotified => { s with workNotified := false, caller := .dropGeneration }
  | .dropGeneration => { s with desiredGeneration := 0, caller := .dropClose }
  | .dropClose => { s.queueCommand .close with caller := .gone }
  | .idle | .gone => s

def tryLiveSnapshot (s : SnapshotLane ρ α) (snapshot : CompositionSnapshot) : SnapshotLane ρ α :=
  if s.shutdown then { s with answer := false } else { s with caller := .offering snapshot }

def tryConfigureSnapshot (s : SnapshotLane ρ α) (generation : Nat) (request : ρ) : SnapshotLane ρ α :=
  { s with desiredConfiguration := some ⟨generation, request⟩, caller := .storing generation }

/-- The receipt itself goes through an unbounded channel to the transport. -/
def tryAutoCommitReceipt (s : SnapshotLane ρ α) : SnapshotLane ρ α :=
  if s.receiver then { s with caller := .waking } else { s with answer := false }

/-- The input thread gives the lane up. -/
def drop (s : SnapshotLane ρ α) : SnapshotLane ρ α :=
  { s with shutdown := true, caller := .dropDesired, history := .closed :: s.history }

def nextDeadline (s : SnapshotLane ρ α) : Option Nat :=
  match s.retryAt, s.healthProbeAt with
  | some retry, some probe => some (min retry probe)
  | some retry, none => some retry
  | none, probe => probe

def due (s : SnapshotLane ρ α) (deadline : Option Nat) : Bool := deadline.any (· ≤ s.now)

def runnableSnapshot (s : SnapshotLane ρ α) : Bool :=
  s.configurationGeneration ≠ 0 && (s.selectedReplaySnapshot.isSome || s.pendingSnapshot.isSome)

/-- A held snapshot is moved to the current connection when its configuration is the current one. -/
def rebound (s : SnapshotLane ρ α) (o : Offered) : Option Offered :=
  if o.configuration = s.configurationGeneration then some (o.reconnect s.connectionEpoch) else none

/-- The worker gives up the configuration of a failed stream, which it is about to invalidate. -/
def failStream (s : SnapshotLane ρ α) (attempts : Nat) (replay : Bool) : SnapshotLane ρ α :=
  { s with
    configurationGeneration := 0
    configureAttempts := attempts
    replayLatestSnapshot := replay
    phase := .invalidate s.configurationGeneration (s.policy.delay 1) }

def publish (s : SnapshotLane ρ α) (generation : Nat) (reply : TransportReply α) : SnapshotLane ρ α :=
  match reply.outcome with
  | .configured =>
    { s with
      configurationGeneration := generation
      configureAttempts := 0
      healthProbeAt := some (s.now + s.policy.healthProbeInterval)
      phase := .report (.configured generation s.connectionEpoch reply.learningIdentity) .rebind }
  | .retryableFailure =>
    { s with
      configurationGeneration := 0
      configureAttempts := min (s.configureAttempts + 1) (2 ^ 32 - 1)
      phase := .invalidate generation (s.policy.delay (min (s.configureAttempts + 1) (2 ^ 32 - 1))) }
  | .versionMismatch actual actualBoot =>
    { s with
      configurationGeneration := 0
      configureAttempts := 0
      connectionEpoch := s.connectionEpoch + 1
      retryAt := none
      healthProbeAt := none
      history := .invalidated (s.connectionEpoch + 1) :: s.history
      phase := .report (.versionMismatch generation (s.connectionEpoch + 1) actual actualBoot) .loop }

/-- What was accepted or under way when the configuration was lost is selected for a replay. -/
def rebind (s : SnapshotLane ρ α) : SnapshotLane ρ α :=
  let pendingReplay := s.pendingSnapshot.bind s.rebound
  let selectedReplay := s.selectedReplaySnapshot.bind s.rebound
  let attemptedReplay := if s.replayLatestSnapshot then s.latestSnapshot.bind s.rebound else none
  { s with
    pendingSnapshot := none
    selectedReplaySnapshot := (pendingReplay.or selectedReplay).or attemptedReplay
    replayLatestSnapshot := false
    phase := .loop }

/-- The snapshot that the worker takes next. -/
def chosen (s : SnapshotLane ρ α) : Option Offered := s.selectedReplaySnapshot.or s.pendingSnapshot

/-- The chosen snapshot is gone from where it was. -/
def unchoose (s : SnapshotLane ρ α) : SnapshotLane ρ α :=
  if s.selectedReplaySnapshot.isSome then { s with selectedReplaySnapshot := none }
  else { s with pendingSnapshot := none }

/-- The chosen snapshot goes on to the engine when both of its stamps are the current ones. -/
def take (s : SnapshotLane ρ α) : SnapshotLane ρ α :=
  match s.chosen with
  | some o =>
    if o.configuration = s.configurationGeneration ∧ o.connection = s.connectionEpoch then
      { s.unchoose with latestSnapshot := some o, phase := .gate (.drainAgain o) }
    else { s.unchoose with phase := .loop }
  | none => { s with phase := .loop }

/-- The worker receives a command. -/
def receive (s : SnapshotLane ρ α) (command : SnapshotCommand) (woken : SnapshotPhase ρ α) :
    SnapshotLane ρ α :=
  let s := { s with commands := s.commands.drop 1 }
  match command with
  | .close => { s with phase := .leave }
  | .desiredConfigurationChanged => { s with phase := .loop }
  | .workAvailable => { s with phase := .unmark woken }

/-- The worker's next step. -/
def work (s : SnapshotLane ρ α) (reply : TransportReply α) : SnapshotLane ρ α :=
  match s.phase with
  | .gate next => { s with phase := if s.shutdown then .leave else next }
  | .adopt second =>
    match s.desiredConfiguration with
    | some desired => { s with desiredConfiguration := none, phase := .raise second desired }
    | none => { s with phase := .gate (if second then .drain else .tryReceive) }
  | .raise second desired =>
    { s with
      desiredGeneration := max s.desiredGeneration desired.generation
      latestConfiguration := some (desired.generation, desired.request)
      configurationGeneration := 0
      configureAttempts := 0
      retryAt := some s.now
      healthProbeAt := none
      history := .adopted desired.generation :: s.history
      phase := .gate (if second then .drain else .tryReceive) }
  | .tryReceive =>
    match s.commands with
    | command :: _ => s.receive command (.retryDue true)
    | [] => { s with phase := if s.caller = .gone then .leave else .retryDue false }
  | .unmark next => { s with workNotified := false, phase := next }
  | .retryDue woken =>
    if s.due s.retryAt then
      { s with
        retryAt := none
        phase :=
          match s.latestConfiguration with
          | some (generation, request) => .compare generation request
          | none => .loop }
    else { s with phase := .healthDue woken }
  | .compare generation request =>
    { s with
      phase := if s.desiredGeneration ≠ generation then .loop else .gate (.configure generation request) }
  | .configure generation _ =>
    { s with
      history := .configured generation s.connectionEpoch reply.outcome :: s.history
      phase := .gate (.publish generation reply) }
  | .publish generation reply => s.publish generation reply
  | .report status next =>
    { s with statuses := forcePush snapshotStatusCapacity s.statuses status, phase := next }
  | .rebind => s.rebind
  | .healthDue woken =>
    { s with phase := if s.due s.healthProbeAt then .gate .probe else .decide woken }
  | .probe => { s with phase := .gate (.probed reply.healthy) }
  | .probed true =>
    { s with healthProbeAt := some (s.now + s.policy.healthProbeInterval), phase := .loop }
  | .probed false => s.failStream 1 s.latestSnapshot.isSome
  | .invalidate failed delay =>
    { s with
      connectionEpoch := s.connectionEpoch + 1
      history := .invalidated (s.connectionEpoch + 1) :: s.history
      phase := .report (.invalidated failed (s.connectionEpoch + 1)) (.gate (.recover delay)) }
  | .recover delay => { s with phase := .gate (.schedule delay) }
  | .schedule delay =>
    { s with retryAt := some (s.now + delay), healthProbeAt := none, phase := .loop }
  | .decide woken =>
    { s with phase := if !woken && !s.runnableSnapshot then .wait else .gate (.adopt true) }
  | .wait =>
    match s.commands with
    | command :: _ => s.receive command (.gate (.adopt true))
    | [] =>
      if s.caller = .gone then { s with phase := .leave }
      else if s.due s.nextDeadline then { s with phase := .loop }
      else s
  | .drain =>
    if s.configurationGeneration = 0 then { s with phase := .loop }
    else if reply.receiptsDelivered then { s with phase := .take }
    else s.failStream 0 s.latestSnapshot.isSome
  | .take => s.take
  | .drainAgain o =>
    if reply.receiptsDelivered then { s with phase := .convert o } else s.failStream 0 true
  | .convert o =>
    { s with history := .converted o :: s.history, phase := .gate (.converted reply.result) }
  | .converted (some result) => { s with results := forcePush 1 s.results result, phase := .loop }
  | .converted none => s.failStream 0 true
  | .leave =>
    { s with
      connectionEpoch := s.connectionEpoch + 1
      history := .invalidated (s.connectionEpoch + 1) :: s.history
      phase := .disconnect }
  | .disconnect => { s with receiver := false, phase := .bury }
  | .bury => { s with workerAlive := false, phase := .clearPending }
  | .clearPending => { s with pendingSnapshot := none, phase := .clearNotified }
  | .clearNotified => { s with workNotified := false, phase := .stopped }
  | .stopped => s

/-- A step of the system: time passes, the input thread starts a call or goes on with one, or the
worker takes its next step with what the transport answers in it. -/
inductive SnapshotOp (ρ α : Type) where
  | tick (elapsed : Nat)
  | readConnection
  | tryLiveSnapshot (snapshot : CompositionSnapshot)
  | tryConfigureSnapshot (generation : Nat) (request : ρ)
  | tryAutoCommitReceipt
  | trySnapshotStatus
  | tryResult
  | drop
  | proceed
  | work (reply : TransportReply α)
  deriving DecidableEq, Repr

/-- A call starts only when the input thread is in none; the snapshot it offers carries the connection
epoch that it has read. -/
def step (s : SnapshotLane ρ α) : SnapshotOp ρ α → SnapshotLane ρ α
  | .tick elapsed => { s with now := s.now + elapsed }
  | .readConnection =>
    if s.caller = .idle then { s with seenEpoch := s.connectionEpoch } else s
  | .tryLiveSnapshot snapshot =>
    if s.caller = .idle then
      s.tryLiveSnapshot { snapshot with
        identity := { snapshot.identity with connectionGeneration := s.seenEpoch } }
    else s
  | .tryConfigureSnapshot generation request =>
    if s.caller = .idle then s.tryConfigureSnapshot generation request else s
  | .tryAutoCommitReceipt => if s.caller = .idle then s.tryAutoCommitReceipt else s
  | .trySnapshotStatus => if s.caller = .idle then { s with statuses := s.statuses.drop 1 } else s
  | .tryResult => if s.caller = .idle then { s with results := s.results.drop 1 } else s
  | .drop => if s.caller = .idle then s.drop else s
  | .proceed => s.proceed
  | .work reply => s.work reply

end SnapshotLane

end Nospacekey
