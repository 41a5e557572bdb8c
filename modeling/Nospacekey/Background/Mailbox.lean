import Nospacekey.Input.Module

/-! The mailbox between the input thread and the worker that owns the engine's private session. -/

namespace Nospacekey

namespace BackgroundMailbox

def dirty : Nat := 0

def reseedQueued : Nat := 1

def synced : Nat := 2

def terminal : Nat := 3

/-- A generation and a phase in one 64-bit word. -/
def encode (generation phase : Nat) : Nat := (generation <<< 2) % 2 ^ 64 ||| phase

def generation (state : Nat) : Nat := state >>> 2

def phase (state : Nat) : Nat := state &&& 3

/-- The generation that follows the one of a state. -/
def nextGeneration (current : Nat) : Nat := u64WrappingSucc (generation current)

end BackgroundMailbox

open BackgroundMailbox

inductive WorkerIntent where
  | insert (request : Nat) (segments : List InputSegment) (reseed : Bool)
  | commitAndClose
  | close
  deriving DecidableEq, Repr

namespace WorkerIntent

def isReseed : WorkerIntent → Bool
  | .insert _ _ reseed => reseed
  | _ => false

def isCommitAndClose : WorkerIntent → Bool
  | .commitAndClose => true
  | _ => false

def isClose : WorkerIntent → Bool
  | .close => true
  | _ => false

end WorkerIntent

structure QueuedIntent where
  generation : Nat
  intent : WorkerIntent
  deriving DecidableEq, Repr

/-- Where the input thread stands in a call. A loop of compare-and-swaps takes effect in its last,
successful one, and is one step here. -/
inductive Producer where
  | idle
  | enqueueing (queued : QueuedIntent)
  /-- The call has failed for a generation and goes on with a close. -/
  | retreating (generation : Nat)
  /-- The generation is raised; what the worker has open before it must be closed. The flag tells
  that the mailbox is dropped with this call. -/
  | closing (next : Nat) (last : Bool)
  | announcing (next : Nat) (last : Bool)
  | gone
  deriving DecidableEq, Repr

/-- Where the worker thread stands in its loop. -/
inductive MailboxWorker where
  | looping
  | receiving
  | received (queued : QueuedIntent)
  /-- The generation of the intent was compared with the current one, and was equal. -/
  | checked (queued : QueuedIntent)
  | applied (queued : QueuedIntent)
  | failed (queued : QueuedIntent)
  | raised (next : Nat)
  | retiring
  | returned
  deriving DecidableEq, Repr

/-- The intents that the worker has received and not yet handled. -/
def MailboxWorker.held : MailboxWorker → List QueuedIntent
  | .received queued | .checked queued => [queued]
  | _ => []

/-- The state that the two threads share, where each of them stands, and the record of what was sent,
handled and applied. -/
structure BackgroundMailbox where
  capacity : Nat
  pipeline : Nat
  closeBeforeGeneration : Nat
  rejected : Nat
  channel : List QueuedIntent
  producer : Producer
  /-- What the last call of the input thread returned. -/
  answer : Bool
  worker : MailboxWorker
  workerGeneration : Nat
  /-- The intents that were applied in the open session, the first one first. -/
  session : List QueuedIntent
  /-- The sessions that were closed. -/
  sessions : List (List QueuedIntent)
  /-- The intents that the channel has accepted, the first one first. -/
  sent : List QueuedIntent
  /-- The intents that the worker has dropped, performed or failed to apply. -/
  handled : List QueuedIntent
  /-- The generations that a rejected push, a failed intent or a close has left behind. -/
  spoiled : List Nat
  /-- The generations for which a reseed was started. -/
  reseeded : List Nat
  /-- How often the generation was raised. -/
  raises : Nat
  deriving DecidableEq, Repr

namespace BackgroundMailbox

/-- The mailbox of `bounded_mailbox`, whose worker has just started. -/
def start (capacity : Nat) : BackgroundMailbox where
  capacity := capacity
  pipeline := encode 1 dirty
  closeBeforeGeneration := 0
  rejected := 0
  channel := []
  producer := .idle
  answer := true
  worker := .looping
  workerGeneration := 0
  session := []
  sessions := []
  sent := []
  handled := []
  spoiled := []
  reseeded := []
  raises := 0

def needsReseed (s : BackgroundMailbox) : Bool := phase s.pipeline = dirty

/-- The worker closes its session with the engine. -/
def closeTransport (s : BackgroundMailbox) : BackgroundMailbox :=
  { s with session := [], sessions := s.session :: s.sessions }

/-- The generation is raised, and the next one needs a reseed. -/
def advanceToDirty (s : BackgroundMailbox) : BackgroundMailbox :=
  { s with pipeline := encode (nextGeneration s.pipeline) dirty, raises := s.raises + 1 }

/-- The start of a close, after a call has given up the generations that are named. -/
def requestClose (s : BackgroundMailbox) (spoiled : List Nat) (last : Bool) : BackgroundMailbox :=
  { s.advanceToDirty with
    producer := .closing (nextGeneration s.pipeline) last
    spoiled := spoiled ++ generation s.pipeline :: s.spoiled }

def tryReseed (s : BackgroundMailbox) (request : Nat) (segments : List InputSegment) : BackgroundMailbox :=
  if phase s.pipeline ≠ dirty then { s with answer := false }
  else
    { s with
      pipeline := encode (generation s.pipeline) reseedQueued
      producer := .enqueueing ⟨generation s.pipeline, .insert request segments true⟩
      reseeded := generation s.pipeline :: s.reseeded }

def tryDelta (s : BackgroundMailbox) (intent : WorkerIntent) : BackgroundMailbox :=
  if phase s.pipeline = reseedQueued || phase s.pipeline = synced then
    { s with producer := .enqueueing ⟨generation s.pipeline, intent⟩ }
  else { s with answer := false }

def tryCommitAndClose (s : BackgroundMailbox) : BackgroundMailbox :=
  if phase s.pipeline = reseedQueued || phase s.pipeline = synced then
    { s with
      pipeline := encode (generation s.pipeline) terminal
      producer := .enqueueing ⟨generation s.pipeline, .commitAndClose⟩ }
  else { s with producer := .retreating (generation s.pipeline) }

/-- Whether the channel takes another intent. -/
def accepts (s : BackgroundMailbox) : Bool := s.channel.length < s.capacity && s.worker ≠ .returned

/-- The input thread goes on with its call. -/
def proceed (s : BackgroundMailbox) : BackgroundMailbox :=
  match s.producer with
  | .enqueueing queued =>
    if s.accepts then
      { s with channel := s.channel ++ [queued], sent := s.sent ++ [queued], producer := .idle, answer := true }
    else { s with rejected := s.rejected + 1, producer := .retreating queued.generation }
  | .retreating generation => { s.requestClose [generation] false with answer := false }
  | .closing next last =>
    { s with closeBeforeGeneration := max s.closeBeforeGeneration next, producer := .announcing next last }
  | .announcing next last =>
    let s := { s with producer := if last then .gone else .idle }
    -- A full channel needs no announcement: the worker compares generations.
    if s.accepts then
      { s with channel := s.channel ++ [⟨next, .close⟩], sent := s.sent ++ [⟨next, .close⟩] }
    else s
  | _ => s

/-- The worker closes a session that must not outlive a raised generation. -/
def look (s : BackgroundMailbox) : BackgroundMailbox :=
  if s.workerGeneration ≠ 0 && s.workerGeneration < s.closeBeforeGeneration then
    { s.closeTransport with workerGeneration := 0, worker := .receiving }
  else { s with worker := .receiving }

/-- The worker takes the next intent, or learns that the mailbox is gone. -/
def receive (s : BackgroundMailbox) : BackgroundMailbox :=
  match s.channel with
  | queued :: channel => { s with channel := channel, rejected := 0, worker := .received queued }
  | [] => if s.producer = .gone then { s.closeTransport with rejected := 0, worker := .returned } else s

/-- The worker compares the generation of the intent with the current one. -/
def check (s : BackgroundMailbox) (queued : QueuedIntent) : BackgroundMailbox :=
  if queued.generation ≠ generation s.pipeline then
    { s with worker := .looping, handled := s.handled ++ [queued] }
  else if queued.intent.isClose then
    { s.closeTransport with workerGeneration := 0, worker := .looping, handled := s.handled ++ [queued] }
  else { s with worker := .checked queued }

/-- The worker applies the intent, in a fresh session when its generation is another one. -/
def apply (s : BackgroundMailbox) (queued : QueuedIntent) (succeeds : Bool) : BackgroundMailbox :=
  let s :=
    if s.workerGeneration ≠ queued.generation then
      { s.closeTransport with workerGeneration := queued.generation }
    else s
  if succeeds then
    { s with worker := .applied queued, session := s.session ++ [queued], handled := s.handled ++ [queued] }
  else { s with worker := .failed queued, handled := s.handled ++ [queued] }

def markWorkerFailed (s : BackgroundMailbox) (failed : QueuedIntent) : BackgroundMailbox :=
  if generation s.pipeline ≠ failed.generation then
    { s with worker := .retiring, spoiled := failed.generation :: s.spoiled }
  else
    { s.advanceToDirty with
      worker := .raised (nextGeneration s.pipeline)
      spoiled := failed.generation :: s.spoiled }

/-- The worker publishes an applied reseed, and closes the session after a commit. -/
def finish (s : BackgroundMailbox) (queued : QueuedIntent) : BackgroundMailbox :=
  let s := { s with
    worker := .looping
    pipeline :=
      if queued.intent.isReseed && s.pipeline = encode queued.generation reseedQueued then
        encode queued.generation synced
      else s.pipeline }
  if queued.intent.isCommitAndClose then { s.closeTransport with workerGeneration := 0 } else s

/-- A step of one of the two threads: a call that the input thread starts, its next step in a call, a
timeout of the worker, or the worker's next step. -/
inductive MailboxOp where
  | beginComposition
  | tryReseed (request : Nat) (segments : List InputSegment)
  | tryInsert (request : Nat) (segments : List InputSegment)
  | tryCommitAndClose
  | requestClose
  | drop
  | proceed
  | timeout
  | work (succeeds : Bool)
  deriving DecidableEq, Repr

/-- The worker's next step. -/
def work (s : BackgroundMailbox) (succeeds : Bool) : BackgroundMailbox :=
  match s.worker with
  | .looping => s.look
  | .receiving => s.receive
  | .received queued => s.check queued
  | .checked queued => s.apply queued succeeds
  | .applied queued => s.finish queued
  | .failed queued => s.markWorkerFailed queued
  | .raised next =>
    { s with closeBeforeGeneration := max s.closeBeforeGeneration next, worker := .retiring }
  | .retiring => { s.closeTransport with workerGeneration := 0, worker := .looping }
  | .returned => s

/-- A step of the system; a call starts only when the input thread is in none. -/
def step (s : BackgroundMailbox) : MailboxOp → BackgroundMailbox
  | .beginComposition => if s.producer = .idle then s.advanceToDirty else s
  | .tryReseed request segments => if s.producer = .idle then s.tryReseed request segments else s
  | .tryInsert request segments =>
    if s.producer = .idle then s.tryDelta (.insert request segments false) else s
  | .tryCommitAndClose => if s.producer = .idle then s.tryCommitAndClose else s
  | .requestClose => if s.producer = .idle then s.requestClose [] false else s
  | .drop => if s.producer = .idle then s.requestClose [] true else s
  | .proceed => s.proceed
  | .timeout => if s.worker = .receiving then { s with rejected := 0, worker := .looping } else s
  | .work succeeds => s.work succeeds

end BackgroundMailbox

end Nospacekey
