import Nospacekey.Library.Runs
import Nospacekey.Library.Table
import Mathlib.Algebra.Ring.Nat

/-! The maintenance lane of the engine: a bounded queue of jobs, and one waiting job for each label. -/

namespace Nospacekey

open Runs

/-- The lane that a job is taken from. -/
inductive MaintenanceLane where
  | submitted
  | latest
  deriving DecidableEq, Repr

structure MaintenanceJob (κ ω : Type) where
  lane : MaintenanceLane
  label : κ
  work : ω
  deriving DecidableEq, Repr

structure BackgroundMaintenance (κ ω : Type) where
  capacity : Nat
  pending : List (κ × ω)
  coalesced : Table κ ω
  coalescedOrder : List κ
  /-- The jobs that wait for their deadline. -/
  delayed : Table κ (Nat × ω)
  preferCoalesced : Bool
  running : Bool
  dropped : Nat
  failed : Nat
  /-- The deadline that the timer is set to, if any. -/
  delayedTimer : Option Nat
  /-- How many drains the serial queue has still to start. -/
  drains : Nat

/-- What one lock region of a drain decides. -/
inductive DrainStep (κ ω : Type) where
  | run (job : MaintenanceJob κ ω)
  | skip
  | stop

namespace BackgroundMaintenance

variable {κ ω : Type} [DecidableEq κ]

/-- The lane before its first job. -/
def new (capacity : Nat) : BackgroundMaintenance κ ω where
  capacity := max 1 capacity
  pending := []
  coalesced := ∅
  coalescedOrder := []
  delayed := ∅
  preferCoalesced := true
  running := false
  dropped := 0
  failed := 0
  delayedTimer := none
  drains := 0

/-- A request that is refused is counted. -/
def drop (s : BackgroundMaintenance κ ω) : BackgroundMaintenance κ ω :=
  { s with dropped := (s.dropped + 1) % 2 ^ 64 }

/-- A job that is ready starts a drain, unless one is on its way. -/
def start (s : BackgroundMaintenance κ ω) : BackgroundMaintenance κ ω :=
  if s.running then s else { s with running := true, drains := s.drains + 1 }

/-- The number of labels for which a job waits. -/
def labelCount (s : BackgroundMaintenance κ ω) : Nat := s.coalesced.entries.length + s.delayed.entries.length

def submit (s : BackgroundMaintenance κ ω) (label : κ) (work : ω) : BackgroundMaintenance κ ω × Bool :=
  if s.capacity ≤ s.pending.length then (s.drop, false)
  else ({ s with pending := s.pending ++ [(label, work)] }.start, true)

def scheduleNextDelayed (s : BackgroundMaintenance κ ω) : BackgroundMaintenance κ ω :=
  { s with delayedTimer := (s.delayed.values.map Prod.fst).min? }

/-- An immediate job for a label takes the place of a delayed one. -/
def withdrawDelayed (s : BackgroundMaintenance κ ω) (label : κ) : BackgroundMaintenance κ ω :=
  if (s.delayed.lookup label).isSome then { s with delayed := s.delayed.erase label }.scheduleNextDelayed else s

def submitLatest (s : BackgroundMaintenance κ ω) (label : κ) (work : ω) : BackgroundMaintenance κ ω × Bool :=
  let s := s.withdrawDelayed label
  if (s.coalesced.lookup label).isSome then ({ s with coalesced := s.coalesced.insert label work }, true)
  else if s.capacity ≤ s.labelCount then (s.drop, false)
  else
    ({ s with
        coalesced := s.coalesced.insert label work
        coalescedOrder := s.coalescedOrder ++ [label] }.start, true)

def submitLatestAfter (s : BackgroundMaintenance κ ω) (label : κ) (deadline : Nat) (work : ω) :
    BackgroundMaintenance κ ω × Bool :=
  if (s.coalesced.lookup label).isSome then (s, false)
  else if (s.delayed.lookup label).isNone && s.capacity ≤ s.labelCount then (s.drop, false)
  else ({ s with delayed := s.delayed.insert label (deadline, work) }.scheduleNextDelayed, true)

/-- The labels whose deadline has come. -/
def due (s : BackgroundMaintenance κ ω) (now : Nat) : List κ :=
  (s.delayed.entries.filter fun entry => entry.2.1 ≤ now).map Sigma.fst

/-- A delayed job becomes ready, unless an immediate one is. -/
def promote (s : BackgroundMaintenance κ ω) (label : κ) : BackgroundMaintenance κ ω :=
  match s.delayed.lookup label with
  | none => s
  | some (_, work) =>
    let s := { s with delayed := s.delayed.erase label }
    if (s.coalesced.lookup label).isNone then
      { s with coalesced := s.coalesced.insert label work, coalescedOrder := s.coalescedOrder ++ [label] }
    else s

/-- The due jobs become ready in the order in which the dictionary lists them. A drain then goes on inline. -/
def promoteDueDelayed (s : BackgroundMaintenance κ ω) (listed : List κ) : BackgroundMaintenance κ ω × Bool :=
  let s := (listed.foldl promote s).scheduleNextDelayed
  let shouldStart := !listed.isEmpty && !s.running && !s.coalesced.entries.isEmpty
  (if shouldStart then { s with running := true } else s, shouldStart)

/-- The first label of the order and its job are taken. -/
def takeCoalesced (s : BackgroundMaintenance κ ω) : BackgroundMaintenance κ ω × DrainStep κ ω :=
  match s.coalescedOrder with
  | [] => (s, .skip)
  | label :: order =>
    ({ s with coalescedOrder := order, coalesced := s.coalesced.erase label, preferCoalesced := false },
      match s.coalesced.lookup label with
      | some work => .run ⟨.latest, label, work⟩
      | none => .skip)

/-- One lock region of a drain. The two lanes take turns. -/
def drainStep (s : BackgroundMaintenance κ ω) : BackgroundMaintenance κ ω × DrainStep κ ω :=
  if !s.coalescedOrder.isEmpty && (s.preferCoalesced || s.pending.isEmpty) then s.takeCoalesced
  else
    match s.pending with
    | (label, work) :: pending =>
      ({ s with pending := pending, preferCoalesced := true }, .run ⟨.submitted, label, work⟩)
    | [] => if !s.coalescedOrder.isEmpty then s.takeCoalesced else ({ s with running := false }, .stop)

end BackgroundMaintenance

/-- What the serial queue is at. -/
inductive MaintenanceWorker (κ ω : Type) where
  | idle
  | draining
  | working (job : MaintenanceJob κ ω)
  deriving DecidableEq, Repr

/-- What happens to the lane. Callers come at any time, and the queue does one thing after the other. -/
inductive MaintenanceOp (κ ω : Type) where
  | submit (label : κ) (work : ω)
  | submitLatest (label : κ) (work : ω)
  | submitLatestAfter (label : κ) (deadline : Nat) (work : ω)
  | promoteDueDelayed (now : Nat) (listed : List κ)
  | startDrain
  | drainStep
  | finish (failed : Bool)

/-- The lane with its queue, the requests that were accepted and the jobs that were run. -/
structure MaintenanceRun (κ ω : Type) where
  lane : BackgroundMaintenance κ ω
  worker : MaintenanceWorker κ ω
  submitted : List (κ × ω)
  latest : List (κ × ω)
  ran : List (MaintenanceJob κ ω)

namespace MaintenanceRun

variable {κ ω : Type} [DecidableEq κ]

/-- Nothing is accepted before the first request. -/
def new (capacity : Nat) : MaintenanceRun κ ω := ⟨.new capacity, .idle, [], [], []⟩

/-- One lock region, or the end of a job. -/
def step (s : MaintenanceRun κ ω) : MaintenanceOp κ ω → MaintenanceRun κ ω
  | .submit label work =>
    { s with
      lane := (s.lane.submit label work).1
      submitted := if (s.lane.submit label work).2 then s.submitted ++ [(label, work)] else s.submitted }
  | .submitLatest label work =>
    { s with
      lane := (s.lane.submitLatest label work).1
      latest := if (s.lane.submitLatest label work).2 then s.latest ++ [(label, work)] else s.latest }
  | .submitLatestAfter label deadline work =>
    { s with
      lane := (s.lane.submitLatestAfter label deadline work).1
      latest := if (s.lane.submitLatestAfter label deadline work).2 then s.latest ++ [(label, work)] else s.latest }
  | .promoteDueDelayed _ listed =>
    { s with
      lane := (s.lane.promoteDueDelayed listed).1
      worker := if (s.lane.promoteDueDelayed listed).2 then .draining else s.worker }
  | .startDrain => { s with lane := { s.lane with drains := s.lane.drains - 1 }, worker := .draining }
  | .drainStep =>
    match s.lane.drainStep with
    | (lane, .run job) => { s with lane := lane, worker := .working job, ran := s.ran ++ [job] }
    | (lane, .skip) => { s with lane := lane }
    | (lane, .stop) => { s with lane := lane, worker := .idle }
  | .finish failed =>
    { s with
      lane := { s.lane with failed := if failed then (s.lane.failed + 1) % 2 ^ 64 else s.lane.failed }
      worker := .draining }

/-- The queue starts a block only when it is idle, and the timer lists the jobs that are due, in some order. -/
def Allowed (s : MaintenanceRun κ ω) : MaintenanceOp κ ω → Prop
  | .promoteDueDelayed now listed => s.worker = .idle ∧ listed.Perm (s.lane.due now)
  | .startDrain => s.worker = .idle ∧ 0 < s.lane.drains
  | .drainStep => s.worker = .draining
  | .finish _ => ∃ job, s.worker = .working job
  | _ => True

/-- The job that the next lock region of a drain takes. -/
def takes (s : MaintenanceRun κ ω) : Option (MaintenanceJob κ ω) :=
  match s.lane.drainStep.2 with
  | .run job => some job
  | _ => none

end MaintenanceRun

end Nospacekey
