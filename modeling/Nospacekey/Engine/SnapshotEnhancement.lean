import Nospacekey.Engine.EngineHost
import Nospacekey.Library.Runs

/-! The better conversion of a snapshot: evaluated by one worker in the background, and polled by the client. -/

namespace Nospacekey

open Runs

/-- What is to be evaluated: the snapshot that asked for it, the baseline it was answered under and its content. -/
structure SnapshotEnhancementWork (ω : Type) where
  key : SnapshotEnhancementKey
  baseline : Nat
  content : ω

structure CompletedSnapshotEnhancement where
  key : SnapshotEnhancementKey
  baseline : Nat
  result : SnapshotEnhancementPoll

/-- The slots that the enhancement lock guards, and the counter of the baselines. -/
structure SnapshotEnhancements (ω : Type) where
  nextClauseBaseline : Nat
  desiredSnapshotEnhancement : Option (SnapshotEnhancementWork ω)
  latestSnapshotEnhancement : Option (SnapshotEnhancementKey × Nat)
  completedSnapshotEnhancement : Option CompletedSnapshotEnhancement
  snapshotEnhancementRunning : Bool

/-- The answer carries a conversion. -/
def SnapshotEnhancementPoll.isReady : SnapshotEnhancementPoll → Bool
  | .ready .. => true
  | _ => false

namespace SnapshotEnhancements

variable {ω : Type}

/-- The slots before the first snapshot. -/
def new : SnapshotEnhancements ω := ⟨0, none, none, none, false⟩

/-- The answer to a poll. A result is handed out once. -/
def pollSnapshotEnhancement (s : SnapshotEnhancements ω) (key : SnapshotEnhancementKey) (baseline : Nat) :
    SnapshotEnhancements ω × SnapshotEnhancementPoll :=
  if s.latestSnapshotEnhancement = some (key, baseline) then
    match s.completedSnapshotEnhancement with
    | some completed =>
      if completed.key = key ∧ completed.baseline = baseline then
        ({ s with completedSnapshotEnhancement := none }, completed.result)
      else (s, .pending)
    | none => (s, .pending)
  else (s, .unavailable)

/-- New work takes the place of all earlier work. A thread is detached when none is there. -/
def enqueueSnapshotEnhancement (s : SnapshotEnhancements ω) (reranks : Bool) (work : SnapshotEnhancementWork ω) :
    SnapshotEnhancements ω × Bool :=
  if reranks then
    ({ s with
        latestSnapshotEnhancement := some (work.key, work.baseline)
        completedSnapshotEnhancement := none
        desiredSnapshotEnhancement := some work
        snapshotEnhancementRunning := true },
      !s.snapshotEnhancementRunning)
  else (s, false)

/-- A snapshot is answered under a new baseline, as long as there is one. One that came with a key asks for more. -/
def snapshot (s : SnapshotEnhancements ω) (key : Option SnapshotEnhancementKey) (reranks : Bool) (content : ω) :
    SnapshotEnhancements ω × Bool :=
  if s.nextClauseBaseline < 2 ^ 64 - 1 then
    let s := { s with nextClauseBaseline := s.nextClauseBaseline + 1 }
    match key with
    | some key => s.enqueueSnapshotEnhancement reranks ⟨key, s.nextClauseBaseline, content⟩
    | none => (s, false)
  else (s, false)

/-- The work that the worker is to evaluate next. Without one it gives up. -/
def takeDesired (s : SnapshotEnhancements ω) : SnapshotEnhancements ω × Option (SnapshotEnhancementWork ω) :=
  match s.desiredSnapshotEnhancement with
  | none => ({ s with snapshotEnhancementRunning := false }, none)
  | some work => ({ s with desiredSnapshotEnhancement := none }, some work)

/-- A result is kept while its work is the latest. -/
def complete (s : SnapshotEnhancements ω) (work : SnapshotEnhancementWork ω) (result : SnapshotEnhancementPoll) :
    SnapshotEnhancements ω :=
  if s.latestSnapshotEnhancement = some (work.key, work.baseline) then
    { s with completedSnapshotEnhancement := some ⟨work.key, work.baseline, result⟩ }
  else s

end SnapshotEnhancements

/-- Where a thread that runs enhancements stands. -/
inductive EnhancementWorker (ω : Type) where
  | taking
  | evaluating (work : SnapshotEnhancementWork ω)

/-- What happens to the slots: a snapshot, one of the two lock regions of a thread, or a poll. -/
inductive EnhancementOp (ω ε : Type) where
  | snapshot (key : Option SnapshotEnhancementKey) (reranks : Bool) (content : ω)
  | take (worker : Nat)
  | finish (worker : Nat) (world : ε)
  | poll (key : SnapshotEnhancementKey) (baseline : Nat)

/-- What is remembered of a run. -/
inductive EnhancementEvent (ω ε : Type) where
  | enqueued (work : SnapshotEnhancementWork ω)
  | evaluated (work : SnapshotEnhancementWork ω) (world : ε)
  | polled (key : SnapshotEnhancementKey) (baseline : Nat) (answer : SnapshotEnhancementPoll)

/-- The work that an event enqueues. -/
def EnhancementEvent.work {ω ε : Type} : EnhancementEvent ω ε → Option (SnapshotEnhancementWork ω)
  | .enqueued work => some work
  | _ => none

/-- The slots, the threads that have not returned, and what has happened so far. -/
structure EnhancementRun (ω ε : Type) where
  slots : SnapshotEnhancements ω
  workers : List (EnhancementWorker ω)
  events : List (EnhancementEvent ω ε)

namespace EnhancementRun

variable {ω ε : Type} (evaluate : SnapshotEnhancementWork ω → ε → SnapshotEnhancementPoll)

/-- No thread runs before the first snapshot. -/
def new : EnhancementRun ω ε := ⟨.new, [], []⟩

/-- One operation. A thread evaluates outside the lock, so that anything may happen between its two lock regions. -/
def step (s : EnhancementRun ω ε) : EnhancementOp ω ε → EnhancementRun ω ε
  | .snapshot key reranks content =>
    { slots := (s.slots.snapshot key reranks content).1
      workers := if (s.slots.snapshot key reranks content).2 then s.workers ++ [.taking] else s.workers
      events :=
        match key, reranks, decide (s.slots.nextClauseBaseline < 2 ^ 64 - 1) with
        | some key, true, true => s.events ++ [.enqueued ⟨key, s.slots.nextClauseBaseline + 1, content⟩]
        | _, _, _ => s.events }
  | .take worker =>
    match s.workers[worker]? with
    | some .taking =>
      match s.slots.takeDesired with
      | (slots, some work) => { s with slots := slots, workers := s.workers.set worker (.evaluating work) }
      | (slots, none) => { s with slots := slots, workers := s.workers.eraseIdx worker }
    | _ => s
  | .finish worker world =>
    match s.workers[worker]? with
    | some (.evaluating work) =>
      { slots := s.slots.complete work (evaluate work world)
        workers := s.workers.set worker .taking
        events := s.events ++ [.evaluated work world] }
    | _ => s
  | .poll key baseline =>
    { s with
      slots := (s.slots.pollSnapshotEnhancement key baseline).1
      events := s.events ++ [.polled key baseline (s.slots.pollSnapshotEnhancement key baseline).2] }

end EnhancementRun

/-- The newest work that has been enqueued. -/
def newestWork {ω ε : Type} (events : List (EnhancementEvent ω ε)) : Option (SnapshotEnhancementWork ω) :=
  (events.filterMap EnhancementEvent.work).getLast?

section Events

variable {ω ε : Type} {events : List (EnhancementEvent ω ε)}

/-- Enqueued work is the newest. -/
@[simp] theorem newestWork_enqueued (work : SnapshotEnhancementWork ω) :
    newestWork (events ++ [.enqueued work]) = some work := by
  simp [newestWork, EnhancementEvent.work]

/-- An evaluation enqueues nothing. -/
@[simp] theorem newestWork_evaluated (work : SnapshotEnhancementWork ω) (world : ε) :
    newestWork (events ++ [.evaluated work world]) = newestWork events := by
  simp [newestWork, EnhancementEvent.work]

/-- A poll enqueues nothing. -/
@[simp] theorem newestWork_polled (key : SnapshotEnhancementKey) (baseline : Nat) (answer : SnapshotEnhancementPoll) :
    newestWork (events ++ [.polled key baseline answer]) = newestWork events := by
  simp [newestWork, EnhancementEvent.work]

/-- The newest work has been enqueued. -/
theorem newestWork_mem {work : SnapshotEnhancementWork ω} (newest : newestWork events = some work) :
    .enqueued work ∈ events := by
  obtain ⟨event, member, found⟩ := List.mem_filterMap.mp (List.mem_of_getLast? newest)
  cases event with
  | enqueued other =>
    cases found
    exact member
  | evaluated => cases found
  | polled => cases found

end Events

namespace EnhancementRun

variable {ω ε : Type} {evaluate : SnapshotEnhancementWork ω → ε → SnapshotEnhancementPoll}

/-- No result has been handed out for the work. -/
def Undelivered (events : List (EnhancementEvent ω ε)) (work : SnapshotEnhancementWork ω) : Prop :=
  ∀ answer, .polled work.key work.baseline answer ∈ events → answer.isReady = false

/-- An answer that is justified by what has happened before the poll. -/
structure Justified (evaluate : SnapshotEnhancementWork ω → ε → SnapshotEnhancementPoll)
    (before : List (EnhancementEvent ω ε)) (key : SnapshotEnhancementKey) (baseline : Nat)
    (answer : SnapshotEnhancementPoll) : Prop where
  ready : answer.isReady → ∃ work world, newestWork before = some work ∧ work.key = key ∧ work.baseline = baseline ∧
    .evaluated work world ∈ before ∧ answer = evaluate work world ∧ Undelivered before work
  other : (∀ work, newestWork before = some work → (work.key, work.baseline) ≠ (key, baseline)) →
    answer = .unavailable

/-- Every poll of the history was justified when it came. -/
def History (evaluate : SnapshotEnhancementWork ω → ε → SnapshotEnhancementPoll)
    (events : List (EnhancementEvent ω ε)) : Prop :=
  ∀ before key baseline answer after, events = before ++ .polled key baseline answer :: after →
    Justified evaluate before key baseline answer

/-- How far the newest work has come. -/
inductive Stage (evaluate : SnapshotEnhancementWork ω → ε → SnapshotEnhancementPoll) (s : EnhancementRun ω ε)
    (work : SnapshotEnhancementWork ω) : Prop where
  | desired (worker : EnhancementWorker ω) (wanted : s.slots.desiredSnapshotEnhancement = some work)
      (running : s.workers = [worker]) (older : ∀ other, worker = .evaluating other → other.baseline < work.baseline)
      (empty : s.slots.completedSnapshotEnhancement = none) (undelivered : Undelivered s.events work)
  | evaluating (taken : s.slots.desiredSnapshotEnhancement = none) (running : s.workers = [.evaluating work])
      (empty : s.slots.completedSnapshotEnhancement = none) (undelivered : Undelivered s.events work)
  | stored (world : ε) (taken : s.slots.desiredSnapshotEnhancement = none)
      (resting : s.workers = [] ∨ s.workers = [.taking]) (evaluated : .evaluated work world ∈ s.events)
      (kept : s.slots.completedSnapshotEnhancement = some ⟨work.key, work.baseline, evaluate work world⟩)
      (undelivered : Undelivered s.events work)
  | delivered (world : ε) (taken : s.slots.desiredSnapshotEnhancement = none)
      (resting : s.workers = [] ∨ s.workers = [.taking]) (evaluated : .evaluated work world ∈ s.events)
      (empty : s.slots.completedSnapshotEnhancement = none)
      (polled : .polled work.key work.baseline (evaluate work world) ∈ s.events)

/-- What holds between any two operations. -/
structure Tracked (evaluate : SnapshotEnhancementWork ω → ε → SnapshotEnhancementPoll) (s : EnhancementRun ω ε) :
    Prop where
  latest : s.slots.latestSnapshotEnhancement = (newestWork s.events).map fun work => (work.key, work.baseline)
  running : s.slots.snapshotEnhancementRunning = !s.workers.isEmpty
  bounded : ∀ work, .enqueued work ∈ s.events → work.baseline ≤ s.slots.nextClauseBaseline
  untouched : newestWork s.events = none → s.workers = [] ∧ s.slots.desiredSnapshotEnhancement = none
  stage : ∀ work, newestWork s.events = some work → Stage evaluate s work
  history : History evaluate s.events

/-- Nothing has happened before the first snapshot. -/
theorem new_tracked : Tracked evaluate (new : EnhancementRun ω ε) where
  latest := rfl
  running := rfl
  bounded := fun _ member => by simp [new] at member
  untouched := fun _ => ⟨rfl, rfl⟩
  stage := fun _ newest => by simp [new, newestWork] at newest
  history := fun before key baseline answer after split => by simp [new] at split

/-- An event that is no poll keeps the history justified. -/
theorem History.snoc {events : List (EnhancementEvent ω ε)} (history : History evaluate events)
    {event : EnhancementEvent ω ε}
    (justified : ∀ key baseline answer, event = .polled key baseline answer →
      Justified evaluate events key baseline answer) : History evaluate (events ++ [event]) := by
  intro before key baseline answer after split
  -- The poll is the last event, or one of the earlier ones.
  rcases List.eq_nil_or_concat after with rfl | ⟨rest, last, rfl⟩
  · obtain ⟨rfl, same⟩ := List.append_inj' split rfl
    exact justified key baseline answer (by simpa using same)
  · have split : events ++ [event] = (before ++ .polled key baseline answer :: rest) ++ [last] := by simpa using split
    exact history before key baseline answer rest (List.append_inj' split rfl).1

/-- A poll that handed out a result was for work that has been enqueued. -/
theorem Tracked.ready_bounded {s : EnhancementRun ω ε} (tracked : Tracked evaluate s) {key : SnapshotEnhancementKey}
    {baseline : Nat} {answer : SnapshotEnhancementPoll} (member : .polled key baseline answer ∈ s.events)
    (ready : answer.isReady) : baseline ≤ s.slots.nextClauseBaseline := by
  obtain ⟨before, after, split⟩ := List.append_of_mem member
  obtain ⟨work, _, newest, _, rfl, _⟩ := (tracked.history before key baseline answer after split).ready ready
  refine tracked.bounded work ?_
  rw [split]
  exact List.mem_append_left _ (newestWork_mem newest)

/-- Work for which nothing was handed out stays so when another event is added. -/
theorem Undelivered.snoc {events : List (EnhancementEvent ω ε)} {work : SnapshotEnhancementWork ω}
    (undelivered : Undelivered events work) {event : EnhancementEvent ω ε}
    (quiet : ∀ answer, event = .polled work.key work.baseline answer → answer.isReady = false) :
    Undelivered (events ++ [event]) work := by
  intro answer member
  rcases List.mem_append.mp member with earlier | last
  · exact undelivered answer earlier
  · exact quiet answer (List.mem_singleton.mp last).symm

/-- A snapshot enqueues new work under a new baseline, or leaves everything but the counter. -/
theorem step_snapshot (s : EnhancementRun ω ε) (key : Option SnapshotEnhancementKey) (reranks : Bool) (content : ω) :
    (∃ next, s.slots.nextClauseBaseline ≤ next ∧
      s.step evaluate (.snapshot key reranks content) = { s with slots.nextClauseBaseline := next }) ∨
    ∃ work : SnapshotEnhancementWork ω, s.slots.nextClauseBaseline < work.baseline ∧
      s.step evaluate (.snapshot key reranks content) =
        { slots := ⟨work.baseline, some work, some (work.key, work.baseline), none, true⟩
          workers := if s.slots.snapshotEnhancementRunning then s.workers else s.workers ++ [.taking]
          events := s.events ++ [.enqueued work] } := by
  by_cases left : s.slots.nextClauseBaseline < 18446744073709551615
  · cases key with
    | none =>
      left
      refine ⟨s.slots.nextClauseBaseline + 1, by omega, ?_⟩
      simp [step, SnapshotEnhancements.snapshot, left]
    | some key =>
      cases reranks with
      | false =>
        left
        refine ⟨s.slots.nextClauseBaseline + 1, by omega, ?_⟩
        simp [step, SnapshotEnhancements.snapshot, SnapshotEnhancements.enqueueSnapshotEnhancement, left]
      | true =>
        right
        refine ⟨⟨key, s.slots.nextClauseBaseline + 1, content⟩, by simp, ?_⟩
        cases running : s.slots.snapshotEnhancementRunning <;>
          simp [step, SnapshotEnhancements.snapshot, SnapshotEnhancements.enqueueSnapshotEnhancement, left, running]
  · left
    -- No baseline is left.
    refine ⟨s.slots.nextClauseBaseline, le_rfl, ?_⟩
    simp [step, SnapshotEnhancements.snapshot, left]

/-- At most one thread is there, and it evaluates nothing newer than the newest work. -/
theorem Tracked.worker {s : EnhancementRun ω ε} (tracked : Tracked evaluate s) :
    s.workers = [] ∨ ∃ worker, s.workers = [worker] ∧
      ∀ work, worker = .evaluating work → work.baseline ≤ s.slots.nextClauseBaseline := by
  cases newest : newestWork s.events with
  | none => exact .inl (tracked.untouched newest).1
  | some work =>
    have bound := tracked.bounded work (newestWork_mem newest)
    cases tracked.stage work newest with
    | desired worker _ running older =>
      refine .inr ⟨worker, running, fun other evaluating => ?_⟩
      have := older other evaluating
      omega
    | evaluating _ running =>
      refine .inr ⟨_, running, fun other same => ?_⟩
      cases same
      exact bound
    | stored _ _ resting => exact resting.imp_right fun taking => ⟨.taking, taking, fun _ same => nomatch same⟩
    | delivered _ _ resting => exact resting.imp_right fun taking => ⟨.taking, taking, fun _ same => nomatch same⟩

/-- Enqueuing keeps a run tracked. -/
theorem Tracked.snapshot {s : EnhancementRun ω ε} (tracked : Tracked evaluate s)
    (key : Option SnapshotEnhancementKey) (reranks : Bool) (content : ω) :
    Tracked evaluate (s.step evaluate (.snapshot key reranks content)) := by
  rcases s.step_snapshot key reranks content with ⟨next, later, same⟩ | ⟨work, fresh, same⟩
  · rw [same]
    exact
      { tracked with
        bounded := fun work member => (tracked.bounded work member).trans later
        stage := fun work newest =>
          match tracked.stage work newest with
          | .desired worker wanted running older empty undelivered =>
            .desired worker wanted running older empty undelivered
          | .evaluating taken running empty undelivered => .evaluating taken running empty undelivered
          | .stored world taken resting evaluated kept undelivered =>
            .stored world taken resting evaluated kept undelivered
          | .delivered world taken resting evaluated empty polled =>
            .delivered world taken resting evaluated empty polled }
  · rw [same]
    -- The thread that is there stays, and otherwise one is detached.
    obtain ⟨worker, running, older⟩ : ∃ worker,
        (if s.slots.snapshotEnhancementRunning then s.workers else s.workers ++ [.taking]) = [worker] ∧
          ∀ other, worker = .evaluating other → other.baseline < work.baseline := by
      rw [tracked.running]
      rcases tracked.worker with none_there | ⟨worker, one, bound⟩
      · exact ⟨.taking, by simp [none_there], fun other evaluating => nomatch evaluating⟩
      · refine ⟨worker, by simp [one], fun other evaluating => ?_⟩
        have := bound other evaluating
        omega
    refine ⟨by simp, by simp [running], fun other member => ?_, fun newest => ?_, fun other newest => ?_,
      tracked.history.snoc fun _ _ _ poll => nomatch poll⟩
    · rcases List.mem_append.mp member with earlier | last
      · have := tracked.bounded other earlier
        change other.baseline ≤ work.baseline
        omega
      · cases List.mem_singleton.mp last
        exact le_rfl
    · simp at newest
    · have : work = other := by simpa using newest
      subst this
      refine .desired worker rfl running older rfl fun answer member => ?_
      -- Its baseline is new, so that no earlier poll was for it.
      have member : .polled work.key work.baseline answer ∈ s.events := by simpa using member
      cases ready : answer.isReady with
      | false => rfl
      | true =>
        have := tracked.ready_bounded member ready
        omega

/-- The first lock region of a thread keeps a run tracked. -/
theorem Tracked.take {s : EnhancementRun ω ε} (tracked : Tracked evaluate s) (worker : Nat) :
    Tracked evaluate (s.step evaluate (.take worker)) := by
  rcases tracked.worker with none_there | ⟨thread, one, _⟩
  · simpa [step, none_there] using tracked
  cases thread with
  | evaluating work =>
    -- The thread is not at this lock region.
    cases worker <;> simpa [step, one] using tracked
  | taking =>
  cases worker with
  | succ => simpa [step, one] using tracked
  | zero =>
  cases wanted : s.slots.desiredSnapshotEnhancement with
  | none =>
    have same : s.step evaluate (.take 0) =
        { s with slots := { s.slots with snapshotEnhancementRunning := false }, workers := [] } := by
      simp [step, one, SnapshotEnhancements.takeDesired, wanted]
    rw [same]
    refine { tracked with running := rfl, untouched := fun _ => ⟨rfl, wanted⟩, stage := fun work newest => ?_ }
    cases tracked.stage work newest with
    | desired _ desired => rw [wanted] at desired; cases desired
    | evaluating _ running => rw [one] at running; cases running
    | stored world taken _ evaluated kept undelivered =>
      exact .stored world taken (.inl rfl) evaluated kept undelivered
    | delivered world taken _ evaluated empty polled => exact .delivered world taken (.inl rfl) evaluated empty polled
  | some work =>
    have same : s.step evaluate (.take 0) =
        { s with slots := { s.slots with desiredSnapshotEnhancement := none }, workers := [.evaluating work] } := by
      simp [step, one, SnapshotEnhancements.takeDesired, wanted]
    rw [same]
    refine
      { tracked with
        running := by simpa [one] using tracked.running
        untouched := fun newest => ?_
        stage := fun other newest => ?_ }
    · have := (tracked.untouched newest).2
      rw [wanted] at this
      cases this
    · cases tracked.stage other newest with
      | desired _ desired _ _ empty undelivered =>
        rw [wanted] at desired
        cases desired
        exact .evaluating rfl rfl empty undelivered
      | evaluating taken => rw [wanted] at taken; cases taken
      | stored _ taken => rw [wanted] at taken; cases taken
      | delivered _ taken => rw [wanted] at taken; cases taken

/-- The second lock region of a thread keeps a run tracked. -/
theorem Tracked.finish {s : EnhancementRun ω ε} (tracked : Tracked evaluate s) (worker : Nat) (world : ε) :
    Tracked evaluate (s.step evaluate (.finish worker world)) := by
  rcases tracked.worker with none_there | ⟨thread, one, _⟩
  · simpa [step, none_there] using tracked
  cases thread with
  | taking =>
    -- The thread is not at this lock region.
    cases worker <;> simpa [step, one] using tracked
  | evaluating work =>
  cases worker with
  | succ => simpa [step, one] using tracked
  | zero =>
  have same : s.step evaluate (.finish 0 world) =
      ⟨s.slots.complete work (evaluate work world), [.taking], s.events ++ [.evaluated work world]⟩ := by
    simp [step, one]
  have slots : s.slots.complete work (evaluate work world) = s.slots ∨
      s.slots.complete work (evaluate work world) =
        { s.slots with completedSnapshotEnhancement := some ⟨work.key, work.baseline, evaluate work world⟩ } := by
    unfold SnapshotEnhancements.complete
    split <;> simp
  have quiet : ∀ other : SnapshotEnhancementWork ω, Undelivered s.events other →
      Undelivered (s.events ++ [.evaluated work world]) other :=
    fun other undelivered => undelivered.snoc fun _ poll => nomatch poll
  rw [same]
  refine ⟨?_, ?_, fun other member => ?_, fun newest => ?_, fun other newest => ?_,
    tracked.history.snoc fun _ _ _ poll => nomatch poll⟩
  · rcases slots with kept | kept <;> simpa [kept] using tracked.latest
  · rcases slots with kept | kept <;> simpa [kept, one] using tracked.running
  · have := tracked.bounded other (by simpa using member)
    rcases slots with kept | kept <;> simpa [kept] using this
  · have := (tracked.untouched (by simpa using newest)).1
    simp [one] at this
  · have newest : newestWork s.events = some other := by simpa using newest
    cases tracked.stage other newest with
    | desired thread wanted running older empty undelivered =>
      -- What was evaluated is older, and its result is dropped.
      rw [one] at running
      cases running
      have older := older work rfl
      have dropped : s.slots.complete work (evaluate work world) = s.slots := by
        rw [SnapshotEnhancements.complete, tracked.latest, newest]
        refine if_neg fun same => ?_
        simp only [Option.map_some, Option.some.injEq, Prod.mk.injEq] at same
        omega
      rw [dropped]
      exact .desired .taking wanted rfl (fun _ evaluating => nomatch evaluating) empty (quiet other undelivered)
    | evaluating taken running empty undelivered =>
      rw [one] at running
      cases running
      have kept : s.slots.complete work (evaluate work world) =
          { s.slots with completedSnapshotEnhancement := some ⟨work.key, work.baseline, evaluate work world⟩ } := by
        refine if_pos ?_
        rw [tracked.latest, newest]
        rfl
      rw [kept]
      exact .stored world taken (.inr rfl) (by simp) rfl (quiet work undelivered)
    | stored _ _ resting => rw [one] at resting; simp at resting
    | delivered _ _ resting => rw [one] at resting; simp at resting

/-- A poll that hands out nothing keeps a run tracked. -/
theorem Tracked.idle {s : EnhancementRun ω ε} (tracked : Tracked evaluate s) {key : SnapshotEnhancementKey}
    {baseline : Nat} {answer : SnapshotEnhancementPoll} (idle : answer.isReady = false)
    (other : (∀ work, newestWork s.events = some work → (work.key, work.baseline) ≠ (key, baseline)) →
      answer = .unavailable) :
    Tracked evaluate { s with events := s.events ++ [.polled key baseline answer] } := by
  have quiet : ∀ work : SnapshotEnhancementWork ω, Undelivered s.events work →
      Undelivered (s.events ++ [.polled key baseline answer]) work := by
    refine fun work undelivered => undelivered.snoc fun given same => ?_
    cases same
    exact idle
  refine ⟨by simpa using tracked.latest, tracked.running, fun work member => ?_, fun newest => ?_,
    fun work newest => ?_, tracked.history.snoc fun _ _ _ same => ?_⟩
  · exact tracked.bounded work (by simpa using member)
  · exact tracked.untouched (by simpa using newest)
  · cases tracked.stage work (by simpa using newest) with
    | desired worker wanted running older empty undelivered =>
      exact .desired worker wanted running older empty (quiet work undelivered)
    | evaluating taken running empty undelivered => exact .evaluating taken running empty (quiet work undelivered)
    | stored world taken resting evaluated kept undelivered =>
      exact .stored world taken resting (List.mem_append_left _ evaluated) kept (quiet work undelivered)
    | delivered world taken resting evaluated empty polled =>
      exact .delivered world taken resting (List.mem_append_left _ evaluated) empty (List.mem_append_left _ polled)
  · cases same
    exact ⟨fun ready => by simp [idle] at ready, other⟩

/-- A poll keeps a run tracked. -/
theorem Tracked.poll {s : EnhancementRun ω ε} (tracked : Tracked evaluate s) (key : SnapshotEnhancementKey)
    (baseline : Nat) : Tracked evaluate (s.step evaluate (.poll key baseline)) := by
  by_cases newest : ∃ work, newestWork s.events = some work ∧ (work.key, work.baseline) = (key, baseline)
  · obtain ⟨work, newest, same⟩ := newest
    cases same
    have latest : s.slots.latestSnapshotEnhancement = some (work.key, work.baseline) := by
      rw [tracked.latest, newest]
      rfl
    have listed : ¬ ∀ other, newestWork s.events = some other →
        (other.key, other.baseline) ≠ (work.key, work.baseline) := fun differs => differs work newest rfl
    -- Nothing is stored until the work has been evaluated, and nothing after it was handed out.
    have pending (empty : s.slots.completedSnapshotEnhancement = none) :
        Tracked evaluate (s.step evaluate (.poll work.key work.baseline)) := by
      have answer : s.slots.pollSnapshotEnhancement work.key work.baseline = (s.slots, .pending) := by
        simp [SnapshotEnhancements.pollSnapshotEnhancement, latest, empty]
      rw [EnhancementRun.step, answer]
      exact tracked.idle rfl fun differs => absurd differs listed
    cases tracked.stage work newest with
    | desired _ _ _ _ empty => exact pending empty
    | evaluating _ _ empty => exact pending empty
    | delivered _ _ _ _ empty => exact pending empty
    | stored world taken resting evaluated kept undelivered =>
      have answer : s.slots.pollSnapshotEnhancement work.key work.baseline =
          ({ s.slots with completedSnapshotEnhancement := none }, evaluate work world) := by
        simp [SnapshotEnhancements.pollSnapshotEnhancement, latest, kept]
      rw [EnhancementRun.step, answer]
      refine ⟨by simpa using tracked.latest, tracked.running, fun other member => ?_, fun untouched => ?_,
        fun other same => ?_, tracked.history.snoc fun _ _ _ same => ?_⟩
      · exact tracked.bounded other (by simpa using member)
      · exact tracked.untouched (by simpa using untouched)
      · have : work = other := by simpa [newest] using same
        subst this
        exact .delivered world taken resting (List.mem_append_left _ evaluated) rfl (by simp)
      · cases same
        exact ⟨fun _ => ⟨work, world, newest, rfl, rfl, evaluated, rfl, undelivered⟩,
          fun differs => absurd differs listed⟩
  · have answer : s.slots.pollSnapshotEnhancement key baseline = (s.slots, .unavailable) := by
      refine if_neg fun latest => newest ?_
      rw [tracked.latest] at latest
      obtain ⟨work, found, same⟩ := Option.map_eq_some_iff.mp latest
      exact ⟨work, found, same⟩
    rw [EnhancementRun.step, answer]
    exact tracked.idle rfl fun _ => rfl

/-- Every operation keeps a run tracked. -/
theorem Tracked.step {s : EnhancementRun ω ε} (tracked : Tracked evaluate s) (op : EnhancementOp ω ε) :
    Tracked evaluate (s.step evaluate op) := by
  cases op with
  | snapshot key reranks content => exact tracked.snapshot key reranks content
  | take worker => exact tracked.take worker
  | finish worker world => exact tracked.finish worker world
  | poll key baseline => exact tracked.poll key baseline

/-- What a client and the worker can rely on. -/
structure Enhanced (evaluate : SnapshotEnhancementWork ω → ε → SnapshotEnhancementPoll) (s : EnhancementRun ω ε) :
    Prop where
  /-- A conversion is handed out once, for the newest work, and was evaluated from it. Other polls learn nothing. -/
  polls : History evaluate s.events
  /-- At most one thread is there, and it is known to be. -/
  single : s.workers.length ≤ 1
  running : s.slots.snapshotEnhancementRunning = !s.workers.isEmpty
  /-- Work never waits without a thread. -/
  awake : s.slots.desiredSnapshotEnhancement ≠ none → s.workers ≠ []
  /-- A thread returns only after the newest work was evaluated, and its result is stored or was handed out. -/
  finished : s.workers = [] → ∀ work, newestWork s.events = some work → ∃ world, .evaluated work world ∈ s.events ∧
    (s.slots.completedSnapshotEnhancement = some ⟨work.key, work.baseline, evaluate work world⟩ ∨
      .polled work.key work.baseline (evaluate work world) ∈ s.events)

/-- A tracked run can be relied on. -/
theorem Tracked.enhanced {s : EnhancementRun ω ε} (tracked : Tracked evaluate s) : Enhanced evaluate s := by
  refine ⟨tracked.history, ?_, tracked.running, fun wanted idle => ?_, fun idle work newest => ?_⟩
  · rcases tracked.worker with idle | ⟨worker, one, _⟩
    · simp [idle]
    · simp [one]
  · cases newest : newestWork s.events with
    | none => exact wanted (tracked.untouched newest).2
    | some work =>
      cases tracked.stage work newest with
      | desired _ _ running => rw [idle] at running; cases running
      | evaluating taken => exact wanted taken
      | stored _ taken => exact wanted taken
      | delivered _ taken => exact wanted taken
  · cases tracked.stage work newest with
    | desired _ _ running => rw [idle] at running; cases running
    | evaluating _ running => rw [idle] at running; cases running
    | stored world _ _ evaluated kept => exact ⟨world, evaluated, .inl kept⟩
    | delivered world _ _ evaluated _ polled => exact ⟨world, evaluated, .inr polled⟩

/-- In every run, with snapshots and polls coming in any order between the lock regions of the threads, only the
newest work is delivered, once, and it is always evaluated. -/
theorem run_enhanced (evaluate : SnapshotEnhancementWork ω → ε → SnapshotEnhancementPoll)
    (ops : List (EnhancementOp ω ε)) : Enhanced evaluate (exec (step evaluate) new ops) :=
  (exec_invariant_all (Tracked evaluate) (fun _ op tracked => tracked.step op) new_tracked ops).enhanced

end EnhancementRun

end Nospacekey
