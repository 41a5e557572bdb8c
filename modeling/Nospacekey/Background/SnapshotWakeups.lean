import Nospacekey.Background.SnapshotLane

/-! The snapshot worker never sleeps on work that it could do: a wake-up is queued or on its way. -/

namespace Nospacekey

namespace SnapshotPhase

variable {ρ α : Type}

/-- The worker has left its loop and runs down. -/
def leaving : SnapshotPhase ρ α → Bool
  | .leave | .disconnect | .bury | .clearPending | .clearNotified | .stopped => true
  | _ => false

/-- The worker is on its way through the loop and has no command in hand. -/
def busy : SnapshotPhase ρ α → Bool
  | .gate next | .report _ next => busy next
  | .wait | .unmark _ | .leave | .disconnect | .bury | .clearPending | .clearNotified | .stopped => false
  | _ => true

/-- The worker's place is one of the loop's: what it does first leads on through the loop. -/
def proper : SnapshotPhase ρ α → Bool
  | .gate next | .report _ next | .unmark next => busy next
  | _ => true

/-- A busy worker has not left its loop. -/
theorem leaving_of_busy {phase : SnapshotPhase ρ α} (on : phase.busy = true) : phase.leaving = false := by
  cases phase <;> first | rfl | cases on

theorem proper_of_busy {phase : SnapshotPhase ρ α} (on : phase.busy = true) : phase.proper = true := by
  cases phase <;> first | rfl | exact on | cases on

/-- Outside the busy part of its loop the worker runs down, sleeps or has a wake-up in hand. -/
theorem cases_of_proper {phase : SnapshotPhase ρ α} (proper : phase.proper = true) :
    phase.busy = true ∨ phase.leaving = true ∨ phase = .wait ∨
      ∃ next, phase = .unmark next ∧ next.busy = true := by
  cases phase with
  | gate next => exact .inl proper
  | report status next => exact .inl proper
  | unmark next => exact .inr (.inr (.inr ⟨next, rfl, proper⟩))
  | wait => exact .inr (.inr (.inl rfl))
  | leave | disconnect | bury | clearPending | clearNotified | stopped => exact .inr (.inl rfl)
  | _ => exact .inl rfl

@[simp] theorem loop_busy : (loop : SnapshotPhase ρ α).busy = true := rfl

end SnapshotPhase

/-- The input thread is giving the lane up, or has done so. -/
def SnapshotCaller.dropping : SnapshotCaller → Bool
  | .dropDesired | .dropPending | .dropNotified | .dropGeneration | .dropClose | .gone => true
  | _ => false

/-- The input thread has pushed a snapshot and is about to see to its wake-up. -/
def SnapshotCaller.alerting : SnapshotCaller → Bool
  | .swapping | .notifying => true
  | _ => false

/-- The input thread has found the command lane disconnected. -/
def SnapshotCaller.retreating : SnapshotCaller → Bool
  | .retracting | .withdrawing | .burying => true
  | _ => false

namespace SnapshotLane

variable {ρ α : Type} {s : SnapshotLane ρ α}

/-- A worker that waits although it is configured and a snapshot is there is about to be woken. -/
def WakeAssured (s : SnapshotLane ρ α) : Prop :=
  s.phase = .wait → s.runnableSnapshot = true → s.commands ≠ [] ∨ s.caller.alerting = true

/-- The worker has touched only what is its own, the record and the queues it publishes to. -/
structure Undisturbed (s s' : SnapshotLane ρ α) : Prop where
  capacity : s'.capacity = s.capacity
  shutdown : s'.shutdown = s.shutdown
  commands : s'.commands = s.commands
  receiver : s'.receiver = s.receiver
  workNotified : s'.workNotified = s.workNotified
  caller : s'.caller = s.caller
  closed : .closed ∈ s.history → .closed ∈ s'.history

/-- A worker that gives up its configuration disturbs nothing. -/
theorem failStream_undisturbed (attempts : Nat) (replay : Bool) :
    Undisturbed s (s.failStream attempts replay) := ⟨rfl, rfl, rfl, rfl, rfl, rfl, id⟩

/-- What a configuration attempt has come to is worked in without a disturbance. -/
theorem publish_undisturbed (generation : Nat) (reply : TransportReply α) :
    Undisturbed s (s.publish generation reply) ∧ (s.publish generation reply).phase.busy = true := by
  unfold publish
  cases reply.outcome with
  | configured => exact ⟨⟨rfl, rfl, rfl, rfl, rfl, rfl, id⟩, rfl⟩
  | retryableFailure => exact ⟨⟨rfl, rfl, rfl, rfl, rfl, rfl, id⟩, rfl⟩
  | versionMismatch actual actualBoot =>
    exact ⟨⟨rfl, rfl, rfl, rfl, rfl, rfl, List.mem_cons_of_mem _⟩, rfl⟩

/-- A snapshot is taken without a disturbance. -/
theorem take_undisturbed : Undisturbed s s.take ∧ s.take.phase.busy = true := by
  unfold take unchoose
  cases s.chosen with
  | none => exact ⟨⟨rfl, rfl, rfl, rfl, rfl, rfl, id⟩, rfl⟩
  | some o =>
    simp only
    split <;> split <;> exact ⟨⟨rfl, rfl, rfl, rfl, rfl, rfl, id⟩, rfl⟩

/-- A busy worker disturbs nothing, and goes on, or leaves after a shutdown, or waits because it has
nothing to do; only a command can do more. -/
theorem work_busy (reply : TransportReply α) (busy : s.phase.busy = true) (quiet : s.phase ≠ .tryReceive) :
    Undisturbed s (s.work reply) ∧
      ((s.work reply).phase.busy = true ∨ (s.work reply).phase = .leave ∧ s.shutdown = true ∨
        (s.work reply).phase = .wait ∧ (s.work reply).runnableSnapshot = false) := by
  cases place : s.phase
  all_goals simp only [place, SnapshotPhase.busy, ne_eq, Bool.false_eq_true, not_true_eq_false, reduceCtorEq] at busy quiet
  all_goals simp only [work, place]
  case gate next =>
    refine ⟨⟨rfl, rfl, rfl, rfl, rfl, rfl, id⟩, ?_⟩
    by_cases down : s.shutdown <;> simp [down, busy]
  case adopt second =>
    cases s.desiredConfiguration <;> cases second <;> exact ⟨⟨rfl, rfl, rfl, rfl, rfl, rfl, id⟩, .inl rfl⟩
  case raise second desired =>
    refine ⟨⟨rfl, rfl, rfl, rfl, rfl, rfl, List.mem_cons_of_mem _⟩, .inl ?_⟩
    cases second <;> rfl
  case retryDue woken =>
    by_cases due : s.due s.retryAt
    · rw [if_pos due]
      cases s.latestConfiguration <;> exact ⟨⟨rfl, rfl, rfl, rfl, rfl, rfl, id⟩, .inl rfl⟩
    · rw [if_neg due]
      exact ⟨⟨rfl, rfl, rfl, rfl, rfl, rfl, id⟩, .inl rfl⟩
  case compare generation request =>
    refine ⟨⟨rfl, rfl, rfl, rfl, rfl, rfl, id⟩, .inl ?_⟩
    split <;> rfl
  case configure generation request =>
    exact ⟨⟨rfl, rfl, rfl, rfl, rfl, rfl, List.mem_cons_of_mem _⟩, .inl rfl⟩
  case publish generation answer => exact ⟨(publish_undisturbed generation answer).1, .inl (publish_undisturbed generation answer).2⟩
  case report status next => exact ⟨⟨rfl, rfl, rfl, rfl, rfl, rfl, id⟩, .inl busy⟩
  case rebind => exact ⟨⟨rfl, rfl, rfl, rfl, rfl, rfl, id⟩, .inl rfl⟩
  case healthDue woken =>
    refine ⟨⟨rfl, rfl, rfl, rfl, rfl, rfl, id⟩, .inl ?_⟩
    split <;> rfl
  case probe => exact ⟨⟨rfl, rfl, rfl, rfl, rfl, rfl, id⟩, .inl rfl⟩
  case probed healthy => cases healthy <;> exact ⟨⟨rfl, rfl, rfl, rfl, rfl, rfl, id⟩, .inl rfl⟩
  case invalidate failed delay => exact ⟨⟨rfl, rfl, rfl, rfl, rfl, rfl, List.mem_cons_of_mem _⟩, .inl rfl⟩
  case recover delay => exact ⟨⟨rfl, rfl, rfl, rfl, rfl, rfl, id⟩, .inl rfl⟩
  case schedule delay => exact ⟨⟨rfl, rfl, rfl, rfl, rfl, rfl, id⟩, .inl rfl⟩
  case decide woken =>
    refine ⟨⟨rfl, rfl, rfl, rfl, rfl, rfl, id⟩, ?_⟩
    by_cases idle : (!woken && !s.runnableSnapshot) = true
    · refine .inr (.inr ?_)
      rw [if_pos idle]
      have nothing : s.runnableSnapshot = false := by simpa using (Bool.and_eq_true_iff.mp idle).2
      exact ⟨rfl, nothing⟩
    · exact .inl (by rw [if_neg idle]; rfl)
  case drain =>
    split
    · exact ⟨⟨rfl, rfl, rfl, rfl, rfl, rfl, id⟩, .inl rfl⟩
    · split
      · exact ⟨⟨rfl, rfl, rfl, rfl, rfl, rfl, id⟩, .inl rfl⟩
      · exact ⟨⟨rfl, rfl, rfl, rfl, rfl, rfl, id⟩, .inl rfl⟩
  case take => exact ⟨take_undisturbed.1, .inl take_undisturbed.2⟩
  case drainAgain o => split <;> exact ⟨⟨rfl, rfl, rfl, rfl, rfl, rfl, id⟩, .inl rfl⟩
  case convert o => exact ⟨⟨rfl, rfl, rfl, rfl, rfl, rfl, List.mem_cons_of_mem _⟩, .inl rfl⟩
  case converted result => cases result <;> exact ⟨⟨rfl, rfl, rfl, rfl, rfl, rfl, id⟩, .inl rfl⟩

/-- A wake-up for new work is queued, about to be sent, or known not to be needed. -/
def Covered (commands : List SnapshotCommand) (caller : SnapshotCaller) : Prop :=
  .workAvailable ∈ commands ∨ caller = .notifying ∨ caller = .unmarking ∨ caller = .retracting

/-- What the worker's sleep rests on. The lane is left only after it was given up; and a raised flag
stands for a wake-up that is queued, about to be sent, or just received. -/
structure Awake (s : SnapshotLane ρ α) : Prop where
  room : 0 < s.capacity
  proper : s.phase.proper = true
  shutdown : s.shutdown = true → .closed ∈ s.history
  dropping : s.caller.dropping = true → .closed ∈ s.history
  close : .close ∈ s.commands → .closed ∈ s.history
  leaving : s.phase.leaving = true → .closed ∈ s.history
  receiver : s.receiver = false → s.phase.leaving = true
  retreating : s.caller.retreating = true → s.receiver = false
  notified : s.workNotified = true → Covered s.commands s.caller ∨ ∃ next, s.phase = .unmark next
  waiting : s.phase = .wait → s.runnableSnapshot = true → s.commands ≠ [] ∨ s.caller.alerting = true

namespace Awake

/-- A raised flag is covered unless the worker has the wake-up in hand. -/
theorem covered (awake : s.Awake) (raised : s.workNotified = true)
    (plain : ∀ next, s.phase ≠ .unmark next) : Covered s.commands s.caller :=
  (awake.notified raised).resolve_right fun ⟨next, here⟩ => plain next here

/-- A worker in its loop holds its end of the lane. -/
theorem present (awake : s.Awake) (here : s.phase.leaving = false) : ¬ s.receiver = false := fun gone => by
  rw [awake.receiver gone] at here
  cases here

/-- A worker that sleeps holds its end of the lane. -/
theorem up (awake : s.Awake) (gone : s.receiver = false) : s.phase ≠ .wait := fun asleep => by
  have left := awake.receiver gone
  rw [asleep] at left
  cases left

/-- A worker that was busy has disturbed nothing, whatever it turns to. -/
theorem undisturbed (awake : s.Awake) (busy : s.phase.busy = true) {s' : SnapshotLane ρ α}
    (same : Undisturbed s s')
    (outcome : s'.phase.busy = true ∨ s'.phase = .leave ∧ .closed ∈ s.history ∨
      s'.phase = .wait ∧ s'.runnableSnapshot = false) : s'.Awake where
  room := same.capacity ▸ awake.room
  proper := by
    rcases outcome with on | ⟨out, -⟩ | ⟨out, -⟩
    · exact SnapshotPhase.proper_of_busy on
    · rw [out]; rfl
    · rw [out]; rfl
  shutdown down := same.closed (awake.shutdown (same.shutdown ▸ down))
  dropping given := same.closed (awake.dropping (same.caller ▸ given))
  close queued := same.closed (awake.close (same.commands ▸ queued))
  leaving left := by
    rcases outcome with on | ⟨-, closed⟩ | ⟨out, -⟩
    · rw [SnapshotPhase.leaving_of_busy on] at left; cases left
    · exact same.closed closed
    · rw [out] at left; cases left
  receiver gone :=
    absurd (same.receiver ▸ gone) (awake.present (SnapshotPhase.leaving_of_busy busy))
  retreating back := same.receiver ▸ awake.retreating (same.caller ▸ back)
  notified raised := by
    rw [same.commands, same.caller]
    exact .inl (awake.covered (same.workNotified ▸ raised) fun next here => by rw [here] at busy; cases busy)
  waiting asleep runnable := by
    rcases outcome with on | ⟨out, -⟩ | ⟨-, idle⟩
    · rw [asleep] at on; cases on
    · rw [asleep] at out; cases out
    · rw [idle] at runnable; cases runnable

/-- A worker that receives a command has it in hand. -/
theorem receive (awake : s.Awake) {command : SnapshotCommand} {commands : List SnapshotCommand}
    (queue : s.commands = command :: commands) (here : s.phase.leaving = false)
    (plain : ∀ next, s.phase ≠ .unmark next) {woken : SnapshotPhase ρ α} (busy : woken.busy = true) :
    (s.receive command woken).Awake := by
  have present := awake.present here
  have closing : .close ∈ s.commands.drop 1 → .closed ∈ s.history := fun queued =>
    awake.close (List.mem_of_mem_drop queued)
  -- Another command than a wake-up leaves the wake-up that a raised flag stands for where it is.
  have covered : s.workNotified = true → command ≠ .workAvailable →
      Covered (s.commands.drop 1) s.caller := fun raised other => by
    rcases awake.covered raised plain with queued | sending
    · rw [queue] at queued ⊢
      exact .inl ((List.mem_cons.mp queued).resolve_left fun same => other same.symm)
    · exact .inr sending
  cases command with
  | close =>
    have closed : .closed ∈ s.history := awake.close (by rw [queue]; exact List.mem_cons_self)
    exact ⟨awake.room, rfl, awake.shutdown, awake.dropping, closing, fun _ => closed, fun _ => rfl,
      awake.retreating, fun raised => .inl (covered raised nofun), nofun⟩
  | desiredConfigurationChanged =>
    exact ⟨awake.room, rfl, awake.shutdown, awake.dropping, closing, nofun,
      fun gone => absurd gone present, awake.retreating, fun raised => .inl (covered raised nofun), nofun⟩
  | workAvailable =>
    exact ⟨awake.room, busy, awake.shutdown, awake.dropping, closing, nofun,
      fun gone => absurd gone present, awake.retreating, fun _ => .inr ⟨woken, rfl⟩, nofun⟩

/-- A worker that looks for a command finds one, or learns that the lane was given up, or goes on. -/
theorem tryReceive (awake : s.Awake) (place : s.phase = .tryReceive) (reply : TransportReply α) :
    (s.work reply).Awake := by
  rw [SnapshotLane.work]
  simp only [place]
  cases queue : s.commands with
  | cons command commands =>
    exact awake.receive queue (by rw [place]; rfl) (fun _ => by rw [place]; nofun) rfl
  | nil =>
    refine awake.undisturbed (by rw [place]; rfl) ⟨rfl, rfl, queue.symm, rfl, rfl, rfl, id⟩ ?_
    by_cases gone : s.caller = .gone
    · exact .inr (.inl ⟨if_pos gone, awake.dropping (by rw [gone]; rfl)⟩)
    · exact .inl (by rw [if_neg gone]; rfl)

/-- A sleeping worker wakes up for a command, for a deadline, or because the lane was given up. -/
theorem wait (awake : s.Awake) (place : s.phase = .wait) (reply : TransportReply α) :
    (s.work reply).Awake := by
  have present := awake.present (by rw [place]; rfl)
  have covered : s.workNotified = true → Covered s.commands s.caller := fun raised =>
    awake.covered raised fun _ => by rw [place]; nofun
  rw [SnapshotLane.work]
  simp only [place]
  split
  · rename_i command commands queue
    exact awake.receive queue (by rw [place]; rfl) (fun _ => by rw [place]; nofun) rfl
  · split
    · rename_i gone
      have closed : .closed ∈ s.history := awake.dropping (by rw [gone]; rfl)
      exact { awake with
        proper := rfl
        leaving := fun _ => closed
        receiver := fun _ => rfl
        notified := fun raised => .inl (covered raised)
        waiting := nofun }
    · split
      · exact { awake with
          proper := rfl
          leaving := nofun
          receiver := fun gone => absurd gone present
          notified := fun raised => .inl (covered raised)
          waiting := nofun }
      · exact awake

/-- A worker that runs down after the lane was given up has nothing to be woken for. -/
theorem leave (awake : s.Awake) (leaving : s.phase.leaving = true) (reply : TransportReply α) :
    (s.work reply).Awake := by
  have closed := awake.leaving leaving
  have covered : s.workNotified = true → Covered s.commands s.caller := fun raised =>
    awake.covered raised fun next here => by rw [here] at leaving; cases leaving
  cases place : s.phase
  all_goals simp only [place, SnapshotPhase.leaving, Bool.false_eq_true] at leaving
  all_goals simp only [SnapshotLane.work, place]
  case leave =>
    have recorded {event : SnapshotEvent} : .closed ∈ event :: s.history := List.mem_cons_of_mem _ closed
    exact { awake with
      proper := rfl
      shutdown := fun _ => recorded
      dropping := fun _ => recorded
      close := fun _ => recorded
      leaving := fun _ => recorded
      receiver := fun _ => rfl
      notified := fun raised => .inl (covered raised)
      waiting := nofun }
  case disconnect =>
    exact { awake with
      proper := rfl
      leaving := fun _ => closed
      receiver := fun _ => rfl
      retreating := fun _ => rfl
      notified := fun raised => .inl (covered raised)
      waiting := nofun }
  case clearNotified =>
    exact { awake with
      proper := rfl
      leaving := fun _ => closed
      receiver := fun _ => rfl
      notified := nofun
      waiting := nofun }
  case stopped => exact awake
  all_goals
    exact { awake with
      proper := rfl
      leaving := fun _ => closed
      receiver := fun _ => rfl
      notified := fun raised => .inl (covered raised)
      waiting := nofun }

/-- Every step of the worker keeps what its sleep rests on. -/
theorem work (awake : s.Awake) (reply : TransportReply α) : (s.work reply).Awake := by
  rcases SnapshotPhase.cases_of_proper awake.proper with busy | leaving | waiting | ⟨next, place, busy⟩
  · by_cases receiving : s.phase = .tryReceive
    · exact awake.tryReceive receiving reply
    obtain ⟨same, outcome⟩ := work_busy reply busy receiving
    refine awake.undisturbed busy same ?_
    rcases outcome with on | ⟨out, down⟩ | idle
    · exact .inl on
    · exact .inr (.inl ⟨out, awake.shutdown down⟩)
    · exact .inr (.inr idle)
  · exact awake.leave leaving reply
  · exact awake.wait waiting reply
  · have present := awake.present (by rw [place]; rfl)
    simp only [SnapshotLane.work, place]
    exact { awake with
      proper := SnapshotPhase.proper_of_busy busy
      leaving := fun left => by
        have left : next.leaving = true := left
        rw [SnapshotPhase.leaving_of_busy busy] at left
        cases left
      receiver := fun gone => absurd gone present
      notified := nofun
      waiting := fun asleep => by
        have asleep : next = .wait := asleep
        rw [asleep] at busy
        cases busy }

/-- While the input thread is not about to send a wake-up, a raised flag stands for a queued one. -/
theorem queued (awake : s.Awake) (notifying : s.caller ≠ .notifying) (unmarking : s.caller ≠ .unmarking)
    (retracting : s.caller ≠ .retracting) (raised : s.workNotified = true) :
    .workAvailable ∈ s.commands ∨ ∃ next, s.phase = .unmark next := by
  rcases awake.notified raised with (h | h | h | h) | h
  · exact .inl h
  · exact absurd h notifying
  · exact absurd h unmarking
  · exact absurd h retracting
  · exact .inr h

/-- The input thread turns to something that neither wakes the worker nor gives it work. -/
theorem turn (awake : s.Awake) {caller : SnapshotCaller} {answer : Bool} (calm : s.caller.alerting = false)
    (unmarking : s.caller ≠ .unmarking) (retracting : s.caller ≠ .retracting)
    (dropping : caller.dropping = true → .closed ∈ s.history)
    (retreating : caller.retreating = true → s.receiver = false) :
    { s with caller := caller, answer := answer }.Awake :=
  { awake with
    dropping := dropping
    retreating := retreating
    notified := fun raised =>
      (awake.queued (fun h => by rw [h] at calm; cases calm) unmarking retracting raised).imp_left .inl
    waiting := fun asleep runnable =>
      .inl ((awake.waiting asleep runnable).resolve_right (by rw [calm]; nofun)) }

/-- A command that the lane takes is there for the worker, and one that it does not take changes
nothing. -/
theorem send (awake : s.Awake) {command : SnapshotCommand} {caller : SnapshotCaller} {answer : Bool}
    (calm : s.caller.alerting = false ∨ s.trySend = .ok ∧ command = .workAvailable)
    (unmarking : s.caller ≠ .unmarking) (retracting : s.caller ≠ .retracting)
    (closing : command = .close → .closed ∈ s.history)
    (dropping : caller.dropping = true → .closed ∈ s.history) (retreating : caller.retreating = false) :
    { s.queueCommand command with caller := caller, answer := answer }.Awake := by
  have onward : caller.retreating = true → s.receiver = false := fun back => by
    rw [retreating] at back
    cases back
  by_cases ok : s.trySend = .ok
  · simp only [queueCommand, if_pos ok]
    exact { awake with
      dropping := dropping
      close := fun queued => by
        rcases List.mem_append.mp queued with before | last
        · exact awake.close before
        · exact closing (List.mem_singleton.mp last).symm
      retreating := onward
      notified := fun raised => by
        rcases calm with calm | ⟨-, rfl⟩
        · have notifying : s.caller ≠ .notifying := fun h => by rw [h] at calm; cases calm
          exact (awake.queued notifying unmarking retracting raised).imp_left
            fun queued => .inl (List.mem_append_left _ queued)
        · exact .inl (.inl (List.mem_append_right _ List.mem_cons_self))
      waiting := fun _ _ => .inl (by simp) }
  · simp only [queueCommand, if_neg ok]
    exact awake.turn (calm.resolve_right fun sent => ok sent.1) unmarking retracting dropping onward

/-- The input thread has pushed a snapshot and tells the worker, unless the flag is up already. -/
theorem swap (awake : s.Awake) (place : s.caller = .swapping) : s.proceed.Awake := by
  simp only [SnapshotLane.proceed, place]
  split
  · rename_i raised
    exact { awake with
      dropping := nofun
      retreating := nofun
      notified := fun raised => (awake.queued (by rw [place]; nofun) (by rw [place]; nofun)
        (by rw [place]; nofun) raised).imp_left .inl
      waiting := fun asleep _ => by
        -- The worker sleeps, so it has no wake-up in hand: the flag stands for a queued one.
        rcases awake.queued (by rw [place]; nofun) (by rw [place]; nofun) (by rw [place]; nofun) raised with
          queued | ⟨next, here⟩
        · exact .inl (List.ne_nil_of_mem queued)
        · have asleep : s.phase = .wait := asleep
          rw [asleep] at here
          cases here }
  · exact { awake with
      dropping := nofun
      retreating := nofun
      notified := fun _ => .inl (.inr (.inl rfl))
      waiting := fun _ _ => .inr rfl }

/-- The wake-up is sent; a full lane holds a command that wakes the worker as well. -/
theorem notify (awake : s.Awake) (place : s.caller = .notifying) : s.proceed.Awake := by
  simp only [SnapshotLane.proceed, place]
  cases sent : s.trySend with
  | ok =>
    exact awake.send (.inr ⟨sent, rfl⟩) (by rw [place]; nofun) (by rw [place]; nofun) nofun nofun rfl
  | full =>
    have filled : s.commands ≠ [] := fun empty => by
      have room := awake.room
      simp only [trySend, empty, List.length_nil, room, if_true] at sent
      split at sent <;> cases sent
    exact { awake with
      dropping := nofun
      retreating := nofun
      notified := fun _ => .inl (.inr (.inr (.inl rfl)))
      waiting := fun _ _ => .inl filled }
  | disconnected =>
    have gone : s.receiver = false := by
      unfold trySend at sent
      split at sent
      · simpa using ‹(!s.receiver) = true›
      · split at sent <;> cases sent
    exact { awake with
      dropping := nofun
      retreating := fun _ => gone
      notified := fun _ => .inl (.inr (.inr (.inr rfl)))
      waiting := fun asleep => absurd asleep (awake.up gone) }

/-- Every step of the input thread in a call keeps what the worker's sleep rests on. -/
theorem proceed (awake : s.Awake) : s.proceed.Awake := by
  cases place : s.caller
  case swapping => exact awake.swap place
  case notifying => exact awake.notify place
  all_goals simp only [SnapshotLane.proceed, place]
  case offering snapshot =>
    split
    · exact awake.turn (by rw [place]; rfl) (by rw [place]; nofun) (by rw [place]; nofun) nofun nofun
    · exact awake.turn (by rw [place]; rfl) (by rw [place]; nofun) (by rw [place]; nofun) nofun nofun
  case pushing snapshot =>
    have recorded {event : SnapshotEvent} (closed : .closed ∈ s.history) : .closed ∈ event :: s.history :=
      List.mem_cons_of_mem _ closed
    exact { awake with
      shutdown := fun down => recorded (awake.shutdown down)
      dropping := nofun
      close := fun queued => recorded (awake.close queued)
      leaving := fun left => recorded (awake.leaving left)
      retreating := nofun
      notified := fun raised => (awake.queued (by rw [place]; nofun) (by rw [place]; nofun)
        (by rw [place]; nofun) raised).imp_left .inl
      waiting := fun _ _ => .inr rfl }
  case unmarking =>
    exact { awake with
      dropping := nofun
      retreating := nofun
      notified := nofun
      waiting := fun asleep runnable =>
        .inl ((awake.waiting asleep runnable).resolve_right (by rw [place]; nofun)) }
  case retracting =>
    have gone := awake.retreating (by rw [place]; rfl)
    exact { awake with
      dropping := nofun
      retreating := fun _ => gone
      notified := nofun
      waiting := fun asleep => absurd asleep (awake.up gone) }
  case withdrawing =>
    have gone := awake.retreating (by rw [place]; rfl)
    exact { awake with
      dropping := nofun
      retreating := fun _ => gone
      notified := fun raised => (awake.queued (by rw [place]; nofun) (by rw [place]; nofun)
        (by rw [place]; nofun) raised).imp_left .inl
      waiting := fun asleep => absurd asleep (awake.up gone) }
  case burying =>
    have turned : { s with caller := .idle, answer := false }.Awake :=
      awake.turn (by rw [place]; rfl) (by rw [place]; nofun) (by rw [place]; nofun) nofun nofun
    exact { turned with }
  case storing generation =>
    have turned : { s with caller := .announcing, answer := s.answer }.Awake :=
      awake.turn (by rw [place]; rfl) (by rw [place]; nofun) (by rw [place]; nofun) nofun nofun
    exact { turned with }
  case announcing =>
    exact awake.send (.inl (by rw [place]; rfl)) (by rw [place]; nofun) (by rw [place]; nofun) nofun nofun rfl
  case waking =>
    exact awake.send (.inl (by rw [place]; rfl)) (by rw [place]; nofun) (by rw [place]; nofun) nofun nofun rfl
  case dropClose =>
    have closed := awake.dropping (by rw [place]; rfl)
    exact awake.send (.inl (by rw [place]; rfl)) (by rw [place]; nofun) (by rw [place]; nofun)
      (fun _ => closed) (fun _ => closed) rfl
  case idle => exact awake
  case gone => exact awake
  -- What is left gives the lane up, step by step.
  all_goals have closed := awake.dropping (by rw [place]; rfl)
  all_goals
    have turned (caller : SnapshotCaller) (onward : caller.retreating = false) :
        { s with caller := caller, answer := s.answer }.Awake :=
      awake.turn (by rw [place]; rfl) (by rw [place]; nofun) (by rw [place]; nofun) (fun _ => closed)
        (fun back => by rw [onward] at back; cases back)
  case dropDesired => exact { turned .dropPending rfl with }
  case dropPending =>
    exact { turned .dropNotified rfl with
      waiting := fun asleep runnable => by
        refine (turned .dropNotified rfl).waiting asleep ?_
        simp only [runnableSnapshot, Option.isSome_none, Bool.or_false, Bool.and_eq_true] at runnable
        simp [runnableSnapshot, runnable] }
  case dropNotified => exact { turned .dropGeneration rfl with notified := nofun }
  case dropGeneration => exact { turned .dropClose rfl with }

/-- A call that the input thread starts keeps what the worker's sleep rests on. -/
theorem call (awake : s.Awake) (idle : s.caller = .idle) (op : SnapshotOp ρ α) : (s.step op).Awake := by
  have turned (caller : SnapshotCaller) (answer : Bool) (dropping : caller.dropping = false)
      (retreating : caller.retreating = false) : { s with caller := caller, answer := answer }.Awake :=
    awake.turn (by rw [idle]; rfl) (by rw [idle]; nofun) (by rw [idle]; nofun)
      (fun given => by rw [dropping] at given; cases given) (fun back => by rw [retreating] at back; cases back)
  have unmoved (answer : Bool) := turned s.caller answer (by rw [idle]; rfl) (by rw [idle]; rfl)
  cases op with
  | tick elapsed => exact { awake with }
  | proceed => exact awake.proceed
  | work reply => exact awake.work reply
  | readConnection => simp only [SnapshotLane.step, if_pos idle]; exact { awake with }
  | trySnapshotStatus => simp only [SnapshotLane.step, if_pos idle]; exact { awake with }
  | tryResult => simp only [SnapshotLane.step, if_pos idle]; exact { awake with }
  | tryLiveSnapshot snapshot =>
    simp only [SnapshotLane.step, if_pos idle, tryLiveSnapshot]
    split
    · exact { unmoved false with }
    · exact { turned (.offering _) s.answer rfl rfl with }
  | tryConfigureSnapshot generation request =>
    simp only [SnapshotLane.step, if_pos idle, tryConfigureSnapshot]
    exact { turned (.storing generation) s.answer rfl rfl with }
  | tryAutoCommitReceipt =>
    simp only [SnapshotLane.step, if_pos idle, tryAutoCommitReceipt]
    split
    · exact turned .waking s.answer rfl rfl
    · exact { unmoved false with }
  | drop =>
    simp only [SnapshotLane.step, if_pos idle, SnapshotLane.drop]
    exact { unmoved s.answer with
      shutdown := fun _ => List.mem_cons_self
      dropping := fun _ => List.mem_cons_self
      close := fun _ => List.mem_cons_self
      leaving := fun _ => List.mem_cons_self
      retreating := nofun
      notified := fun raised => (awake.queued (by rw [idle]; nofun) (by rw [idle]; nofun)
        (by rw [idle]; nofun) raised).imp_left .inl
      waiting := fun asleep runnable =>
        .inl ((awake.waiting asleep runnable).resolve_right (by rw [idle]; nofun)) }

/-- Every step of the system keeps what the worker's sleep rests on. -/
theorem step (awake : s.Awake) (op : SnapshotOp ρ α) : (s.step op).Awake := by
  by_cases idle : s.caller = .idle
  · exact awake.call idle op
  · cases op with
    | tick elapsed => exact { awake with }
    | proceed => exact awake.proceed
    | work reply => exact awake.work reply
    | _ => simpa only [SnapshotLane.step, if_neg idle] using awake

/-- The worker of an empty lane has nothing to sleep on. -/
theorem start {capacity : Nat} (room : 0 < capacity) (policy : RetryPolicy) :
    (SnapshotLane.start (ρ := ρ) (α := α) capacity policy).Awake where
  room := room
  proper := rfl
  shutdown := nofun
  dropping := nofun
  close := nofun
  leaving := nofun
  receiver := nofun
  retreating := nofun
  notified := nofun
  waiting := nofun

/-- In every state of the lane, a worker that sleeps on work is about to be woken. -/
theorem exec {capacity : Nat} (room : 0 < capacity) (policy : RetryPolicy) (ops : List (SnapshotOp ρ α)) :
    (Runs.exec SnapshotLane.step (SnapshotLane.start capacity policy) ops).Awake :=
  Runs.exec_invariant_all Awake (fun _ op awake => awake.step op) (start room policy) ops

end Awake

end SnapshotLane

end Nospacekey
