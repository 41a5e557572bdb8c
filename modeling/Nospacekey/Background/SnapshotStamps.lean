import Nospacekey.Background.SnapshotWakeups

/-! The stamps of a snapshot that is handed to the engine are those of the configured stream. -/

namespace Nospacekey

/-- The configuration and the connection that the stream is set up for, unless a newer configuration
was adopted or the connection was given up since. -/
def inForce : List SnapshotEvent → Option (Nat × Nat)
  | .configured generation epoch outcome :: _ =>
    if outcome = .configured then some (generation, epoch) else none
  | .adopted _ :: _ | .invalidated _ :: _ => none
  | .accepted _ :: rest | .converted _ :: rest | .closed :: rest => inForce rest
  | [] => none

/-- Every conversion was asked for under the configuration and the connection in force. -/
def ConvertsInForce : List SnapshotEvent → Prop
  | .converted o :: rest => inForce rest = some (o.configuration, o.connection) ∧ ConvertsInForce rest
  | _ :: rest => ConvertsInForce rest
  | [] => True

namespace SnapshotPhase

variable {ρ α : Type}

/-- The worker is about to sort out what it held when a configuration succeeded. -/
def rebinding : SnapshotPhase ρ α → Bool
  | .gate next | .report _ next | .unmark next => rebinding next
  | .rebind => true
  | _ => false

/-- What the worker's place says of the configuration, the connection and the snapshot in its hand. -/
def Promised (configuration epoch : Nat) (retryAt : Option Nat) (latest : Option Offered)
    (history : List SnapshotEvent) : SnapshotPhase ρ α → Prop
  | .gate next | .report _ next | .unmark next => Promised configuration epoch retryAt latest history next
  | .compare generation _ | .configure generation _ =>
    configuration = 0 ∧ retryAt = none ∧ .adopted generation ∈ history
  | .publish generation reply =>
    (configuration = 0 ∧ retryAt = none ∧ .adopted generation ∈ history) ∧
      (reply.outcome = .configured → inForce history = some (generation, epoch))
  | .invalidate _ _ | .recover _ | .schedule _ => configuration = 0
  | .take => configuration ≠ 0
  | .drainAgain o | .convert o =>
    configuration ≠ 0 ∧ latest = some o ∧ o.configuration = configuration ∧ o.connection = epoch
  | _ => True

/-- An event that leaves in force what was in force breaks no promise. -/
theorem Promised.record {configuration epoch : Nat} {retryAt : Option Nat} {latest : Option Offered}
    {history : List SnapshotEvent} {event : SnapshotEvent} (same : inForce (event :: history) = inForce history)
    {phase : SnapshotPhase ρ α} (promised : phase.Promised configuration epoch retryAt latest history) :
    phase.Promised configuration epoch retryAt latest (event :: history) := by
  induction phase with
  | gate next ih | report _ next ih | unmark next ih => exact ih promised
  | compare generation request | configure generation request =>
    exact ⟨promised.1, promised.2.1, List.mem_cons_of_mem _ promised.2.2⟩
  | publish generation reply =>
    exact ⟨⟨promised.1.1, promised.1.2.1, List.mem_cons_of_mem _ promised.1.2.2⟩,
      fun succeeded => same ▸ promised.2 succeeded⟩
  | _ => exact promised

end SnapshotPhase

namespace SnapshotLane

variable {ρ α : Type} {s : SnapshotLane ρ α}

/-- What the worker's place promises holds of its variables. -/
def Promises (s : SnapshotLane ρ α) : Prop :=
  s.phase.Promised s.configurationGeneration s.connectionEpoch s.retryAt s.latestSnapshot s.history

/-- What the stamps of a converted snapshot rest on. -/
structure Stamped (s : SnapshotLane ρ α) : Prop where
  converts : ConvertsInForce s.history
  promises : s.Promises
  force : s.phase.leaving = false → s.configurationGeneration ≠ 0 →
    inForce s.history = some (s.configurationGeneration, s.connectionEpoch)
  retry : s.configurationGeneration ≠ 0 → s.retryAt = none
  replay : s.phase.rebinding = false → s.phase.leaving = false → s.configurationGeneration ≠ 0 →
    s.replayLatestSnapshot = false
  selected : s.phase.rebinding = false → s.phase.leaving = false → s.configurationGeneration ≠ 0 →
    ∀ o, s.selectedReplaySnapshot = some o →
      o.configuration = s.configurationGeneration ∧ o.connection = s.connectionEpoch
  adopted : s.configurationGeneration ≠ 0 → .adopted s.configurationGeneration ∈ s.history
  latest : ∀ generation request, s.latestConfiguration = some (generation, request) →
    .adopted generation ∈ s.history

/-- A rebound snapshot carries the stamps of the configured stream. -/
theorem rebound_stamps {o o' : Offered} (rebound : s.rebound o = some o') :
    o'.configuration = s.configurationGeneration ∧ o'.connection = s.connectionEpoch := by
  unfold SnapshotLane.rebound at rebound
  split at rebound
  · rename_i same
    cases rebound
    exact ⟨same, rfl⟩
  · cases rebound

/-- What is selected for a replay carries the stamps of the configuration that has come. -/
theorem selected_stamps {h : Offered} (selected : s.rebind.selectedReplaySnapshot = some h) :
    h.configuration = s.configurationGeneration ∧ h.connection = s.connectionEpoch := by
  rcases Option.or_eq_some_iff.mp selected with first | ⟨-, attempted⟩
  · rcases Option.or_eq_some_iff.mp first with pending | ⟨-, selected⟩
    · obtain ⟨held, -, rebound⟩ := Option.bind_eq_some_iff.mp pending
      exact rebound_stamps rebound
    · obtain ⟨held, -, rebound⟩ := Option.bind_eq_some_iff.mp selected
      exact rebound_stamps rebound
  · split at attempted
    · obtain ⟨held, -, rebound⟩ := Option.bind_eq_some_iff.mp attempted
      exact rebound_stamps rebound
    · cases attempted

namespace Stamped

/-- The worker moves on and does nothing else. -/
theorem move (stamped : s.Stamped) (left : s.phase.leaving = false) (rebinding : s.phase.rebinding = false)
    (phase : SnapshotPhase ρ α) (promises : { s with phase := phase }.Promises) :
    { s with phase := phase }.Stamped :=
  { stamped with
    promises := promises
    force := fun _ => stamped.force left
    replay := fun _ _ => stamped.replay rebinding left
    selected := fun _ _ => stamped.selected rebinding left }

/-- A stream that is given up leaves the worker without a configuration. -/
theorem failStream (stamped : s.Stamped) (attempts : Nat) (replay : Bool) :
    (s.failStream attempts replay).Stamped :=
  { stamped with
    promises := rfl
    force := fun _ set => absurd rfl set
    retry := fun set => absurd rfl set
    replay := fun _ _ set => absurd rfl set
    selected := fun _ _ set => absurd rfl set
    adopted := fun set => absurd rfl set }

/-- A configuration attempt that succeeded is in force. -/
theorem publish (stamped : s.Stamped) {generation : Nat} {reply : TransportReply α}
    (place : s.phase = .publish generation reply) : (s.publish generation reply).Stamped := by
  have promises := stamped.promises
  simp only [Promises, place, SnapshotPhase.Promised] at promises
  obtain ⟨⟨unset, retry, adopted⟩, force⟩ := promises
  unfold SnapshotLane.publish
  cases outcome : reply.outcome with
  | configured =>
    exact { stamped with
      promises := trivial
      force := fun _ _ => force outcome
      retry := fun _ => retry
      replay := nofun
      selected := nofun
      adopted := fun _ => adopted }
  | retryableFailure =>
    exact { stamped with
      promises := rfl
      force := fun _ set => absurd rfl set
      retry := fun set => absurd rfl set
      replay := fun _ _ set => absurd rfl set
      selected := fun _ _ set => absurd rfl set
      adopted := fun set => absurd rfl set }
  | versionMismatch actual actualBoot =>
    exact {
      converts := stamped.converts
      promises := trivial
      force := fun _ set => absurd rfl set
      retry := fun set => absurd rfl set
      replay := fun _ _ set => absurd rfl set
      selected := fun _ _ set => absurd rfl set
      adopted := fun set => absurd rfl set
      latest := fun generation request latest => List.mem_cons_of_mem _ (stamped.latest generation request latest) }

/-- What is selected for a replay carries the stamps of the configured stream. -/
theorem rebind (stamped : s.Stamped) (place : s.phase = .rebind) : s.rebind.Stamped :=
  { stamped with
    promises := trivial
    force := fun _ => stamped.force (by rw [place]; rfl)
    replay := fun _ _ _ => rfl
    selected := fun _ _ _ _ selected => selected_stamps (s := s) selected }

/-- A snapshot that is taken for the engine carries the stamps of the configured stream. -/
theorem take (stamped : s.Stamped) (place : s.phase = .take) : s.take.Stamped := by
  have set : s.configurationGeneration ≠ 0 := by
    have promises := stamped.promises
    simpa only [Promises, place, SnapshotPhase.Promised] using promises
  have left : s.phase.leaving = false := by rw [place]; rfl
  have rebinding : s.phase.rebinding = false := by rw [place]; rfl
  unfold SnapshotLane.take unchoose
  cases s.chosen with
  | none => exact stamped.move left rebinding _ trivial
  | some o =>
    dsimp only
    split
    · rename_i stamps
      split
      · exact { stamped with
          promises := ⟨set, rfl, stamps.1, stamps.2⟩
          force := fun _ => stamped.force left
          replay := fun _ _ => stamped.replay rebinding left
          selected := fun _ _ _ o => nofun }
      · exact { stamped with
          promises := ⟨set, rfl, stamps.1, stamps.2⟩
          force := fun _ => stamped.force left
          replay := fun _ _ => stamped.replay rebinding left
          selected := fun _ _ => stamped.selected rebinding left }
    · split
      · exact { stamped with
          promises := trivial
          force := fun _ => stamped.force left
          replay := fun _ _ => stamped.replay rebinding left
          selected := fun _ _ _ o => nofun }
      · exact { stamped with
          promises := trivial
          force := fun _ => stamped.force left
          replay := fun _ _ => stamped.replay rebinding left
          selected := fun _ _ => stamped.selected rebinding left }

/-- A worker that receives a command goes on with it. -/
theorem receive (stamped : s.Stamped) (left : s.phase.leaving = false) (rebinding : s.phase.rebinding = false)
    (command : SnapshotCommand) {woken : SnapshotPhase ρ α}
    (promises : { s with phase := woken }.Promises) : (s.receive command woken).Stamped := by
  cases command with
  | close => exact { stamped.move left rebinding .leave trivial with }
  | desiredConfigurationChanged => exact { stamped.move left rebinding .loop trivial with }
  | workAvailable => exact { stamped.move left rebinding (.unmark woken) promises with }

/-- A worker that passes the shutdown flag, clears the flag of a wake-up or publishes a status goes on
under the same promise. -/
theorem pass (stamped : s.Stamped) (left : s.phase.leaving = false) (next : SnapshotPhase ρ α)
    (rebinding : s.phase.rebinding = next.rebinding) (promises : { s with phase := next }.Promises) :
    { s with phase := next }.Stamped :=
  { stamped with
    promises := promises
    force := fun _ => stamped.force left
    replay := fun settled _ => stamped.replay (rebinding ▸ settled) left
    selected := fun settled _ => stamped.selected (rebinding ▸ settled) left }

/-- A worker without a configuration may change its deadlines as it moves on. -/
theorem unset_move (stamped : s.Stamped) (unset : s.configurationGeneration = 0) {retryAt healthProbeAt : Option Nat}
    {phase : SnapshotPhase ρ α}
    (promises : { s with retryAt := retryAt, healthProbeAt := healthProbeAt, phase := phase }.Promises) :
    { s with retryAt := retryAt, healthProbeAt := healthProbeAt, phase := phase }.Stamped :=
  { stamped with
    promises := promises
    force := fun _ set => absurd unset set
    retry := fun set => absurd unset set
    replay := fun _ _ set => absurd unset set
    selected := fun _ _ set => absurd unset set }

/-- A worker that leaves owes nothing more. -/
theorem depart (stamped : s.Stamped) (phase : SnapshotPhase ρ α) (leaving : phase.leaving = true)
    (promises : { s with phase := phase }.Promises) : { s with phase := phase }.Stamped :=
  { stamped with
    promises := promises
    force := fun left => by
      have left : phase.leaving = false := left
      rw [leaving] at left
      cases left
    replay := fun _ left => by
      have left : phase.leaving = false := left
      rw [leaving] at left
      cases left
    selected := fun _ left => by
      have left : phase.leaving = false := left
      rw [leaving] at left
      cases left }

/-- The adoption of a configuration takes the old one out of force. -/
theorem raise (stamped : s.Stamped) {second : Bool} {desired : DesiredSnapshotConfiguration ρ}
    (place : s.phase = .raise second desired) (reply : TransportReply α) : (s.work reply).Stamped := by
  simp only [SnapshotLane.work, place]
  exact {
    converts := stamped.converts
    promises := by cases second <;> exact trivial
    force := fun _ set => absurd rfl set
    retry := fun set => absurd rfl set
    replay := fun _ _ set => absurd rfl set
    selected := fun _ _ set => absurd rfl set
    adopted := fun set => absurd rfl set
    latest := fun generation request latest => by
      cases latest
      exact List.mem_cons_self }

/-- Every step of the worker keeps what the stamps rest on. -/
theorem work (stamped : s.Stamped) (reply : TransportReply α) : (s.work reply).Stamped := by
  have promises := stamped.promises
  cases place : s.phase
  all_goals simp only [Promises, place, SnapshotPhase.Promised] at promises
  case raise second desired => exact stamped.raise place reply
  all_goals simp only [SnapshotLane.work, place]
  case publish generation answer => exact stamped.publish place
  case rebind => exact stamped.rebind place
  case take => exact stamped.take place
  case gate next =>
    split
    · exact stamped.depart _ rfl trivial
    · exact stamped.pass (by rw [place]; rfl) _ (by rw [place]; rfl) promises
  case unmark next =>
    exact { stamped.pass (by rw [place]; rfl) next (by rw [place]; rfl) promises with }
  case report status next =>
    exact { stamped.pass (by rw [place]; rfl) next (by rw [place]; rfl) promises with }
  case leave =>
    exact { stamped.depart .disconnect rfl trivial with
      converts := stamped.converts
      force := by simp [SnapshotPhase.leaving]
      selected := by simp [SnapshotPhase.leaving]
      adopted := fun set => List.mem_cons_of_mem _ (stamped.adopted set)
      latest := fun generation request latest => List.mem_cons_of_mem _ (stamped.latest generation request latest) }
  case disconnect => exact { stamped.depart .bury rfl trivial with }
  case bury => exact { stamped.depart .clearPending rfl trivial with }
  case clearPending => exact { stamped.depart .clearNotified rfl trivial with }
  case clearNotified => exact { stamped.depart .stopped rfl trivial with }
  case stopped => exact stamped
  -- Everywhere else the worker is in its loop and past what a configuration starts with.
  all_goals have left : s.phase.leaving = false := by rw [place]; rfl
  all_goals have rebinding : s.phase.rebinding = false := by rw [place]; rfl
  case adopt second =>
    split
    · exact { stamped.move left rebinding (.raise second _) trivial with }
    · cases second <;> exact stamped.move left rebinding _ trivial
  case tryReceive =>
    split
    · exact stamped.receive left rebinding _ trivial
    · split <;> exact stamped.move left rebinding _ trivial
  case retryDue woken =>
    split
    · rename_i due
      -- A configured worker has no retry to wait for.
      have unset : s.configurationGeneration = 0 := by
        by_contra set
        rw [stamped.retry set] at due
        cases due
      refine stamped.unset_move unset ?_
      cases latest : s.latestConfiguration with
      | none => trivial
      | some configuration => exact ⟨unset, rfl, stamped.latest _ _ latest⟩
    · exact stamped.move left rebinding _ trivial
  case compare generation request =>
    split
    · exact stamped.move left rebinding _ trivial
    · exact stamped.move left rebinding _ promises
  case configure generation request =>
    obtain ⟨unset, retry, adopted⟩ := promises
    exact {
      converts := stamped.converts
      promises := ⟨⟨unset, retry, List.mem_cons_of_mem _ adopted⟩, fun succeeded => if_pos succeeded⟩
      force := fun _ set => absurd unset set
      retry := fun set => absurd unset set
      replay := fun _ _ set => absurd unset set
      selected := fun _ _ set => absurd unset set
      adopted := fun set => absurd unset set
      latest := fun generation request latest =>
        List.mem_cons_of_mem _ (stamped.latest generation request latest) }
  case healthDue woken => split <;> exact stamped.move left rebinding _ trivial
  case probe => exact stamped.move left rebinding _ trivial
  case probed healthy =>
    cases healthy with
    | false => exact stamped.failStream 1 _
    | true => exact { stamped.move left rebinding .loop trivial with }
  case invalidate failed delay =>
    have unset := promises
    exact {
      converts := stamped.converts
      promises := unset
      force := fun _ set => absurd unset set
      retry := fun set => absurd unset set
      replay := fun _ _ set => absurd unset set
      selected := fun _ _ set => absurd unset set
      adopted := fun set => absurd unset set
      latest := fun generation request latest =>
        List.mem_cons_of_mem _ (stamped.latest generation request latest) }
  case recover delay => exact stamped.move left rebinding _ promises
  case schedule delay => exact stamped.unset_move promises trivial
  case decide woken => split <;> exact stamped.move left rebinding _ trivial
  case wait =>
    split
    · exact stamped.receive left rebinding _ trivial
    · split
      · exact stamped.move left rebinding _ trivial
      · split
        · exact stamped.move left rebinding _ trivial
        · exact stamped
  case drain =>
    split
    · exact stamped.move left rebinding _ trivial
    · rename_i set
      split
      · exact stamped.move left rebinding _ set
      · exact stamped.failStream 0 _
  case drainAgain o =>
    split
    · exact stamped.move left rebinding _ promises
    · exact stamped.failStream 0 _
  case convert o =>
    obtain ⟨set, -, configuration, connection⟩ := promises
    have force := stamped.force left set
    exact { stamped.move left rebinding (.gate (.converted reply.result)) trivial with
      converts := ⟨by rw [configuration, connection]; exact force, stamped.converts⟩
      force := fun _ _ => force
      adopted := fun set => List.mem_cons_of_mem _ (stamped.adopted set)
      latest := fun generation request latest =>
        List.mem_cons_of_mem _ (stamped.latest generation request latest) }
  case converted result =>
    cases result with
    | some result => exact { stamped.move left rebinding .loop trivial with }
    | none => exact stamped.failStream 0 _

/-- What the input thread records changes nothing that is in force. -/
theorem record (stamped : s.Stamped) {e : SnapshotEvent} (same : inForce (e :: s.history) = inForce s.history)
    (converts : ConvertsInForce (e :: s.history)) : { s with history := e :: s.history }.Stamped :=
  { stamped with
    converts := converts
    promises := SnapshotPhase.Promised.record same stamped.promises
    force := fun left set => same ▸ stamped.force left set
    adopted := fun set => List.mem_cons_of_mem _ (stamped.adopted set)
    latest := fun generation request latest =>
      List.mem_cons_of_mem _ (stamped.latest generation request latest) }

/-- Every step of the input thread in a call keeps what the stamps rest on. -/
theorem proceed (stamped : s.Stamped) : s.proceed.Stamped := by
  have sent (command : SnapshotCommand) : (s.queueCommand command).Stamped := by
    unfold queueCommand
    split
    · exact { stamped with }
    · exact stamped
  cases place : s.caller
  all_goals simp only [SnapshotLane.proceed, place]
  case pushing snapshot =>
    have recorded : { s with history := .accepted ⟨s.pushes, snapshot⟩ :: s.history }.Stamped :=
      stamped.record rfl stamped.converts
    exact { recorded with }
  case notifying =>
    split
    · exact { sent .workAvailable with }
    · exact { stamped with }
    · exact { stamped with }
  case announcing => exact { sent .desiredConfigurationChanged with }
  case waking => exact { sent .workAvailable with }
  case dropClose => exact { sent .close with }
  case offering snapshot => split <;> exact { stamped with }
  case swapping => split <;> exact { stamped with }
  all_goals exact { stamped with }

/-- Every step of the system keeps what the stamps rest on. -/
theorem step (stamped : s.Stamped) (op : SnapshotOp ρ α) : (s.step op).Stamped := by
  cases op with
  | tick elapsed => exact { stamped with }
  | proceed => exact stamped.proceed
  | work reply => exact stamped.work reply
  | drop =>
    simp only [SnapshotLane.step, drop]
    split
    · exact { stamped.record (e := .closed) rfl stamped.converts with }
    · exact stamped
  | readConnection => simp only [SnapshotLane.step]; split <;> exact { stamped with }
  | trySnapshotStatus => simp only [SnapshotLane.step]; split <;> exact { stamped with }
  | tryResult => simp only [SnapshotLane.step]; split <;> exact { stamped with }
  | tryLiveSnapshot snapshot =>
    simp only [SnapshotLane.step, tryLiveSnapshot]
    split
    · split <;> exact { stamped with }
    · exact stamped
  | tryConfigureSnapshot generation request =>
    simp only [SnapshotLane.step, tryConfigureSnapshot]
    split <;> exact { stamped with }
  | tryAutoCommitReceipt =>
    simp only [SnapshotLane.step, tryAutoCommitReceipt]
    split
    · split <;> exact { stamped with }
    · exact stamped

/-- An empty lane promises nothing about stamps. -/
theorem start (capacity : Nat) (policy : RetryPolicy) :
    (SnapshotLane.start (ρ := ρ) (α := α) capacity policy).Stamped where
  converts := trivial
  promises := trivial
  force _ set := absurd rfl set
  retry _ := rfl
  replay _ _ _ := rfl
  selected _ _ _ _ := nofun
  adopted set := absurd rfl set
  latest _ _ := nofun

end Stamped

end SnapshotLane

end Nospacekey
