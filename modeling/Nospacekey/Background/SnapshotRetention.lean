import Nospacekey.Background.SnapshotStamps

/-! The newest snapshot stays on the lane until it is converted, unless its stamps arrive too early. -/

namespace Nospacekey

/-- Snapshots that are the same but for the connection have one configuration. -/
theorem Offered.configuration_of_detached {h o : Offered} (alike : h.detached = o.detached) :
    h.configuration = o.configuration := by
  have same : h.detached.configuration = o.detached.configuration := by rw [alike]
  exact same

/-- Snapshots that are the same but for the connection have one number. -/
theorem Offered.serial_of_detached {h o : Offered} (alike : h.detached = o.detached) : h.serial = o.serial := by
  have same : h.detached.serial = o.detached.serial := by rw [alike]
  exact same

/-- The event excuses a loss of the snapshot: a newer configuration, or the end of the lane. -/
def SnapshotEvent.excuses (o : Offered) : SnapshotEvent → Bool
  | .adopted generation => o.configuration < generation
  | .closed => true
  | _ => false

/-- The snapshot that the engine is still to be given: the newest accepted one, as long as it was not
converted, no newer configuration was adopted, the engine's version did not mismatch, and the lane is
not given up. -/
def awaited : List SnapshotEvent → Option Offered
  | .accepted o :: rest => if rest.any (·.excuses o) then none else some o
  | .converted o :: rest => (awaited rest).filter (·.serial ≠ o.serial)
  | .configured _ _ outcome :: rest => if outcome.isVersionMismatch then none else awaited rest
  | .adopted generation :: rest => (awaited rest).filter (!·.configuration < generation)
  | .invalidated _ :: rest => awaited rest
  | .closed :: _ | [] => none

/-- What is awaited after an event that accepts nothing was awaited before it. -/
theorem awaited_of_cons {event : SnapshotEvent} {history : List SnapshotEvent} {o : Offered}
    (new : ∀ accepted, event ≠ .accepted accepted) (after : awaited (event :: history) = some o) :
    awaited history = some o := by
  cases event with
  | accepted accepted => exact absurd rfl (new accepted)
  | converted converted => exact (Option.filter_eq_some_iff.mp after).1
  | configured generation epoch outcome =>
    simp only [awaited] at after
    split at after
    · cases after
    · exact after
  | adopted generation => exact (Option.filter_eq_some_iff.mp after).1
  | invalidated epoch => exact after
  | closed => cases after

/-- Nothing is awaited once the lane is given up. -/
theorem awaited_closed {history : List SnapshotEvent} (closed : .closed ∈ history) : awaited history = none := by
  induction history with
  | nil => cases closed
  | cons event history ih =>
    rcases List.mem_cons.mp closed with rfl | before
    · rfl
    · cases event with
      | accepted o => exact if_pos (List.any_eq_true.mpr ⟨.closed, before, rfl⟩)
      | _ => simp [awaited, ih before]

/-- An awaited snapshot is not older than any configuration that was adopted. -/
theorem le_of_awaited {history : List SnapshotEvent} {o : Offered} (waits : awaited history = some o)
    {generation : Nat} (adopted : .adopted generation ∈ history) : generation ≤ o.configuration := by
  induction history with
  | nil => cases adopted
  | cons event history ih =>
    cases event with
    | accepted accepted =>
      simp only [awaited] at waits
      split at waits
      · cases waits
      · rename_i unexcused
        cases waits
        have before : .adopted generation ∈ history := by simpa using adopted
        by_contra newer
        exact unexcused (List.any_eq_true.mpr ⟨_, before, by simpa [SnapshotEvent.excuses] using newer⟩)
    | adopted raised =>
      obtain ⟨waited, old⟩ := Option.filter_eq_some_iff.mp waits
      rcases List.mem_cons.mp adopted with same | before
      · cases same
        simpa using old
      · exact ih waited before
    | _ => exact ih (awaited_of_cons (by intro _ same; cases same) waits) (by simpa using adopted)

namespace SnapshotLane

variable {ρ α : Type} {s : SnapshotLane ρ α}

/-- The snapshots that the lane will still offer to the engine. -/
def held (s : SnapshotLane ρ α) : List Offered :=
  s.pendingSnapshot.toList ++ s.selectedReplaySnapshot.toList ++
    (if s.replayLatestSnapshot then s.latestSnapshot.toList else []) ++ s.phase.held

/-- The awaited snapshot is on the lane, perhaps under another connection epoch. -/
def Kept (s : SnapshotLane ρ α) : Prop :=
  ∀ o, awaited s.history = some o → ∃ h ∈ s.held, h.detached = o.detached

/-- The worker does not meet the awaited snapshot before its stamps are in force: a configuration that
it was just given is not older than the snapshot's, and a snapshot of the configuration in force that
it takes does not come from another connection. -/
def Timely (s : SnapshotLane ρ α) : SnapshotOp ρ α → Prop
  | .work _ =>
    (s.phase = .rebind → ∀ o, awaited s.history = some o → o.configuration ≤ s.configurationGeneration) ∧
      (s.phase = .take → ∀ o c, awaited s.history = some o → s.chosen = some c → c.serial = o.serial →
        c.configuration ≤ s.configurationGeneration ∧
          (c.configuration = s.configurationGeneration → c.connection = s.connectionEpoch))
  | _ => True

/-- What the whereabouts of the awaited snapshot rest on: of two that are there, the one further back
is not older. -/
structure Retained (s : SnapshotLane ρ α) : Prop where
  kept : s.Kept
  pending : ∀ o p, awaited s.history = some o → s.pendingSnapshot = some p → p = o
  selected : ∀ o l h, awaited s.history = some o → s.latestSnapshot = some l → l.detached = o.detached →
    s.selectedReplaySnapshot = some h → h.detached = o.detached
  pendingBound : ∀ p, s.pendingSnapshot = some p → p.serial < s.pushes
  selectedBound : ∀ h, s.selectedReplaySnapshot = some h → h.serial < s.pushes
  latestBound : ∀ l, s.latestSnapshot = some l → l.serial < s.pushes

/-- A step that moves no snapshot to another place, as far as one is awaited, and accepts none. -/
structure Quiet (s s' : SnapshotLane ρ α) : Prop where
  pending : s'.pendingSnapshot = s.pendingSnapshot
  selected : s'.selectedReplaySnapshot = s.selectedReplaySnapshot
  latest : s'.latestSnapshot = s.latestSnapshot
  pushes : s'.pushes = s.pushes
  keeps : ∀ o, awaited s'.history = some o → awaited s.history = some o ∧ s.held ⊆ s'.held

/-- A quiet step leaves the awaited snapshot where it is. -/
theorem Retained.quiet (retained : s.Retained) {s' : SnapshotLane ρ α} (quiet : Quiet s s') : s'.Retained where
  kept o waits := by
    obtain ⟨waited, held⟩ := quiet.keeps o waits
    obtain ⟨h, member, same⟩ := retained.kept o waited
    exact ⟨h, held member, same⟩
  pending o p waits here := retained.pending o p (quiet.keeps o waits).1 (quiet.pending ▸ here)
  selected o l h waits latest same chosen :=
    retained.selected o l h (quiet.keeps o waits).1 (quiet.latest ▸ latest) same (quiet.selected ▸ chosen)
  pendingBound p here := quiet.pushes ▸ retained.pendingBound p (quiet.pending ▸ here)
  selectedBound h here := quiet.pushes ▸ retained.selectedBound h (quiet.selected ▸ here)
  latestBound l here := quiet.pushes ▸ retained.latestBound l (quiet.latest ▸ here)

/-- A worker that goes on without letting go of a snapshot is quiet. -/
theorem quiet_of_same {s' : SnapshotLane ρ α} (pending : s'.pendingSnapshot = s.pendingSnapshot)
    (selected : s'.selectedReplaySnapshot = s.selectedReplaySnapshot)
    (latest : s'.latestSnapshot = s.latestSnapshot) (pushes : s'.pushes = s.pushes)
    (replay : s'.replayLatestSnapshot = s.replayLatestSnapshot) (held : s.phase.held ⊆ s'.phase.held)
    (history : ∀ o, awaited s'.history = some o → awaited s.history = some o) : Quiet s s' where
  pending := pending
  selected := selected
  latest := latest
  pushes := pushes
  keeps o waits := by
    refine ⟨history o waits, ?_⟩
    unfold SnapshotLane.held
    rw [pending, selected, latest, replay]
    exact List.append_subset.mpr ⟨List.subset_append_left _ _, List.Subset.trans held (List.subset_append_right _ _)⟩

/-- A stream that fails is quiet when what it had under way is kept for a replay. -/
theorem failStream_quiet {attempts : Nat} {replay : Bool}
    (held : ∀ o ∈ s.phase.held, replay = true ∧ s.latestSnapshot = some o)
    (before : s.replayLatestSnapshot = true → replay = true ∨ s.latestSnapshot = none) :
    Quiet s (s.failStream attempts replay) where
  pending := rfl
  selected := rfl
  latest := rfl
  pushes := rfl
  keeps o waits := by
    refine ⟨waits, fun h member => ?_⟩
    simp only [SnapshotLane.held, List.mem_append] at member ⊢
    rcases member with ((pending | selected) | replayed) | here
    · exact .inl (.inl (.inl pending))
    · exact .inl (.inl (.inr selected))
    · split at replayed
      · rename_i raised
        rcases before raised with kept | none
        · exact .inl (.inr (by simpa [failStream, kept] using replayed))
        · rw [none] at replayed
          cases replayed
      · cases replayed
    · obtain ⟨kept, latest⟩ := held h here
      exact .inl (.inr (by simp [failStream, kept, latest]))

/-- A command that the worker receives moves no snapshot. -/
theorem receive_quiet (empty : s.phase.held = []) (command : SnapshotCommand) (woken : SnapshotPhase ρ α) :
    Quiet s (s.receive command woken) := by
  have nothing {phase : SnapshotPhase ρ α} : s.phase.held ⊆ phase.held := by
    rw [empty]
    exact List.nil_subset _
  cases command <;> exact quiet_of_same rfl rfl rfl rfl rfl nothing fun _ => id

/-- The worker's steps are quiet except where it takes, sorts out or hands on a snapshot, or leaves. -/
theorem work_quiet (awake : s.Awake) (stamped : s.Stamped) (reply : TransportReply α)
    (rebind : s.phase ≠ .rebind) (take : s.phase ≠ .take) (convert : ∀ o, s.phase ≠ .convert o)
    (clear : s.phase ≠ .clearPending) : Quiet s (s.work reply) := by
  have promises := stamped.promises
  have nothing {phase : SnapshotPhase ρ α} (empty : s.phase.held = []) : s.phase.held ⊆ phase.held := by
    rw [empty]
    exact List.nil_subset _
  have move (phase : SnapshotPhase ρ α) (held : s.phase.held ⊆ phase.held) : Quiet s { s with phase := phase } :=
    quiet_of_same rfl rfl rfl rfl rfl held fun _ => id
  -- An event of the worker that accepts nothing has nothing else to be awaited.
  have record {event : SnapshotEvent} (other : ∀ o, event ≠ .accepted o) (o : Offered)
      (waits : awaited (event :: s.history) = some o) : awaited s.history = some o :=
    awaited_of_cons other waits
  have replayed : s.replayLatestSnapshot = true → s.latestSnapshot.isSome = true ∨ s.latestSnapshot = none :=
    fun _ => by cases s.latestSnapshot <;> simp
  cases place : s.phase
  all_goals simp only [Promises, place, SnapshotPhase.Promised] at promises
  all_goals simp only [SnapshotLane.work, place]
  case rebind => exact absurd place rebind
  case take => exact absurd place take
  case convert o => exact absurd place (convert o)
  case clearPending => exact absurd place clear
  case gate next =>
    split
    · rename_i down
      have closed := awaited_closed (awake.shutdown down)
      exact ⟨rfl, rfl, rfl, rfl, fun o waits => by
        have waits : awaited s.history = some o := waits
        rw [closed] at waits
        cases waits⟩
    · exact move next (by rw [place]; exact List.Subset.refl _)
  case unmark next => exact quiet_of_same rfl rfl rfl rfl rfl (by rw [place]; exact List.Subset.refl _) fun _ => id
  case report status next =>
    exact quiet_of_same rfl rfl rfl rfl rfl (by rw [place]; exact List.Subset.refl _) fun _ => id
  case drainAgain o =>
    obtain ⟨-, latest, -⟩ := promises
    split
    · exact move (.convert o) (by rw [place]; exact List.Subset.refl _)
    · exact failStream_quiet (fun h member => by
        rw [place] at member
        exact ⟨rfl, by rw [latest, List.mem_singleton.mp member]⟩) fun _ => .inl rfl
  -- Everywhere else the worker has nothing in hand.
  all_goals have empty : s.phase.held = [] := by rw [place]; rfl
  case adopt second => split <;> exact quiet_of_same rfl rfl rfl rfl rfl (nothing empty) fun _ => id
  case raise second desired =>
    exact quiet_of_same rfl rfl rfl rfl rfl (nothing empty) (record fun _ => by simp)
  case tryReceive =>
    split
    · exact receive_quiet empty _ _
    · exact quiet_of_same rfl rfl rfl rfl rfl (nothing empty) fun _ => id
  case wait =>
    split
    · exact receive_quiet empty _ _
    · split
      · exact move .leave (nothing empty)
      · split
        · exact move .loop (nothing empty)
        · exact quiet_of_same rfl rfl rfl rfl rfl (List.Subset.refl _) fun _ => id
  case retryDue woken => split <;> exact quiet_of_same rfl rfl rfl rfl rfl (nothing empty) fun _ => id
  case configure generation request =>
    exact quiet_of_same rfl rfl rfl rfl rfl (nothing empty) (record fun _ => by simp)
  case publish generation answer =>
    unfold SnapshotLane.publish
    split
    · exact quiet_of_same rfl rfl rfl rfl rfl (nothing empty) fun _ => id
    · exact quiet_of_same rfl rfl rfl rfl rfl (nothing empty) fun _ => id
    · exact quiet_of_same rfl rfl rfl rfl rfl (nothing empty) (record fun _ => by simp)
  case probed healthy =>
    cases healthy with
    | true => exact quiet_of_same rfl rfl rfl rfl rfl (nothing empty) fun _ => id
    | false => exact failStream_quiet (by rw [empty]; simp) replayed
  case invalidate failed delay =>
    exact quiet_of_same rfl rfl rfl rfl rfl (nothing empty) (record fun _ => by simp)
  case drain =>
    split
    · exact move .loop (nothing empty)
    · split
      · exact move .take (nothing empty)
      · exact failStream_quiet (by rw [empty]; simp) replayed
  case converted result =>
    cases result with
    | some result => exact quiet_of_same rfl rfl rfl rfl rfl (nothing empty) fun _ => id
    | none => exact failStream_quiet (by rw [empty]; simp) fun _ => .inl rfl
  case leave =>
    exact quiet_of_same rfl rfl rfl rfl rfl (nothing empty) (record fun _ => by simp)
  all_goals exact quiet_of_same rfl rfl rfl rfl rfl (nothing empty) fun _ => id

/-- A snapshot of the current configuration is rebound, and is the same but for its connection. -/
theorem rebound_eq_some {o : Offered} (same : o.configuration = s.configurationGeneration) :
    s.rebound o = some (o.reconnect s.connectionEpoch) := if_pos same

/-- What is rebound is the same but for its connection. -/
theorem rebound_detached {o o' : Offered} (rebound : s.rebound o = some o') :
    o'.detached = o.detached ∧ o'.serial = o.serial := by
  unfold SnapshotLane.rebound at rebound
  split at rebound
  · cases rebound
    exact ⟨rfl, rfl⟩
  · cases rebound

@[simp] theorem unchoose_history : s.unchoose.history = s.history := by
  unfold unchoose
  split <;> rfl

@[simp] theorem unchoose_pushes : s.unchoose.pushes = s.pushes := by
  unfold unchoose
  split <;> rfl

@[simp] theorem unchoose_latestSnapshot : s.unchoose.latestSnapshot = s.latestSnapshot := by
  unfold unchoose
  split <;> rfl

/-- The worker takes what was selected for a replay, or what is pending when nothing is. -/
theorem chosen_cases {c : Offered} (chosen : s.chosen = some c) :
    s.selectedReplaySnapshot = some c ∧ s.unchoose = { s with selectedReplaySnapshot := none } ∨
      s.selectedReplaySnapshot = none ∧ s.pendingSnapshot = some c ∧
        s.unchoose = { s with pendingSnapshot := none } := by
  unfold SnapshotLane.chosen at chosen
  unfold unchoose
  cases selected : s.selectedReplaySnapshot with
  | some h =>
    rw [selected] at chosen
    exact .inl ⟨by simpa using chosen, by simp⟩
  | none =>
    rw [selected] at chosen
    exact .inr ⟨rfl, by simpa using chosen, by simp⟩

/-- Where the worker takes a snapshot, the lane holds what is pending or selected. -/
theorem held_of_take (stamped : s.Stamped) (place : s.phase = .take) :
    s.held = s.pendingSnapshot.toList ++ s.selectedReplaySnapshot.toList := by
  have set : s.configurationGeneration ≠ 0 := by
    have promises := stamped.promises
    simpa only [Promises, place, SnapshotPhase.Promised] using promises
  have replay := stamped.replay (by rw [place]; rfl) (by rw [place]; rfl) set
  simp [held, place, replay, SnapshotPhase.held]

namespace Retained

/-- An awaited snapshot whose configuration has come is selected for a replay. -/
theorem selected_of_rebind (retained : s.Retained) (place : s.phase = .rebind) {o : Offered}
    (waits : awaited s.history = some o) (same : o.configuration = s.configurationGeneration) :
    ∃ h, s.rebind.selectedReplaySnapshot = some h ∧ h.detached = o.detached := by
  have again {h : Offered} (alike : h.detached = o.detached) :
      s.rebound h = some (h.reconnect s.connectionEpoch) := by
    exact rebound_eq_some ((Offered.configuration_of_detached alike).trans same)
  cases pending : s.pendingSnapshot with
  | some p =>
    -- What is pending is the newest snapshot, and goes first.
    obtain rfl := retained.pending o p waits pending
    exact ⟨p.reconnect s.connectionEpoch, by simp [SnapshotLane.rebind, pending, again rfl], rfl⟩
  | none =>
    obtain ⟨h, member, alike⟩ := retained.kept o waits
    cases selected : s.selectedReplaySnapshot with
    | some h' =>
      have alike' : h'.detached = o.detached := by
        simp only [held, pending, selected, place, SnapshotPhase.held, Option.toList_none, Option.toList_some,
          List.nil_append, List.append_nil, List.mem_append, List.mem_singleton] at member
        rcases member with rfl | replayed
        · exact alike
        · split at replayed
          · exact retained.selected o h h' waits (by simpa using replayed) alike selected
          · cases replayed
      exact ⟨h'.reconnect s.connectionEpoch, by simp [SnapshotLane.rebind, pending, selected, again alike'], alike'⟩
    | none =>
      simp only [held, pending, selected, place, SnapshotPhase.held, Option.toList_none, List.nil_append,
        List.append_nil] at member
      split at member
      · rename_i replay
        have latest : s.latestSnapshot = some h := by simpa using member
        exact ⟨h.reconnect s.connectionEpoch,
          by simp [SnapshotLane.rebind, pending, selected, replay, latest, again alike], alike⟩
      · cases member

/-- A configuration that is not older than the awaited snapshot loses nothing as it comes. -/
theorem rebind (retained : s.Retained) (stamped : s.Stamped) (place : s.phase = .rebind)
    (timely : ∀ o, awaited s.history = some o → o.configuration ≤ s.configurationGeneration) :
    s.rebind.Retained := by
  have arrives {o : Offered} (waits : awaited s.history = some o) :
      ∃ h, s.rebind.selectedReplaySnapshot = some h ∧ h.detached = o.detached := by
    refine retained.selected_of_rebind place waits (Nat.le_antisymm (timely o waits) ?_)
    by_cases set : s.configurationGeneration = 0
    · rw [set]
      exact Nat.zero_le _
    · exact le_of_awaited waits (stamped.adopted set)
  refine ⟨fun o waits => ?_, fun o p _ => nofun, fun o l h waits _ _ selected => ?_, nofun, fun h selected => ?_,
    retained.latestBound⟩
  · obtain ⟨h, selected, alike⟩ := arrives waits
    exact ⟨h, by simp [held, selected], alike⟩
  · obtain ⟨h', selected', alike⟩ := arrives waits
    rw [selected] at selected'
    cases selected'
    exact alike
  · -- Whichever of the three is selected was on the lane before.
    rcases Option.or_eq_some_iff.mp selected with first | ⟨-, attempted⟩
    · rcases Option.or_eq_some_iff.mp first with pending | ⟨-, before⟩
      · obtain ⟨p, here, rebound⟩ := Option.bind_eq_some_iff.mp pending
        exact (rebound_detached rebound).2 ▸ retained.pendingBound p here
      · obtain ⟨h', here, rebound⟩ := Option.bind_eq_some_iff.mp before
        exact (rebound_detached rebound).2 ▸ retained.selectedBound h' here
    · split at attempted
      · obtain ⟨l, here, rebound⟩ := Option.bind_eq_some_iff.mp attempted
        exact (rebound_detached rebound).2 ▸ retained.latestBound l here
      · cases attempted

/-- The worker takes the awaited snapshot, or leaves it pending behind the one it takes. -/
theorem held_of_chosen (retained : s.Retained) (stamped : s.Stamped) (place : s.phase = .take) {o c : Offered}
    (waits : awaited s.history = some o) (chosen : s.chosen = some c) :
    c.detached = o.detached ∨ s.unchoose.pendingSnapshot = some o := by
  obtain ⟨h, member, alike⟩ := retained.kept o waits
  rw [held_of_take stamped place] at member
  rcases chosen_cases chosen with ⟨selected, rest⟩ | ⟨selected, pending, rest⟩
  · rw [selected] at member
    rcases List.mem_append.mp member with pending | same
    · have pending : s.pendingSnapshot = some h := by simpa using pending
      obtain rfl := retained.pending o h waits pending
      exact .inr (by rw [rest]; exact pending)
    · obtain rfl : h = c := by simpa using same
      exact .inl alike
  · rw [selected, pending] at member
    obtain rfl : h = c := by simpa using member
    exact .inl alike

/-- A snapshot that is taken in time goes on to the engine; another one is dropped. -/
theorem take (retained : s.Retained) (stamped : s.Stamped) (place : s.phase = .take)
    (timely : ∀ o c, awaited s.history = some o → s.chosen = some c → c.serial = o.serial →
      c.configuration ≤ s.configurationGeneration ∧
        (c.configuration = s.configurationGeneration → c.connection = s.connectionEpoch)) :
    s.take.Retained := by
  have set : s.configurationGeneration ≠ 0 := by
    have promises := stamped.promises
    simpa only [Promises, place, SnapshotPhase.Promised] using promises
  unfold SnapshotLane.take
  cases chosen : s.chosen with
  | none =>
    exact retained.quiet (quiet_of_same rfl rfl rfl rfl rfl (by rw [place]; exact List.nil_subset _) fun _ => id)
  | some c =>
    have selected : s.unchoose.selectedReplaySnapshot = none := by
      rcases chosen_cases chosen with ⟨-, rest⟩ | ⟨selected, -, rest⟩
      · rw [rest]
      · rw [rest]; exact selected
    have pending {p : Offered} (here : s.unchoose.pendingSnapshot = some p) : s.pendingSnapshot = some p := by
      rcases chosen_cases chosen with ⟨-, rest⟩ | ⟨-, -, rest⟩
      · rw [rest] at here; exact here
      · rw [rest] at here; cases here
    have bound : c.serial < s.pushes := by
      rcases chosen_cases chosen with ⟨selected, -⟩ | ⟨-, pending, -⟩
      · exact retained.selectedBound c selected
      · exact retained.pendingBound c pending
    dsimp only
    split
    · exact {
        kept := fun o waits => by
          rcases retained.held_of_chosen stamped place (by simpa using waits) chosen with alike | here
          · exact ⟨c, by simp [held, SnapshotPhase.held], alike⟩
          · exact ⟨o, by simp [held, here], rfl⟩
        pending := fun o p waits here => retained.pending o p (by simpa using waits) (pending here)
        selected := fun o l h _ _ _ here => by
          rw [show s.unchoose.selectedReplaySnapshot = some h from here] at selected
          cases selected
        pendingBound := fun p here => by simpa using retained.pendingBound p (pending here)
        selectedBound := fun h here => by
          rw [show s.unchoose.selectedReplaySnapshot = some h from here] at selected
          cases selected
        latestBound := fun l here => by
          cases here
          simpa using bound }
    · rename_i other
      exact {
        kept := fun o waits => by
          have waits : awaited s.history = some o := by simpa using waits
          rcases retained.held_of_chosen stamped place waits chosen with alike | here
          · -- The awaited snapshot would be dropped here, and it is not: its stamps are in force.
            exfalso
            obtain ⟨late, connected⟩ := timely o c waits chosen (Offered.serial_of_detached alike)
            have old := le_of_awaited waits (stamped.adopted set)
            rw [← Offered.configuration_of_detached alike] at old
            have same := Nat.le_antisymm late old
            exact other ⟨same, connected same⟩
          · exact ⟨o, by simp [held, here], rfl⟩
        pending := fun o p waits here => retained.pending o p (by simpa using waits) (pending here)
        selected := fun o l h _ _ _ here => by
          rw [show s.unchoose.selectedReplaySnapshot = some h from here] at selected
          cases selected
        pendingBound := fun p here => by simpa using retained.pendingBound p (pending here)
        selectedBound := fun h here => by
          rw [show s.unchoose.selectedReplaySnapshot = some h from here] at selected
          cases selected
        latestBound := fun l here => by simpa using retained.latestBound l (by simpa using here) }

/-- A snapshot that was handed to the engine is awaited no longer; another one stays where it is. -/
theorem convert (retained : s.Retained) {c : Offered} (place : s.phase = .convert c) (reply : TransportReply α) :
    (s.work reply).Retained := by
  simp only [SnapshotLane.work, place]
  have before {o : Offered} (waits : awaited (.converted c :: s.history) = some o) :
      awaited s.history = some o ∧ o.serial ≠ c.serial := by
    simpa using Option.filter_eq_some_iff.mp waits
  exact {
    kept := fun o waits => by
      obtain ⟨waited, other⟩ := before waits
      obtain ⟨h, member, alike⟩ := retained.kept o waited
      refine ⟨h, ?_, alike⟩
      simp only [held, place, SnapshotPhase.held, List.mem_append, List.mem_singleton] at member ⊢
      rcases member with elsewhere | rfl
      · exact .inl elsewhere
      · exact absurd (Offered.serial_of_detached alike).symm other
    pending := fun o p waits => retained.pending o p (before waits).1
    selected := fun o l h waits => retained.selected o l h (before waits).1
    pendingBound := retained.pendingBound
    selectedBound := retained.selectedBound
    latestBound := retained.latestBound }

/-- Once the lane is given up, what was pending may go. -/
theorem clear (retained : s.Retained) (closed : .closed ∈ s.history) : { s with pendingSnapshot := none }.Retained where
  kept o waits := by
    have waits : awaited s.history = some o := waits
    rw [awaited_closed closed] at waits
    cases waits
  pending _ _ _ := nofun
  selected := retained.selected
  pendingBound _ := nofun
  selectedBound := retained.selectedBound
  latestBound := retained.latestBound

/-- Every step of the worker that comes in time keeps the awaited snapshot. -/
theorem work (retained : s.Retained) (awake : s.Awake) (stamped : s.Stamped) {reply : TransportReply α}
    (timely : s.Timely (.work reply)) : (s.work reply).Retained := by
  by_cases rebind : s.phase = .rebind
  · simp only [SnapshotLane.work, rebind]
    exact retained.rebind stamped rebind (timely.1 rebind)
  by_cases take : s.phase = .take
  · simp only [SnapshotLane.work, take]
    exact retained.take stamped take (timely.2 take)
  by_cases clear : s.phase = .clearPending
  · have closed := awake.leaving (by rw [clear]; rfl)
    simp only [SnapshotLane.work, clear]
    exact (retained.clear closed).quiet
      (quiet_of_same rfl rfl rfl rfl rfl (by dsimp only; rw [clear]; exact List.nil_subset _) fun _ => id)
  by_cases convert : ∃ c, s.phase = .convert c
  · obtain ⟨c, convert⟩ := convert
    exact retained.convert convert reply
  · exact retained.quiet (work_quiet awake stamped reply rebind take (fun o here => convert ⟨o, here⟩) clear)

/-- A pushed snapshot takes the place of what was pending, and is the one that is awaited. -/
theorem push (retained : s.Retained) (snapshot : CompositionSnapshot) (caller : SnapshotCaller) :
    { s with
      pendingSnapshot := some ⟨s.pushes, snapshot⟩
      pushes := s.pushes + 1
      history := .accepted ⟨s.pushes, snapshot⟩ :: s.history
      caller := caller }.Retained := by
  have newest {o : Offered} (waits : awaited (.accepted ⟨s.pushes, snapshot⟩ :: s.history) = some o) :
      o = ⟨s.pushes, snapshot⟩ := by
    simp only [awaited] at waits
    split at waits
    · cases waits
    · cases waits
      rfl
  exact {
    kept := fun o waits => ⟨o, by simp [held, newest waits], rfl⟩
    pending := fun o p waits here => by
      cases here
      exact (newest waits).symm
    selected := fun o l h waits latest alike => by
      -- What was under way before has a smaller number.
      have number := Offered.serial_of_detached alike
      have bound := retained.latestBound l latest
      rw [newest waits] at number
      exact absurd number (Nat.ne_of_lt bound)
    pendingBound := fun p here => by
      cases here
      exact Nat.lt_succ_self _
    selectedBound := fun h here => Nat.lt_succ_of_lt (retained.selectedBound h here)
    latestBound := fun l here => Nat.lt_succ_of_lt (retained.latestBound l here) }

/-- Every step of the input thread in a call keeps the awaited snapshot. -/
theorem proceed (retained : s.Retained) (awake : s.Awake) : s.proceed.Retained := by
  have sent (command : SnapshotCommand) : (s.queueCommand command).Retained := by
    unfold queueCommand
    split
    · exact { retained with }
    · exact retained
  cases place : s.caller
  all_goals simp only [SnapshotLane.proceed, place]
  case pushing snapshot => exact retained.push snapshot .swapping
  case notifying =>
    split
    · exact { sent .workAvailable with }
    · exact { retained with }
    · exact { retained with }
  case announcing => exact { sent .desiredConfigurationChanged with }
  case waking => exact { sent .workAvailable with }
  case dropClose => exact { sent .close with }
  case withdrawing =>
    have closed := awake.leaving (awake.receiver (awake.retreating (by rw [place]; rfl)))
    exact { retained.clear closed with }
  case dropPending => exact { retained.clear (awake.dropping (by rw [place]; rfl)) with }
  case offering snapshot => split <;> exact { retained with }
  case swapping => split <;> exact { retained with }
  all_goals exact { retained with }

/-- Every step of the system that comes in time keeps the awaited snapshot. -/
theorem step (retained : s.Retained) (awake : s.Awake) (stamped : s.Stamped) {op : SnapshotOp ρ α}
    (timely : s.Timely op) : (s.step op).Retained := by
  cases op with
  | tick elapsed => exact { retained with }
  | proceed => exact retained.proceed awake
  | work reply => exact retained.work awake stamped timely
  | drop =>
    simp only [SnapshotLane.step, drop]
    split
    · exact retained.quiet (quiet_of_same rfl rfl rfl rfl rfl (List.Subset.refl _) fun _ => by simp [awaited])
    · exact retained
  | readConnection => simp only [SnapshotLane.step]; split <;> exact { retained with }
  | trySnapshotStatus => simp only [SnapshotLane.step]; split <;> exact { retained with }
  | tryResult => simp only [SnapshotLane.step]; split <;> exact { retained with }
  | tryLiveSnapshot snapshot =>
    simp only [SnapshotLane.step, tryLiveSnapshot]
    split
    · split <;> exact { retained with }
    · exact retained
  | tryConfigureSnapshot generation request =>
    simp only [SnapshotLane.step, tryConfigureSnapshot]
    split <;> exact { retained with }
  | tryAutoCommitReceipt =>
    simp only [SnapshotLane.step, tryAutoCommitReceipt]
    split
    · split <;> exact { retained with }
    · exact retained

/-- Nothing is awaited on an empty lane. -/
theorem start (capacity : Nat) (policy : RetryPolicy) :
    (SnapshotLane.start (ρ := ρ) (α := α) capacity policy).Retained where
  kept _ := nofun
  pending _ _ := nofun
  selected _ _ _ := nofun
  pendingBound _ := nofun
  selectedBound _ := nofun
  latestBound _ := nofun

/-- A configuration that is older than the awaited snapshot loses it as it comes. -/
theorem lost_of_rebind {o : Offered} (waits : awaited s.history = some o)
    (early : ¬ o.configuration ≤ s.configurationGeneration) : ¬ s.rebind.Kept := by
  intro kept
  obtain ⟨h, member, alike⟩ := kept o waits
  have selected : s.rebind.selectedReplaySnapshot = some h := by
    simpa [held, SnapshotLane.rebind, SnapshotPhase.held, SnapshotPhase.loop] using member
  have stamps : h.configuration = s.configurationGeneration := (selected_stamps selected).1
  exact early (by rw [← Offered.configuration_of_detached alike, stamps])

/-- An awaited snapshot that is taken before its stamps are in force is lost. -/
theorem lost_of_take (stamped : s.Stamped) (place : s.phase = .take) {o c : Offered}
    (waits : awaited s.history = some o) (chosen : s.chosen = some c)
    (early : ¬ (c.configuration ≤ s.configurationGeneration ∧
      (c.configuration = s.configurationGeneration → c.connection = s.connectionEpoch))) : ¬ s.take.Kept := by
  have set : s.configurationGeneration ≠ 0 := by
    have promises := stamped.promises
    simpa only [Promises, place, SnapshotPhase.Promised] using promises
  have replay := stamped.replay (by rw [place]; rfl) (by rw [place]; rfl) set
  have other : ¬ (c.configuration = s.configurationGeneration ∧ c.connection = s.connectionEpoch) :=
    fun same => early ⟨Nat.le_of_eq same.1, fun _ => same.2⟩
  rcases chosen_cases chosen with ⟨selected, -⟩ | ⟨selected, pending, rest⟩
  · -- What is selected for a replay carries the stamps in force.
    exact absurd (stamped.selected (by rw [place]; rfl) (by rw [place]; rfl) set c selected) other
  · intro kept
    have after : s.take = { s with pendingSnapshot := none, phase := .loop } := by
      simp only [SnapshotLane.take, chosen, if_neg other, rest]
    rw [after] at kept
    obtain ⟨h, member, -⟩ := kept o waits
    simp [held, selected, replay, SnapshotPhase.held, SnapshotPhase.loop] at member

/-- A step that does not come in time loses the awaited snapshot. -/
theorem lost (stamped : s.Stamped) {op : SnapshotOp ρ α} (early : ¬ s.Timely op) : ¬ (s.step op).Kept := by
  cases op with
  | work reply =>
    simp only [Timely, not_and_or, not_forall] at early
    rcases early with ⟨place, o, waits, early⟩ | ⟨place, o, c, waits, chosen, -, early⟩
    · simp only [SnapshotLane.step, SnapshotLane.work, place]
      exact lost_of_rebind waits early
    · simp only [SnapshotLane.step, SnapshotLane.work, place]
      exact lost_of_take stamped place waits chosen (by simpa only [not_and_or, not_forall] using early)
  | _ => exact absurd trivial early

end Retained

/-- What the lane promises of a state: the awaited snapshot is kept, a worker that could go on is woken,
and every conversion was asked for under the configuration and the connection in force. -/
structure Faithful (s : SnapshotLane ρ α) : Prop where
  kept : s.Kept
  wake : s.WakeAssured
  converts : ConvertsInForce s.history

/-- What every state of a run rests on. -/
structure Sound (s : SnapshotLane ρ α) : Prop where
  awake : s.Awake
  stamped : s.Stamped
  retained : s.Retained

/-- A run meets its promise in every state exactly when the worker meets no awaited snapshot before
its stamps are in force. -/
theorem run_faithful_iff {capacity : Nat} (room : 0 < capacity) (policy : RetryPolicy)
    (ops : List (SnapshotOp ρ α)) :
    (∀ front, front <+: ops → (Runs.exec step (start capacity policy) front).Faithful) ↔
      Runs.Admissible step Timely (start capacity policy) ops :=
  Runs.admissible_iff_forall_front
    (fun _ op sound timely => ⟨sound.awake.step op, sound.stamped.step op,
      sound.retained.step sound.awake sound.stamped timely⟩)
    (fun _ sound => ⟨sound.retained.kept, sound.awake.waiting, sound.stamped.converts⟩)
    (fun _ _ sound early faithful => Retained.lost sound.stamped early faithful.kept)
    (Sound.mk (Awake.start room policy) (Stamped.start capacity policy) (Retained.start capacity policy)) ops

/-- A transport that answers every request, and one whose health probe fails. -/
def answering (healthy : Bool) : TransportReply Unit := ⟨.configured, none, true, healthy, some ()⟩

/-- The input thread reads the connection epoch; the worker loses the connection and is configured
anew; then the input thread offers a snapshot of the epoch it has read. -/
def reconnected : List (SnapshotOp Unit Unit) :=
  List.flatten [
    [.tryConfigureSnapshot 1 ()], List.replicate 2 .proceed, List.replicate 17 (.work (answering true)),
    [.readConnection, .tick 1], List.replicate 16 (.work (answering false)), [.tick 1],
    List.replicate 12 (.work (answering true)),
    [.tryLiveSnapshot ⟨⟨1, 1, 1, 1, 0⟩, .live, [], none, 0⟩], List.replicate 4 .proceed,
    List.replicate 14 (.work (answering true))]

theorem run_faithful_iff_reconnected :
    (∀ front, front <+: reconnected → (Runs.exec step (start 2 ⟨1, 1, 1⟩) front).Faithful) ↔
      Runs.Admissible step Timely (start 2 ⟨1, 1, 1⟩) reconnected :=
  run_faithful_iff (by decide) ⟨1, 1, 1⟩ reconnected

/-- The offered snapshot is accepted, and is gone although nothing excuses its loss. -/
theorem reconnected_lost :
    (Runs.exec step (start 2 ⟨1, 1, 1⟩) reconnected).answer = true ∧
      ¬ (Runs.exec step (start 2 ⟨1, 1, 1⟩) reconnected).Kept := by
  have waits : (awaited (Runs.exec step (start 2 ⟨1, 1, 1⟩) reconnected).history).isSome = true := by decide +kernel
  have gone : (Runs.exec step (start 2 ⟨1, 1, 1⟩) reconnected).held = [] := by decide +kernel
  refine ⟨by decide +kernel, fun kept => ?_⟩
  obtain ⟨o, waits⟩ := Option.isSome_iff_exists.mp waits
  obtain ⟨h, member, -⟩ := kept o waits
  rw [gone] at member
  cases member

end SnapshotLane

end Nospacekey
