import Mathlib.Data.List.DropRight
import Mathlib.Data.List.Induction
import Nospacekey.Library.Runs
import Nospacekey.Prediction.State

/-! A ghost answers the latest request within its deadline, and a request carries the text committed before it. -/

namespace Nospacekey

open Runs

/-- The calls that the prediction state receives. -/
inductive PredictionEvent where
  | onCommit (source : CommitSource) (text : Text) (anchor now : Nat)
  | poll (now : Nat)
  | invalidate (reason : Invalidation)
  | onResult (seq : Nat) (text : Text) (now : Nat)
  | expirePending (now : Nat)
  | acceptGhost (anchor now : Nat)
  | dismissGhost

/-- The time that a call carries. -/
def PredictionEvent.time : PredictionEvent → Option Nat
  | .onCommit _ _ _ now | .poll now | .onResult _ _ now | .expirePending now | .acceptGhost _ now => some now
  | .invalidate _ | .dismissGhost => none

namespace PredictionState

/-- At most one of the debounce, the pending request and the ghost is present. -/
structure Exclusive (s : PredictionState) : Prop where
  debounced : s.debounce ≠ none → s.pending = none ∧ s.ghost = none
  requested : s.pending ≠ none → s.ghost = none

/-- One call of the state. -/
def step (s : PredictionState) : PredictionEvent → PredictionState
  | .onCommit source text anchor now => s.onCommit source text anchor now
  | .poll now => (s.poll now).1
  | .invalidate reason => s.invalidate reason
  | .onResult seq text now => (s.onResult seq text now).1
  | .expirePending now => (s.expirePending now).1
  | .acceptGhost anchor now => (s.acceptGhost anchor now).1
  | .dismissGhost => s.dismissGhost.1

/-- A call starts a prediction, as a commit of its own or as the commit of a ghost. -/
def Starts (s : PredictionState) : PredictionEvent → Prop
  | .onCommit source _ _ _ => source.startsPrediction = true
  | .acceptGhost _ _ => s.ghost ≠ none
  | _ => False

/-- A call commits nothing, and neither invalidates, replaces, expires nor answers the pending request. -/
def Leaves (s : PredictionState) : PredictionEvent → Prop
  | .onCommit .. => False
  | .poll now => (s.poll now).2 = none
  | .invalidate _ => False
  | .onResult seq _ _ => ∀ pending, s.pending = some pending → seq ≠ pending.seq
  | .expirePending now => (s.expirePending now).2 = false
  | .acceptGhost _ _ => s.ghost = none
  | .dismissGhost => s.dismissGhost.2 = false

variable {s : PredictionState}

/-- A commit leaves no request and no ghost, and keeps its context where it starts a prediction. -/
theorem onCommit_spec (s : PredictionState) (source : CommitSource) (text : Text) (anchor now : Nat) :
    (s.onCommit source text anchor now).pending = none ∧ (s.onCommit source text anchor now).ghost = none ∧
      (s.onCommit source text anchor now).contextBefore =
        (if source.startsPrediction then pushContext s.contextBefore text else []) ∧
      (source.startsPrediction = false → (s.onCommit source text anchor now).debounce = none) := by
  unfold onCommit
  cases starts : source.startsPrediction with
  | false => exact ⟨rfl, rfl, rfl, fun _ => rfl⟩
  | true =>
    -- What was active is dropped first, and without activity there was nothing to drop.
    cases active : s.hasActivity with
    | true =>
      simp only [Bool.not_true, Bool.false_eq_true, if_false, if_true]
      split <;> exact ⟨rfl, rfl, rfl, nofun⟩
    | false =>
      have nothing : s.pending = none ∧ s.ghost = none := by
        simp only [hasActivity, Bool.or_eq_false_iff, Option.isSome_eq_false_iff, Option.isNone_iff_eq_none] at active
        exact ⟨active.1.2, active.2⟩
      simp only [Bool.not_true, Bool.false_eq_true, if_false, if_true]
      split <;> exact ⟨nothing.1, nothing.2, rfl, nofun⟩

/-- A commit raises the counter by one at most. -/
theorem onCommit_nextSeq (s : PredictionState) (source : CommitSource) (text : Text) (anchor now : Nat) :
    (s.onCommit source text anchor now).nextSeq = s.nextSeq ∨
      (s.onCommit source text anchor now).nextSeq = u64SaturatingAdd s.nextSeq 1 := by
  unfold onCommit
  cases source.startsPrediction with
  | false => exact .inr rfl
  | true =>
    cases s.hasActivity with
    | true =>
      simp only [Bool.not_true, Bool.false_eq_true, if_false, if_true]
      split <;> exact .inr rfl
    | false =>
      simp only [Bool.not_true, Bool.false_eq_true, if_false]
      split <;> exact .inl rfl

/-- A poll issues a request when it is due, and else it changes the debounce at most. -/
theorem poll_spec (s : PredictionState) (now : Nat) :
    ((s.poll now).2 = none ∧ ((s.poll now).1 = s ∨ (s.poll now).1 = { s with debounce := none })) ∨
      ∃ dueAt anchor, s.debounce = some (dueAt, anchor) ∧
        (s.poll now).2 = some ⟨u64SaturatingAdd s.nextSeq 1, s.contextBefore, anchor, u64SaturatingAdd now deadlineMs⟩ ∧
        (s.poll now).1 = { s with
          debounce := none
          nextSeq := u64SaturatingAdd s.nextSeq 1
          pending := some ⟨u64SaturatingAdd s.nextSeq 1, anchor, u64SaturatingAdd now deadlineMs⟩ } := by
  unfold poll
  split
  · exact .inl ⟨rfl, .inr rfl⟩
  · split
    · exact .inl ⟨rfl, .inl rfl⟩
    · rename_i dueAt anchor due
      split
      · exact .inl ⟨rfl, .inl rfl⟩
      · exact .inr ⟨dueAt, anchor, due, rfl, rfl⟩

/-- A result for another request changes nothing, and one for the pending request ends it. -/
theorem onResult_spec (s : PredictionState) (seq : Nat) (text : Text) (now : Nat) :
    ((s.onResult seq text now).1 = s ∧ (s.onResult seq text now).2 = none ∧
        ∀ pending, s.pending = some pending → seq ≠ pending.seq) ∨
      ∃ pending, s.pending = some pending ∧ seq = pending.seq ∧
        (((s.onResult seq text now).1 = { s with pending := none } ∧ (s.onResult seq text now).2 = none) ∨
          (now ≤ pending.deadlineAt ∧ minPredictionChars ≤ (text.take maxPredictionChars).length ∧
            (s.onResult seq text now).1 = { s with
              pending := none
              ghost := some ⟨seq, text.take maxPredictionChars, pending.anchor⟩ } ∧
            (s.onResult seq text now).2 = some ⟨seq, text.take maxPredictionChars, pending.anchor⟩)) := by
  unfold onResult
  split
  · rename_i nothing
    exact .inl ⟨rfl, rfl, by simp [nothing]⟩
  · rename_i pending awaited
    split
    · rename_i other
      refine .inl ⟨rfl, rfl, fun held same => ?_⟩
      obtain rfl := Option.some.inj (awaited.symm.trans same)
      exact other
    · rename_i same
      refine .inr ⟨pending, awaited, by simpa using same, ?_⟩
      dsimp only
      split
      · exact .inl ⟨rfl, rfl⟩
      · rename_i timely
        split
        · exact .inl ⟨rfl, rfl⟩
        · rename_i enough
          exact .inr ⟨by omega, by omega, rfl, rfl⟩

/-- A request expires behind its deadline, and else nothing changes. -/
theorem expirePending_spec (s : PredictionState) (now : Nat) :
    ((s.expirePending now).1 = s ∧ (s.expirePending now).2 = false) ∨
      (s.expirePending now).1 = { s with pending := none } := by
  unfold expirePending
  split
  · exact .inl ⟨rfl, rfl⟩
  · split
    · exact .inl ⟨rfl, rfl⟩
    · exact .inr rfl

/-- A ghost is accepted as a commit of its text, where there is one. -/
theorem acceptGhost_spec (s : PredictionState) (anchor now : Nat) :
    (s.ghost = none ∧ (s.acceptGhost anchor now).1 = s) ∨
      ∃ ghost, s.ghost = some ghost ∧
        (s.acceptGhost anchor now).1 = { s with ghost := none }.onCommit .acceptedPrediction ghost.text anchor now := by
  unfold acceptGhost
  split
  · rename_i nothing
    exact .inl ⟨nothing, rfl⟩
  · rename_i ghost shown
    exact .inr ⟨ghost, shown, rfl⟩

/-- A ghost is dismissed with its context, where there is one. -/
theorem dismissGhost_spec (s : PredictionState) :
    (s.ghost = none ∧ s.dismissGhost = (s, false)) ∨
      (s.ghost ≠ none ∧
        s.dismissGhost = ({ s with ghost := none, suppressedContext := some s.contextBefore }, true)) := by
  unfold dismissGhost
  split
  · rename_i nothing
    exact .inl ⟨nothing, rfl⟩
  · rename_i ghost shown
    exact .inr ⟨by simp [shown], rfl⟩

/-- Every call keeps the three slots exclusive. -/
theorem Exclusive.step (exclusive : s.Exclusive) (event : PredictionEvent) : (s.step event).Exclusive := by
  cases event with
  | onCommit source text anchor now =>
    obtain ⟨pending, ghost, _⟩ := s.onCommit_spec source text anchor now
    exact ⟨fun _ => ⟨pending, ghost⟩, fun _ => ghost⟩
  | poll now =>
    simp only [PredictionState.step]
    obtain ⟨_, same | same⟩ | ⟨dueAt, anchor, due, _, same⟩ := s.poll_spec now
    · rwa [same]
    · rw [same]
      exact ⟨fun held => absurd rfl held, exclusive.requested⟩
    · -- The debounce was present, so no ghost was.
      rw [same]
      exact ⟨fun held => absurd rfl held, fun _ => (exclusive.debounced (by simp [due])).2⟩
  | invalidate reason =>
    simp only [PredictionState.step, PredictionState.invalidate]
    split <;> exact ⟨fun held => absurd rfl held, fun _ => rfl⟩
  | onResult seq text now =>
    simp only [PredictionState.step]
    obtain ⟨same, _⟩ | ⟨pending, awaited, _, ⟨same, _⟩ | ⟨_, _, same, _⟩⟩ := s.onResult_spec seq text now
    · rwa [same]
    · rw [same]
      exact ⟨fun held => ⟨rfl, (exclusive.debounced held).2⟩, fun held => absurd rfl held⟩
    · -- The request was pending, so no debounce was present.
      rw [same]
      refine ⟨fun held => ?_, fun held => absurd rfl held⟩
      cases (exclusive.debounced held).1.symm.trans awaited
  | expirePending now =>
    simp only [PredictionState.step]
    obtain ⟨same, _⟩ | same := s.expirePending_spec now
    · rwa [same]
    · rw [same]
      exact ⟨fun held => ⟨rfl, (exclusive.debounced held).2⟩, fun held => absurd rfl held⟩
  | acceptGhost anchor now =>
    simp only [PredictionState.step]
    obtain ⟨_, same⟩ | ⟨ghost, _, same⟩ := s.acceptGhost_spec anchor now
    · rwa [same]
    · rw [same]
      obtain ⟨pending, gone, _⟩ := onCommit_spec { s with ghost := none } .acceptedPrediction ghost.text anchor now
      exact ⟨fun _ => ⟨pending, gone⟩, fun _ => gone⟩
  | dismissGhost =>
    simp only [PredictionState.step]
    obtain ⟨_, same⟩ | ⟨_, same⟩ := s.dismissGhost_spec
    · rwa [same]
    · rw [same]
      exact ⟨fun held => ⟨(exclusive.debounced held).1, rfl⟩, fun _ => rfl⟩

/-- What becomes of the pending request: it is left, it ends, or a poll has replaced it by its own. -/
theorem step_pending (exclusive : s.Exclusive) (event : PredictionEvent) :
    (s.step event).pending = none ∨ ((s.step event).pending = s.pending ∧ s.Leaves event) ∨
      ∃ now request, event = .poll now ∧ (s.poll now).2 = some request ∧
        (s.step event).pending = some request.awaited := by
  cases event with
  | onCommit source text anchor now => exact .inl (s.onCommit_spec source text anchor now).1
  | poll now =>
    simp only [PredictionState.step]
    obtain ⟨unissued, same | same⟩ | ⟨dueAt, anchor, _, issued, same⟩ := s.poll_spec now
    · exact .inr (.inl ⟨by rw [same], unissued⟩)
    · exact .inr (.inl ⟨by rw [same], unissued⟩)
    · exact .inr (.inr ⟨now, _, rfl, issued, by rw [same]; rfl⟩)
  | invalidate reason =>
    left
    simp only [PredictionState.step, PredictionState.invalidate]
    split <;> rfl
  | onResult seq text now =>
    simp only [PredictionState.step]
    obtain ⟨same, _, other⟩ | ⟨pending, _, _, ⟨same, _⟩ | ⟨_, _, same, _⟩⟩ := s.onResult_spec seq text now
    · exact .inr (.inl ⟨by rw [same], other⟩)
    · exact .inl (by rw [same])
    · exact .inl (by rw [same])
  | expirePending now =>
    simp only [PredictionState.step]
    obtain ⟨same, kept⟩ | same := s.expirePending_spec now
    · exact .inr (.inl ⟨by rw [same], kept⟩)
    · exact .inl (by rw [same])
  | acceptGhost anchor now =>
    simp only [PredictionState.step]
    obtain ⟨nothing, same⟩ | ⟨ghost, _, same⟩ := s.acceptGhost_spec anchor now
    · exact .inr (.inl ⟨by rw [same], nothing⟩)
    · left
      rw [same]
      exact (onCommit_spec _ _ _ _ _).1
  | dismissGhost =>
    simp only [PredictionState.step]
    obtain ⟨_, same⟩ | ⟨shown, same⟩ := s.dismissGhost_spec
    · exact .inr (.inl ⟨by rw [same], by simp [Leaves, same]⟩)
    · -- Beside a ghost nothing was pending.
      left
      rw [same]
      by_contra awaited
      exact shown (exclusive.requested awaited)

/-- No call lowers the counter, and none raises it by more than one. -/
theorem step_nextSeq (s : PredictionState) (event : PredictionEvent) :
    (s.step event).nextSeq = s.nextSeq ∨ (s.step event).nextSeq = u64SaturatingAdd s.nextSeq 1 := by
  cases event with
  | onCommit source text anchor now => exact s.onCommit_nextSeq source text anchor now
  | poll now =>
    simp only [PredictionState.step]
    obtain ⟨_, same | same⟩ | ⟨_, _, _, _, same⟩ := s.poll_spec now
    · exact .inl (by rw [same])
    · exact .inl (by rw [same])
    · exact .inr (by rw [same])
  | invalidate reason =>
    right
    simp only [PredictionState.step, PredictionState.invalidate]
    split <;> rfl
  | onResult seq text now =>
    left
    simp only [PredictionState.step]
    obtain ⟨same, _⟩ | ⟨_, _, _, ⟨same, _⟩ | ⟨_, _, same, _⟩⟩ := s.onResult_spec seq text now <;> rw [same]
  | expirePending now =>
    left
    simp only [PredictionState.step]
    obtain ⟨same, _⟩ | same := s.expirePending_spec now <;> rw [same]
  | acceptGhost anchor now =>
    simp only [PredictionState.step]
    obtain ⟨_, same⟩ | ⟨ghost, _, same⟩ := s.acceptGhost_spec anchor now
    · exact .inl (by rw [same])
    · rw [same]
      exact onCommit_nextSeq { s with ghost := none } _ _ _ _
  | dismissGhost =>
    left
    simp only [PredictionState.step]
    obtain ⟨_, same⟩ | ⟨_, same⟩ := s.dismissGhost_spec <;> rw [same]

/-- The counter never falls, and rises by one for each call at most. -/
theorem exec_nextSeq (s : PredictionState) (events : List PredictionEvent) :
    (exec step s events).nextSeq ≤ s.nextSeq + events.length ∧
      (s.nextSeq < 2 ^ 64 → s.nextSeq ≤ (exec step s events).nextSeq) := by
  -- One call after the other, and a counter that is full stays so.
  induction events generalizing s with
  | nil => exact ⟨Nat.le_refl _, fun _ => Nat.le_refl _⟩
  | cons event events ih =>
    obtain ⟨above, below⟩ := ih (s.step event)
    simp only [exec_cons, List.length_cons]
    obtain same | same := s.step_nextSeq event
    · rw [same] at above below
      exact ⟨by omega, below⟩
    · rw [same] at above below
      have raised := u64SaturatingAdd_le s.nextSeq 1
      exact ⟨by omega, fun fits => Nat.le_trans (le_u64SaturatingAdd 1 fits) (below (u64SaturatingAdd_lt _ _))⟩

/-- A run has polled the request that is pending, and left it alone since. -/
def Awaited (events : List PredictionEvent) (pending : PendingRequest) : Prop :=
  ∃ front polled between request, events = front ++ .poll polled :: between ∧
    ((exec step initial front).poll polled).2 = some request ∧ pending = request.awaited ∧
    Admissible step Leaves (exec step initial (front ++ [.poll polled])) between

/-- In every run the slots are exclusive and the pending request is accounted for. -/
theorem run_awaited (events : List PredictionEvent) :
    (exec step initial events).Exclusive ∧
      ∀ pending, (exec step initial events).pending = some pending → Awaited events pending := by
  -- The calls are added one at a time at the end.
  induction events using List.reverseRecOn with
  | nil => exact ⟨⟨fun held => absurd rfl held, fun held => absurd rfl held⟩, nofun⟩
  | append_singleton events event ih =>
    obtain ⟨exclusive, awaited⟩ := ih
    have last : exec step initial (events ++ [event]) = (exec step initial events).step event := by
      rw [exec_append]
      rfl
    rw [last]
    refine ⟨exclusive.step event, fun pending held => ?_⟩
    obtain gone | ⟨same, leaves⟩ | ⟨polled, request, rfl, issued, placed⟩ := step_pending exclusive event
    · cases gone.symm.trans held
    · obtain ⟨front, polled, between, request, rfl, issued, same', alone⟩ := awaited pending (same ▸ held)
      refine ⟨front, polled, between ++ [event], request, by simp, issued, same', ?_⟩
      refine admissible_append.mpr ⟨alone, ?_, trivial⟩
      rw [← exec_append]
      simpa using leaves
    · obtain rfl := Option.some.inj (held.symm.trans placed)
      exact ⟨events, polled, [], request, rfl, issued, rfl, trivial⟩

end PredictionState

/-- The state with the text that was committed since the context was cleared last. -/
structure PredictionSession where
  state : PredictionState
  committed : Text

namespace PredictionSession

/-- Nothing is committed before the first call. -/
def initial : PredictionSession := ⟨.initial, []⟩

/-- The committed text behind a call. -/
def committedAfter (s : PredictionSession) : PredictionEvent → Text
  | .onCommit source text _ _ => if source.startsPrediction then s.committed ++ text else []
  | .invalidate reason => if reason.clearsContext then [] else s.committed
  | .acceptGhost _ _ => s.committed ++ (s.state.ghost.map PredictionGhost.text).getD []
  | _ => s.committed

/-- One call of the state. -/
def step (s : PredictionSession) (event : PredictionEvent) : PredictionSession :=
  ⟨s.state.step event, s.committedAfter event⟩

/-- The state of a session is that of its calls. -/
theorem exec_state (s : PredictionSession) (events : List PredictionEvent) :
    (exec step s events).state = exec PredictionState.step s.state events := by
  induction events generalizing s with
  | nil => rfl
  | cons event events ih => exact ih (s.step event)

/-- Cutting the beginning once more does not matter. -/
theorem rtake_rtake_append (count : Nat) (front back : Text) :
    (front.rtake count ++ back).rtake count = (front ++ back).rtake count := by
  unfold List.rtake
  rcases Nat.le_total front.length count with short | long
  · rw [Nat.sub_eq_zero_of_le short, List.drop_zero]
  · -- What was cut lies before what is kept.
    rw [← List.drop_append_of_le_length (Nat.sub_le _ _), List.drop_drop]
    congr 1
    simp only [List.length_drop, List.length_append]
    omega

/-- A pushed context is the end of both. -/
theorem pushContext_eq (context text : Text) :
    PredictionState.pushContext context text = (context ++ text).rtake maxContextChars := by
  unfold PredictionState.pushContext List.rtake
  dsimp only
  split
  · rfl
  · rename_i short
    rw [Nat.sub_eq_zero_of_le (by omega), List.drop_zero]

/-- The context is the end of the committed text. -/
def Recalls (s : PredictionSession) : Prop := s.state.contextBefore = s.committed.rtake maxContextChars

/-- Nothing is committed and nothing is recalled before the first call. -/
theorem initial_recalls : initial.Recalls := (List.rtake_nil _).symm

/-- Every call keeps the context the end of the committed text. -/
theorem Recalls.step {s : PredictionSession} (recalls : s.Recalls) (event : PredictionEvent) :
    (s.step event).Recalls := by
  unfold Recalls at recalls ⊢
  -- A text pushed to the context is pushed to the committed text.
  have pushed (text : Text) : PredictionState.pushContext s.state.contextBefore text =
      (s.committed ++ text).rtake maxContextChars := by
    rw [pushContext_eq, recalls, rtake_rtake_append]
  cases event with
  | onCommit source text anchor now =>
    have context := (s.state.onCommit_spec source text anchor now).2.2.1
    simp only [PredictionSession.step, PredictionState.step, committedAfter, context]
    split
    · exact pushed text
    · rfl
  | poll now =>
    simp only [PredictionSession.step, PredictionState.step, committedAfter]
    obtain ⟨_, same | same⟩ | ⟨_, _, _, _, same⟩ := s.state.poll_spec now <;> rwa [same]
  | invalidate reason =>
    simp only [PredictionSession.step, PredictionState.step, PredictionState.invalidate, committedAfter]
    split
    · rfl
    · exact recalls
  | onResult seq text now =>
    simp only [PredictionSession.step, PredictionState.step, committedAfter]
    obtain ⟨same, _⟩ | ⟨_, _, _, ⟨same, _⟩ | ⟨_, _, same, _⟩⟩ := s.state.onResult_spec seq text now <;> rwa [same]
  | expirePending now =>
    simp only [PredictionSession.step, PredictionState.step, committedAfter]
    obtain ⟨same, _⟩ | same := s.state.expirePending_spec now <;> rwa [same]
  | acceptGhost anchor now =>
    simp only [PredictionSession.step, PredictionState.step, committedAfter]
    obtain ⟨nothing, same⟩ | ⟨ghost, shown, same⟩ := s.state.acceptGhost_spec anchor now
    · rw [same, nothing]
      simpa using recalls
    · rw [same, shown]
      exact (PredictionState.onCommit_spec _ _ _ _ _).2.2.1.trans (pushed ghost.text)
  | dismissGhost =>
    simp only [PredictionSession.step, PredictionState.step, committedAfter]
    obtain ⟨_, same⟩ | ⟨_, same⟩ := s.state.dismissGhost_spec <;> rwa [same]

/-- Nothing is due, pending or shown. -/
def Quiet (s : PredictionState) : Prop := s.debounce = none ∧ s.pending = none ∧ s.ghost = none

/-- Without a starting commit nothing becomes due again. -/
theorem Quiet.step {s : PredictionState} (quiet : Quiet s) {event : PredictionEvent} (idle : ¬ s.Starts event) :
    Quiet (s.step event) := by
  obtain ⟨due, pending, ghost⟩ := quiet
  cases event with
  | onCommit source text anchor now =>
    obtain ⟨unrequested, unshown, _, undue⟩ := s.onCommit_spec source text anchor now
    exact ⟨undue (by simpa [PredictionState.Starts] using idle), unrequested, unshown⟩
  | poll now =>
    simp only [PredictionState.step]
    obtain ⟨_, same | same⟩ | ⟨_, _, held, _⟩ := s.poll_spec now
    · rw [same]
      exact ⟨due, pending, ghost⟩
    · rw [same]
      exact ⟨rfl, pending, ghost⟩
    · cases due.symm.trans held
  | invalidate reason =>
    simp only [PredictionState.step, PredictionState.invalidate]
    split <;> exact ⟨rfl, rfl, rfl⟩
  | onResult seq text now =>
    simp only [PredictionState.step]
    obtain ⟨same, _⟩ | ⟨awaited, held, _⟩ := s.onResult_spec seq text now
    · rw [same]
      exact ⟨due, pending, ghost⟩
    · cases pending.symm.trans held
  | expirePending now =>
    simp only [PredictionState.step]
    obtain ⟨same, _⟩ | same := s.expirePending_spec now <;> rw [same]
    · exact ⟨due, pending, ghost⟩
    · exact ⟨due, rfl, ghost⟩
  | acceptGhost anchor now =>
    simp only [PredictionState.step]
    obtain ⟨_, same⟩ | ⟨shown, held, _⟩ := s.acceptGhost_spec anchor now
    · rw [same]
      exact ⟨due, pending, ghost⟩
    · cases ghost.symm.trans held
  | dismissGhost =>
    simp only [PredictionState.step]
    obtain ⟨_, same⟩ | ⟨_, same⟩ := s.dismissGhost_spec <;> rw [same]
    · exact ⟨due, pending, ghost⟩
    · exact ⟨due, pending, rfl⟩

/-- Nothing is requested while nothing is due. -/
theorem Quiet.unrequested {s : PredictionState} (quiet : Quiet s) (now : Nat) : (s.poll now).2 = none := by
  obtain ⟨unissued, _⟩ | ⟨_, _, held, _⟩ := s.poll_spec now
  · exact unissued
  · cases quiet.1.symm.trans held

/-- A ghost answers the latest request: the text is the beginning of its result, and nothing came in between. -/
structure Fresh (events : List PredictionEvent) (seq : Nat) (text : Text) (now : Nat) (ghost : PredictionGhost) :
    Prop where
  latest : ∃ front polled between request, events = front ++ .poll polled :: between ∧
    ((exec PredictionState.step .initial front).poll polled).2 = some request ∧ request.seq = seq ∧
    Admissible PredictionState.step PredictionState.Leaves
      (exec PredictionState.step .initial (front ++ [.poll polled])) between ∧
    now ≤ polled + deadlineMs ∧
    (((events ++ [PredictionEvent.onResult seq text now]).filterMap PredictionEvent.time).Pairwise (· ≤ ·) → polled ≤ now) ∧
    ghost.anchor = request.anchor ∧
    -- No earlier request has the number of this one.
    (events.length < 2 ^ 64 - 1 → ∀ earlier polled' later request', front = earlier ++ .poll polled' :: later →
      ((exec PredictionState.step .initial earlier).poll polled').2 = some request' → request'.seq < seq)
  numbered : ghost.seq = seq
  cut : ghost.text = text.take maxPredictionChars
  bounded : minPredictionChars ≤ ghost.text.length ∧ ghost.text.length ≤ maxPredictionChars

/-- The number of a request is the counter behind it. -/
theorem poll_seq {s : PredictionState} {now : Nat} {request : PredictionRequest}
    (issued : (s.poll now).2 = some request) :
    request.seq = u64SaturatingAdd s.nextSeq 1 ∧ (s.poll now).1.nextSeq = request.seq ∧
      request.contextBefore = s.contextBefore ∧ request.deadlineAt = u64SaturatingAdd now deadlineMs := by
  obtain ⟨unissued, _⟩ | ⟨_, _, _, returned, same⟩ := s.poll_spec now
  · cases unissued.symm.trans issued
  · obtain rfl := Option.some.inj (returned.symm.trans issued)
    exact ⟨rfl, by rw [same], rfl, rfl⟩

/-- A ghost that a result brings up is fresh. -/
theorem fresh_of_onResult {events : List PredictionEvent} {seq : Nat} {text : Text} {now : Nat}
    {ghost : PredictionGhost}
    (answered : ((exec PredictionState.step .initial events).onResult seq text now).2 = some ghost) :
    Fresh events seq text now ghost := by
  obtain ⟨_, unanswered, _⟩ | ⟨pending, awaited, rfl, ⟨_, unanswered⟩ | ⟨timely, enough, _, returned⟩⟩ :=
    (exec PredictionState.step .initial events).onResult_spec seq text now
  · cases unanswered.symm.trans answered
  · cases unanswered.symm.trans answered
  · obtain rfl := Option.some.inj (returned.symm.trans answered)
    refine ⟨?_, rfl, rfl, enough, List.length_take_le _ _⟩
    obtain ⟨front, polled, between, request, rfl, issued, rfl, alone⟩ :=
      (PredictionState.run_awaited events).2 pending awaited
    obtain ⟨number, _, _, deadline⟩ := poll_seq issued
    refine ⟨front, polled, between, request, rfl, issued, rfl, alone, ?_, fun ordered => ?_, rfl, ?_⟩
    · exact Nat.le_trans (deadline ▸ timely) (u64SaturatingAdd_le _ _)
    · -- The poll precedes the result.
      simp only [List.filterMap_append, List.filterMap_cons, List.filterMap_nil, PredictionEvent.time,
        List.append_assoc, List.cons_append, List.pairwise_append, List.pairwise_cons] at ordered
      exact ordered.2.1.1 now (by simp)
    · rintro few earlier polled' later request' rfl issued'
      -- The counter has passed the number of the earlier request, and is not full.
      obtain ⟨_, counter, _⟩ := poll_seq issued'
      have passed : exec PredictionState.step .initial (earlier ++ .poll polled' :: later) =
          exec PredictionState.step
            ((exec PredictionState.step .initial earlier).poll polled').1 later := by
        rw [exec_append, exec_cons]
        rfl
      have bound := (PredictionState.exec_nextSeq .initial (earlier ++ .poll polled' :: later)).1
      have front := (PredictionState.exec_nextSeq
        ((exec PredictionState.step .initial earlier).poll polled').1 later).2
      rw [← passed, counter] at front
      have below := front ((poll_seq issued').1 ▸ u64SaturatingAdd_lt _ _)
      simp only [List.length_append, List.length_cons] at few bound
      have start : PredictionState.initial.nextSeq = 0 := rfl
      have numbered := number.trans (u64SaturatingAdd_of_lt (by omega))
      exact Nat.lt_of_lt_of_eq (Nat.lt_succ_of_le below) numbered.symm

/-- In every run at most one of the debounce, the request and the ghost is present; a ghost is fresh; a request carries
the end of what was committed since its context was cleared; and after a ghost was dismissed nothing is requested
until a commit starts the next prediction. -/
theorem run_prediction (events : List PredictionEvent) :
    let s := exec step initial events
    s.state.Exclusive ∧
      (∀ seq text now ghost, (s.state.onResult seq text now).2 = some ghost → Fresh events seq text now ghost) ∧
      (∀ now request, (s.state.poll now).2 = some request →
        request.contextBefore = s.committed.rtake maxContextChars) ∧
      (s.state.dismissGhost.2 = true → ∀ later now,
        Admissible step (fun t event => ¬ t.state.Starts event) (s.step .dismissGhost) later →
        ((exec step (s.step .dismissGhost) later).state.poll now).2 = none) := by
  have state : (exec step initial events).state = exec PredictionState.step .initial events :=
    exec_state initial events
  have exclusive : (exec step initial events).state.Exclusive := by
    rw [state]
    exact (PredictionState.run_awaited events).1
  have recalls : (exec step initial events).Recalls :=
    exec_invariant_all Recalls (fun _ event recalls => recalls.step event) initial_recalls events
  refine ⟨exclusive, ?_, ?_, ?_⟩
  · rw [state]
    exact fun seq text now ghost answered => fresh_of_onResult answered
  · exact fun now request issued => (poll_seq issued).2.2.1.trans recalls
  · intro dismissed later now idle
    -- Beside the ghost nothing was due or pending.
    have quiet : Quiet ((exec step initial events).step .dismissGhost).state := by
      obtain ⟨_, same⟩ | ⟨shown, same⟩ := (exec step initial events).state.dismissGhost_spec
      · simp [same] at dismissed
      · simp only [PredictionSession.step, PredictionState.step, same]
        refine ⟨?_, ?_, rfl⟩
        · by_contra due
          exact shown (exclusive.debounced due).2
        · by_contra pending
          exact shown (exclusive.requested pending)
    exact (exec_invariant (fun t : PredictionSession => Quiet t.state)
      (fun _ _ quiet idle => quiet.step idle) quiet idle).unrequested now

/-- A result for another request does not end the pending one, and without a ghost a dismissal suppresses nothing. -/
theorem onResult_other :
    let requested := exec PredictionState.step .initial
      [.onCommit .enter (List.replicate 8 'あ') 7 0, .poll 300]
    let other := requested.onResult 2 ['い', 'う'] 350
    let dismissed := (PredictionState.initial.onCommit .enter (List.replicate 8 'あ') 7 0).dismissGhost
    requested.pending.map PendingRequest.seq = some 1 ∧ other.2 = none ∧
      (other.1.onResult 1 ['い', 'う'] 360).2 = some ⟨1, ['い', 'う'], 7⟩ ∧
      dismissed.2 = false ∧ (dismissed.1.poll 300).2.isSome = true := by
  decide

end PredictionSession

end Nospacekey
