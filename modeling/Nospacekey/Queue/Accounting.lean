import Mathlib.Algebra.Order.BigOperators.Group.List
import Mathlib.Algebra.Order.Group.Nat
import Nospacekey.Queue.Conservation

/-! The capacity of the queue over all of its operations, and the queue of a lost owner. -/

namespace Nospacekey

open Runs

/-- A subtraction that fails where it would underflow. -/
def checkedSub (total amount : Nat) : Option Nat := if amount ≤ total then some (total - amount) else none

/-- A covered subtraction succeeds. -/
theorem checkedSub_of_le {total amount : Nat} (covered : amount ≤ total) :
    checkedSub total amount = some (total - amount) := if_pos covered

namespace ConversionQueue

variable {q : ConversionQueue}

/-- `completeFront` with its subtraction checked. -/
def completeFrontChecked (q : ConversionQueue) : Option ConversionQueue :=
  if q.ownerLost then some q
  else do
    let q ←
      match q.actions with
      | [] => some q
      | action :: rest => do
        let units ← checkedSub q.units action.payloadUnits
        some { q with
          actions := rest
          initialReading := if action.isCommit then none else q.initialReading
          suppressCommitPrediction := if action.isCommit then false else q.suppressCommitPrediction
          units := units }
    some (if q.actions.isEmpty && !q.waiting then { q with deadline := none, initialReading := none } else q)

/-- `consumeFrontInsertPrefix` with each of its subtractions checked. -/
def consumeFrontInsertPrefixChecked (q : ConversionQueue) (chars : Nat) : Option ConversionQueue :=
  match q.actions with
  | .insert text original style directCommit :: rest => do
    let remaining := text.drop chars
    let taken ← checkedSub (utf16Length text) (utf16Length remaining)
    let units ← checkedSub q.units taken
    match original with
    | none => some { q with actions := .insert remaining none style directCommit :: rest, units := units }
    | some original => do
      let remainingOriginal := original.drop chars
      let taken ← checkedSub (utf16Length original) (utf16Length remainingOriginal)
      let units ← checkedSub units taken
      some { q with
        actions := .insert remaining (some remainingOriginal) style directCommit :: rest
        units := units }
  | _ => some q

/-- `detach` with the subtraction of the front it completes checked. -/
def detachChecked (q : ConversionQueue) (commitBody : Option Text) (bodyApplied : Bool) : Option ConversionQueue :=
  if q.ownerLost then some q
  else do
    let q := { q with waiting := false }
    let q := if q.actions.any (·.isEdit) then q else { q with actions := [], units := 0 }
    let q ← if bodyApplied && q.front = some .commit then q.completeFrontChecked else some q
    let q := { q with unwrittenCommit := if bodyApplied then none else commitBody }
    if q.actions.isEmpty && q.unwrittenCommit.isNone then some q.clear
    else some { q with ownerLost := true, waiting := false, deadline := none, commitFailed := true }

/-- The front of an exact queue is accounted for. -/
theorem Exact.front_le {action : ConversionAction} {rest : List ConversionAction} (exact : q.Exact)
    (queued : q.actions = action :: rest) : action.payloadUnits ≤ q.units := by
  have whole : q.units = q.payload := exact
  rw [whole, payload_of_cons queued]
  exact Nat.le_add_right _ _

/-- The front of an exact queue is completed without an underflow. -/
theorem Exact.completeFrontChecked (exact : q.Exact) : q.completeFrontChecked = some q.completeFront := by
  unfold ConversionQueue.completeFrontChecked ConversionQueue.completeFront
  split
  · rfl
  · cases queued : q.actions with
    | nil => rfl
    | cons action rest =>
      simp only [checkedSub_of_le (exact.front_le queued), Option.bind_eq_bind, Option.bind_some]

/-- The front Insert of an exact queue is consumed without an underflow. -/
theorem Exact.consumeFrontInsertPrefixChecked (exact : q.Exact) (chars : Nat) :
    q.consumeFrontInsertPrefixChecked chars = some (q.consumeFrontInsertPrefix chars) := by
  unfold ConversionQueue.consumeFrontInsertPrefixChecked ConversionQueue.consumeFrontInsertPrefix
  cases queued : q.actions with
  | nil => rfl
  | cons action rest =>
    cases action with
    | insert text original style directCommit =>
      -- What is taken of either text is covered by what that text was admitted with.
      have front := exact.front_le queued
      have dropped := utf16Length_drop_le text chars
      rw [ConversionAction.payloadUnits] at front
      cases original with
      | none =>
        have covered : utf16Length text - utf16Length (text.drop chars) ≤ q.units := by
          simp only [Option.map_none, Option.getD_none] at front
          omega
        simp [checkedSub_of_le dropped, checkedSub_of_le covered]
      | some original =>
        have droppedOriginal := utf16Length_drop_le original chars
        simp only [Option.map_some, Option.getD_some] at front
        have covered : utf16Length text - utf16Length (text.drop chars) ≤ q.units := by omega
        have coveredOriginal : utf16Length original - utf16Length (original.drop chars) ≤
            q.units - (utf16Length text - utf16Length (text.drop chars)) := by omega
        simp [checkedSub_of_le dropped, checkedSub_of_le covered, checkedSub_of_le droppedOriginal,
          checkedSub_of_le coveredOriginal]
    | _ => rfl

/-- A lost owner is noted without an underflow. -/
theorem Exact.detachChecked (exact : q.Exact) (commitBody : Option Text) (bodyApplied : Bool) :
    q.detachChecked commitBody bodyApplied = some (q.detach commitBody bodyApplied) := by
  unfold ConversionQueue.detachChecked ConversionQueue.detach
  split
  · rfl
  · dsimp only
    generalize keptEq : (if q.actions.any (·.isEdit) then ({ q with waiting := false } : ConversionQueue)
      else { q with waiting := false, actions := [], units := 0 }) = kept
    have kept_exact : kept.Exact := by
      rw [← keptEq]
      split
      · exact exact
      · rfl
    split
    · rw [kept_exact.completeFrontChecked, Option.bind_eq_bind, Option.bind_some]
      exact (apply_ite some _ _ _).symm
    · rw [Option.bind_eq_bind, Option.bind_some]
      exact (apply_ite some _ _ _).symm

/-- The queue stays within its capacity: 4096 payload units and 64 operations. -/
structure Fits (q : ConversionQueue) : Prop where
  units : q.units ≤ 4096
  actions : q.actions.length ≤ 64

/-- A queue no fuller than one that fits fits. -/
theorem Fits.of_le {q' : ConversionQueue} (fits : q.Fits) (units : q'.units ≤ q.units)
    (actions : q'.actions.length ≤ q.actions.length) : q'.Fits :=
  ⟨units.trans fits.units, actions.trans fits.actions⟩

/-- The empty queue fits. -/
theorem default_fits : default.Fits := ⟨Nat.zero_le _, Nat.zero_le _⟩

/-- What is pushed has room. -/
theorem Fits.push (fits : q.Fits) (action : ConversionAction) : (q.push action).1.Fits := by
  unfold ConversionQueue.push
  split
  · exact fits
  · dsimp only
    split
    · exact fits
    · split
      · exact fits
      · rename_i room
        simp only [Bool.or_eq_true, decide_eq_true_eq, not_or, not_le, not_lt] at room
        exact ⟨room.2, by simpa using Nat.le_of_lt_succ (Nat.succ_lt_succ room.1)⟩

/-- What is pushed with a slot in reserve has room. -/
theorem Fits.pushReservingCommit (fits : q.Fits) (action : ConversionAction) :
    (q.pushReservingCommit action).1.Fits := by
  obtain pushed | full := q.pushReservingCommit_cases action
  · rw [pushed]
    exact fits.push action
  · rw [full]
    exact fits

/-- A barrier and its text have room together. -/
theorem Fits.pushCommitThenMappedInsert (fits : q.Fits) (text : Text) (original : Option Text) (style : TextStyle)
    (directCommit : Bool) : (q.pushCommitThenMappedInsert text original style directCommit).1.Fits := by
  unfold ConversionQueue.pushCommitThenMappedInsert
  split
  · exact fits
  · dsimp only
    split
    · exact fits
    · split
      · exact fits
      · rename_i room
        simp only [Bool.or_eq_true, decide_eq_true_eq, not_or, not_lt] at room
        exact ⟨room.2, by simpa using room.1⟩

/-- A barrier before an Insert has room. -/
theorem Fits.prependCommitForInsert (fits : q.Fits) : q.prependCommitForInsert.1.Fits := by
  unfold ConversionQueue.prependCommitForInsert
  split
  · exact fits
  · rename_i room
    simp only [Bool.or_eq_true, decide_eq_true_eq, not_or, not_le] at room
    exact ⟨fits.units, room.1⟩

/-- A barrier at capacity has room or takes the place of the front. -/
theorem Fits.prependCapacityCommit (fits : q.Fits) : q.prependCapacityCommit.1.Fits := by
  unfold ConversionQueue.prependCapacityCommit
  split
  · exact fits
  · split
    · rename_i room
      exact ⟨fits.units, room⟩
    · split
      · exact fits
      · rename_i action rest queued
        split
        · exact fits
        · exact fits.of_le le_rfl (by simp [queued])

/-- An exhausted operation is replaced in its place. -/
theorem Fits.commitExhaustedAction (fits : q.Fits) : q.commitExhaustedAction.1.Fits := by
  unfold ConversionQueue.commitExhaustedAction
  split
  · exact fits
  · rename_i action rest queued
    split
    · exact fits.of_le le_rfl (by simp [queued])
    · exact fits

/-- Consumed characters only make room. -/
theorem Fits.consumeFrontInsertPrefix (fits : q.Fits) (chars : Nat) : (q.consumeFrontInsertPrefix chars).Fits := by
  unfold ConversionQueue.consumeFrontInsertPrefix
  split
  · rename_i text original style directCommit rest queued
    exact fits.of_le ((Nat.sub_le _ _).trans (Nat.sub_le _ _)) (by simp [queued])
  · exact fits

/-- A completed front only makes room. -/
theorem Fits.completeFront (fits : q.Fits) : q.completeFront.Fits := by
  refine fits.of_le ?_ ?_
  · cases lost : q.ownerLost with
    | true =>
      rw [ConversionQueue.completeFront, if_pos lost]
    | false =>
      rw [completeFront_units q lost]
      exact Nat.sub_le _ _
  · rw [q.completeFront_actions]
    split
    · exact le_rfl
    · exact q.actions.length_tail.le.trans (Nat.sub_le _ _)

/-- What a failed calculation gives up only makes room. -/
theorem Fits.failWait (fits : q.Fits) (exact : q.Exact) : q.failWait.Fits := by
  unfold ConversionQueue.failWait
  split
  · exact fits
  · dsimp only
    generalize keptEq : (q.actions.takeWhile fun action => !action.isCommit).filter (·.survivesFailure) ++
      (q.actions.dropWhile fun action => !action.isCommit) = kept
    have part : kept.Sublist q.actions := by
      have whole := (List.filter_sublist (p := ConversionAction.survivesFailure)
        (l := q.actions.takeWhile fun action => !action.isCommit)).append_right
        (q.actions.dropWhile fun action => !action.isCommit)
      rwa [List.takeWhile_append_dropWhile, keptEq] at whole
    have units : (kept.map ConversionAction.payloadUnits).sum ≤ q.units := by
      have whole : q.units = q.payload := exact
      rw [whole]
      exact (part.map _).sum_le_sum fun _ _ => Nat.zero_le _
    split <;> exact fits.of_le units part.length_le

/-- A lost owner only makes room. -/
theorem Fits.detach (fits : q.Fits) (commitBody : Option Text) (bodyApplied : Bool) :
    (q.detach commitBody bodyApplied).Fits := by
  unfold ConversionQueue.detach
  split
  · exact fits
  · dsimp only
    generalize keptEq : (if q.actions.any (·.isEdit) then ({ q with waiting := false } : ConversionQueue)
      else { q with waiting := false, actions := [], units := 0 }) = kept
    have kept_fits : kept.Fits := by
      rw [← keptEq]
      split
      · exact ⟨fits.units, fits.actions⟩
      · exact ⟨Nat.zero_le _, Nat.zero_le _⟩
    generalize doneEq : (if bodyApplied && kept.front = some .commit then kept.completeFront else kept) = done
    have done_fits : done.Fits := by
      rw [← doneEq]
      split
      · exact kept_fits.completeFront
      · exact kept_fits
    generalize (if bodyApplied then none else commitBody) = unwritten
    split
    · exact default_fits
    · exact ⟨done_fits.units, done_fits.actions⟩

end ConversionQueue

/-- An operation keeps the queue within its capacity. -/
theorem QueueOp.run_fits {q : ConversionQueue} (fits : q.Fits) (exact : q.Exact) (op : QueueOp) :
    (op.run q).Fits := by
  cases op with
  | push action => exact fits.push action
  | pushReservingCommit action => exact fits.pushReservingCommit action
  | pushCommitThenMappedInsert text original style directCommit =>
    exact fits.pushCommitThenMappedInsert text original style directCommit
  | begin now initialReading =>
    obtain ⟨actions, units⟩ := q.begin_actions now initialReading
    exact fits.of_le units.le (congrArg List.length actions).le
  | resolved =>
    obtain ⟨actions, units⟩ := q.resolved_actions
    exact fits.of_le units.le (congrArg List.length actions).le
  | failWait => exact fits.failWait exact
  | supersedeCalculation =>
    rw [run, ConversionQueue.supersedeCalculation]
    split
    · exact fits
    · exact ConversionQueue.default_fits
  | prependCommitForInsert => exact fits.prependCommitForInsert
  | prependCapacityCommit => exact fits.prependCapacityCommit
  | commitExhaustedAction => exact fits.commitExhaustedAction
  | consumeFrontInsertPrefix chars => exact fits.consumeFrontInsertPrefix chars
  | completeFront => exact fits.completeFront
  | detach commitBody bodyApplied => exact fits.detach commitBody bodyApplied

/-- An operation with every subtraction from the units checked. -/
def QueueOp.runChecked (q : ConversionQueue) : QueueOp → Option ConversionQueue
  | consumeFrontInsertPrefix chars => q.consumeFrontInsertPrefixChecked chars
  | completeFront => q.completeFrontChecked
  | detach commitBody bodyApplied => q.detachChecked commitBody bodyApplied
  | op => some (op.run q)

/-- No operation on an exact queue underflows. -/
theorem QueueOp.runChecked_eq {q : ConversionQueue} (exact : q.Exact) (op : QueueOp) :
    op.runChecked q = some (op.run q) := by
  cases op with
  | consumeFrontInsertPrefix chars => exact exact.consumeFrontInsertPrefixChecked chars
  | completeFront => exact exact.completeFrontChecked
  | detach commitBody bodyApplied => exact exact.detachChecked commitBody bodyApplied
  | _ => rfl

/-- Every way to change a queue: its operations, those that discard its input among them, and the
flags that its callers write. -/
inductive QueueCall where
  | perform (op : QueueOp)
  | cancelBeforeCommit
  | clear
  | setCommitFailed (failed : Bool)
  | setWaiting (waiting : Bool)
  | suppressCommitPrediction
  deriving DecidableEq, Repr

namespace QueueCall

/-- The queue after a call. -/
def run (q : ConversionQueue) : QueueCall → ConversionQueue
  | perform op => op.run q
  | cancelBeforeCommit => q.cancelBeforeCommit.1
  | clear => q.clear
  | setCommitFailed failed => { q with commitFailed := failed }
  | setWaiting waiting => { q with waiting := waiting }
  | suppressCommitPrediction => { q with suppressCommitPrediction := true }

/-- The queue after a call with every subtraction from the units checked. -/
def runChecked (q : ConversionQueue) : QueueCall → Option ConversionQueue
  | perform op => op.runChecked q
  | call => some (call.run q)

/-- Whether the queue admits what a call asks for, by the call's own answer. -/
def admits (q : ConversionQueue) : QueueCall → Bool
  | perform .supersedeCalculation => q.supersedeCalculation.2
  | perform op => op.admission q = some .accepted
  | cancelBeforeCommit => q.cancelBeforeCommit.2
  | _ => false

/-- The operations that the queue of a lost owner ignores. -/
def ignored : QueueCall → Bool
  | perform (.begin ..) | perform (.push _) | perform (.pushReservingCommit _)
  | perform (.pushCommitThenMappedInsert ..) | perform .completeFront | perform .resolved | perform .failWait
  | perform .supersedeCalculation | perform (.detach ..) | cancelBeforeCommit => true
  | _ => false

end QueueCall

namespace ConversionQueue

/-- What holds of the capacity of a queue between any two of its operations. -/
structure Accounted (q : ConversionQueue) : Prop where
  units : q.units = (q.actions.map ConversionAction.payloadUnits).sum
  capacity : q.units ≤ 4096
  actions : q.actions.length ≤ 64
  /-- No subtraction of the next call underflows. -/
  covered : ∀ call : QueueCall, call.runChecked q = some (call.run q)

/-- The queue of a lost owner stays as it is until it is cleared. -/
structure Detached (q : ConversionQueue) : Prop where
  /-- Nothing but clearing gives the queue an owner again, and until then nothing is admitted. -/
  ignores : ∀ calls : List QueueCall, QueueCall.clear ∉ calls →
    let later := exec QueueCall.run q calls
    later.ownerLost = true ∧
      ∀ call : QueueCall, call.ignored = true →
        (call.run later).actions = later.actions ∧ (call.run later).unwrittenCommit = later.unwrittenCommit ∧
          call.admits later = false
  /-- No run of operations that are ignored changes the queue. -/
  unchanged : ∀ calls : List QueueCall, (∀ call ∈ calls, call.ignored = true) →
    let later := exec QueueCall.run q calls
    later.actions = q.actions ∧ later.unwrittenCommit = q.unwrittenCommit

end ConversionQueue

namespace QueueCall

variable {q : ConversionQueue}

/-- A call keeps the queue exact and within its capacity. -/
theorem run_fits (exact : q.Exact) (fits : q.Fits) (call : QueueCall) :
    (call.run q).Exact ∧ (call.run q).Fits := by
  cases call with
  | perform op => exact ⟨op.run_exact exact, op.run_fits fits exact⟩
  | cancelBeforeCommit =>
    rw [run, ConversionQueue.cancelBeforeCommit]
    split
    · exact ⟨exact, fits⟩
    · exact ⟨rfl, ConversionQueue.default_fits⟩
  | clear => exact ⟨rfl, ConversionQueue.default_fits⟩
  | _ => exact ⟨exact, fits.of_le le_rfl le_rfl⟩

/-- No call on an exact queue underflows. -/
theorem runChecked_eq (exact : q.Exact) (call : QueueCall) : call.runChecked q = some (call.run q) := by
  cases call with
  | perform op => exact op.runChecked_eq exact
  | _ => rfl

/-- A lost owner's queue ignores a call of that kind whole, and admits nothing. -/
theorem run_of_ignored (lost : q.ownerLost = true) {call : QueueCall} (ignored : call.ignored = true) :
    call.run q = q ∧ call.admits q = false := by
  cases call with
  | perform op =>
    cases op with
    | push action => simp [run, QueueOp.run, admits, QueueOp.admission, ConversionQueue.push, lost]
    | pushReservingCommit action =>
      obtain pushed | full := q.pushReservingCommit_cases action
      · simp [run, QueueOp.run, admits, QueueOp.admission, pushed, ConversionQueue.push, lost]
      · simp [run, QueueOp.run, admits, QueueOp.admission, full]
    | pushCommitThenMappedInsert text original style directCommit =>
      simp [run, QueueOp.run, admits, QueueOp.admission, ConversionQueue.pushCommitThenMappedInsert, lost]
    | begin now initialReading => simp [run, QueueOp.run, admits, QueueOp.admission, ConversionQueue.begin, lost]
    | resolved => simp [run, QueueOp.run, admits, QueueOp.admission, ConversionQueue.resolved, lost]
    | failWait => simp [run, QueueOp.run, admits, QueueOp.admission, ConversionQueue.failWait, lost]
    | supersedeCalculation => simp [run, QueueOp.run, admits, ConversionQueue.supersedeCalculation, lost]
    | completeFront => simp [run, QueueOp.run, admits, QueueOp.admission, ConversionQueue.completeFront, lost]
    | detach commitBody bodyApplied =>
      simp [run, QueueOp.run, admits, QueueOp.admission, ConversionQueue.detach, lost]
    | _ => cases ignored
  | cancelBeforeCommit => simp [run, admits, ConversionQueue.cancelBeforeCommit, lost]
  | _ => cases ignored

/-- Only clearing gives a lost owner's queue an owner again. -/
theorem run_lost (lost : q.ownerLost = true) {call : QueueCall} (other : call ≠ .clear) :
    (call.run q).ownerLost = true := by
  cases whole : call.ignored with
  | true => rw [(run_of_ignored lost whole).1, lost]
  | false =>
    cases call with
    | perform op =>
      cases op with
      | prependCommitForInsert =>
        simp only [run, QueueOp.run, ConversionQueue.prependCommitForInsert]
        split <;> exact lost
      | prependCapacityCommit =>
        simp only [run, QueueOp.run, ConversionQueue.prependCapacityCommit]
        repeat' split
        all_goals exact lost
      | commitExhaustedAction =>
        simp only [run, QueueOp.run, ConversionQueue.commitExhaustedAction]
        repeat' split
        all_goals exact lost
      | consumeFrontInsertPrefix chars =>
        simp only [run, QueueOp.run, ConversionQueue.consumeFrontInsertPrefix]
        split <;> exact lost
      | _ => cases whole
    | cancelBeforeCommit => cases whole
    | clear => exact absurd rfl other
    | _ => exact lost

/-- A queue that has lost its owner is detached. -/
theorem detached (lost : q.ownerLost = true) : q.Detached := by
  constructor
  · intro calls uncleared later
    -- The owner stays lost across one call at a time.
    have allowed : Admissible run (fun _ call => call ≠ QueueCall.clear) q calls :=
      admissible_of_forall (fun _ member => ne_of_mem_of_not_mem member uncleared) q
    have still : later.ownerLost = true :=
      exec_invariant (fun q : ConversionQueue => q.ownerLost = true) (fun _ _ lost other => run_lost lost other)
        lost allowed
    refine ⟨still, fun call ignored => ?_⟩
    obtain ⟨same, refused⟩ := run_of_ignored still ignored
    exact ⟨congrArg _ same, congrArg _ same, refused⟩
  · intro calls all later
    have allowed : Admissible run (fun _ call => call.ignored = true) q calls := admissible_of_forall all q
    have same : later = q :=
      exec_invariant (fun q' : ConversionQueue => q' = q)
        (fun _ _ same ignored => by rw [same, (run_of_ignored lost ignored).1]) rfl allowed
    exact ⟨congrArg _ same, congrArg _ same⟩

/-- In every run of the calls on a queue its units are the payload that is queued, its capacity is
never exceeded, no subtraction underflows, and once its owner is lost it stays as it is until it is cleared. -/
theorem run_keepsAccounts (calls : List QueueCall) :
    let q := exec run .default calls
    q.Accounted ∧ (q.ownerLost = true → q.Detached) := by
  have start : ConversionQueue.default.Exact ∧ ConversionQueue.default.Fits := ⟨rfl, ConversionQueue.default_fits⟩
  obtain ⟨exact, fits⟩ := exec_invariant_all (fun q : ConversionQueue => q.Exact ∧ q.Fits)
    (fun _ call held => run_fits held.1 held.2 call) start calls
  exact ⟨⟨exact, fits.units, fits.actions, runChecked_eq exact⟩, detached⟩

/-- An owner lost with an unwritten body leaves a detached queue behind. -/
example : (exec run .default
    [.perform (.push .commit), .perform (.push (.insert ['a'] none .kana false)),
      .perform (.detach (some ['日']) false)]).ownerLost = true := by decide

end QueueCall

end Nospacekey
