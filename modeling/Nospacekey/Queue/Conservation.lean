import Nospacekey.Library.Runs
import Nospacekey.Queue.Marks

/-! No operation of the queue but clearing and cancelling loses, repeats or reorders accepted input. -/

namespace Nospacekey

open Runs

/-- The operations of the queue that are not meant to discard input. -/
inductive QueueOp where
  | push (action : ConversionAction)
  | pushReservingCommit (action : ConversionAction)
  | pushCommitThenMappedInsert (text : Text) (original : Option Text) (style : TextStyle) (directCommit : Bool)
  | begin (now : Nat) (initialReading : Option Text)
  | resolved
  | failWait
  | supersedeCalculation
  | prependCommitForInsert
  | prependCapacityCommit
  | commitExhaustedAction
  | consumeFrontInsertPrefix (chars : Nat)
  | completeFront
  | detach (commitBody : Option Text) (bodyApplied : Bool)
  deriving DecidableEq, Repr

namespace QueueOp

/-- The queue after an operation. -/
def run (q : ConversionQueue) : QueueOp → ConversionQueue
  | push action => (q.push action).1
  | pushReservingCommit action => (q.pushReservingCommit action).1
  | pushCommitThenMappedInsert text original style directCommit =>
    (q.pushCommitThenMappedInsert text original style directCommit).1
  | begin now initialReading => q.begin now initialReading
  | resolved => q.resolved
  | failWait => q.failWait
  | supersedeCalculation => q.supersedeCalculation.1
  | prependCommitForInsert => q.prependCommitForInsert.1
  | prependCapacityCommit => q.prependCapacityCommit.1
  | commitExhaustedAction => q.commitExhaustedAction.1
  | consumeFrontInsertPrefix chars => q.consumeFrontInsertPrefix chars
  | completeFront => q.completeFront
  | detach commitBody bodyApplied => q.detach commitBody bodyApplied

/-- The answer of an operation that asks for admission. -/
def admission (q : ConversionQueue) : QueueOp → Option QueueAdmission
  | push action => some (q.push action).2
  | pushReservingCommit action => some (q.pushReservingCommit action).2
  | pushCommitThenMappedInsert text original style directCommit =>
    some (q.pushCommitThenMappedInsert text original style directCommit).2
  | _ => none

/-- What an operation offers for admission. -/
def offered : QueueOp → List ConversionAction
  | push action | pushReservingCommit action => [action]
  | pushCommitThenMappedInsert text original style directCommit =>
    [.commit, .insert text original style directCommit]
  | _ => []

/-- What an operation admits behind the queue, by its own answer. -/
def appended (q : ConversionQueue) (op : QueueOp) : List Mark :=
  if op.admission q = some .accepted then op.offered.flatMap ConversionAction.marks else []

/-- The Commit that an operation admits before the queue, by its own answer. -/
def prepended (q : ConversionQueue) : QueueOp → List Mark
  | prependCommitForInsert => if q.prependCommitForInsert.2 then [.commit] else []
  | prependCapacityCommit => if q.prependCapacityCommit.2 && q.front ≠ some .commit then [.commit] else []
  | commitExhaustedAction => if q.commitExhaustedAction.2 then [.commit] else []
  | _ => []

/-- What an operation takes from the front of the queue because its effect has succeeded. -/
def completed (q : ConversionQueue) : QueueOp → List Mark
  | consumeFrontInsertPrefix chars => (q.frontText chars).map .typed
  | completeFront => if q.ownerLost then [] else (q.front.map ConversionAction.marks).getD []
  | detach _ bodyApplied => if !q.ownerLost && bodyApplied && q.front = some .commit then [.commit] else []
  | _ => []

end QueueOp

namespace ConversionQueue

variable {q : ConversionQueue}

/-- A completed front is all that leaves the queue. -/
theorem completeFront_marks (running : q.ownerLost = false) :
    q.marks = (q.front.map ConversionAction.marks).getD [] ++ q.completeFront.marks := by
  have left := q.completeFront_actions
  rw [if_neg (by simp [running])] at left
  rw [marks, marks, left, front]
  cases q.actions with
  | nil => rfl
  | cons action rest => rfl

/-- A completed front gives back exactly its payload. -/
theorem Exact.completeFront (exact : q.Exact) : q.completeFront.Exact := by
  cases lost : q.ownerLost with
  | true =>
    unfold ConversionQueue.completeFront
    rw [if_pos lost]
    exact exact
  | false =>
    have left := q.completeFront_actions
    rw [if_neg (by simp [lost])] at left
    have whole : q.units = q.payload := exact
    rw [Exact, payload, completeFront_units q lost, left, whole, payload, front]
    cases q.actions with
    | nil => rfl
    | cons action rest => simp

/-- A queue without any edit owes nothing. -/
theorem marks_of_no_edit (none : q.actions.any (·.isEdit) = false) : q.marks = [] := by
  refine List.flatMap_eq_nil_iff.mpr fun action member => ?_
  exact ConversionAction.marks_of_not_isEdit (Bool.eq_false_iff.mpr (List.any_eq_false.mp none action member))

/-- A superseded calculation had nothing of the user's behind it. -/
theorem supersedeCalculation_spec (q : ConversionQueue) :
    q.supersedeCalculation.1.marks = q.marks ∧ (q.Exact → q.supersedeCalculation.1.Exact) := by
  unfold supersedeCalculation
  split
  · exact ⟨rfl, id⟩
  · rename_i free
    refine ⟨?_, fun _ => rfl⟩
    have noEdit : q.actions.any (·.isEdit) = false := by
      refine List.any_eq_false.mpr fun action member isEdit => free ?_
      exact Bool.or_eq_true_iff.mpr (.inr (List.any_eq_true.mpr ⟨action, member, by simp [isEdit]⟩))
    exact (marks_of_no_edit noEdit).symm

/-- A lost owner takes nothing from the queue but a Commit that was already written. -/
theorem detach_spec (q : ConversionQueue) (commitBody : Option Text) (bodyApplied : Bool) :
    q.marks = (QueueOp.detach commitBody bodyApplied).completed q ++ (q.detach commitBody bodyApplied).marks ∧
      (q.Exact → (q.detach commitBody bodyApplied).Exact) := by
  unfold detach
  split
  · rename_i lost
    exact ⟨by simp [QueueOp.completed, lost], id⟩
  · rename_i running
    -- The operations that only navigate are given up first, and owe nothing.
    generalize keptEq : (if q.actions.any (·.isEdit) then ({ q with waiting := false } : ConversionQueue)
      else { q with waiting := false, actions := [], units := 0 }) = kept
    have kept_running : kept.ownerLost = false := by
      rw [← keptEq]
      split <;> exact Bool.eq_false_iff.mpr running
    have kept_marks : q.marks = kept.marks := by
      rw [← keptEq]
      split
      · rfl
      · rename_i noEdit
        exact marks_of_no_edit (Bool.eq_false_iff.mpr noEdit)
    have kept_exact : q.Exact → kept.Exact := by
      rw [← keptEq]
      split
      · exact id
      · exact fun _ => rfl
    have kept_front : (q.front = some .commit) ↔ kept.front = some .commit := by
      rw [← keptEq]
      split
      · exact Iff.rfl
      · rename_i noEdit
        refine iff_of_false (fun barrier => noEdit ?_) nofun
        exact List.any_eq_true.mpr ⟨.commit, List.mem_of_mem_head? barrier, rfl⟩
    -- A Commit at the front leaves when its body has been written.
    generalize doneEq : (if bodyApplied && kept.front = some .commit then kept.completeFront else kept) = done
    have done_marks : q.marks = (QueueOp.detach commitBody bodyApplied).completed q ++ done.marks := by
      rw [← doneEq, kept_marks, QueueOp.completed]
      simp only [kept_front, Bool.eq_false_iff.mpr running, Bool.not_false, Bool.true_and]
      split
      · rename_i written
        have barrier : kept.front = some .commit := by simpa using (Bool.and_eq_true_iff.mp written).2
        rw [completeFront_marks kept_running, barrier]
        rfl
      · rfl
    have done_exact : q.Exact → done.Exact := fun exact => by
      rw [← doneEq]
      split
      · exact (kept_exact exact).completeFront
      · exact kept_exact exact
    dsimp only
    rw [keptEq, doneEq]
    generalize (if bodyApplied then none else commitBody) = unwritten
    split
    · rename_i nothing
      have empty : done.actions = [] := by simpa using (Bool.and_eq_true_iff.mp nothing).1
      have nothingOwed : done.marks = [] := by rw [marks, empty]; rfl
      exact ⟨by rw [done_marks, nothingOwed]; rfl, fun _ => rfl⟩
    · exact ⟨done_marks, done_exact⟩

end ConversionQueue

namespace QueueOp

variable {q : ConversionQueue}

/-- What asks for admission is queued whole behind all others, or changes nothing. -/
theorem run_asked {op : QueueOp} {answer : QueueAdmission} (asked : op.admission q = some answer) :
    (answer = .accepted ∧ (op.run q).actions = q.actions ++ op.offered ∧
        (op.run q).units = q.units + (op.offered.map ConversionAction.payloadUnits).sum) ∨
      (answer ≠ .accepted ∧ op.run q = q) := by
  cases op with
  | push action =>
    obtain rfl := Option.some.inj asked
    exact q.push_spec action
  | pushReservingCommit action =>
    obtain rfl := Option.some.inj asked
    simp only [run]
    obtain pushed | full := q.pushReservingCommit_cases action
    · rw [pushed]
      exact q.push_spec action
    · rw [full]
      exact .inr ⟨nofun, rfl⟩
  | pushCommitThenMappedInsert text original style directCommit =>
    obtain rfl := Option.some.inj asked
    obtain accepted | refused := q.pushCommitThenMappedInsert_spec text original style directCommit
    · exact .inl ⟨accepted.1, accepted.2.1, by simp [run, accepted.2.2, offered, ConversionAction.payloadUnits]⟩
    · exact .inr refused
  | _ => cases asked

/-- An operation that asks for admission adds what it is admitted for behind the queue. -/
theorem run_marks_of_asked {op : QueueOp} {answer : QueueAdmission} (asked : op.admission q = some answer) :
    (op.run q).marks = q.marks ++ op.appended q := by
  rw [appended, asked]
  obtain ⟨accepted, queued, _⟩ | ⟨refused, same⟩ := run_asked asked
  · rw [if_pos (congrArg some accepted), ConversionQueue.marks, queued, List.flatMap_append]
    rfl
  · rw [if_neg (fun accepted => refused (Option.some.inj accepted)), same, List.append_nil]

/-- An operation takes what it completes from the front and admits around the rest. -/
theorem run_marks (q : ConversionQueue) (op : QueueOp) :
    ∃ rest, q.marks = op.completed q ++ rest ∧ (op.run q).marks = op.prepended q ++ rest ++ op.appended q := by
  cases op with
  | push action => exact ⟨q.marks, rfl, run_marks_of_asked rfl⟩
  | pushReservingCommit action => exact ⟨q.marks, rfl, run_marks_of_asked rfl⟩
  | pushCommitThenMappedInsert text original style directCommit => exact ⟨q.marks, rfl, run_marks_of_asked rfl⟩
  | begin now initialReading =>
    refine ⟨q.marks, rfl, ?_⟩
    simp only [run, ConversionQueue.marks, q.begin_actions now initialReading]
    simp [prepended, appended, admission]
  | resolved =>
    refine ⟨q.marks, rfl, ?_⟩
    simp only [run, ConversionQueue.marks, q.resolved_actions]
    simp [prepended, appended, admission]
  | failWait =>
    refine ⟨q.marks, rfl, ?_⟩
    rw [run, q.failWait_spec.1]
    simp [prepended, appended, admission]
  | supersedeCalculation =>
    refine ⟨q.marks, rfl, ?_⟩
    rw [run, q.supersedeCalculation_spec.1]
    simp [prepended, appended, admission]
  | prependCommitForInsert =>
    refine ⟨q.marks, rfl, ?_⟩
    obtain ⟨_, _, ⟨put, owed⟩ | ⟨noRoom, same⟩⟩ := q.prependCommitForInsert_spec
    · simp [run, prepended, appended, admission, put, owed]
    · simp [run, prepended, appended, admission, noRoom, same]
  | prependCapacityCommit =>
    refine ⟨q.marks, rfl, ?_⟩
    obtain ⟨_, _, ⟨put, noBarrier, owed⟩ | ⟨kept, same⟩⟩ := q.prependCapacityCommit_spec
    · simp [run, prepended, appended, admission, put, noBarrier, owed]
    · obtain noRoom | barrier := kept
      · simp [run, prepended, appended, admission, noRoom, same]
      · simp [run, prepended, appended, admission, barrier, same]
  | commitExhaustedAction =>
    refine ⟨q.marks, rfl, ?_⟩
    obtain ⟨_, _, ⟨put, owed⟩ | ⟨kept, same⟩⟩ := q.commitExhaustedAction_spec
    · simp [run, prepended, appended, admission, put, owed]
    · simp [run, prepended, appended, admission, kept, same]
  | consumeFrontInsertPrefix chars =>
    exact ⟨_, (q.consumeFrontInsertPrefix_spec chars).1, by simp [run, prepended, appended, admission]⟩
  | completeFront =>
    refine ⟨q.completeFront.marks, ?_, by simp [run, prepended, appended, admission]⟩
    rw [completed]
    cases lost : q.ownerLost with
    | true =>
      unfold ConversionQueue.completeFront
      rw [if_pos lost]
      rfl
    | false => exact ConversionQueue.completeFront_marks lost
  | detach commitBody bodyApplied =>
    exact ⟨_, (q.detach_spec commitBody bodyApplied).1, by simp [run, prepended, appended, admission]⟩

/-- A queue that accounts for its payload exactly still does when it is asked for admission. -/
theorem run_exact_of_asked (exact : q.Exact) {op : QueueOp} {answer : QueueAdmission}
    (asked : op.admission q = some answer) : (op.run q).Exact := by
  have whole : q.units = q.payload := exact
  obtain ⟨_, queued, units⟩ | ⟨_, same⟩ := run_asked asked
  · rw [ConversionQueue.Exact, units, whole, ConversionQueue.payload, ConversionQueue.payload, queued,
      List.map_append, List.sum_append]
  · rw [same]
    exact exact

/-- A queue that accounts for its payload exactly still does after an operation. -/
theorem run_exact (exact : q.Exact) (op : QueueOp) : (op.run q).Exact := by
  have whole : q.units = q.payload := exact
  cases op with
  | push action => exact run_exact_of_asked exact rfl
  | pushReservingCommit action => exact run_exact_of_asked exact rfl
  | pushCommitThenMappedInsert text original style directCommit => exact run_exact_of_asked exact rfl
  | begin now initialReading =>
    simp only [run, ConversionQueue.Exact, ConversionQueue.payload, q.begin_actions now initialReading]
    exact whole
  | resolved =>
    simp only [run, ConversionQueue.Exact, ConversionQueue.payload, q.resolved_actions]
    exact whole
  | failWait =>
    cases lost : q.ownerLost with
    | true =>
      rw [run, ConversionQueue.failWait, if_pos lost]
      exact exact
    | false => exact q.failWait_spec.2.2 lost
  | supersedeCalculation => exact q.supersedeCalculation_spec.2 exact
  | prependCommitForInsert =>
    obtain ⟨units, payload, _⟩ := q.prependCommitForInsert_spec
    simp only [run, ConversionQueue.Exact, units, payload, whole]
  | prependCapacityCommit =>
    obtain ⟨units, payload, _⟩ := q.prependCapacityCommit_spec
    simp only [run, ConversionQueue.Exact, units, payload, whole]
  | commitExhaustedAction =>
    obtain ⟨units, payload, _⟩ := q.commitExhaustedAction_spec
    simp only [run, ConversionQueue.Exact, units, payload, whole]
  | consumeFrontInsertPrefix chars => exact (q.consumeFrontInsertPrefix_spec chars).2 exact
  | completeFront => exact exact.completeFront
  | detach commitBody bodyApplied => exact (q.detach_spec commitBody bodyApplied).2 exact

end QueueOp

/-- A queue with the record of what it has admitted and completed. -/
structure QueueLedger where
  queue : ConversionQueue
  /-- The concatenation of the texts accepted, in the order of their admission. -/
  accepted : Text
  /-- The number of Commits admitted at either end of the queue. -/
  commits : Nat
  /-- What has left the front of the queue, in the order in which it left. -/
  consumed : List Mark
  deriving DecidableEq, Repr

namespace QueueLedger

/-- The record of a queue that has seen nothing. -/
def empty : QueueLedger where
  queue := .default
  accepted := []
  commits := 0
  consumed := []

/-- An operation of the queue, recorded. -/
def step (s : QueueLedger) (op : QueueOp) : QueueLedger where
  queue := op.run s.queue
  accepted := s.accepted ++ Mark.text (op.appended s.queue)
  commits := s.commits + (op.prepended s.queue).count .commit + (op.appended s.queue).count .commit
  consumed := s.consumed ++ op.completed s.queue

/-- The record agrees with the queue. -/
structure Balanced (s : QueueLedger) : Prop where
  /-- What was consumed and what is still queued are what was accepted, in that order. -/
  text : Mark.text s.consumed ++ Mark.text s.queue.marks = s.accepted
  commits : s.consumed.count .commit + s.queue.marks.count .commit = s.commits
  exact : s.queue.Exact

/-- What holds of a queue between any two of its operations. -/
structure Conserved (s : QueueLedger) : Prop extends Balanced s where
  /-- An operation takes from the front what it completes, and nothing else leaves. -/
  leaves : ∀ op : QueueOp, ∃ rest, s.queue.marks = op.completed s.queue ++ rest ∧
    (op.run s.queue).marks = op.prepended s.queue ++ rest ++ op.appended s.queue
  survives : (s.queue.failWait.actions.dropWhile fun action => !action.isCommit) =
    (s.queue.actions.dropWhile fun action => !action.isCommit)
  refused : ∀ (op : QueueOp) answer, op.admission s.queue = some answer → answer ≠ .accepted →
    op.run s.queue = s.queue

/-- A Commit that is admitted before the queue brings no text with it. -/
theorem text_prepended (q : ConversionQueue) (op : QueueOp) : Mark.text (op.prepended q) = [] := by
  unfold QueueOp.prepended
  split <;> first | rfl | (split <;> rfl)

/-- An operation moves what it completes from the queue to the record. -/
theorem Balanced.step {s : QueueLedger} (balanced : s.Balanced) (op : QueueOp) : (s.step op).Balanced := by
  obtain ⟨text, commits, exact⟩ := balanced
  obtain ⟨rest, before, after⟩ := QueueOp.run_marks s.queue op
  rw [before] at text commits
  simp only [Mark.text_append, List.count_append] at text commits
  refine ⟨?_, ?_, QueueOp.run_exact exact op⟩
  · simp only [QueueLedger.step, after, Mark.text_append, text_prepended, List.nil_append, ← text, List.append_assoc]
  · simp only [QueueLedger.step, after, List.count_append]
    omega

/-- In every run of the queue's operations, what was consumed followed by what is still queued is
what was accepted, and nothing but a completed front ever leaves the queue. -/
theorem run_conserved (ops : List QueueOp) : (exec step empty ops).Conserved := by
  have start : empty.Balanced := ⟨rfl, rfl, rfl⟩
  have balanced := exec_invariant_all Balanced (fun _ op held => held.step op) start ops
  refine { toBalanced := balanced, leaves := fun op => QueueOp.run_marks _ op, survives := ?_, refused := ?_ }
  · exact (ConversionQueue.failWait_spec _).2.1
  · intro op answer asked refused
    obtain ⟨accepted, _⟩ | ⟨_, same⟩ := QueueOp.run_asked asked
    · exact absurd accepted refused
    · exact same

end QueueLedger

end Nospacekey
