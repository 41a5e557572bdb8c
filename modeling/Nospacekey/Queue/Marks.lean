import Mathlib.Data.List.DropRight
import Mathlib.Data.List.TakeWhile
import Nospacekey.Queue.Conversion

/-! What a queue still owes its user, and how each operation of the queue changes it. -/

namespace Nospacekey

/-- What a queued operation still owes: a character of accepted text, or a Commit of the composition. -/
inductive Mark where
  | typed (ch : Char)
  | commit
  deriving DecidableEq, Repr

namespace Mark

/-- The character that a mark owes, if any. -/
def char? : Mark → Option Char
  | .typed ch => some ch
  | .commit => none

/-- The text that is owed by marks. -/
def text (marks : List Mark) : Text := marks.filterMap Mark.char?

@[simp] theorem text_nil : text [] = [] := rfl

@[simp] theorem text_append (front back : List Mark) : text (front ++ back) = text front ++ text back :=
  List.filterMap_append

@[simp] theorem text_cons_commit (marks : List Mark) : text (.commit :: marks) = text marks := rfl

/-- The marks of a text owe that text. -/
@[simp] theorem text_map_typed (typed : Text) : text (typed.map .typed) = typed := by
  simp [text, List.filterMap_map, Function.comp_def, char?]

/-- The marks of a text owe no Commit. -/
@[simp] theorem count_commit_map_typed (typed : Text) : (typed.map Mark.typed).count .commit = 0 :=
  List.count_eq_zero.mpr (by simp)

end Mark

/-- What an operation owes. -/
def ConversionAction.marks : ConversionAction → List Mark
  | .insert text _ _ _ => text.map .typed
  | .commit => [.commit]
  | _ => []

namespace ConversionAction

variable {action : ConversionAction}

/-- Only a Commit and an Insert owe anything. -/
theorem marks_eq_nil (noText : action.isInsert = false) (noCommit : action.isCommit = false) :
    action.marks = [] := by
  cases action with
  | insert => cases noText
  | commit => cases noCommit
  | _ => rfl

/-- What only navigates or calculates owes nothing. -/
theorem marks_of_not_isEdit (other : action.isEdit = false) : action.marks = [] :=
  marks_eq_nil (by cases action <;> first | rfl | cases other) (by cases action <;> first | rfl | cases other)

/-- What can exhaust a counter is neither text nor a Commit. -/
theorem not_isInsert_of_canExhaust (exhausts : action.canExhaust = true) :
    action.isInsert = false ∧ action.isCommit = false := by
  cases action <;> first | exact ⟨rfl, rfl⟩ | cases exhausts

/-- An operation is a Commit exactly when it owes one. -/
theorem isCommit_iff : action.isCommit = true ↔ action = .commit := by
  cases action <;> simp [isCommit]

/-- Only an Insert has a payload. -/
theorem payloadUnits_of_not_isInsert (other : action.isInsert = false) : action.payloadUnits = 0 := by
  cases action <;> first | rfl | cases other

end ConversionAction

namespace ConversionQueue

variable {q : ConversionQueue}

/-- What the queue owes, in the order of its operations. -/
def marks (q : ConversionQueue) : List Mark := q.actions.flatMap ConversionAction.marks

/-- The payload of all queued operations. -/
def payload (q : ConversionQueue) : Nat := (q.actions.map ConversionAction.payloadUnits).sum

/-- The queue accounts for its payload exactly. -/
def Exact (q : ConversionQueue) : Prop := q.units = q.payload

/-- An accepted operation is queued behind all others, and a refused one changes nothing. -/
theorem push_spec (q : ConversionQueue) (action : ConversionAction) :
    ((q.push action).2 = .accepted ∧ (q.push action).1.actions = q.actions ++ [action] ∧
        (q.push action).1.units = q.units + action.payloadUnits) ∨
      ((q.push action).2 ≠ .accepted ∧ (q.push action).1 = q) := by
  unfold push
  split
  · exact .inr ⟨nofun, rfl⟩
  · dsimp only
    split
    · exact .inr ⟨nofun, rfl⟩
    · split
      · exact .inr ⟨nofun, rfl⟩
      · exact .inl ⟨rfl, rfl, rfl⟩

/-- A reserved slot is left free, and otherwise the operation is pushed. -/
theorem pushReservingCommit_cases (q : ConversionQueue) (action : ConversionAction) :
    q.pushReservingCommit action = q.push action ∨ q.pushReservingCommit action = (q, .full) := by
  unfold pushReservingCommit
  split
  · exact .inr rfl
  · exact .inl rfl

/-- A barrier and its text are queued together, behind all others, or neither is. -/
theorem pushCommitThenMappedInsert_spec (q : ConversionQueue) (text : Text) (original : Option Text)
    (style : TextStyle) (directCommit : Bool) :
    let pushed := q.pushCommitThenMappedInsert text original style directCommit
    let insert := ConversionAction.insert text original style directCommit
    (pushed.2 = .accepted ∧ pushed.1.actions = q.actions ++ [.commit, insert] ∧
        pushed.1.units = q.units + insert.payloadUnits) ∨
      (pushed.2 ≠ .accepted ∧ pushed.1 = q) := by
  unfold pushCommitThenMappedInsert
  dsimp only
  split
  · exact .inr ⟨nofun, rfl⟩
  · split
    · exact .inr ⟨nofun, rfl⟩
    · split
      · exact .inr ⟨nofun, rfl⟩
      · exact .inl ⟨rfl, rfl, rfl⟩

/-- A started wait owes what was owed. -/
@[simp] theorem begin_actions (q : ConversionQueue) (now : Nat) (reading : Option Text) :
    (q.begin now reading).actions = q.actions ∧ (q.begin now reading).units = q.units := by
  unfold begin
  split <;> exact ⟨rfl, rfl⟩

/-- An ended wait owes what was owed. -/
@[simp] theorem resolved_actions (q : ConversionQueue) :
    q.resolved.actions = q.actions ∧ q.resolved.units = q.units := by
  unfold resolved
  split
  · exact ⟨rfl, rfl⟩
  · dsimp only
    split <;> exact ⟨rfl, rfl⟩

/-- A completed front takes what it owed with it. -/
theorem completeFront_actions (q : ConversionQueue) :
    q.completeFront.actions = if q.ownerLost then q.actions else q.actions.tail := by
  unfold completeFront
  split
  · rfl
  · dsimp only
    split
    · rename_i empty
      split <;> exact empty ▸ rfl
    · rename_i action rest queued
      rw [queued]
      dsimp only
      split <;> rfl

/-- A completed front gives back its payload. -/
theorem completeFront_units (q : ConversionQueue) (running : q.ownerLost = false) :
    q.completeFront.units = q.units - ((q.front.map ConversionAction.payloadUnits).getD 0) := by
  unfold completeFront front
  rw [if_neg (by simp [running])]
  dsimp only
  split
  · rename_i empty
    rw [empty]
    split <;> rfl
  · rename_i action rest queued
    rw [queued]
    dsimp only
    split <;> rfl

/-- A failed calculation leaves everything that is owed. -/
theorem marks_filter_survivesFailure {actions : List ConversionAction}
    (before : ∀ action ∈ actions, action.isCommit = false) :
    (actions.filter (·.survivesFailure)).flatMap ConversionAction.marks = actions.flatMap ConversionAction.marks := by
  induction actions with
  | nil => rfl
  | cons action rest ih =>
    have later := ih fun other member => before other (List.mem_cons_of_mem _ member)
    cases survives : action.survivesFailure with
    | true => rw [List.filter_cons_of_pos survives, List.flatMap_cons, List.flatMap_cons, later]
    | false =>
      -- A calculation that is given up owes nothing.
      have noText : action.isInsert = false := by cases action <;> first | rfl | cases survives
      have nothing := ConversionAction.marks_eq_nil noText (before action (by simp))
      rw [List.filter_cons_of_neg (by simp [survives]), List.flatMap_cons, nothing, later, List.nil_append]

/-- What stands before the first Commit is no Commit. -/
theorem isCommit_of_mem_takeWhile {actions : List ConversionAction} {action : ConversionAction}
    (member : action ∈ actions.takeWhile fun action => !action.isCommit) : action.isCommit = false := by
  simpa using List.mem_takeWhile_imp member

/-- A failed calculation leaves what is owed, and every operation from the first Commit on. -/
theorem failWait_spec (q : ConversionQueue) :
    q.failWait.marks = q.marks ∧
      (q.failWait.actions.dropWhile fun action => !action.isCommit) =
        (q.actions.dropWhile fun action => !action.isCommit) ∧
      (q.ownerLost = false → q.failWait.Exact) := by
  have kept : ∀ action ∈ (q.actions.takeWhile fun action => !action.isCommit).filter (·.survivesFailure),
      (!action.isCommit) = true := fun action member => by
    simp [isCommit_of_mem_takeWhile (List.mem_filter.mp member).1]
  have owed := marks_filter_survivesFailure fun action => @isCommit_of_mem_takeWhile q.actions action
  unfold failWait
  split
  · rename_i lost
    exact ⟨rfl, rfl, fun running => by simp [running] at lost⟩
  · dsimp only
    refine ⟨?_, ?_, fun _ => ?_⟩
    · have whole := congrArg (List.flatMap ConversionAction.marks)
        (List.takeWhile_append_dropWhile (p := fun action : ConversionAction => !action.isCommit) (l := q.actions))
      rw [List.flatMap_append] at whole
      split <;>
      · simp only [marks, List.flatMap_append, owed]
        exact whole
    · split <;>
      · dsimp only
        rw [List.dropWhile_append_of_pos kept, List.dropWhile_idempotent]
    · split <;> rfl

/-- A queue whose front is known splits into what the front owes and the rest. -/
theorem marks_of_cons {action : ConversionAction} {rest : List ConversionAction} (queued : q.actions = action :: rest) :
    q.marks = action.marks ++ rest.flatMap ConversionAction.marks := by
  rw [marks, queued, List.flatMap_cons]

/-- The payload of a queue whose front is known. -/
theorem payload_of_cons {action : ConversionAction} {rest : List ConversionAction}
    (queued : q.actions = action :: rest) :
    q.payload = action.payloadUnits + (rest.map ConversionAction.payloadUnits).sum := by
  rw [payload, queued, List.map_cons, List.sum_cons]

/-- A barrier put in front of a queue, or in place of a front that owes nothing, is owed before the rest. -/
theorem barrier_spec {action : ConversionAction} {rest : List ConversionAction} (queued : q.actions = action :: rest)
    (noText : action.isInsert = false) (noCommit : action.isCommit = false) :
    let q' := { q with actions := .commit :: rest }
    q'.marks = .commit :: q.marks ∧ q'.payload = q.payload := by
  rw [marks_of_cons queued, payload_of_cons queued, ConversionAction.marks_eq_nil noText noCommit,
    ConversionAction.payloadUnits_of_not_isInsert noText]
  exact ⟨rfl, rfl⟩

/-- A barrier before an Insert is owed before everything, and without room for it nothing changes. -/
theorem prependCommitForInsert_spec (q : ConversionQueue) :
    let pushed := q.prependCommitForInsert
    pushed.1.units = q.units ∧ pushed.1.payload = q.payload ∧
      ((pushed.2 = true ∧ pushed.1.marks = .commit :: q.marks) ∨ (pushed.2 = false ∧ pushed.1 = q)) := by
  unfold prependCommitForInsert
  dsimp only
  split
  · exact ⟨rfl, rfl, .inr ⟨rfl, rfl⟩⟩
  · exact ⟨rfl, by simp [payload, ConversionAction.payloadUnits], .inl ⟨rfl, rfl⟩⟩

/-- A barrier at capacity is owed before everything, unless there is one already or none can be put. -/
theorem prependCapacityCommit_spec (q : ConversionQueue) :
    let pushed := q.prependCapacityCommit
    pushed.1.units = q.units ∧ pushed.1.payload = q.payload ∧
      ((pushed.2 = true ∧ q.front ≠ some .commit ∧ pushed.1.marks = .commit :: q.marks) ∨
        ((pushed.2 = false ∨ q.front = some .commit) ∧ pushed.1 = q)) := by
  unfold prependCapacityCommit
  dsimp only
  split
  · rename_i barrier
    exact ⟨rfl, rfl, .inr ⟨.inr barrier, rfl⟩⟩
  · rename_i noBarrier
    split
    · exact ⟨rfl, by simp [payload, ConversionAction.payloadUnits], .inl ⟨rfl, noBarrier, rfl⟩⟩
    · split
      · exact ⟨rfl, rfl, .inr ⟨.inl rfl, rfl⟩⟩
      · rename_i action rest queued
        split
        · exact ⟨rfl, rfl, .inr ⟨.inl rfl, rfl⟩⟩
        · rename_i noText
          -- A full queue gives up the operation at its front.
          have noCommit : action.isCommit = false := by
            refine Bool.eq_false_iff.mpr fun isCommit => noBarrier ?_
            rw [front, queued, ConversionAction.isCommit_iff.mp isCommit]
            rfl
          have replaced := barrier_spec queued (Bool.eq_false_iff.mpr noText) noCommit
          exact ⟨rfl, replaced.2, .inl ⟨rfl, noBarrier, replaced.1⟩⟩

/-- An exhausted operation turns into a barrier that is owed before everything. -/
theorem commitExhaustedAction_spec (q : ConversionQueue) :
    let pushed := q.commitExhaustedAction
    pushed.1.units = q.units ∧ pushed.1.payload = q.payload ∧
      ((pushed.2 = true ∧ pushed.1.marks = .commit :: q.marks) ∨ (pushed.2 = false ∧ pushed.1 = q)) := by
  unfold commitExhaustedAction
  dsimp only
  split
  · exact ⟨rfl, rfl, .inr ⟨rfl, rfl⟩⟩
  · rename_i action rest queued
    split
    · rename_i exhausts
      obtain ⟨noText, noCommit⟩ := ConversionAction.not_isInsert_of_canExhaust exhausts
      have replaced := barrier_spec queued noText noCommit
      exact ⟨rfl, replaced.2, .inl ⟨rfl, replaced.1⟩⟩
    · exact ⟨rfl, rfl, .inr ⟨rfl, rfl⟩⟩

/-- What a number of consumed characters takes from the text of the front Insert. -/
def frontText (q : ConversionQueue) (chars : Nat) : Text :=
  match q.actions with
  | .insert text _ _ _ :: _ => text.take chars
  | _ => []

/-- A text has no fewer code units than any rest of it. -/
theorem utf16Length_drop_le (text : Text) (chars : Nat) : utf16Length (text.drop chars) ≤ utf16Length text := by
  have whole : utf16Length text = utf16Length (text.take chars) + utf16Length (text.drop chars) := by
    conv_lhs => rw [← List.take_append_drop chars text]
    simp only [utf16Length, List.map_append, List.sum_append]
  omega

/-- Consumed characters leave the front of what is owed, and give back their payload. -/
theorem consumeFrontInsertPrefix_spec (q : ConversionQueue) (chars : Nat) :
    let consumed := q.consumeFrontInsertPrefix chars
    q.marks = (q.frontText chars).map .typed ++ consumed.marks ∧ (q.Exact → consumed.Exact) := by
  unfold consumeFrontInsertPrefix frontText
  cases queued : q.actions with
  | nil => exact ⟨rfl, id⟩
  | cons action rest =>
    cases action with
    | insert text original style directCommit =>
      rw [marks_of_cons queued]
      refine ⟨?_, fun exact => ?_⟩
      · simp only [marks, List.flatMap_cons, ConversionAction.marks]
        rw [← List.append_assoc, ← List.map_append, List.take_append_drop]
      · have dropped := utf16Length_drop_le text chars
        have droppedOriginal :
            ((original.map (·.drop chars)).map utf16Length).getD 0 ≤ (original.map utf16Length).getD 0 := by
          cases original with
          | none => exact Nat.le_refl _
          | some original => exact utf16Length_drop_le original chars
        have whole : q.units = q.payload := exact
        rw [payload_of_cons queued] at whole
        simp only [Exact, payload, List.map_cons, List.sum_cons, ConversionAction.payloadUnits] at whole ⊢
        omega
    | _ => exact ⟨rfl, id⟩

end ConversionQueue

end Nospacekey
