import Nospacekey.Input.Module
import Mathlib.Algebra.Ring.Nat

/-! The queue of accepted operations that survive engine waits. Its first Commit separates compositions. -/

namespace Nospacekey

structure OperationTarget where
  clause : Option Nat
  start : Nat
  stop : Nat
  candidateWindow : Bool
  deriving DecidableEq, Repr

inductive ConversionAction where
  | moveClause (direction : Int)
  | moveReading (direction : Int)
  | readingHome
  | readingEnd
  | resizeClause (direction : Int)
  | candidate (direction : Int)
  | commit
  | cancel
  | insert (text : Text) (original : Option Text) (style : TextStyle) (directCommit : Bool)
  | backspace
  | delete
  | home (target : OperationTarget)
  | toEnd (target : OperationTarget)
  | transform (kind : Notation) (target : OperationTarget)
  | rotateNotation (target : OperationTarget)
  deriving DecidableEq, Repr

/-- The number of UTF-16 code units of a text. -/
def utf16Length (text : Text) : Nat := (text.map fun ch => if ch.toNat < 2 ^ 16 then 1 else 2).sum

namespace ConversionAction

def payloadUnits : ConversionAction → Nat
  | .insert text original _ _ => utf16Length text + (original.map utf16Length).getD 0
  | _ => 0

def isCommit : ConversionAction → Bool
  | .commit => true
  | _ => false

def isInsert : ConversionAction → Bool
  | .insert .. => true
  | _ => false

/-- The operations that only navigate or calculate: nothing of the user's text is lost with them. -/
def isEdit : ConversionAction → Bool
  | .commit | .insert .. | .backspace | .delete => true
  | _ => false

/-- The operations before a Commit that outlive a failed calculation. -/
def survivesFailure : ConversionAction → Bool
  | .insert .. | .backspace | .delete | .cancel => true
  | _ => false

/-- The operations at the head of the queue that can run into an exhausted counter. -/
def canExhaust : ConversionAction → Bool
  | .resizeClause _ | .backspace | .delete | .transform .. | .rotateNotation _ | .cancel | .candidate _ => true
  | _ => false

end ConversionAction

inductive QueueAdmission where
  | accepted
  | full
  | tooLarge
  deriving DecidableEq, Repr

inductive CandidateWaitDisposition where
  | defer
  | immediate
  | commit
  | commitThenInsert
  | close
  | noop
  deriving DecidableEq, Repr

def candidateWaitDisposition (action : ConversionAction) (barrier : Bool) : CandidateWaitDisposition :=
  if barrier then .defer
  else
    match action with
    | .candidate _ | .home _ | .toEnd _ => .defer
    | .delete => .noop
    | .commit => .commit
    | .insert .. => .commitThenInsert
    | .cancel => .close
    | _ => .immediate

structure ConversionQueue where
  actions : List ConversionAction
  units : Nat
  deadline : Option Nat
  waiting : Bool
  commitFailed : Bool
  initialReading : Option Text
  ownerLost : Bool
  unwrittenCommit : Option Text
  /-- An implicit settling is admitted to an empty queue only, so this intent belongs to its first Commit. -/
  suppressCommitPrediction : Bool
  deriving DecidableEq, Repr

namespace ConversionQueue

/-- The queue without any operation. -/
def default : ConversionQueue where
  actions := []
  units := 0
  deadline := none
  waiting := false
  commitFailed := false
  initialReading := none
  ownerLost := false
  unwrittenCommit := none
  suppressCommitPrediction := false

def front (q : ConversionQueue) : Option ConversionAction := q.actions.head?

def hasCommit (q : ConversionQueue) : Bool := q.actions.any (·.isCommit)

def clear (_ : ConversionQueue) : ConversionQueue := default

/-- Removes the front only after the action's effect has succeeded. -/
def completeFront (q : ConversionQueue) : ConversionQueue :=
  if q.ownerLost then q
  else
    let q :=
      match q.actions with
      | [] => q
      | action :: rest =>
        { q with
          actions := rest
          initialReading := if action.isCommit then none else q.initialReading
          suppressCommitPrediction := if action.isCommit then false else q.suppressCommitPrediction
          units := q.units - action.payloadUnits }
    if q.actions.isEmpty && !q.waiting then { q with deadline := none, initialReading := none } else q

/-- Owner loss never grants permission to replay accepted input in another document. -/
def detach (q : ConversionQueue) (commitBody : Option Text) (bodyApplied : Bool) : ConversionQueue :=
  if q.ownerLost then q
  else
    let q := { q with waiting := false }
    let q := if q.actions.any (·.isEdit) then q else { q with actions := [], units := 0 }
    let q := if bodyApplied && q.front = some .commit then q.completeFront else q
    let q := { q with unwrittenCommit := if bodyApplied then none else commitBody }
    if q.actions.isEmpty && q.unwrittenCommit.isNone then q.clear
    else { q with ownerLost := true, waiting := false, deadline := none, commitFailed := true }

/-- Accepts the barrier and its triggering text atomically. -/
def pushCommitThenMappedInsert (q : ConversionQueue) (text : Text) (original : Option Text) (style : TextStyle)
    (directCommit : Bool) : ConversionQueue × QueueAdmission :=
  if q.ownerLost then (q, .full)
  else
    let insert := ConversionAction.insert text original style directCommit
    let units := insert.payloadUnits
    if 4096 < units then (q, .tooLarge)
    else if 64 < q.actions.length + 2 || 4096 < q.units + units then (q, .full)
    else ({ q with actions := q.actions ++ [.commit, insert], units := q.units + units }, .accepted)

def begin (q : ConversionQueue) (now : Nat) (initialReading : Option Text) : ConversionQueue :=
  if q.ownerLost then q
  else
    { q with
      deadline := q.deadline.or (some (now + durationFromMillis 1200))
      initialReading := q.initialReading.or initialReading
      waiting := true }

def push (q : ConversionQueue) (action : ConversionAction) : ConversionQueue × QueueAdmission :=
  if q.ownerLost then (q, .full)
  else
    let units := action.payloadUnits
    if 4096 < units then (q, .tooLarge)
    else if 64 ≤ q.actions.length || 4096 < q.units + units then (q, .full)
    else ({ q with units := q.units + units, actions := q.actions ++ [action] }, .accepted)

/-- Mixed editing can exhaust its counters on the very first queued edit, so the slot for the Commit
that must then precede that edit is reserved. -/
def pushReservingCommit (q : ConversionQueue) (action : ConversionAction) : ConversionQueue × QueueAdmission :=
  if 63 ≤ q.actions.length then (q, .full) else q.push action

def prependCommitForInsert (q : ConversionQueue) : ConversionQueue × Bool :=
  if 64 ≤ q.actions.length || !q.front.any (·.isInsert) then (q, false)
  else ({ q with actions := .commit :: q.actions }, true)

/-- A full queue of navigation operations can end at its first operation, but text is never replaced. -/
def prependCapacityCommit (q : ConversionQueue) : ConversionQueue × Bool :=
  if q.front = some .commit then (q, true)
  else if q.actions.length < 64 then ({ q with actions := .commit :: q.actions }, true)
  else
    match q.actions with
    | [] => (q, false)
    | action :: rest => if action.isInsert then (q, false) else ({ q with actions := .commit :: rest }, true)

/-- Counter exhaustion ends the composition at this exact position and preserves the suffix. -/
def commitExhaustedAction (q : ConversionQueue) : ConversionQueue × Bool :=
  match q.actions with
  | [] => (q, false)
  | action :: rest => if action.canExhaust then ({ q with actions := .commit :: rest }, true) else (q, false)

def consumeFrontInsertPrefix (q : ConversionQueue) (chars : Nat) : ConversionQueue :=
  match q.actions with
  | .insert text original style directCommit :: rest =>
    let remaining := text.drop chars
    let units := q.units - (utf16Length text - utf16Length remaining)
    let remainingOriginal := original.map (·.drop chars)
    { q with
      actions := .insert remaining remainingOriginal style directCommit :: rest
      units := units - ((original.map utf16Length).getD 0 - (remainingOriginal.map utf16Length).getD 0) }
  | _ => q

def resolved (q : ConversionQueue) : ConversionQueue :=
  if q.ownerLost then q
  else
    let q := { q with waiting := false, initialReading := none }
    if q.actions.isEmpty then { q with deadline := none } else q

def expired (q : ConversionQueue) (now : Nat) : Bool := q.waiting && q.deadline.any fun deadline => deadline ≤ now

/-- Whether the candidate window is open once the queued operations have run. -/
def logicalWindowOpenFrom : Bool → List ConversionAction → Bool
  | isOpen, [] => isOpen
  | isOpen, action :: rest =>
    match action with
    | .candidate _ => logicalWindowOpenFrom true rest
    | .moveClause _ | .resizeClause _ | .transform .. | .rotateNotation _ | .cancel => logicalWindowOpenFrom false rest
    | .commit => isOpen
    | _ => logicalWindowOpenFrom isOpen rest

def logicalWindowOpen (q : ConversionQueue) : Bool := logicalWindowOpenFrom false q.actions

/-- A failed calculation cannot discard a Commit or any input accepted after it. -/
def failWait (q : ConversionQueue) : ConversionQueue :=
  if q.ownerLost then q
  else
    let before := q.actions.takeWhile fun action => !action.isCommit
    let after := q.actions.dropWhile fun action => !action.isCommit
    let retained := before.filter (·.survivesFailure) ++ after
    let q := { q with
      waiting := false
      actions := retained
      units := (retained.map ConversionAction.payloadUnits).sum }
    if q.actions.isEmpty then { q with deadline := none, initialReading := none } else q

/-- A correction of the whole reading supersedes navigation and calculation, but no accepted edit. -/
def supersedeCalculation (q : ConversionQueue) : ConversionQueue × Bool :=
  if q.ownerLost || q.commitFailed || q.actions.any fun action => action.isEdit || action = .cancel then (q, false)
  else (q.clear, true)

def cancelBeforeCommit (q : ConversionQueue) : ConversionQueue × Bool :=
  if q.ownerLost || q.hasCommit then (q, false) else (q.clear, true)

end ConversionQueue

end Nospacekey
