import Nospacekey.Ipc.Clause
import Mathlib.Algebra.Ring.Nat

/-! The state machine of inline predictions, which knows neither the document nor the engine. -/

namespace Nospacekey

/-- The unsigned 64-bit sum that stops at the greatest number. -/
def u64SaturatingAdd (a b : Nat) : Nat := min (a + b) (2 ^ 64 - 1)

/-- Below the greatest number the sum is that of the numbers. -/
theorem u64SaturatingAdd_of_lt {a : Nat} (small : a < 2 ^ 64 - 1) : u64SaturatingAdd a 1 = a + 1 :=
  Nat.min_eq_left small

/-- No sum exceeds the sum of the numbers. -/
theorem u64SaturatingAdd_le (a b : Nat) : u64SaturatingAdd a b ≤ a + b := Nat.min_le_left _ _

/-- Every sum is a 64-bit number. -/
theorem u64SaturatingAdd_lt (a b : Nat) : u64SaturatingAdd a b < 2 ^ 64 :=
  Nat.lt_of_le_of_lt (Nat.min_le_right _ _) (by decide)

/-- Adding to a 64-bit number does not make it less. -/
theorem le_u64SaturatingAdd {a : Nat} (b : Nat) (fits : a < 2 ^ 64) : a ≤ u64SaturatingAdd a b :=
  Nat.le_min.mpr ⟨Nat.le_add_right _ _, Nat.le_sub_one_of_lt fits⟩

def debounceMs : Nat := 300

def deadlineMs : Nat := 400

def minContextChars : Nat := 8

def maxContextChars : Nat := 256

def maxPredictionChars : Nat := 16

def minPredictionChars : Nat := 2

inductive CommitSource where
  | enter
  | candidate
  | clause
  | acceptedPrediction
  | liveAuto
  | partly
  | implicitSettle
  deriving DecidableEq, Repr

/-- Only a commit that a user has asked for starts a prediction. -/
def CommitSource.startsPrediction : CommitSource → Bool
  | .enter | .candidate | .clause | .acceptedPrediction => true
  | .liveAuto | .partly | .implicitSettle => false

structure PredictionRequest where
  seq : Nat
  contextBefore : Text
  anchor : Nat
  deadlineAt : Nat
  deriving DecidableEq, Repr

structure PredictionGhost where
  seq : Nat
  text : Text
  anchor : Nat
  deriving DecidableEq, Repr

inductive Invalidation where
  | input
  | caretMoved
  | selectionChanged
  | focusChanged
  | modeChanged
  | disabled
  deriving DecidableEq, Repr

def Invalidation.clearsContext (reason : Invalidation) : Bool := reason ≠ .input

structure PendingRequest where
  seq : Nat
  anchor : Nat
  deadlineAt : Nat
  deriving DecidableEq, Repr

/-- What is kept of a request until it is answered. -/
def PredictionRequest.awaited (request : PredictionRequest) : PendingRequest :=
  { seq := request.seq, anchor := request.anchor, deadlineAt := request.deadlineAt }

structure PredictionState where
  contextBefore : Text
  nextSeq : Nat
  /-- The time at which a request is due, and its anchor. -/
  debounce : Option (Nat × Nat)
  pending : Option PendingRequest
  ghost : Option PredictionGhost
  suppressedContext : Option Text
  deriving DecidableEq, Repr

namespace PredictionState

/-- The state before the first commit. -/
def initial : PredictionState where
  contextBefore := []
  nextSeq := 0
  debounce := none
  pending := none
  ghost := none
  suppressedContext := none

def hasActivity (s : PredictionState) : Bool := s.debounce.isSome || s.pending.isSome || s.ghost.isSome

def isCurrentContextSuppressed (s : PredictionState) : Bool := s.suppressedContext = some s.contextBefore

def invalidate (s : PredictionState) (reason : Invalidation) : PredictionState :=
  let s := { s with
    nextSeq := u64SaturatingAdd s.nextSeq 1
    debounce := none
    pending := none
    ghost := none }
  if reason.clearsContext then { s with contextBefore := [], suppressedContext := none } else s

/-- The context with the committed text, without the characters that are too far behind. -/
def pushContext (context text : Text) : Text :=
  let context := context ++ text
  if maxContextChars < context.length then context.drop (context.length - maxContextChars) else context

def onCommit (s : PredictionState) (source : CommitSource) (text : Text) (anchor now : Nat) : PredictionState :=
  if !source.startsPrediction then s.invalidate .caretMoved
  else
    let s :=
      if s.hasActivity then
        { s with nextSeq := u64SaturatingAdd s.nextSeq 1, debounce := none, pending := none, ghost := none }
      else s
    let s := { s with suppressedContext := none, contextBefore := pushContext s.contextBefore text }
    if minContextChars ≤ s.contextBefore.length then
      { s with debounce := some (u64SaturatingAdd now debounceMs, anchor) }
    else s

def poll (s : PredictionState) (now : Nat) : PredictionState × Option PredictionRequest :=
  if s.isCurrentContextSuppressed then ({ s with debounce := none }, none)
  else
    match s.debounce with
    | none => (s, none)
    | some (dueAt, anchor) =>
      if now < dueAt then (s, none)
      else
        let request : PredictionRequest :=
          { seq := u64SaturatingAdd s.nextSeq 1
            contextBefore := s.contextBefore
            anchor := anchor
            deadlineAt := u64SaturatingAdd now deadlineMs }
        ({ s with
            debounce := none
            nextSeq := request.seq
            pending := some request.awaited },
          some request)

def onResult (s : PredictionState) (seq : Nat) (text : Text) (now : Nat) : PredictionState × Option PredictionGhost :=
  match s.pending with
  | none => (s, none)
  | some pending =>
    if seq ≠ pending.seq then (s, none)
    else
      let s := { s with pending := none }
      if pending.deadlineAt < now then (s, none)
      else
        let text := text.take maxPredictionChars
        if text.length < minPredictionChars then (s, none)
        else
          let ghost : PredictionGhost := { seq := seq, text := text, anchor := pending.anchor }
          ({ s with ghost := some ghost }, some ghost)

/-- A request without an answer ends at its deadline. A later result finds nothing pending. -/
def expirePending (s : PredictionState) (now : Nat) : PredictionState × Bool :=
  match s.pending with
  | none => (s, false)
  | some pending => if now ≤ pending.deadlineAt then (s, false) else ({ s with pending := none }, true)

def acceptGhost (s : PredictionState) (anchor now : Nat) : PredictionState × Option Text :=
  match s.ghost with
  | none => (s, none)
  | some ghost => ({ s with ghost := none }.onCommit .acceptedPrediction ghost.text anchor now, some ghost.text)

def dismissGhost (s : PredictionState) : PredictionState × Bool :=
  match s.ghost with
  | none => (s, false)
  | some _ => ({ s with ghost := none, suppressedContext := some s.contextBefore }, true)

end PredictionState

end Nospacekey
