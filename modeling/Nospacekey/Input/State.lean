import Nospacekey.Clause.Notation
import Nospacekey.Library.Utf8

/-! The input state machine below the module: typed keys, the input phase and the latin mode. -/

namespace Nospacekey

open Utf8

/-- Composing is the usual live phase, and input is locked while the language model converts. -/
inductive Phase where
  | composing
  | awaitingLlm
  deriving DecidableEq, Repr

structure InputState where
  /-- The keys typed so far, as they are sent to the engine. -/
  raw : Text
  composing : Bool
  phase : Phase
  notationFixed : Option Notation
  /-- The byte offset in the keys at which direct insertion starts, in latin mode. -/
  latinFrom : Option Nat
  deriving DecidableEq, Repr

namespace InputState

/-- The state without any input. -/
def empty : InputState where
  raw := []
  composing := false
  phase := .composing
  notationFixed := none
  latinFrom := none

def onChar (s : InputState) (ch : Char) : InputState :=
  { s with raw := s.raw ++ [ch], composing := true, notationFixed := none }

/-- The first key of latin mode marks where direct insertion starts. -/
def onCharLatin (s : InputState) (ch : Char) : InputState :=
  (if s.latinFrom.isNone then { s with latinFrom := some (byteLength s.raw) } else s).onChar ch

def latinMode (s : InputState) : Bool := s.composing && s.latinFrom.isSome

def onBackspace (s : InputState) : InputState :=
  if !s.composing then s
  else
    let s := { s with raw := s.raw.dropLast }
    let s :=
      if s.raw.isEmpty then { s with composing := false, latinFrom := none }
      else
        -- Once the direct part is deleted, its start follows the end of the keys.
        { s with latinFrom := s.latinFrom.map fun start => min start (byteLength s.raw) }
    { s with notationFixed := none }

def reset (s : InputState) : InputState :=
  { s with raw := [], composing := false, phase := .composing, notationFixed := none, latinFrom := none }

/-- The composition goes on in the document when its cancellation was rejected. -/
def resumeComposingAfterCancelReject (s : InputState) : InputState := { s with composing := true }

/-- The composition goes on with the rest of the canonical text after a partial commit. -/
def reseedAfterPartialCommitWithLatin (s : InputState) (remaining : Text) (latinFrom : Option Nat) :
    InputState :=
  { s with
    raw := remaining
    composing := true
    phase := .composing
    notationFixed := none
    latinFrom := latinFrom }

def awaitingLlm (s : InputState) : Bool := s.phase = .awaitingLlm

def setAwaitingLlm (s : InputState) (on : Bool) : InputState :=
  { s with phase := if on then .awaitingLlm else .composing }

end InputState

end Nospacekey
