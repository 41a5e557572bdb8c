import Nospacekey.Clause.Conversion
import Nospacekey.Input.KeyAction
import Nospacekey.Input.Module
import Nospacekey.Queue.Conversion

/-! The keys that the text service claims for itself before they go down. -/

namespace Nospacekey

/-- The keys that are told apart. -/
inductive KeyKind where
  /-- A to Z. -/
  | letter
  /-- 1 to 9 of the main row. -/
  | digit
  | zero
  | padDigit
  /-- The signs of the number pad. -/
  | padOperator
  /-- A key for a sign, which depends on the layout. -/
  | oemSymbol
  | back
  | tab
  | enter
  | escape
  | space
  | prior
  | next
  | toEnd
  | home
  | left
  | up
  | right
  | down
  | delete
  /-- F6 to F10. -/
  | functionKey
  /-- Shift, Ctrl, Alt or Win alone. -/
  | modifier
  | other
  deriving DecidableEq, Repr

def keyKind (vk : Nat) : KeyKind :=
  if 0x41 ≤ vk ∧ vk ≤ 0x5A then .letter
  else if 0x31 ≤ vk ∧ vk ≤ 0x39 then .digit
  else if vk = 0x30 then .zero
  else if 0x60 ≤ vk ∧ vk ≤ 0x69 then .padDigit
  else if 0x6A ≤ vk ∧ vk ≤ 0x6F then .padOperator
  else if 0xBA ≤ vk ∧ vk ≤ 0xC0 ∨ 0xDB ≤ vk ∧ vk ≤ 0xDF ∨ vk = 0xE2 then .oemSymbol
  else if 0x75 ≤ vk ∧ vk ≤ 0x79 then .functionKey
  else if 0x10 ≤ vk ∧ vk ≤ 0x12 ∨ 0xA0 ≤ vk ∧ vk ≤ 0xA5 ∨ vk = 0x5B ∨ vk = 0x5C then .modifier
  else
    match vk with
    | 0x08 => .back
    | 0x09 => .tab
    | 0x0D => .enter
    | 0x1B => .escape
    | 0x20 => .space
    | 0x21 => .prior
    | 0x22 => .next
    | 0x23 => .toEnd
    | 0x24 => .home
    | 0x25 => .left
    | 0x26 => .up
    | 0x27 => .right
    | 0x28 => .down
    | 0x2E => .delete
    | _ => .other

namespace KeyKind

def isTextVk : KeyKind → Bool
  | zero | padDigit | padOperator | oemSymbol => true
  | _ => false

def isOemSymbolVk (kind : KeyKind) : Bool := kind = oemSymbol

def isMainRowDigitVk : KeyKind → Bool
  | zero | digit => true
  | _ => false

def isDigitVk : KeyKind → Bool
  | zero | digit | padDigit => true
  | _ => false

def isPureModifierVk (kind : KeyKind) : Bool := kind = modifier

/-- The keys with which one moves about in the clauses. -/
def isClauseKey : KeyKind → Bool
  | left | right | up | down | home | toEnd | delete => true
  | _ => false

end KeyKind

/-- The full and half width keys come under several numbers. -/
def normalizeVk (vk : Nat) : Nat := if vk = 0x19 ∨ vk = 0xF4 then 0xF3 else vk

/-- A key as it arrives, with the modifiers held and the character that the layout has for it. -/
structure KeyStroke where
  rawVk : Nat
  ctrl : Bool
  shift : Bool
  alt : Bool
  char : Option Char
  autorepeat : Bool
  deriving DecidableEq, Repr

namespace KeyStroke

def vk (k : KeyStroke) : Nat := normalizeVk k.rawVk

def kind (k : KeyStroke) : KeyKind := keyKind k.vk

/-- One of Ctrl and Alt makes a shortcut of the application, both of them ordinary input. -/
def cmdModifier (k : KeyStroke) : Bool := k.ctrl != k.alt

end KeyStroke

def isSymbolKeystroke (kind : KeyKind) (shift symbolOverlay : Bool) : Bool :=
  kind.isOemSymbolVk || symbolOverlay && shift && kind.isMainRowDigitVk

def queueRecoveryClaims (kind : KeyKind) (commandModifier ownerLost failed barrier : Bool) : Bool :=
  !commandModifier &&
    ((failed || barrier) && (kind = .enter || kind = .escape) ||
      (ownerLost || failed) &&
        match kind with
        | .prior | .next | .modifier | .other => false
        | _ => true)

/-- Whether the key is taken in the present state, commands aside. -/
def willHandle (kind : KeyKind) (composing showing cmdModifier direct : Bool) : Bool :=
  if cmdModifier then false
  else if direct then
    match kind with
    | .back | .enter | .escape | .up | .down | .home | .toEnd | .prior | .next | .delete | .digit => showing
    | _ => false
  else
    match kind with
    | .letter => true
    | .enter | .escape | .back | .digit => composing || showing
    | .up | .down => showing
    | .home | .toEnd | .prior | .next | .delete | .left | .right => composing || showing
    | .oemSymbol => true
    | .zero | .padDigit | .padOperator => composing
    | _ => false

def willHandleGated (kind : KeyKind) (composing showing cmdModifier direct shift symbolOverlay : Bool)
    (action : KeyAction) : Bool :=
  if action ≠ .nothing then true
  else if !direct && !cmdModifier && symbolOverlay && shift && kind.isMainRowDigitVk then true
  else if kind = .digit && shift && showing && !composing then false
  else if !direct && !cmdModifier && !shift && kind.isDigitVk then true
  else willHandle kind composing showing cmdModifier direct

/-- The keys that kana do not take end the ephemeral mode where there is no input. -/
def ephemeralIdleAbort (kind : KeyKind) (cmdModifier shift symbolOverlay ephemeral composing showing : Bool)
    (action : KeyAction) : Bool :=
  ephemeral && !composing && !showing &&
    !willHandleGated kind composing showing cmdModifier false shift symbolOverlay action

def willHandleAwaiting (kind : KeyKind)
    (composing showing cmdModifier direct shift awaitingLlm symbolOverlay : Bool) (action : KeyAction) : Bool :=
  if action ≠ .nothing then true
  else if cmdModifier then false
  else if awaitingLlm then true
  else willHandleGated kind composing showing cmdModifier direct shift symbolOverlay action

def effectiveIsDirect (owned langbarIsDirect liveIsDirect : Bool) : Bool :=
  if owned then langbarIsDirect else liveIsDirect

/-- What comes of a write of the conversion mode. -/
inductive ModeReply where
  | noCompartment
  | written
  | failed (liveDirect : Bool)
  deriving DecidableEq, Repr

/-- What the two entry points of a key read and change, up to the handler that takes the key. -/
structure KeySink (τ : Type) where
  input : InputModule
  clauses : Option (ClauseConversion τ)
  queue : ConversionQueue
  /-- The queue is bound to a context other than that of the key. -/
  queueOfOtherContext : Bool
  showing : Bool
  reconverting : Bool
  clauseNav : Bool
  explicitSnapshotPending : Bool
  localClauseRedrawPending : Bool
  ephemeralKana : Bool
  directModeOwned : Bool
  langbarIsDirect : Bool
  liveIsDirect : Bool
  undoArmed : Bool
  ephemeralEnabled : Bool
  typoEnabled : Bool
  llmEnabled : Bool
  shiftLatinCompose : Bool
  symbolOverlay : Bool
  punctuationFullWidth : Bool
  symbolChars : Char → Bool
  keymap : Keymap

namespace KeySink

variable {τ : Type}

def composing (s : KeySink τ) : Bool := s.input.state.composing

def isDirectMode (s : KeySink τ) : Bool :=
  effectiveIsDirect s.directModeOwned s.langbarIsDirect s.liveIsDirect

def localConverting (s : KeySink τ) : Bool := s.clauses.any fun m => m.mode = .converting

def localClauseLoading (s : KeySink τ) : Bool := s.clauses.any fun m => m.window.loadingKey.isSome

def boundaryLoading (s : KeySink τ) : Bool := s.clauses.any (·.boundaryLoading)

def mixedEditing (s : KeySink τ) : Bool := s.clauses.any fun m => m.editingRange.isSome

def resolveActionNow (s : KeySink τ) (k : KeyStroke) : KeyAction :=
  resolveAction s.keymap
    { vk := k.vk
      ctrl := k.ctrl
      shift := k.shift
      alt := k.alt
      composing := s.composing
      showing := s.showing
      direct := s.isDirectMode
      undoArmed := s.undoArmed
      ephemeralEnabled := s.ephemeralEnabled
      typoEnabled := s.typoEnabled
      llmEnabled := s.llmEnabled }

def disarmUndo (s : KeySink τ) : KeySink τ := { s with undoArmed := false }

/-- Any other key than a modifier alone or the undo itself takes the undo of the commit away. -/
def disarmOnKey (s : KeySink τ) (k : KeyStroke) (action : KeyAction) : KeySink τ :=
  if !k.kind.isPureModifierVk && action ≠ .commitUndo then s.disarmUndo else s

def exitEphemeralToDirect (s : KeySink τ) (reply : ModeReply) : KeySink τ :=
  if !s.ephemeralKana then s
  else
    match reply with
    -- The mark stays, so that the next exit tries again.
    | .noCompartment => s
    | .written =>
      { s with ephemeralKana := false, directModeOwned := true, langbarIsDirect := true, liveIsDirect := true }
    | .failed liveDirect =>
      { s with
        ephemeralKana := !liveDirect
        directModeOwned := false
        langbarIsDirect := liveDirect
        liveIsDirect := liveDirect }

/-- The exit from the ephemeral mode that both entry points make for a key. -/
def leaveEphemeral (s : KeySink τ) (reply : ModeReply) (k : KeyStroke) (action : KeyAction) : KeySink τ :=
  if ephemeralIdleAbort k.kind k.cmdModifier k.shift s.symbolOverlay s.ephemeralKana s.composing s.showing action then
    s.exitEphemeralToDirect reply
  else s

def recoveryClaims (s : KeySink τ) (k : KeyStroke) : Bool :=
  queueRecoveryClaims k.kind k.cmdModifier s.queue.ownerLost s.queue.commitFailed s.queue.hasCommit

/-- The keys that are claimed whatever the composition is at. -/
def claims (s : KeySink τ) (k : KeyStroke) : Bool :=
  s.recoveryClaims k ||
    (s.localConverting || s.explicitSnapshotPending) && !k.cmdModifier && k.kind.isClauseKey

/-- Whether the key will be eaten. Only the arming of the undo and the mode can change. -/
def onTestKeyDown (s : KeySink τ) (reply : ModeReply) (k : KeyStroke) : KeySink τ × Bool :=
  let action := s.resolveActionNow k
  let s := (s.disarmOnKey k action).leaveEphemeral reply k action
  -- The mode is read after the exit, which changes it.
  (s, s.claims k ||
    willHandleAwaiting k.kind s.composing s.showing k.cmdModifier s.isDirectMode k.shift s.input.state.awaitingLlm
      s.symbolOverlay action)

end KeySink

end Nospacekey
