import Nospacekey.Input.KeyTest

/-! A key that goes down: what takes it, or what it leaves behind on its way to the application. -/

namespace Nospacekey

inductive AzRoute where
  | directCommit (ch : Char)
  | latin (ch : Char)
  | kana (ch : Char)
  deriving DecidableEq, Repr

/-- How a letter goes in, by Shift and by the latin mode. -/
def resolveAzChar (vk : Nat) (shift : Bool) (keyChar : Option Char) (compose latinMode : Bool) : AzRoute :=
  let lower := Char.ofNat ('a'.toNat + (vk - 0x41))
  if compose && (shift || latinMode) then .latin (keyChar.getD (if shift then lower.toUpper else lower))
  else if shift then .directCommit (keyChar.getD lower.toUpper)
  else
    match keyChar with
    | some c => if c.isAlpha then .kana lower else .kana c
    | none => .kana lower

def toKanaReadingChar (ch : Char) : Char := if ch = '-' then 'ー' else ch

/-- The sign that a key's character stands for in kana input, by the widths that the settings give. -/
def zenkakuSymbol (c : Char) (punctFullWidth symbolFullWidth : Bool) (chars : Char → Bool) : Option Char :=
  if c = '-' then some 'ー'
  else if c = ',' then if punctFullWidth then some '、' else none
  else if c = '.' then if punctFullWidth then some '。' else none
  else if !(symbolFullWidth && chars c) then none
  else if c = '/' then some '・'
  else if c = '[' then some '「'
  else if c = ']' then some '」'
  else if 0x21 ≤ c.toNat ∧ c.toNat ≤ 0x7E ∧ !c.isAlphanum then some (zenkakuOf c)
  else none

/-- What takes a key. -/
inductive KeyHandler where
  | conversionQueue
  | enterEphemeralKana
  | awaitingLlm
  | startCommitUndo
  | convertEditedInterval
  | queueLocalClauseCommit
  | localClauseSpace
  | localClauseEdit
  | triggerTypoConvert
  | startLlmConvert
  | applyNotation (kind : Notation)
  | dispatchNotationRotate
  | triggerConvert
  | startReconvert
  | dispatchModeToggle
  | inputChar (style : TextStyle)
  | symbolKeydown
  | commitCharDirect
  | queueCommitBeforeText
  | moveCandidate
  | commitClauses
  | commitCandidate
  | commitLocal
  | cancelReconvert
  | hideCandidates
  | cancelComposition
  | editReading
  | moveClause
  | settleActiveInput
  /-- Nothing is done with the key. -/
  | ignored
  deriving DecidableEq, Repr

/-- What comes of a key: a handler eats it, or it passes with what is left. -/
inductive KeyOutcome (σ : Type) where
  | eaten (handler : KeyHandler)
  | passed (s : σ)
  /-- The document refused a direct insertion, which is left to the application. -/
  | insertionRejected
  | panicked

namespace KeyOutcome

variable {σ : Type}

def isEaten : KeyOutcome σ → Bool
  | eaten _ => true
  | _ => false

/-- A key that passed goes on to what follows. -/
def andThen (o : KeyOutcome σ) (next : σ → KeyOutcome σ) : KeyOutcome σ :=
  match o with
  | passed s => next s
  | o => o

end KeyOutcome

/-- What a key means to a conversion that is under way. -/
inductive WaitMeaning where
  | nothing
  | ignored
  | operation (action : ConversionAction)
  deriving DecidableEq, Repr

/-- What the system and the document answer during a key down. -/
structure KeyReplies where
  exit : ModeReply
  settles : Bool
  inserts : Bool
  deriving DecidableEq, Repr

namespace KeyStroke

/-- The direction of an arrow. -/
def direction (k : KeyStroke) : Int := if k.kind = .right ∨ k.kind = .down then 1 else -1

end KeyStroke

namespace KeySink

variable {τ : Type}

def latinMode (s : KeySink τ) : Bool := s.input.state.latinMode

/-- Whether the queue has work that another context owns. -/
def conversionQueueContextChanged (s : KeySink τ) : Bool :=
  (s.queue.front.isSome || s.queue.waiting || s.queue.commitFailed || s.queue.ownerLost) && s.queueOfOtherContext

def clearConversionQueue (s : KeySink τ) : KeySink τ :=
  { s with
    queue := s.queue.clear
    queueOfOtherContext := false }

def closeWindow (s : KeySink τ) : KeySink τ := { s with clauses := s.clauses.map (·.closeWindow) }

def resetNotationCycle (s : KeySink τ) : KeySink τ := { s with clauses := s.clauses.map (·.resetNotationCycle) }

/-- What an operation of a key is aimed at. -/
def operationTarget (s : KeySink τ) : OperationTarget :=
  let target : OperationTarget :=
    match s.clauses.bind fun m => (m.clauses[m.selected]?).map fun c => (m, c) with
    | some (m, c) => { clause := some c.id, start := c.start, stop := c.stop, candidateWindow := !m.window.isClosed }
    | none =>
      { clause := none
        start := 0
        stop := s.input.canonicalReading.length
        candidateWindow := s.queue.logicalWindowOpen }
  { target with
    candidateWindow := if s.boundaryLoading then s.queue.logicalWindowOpen else target.candidateWindow }

/-- The insertion of a key's character, mapped as the settings want it. -/
def queuedNonalpha (s : KeySink τ) (k : KeyStroke) (ch : Char) : ConversionAction :=
  if !s.queue.hasCommit && s.latinMode then .insert [ch] none .direct false
  else
    let mapped :=
      if isSymbolKeystroke k.kind k.shift s.symbolOverlay then
        (zenkakuSymbol ch s.punctuationFullWidth s.symbolOverlay s.symbolChars).getD ch
      else toKanaReadingChar ch
    .insert [mapped] (if mapped ≠ ch then some [ch] else none) .kana false

/-- The insertion of a letter. -/
def queuedAlpha (s : KeySink τ) (k : KeyStroke) : ConversionAction :=
  match resolveAzChar k.vk k.shift k.char s.shiftLatinCompose (!s.queue.hasCommit && s.latinMode) with
  | .kana ch => .insert [ch] none .kana false
  | .latin ch => .insert [ch] none .direct false
  | .directCommit ch => .insert [ch] none .direct true

def queuedChar (s : KeySink τ) (k : KeyStroke) : WaitMeaning :=
  match k.char with
  | some ch => .operation (s.queuedNonalpha k ch)
  | none => .nothing

/-- What a key that is no command means to a conversion under way. -/
def plainMeaning (s : KeySink τ) (k : KeyStroke) : WaitMeaning :=
  match k.kind with
  | .left | .right =>
    if s.mixedEditing then .operation (.moveReading k.direction)
    else if k.shift then .operation (.resizeClause k.direction)
    else .operation (.moveClause k.direction)
  | .home => .operation (if s.mixedEditing then .readingHome else .home s.operationTarget)
  | .toEnd => .operation (if s.mixedEditing then .readingEnd else .toEnd s.operationTarget)
  | .up | .down => if !s.operationTarget.candidateWindow then .ignored else .operation (.candidate k.direction)
  | .enter => .operation .commit
  | .escape => .operation .cancel
  | .back => .operation .backspace
  | .delete => .operation .delete
  | .digit =>
    let selects := !s.queue.hasCommit && s.operationTarget.candidateWindow
    if (selects || s.boundaryLoading && !s.queue.hasCommit) && !k.shift then .ignored else s.queuedChar k
  | .letter => .operation (s.queuedAlpha k)
  | _ => s.queuedChar k

def waitMeaning (s : KeySink τ) (k : KeyStroke) (action : KeyAction) : WaitMeaning :=
  match action with
  | .convert => .operation (.candidate 1)
  | .transform kind => .operation (.transform kind s.operationTarget)
  | .notationRotate => .operation (.rotateNotation s.operationTarget)
  | _ => if !k.cmdModifier then s.plainMeaning k else .nothing

def isClauseMove : ConversionAction → Bool
  | .moveClause _ | .resizeClause _ => true
  | _ => false

/-- An operation that comes while candidates load. Each way but one ends with the operation in the queue
or already done, and then the key is eaten. -/
def whileLoading (s : KeySink τ) (action : ConversionAction) : KeyOutcome (KeySink τ) :=
  let disposition :=
    if s.boundaryLoading && isClauseMove action then .defer else candidateWaitDisposition action s.queue.hasCommit
  match disposition with
  | .defer | .noop | .commit | .commitThenInsert => .eaten .conversionQueue
  | .immediate | .close =>
    let s := s.clearConversionQueue.closeWindow
    if action = .cancel then .eaten .conversionQueue else .passed s

/-- There is something that keys have to wait for. -/
def underWay (s : KeySink τ) : Bool :=
  s.explicitSnapshotPending || s.localClauseLoading || s.queue.hasCommit || s.localClauseRedrawPending
    || s.queue.commitFailed

/-- The queue is bound to the context of the key. -/
def bindConversionQueueContext (s : KeySink τ) : KeySink τ := { s with queueOfOtherContext := false }

/-- What becomes of a key by its meaning. -/
def takeMeaning (s : KeySink τ) : WaitMeaning → KeyOutcome (KeySink τ)
  | .nothing => if s.queue.hasCommit then .eaten .conversionQueue else .passed s
  | .ignored => .eaten .conversionQueue
  | .operation operation => if s.localClauseLoading then s.whileLoading operation else .eaten .conversionQueue

/-- A key after the queue's head was seen to. -/
def meetConversion (s : KeySink τ) (k : KeyStroke) (action : KeyAction) : KeyOutcome (KeySink τ) :=
  if !s.underWay then .passed s
  -- The queue loses its owner to another context.
  else if s.conversionQueueContextChanged then .eaten .conversionQueue
  else s.bindConversionQueueContext.takeMeaning (s.bindConversionQueueContext.waitMeaning k action)

/-- A key that meets a conversion under way. What the queue then does with an operation is not followed. -/
def handleConversionWaitKey (s : KeySink τ) (k : KeyStroke) (action : KeyAction) : KeyOutcome (KeySink τ) :=
  if s.queue.ownerLost then .eaten .conversionQueue
  else if s.localConverting && s.queue.front.any (·.isInsert) then
    -- The insertion at the head gets its Commit, which is a barrier, or the queue fails.
    match s.queue.prependCommitForInsert with
    | (_, false) => .eaten .conversionQueue
    | (queue, true) => { s with queue := queue }.meetConversion k action
  else s.meetConversion k action

/-- The keys that the clauses under conversion take. -/
def localClauseKey (s : KeySink τ) (k : KeyStroke) : KeyOutcome (KeySink τ) :=
  match k.kind with
  | .left | .right | .up | .down | .home | .toEnd | .escape | .back => .eaten .localClauseEdit
  | .enter => .eaten .queueLocalClauseCommit
  | .digit =>
    if !k.shift && s.clauses.any fun m => !m.window.isClosed then .eaten .localClauseEdit else .passed s
  | .delete => .eaten .ignored
  | _ => .passed s

/-- The commands. Undo and the ephemeral mode are dealt with before. -/
def dispatchAction (s : KeySink τ) (k : KeyStroke) (action : KeyAction) : KeyOutcome (KeySink τ) :=
  -- A repeated key asks the engine nothing while it goes through the clauses.
  let repeated := s.showing && s.clauseNav && k.autorepeat
  match action with
  | .typo => .eaten (if repeated then .ignored else .triggerTypoConvert)
  | .llm => .eaten .startLlmConvert
  | .transform kind => .eaten (.applyNotation kind)
  | .notationRotate => .eaten .dispatchNotationRotate
  | .convert => .eaten (if repeated then .ignored else .triggerConvert)
  | .reconvert => .eaten .startReconvert
  | .modeToggle => .eaten .dispatchModeToggle
  | _ => .passed s

/-- The insertion of a key's character, of which there may be none. -/
def inputKey (k : KeyStroke) (style : TextStyle) : KeyOutcome (KeySink τ) :=
  .eaten (if k.char.isSome then .inputChar style else .ignored)

/-- A character that goes into the document without any composition. -/
def commitCharDirect (s : KeySink τ) (replies : KeyReplies) : KeyOutcome (KeySink τ) :=
  if s.localConverting then .eaten .queueCommitBeforeText
  else if (s.composing || s.showing) && !replies.settles then .eaten .ignored
  else if replies.inserts then .eaten .commitCharDirect
  else .insertionRejected

def letterKey (s : KeySink τ) (replies : KeyReplies) (k : KeyStroke) : KeyOutcome (KeySink τ) :=
  match resolveAzChar k.vk k.shift k.char s.shiftLatinCompose s.latinMode with
  | .directCommit _ => s.commitCharDirect replies
  | .latin _ => .eaten (.inputChar .direct)
  | .kana _ => .eaten (.inputChar .kana)

/-- Whether the module gives the candidate that is selected away. -/
def moduleCandidateCommit (s : KeySink τ) : Bool := (s.input.candidateCommit none).2.eaten

/-- Whether the module has local text to commit. -/
def moduleLocalCommit (segmentation : Segmentation) (s : KeySink τ) : Bool :=
  match (s.input.handleKey segmentation .enter).2.immediate with
  | some (.commit ..) => true
  | _ => false

/-- Enter commits the clauses, the candidate or the local text. The module is expected to give the last. -/
def enterKey (segmentation : Segmentation) (s : KeySink τ) : KeyOutcome (KeySink τ) :=
  if !s.composing && !s.showing then .passed s
  else if s.showing && s.clauseNav then .eaten .commitClauses
  else if s.showing && s.moduleCandidateCommit then .eaten .commitCandidate
  else if s.moduleLocalCommit segmentation then .eaten .commitLocal
  else .panicked

def digitKey (s : KeySink τ) (k : KeyStroke) : KeyOutcome (KeySink τ) :=
  if s.showing && !k.shift then
    if s.clauseNav then .eaten (if k.autorepeat then .ignored else .moveCandidate) else .eaten .commitCandidate
  else if k.shift then
    if s.latinMode then inputKey k .direct
    else if s.symbolOverlay then .eaten .symbolKeydown
    else if s.composing then inputKey k .kana
    else .passed s
  else inputKey k (if s.latinMode then .direct else .kana)

def escapeKey (s : KeySink τ) : KeyOutcome (KeySink τ) :=
  if s.reconverting then .eaten .cancelReconvert
  else if s.showing then .eaten .hideCandidates
  else if s.composing then .eaten .cancelComposition
  else .passed s

inductive BackspaceRoute where
  | cancelReconvert
  | hideStaleCandidates
  | compose
  | pass
  deriving DecidableEq, Repr

def backspaceRoute (composing showing reconverting : Bool) : BackspaceRoute :=
  if showing && !composing then if reconverting then .cancelReconvert else .hideStaleCandidates
  else if composing then .compose
  else .pass

def backspaceKey (s : KeySink τ) : KeyOutcome (KeySink τ) :=
  match backspaceRoute s.composing s.showing s.reconverting with
  | .cancelReconvert => .eaten .cancelReconvert
  | .hideStaleCandidates => .eaten .hideCandidates
  | .pass => .passed s
  | .compose => .eaten .editReading

/-- Zero, the signs and the number pad. -/
def textKey (s : KeySink τ) (k : KeyStroke) : KeyOutcome (KeySink τ) :=
  let sym := isSymbolKeystroke k.kind k.shift s.symbolOverlay
  if s.composing then
    if s.latinMode then inputKey k .direct else if sym then .eaten .symbolKeydown else inputKey k .kana
  else if sym then .eaten .symbolKeydown
  else if k.kind.isDigitVk then if k.shift then .passed s else inputKey k .kana
  else .passed s

def horizontalKey (s : KeySink τ) (k : KeyStroke) : KeyOutcome (KeySink τ) :=
  if s.explicitSnapshotPending then .eaten .ignored
  else if s.showing && !s.reconverting then .eaten (if s.clauseNav && k.autorepeat then .ignored else .moveClause)
  else if s.composing && !s.showing then .eaten .editReading
  else if s.showing then .eaten .settleActiveInput
  else .passed s

/-- The keys by what they are, after the commands. -/
def dispatchVk (segmentation : Segmentation) (s : KeySink τ) (replies : KeyReplies) (k : KeyStroke) :
    KeyOutcome (KeySink τ) :=
  match k.kind with
  | .letter => s.letterKey replies k
  | .up | .down =>
    if s.showing then .eaten (if s.clauseNav && k.autorepeat then .ignored else .moveCandidate) else .passed s
  | .enter => s.enterKey segmentation
  | .digit => s.digitKey k
  | .escape => s.escapeKey
  | .back => s.backspaceKey
  | .zero | .padDigit | .padOperator | .oemSymbol => s.textKey k
  | .left | .right => s.horizontalKey k
  | .home | .toEnd | .prior | .next | .delete =>
    if s.composing && !s.showing && (k.kind = .home || k.kind = .toEnd || k.kind = .delete) then .eaten .editReading
    else if s.composing || s.showing then .eaten .settleActiveInput
    else .passed s
  | _ => .passed s

/-- A key that no conversion under way takes. -/
def dispatchKey (segmentation : Segmentation) (s : KeySink τ) (replies : KeyReplies) (k : KeyStroke)
    (action : KeyAction) : KeyOutcome (KeySink τ) :=
  if s.mixedEditing && action = .convert then .eaten .convertEditedInterval
  else if s.mixedEditing && k.kind = .enter && !k.cmdModifier then .eaten .queueLocalClauseCommit
  else
    let s :=
      match action with
      | .transform _ | .notationRotate => s
      | _ => s.resetNotationCycle
    if s.localConverting && action = .convert then .eaten .localClauseSpace
    else
      (if s.localConverting && !k.cmdModifier then s.localClauseKey k else .passed s).andThen fun s =>
        (s.dispatchAction k action).andThen fun s => s.dispatchVk segmentation replies k

/-- The mode gate, and what follows it. -/
def gatedKeyDown (segmentation : Segmentation) (s : KeySink τ) (replies : KeyReplies) (k : KeyStroke)
    (action : KeyAction) : KeyOutcome (KeySink τ) :=
  let s := s.leaveEphemeral replies.exit k action
  -- The mode is read after the exit here too.
  if s.isDirectMode
      && !willHandleGated k.kind s.composing s.showing k.cmdModifier true k.shift s.symbolOverlay action then .passed s
  else (s.handleConversionWaitKey k action).andThen fun s => s.dispatchKey segmentation replies k action

/-- The checks that come before the mode. -/
def checkedKeyDown (segmentation : Segmentation) (s : KeySink τ) (replies : KeyReplies) (k : KeyStroke)
    (action : KeyAction) : KeyOutcome (KeySink τ) :=
  if k.cmdModifier && action = .nothing then .passed s
  else if action = .ephemeral then .eaten .enterEphemeralKana
  else
    let s := s.disarmOnKey k action
    if s.input.state.awaitingLlm then .eaten .awaitingLlm
    else if action = .commitUndo then .eaten .startCommitUndo
    else s.gatedKeyDown segmentation replies k action

/-- A key down in a context that takes no password, with no end of a composition and no prediction pending.
The queue replays its work within one drain, so that no replay is under way here. -/
def onKeyDown (segmentation : Segmentation) (s : KeySink τ) (replies : KeyReplies) (k : KeyStroke) :
    KeyOutcome (KeySink τ) :=
  let action := s.resolveActionNow k
  (if s.recoveryClaims k then s.handleConversionWaitKey k action else .passed s).andThen fun s =>
    s.checkedKeyDown segmentation replies k action

end KeySink

end Nospacekey
