import Nospacekey.Input.KeyDispatch

/-! The test and the key down agree on what is eaten, but for the cases that are listed here. -/

namespace Nospacekey

namespace KeySink

open KeyOutcome

variable {τ : Type} {segmentation : Segmentation} {s : KeySink τ} {reply : ModeReply} {replies : KeyReplies}
  {k : KeyStroke} {action : KeyAction}

/-- What a key that passes must not change. -/
def Unchanged (s s' : KeySink τ) : Prop := s'.input = s.input ∧ s'.clauses = s.clauses ∧ s'.queue = s.queue

/-- The key down right after the test eats the key just where the test said so, and else changes nothing.
An insertion that the document refuses is left out. -/
@[grind =] def EntryPointsAgree (segmentation : Segmentation) (s : KeySink τ) (reply : ModeReply) (replies : KeyReplies)
    (k : KeyStroke) : Prop :=
  match (s.onTestKeyDown reply k).1.onKeyDown segmentation replies k with
  | .eaten _ => (s.onTestKeyDown reply k).2 = true
  | .passed s' => (s.onTestKeyDown reply k).2 = false ∧ Unchanged s s'
  | .insertionRejected => True
  | .panicked => False

/-- What the test leaves. -/
def tested (s : KeySink τ) (reply : ModeReply) (k : KeyStroke) : KeySink τ := (s.onTestKeyDown reply k).1

/-- A key that is no command, once the key down has read the mode. -/
def atMode (s : KeySink τ) (replies : KeyReplies) (k : KeyStroke) : KeySink τ :=
  (s.disarmOnKey k .nothing).leaveEphemeral replies.exit k .nothing

/-- The mode in which the key down looks at a key. -/
def meetsDirectMode (s : KeySink τ) (reply : ModeReply) (replies : KeyReplies) (k : KeyStroke) : Bool :=
  ((s.tested reply k).atMode replies k).isDirectMode

/-- What a key that the queue's recovery has looked at leaves of the wait. -/
def recovered (s : KeySink τ) (k : KeyStroke) : KeySink τ := if s.recoveryClaims k then s.afterWait k else s

/-- A key that is no command to the key down, and that neither a shortcut nor an answer awaited decides. -/
structure PlainKey (s : KeySink τ) (reply : ModeReply) (k : KeyStroke) : Prop where
  plain : (s.tested reply k).resolveActionNow k = .nothing
  free : k.cmdModifier = false
  awake : s.input.state.awaitingLlm = false

/-- A plain key outside of the direct mode that kana do not take. -/
structure UngatedKey (s : KeySink τ) (reply : ModeReply) (replies : KeyReplies) (k : KeyStroke) : Prop extends
    PlainKey s reply k where
  native : s.meetsDirectMode reply replies k = false
  ungated : s.gate k false = false

/-- The cases in which the test and the key down part. -/
inductive EntryPointsPart (segmentation : Segmentation) (s : KeySink τ) (reply : ModeReply) (replies : KeyReplies)
    (k : KeyStroke) : Prop
  /-- The test ends the ephemeral mode for a key that is a command of the direct mode. -/
  | reentered (idle : s.resolveActionNow k = .nothing)
      (command : (s.tested reply k).resolveActionNow k ≠ .nothing) (unclaimed : s.claims k = false)
      (awake : k.cmdModifier = true ∨ s.input.state.awaitingLlm = false)
  /-- The test claims a key that the direct mode keeps out. -/
  | keptOut (plain : s.PlainKey reply k) (direct : s.meetsDirectMode reply replies k = true)
      (left : s.gate k true = false) (claimed : s.claims k = true)
      (untaken : (s.recoveryClaims k && s.waitTakes k) = false)
  /-- Enter finds nothing to commit. -/
  | enterPanics (plain : s.PlainKey reply k) (enter : k.kind = .enter)
      (taken : s.gate k (s.meetsDirectMode reply replies k) = true) (reaches : s.reachesVk k = true)
      (panics : s.enterPanics segmentation = true)
  /-- The recovery claims a key that means nothing to the queue. -/
  | meaningless (key : s.UngatedKey reply replies k) (recovery : s.recoveryClaims k = true)
      (unheld : s.holdsEveryKey = false) (meaningless : s.hasMeaning k = false)
  /-- The recovery claims a key that ends a wait for candidates outside of a conversion. -/
  | recoveryDropped (key : s.UngatedKey reply replies k) (recovery : s.recoveryClaims k = true)
      (unheld : s.holdsEveryKey = false) (ends : s.endsLoading k = true) (unconverted : s.localConverting = false)
      (unawaited : (s.explicitSnapshotPending || s.localClauseRedrawPending) = false)
  /-- Home or End ends a wait for candidates while an explicit snapshot is awaited too. -/
  | pendingDropped (key : s.UngatedKey reply replies k) (unrecovered : s.recoveryClaims k = false)
      (pending : s.explicitSnapshotPending = true) (unconverted : s.localConverting = false)
      (unheld : s.holdsEveryKey = false) (ends : s.endsLoading k = true) (home : k.kind = .home ∨ k.kind = .toEnd)
  /-- A conversion under way takes a key, or gives way to it, that the test leaves. -/
  | waited (key : s.UngatedKey reply replies k) (unclaimed : s.claims k = false)
      (wait : (s.holdsEveryKey || s.underWay && s.hasMeaning k) = true)
  /-- The clauses take a key without any composition or candidates. -/
  | clauses (key : s.UngatedKey reply replies k) (unclaimed : s.claims k = false)
      (takes : s.mixedEditing = true ∧ k.kind = .enter ∨
        s.localConverting = true ∧ (k.kind = .enter ∨ k.kind = .escape ∨ k.kind = .back))
  /-- Escape ends a reconversion of which nothing shows. -/
  | reconverting (key : s.UngatedKey reply replies k) (unclaimed : s.claims k = false) (escape : k.kind = .escape)
      (reconverting : s.reconverting = true)
  /-- The turn of the notations ends with a key that passes. -/
  | notationCycle (key : s.UngatedKey reply replies k) (unclaimed : s.claims k = false)
      (cycling : (s.clauses.any fun m => m.notationCycle.isSome) = true)

/-! ### The modes -/

/-- What the arming of the undo and the conversion mode consist of. -/
structure KeyModes where
  undoArmed : Bool
  ephemeralKana : Bool
  directModeOwned : Bool
  langbarIsDirect : Bool
  liveIsDirect : Bool

def withModes (s : KeySink τ) (m : KeyModes) : KeySink τ :=
  { s with
    undoArmed := m.undoArmed
    ephemeralKana := m.ephemeralKana
    directModeOwned := m.directModeOwned
    langbarIsDirect := m.langbarIsDirect
    liveIsDirect := m.liveIsDirect }

theorem disarmOnKey_withModes (s : KeySink τ) (k : KeyStroke) (action : KeyAction) :
    ∃ m, s.disarmOnKey k action = s.withModes m := by
  unfold disarmOnKey
  split
  · exact ⟨⟨_, _, _, _, _⟩, rfl⟩
  · exact ⟨⟨_, _, _, _, _⟩, rfl⟩

theorem leaveEphemeral_withModes (s : KeySink τ) (reply : ModeReply) (k : KeyStroke) (action : KeyAction) :
    ∃ m, s.leaveEphemeral reply k action = s.withModes m := by
  unfold leaveEphemeral exitEphemeralToDirect
  repeat' split
  all_goals exact ⟨⟨_, _, _, _, _⟩, rfl⟩

theorem tested_withModes (s : KeySink τ) (reply : ModeReply) (k : KeyStroke) :
    ∃ m, s.tested reply k = s.withModes m := by
  -- The test disarms the undo, and then leaves the ephemeral mode.
  obtain ⟨m, disarmed⟩ := disarmOnKey_withModes s k (s.resolveActionNow k)
  obtain ⟨m', left⟩ := leaveEphemeral_withModes (s.withModes m) reply k (s.resolveActionNow k)
  refine ⟨m', ?_⟩
  rw [tested, onTestKeyDown]
  simp only [disarmed, left]
  rfl

theorem atMode_withModes (s : KeySink τ) (replies : KeyReplies) (k : KeyStroke) :
    ∃ m, s.atMode replies k = s.withModes m := by
  obtain ⟨m, disarmed⟩ := disarmOnKey_withModes s k .nothing
  obtain ⟨m', left⟩ := leaveEphemeral_withModes (s.withModes m) replies.exit k .nothing
  refine ⟨m', ?_⟩
  rw [atMode, disarmed, left]
  rfl

section

variable (s : KeySink τ) (m : KeyModes) (k : KeyStroke)

@[simp] theorem endsLoading_withModes : (s.withModes m).endsLoading k = s.endsLoading k := rfl

@[simp] theorem underWay_withModes : (s.withModes m).underWay = s.underWay := rfl

@[simp] theorem waitTakes_withModes : (s.withModes m).waitTakes k = s.waitTakes k := rfl

@[simp] theorem recoveryClaims_withModes : (s.withModes m).recoveryClaims k = s.recoveryClaims k := rfl

@[simp] theorem claims_withModes : (s.withModes m).claims k = s.claims k := rfl

@[simp] theorem clausesTake_withModes : (s.withModes m).clausesTake k = s.clausesTake k := rfl

@[simp] theorem reachesVk_withModes : (s.withModes m).reachesVk k = s.reachesVk k := rfl

@[simp] theorem strays_withModes : (s.withModes m).strays k = s.strays k := rfl

@[simp] theorem gate_withModes (direct : Bool) : (s.withModes m).gate k direct = s.gate k direct := rfl

@[simp] theorem enterPanics_withModes : (s.withModes m).enterPanics segmentation = s.enterPanics segmentation := rfl

/-- The modes have no part in the wait. -/
theorem afterWait_withModes : (s.withModes m).afterWait k = (s.afterWait k).withModes m := by
  cases ends : s.endsLoading k <;> cases wait : s.underWay <;> simp [afterWait, ends, wait] <;> rfl

theorem recovered_withModes : (s.withModes m).recovered k = (s.recovered k).withModes m := by
  cases recovery : s.recoveryClaims k <;> simp [recovered, recovery, afterWait_withModes]

end

/-! ### Commands -/

theorem leaveEphemeral_command (s : KeySink τ) (reply : ModeReply) (k : KeyStroke) (command : action ≠ .nothing) :
    s.leaveEphemeral reply k action = s := by
  rw [leaveEphemeral, ephemeralIdleAbort, willHandleGated_command command]
  simp

/-- A command other than the undo is the same without its arming. -/
theorem resolveActionNow_disarmOnKey (s : KeySink τ) (k : KeyStroke) :
    (s.disarmOnKey k (s.resolveActionNow k)).resolveActionNow k = s.resolveActionNow k := by
  unfold disarmOnKey
  split
  · -- The chord of an armed undo resolves to the undo, so it was not armed or not hit.
    rename_i other
    rw [Bool.and_eq_true, decide_eq_true_eq] at other
    have unarmed : (s.undoArmed && chordHits s.keymap.commitUndo k.vk k.ctrl k.shift k.alt) = false := by
      by_contra armed
      refine other.2 ?_
      rw [resolveActionNow, resolveAction]
      exact if_pos (Bool.eq_true_of_not_eq_false armed)
    simp only [resolveActionNow, resolveAction, disarmUndo]
    simp [unarmed]
    rfl
  · rfl

theorem tested_command (reply : ModeReply) (command : s.resolveActionNow k ≠ .nothing) :
    s.tested reply k = s.disarmOnKey k (s.resolveActionNow k) ∧ (s.onTestKeyDown reply k).2 = true := by
  constructor
  · rw [tested, onTestKeyDown]
    exact leaveEphemeral_command _ _ _ command
  · rw [onTestKeyDown]
    simp [willHandleAwaiting, command]

/-- A command is eaten in whatever state it meets. -/
theorem checkedKeyDown_command (command : action ≠ .nothing) :
    (s.checkedKeyDown segmentation replies k action).isEaten = true := by
  rw [checkedKeyDown, if_neg (by simp [command])]
  split
  · rfl
  rename_i ephemeral
  extract_lets disarmed
  split
  · rfl
  split
  · rfl
  rename_i undo
  -- The gate lets a command through in every mode, and the wait takes it or lets it go on.
  rw [gatedKeyDown, leaveEphemeral_command _ _ _ command, willHandleGated_command command]
  simp only [Bool.not_true, Bool.and_false, Bool.false_eq_true, if_false]
  rcases handleConversionWaitKey_settled disarmed k action with eaten | ⟨left, passed⟩
  · exact andThen_isEaten eaten
  · rw [passed, andThen_passed]
    exact dispatchKey_command command undo ephemeral

theorem onKeyDown_command (command : s.resolveActionNow k ≠ .nothing) :
    (s.onKeyDown segmentation replies k).isEaten = true := by
  have settled :
      Settled (if s.recoveryClaims k then s.handleConversionWaitKey k (s.resolveActionNow k) else .passed s) := by
    split
    · exact handleConversionWaitKey_settled _ _ _
    · exact .inr ⟨_, rfl⟩
  rw [onKeyDown]
  rcases settled with eaten | ⟨left, passed⟩
  · exact andThen_isEaten eaten
  · rw [passed, andThen_passed]
    exact checkedKeyDown_command command

/-! ### Plain keys -/

/-- Where the ephemeral mode ends, no mode takes the key. -/
theorem gate_of_abort
    (abort : ephemeralIdleAbort k.kind k.cmdModifier k.shift s.symbolOverlay s.ephemeralKana s.composing s.showing
      .nothing = true) (direct : Bool) : s.gate k direct = false := by
  simp only [ephemeralIdleAbort, Bool.and_eq_true, Bool.not_eq_true'] at abort
  obtain ⟨⟨⟨_, idle⟩, hidden⟩, ungated⟩ := abort
  cases direct with
  | true => exact gate_direct_idle idle hidden
  | false => exact ungated

theorem leaveEphemeral_stays
    (stays : ephemeralIdleAbort k.kind k.cmdModifier k.shift s.symbolOverlay s.ephemeralKana s.composing s.showing
      .nothing = false) (armed : Bool) (reply : ModeReply) :
    { s with undoArmed := armed }.leaveEphemeral reply k .nothing = { s with undoArmed := armed } :=
  if_neg (by simpa [composing] using stays)

theorem disarmOnKey_armed (s : KeySink τ) (k : KeyStroke) (action : KeyAction) :
    ∃ armed, s.disarmOnKey k action = { s with undoArmed := armed } := by
  unfold disarmOnKey
  split
  · exact ⟨_, rfl⟩
  · exact ⟨_, rfl⟩

/-- Without an exit the test changes the arming of the undo only. -/
theorem tested_stays (idle : s.resolveActionNow k = .nothing)
    (stays : ephemeralIdleAbort k.kind k.cmdModifier k.shift s.symbolOverlay s.ephemeralKana s.composing s.showing
      .nothing = false) : s.tested reply k = s.disarmOnKey k .nothing := by
  rw [tested, onTestKeyDown, idle]
  obtain ⟨armed, same⟩ := disarmOnKey_armed s k .nothing
  simp only [same]
  exact leaveEphemeral_stays stays armed reply

/-- An exit that does not happen at the test does not happen at the key down either, and where it happens
no mode takes the key. -/
theorem gate_meetsDirectMode (idle : s.resolveActionNow k = .nothing) :
    s.gate k (s.tested reply k).isDirectMode = s.gate k (s.meetsDirectMode reply replies k) := by
  cases abort : ephemeralIdleAbort k.kind k.cmdModifier k.shift s.symbolOverlay s.ephemeralKana s.composing s.showing
      .nothing with
  | true => rw [gate_of_abort abort, gate_of_abort abort]
  | false =>
    -- Both entry points stay in the mode, and only disarm the undo.
    rw [meetsDirectMode, atMode, tested_stays idle abort]
    obtain ⟨armed, same⟩ := disarmOnKey_armed s k .nothing
    rw [same]
    obtain ⟨armed', same'⟩ := disarmOnKey_armed { s with undoArmed := armed } k .nothing
    rw [same', leaveEphemeral_stays abort]
    rfl

/-- What the test says of a key that is no command. -/
theorem onTestKeyDown_idle (idle : s.resolveActionNow k = .nothing) :
    (s.onTestKeyDown reply k).2 =
      (s.claims k || !k.cmdModifier && (s.input.state.awaitingLlm || s.gate k (s.tested reply k).isDirectMode)) := by
  obtain ⟨m, same⟩ := tested_withModes s reply k
  rw [same]
  have state : (s.onTestKeyDown reply k).1 = s.withModes m := same
  simp only [onTestKeyDown, idle] at state ⊢
  rw [state]
  -- The modes have no part in the claims, and an answer awaited takes every key but a shortcut.
  have awaits : (s.withModes m).input.state.awaitingLlm = s.input.state.awaitingLlm := rfl
  simp only [willHandleAwaiting, awaits, claims_withModes, ne_eq, not_true_eq_false, if_false]
  cases cmd : k.cmdModifier with
  | true => simp
  | false =>
    cases s.input.state.awaitingLlm with
    | true => simp
    | false =>
      rw [gate, cmd]
      rfl

theorem plainKey_idle (key : s.PlainKey reply k) : s.resolveActionNow k = .nothing := by
  -- A command of the test is one of the key down too.
  by_contra command
  refine command ?_
  have plain := key.plain
  rwa [(tested_command reply command).1, resolveActionNow_disarmOnKey] at plain

theorem onTestKeyDown_plain (replies : KeyReplies) (key : s.PlainKey reply k) :
    (s.onTestKeyDown reply k).2 = (s.claims k || s.gate k (s.meetsDirectMode reply replies k)) := by
  have idle := plainKey_idle key
  rw [onTestKeyDown_idle idle, key.free, key.awake, gate_meetsDirectMode idle]
  rfl

/-- The mode after an exit is what the write of it came to. -/
theorem isDirectMode_leaveEphemeral (s : KeySink τ) (reply : ModeReply) (k : KeyStroke) (action : KeyAction) :
    (s.leaveEphemeral reply k action).isDirectMode =
      if ephemeralIdleAbort k.kind k.cmdModifier k.shift s.symbolOverlay s.ephemeralKana s.composing s.showing action
      then
        match reply with
        | .noCompartment => s.isDirectMode
        | .written => true
        | .failed liveDirect => liveDirect
      else s.isDirectMode := by
  rw [leaveEphemeral]
  split
  · rename_i abort
    have ephemeral : s.ephemeralKana = true := by
      simp only [ephemeralIdleAbort, Bool.and_eq_true] at abort
      exact abort.1.1.1
    unfold exitEphemeralToDirect
    rw [if_neg (by simp [ephemeral])]
    cases reply <;> rfl
  · rfl

/-- What a recovery leaves differs in the queue, its owner and the clauses only. -/
theorem recovered_eq (s : KeySink τ) (k : KeyStroke) :
    ∃ queue clauses other, s.recovered k =
      { s with queue := queue, clauses := clauses, queueOfOtherContext := other } := by
  unfold recovered
  split
  · exact afterWait_eq s k
  · exact ⟨_, _, _, rfl⟩

/-- The mode that is read does not depend on the wait. -/
theorem isDirectMode_recovered (s : KeySink τ) (replies : KeyReplies) (k : KeyStroke) :
    ((s.recovered k).atMode replies k).isDirectMode = (s.atMode replies k).isDirectMode := by
  -- The exit looks at the key, the composition and the candidates, none of which the wait has changed.
  obtain ⟨queue, clauses, other, same⟩ := recovered_eq s k
  rw [same, atMode, atMode, isDirectMode_leaveEphemeral, isDirectMode_leaveEphemeral]
  unfold disarmOnKey
  cases (!k.kind.isPureModifierVk && decide (KeyAction.nothing ≠ .commitUndo)) <;> rfl

theorem recovery_free (recovery : s.recoveryClaims k = true) : k.cmdModifier = false := by
  revert recovery
  unfold recoveryClaims queueRecoveryClaims
  cases k.cmdModifier <;> simp

/-- What comes of a plain key that the queue's recovery does not take. -/
theorem onKeyDown_plain (plain : s.resolveActionNow k = .nothing) (free : k.cmdModifier = false)
    (awake : s.input.state.awaitingLlm = false) (left : (s.recoveryClaims k && s.waitTakes k) = false) :
    s.onKeyDown segmentation replies k =
      if (s.atMode replies k).isDirectMode && !s.gate k true then .passed ((s.recovered k).atMode replies k)
      else ((s.recovered k).atMode replies k).behindGate segmentation replies k := by
  -- The recovery leaves what the wait leaves.
  have first : (if s.recoveryClaims k then s.handleConversionWaitKey k .nothing else .passed s) =
      .passed (s.recovered k) := by
    cases recovery : s.recoveryClaims k with
    | true =>
      have untaken : s.waitTakes k = false := by simpa [recovery] using left
      simp [handleConversionWaitKey_passes free untaken, recovered, recovery]
    | false => simp [recovered, recovery]
  obtain ⟨m, mode⟩ := atMode_withModes (s.recovered k) replies k
  obtain ⟨m', disarmed⟩ := disarmOnKey_withModes (s.recovered k) k .nothing
  obtain ⟨queue, clauses, other, same⟩ := recovered_eq s k
  have awake' : ((s.recovered k).disarmOnKey k .nothing).input.state.awaitingLlm = false := by
    rw [disarmed, same]
    exact awake
  have gate : ((s.recovered k).atMode replies k).gate k true = s.gate k true := by
    rw [mode, gate_withModes, same]
    rfl
  rw [onKeyDown, plain]
  simp only [first, andThen_passed, checkedKeyDown, free, awake', Bool.false_and, Bool.false_eq_true, if_false,
    reduceCtorEq]
  rw [gatedKeyDown, ← isDirectMode_recovered, ← gate, KeySink.gate, free]
  rfl

theorem keyDown_taken (key : s.PlainKey reply k) (recovery : s.recoveryClaims k = true)
    (takes : s.waitTakes k = true) : ((s.tested reply k).onKeyDown segmentation replies k).isEaten = true := by
  obtain ⟨m, same⟩ := tested_withModes s reply k
  rw [onKeyDown, key.plain, same, recoveryClaims_withModes, recovery, if_pos rfl]
  exact andThen_isEaten (handleConversionWaitKey_takes (s := s.withModes m) key.free takes)

theorem keyDown_plain (segmentation : Segmentation) (replies : KeyReplies) (key : s.PlainKey reply k)
    (left : (s.recoveryClaims k && s.waitTakes k) = false) :
    ∃ m, (s.tested reply k).onKeyDown segmentation replies k =
      if s.meetsDirectMode reply replies k && !s.gate k true then .passed ((s.recovered k).withModes m)
      else ((s.recovered k).withModes m).behindGate segmentation replies k := by
  -- The test and the exit at the key down change modes only.
  obtain ⟨m, same⟩ := tested_withModes s reply k
  obtain ⟨m', mode⟩ := atMode_withModes ((s.tested reply k).recovered k) replies k
  have state : ((s.tested reply k).recovered k).atMode replies k = (s.recovered k).withModes m' := by
    rw [mode, same, recovered_withModes]
    rfl
  have gate : (s.tested reply k).gate k true = s.gate k true := by
    rw [same, gate_withModes]
  refine ⟨m', ?_⟩
  rw [onKeyDown_plain key.plain key.free (by rw [same]; exact key.awake) (by simpa [same] using left), gate, state]
  rfl

/-! ### Where the entry points part -/

theorem agree_of_eaten (eaten : ((s.tested reply k).onKeyDown segmentation replies k).isEaten = true)
    (tested : (s.onTestKeyDown reply k).2 = true) : s.EntryPointsAgree segmentation reply replies k := by
  obtain ⟨handler, eats⟩ := isEaten_iff.mp eaten
  rw [KeySink.tested] at eats
  rw [EntryPointsAgree, eats]
  exact tested

theorem agree_of_passed {s' : KeySink τ} (passed : (s.tested reply k).onKeyDown segmentation replies k = .passed s')
    (tested : (s.onTestKeyDown reply k).2 = false) (unchanged : Unchanged s s') :
    s.EntryPointsAgree segmentation reply replies k := by
  rw [KeySink.tested] at passed
  rw [EntryPointsAgree, passed]
  exact ⟨tested, unchanged⟩

theorem part_of_eaten (eaten : ((s.tested reply k).onKeyDown segmentation replies k).isEaten = true)
    (tested : (s.onTestKeyDown reply k).2 = false) : ¬s.EntryPointsAgree segmentation reply replies k := by
  obtain ⟨handler, eats⟩ := isEaten_iff.mp eaten
  rw [KeySink.tested] at eats
  rw [EntryPointsAgree, eats]
  simp [tested]

theorem part_of_passed {s' : KeySink τ} (passed : (s.tested reply k).onKeyDown segmentation replies k = .passed s')
    (apart : (s.onTestKeyDown reply k).2 = true ∨ ¬Unchanged s s') :
    ¬s.EntryPointsAgree segmentation reply replies k := by
  rw [KeySink.tested] at passed
  rw [EntryPointsAgree, passed]
  rintro ⟨tested, unchanged⟩
  rcases apart with claimed | changed
  · exact absurd (claimed.symm.trans tested) (by decide)
  · exact changed unchanged

theorem part_of_panicked (panicked : (s.tested reply k).onKeyDown segmentation replies k = .panicked) :
    ¬s.EntryPointsAgree segmentation reply replies k := by
  rw [tested] at panicked
  rw [EntryPointsAgree, panicked]
  exact not_false

theorem agree_of_rejected (rejected : (s.tested reply k).onKeyDown segmentation replies k = .insertionRejected) :
    s.EntryPointsAgree segmentation reply replies k := by
  rw [tested] at rejected
  rw [EntryPointsAgree, rejected]
  trivial

theorem gate_of_taken {direct : Bool} (taken : s.gate k direct = true) : s.gate k false = true := by
  cases direct with
  | true => exact gate_of_direct taken
  | false => exact taken

/-- A key that the gate takes in its mode comes behind it. -/
theorem keyDown_gated (segmentation : Segmentation) (key : s.PlainKey reply k)
    (taken : s.gate k (s.meetsDirectMode reply replies k) = true)
    (left : (s.recoveryClaims k && s.waitTakes k) = false) :
    ∃ m, (s.tested reply k).onKeyDown segmentation replies k =
      ((s.recovered k).withModes m).behindGate segmentation replies k := by
  obtain ⟨m, down⟩ := keyDown_plain segmentation replies key left
  refine ⟨m, ?_⟩
  -- What the gate takes in the direct mode, the direct mode does not keep out.
  rw [down, if_neg]
  rw [Bool.and_eq_true, Bool.not_eq_true']
  rintro ⟨direct, out⟩
  rw [direct, out] at taken
  cases taken

/-- A key that kana do not take comes behind the gate as it is, or with a wait ended by the recovery. -/
theorem keyDown_ungated (segmentation : Segmentation) (key : s.UngatedKey reply replies k)
    (left : (s.recoveryClaims k && s.waitTakes k) = false) :
    ∃ m, (s.tested reply k).onKeyDown segmentation replies k =
      ((s.recovered k).withModes m).behindGate segmentation replies k := by
  obtain ⟨m, down⟩ := keyDown_plain segmentation replies key.toPlainKey left
  refine ⟨m, ?_⟩
  rw [down, key.native]
  rfl

theorem onTestKeyDown_ungated (key : s.UngatedKey reply replies k) : (s.onTestKeyDown reply k).2 = s.claims k := by
  rw [onTestKeyDown_plain replies key.toPlainKey, key.native, key.ungated, Bool.or_false]

theorem gate_recovered (s : KeySink τ) (k : KeyStroke) (direct : Bool) :
    (s.recovered k).gate k direct = s.gate k direct := by
  obtain ⟨queue, clauses, other, same⟩ := recovered_eq s k
  rw [same]
  rfl

theorem strays_recovered (s : KeySink τ) (k : KeyStroke) : (s.recovered k).strays k = s.strays k := by
  obtain ⟨queue, clauses, other, same⟩ := recovered_eq s k
  rw [same]
  rfl

theorem enterPanics_recovered (s : KeySink τ) (k : KeyStroke) :
    (s.recovered k).enterPanics segmentation = s.enterPanics segmentation := by
  obtain ⟨queue, clauses, other, same⟩ := recovered_eq s k
  rw [same]
  rfl

theorem clausesTake_recovered (s : KeySink τ) (k : KeyStroke) : (s.recovered k).clausesTake k = s.clausesTake k := by
  unfold recovered
  split
  · exact clausesTake_afterWait s k
  · rfl

theorem waitTakes_recovered (recovery : s.recoveryClaims k = true) (left : s.waitTakes k = false) :
    (s.recovered k).waitTakes k =
      (s.endsLoading k && (s.explicitSnapshotPending || s.localClauseRedrawPending)) := by
  rw [recovered, if_pos recovery]
  exact waitTakes_afterWait left

/-- The recovery changes nothing in what Enter meets. -/
theorem reachesVk_enter (enter : k.kind = .enter) (left : s.waitTakes k = false) (m : KeyModes) :
    ((s.recovered k).withModes m).reachesVk k = s.reachesVk k := by
  have stays : s.endsLoading k = false := by simp [endsLoading, enter]
  rw [reachesVk_withModes, reachesVk, reachesVk, clausesTake_recovered, left]
  cases recovery : s.recoveryClaims k with
  | true => rw [waitTakes_recovered recovery left, stays, Bool.false_and]
  | false => rw [recovered, recovery, if_neg (by decide), left]

theorem waitTakes_unheld (unheld : s.holdsEveryKey = false) (idle : (s.hasMeaning k && !s.endsLoading k) = false) :
    s.waitTakes k = false := by
  rw [waitTakes, unheld, Bool.false_or, Bool.and_assoc, idle, Bool.and_false]

theorem unheld_of_waitTakes (left : s.waitTakes k = false) : s.holdsEveryKey = false := by
  rw [waitTakes, Bool.or_eq_false_iff] at left
  exact left.1

/-- What the wait does not take although it means something ends the wait. -/
theorem endsLoading_of_waitTakes (left : s.waitTakes k = false) (underWay : s.underWay = true)
    (meaning : s.hasMeaning k = true) : s.endsLoading k = true := by
  simpa [waitTakes, unheld_of_waitTakes left, underWay, meaning] using left

/-- A recovery of a queue that holds no key is one of a Commit that failed. -/
theorem underWay_of_recovery (recovery : s.recoveryClaims k = true) (unheld : s.holdsEveryKey = false) :
    s.underWay = true := by
  -- A lost owner or a barrier would hold every key.
  simp only [holdsEveryKey, Bool.or_eq_false_iff] at unheld
  obtain ⟨⟨⟨unlost, unbarred⟩, _⟩, _⟩ := unheld
  rw [underWay]
  revert recovery
  unfold recoveryClaims queueRecoveryClaims
  cases s.queue.commitFailed <;> simp [unlost, unbarred]

/-- The keys that end the wait are all the clauses' where one converts. -/
theorem unconverted_of_endsLoading (ends : s.endsLoading k = true) (unclaused : s.clausesTake k = false) :
    s.localConverting = false := by
  rw [endsLoading, Bool.and_eq_true] at ends
  replace ends := ends.2
  rw [clausesTake, Bool.or_eq_false_iff] at unclaused
  replace unclaused := unclaused.2
  unfold isLocalClauseKey at unclaused
  cases kind : k.kind <;> simp_all

theorem unconverted_of_clauseKey (clauseKey : k.kind.isClauseKey = true) (unclaused : s.clausesTake k = false) :
    s.localConverting = false := by
  rw [clausesTake, Bool.or_eq_false_iff] at unclaused
  replace unclaused := unclaused.2
  unfold isLocalClauseKey at unclaused
  unfold KeyKind.isClauseKey at clauseKey
  cases kind : k.kind <;> simp_all

theorem alwaysMeans_of_clauseKey {kind : KeyKind} (clauseKey : kind.isClauseKey = true) : alwaysMeans kind = true := by
  revert clauseKey
  cases kind <;> decide

theorem underWay_of_endsLoading (ends : s.endsLoading k = true) : s.underWay = true := by
  rw [endsLoading, Bool.and_eq_true] at ends
  simp [underWay, ends.1]

theorem endsLoading_meaningless (meaningless : s.hasMeaning k = false) : s.endsLoading k = false := by
  by_contra ends
  obtain ⟨operation, means⟩ := operation_of_endsLoading (Bool.eq_true_of_not_eq_false ends)
  simp [hasMeaning, means] at meaningless

/-- A key that kana do not take and that means nothing is none of the clauses' and does not stray. -/
theorem reachesVk_meaningless (ungated : s.gate k false = false) (free : k.cmdModifier = false)
    (meaningless : s.hasMeaning k = false) :
    s.clausesTake k = false ∧ s.strays k = false := by
  -- The clauses' keys and the keys that stray always mean something.
  have never : alwaysMeans k.kind = false := by
    by_contra means
    rw [hasMeaning_of_alwaysMeans (Bool.eq_true_of_not_eq_false means)] at meaningless
    cases meaningless
  revert never ungated
  unfold alwaysMeans clausesTake isLocalClauseKey strays gate willHandleGated willHandle
  cases k.kind <;> simp [free, KeyKind.isMainRowDigitVk, KeyKind.isDigitVk]
  -- A digit that kana do not take is held with Shift.
  intro _ shifted _ unshifted
  have contradictory := shifted (.inl (.inl unshifted))
  simp [unshifted] at contradictory

/-- A window that has closed was not loading. -/
theorem not_unchanged_loadingEnded (ends : s.endsLoading k = true) (m : KeyModes) :
    ¬Unchanged s ((s.withModes m).afterWait k).resetNotationCycle := by
  rw [afterWait_withModes, afterWait, if_pos ends]
  -- The clauses would have to be as before, with a window that loads.
  rintro ⟨_, same, _⟩
  have loading : s.localClauseLoading = true := by
    rw [endsLoading, Bool.and_eq_true] at ends
    exact ends.1
  rw [localClauseLoading, ← same] at loading
  have closed : (s.loadingEnded.withModes m).resetNotationCycle.clauses =
      s.clauses.map fun model => model.closeWindow.resetNotationCycle := Option.map_map _ _ _
  rw [closed, Option.any_map] at loading
  cases model : s.clauses with
  | none => simp [model] at loading
  | some model' =>
    rw [model] at loading
    exact Bool.noConfusion loading

theorem not_unchanged_cycling (cycling : (s.clauses.any fun m => m.notationCycle.isSome) = true) (m : KeyModes) :
    ¬Unchanged s ((s.withModes m).afterWait k).resetNotationCycle := by
  -- The clauses would have to be as before, with a turn of the notations that is reset.
  rintro ⟨_, same, _⟩
  rw [← same, resetNotationCycle, Option.any_map] at cycling
  cases clauses : ((s.withModes m).afterWait k).clauses with
  | none => simp [clauses] at cycling
  | some model =>
    rw [clauses] at cycling
    exact Bool.noConfusion cycling

theorem unchanged_afterWait (stays : s.endsLoading k = false)
    (uncycled : (s.clauses.any fun m => m.notationCycle.isSome) = false) (m : KeyModes) :
    Unchanged s ((s.withModes m).afterWait k).resetNotationCycle := by
  have clauses : s.clauses.map (·.resetNotationCycle) = s.clauses := by
    cases model : s.clauses with
    | none => rfl
    | some model' =>
      have uncycled' : model'.notationCycle = none := by simpa [model] using uncycled
      rw [Option.map_some, ClauseConversion.resetNotationCycle, ← uncycled']
  -- Where no wait ends, the queue is at most bound to the key's context.
  rw [afterWait_withModes, afterWait, if_neg (by simp [stays])]
  split
  · exact ⟨rfl, clauses, rfl⟩
  · exact ⟨rfl, clauses, rfl⟩

/-- A key that nobody claims is eaten, or it passes with what is left of the wait. -/
theorem keyDown_unclaimed (segmentation : Segmentation) (key : s.UngatedKey reply replies k)
    (unclaimed : s.claims k = false) :
    ((s.tested reply k).onKeyDown segmentation replies k).isEaten = true ∧
        (!s.reachesVk k || s.strays k) = true ∨
      (!s.reachesVk k || s.strays k) = false ∧
        ∃ m, (s.tested reply k).onKeyDown segmentation replies k =
          .passed ((s.withModes m).afterWait k).resetNotationCycle := by
  have unrecovered : s.recoveryClaims k = false := by
    rw [claims, Bool.or_eq_false_iff] at unclaimed
    exact unclaimed.1
  obtain ⟨m, down⟩ := keyDown_ungated segmentation key (by rw [unrecovered, Bool.false_and])
  have same : s.recovered k = s := by simp [recovered, unrecovered]
  rw [same] at down
  rw [down]
  cases reaches : s.reachesVk k with
  | false => exact .inl ⟨behindGate_taken (s := s.withModes m) key.free reaches, rfl⟩
  | true =>
    cases strays : s.strays k with
    | true => exact .inl ⟨behindGate_strays (s := s.withModes m) key.free strays, rfl⟩
    | false =>
      refine .inr ⟨rfl, m, ?_⟩
      exact behindGate_passes (s := s.withModes m) segmentation replies key.free reaches key.ungated strays

/-- The keys that end the wait are the clauses' own where one converts, and only arrows among them stray. -/
theorem endsLoading_kind (ends : s.endsLoading k = true) (unconverted : s.localConverting = false) :
    s.clausesTake k = false ∧
      (s.explicitSnapshotPending = false ∨ k.kind = .home ∨ k.kind = .toEnd → s.strays k = false) := by
  rw [endsLoading, Bool.and_eq_true] at ends
  replace ends := ends.2
  unfold clausesTake strays
  rw [unconverted]
  cases kind : k.kind <;> simp_all

/-- In each of the cases the entry points part. -/
theorem parted (part : s.EntryPointsPart segmentation reply replies k) :
    ¬s.EntryPointsAgree segmentation reply replies k := by
  cases part with
  | reentered idle command unclaimed awake =>
    refine part_of_eaten (onKeyDown_command command) ?_
    -- A key that became a command changed the mode.
    have abort : ephemeralIdleAbort k.kind k.cmdModifier k.shift s.symbolOverlay s.ephemeralKana s.composing s.showing
        .nothing = true := by
      by_contra stays
      rw [tested_stays idle (Bool.eq_false_of_not_eq_true stays), ← idle, resolveActionNow_disarmOnKey] at command
      exact command rfl
    rw [onTestKeyDown_idle idle, unclaimed, gate_of_abort abort]
    rcases awake with cmd | awake
    · simp [cmd]
    · simp [awake]
  | keptOut key direct left claimed untaken =>
    -- The direct mode lets the key go.
    obtain ⟨m, down⟩ := keyDown_plain segmentation replies key untaken
    rw [direct, left, Bool.not_false, Bool.and_true, if_pos rfl] at down
    refine part_of_passed down (.inl ?_)
    rw [onTestKeyDown_plain replies key, claimed, Bool.true_or]
  | enterPanics key enter taken reaches panics =>
    have untaken : s.waitTakes k = false := by
      rw [reachesVk, Bool.and_eq_true, Bool.not_eq_true'] at reaches
      exact reaches.1
    obtain ⟨m, down⟩ := keyDown_gated segmentation key taken (by rw [untaken, Bool.and_false])
    refine part_of_panicked ?_
    rw [down]
    rcases behindGate_enter (s := (s.recovered k).withModes m) segmentation replies
      (by simpa [gate_recovered] using gate_of_taken taken) enter with ⟨panicked, _⟩ | ⟨_, fine⟩
    · exact panicked
    · simp [reachesVk_enter enter untaken, reaches, enterPanics_recovered, panics] at fine
  | meaningless key recovery unheld meaningless =>
    -- Nothing on the way knows the key.
    have untaken := waitTakes_unheld (k := k) unheld (by rw [meaningless, Bool.false_and])
    obtain ⟨m, down⟩ := keyDown_ungated segmentation key (by rw [untaken, Bool.and_false])
    obtain ⟨unclaused, straight⟩ := reachesVk_meaningless key.ungated key.free meaningless
    have passed := behindGate_passes (s := (s.recovered k).withModes m) segmentation replies key.free
      (by simp [reachesVk, waitTakes_recovered recovery untaken, endsLoading_meaningless meaningless,
        clausesTake_recovered, unclaused])
      (by simp [gate_recovered, key.ungated]) (by simp [strays_recovered, straight])
    refine part_of_passed (down.trans passed) (.inl ?_)
    rw [onTestKeyDown_ungated key, claims, recovery, Bool.true_or]
  | recoveryDropped key recovery unheld ends unconverted unawaited =>
    -- The recovery ends the wait, and nothing is left to take the key.
    have untaken := waitTakes_unheld (k := k) unheld (by rw [ends, Bool.not_true, Bool.and_false])
    obtain ⟨m, down⟩ := keyDown_ungated segmentation key (by rw [untaken, Bool.and_false])
    obtain ⟨unclaused, straight⟩ := endsLoading_kind ends unconverted
    have unpending : s.explicitSnapshotPending = false := (Bool.or_eq_false_iff.mp unawaited).1
    have passed := behindGate_passes (s := (s.recovered k).withModes m) segmentation replies key.free
      (by simp [reachesVk, waitTakes_recovered recovery untaken, unawaited, clausesTake_recovered, unclaused])
      (by simp [gate_recovered, key.ungated]) (by simp [strays_recovered, straight (.inl unpending)])
    refine part_of_passed (down.trans passed) (.inl ?_)
    rw [onTestKeyDown_ungated key, claims, recovery, Bool.true_or]
  | pendingDropped key unrecovered pending unconverted unheld ends home =>
    -- The wait ends with the key, which the snapshot awaited does not hold.
    have untaken := waitTakes_unheld (k := k) unheld (by rw [ends, Bool.not_true, Bool.and_false])
    obtain ⟨m, down⟩ := keyDown_ungated segmentation key (by rw [untaken, Bool.and_false])
    obtain ⟨unclaused, straight⟩ := endsLoading_kind ends unconverted
    have same : s.recovered k = s := by simp [recovered, unrecovered]
    rw [same] at down
    have passed := behindGate_passes (s := s.withModes m) segmentation replies key.free
      (by simp [reachesVk, untaken, unclaused]) key.ungated (straight (.inr home))
    refine part_of_passed (down.trans passed) (.inl ?_)
    rw [onTestKeyDown_ungated key, claims, pending, key.free]
    rcases home with home | toEnd
    · simp [home, KeyKind.isClauseKey]
    · simp [toEnd, KeyKind.isClauseKey]
  | waited key unclaimed wait =>
    rcases keyDown_unclaimed segmentation key unclaimed with ⟨eaten, _⟩ | ⟨reaches, m, passed⟩
    · exact part_of_eaten eaten (by rw [onTestKeyDown_ungated key, unclaimed])
    · refine part_of_passed passed (.inr (not_unchanged_loadingEnded ?_ m))
      -- What the wait does not take although it has a meaning ends it.
      simp only [reachesVk, waitTakes, Bool.or_eq_false_iff, Bool.not_eq_false', Bool.and_eq_true] at reaches
      by_contra stays
      simp_all
  | clauses key unclaimed takes =>
    rcases keyDown_unclaimed segmentation key unclaimed with ⟨eaten, _⟩ | ⟨reaches, m, passed⟩
    · exact part_of_eaten eaten (by rw [onTestKeyDown_ungated key, unclaimed])
    · have taken : s.clausesTake k = true := by
        unfold clausesTake isLocalClauseKey
        rcases takes with ⟨mixed, enter⟩ | ⟨converting, enter | escape | back⟩ <;> simp_all
      simp [reachesVk, taken] at reaches
  | reconverting key unclaimed escape reconverting =>
    rcases keyDown_unclaimed segmentation key unclaimed with ⟨eaten, _⟩ | ⟨reaches, m, passed⟩
    · exact part_of_eaten eaten (by rw [onTestKeyDown_ungated key, unclaimed])
    · simp [strays, escape, reconverting] at reaches
  | notationCycle key unclaimed cycling =>
    rcases keyDown_unclaimed segmentation key unclaimed with ⟨eaten, _⟩ | ⟨reaches, m, passed⟩
    · exact part_of_eaten eaten (by rw [onTestKeyDown_ungated key, unclaimed])
    · exact part_of_passed passed (.inr (not_unchanged_cycling cycling m))

/-- A shortcut passes both entry points. -/
theorem agree_shortcut (plain : (s.tested reply k).resolveActionNow k = .nothing)
    (idle : s.resolveActionNow k = .nothing) (cmd : k.cmdModifier = true) :
    s.EntryPointsAgree segmentation reply replies k := by
  obtain ⟨m, same⟩ := tested_withModes s reply k
  have unrecovered : s.recoveryClaims k = false := by
    by_contra recovery
    have free := recovery_free (Bool.eq_true_of_not_eq_false recovery)
    exact absurd (cmd.symm.trans free) (by decide)
  have passed : (s.tested reply k).onKeyDown segmentation replies k = .passed (s.tested reply k) := by
    rw [onKeyDown, plain, same, recoveryClaims_withModes, unrecovered]
    simp [checkedKeyDown, cmd]
  refine agree_of_passed passed ?_ ?_
  · simp [onTestKeyDown_idle idle, claims, unrecovered, cmd]
  · rw [same]
    exact ⟨rfl, rfl, rfl⟩

/-- While an answer is awaited, every key but a shortcut is eaten. -/
theorem agree_awaiting (plain : (s.tested reply k).resolveActionNow k = .nothing)
    (idle : s.resolveActionNow k = .nothing) (free : k.cmdModifier = false)
    (awaits : s.input.state.awaitingLlm = true) :
    s.EntryPointsAgree segmentation reply replies k := by
  refine agree_of_eaten ?_ (by simp [onTestKeyDown_idle idle, free, awaits])
  -- The answer awaited takes the key whether or not the recovery has looked at it.
  have eaten (s' : KeySink τ) (awaits : s'.input.state.awaitingLlm = true) :
      (s'.checkedKeyDown segmentation replies k .nothing).isEaten = true := by
    obtain ⟨armed, disarmed⟩ := disarmOnKey_armed s' k .nothing
    simp [checkedKeyDown, free, disarmed, awaits]
  obtain ⟨m, same⟩ := tested_withModes s reply k
  rw [onKeyDown, plain, same, recoveryClaims_withModes]
  cases s.recoveryClaims k with
  | false => exact eaten _ awaits
  | true =>
    rw [if_pos rfl]
    cases takes : s.waitTakes k with
    | true => exact andThen_isEaten (handleConversionWaitKey_takes (s := s.withModes m) free takes)
    | false =>
      rw [handleConversionWaitKey_passes (s := s.withModes m) free takes, andThen_passed]
      refine eaten _ ?_
      obtain ⟨queue, clauses, other, after⟩ := afterWait_eq (s.withModes m) k
      rw [after]
      exact awaits

/-- A key that the gate takes in its mode is eaten. -/
theorem agree_gated (whole : ¬s.EntryPointsPart segmentation reply replies k) (key : s.PlainKey reply k)
    (taken : s.gate k (s.meetsDirectMode reply replies k) = true)
    (left : (s.recoveryClaims k && s.waitTakes k) = false) : s.EntryPointsAgree segmentation reply replies k := by
  have tested : (s.onTestKeyDown reply k).2 = true := by
    rw [onTestKeyDown_plain replies key, taken, Bool.or_true]
  obtain ⟨m, down⟩ := keyDown_gated segmentation key taken left
  have gated : ((s.recovered k).withModes m).gate k false = true := by
    simpa [gate_recovered] using gate_of_taken taken
  by_cases enter : k.kind = .enter
  · -- Enter is eaten, or it is the case that panics.
    rcases behindGate_enter segmentation replies gated enter with
      ⟨_, panics⟩ | ⟨eaten, _⟩
    · refine absurd ?_ whole
      rw [Bool.and_eq_true, enterPanics_withModes, enterPanics_recovered] at panics
      obtain ⟨reaches, panics⟩ := panics
      have untaken : s.waitTakes k = false := by
        cases recovery : s.recoveryClaims k with
        | true => simpa [recovery] using left
        | false =>
          simp only [recovered, recovery, reachesVk, Bool.and_eq_true, Bool.not_eq_true'] at reaches
          exact reaches.1
      rw [reachesVk_enter enter untaken] at reaches
      exact .enterPanics key enter taken reaches panics
    · exact agree_of_eaten (down ▸ eaten) tested
  · rcases behindGate_gated segmentation replies gated enter with eaten | rejected
    · exact agree_of_eaten (down ▸ eaten) tested
    · exact agree_of_rejected (down.trans rejected)

/-- A key that the direct mode keeps out passes, and the test does not claim it. -/
theorem agree_keptOut (whole : ¬s.EntryPointsPart segmentation reply replies k) (key : s.PlainKey reply k)
    (direct : s.meetsDirectMode reply replies k = true) (out : s.gate k true = false)
    (left : (s.recoveryClaims k && s.waitTakes k) = false) : s.EntryPointsAgree segmentation reply replies k := by
  have unclaimed : s.claims k = false := by
    by_contra claimed
    exact whole (.keptOut key direct out (Bool.eq_true_of_not_eq_false claimed) left)
  have unrecovered : s.recoveryClaims k = false := by
    rw [claims, Bool.or_eq_false_iff] at unclaimed
    exact unclaimed.1
  obtain ⟨m, down⟩ := keyDown_plain segmentation replies key left
  rw [direct, out, Bool.not_false, Bool.and_true, if_pos rfl] at down
  refine agree_of_passed down ?_ ?_
  · rw [onTestKeyDown_plain replies key, unclaimed, direct, out, Bool.or_false]
  · rw [recovered, unrecovered]
    exact ⟨rfl, rfl, rfl⟩

/-- A key that kana do not take but that the test claims is eaten. -/
theorem agree_claimed (whole : ¬s.EntryPointsPart segmentation reply replies k) (key : s.UngatedKey reply replies k)
    (claimed : s.claims k = true) (left : (s.recoveryClaims k && s.waitTakes k) = false) :
    s.EntryPointsAgree segmentation reply replies k := by
  obtain ⟨m, down⟩ := keyDown_ungated segmentation key left
  refine agree_of_eaten ?_ (by rw [onTestKeyDown_ungated key, claimed])
  rw [down]
  cases reaches : ((s.recovered k).withModes m).reachesVk k with
  | false => exact behindGate_taken key.free reaches
  | true =>
  cases strays : s.strays k with
  | true => exact behindGate_strays key.free (by rw [strays_withModes, strays_recovered, strays])
  | false =>
  -- A key that gets through to here is one of the cases.
  refine absurd ?_ whole
  simp only [reachesVk, waitTakes_withModes, clausesTake_withModes, clausesTake_recovered, Bool.and_eq_true,
    Bool.not_eq_true'] at reaches
  obtain ⟨untaken', unclaused⟩ := reaches
  cases recovery : s.recoveryClaims k with
  | true =>
    have untaken : s.waitTakes k = false := by simpa [recovery] using left
    have unheld : s.holdsEveryKey = false := unheld_of_waitTakes untaken
    rw [waitTakes_recovered recovery untaken] at untaken'
    cases meaning : s.hasMeaning k with
    | false => exact .meaningless key recovery unheld meaning
    | true =>
      have ends := endsLoading_of_waitTakes untaken (underWay_of_recovery recovery unheld) meaning
      rw [ends, Bool.true_and] at untaken'
      exact .recoveryDropped key recovery unheld ends (unconverted_of_endsLoading ends unclaused) untaken'
  | false =>
    have untaken : s.waitTakes k = false := by simpa [recovered, recovery] using untaken'
    have unheld : s.holdsEveryKey = false := unheld_of_waitTakes untaken
    simp only [claims, recovery, Bool.false_or, Bool.and_eq_true] at claimed
    obtain ⟨⟨pends, _⟩, clauseKey⟩ := claimed
    have unconverted : s.localConverting = false := unconverted_of_clauseKey clauseKey unclaused
    have pending : s.explicitSnapshotPending = true := by simpa [unconverted] using pends
    have ends := endsLoading_of_waitTakes untaken (by simp [underWay, pending])
      (hasMeaning_of_alwaysMeans (alwaysMeans_of_clauseKey clauseKey))
    -- The arrows stray where a snapshot is awaited, and the other keys wait for the candidates.
    have home : k.kind = .home ∨ k.kind = .toEnd := by
      rw [endsLoading, Bool.and_eq_true] at ends
      replace ends := ends.2
      unfold KeySink.strays at strays
      unfold KeyKind.isClauseKey at clauseKey
      cases kind : k.kind <;> simp_all
    exact .pendingDropped key recovery pending unconverted unheld ends home

/-- Among the keys that the test leaves, the clauses take three. -/
theorem clausesTake_unclaimed (key : s.UngatedKey reply replies k) (unclaimed : s.claims k = false)
    (taken : s.clausesTake k = true) :
    s.mixedEditing = true ∧ k.kind = .enter ∨
      s.localConverting = true ∧ (k.kind = .enter ∨ k.kind = .escape ∨ k.kind = .back) := by
  have free := key.free
  have ungated := key.ungated
  rw [claims, Bool.or_eq_false_iff] at unclaimed
  replace unclaimed := unclaimed.2
  revert taken unclaimed ungated
  unfold clausesTake isLocalClauseKey gate willHandleGated willHandle KeyKind.isClauseKey
  cases k.kind <;> simp +contextual [free, KeyKind.isMainRowDigitVk, KeyKind.isDigitVk]

theorem strays_unclaimed (key : s.UngatedKey reply replies k) (unclaimed : s.claims k = false)
    (strays : s.strays k = true) : k.kind = .escape ∧ s.reconverting = true := by
  have free := key.free
  rw [claims, Bool.or_eq_false_iff] at unclaimed
  replace unclaimed := unclaimed.2
  revert strays unclaimed
  unfold KeySink.strays KeyKind.isClauseKey
  cases k.kind <;> simp +contextual [free]

/-- A key that neither kana nor the test takes passes with nothing changed. -/
theorem agree_unclaimed (whole : ¬s.EntryPointsPart segmentation reply replies k) (key : s.UngatedKey reply replies k)
    (unclaimed : s.claims k = false) : s.EntryPointsAgree segmentation reply replies k := by
  have tested : (s.onTestKeyDown reply k).2 = false := by rw [onTestKeyDown_ungated key, unclaimed]
  have unwaited : (s.holdsEveryKey || s.underWay && s.hasMeaning k) = false := by
    by_contra wait
    exact whole (.waited key unclaimed (Bool.eq_true_of_not_eq_false wait))
  have untaken : s.waitTakes k = false := by
    rw [Bool.or_eq_false_iff] at unwaited
    simp [waitTakes, unwaited.1, unwaited.2]
  rcases keyDown_unclaimed segmentation key unclaimed with ⟨_, taken⟩ | ⟨reaches, m, passed⟩
  · refine absurd ?_ whole
    simp only [reachesVk, untaken, Bool.not_false, Bool.true_and, Bool.not_not, Bool.or_eq_true] at taken
    rcases taken with clauses | strays
    · exact .clauses key unclaimed (clausesTake_unclaimed key unclaimed clauses)
    · obtain ⟨escape, reconverting⟩ := strays_unclaimed key unclaimed strays
      exact .reconverting key unclaimed escape reconverting
  · refine agree_of_passed passed tested ?_
    have stays : s.endsLoading k = false := by
      by_contra ends
      have ends := Bool.eq_true_of_not_eq_false ends
      obtain ⟨operation, means⟩ := operation_of_endsLoading ends
      simp [underWay_of_endsLoading ends, hasMeaning, means] at unwaited
    have uncycled : (s.clauses.any fun m => m.notationCycle.isSome) = false := by
      by_contra cycling
      exact whole (.notationCycle key unclaimed (Bool.eq_true_of_not_eq_false cycling))
    exact unchanged_afterWait stays uncycled m

theorem agree_of_not_parted (whole : ¬s.EntryPointsPart segmentation reply replies k) :
    s.EntryPointsAgree segmentation reply replies k := by
  by_cases idle : s.resolveActionNow k = .nothing
  swap
  · -- A command stays the same from the test to the key down.
    obtain ⟨state, tested⟩ := tested_command reply idle
    refine agree_of_eaten (onKeyDown_command ?_) tested
    rwa [state, resolveActionNow_disarmOnKey]
  by_cases plain : (s.tested reply k).resolveActionNow k = .nothing
  swap
  · -- A command that only the test's exit makes is the one that enters anew.
    refine agree_of_eaten (onKeyDown_command plain) ?_
    rw [onTestKeyDown_idle idle]
    by_contra left
    simp only [Bool.or_eq_true, not_or, Bool.not_eq_true, Bool.and_eq_false_iff, Bool.not_eq_false',
      Bool.or_eq_false_iff] at left
    exact whole (.reentered idle plain left.1 (left.2.imp_right And.left))
  cases cmd : k.cmdModifier with
  | true => exact agree_shortcut plain idle cmd
  | false =>
    cases awaits : s.input.state.awaitingLlm with
    | true => exact agree_awaiting plain idle cmd awaits
    | false =>
      have key : s.PlainKey reply k := ⟨plain, cmd, awaits⟩
      cases left : (s.recoveryClaims k && s.waitTakes k) with
      | true =>
        rw [Bool.and_eq_true] at left
        refine agree_of_eaten (keyDown_taken key left.1 left.2) ?_
        rw [onTestKeyDown_plain replies key, claims, left.1, Bool.true_or, Bool.true_or]
      | false =>
        cases taken : s.gate k (s.meetsDirectMode reply replies k) with
        | true => exact agree_gated whole key taken left
        | false =>
        cases direct : s.meetsDirectMode reply replies k with
        | true => exact agree_keptOut whole key direct (direct ▸ taken) left
        | false =>
        have ungated : s.UngatedKey reply replies k := ⟨key, direct, direct ▸ taken⟩
        cases claimed : s.claims k with
        | true => exact agree_claimed whole ungated claimed left
        | false => exact agree_unclaimed whole ungated claimed

/-- The two entry points agree on a key exactly outside of the cases that are listed. -/
theorem entryPointsAgree_iff (segmentation : Segmentation) (s : KeySink τ) (reply : ModeReply) (replies : KeyReplies)
    (k : KeyStroke) :
    s.EntryPointsAgree segmentation reply replies k ↔ ¬s.EntryPointsPart segmentation reply replies k :=
  ⟨fun agree part => parted part agree, agree_of_not_parted⟩

/-- The ephemeral mode before anything is typed, under the chords of the settings' defaults. -/
def ephemeralIdle : KeySink Unit where
  input := .initial
  clauses := none
  queue := .default
  queueOfOtherContext := false
  showing := false
  reconverting := false
  clauseNav := false
  explicitSnapshotPending := false
  localClauseRedrawPending := false
  ephemeralKana := true
  directModeOwned := true
  langbarIsDirect := false
  liveIsDirect := false
  undoArmed := false
  ephemeralEnabled := true
  typoEnabled := true
  llmEnabled := false
  shiftLatinCompose := true
  symbolOverlay := false
  punctuationFullWidth := true
  symbolChars := fun _ => true
  keymap :=
    { modeToggle := .default
      reconvert := .default
      feedback := .default
      ephemeral := some ⟨0x77, false, false, false⟩
      commitUndo := some ⟨0x08, true, false, false⟩
      typo := some ⟨0x09, false, false, false⟩
      llm := some ⟨0x09, false, true, false⟩
      notations := fun
        | .hiragana => some ⟨0x75, false, false, false⟩
        | .katakana => some ⟨0x76, false, false, false⟩
        | .hankakuKana => some ⟨0x77, false, false, false⟩
        | .zenkakuEisu => some ⟨0x78, false, false, false⟩
        | .hankakuEisu => some ⟨0x79, false, false, false⟩
      notationRotate := some ⟨0x1D, false, false, false⟩
      convert := [⟨0x20, false, false, false⟩, ⟨0x1C, false, false, false⟩] }

/-- F8 alone, the trigger of the ephemeral mode. -/
def ephemeralTrigger : KeyStroke := ⟨0x77, false, false, false, none, false⟩

/-- The test lets the trigger go and ends the ephemeral mode, and the key down then eats it and enters anew. -/
theorem ephemeralTrigger_reentered :
    (ephemeralIdle.onTestKeyDown .written ephemeralTrigger).2 = false ∧
      (ephemeralIdle.tested .written ephemeralTrigger).onKeyDown .scalars ⟨.written, true, true⟩ ephemeralTrigger =
        .eaten .enterEphemeralKana ∧
      ¬ephemeralIdle.EntryPointsAgree .scalars .written ⟨.written, true, true⟩ ephemeralTrigger := by
  refine ⟨by decide, rfl, ?_⟩
  exact part_of_eaten rfl (by decide)

end KeySink

end Nospacekey
