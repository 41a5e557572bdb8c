import Nospacekey.Input.KeyWaits

/-! The gate of the test and the keys that are dealt with behind it. -/

namespace Nospacekey

namespace KeySink

open KeyOutcome

variable {τ : Type} {segmentation : Segmentation} {s : KeySink τ} {replies : KeyReplies} {k : KeyStroke}
  {action : KeyAction}

/-- The gate for a key that is no command. -/
def gate (s : KeySink τ) (k : KeyStroke) (direct : Bool) : Bool :=
  willHandleGated k.kind s.composing s.showing k.cmdModifier direct k.shift s.symbolOverlay .nothing

/-- The keys of the clauses under conversion. -/
def isLocalClauseKey (s : KeySink τ) (k : KeyStroke) : Bool :=
  match k.kind with
  | .left | .right | .up | .down | .home | .toEnd | .escape | .back | .enter | .delete => true
  | .digit => !k.shift && s.clauses.any fun m => !m.window.isClosed
  | _ => false

/-- The clauses under conversion or under edit take the key. -/
def clausesTake (s : KeySink τ) (k : KeyStroke) : Bool :=
  s.mixedEditing && k.kind = .enter || s.localConverting && s.isLocalClauseKey k

/-- Enter finds nothing to commit, although the module is taken to have something. -/
def enterPanics (segmentation : Segmentation) (s : KeySink τ) : Bool :=
  !(s.showing && (s.clauseNav || s.moduleCandidateCommit)) && !s.moduleLocalCommit segmentation

/-- The keys that are looked at where the gate does not take them. -/
def strays (s : KeySink τ) (k : KeyStroke) : Bool :=
  match k.kind with
  | .escape => s.reconverting
  | .left | .right => s.explicitSnapshotPending
  | _ => false

theorem composing_of_latinMode (latin : s.latinMode = true) : s.composing = true := by
  rw [latinMode, InputState.latinMode, Bool.and_eq_true] at latin
  exact latin.1

theorem willHandleGated_command (command : action ≠ .nothing) (kind : KeyKind)
    (composing showing cmdModifier direct shift symbolOverlay : Bool) :
    willHandleGated kind composing showing cmdModifier direct shift symbolOverlay action = true := by
  rw [willHandleGated, if_pos command]

/-- Where there is no input, the direct mode takes no key. -/
theorem gate_direct_idle (idle : s.composing = false) (hidden : s.showing = false) : s.gate k true = false := by
  unfold gate willHandleGated willHandle
  rw [idle, hidden]
  cases k.kind <;> simp

/-- The key is eaten where it is taken, and otherwise passes with nothing changed. -/
def Takes (o : KeyOutcome (KeySink τ)) (s : KeySink τ) (takes : Bool) : Prop :=
  if takes then o.isEaten = true else o = .passed s

theorem digitKey_takes (s : KeySink τ) (k : KeyStroke) :
    Takes (s.digitKey k) s (!k.shift || s.symbolOverlay || s.composing) := by
  -- The latin mode is a part of the composition.
  have latin := composing_of_latinMode (s := s)
  unfold digitKey inputKey Takes
  cases k.shift <;> cases s.showing <;> cases s.symbolOverlay <;> cases composing : s.composing <;>
    cases latinMode : s.latinMode <;> cases s.clauseNav <;> simp_all

theorem escapeKey_takes (s : KeySink τ) :
    Takes s.escapeKey s (s.reconverting || s.showing || s.composing) := by
  unfold escapeKey Takes
  cases s.reconverting <;> cases s.showing <;> cases s.composing <;> simp

theorem backspaceKey_takes (s : KeySink τ) : Takes s.backspaceKey s (s.composing || s.showing) := by
  unfold backspaceKey backspaceRoute Takes
  cases s.composing <;> cases s.showing <;> cases s.reconverting <;> simp

theorem textKey_takes (s : KeySink τ) (k : KeyStroke) :
    Takes (s.textKey k) s
      (s.composing || isSymbolKeystroke k.kind k.shift s.symbolOverlay || k.kind.isDigitVk && !k.shift) := by
  unfold textKey inputKey Takes
  cases s.composing <;> cases isSymbolKeystroke k.kind k.shift s.symbolOverlay <;> cases k.kind.isDigitVk <;>
    cases k.shift <;> cases s.latinMode <;> simp

theorem horizontalKey_takes (s : KeySink τ) (k : KeyStroke) :
    Takes (s.horizontalKey k) s (s.explicitSnapshotPending || s.showing || s.composing) := by
  unfold horizontalKey Takes
  cases s.explicitSnapshotPending <;> cases s.showing <;> cases s.composing <;> cases s.reconverting <;> simp

/-- Enter with input is eaten, unless it finds nothing to commit. -/
theorem enterKey_eq (input : (s.composing || s.showing) = true) :
    s.enterKey segmentation = .panicked ∧ s.enterPanics segmentation = true ∨
      (s.enterKey segmentation).isEaten = true ∧ s.enterPanics segmentation = false := by
  have typed : (!s.composing && !s.showing) = false := by simpa [← Bool.not_or] using input
  unfold enterPanics enterKey
  rw [typed]
  cases s.showing <;> cases s.clauseNav <;> cases s.moduleCandidateCommit <;>
    cases s.moduleLocalCommit segmentation <;> simp

theorem letterKey_taken (s : KeySink τ) (replies : KeyReplies) (k : KeyStroke) :
    (s.letterKey replies k).isEaten = true ∨ s.letterKey replies k = .insertionRejected := by
  unfold letterKey
  split
  · unfold commitCharDirect
    repeat' split
    all_goals simp
  · exact .inl rfl
  · exact .inl rfl

/-- The keys that are dealt with behind the gate are those that it takes, and the ones that stray. -/
def vkTakes (s : KeySink τ) (k : KeyStroke) : Bool := s.gate k false || s.strays k

theorem dispatchVk_takes (segmentation : Segmentation) (s : KeySink τ) (replies : KeyReplies)
    (free : k.cmdModifier = false) (letter : k.kind ≠ .letter) (enter : k.kind ≠ .enter) :
    Takes (s.dispatchVk segmentation replies k) s (s.vkTakes k) := by
  have digit := digitKey_takes s k
  have text := textKey_takes s k
  have horizontal := horizontalKey_takes s k
  unfold vkTakes gate strays willHandleGated willHandle dispatchVk
  cases kind : k.kind
  case letter => exact absurd kind letter
  case enter => exact absurd kind enter
  case digit =>
    convert digit using 1
    cases k.shift <;> cases s.showing <;> cases s.symbolOverlay <;> cases s.composing <;>
      simp [free, KeyKind.isMainRowDigitVk, KeyKind.isDigitVk]
  case escape =>
    convert escapeKey_takes s using 1
    cases s.showing <;> cases s.composing <;> cases s.reconverting <;>
      simp [free, KeyKind.isMainRowDigitVk, KeyKind.isDigitVk]
  case back =>
    convert backspaceKey_takes s using 1
    simp [free, KeyKind.isMainRowDigitVk, KeyKind.isDigitVk]
  case zero | padDigit | padOperator | oemSymbol =>
    rw [kind] at text
    convert text using 1
    cases k.shift <;> cases s.symbolOverlay <;> cases s.composing <;>
      simp [free, KeyKind.isMainRowDigitVk, KeyKind.isDigitVk, isSymbolKeystroke, KeyKind.isOemSymbolVk]
  case left | right =>
    convert horizontal using 1
    cases s.showing <;> cases s.composing <;> cases s.explicitSnapshotPending <;>
      simp [free, KeyKind.isMainRowDigitVk, KeyKind.isDigitVk]
  all_goals
    cases s.showing <;> cases s.composing <;>
      simp [free, KeyKind.isMainRowDigitVk, KeyKind.isDigitVk, Takes]

/-- What the direct mode takes, kana take as well. -/
theorem gate_of_direct (direct : s.gate k true = true) : s.gate k false = true := by
  revert direct
  unfold gate willHandleGated willHandle
  cases k.kind <;> cases k.shift <;> cases s.showing <;> cases s.composing <;>
    simp +contextual [KeyKind.isMainRowDigitVk, KeyKind.isDigitVk]

theorem gate_free {direct : Bool} (taken : s.gate k direct = true) : k.cmdModifier = false := by
  revert taken
  unfold gate willHandleGated willHandle
  cases k.cmdModifier <;> simp

/-- What the gate takes is eaten, but for an insertion that the document refuses and for Enter. -/
theorem dispatchVk_gated (taken : s.gate k false = true) (enter : k.kind ≠ .enter) :
    (s.dispatchVk segmentation replies k).isEaten = true ∨
      s.dispatchVk segmentation replies k = .insertionRejected := by
  by_cases letter : k.kind = .letter
  · rw [dispatchVk, letter]
    exact letterKey_taken s replies k
  · have takes := dispatchVk_takes segmentation s replies (gate_free taken) letter enter
    rw [vkTakes, taken] at takes
    exact .inl takes

/-- What neither the gate takes nor strays passes with nothing changed. -/
theorem dispatchVk_ungated (free : k.cmdModifier = false) (left : s.gate k false = false)
    (strays : s.strays k = false) : s.dispatchVk segmentation replies k = .passed s := by
  by_cases letter : k.kind = .letter
  · exfalso
    unfold gate willHandleGated willHandle at left
    simp [letter, free, KeyKind.isMainRowDigitVk, KeyKind.isDigitVk] at left
  by_cases enter : k.kind = .enter
  · rw [dispatchVk, enter]
    unfold gate willHandleGated willHandle at left
    simp [enter, free, KeyKind.isMainRowDigitVk, KeyKind.isDigitVk] at left
    simp [enterKey, left]
  · have takes := dispatchVk_takes segmentation s replies free letter enter
    rw [vkTakes, left, strays] at takes
    exact takes

theorem dispatchVk_strays (free : k.cmdModifier = false) (strays : s.strays k = true) :
    (s.dispatchVk segmentation replies k).isEaten = true := by
  have letter : k.kind ≠ .letter := fun kind => by simp [KeySink.strays, kind] at strays
  have enter : k.kind ≠ .enter := fun kind => by simp [KeySink.strays, kind] at strays
  have takes := dispatchVk_takes segmentation s replies free letter enter
  rw [vkTakes, strays, Bool.or_true] at takes
  exact takes

theorem localClauseKey_takes (s : KeySink τ) (k : KeyStroke) :
    Takes (s.localClauseKey k) s (s.isLocalClauseKey k) := by
  unfold localClauseKey isLocalClauseKey Takes
  cases k.kind <;> simp
  split <;> simp_all

theorem localConverting_resetNotationCycle (s : KeySink τ) :
    s.resetNotationCycle.localConverting = s.localConverting := by
  simp only [localConverting, resetNotationCycle, Option.any_map]
  rfl

theorem isLocalClauseKey_resetNotationCycle (s : KeySink τ) (k : KeyStroke) :
    s.resetNotationCycle.isLocalClauseKey k = s.isLocalClauseKey k := by
  simp only [isLocalClauseKey, resetNotationCycle, Option.any_map]
  rfl

/-- The clauses come before all other keys. -/
theorem dispatchKey_clauses (free : k.cmdModifier = false) (taken : s.clausesTake k = true) :
    (s.dispatchKey segmentation replies k .nothing).isEaten = true := by
  have takes := localClauseKey_takes s.resetNotationCycle k
  rw [isLocalClauseKey_resetNotationCycle] at takes
  simp only [dispatchKey, free, localConverting_resetNotationCycle]
  simp only [clausesTake, Bool.or_eq_true, Bool.and_eq_true, decide_eq_true_eq] at taken
  rcases taken with ⟨mixed, enter⟩ | ⟨converting, key⟩
  · simp [mixed, enter]
  · rw [key] at takes
    simp only [converting, Bool.not_false, Bool.and_true]
    split
    · simp_all
    split
    · rfl
    · exact andThen_isEaten takes

theorem dispatchKey_rest (free : k.cmdModifier = false) (left : s.clausesTake k = false) :
    s.dispatchKey segmentation replies k .nothing = s.resetNotationCycle.dispatchVk segmentation replies k := by
  have takes := localClauseKey_takes s.resetNotationCycle k
  rw [isLocalClauseKey_resetNotationCycle] at takes
  simp only [clausesTake, Bool.or_eq_false_iff] at left
  obtain ⟨edited, converted⟩ := left
  simp only [dispatchKey, free, localConverting_resetNotationCycle, edited]
  cases converting : s.localConverting with
  | false => simp [dispatchAction]
  | true =>
    have key : s.isLocalClauseKey k = false := by simpa [converting] using converted
    rw [key] at takes
    have passes : s.resetNotationCycle.localClauseKey k = .passed s.resetNotationCycle := takes
    simp [passes, dispatchAction]

/-- A command that has come to the clauses is eaten. -/
theorem dispatchKey_command (command : action ≠ .nothing) (undo : action ≠ .commitUndo)
    (ephemeral : action ≠ .ephemeral) : (s.dispatchKey segmentation replies k action).isEaten = true := by
  have commanded (s : KeySink τ) : (s.dispatchAction k action).isEaten = true := by
    unfold dispatchAction
    cases action <;> simp_all
  unfold dispatchKey
  split
  · rfl
  split
  · rfl
  extract_lets left
  split
  · rfl
  split
  · have takes := localClauseKey_takes left k
    unfold Takes at takes
    split at takes
    · exact andThen_isEaten takes
    · rw [takes, andThen_passed]
      exact andThen_isEaten (commanded left)
  · rw [andThen_passed]
    exact andThen_isEaten (commanded left)

/-! ### Behind the mode gate -/

/-- The keys that end the wait are no others to the clauses after it. -/
theorem clausesTake_afterWait (s : KeySink τ) (k : KeyStroke) : (s.afterWait k).clausesTake k = s.clausesTake k := by
  unfold afterWait
  cases ends : s.endsLoading k with
  | false => cases s.underWay <;> rfl
  | true =>
    rw [endsLoading, Bool.and_eq_true] at ends
    have mixed : s.loadingEnded.mixedEditing = s.mixedEditing := by
      simp only [mixedEditing, loadingEnded, closeWindow, Option.any_map]
      rfl
    have converting : s.loadingEnded.localConverting = s.localConverting := by
      simp only [localConverting, loadingEnded, closeWindow, Option.any_map]
      rfl
    rw [if_pos rfl, clausesTake, clausesTake, mixed, converting]
    cases kind : k.kind <;> simp_all [isLocalClauseKey]

theorem gate_afterWait (s : KeySink τ) (k : KeyStroke) (direct : Bool) :
    (s.afterWait k).gate k direct = s.gate k direct := by
  obtain ⟨queue, clauses, other, same⟩ := afterWait_eq s k
  rw [same]
  rfl

theorem strays_afterWait (s : KeySink τ) (k : KeyStroke) : (s.afterWait k).strays k = s.strays k := by
  obtain ⟨queue, clauses, other, same⟩ := afterWait_eq s k
  rw [same]
  rfl

theorem enterPanics_afterWait (s : KeySink τ) (k : KeyStroke) :
    (s.afterWait k).enterPanics segmentation = s.enterPanics segmentation := by
  obtain ⟨queue, clauses, other, same⟩ := afterWait_eq s k
  rw [same]
  rfl

/-- What comes of a key that is no command and that the direct mode does not keep out. -/
def behindGate (segmentation : Segmentation) (s : KeySink τ) (replies : KeyReplies) (k : KeyStroke) :
    KeyOutcome (KeySink τ) :=
  (s.handleConversionWaitKey k .nothing).andThen fun s => s.dispatchKey segmentation replies k .nothing

theorem behindGate_waits (free : k.cmdModifier = false) (takes : s.waitTakes k = true) :
    (s.behindGate segmentation replies k).isEaten = true :=
  andThen_isEaten (handleConversionWaitKey_takes free takes)

theorem behindGate_clauses (free : k.cmdModifier = false) (taken : s.clausesTake k = true) :
    (s.behindGate segmentation replies k).isEaten = true := by
  cases takes : s.waitTakes k with
  | true => exact behindGate_waits free takes
  | false =>
    rw [behindGate, handleConversionWaitKey_passes free takes, andThen_passed]
    exact dispatchKey_clauses free ((clausesTake_afterWait s k).trans taken)

/-- Neither the wait nor the clauses take the key. -/
def reachesVk (s : KeySink τ) (k : KeyStroke) : Bool := !s.waitTakes k && !s.clausesTake k

theorem behindGate_reaches (free : k.cmdModifier = false) (reaches : s.reachesVk k = true) :
    s.behindGate segmentation replies k =
      (s.afterWait k).resetNotationCycle.dispatchVk segmentation replies k := by
  rw [reachesVk, Bool.and_eq_true, Bool.not_eq_true', Bool.not_eq_true'] at reaches
  rw [behindGate, handleConversionWaitKey_passes free reaches.1, andThen_passed]
  exact dispatchKey_rest free ((clausesTake_afterWait s k).trans reaches.2)

theorem behindGate_taken (free : k.cmdModifier = false) (stays : s.reachesVk k = false) :
    (s.behindGate segmentation replies k).isEaten = true := by
  cases takes : s.waitTakes k with
  | true => exact behindGate_waits free takes
  | false => exact behindGate_clauses free (by simpa [reachesVk, takes] using stays)

/-- The gate keeps its promise, but for an insertion that the document refuses and for Enter. -/
theorem behindGate_gated (segmentation : Segmentation) (replies : KeyReplies) (taken : s.gate k false = true)
    (enter : k.kind ≠ .enter) :
    (s.behindGate segmentation replies k).isEaten = true ∨
      s.behindGate segmentation replies k = .insertionRejected := by
  have free := gate_free taken
  cases reaches : s.reachesVk k with
  | false => exact .inl (behindGate_taken free reaches)
  | true =>
    rw [behindGate_reaches free reaches]
    exact dispatchVk_gated (s := (s.afterWait k).resetNotationCycle) ((gate_afterWait s k false).trans taken) enter

theorem behindGate_enter (segmentation : Segmentation) (replies : KeyReplies) (taken : s.gate k false = true)
    (enter : k.kind = .enter) :
    s.behindGate segmentation replies k = .panicked ∧ (s.reachesVk k && s.enterPanics segmentation) = true ∨
      (s.behindGate segmentation replies k).isEaten = true ∧
        (s.reachesVk k && s.enterPanics segmentation) = false := by
  have free := gate_free taken
  cases reaches : s.reachesVk k with
  | false => exact .inr ⟨behindGate_taken free reaches, rfl⟩
  | true =>
    rw [behindGate_reaches free reaches, dispatchVk, enter, ← enterPanics_afterWait s k, Bool.true_and]
    rw [← gate_afterWait s k] at taken
    -- The gate takes Enter where there is input.
    have input : ((s.afterWait k).composing || (s.afterWait k).showing) = true := by
      unfold gate willHandleGated willHandle at taken
      simpa [enter, free, KeyKind.isMainRowDigitVk, KeyKind.isDigitVk] using taken
    exact enterKey_eq (s := (s.afterWait k).resetNotationCycle) input

theorem behindGate_strays (free : k.cmdModifier = false) (strays : s.strays k = true) :
    (s.behindGate segmentation replies k).isEaten = true := by
  cases reaches : s.reachesVk k with
  | false => exact behindGate_taken free reaches
  | true =>
    rw [behindGate_reaches free reaches]
    exact dispatchVk_strays (s := (s.afterWait k).resetNotationCycle) free ((strays_afterWait s k).trans strays)

/-- A key that nothing takes passes, and a wait for candidates that it ended is gone. -/
theorem behindGate_passes (segmentation : Segmentation) (replies : KeyReplies) (free : k.cmdModifier = false)
    (reaches : s.reachesVk k = true) (left : s.gate k false = false) (strays : s.strays k = false) :
    s.behindGate segmentation replies k = .passed (s.afterWait k).resetNotationCycle := by
  rw [behindGate_reaches free reaches]
  exact dispatchVk_ungated (s := (s.afterWait k).resetNotationCycle) free ((gate_afterWait s k false).trans left)
    ((strays_afterWait s k).trans strays)

end KeySink

end Nospacekey
