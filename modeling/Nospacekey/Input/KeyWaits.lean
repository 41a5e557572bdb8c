import Nospacekey.Input.KeyDown

/-! What a conversion that is under way does with a key that is no command. -/

namespace Nospacekey

namespace KeyOutcome

variable {σ : Type}

@[simp] theorem andThen_eaten (handler : KeyHandler) (next : σ → KeyOutcome σ) :
    (eaten handler).andThen next = eaten handler := rfl

@[simp] theorem andThen_passed (s : σ) (next : σ → KeyOutcome σ) : (passed s).andThen next = next s := rfl

@[simp] theorem isEaten_eaten (handler : KeyHandler) : (eaten handler : KeyOutcome σ).isEaten = true := rfl

@[simp] theorem isEaten_passed (s : σ) : (passed s).isEaten = false := rfl

theorem isEaten_iff {o : KeyOutcome σ} : o.isEaten = true ↔ ∃ handler, o = eaten handler := by
  cases o <;> simp [isEaten]

/-- Where the first part eats the key, so does the whole. -/
theorem andThen_isEaten {o : KeyOutcome σ} {next : σ → KeyOutcome σ} (eats : o.isEaten = true) :
    (o.andThen next).isEaten = true := by
  obtain ⟨handler, rfl⟩ := isEaten_iff.mp eats
  rfl

end KeyOutcome

namespace KeySink

open KeyOutcome

variable {τ : Type}

/-- Every key is eaten: the queue lost its owner or is about to, or a Commit in it stands before the key. -/
def holdsEveryKey (s : KeySink τ) : Bool :=
  s.queue.ownerLost || s.queue.hasCommit || s.localConverting && s.queue.front.any (·.isInsert)
    || s.underWay && s.conversionQueueContextChanged

/-- The keys that do away with a wait for candidates and are looked at again after it. -/
def endsLoading (s : KeySink τ) (k : KeyStroke) : Bool :=
  s.localClauseLoading &&
    match k.kind with
    | .back => true
    | .left | .right => s.mixedEditing || !s.boundaryLoading
    | .home | .toEnd => s.mixedEditing
    | _ => false

def hasMeaning (s : KeySink τ) (k : KeyStroke) : Bool := s.plainMeaning k ≠ .nothing

/-- A conversion under way takes the key. -/
def waitTakes (s : KeySink τ) (k : KeyStroke) : Bool :=
  s.holdsEveryKey || s.underWay && s.hasMeaning k && !s.endsLoading k

/-- What is left of the wait for candidates that a key did away with. -/
def loadingEnded (s : KeySink τ) : KeySink τ := s.bindConversionQueueContext.clearConversionQueue.closeWindow

section

variable {s : KeySink τ} {k : KeyStroke} {action : KeyAction}

/-- The keys that mean something even without a character. -/
def alwaysMeans (kind : KeyKind) : Bool :=
  match kind with
  | .left | .right | .up | .down | .home | .toEnd | .enter | .escape | .back | .delete | .letter => true
  | _ => false

theorem hasMeaning_of_alwaysMeans (means : alwaysMeans k.kind = true) : s.hasMeaning k = true := by
  unfold hasMeaning plainMeaning
  cases kind : k.kind <;> simp only [kind, alwaysMeans, Bool.false_eq_true] at means ⊢
  case left | right =>
    split
    · simp
    · split <;> simp
  case up | down => split <;> simp
  all_goals simp

/-- The keys that end the wait stand for an operation, whatever the queue holds. -/
theorem operation_of_endsLoading (ends : s.endsLoading k = true) :
    ∃ operation, s.plainMeaning k = .operation operation := by
  rw [endsLoading, Bool.and_eq_true] at ends
  replace ends := ends.2
  unfold plainMeaning
  cases kind : k.kind <;> simp only [kind, Bool.false_eq_true] at ends ⊢
  -- The arrows choose among three operations.
  case left | right =>
    split
    · exact ⟨_, rfl⟩
    · split <;> exact ⟨_, rfl⟩
  all_goals exact ⟨_, rfl⟩

theorem waitMeaning_nothing (free : k.cmdModifier = false) : s.waitMeaning k .nothing = s.plainMeaning k := by
  simp [waitMeaning, free]

/-- Behind a barrier each operation waits, and so does a key without any. -/
theorem takeMeaning_barrier (barrier : s.queue.hasCommit = true) (meaning : WaitMeaning) :
    (s.takeMeaning meaning).isEaten = true := by
  have waits (operation : ConversionAction) : candidateWaitDisposition operation s.queue.hasCommit = .defer := by
    simp [candidateWaitDisposition, barrier]
  cases meaning with
  | nothing => simp [takeMeaning, barrier]
  | ignored => rfl
  | operation operation =>
    rw [takeMeaning]
    split
    · simp [whileLoading, waits]
    · rfl

theorem meetConversion_barrier (barrier : s.queue.hasCommit = true) (action : KeyAction) :
    (s.meetConversion k action).isEaten = true := by
  have underWay : s.underWay = true := by simp [KeySink.underWay, barrier]
  rw [meetConversion, if_neg (by simp [underWay])]
  split
  · rfl
  · exact takeMeaning_barrier (s := s.bindConversionQueueContext) barrier _

theorem prependCommitForInsert_hasCommit {q queue : ConversionQueue}
    (prepended : q.prependCommitForInsert = (queue, true)) : queue.hasCommit = true := by
  -- The Commit is put at the head, and nothing else changes.
  unfold ConversionQueue.prependCommitForInsert at prepended
  split at prepended
  · cases prepended
  · cases prepended
    rfl

/-- A queue that holds every key eats whatever command it stands for. -/
theorem handleConversionWaitKey_holds (holds : s.holdsEveryKey = true) (action : KeyAction) :
    (s.handleConversionWaitKey k action).isEaten = true := by
  unfold handleConversionWaitKey
  split
  · rfl
  rename_i lost
  split
  · split
    · rfl
    · rename_i prepended
      exact meetConversion_barrier (prependCommitForInsert_hasCommit prepended) action
  rename_i insertion
  simp only [holdsEveryKey, lost, insertion, Bool.false_or, Bool.or_false] at holds
  rcases (Bool.or_eq_true _ _).mp holds with barrier | changed
  · exact meetConversion_barrier barrier action
  · rw [Bool.and_eq_true] at changed
    rw [meetConversion, if_neg (by simp [changed.1]), if_pos changed.2]
    rfl

/-- Where no key is held, the handler comes to the meaning of the key. -/
theorem handleConversionWaitKey_open (holds : s.holdsEveryKey = false) (action : KeyAction) :
    s.handleConversionWaitKey k action =
      if s.underWay then s.bindConversionQueueContext.takeMeaning (s.bindConversionQueueContext.waitMeaning k action)
      else .passed s := by
  simp only [holdsEveryKey, Bool.or_eq_false_iff] at holds
  obtain ⟨⟨⟨lost, _⟩, insertion⟩, changed⟩ := holds
  rw [handleConversionWaitKey, if_neg (by simp [lost]), if_neg (by simp [insertion]), meetConversion]
  cases underWay : s.underWay <;> simp_all

/-- An operation that waits for no candidates, as neither a list nor a barrier is what it needs. -/
def goesAtOnce (s : KeySink τ) (operation : ConversionAction) : Bool :=
  !(s.boundaryLoading && isClauseMove operation) && candidateWaitDisposition operation false = .immediate

theorem whileLoading_eq (unbarred : s.queue.hasCommit = false) (operation : ConversionAction) :
    s.whileLoading operation =
      if s.goesAtOnce operation then .passed s.clearConversionQueue.closeWindow else .eaten .conversionQueue := by
  unfold whileLoading goesAtOnce
  rw [unbarred]
  cases s.boundaryLoading <;> cases operation <;> simp [candidateWaitDisposition, isClauseMove]

/-- A character is inserted behind a Commit. -/
theorem queuedChar_goes (operation : ConversionAction) (means : s.queuedChar k = .operation operation) :
    s.goesAtOnce operation = false := by
  unfold queuedChar queuedNonalpha at means
  split at means
  · split at means <;> cases means <;> simp [goesAtOnce, candidateWaitDisposition]
  · cases means

theorem queuedAlpha_goes (s : KeySink τ) (k : KeyStroke) : s.goesAtOnce (s.queuedAlpha k) = false := by
  unfold queuedAlpha
  split <;> simp [goesAtOnce, candidateWaitDisposition]

/-- The keys whose operation goes at once are those that end the wait. -/
theorem plainMeaning_goes (loading : s.localClauseLoading = true) (operation : ConversionAction)
    (means : s.plainMeaning k = .operation operation) : s.goesAtOnce operation = s.endsLoading k := by
  unfold plainMeaning at means
  unfold endsLoading
  rw [loading]
  cases kind : k.kind <;> simp only [kind] at means ⊢
  case letter =>
    cases means
    exact queuedAlpha_goes s k
  case digit =>
    split at means
    · cases means
    · exact queuedChar_goes _ means
  case left | right =>
    -- Only the movements over clauses can wait, and only for a boundary.
    repeat' split at means
    all_goals cases means
    all_goals simp_all [goesAtOnce, candidateWaitDisposition, isClauseMove]
  case up | down =>
    split at means <;> cases means
    simp [goesAtOnce, candidateWaitDisposition]
  case home | toEnd =>
    cases means
    cases s.mixedEditing <;> simp [goesAtOnce, candidateWaitDisposition, isClauseMove]
  case enter | escape | back | delete =>
    cases means
    simp [goesAtOnce, candidateWaitDisposition, isClauseMove]
  all_goals exact queuedChar_goes _ means

/-- An operation that cannot wait for the candidates ends the wait, and the others join the queue. -/
theorem takeMeaning_plain (unbarred : s.queue.hasCommit = false) :
    s.takeMeaning (s.plainMeaning k) =
      if s.endsLoading k then .passed s.clearConversionQueue.closeWindow
      else if s.hasMeaning k then .eaten .conversionQueue
      else .passed s := by
  unfold hasMeaning
  cases meaning : s.plainMeaning k with
  | operation operation =>
    cases loading : s.localClauseLoading with
    | false => simp [takeMeaning, loading, endsLoading]
    | true => simp [takeMeaning, loading, whileLoading_eq unbarred, plainMeaning_goes loading _ meaning]
  | nothing | ignored =>
    have stays : s.endsLoading k = false := by
      by_contra ends
      obtain ⟨operation, means⟩ := operation_of_endsLoading (Bool.eq_true_of_not_eq_false ends)
      exact absurd (meaning.symm.trans means) WaitMeaning.noConfusion
    simp [takeMeaning, unbarred, stays]

/-- What becomes of a key that is no command where no key is held. -/
theorem handleConversionWaitKey_plain (holds : s.holdsEveryKey = false) (free : k.cmdModifier = false) :
    s.handleConversionWaitKey k .nothing =
      if s.endsLoading k then .passed s.loadingEnded
      else if s.underWay && s.hasMeaning k then .eaten .conversionQueue
      else .passed (if s.underWay then s.bindConversionQueueContext else s) := by
  have unbarred : s.queue.hasCommit = false := by
    simp only [holdsEveryKey, Bool.or_eq_false_iff] at holds
    exact holds.1.1.2
  have idle (still : s.underWay = false) : s.endsLoading k = false := by
    simp only [underWay, Bool.or_eq_false_iff] at still
    simp [endsLoading, still.1.1.1.2]
  rw [handleConversionWaitKey_open holds, waitMeaning_nothing free]
  cases underWay : s.underWay with
  | true =>
    simp only [if_true, Bool.true_and]
    exact takeMeaning_plain (s := s.bindConversionQueueContext) unbarred
  | false => simp [idle underWay]

/-- What is left of the wait by a key that it does not take. -/
def afterWait (s : KeySink τ) (k : KeyStroke) : KeySink τ :=
  if s.endsLoading k then s.loadingEnded else if s.underWay then s.bindConversionQueueContext else s

theorem handleConversionWaitKey_takes (free : k.cmdModifier = false) (takes : s.waitTakes k = true) :
    (s.handleConversionWaitKey k .nothing).isEaten = true := by
  cases holds : s.holdsEveryKey with
  | true => exact handleConversionWaitKey_holds holds _
  | false =>
    simp only [waitTakes, holds, Bool.false_or, Bool.and_eq_true, Bool.not_eq_true'] at takes
    rw [handleConversionWaitKey_plain holds free, if_neg (by simp [takes.2]), if_pos (by simp [takes.1])]
    rfl

theorem handleConversionWaitKey_passes (free : k.cmdModifier = false) (left : s.waitTakes k = false) :
    s.handleConversionWaitKey k .nothing = .passed (s.afterWait k) := by
  simp only [waitTakes, Bool.or_eq_false_iff] at left
  rw [handleConversionWaitKey_plain left.1 free, afterWait]
  cases ends : s.endsLoading k with
  | true => simp
  | false =>
    have meaningless : (s.underWay && s.hasMeaning k) = false := by simpa [ends] using left.2
    simp [meaningless]

/-- Nothing but the queue, its owner and the window of the clauses changes. -/
theorem afterWait_eq (s : KeySink τ) (k : KeyStroke) :
    ∃ queue clauses other, s.afterWait k =
      { s with queue := queue, clauses := clauses, queueOfOtherContext := other } := by
  unfold afterWait
  repeat' split
  all_goals exact ⟨_, _, _, rfl⟩

/-- The wait that a key has ended takes it where the explicit snapshot or a redrawing is still awaited. -/
theorem waitTakes_afterWait (left : s.waitTakes k = false) :
    (s.afterWait k).waitTakes k = (s.endsLoading k && (s.explicitSnapshotPending || s.localClauseRedrawPending)) := by
  unfold afterWait
  cases ends : s.endsLoading k with
  | true =>
    have meaning : s.loadingEnded.hasMeaning k = true := by
      rw [endsLoading, Bool.and_eq_true] at ends
      refine hasMeaning_of_alwaysMeans ?_
      revert ends
      unfold alwaysMeans
      cases k.kind <;> simp
    have loaded : s.loadingEnded.localClauseLoading = false := by
      simp only [localClauseLoading, loadingEnded, closeWindow, Option.any_map]
      cases s.bindConversionQueueContext.clearConversionQueue.clauses <;> rfl
    have empty : s.loadingEnded.queue = .default := rfl
    have pending : s.loadingEnded.explicitSnapshotPending = s.explicitSnapshotPending := rfl
    have redraw : s.loadingEnded.localClauseRedrawPending = s.localClauseRedrawPending := rfl
    simp [waitTakes, holdsEveryKey, underWay, conversionQueueContextChanged, endsLoading, loaded, meaning, empty,
      pending, redraw, ConversionQueue.default, ConversionQueue.front, ConversionQueue.hasCommit]
  | false =>
    cases underWay : s.underWay with
    | false => simpa using left
    | true =>
      -- Bound to the context of the key, the queue has still less to hold it for.
      have meaningless : s.hasMeaning k = false := by
        simp only [waitTakes, underWay, ends, Bool.or_eq_false_iff] at left
        simpa using left.2
      have holds : s.bindConversionQueueContext.holdsEveryKey = false := by
        simp only [waitTakes, holdsEveryKey, Bool.or_eq_false_iff] at left
        have unowned : s.bindConversionQueueContext.conversionQueueContextChanged = false := by
          simp [conversionQueueContextChanged, bindConversionQueueContext]
        rw [holdsEveryKey, unowned, Bool.and_false, Bool.or_false]
        simp only [Bool.or_eq_false_iff]
        exact left.1.1
      have bound : s.bindConversionQueueContext.hasMeaning k = false := meaningless
      simp [waitTakes, holds, bound]

/-- A key is taken, or goes on to what follows. -/
def Settled (o : KeyOutcome (KeySink τ)) : Prop := o.isEaten = true ∨ ∃ s, o = .passed s

theorem takeMeaning_settled (s : KeySink τ) (meaning : WaitMeaning) : Settled (s.takeMeaning meaning) := by
  cases meaning with
  | nothing =>
    rw [takeMeaning]
    split
    · exact .inl rfl
    · exact .inr ⟨_, rfl⟩
  | ignored => exact .inl rfl
  | operation operation =>
    rw [takeMeaning]
    split
    · cases barrier : s.queue.hasCommit with
      | true =>
        refine .inl ?_
        simp [whileLoading, candidateWaitDisposition, barrier]
      | false =>
        rw [whileLoading_eq barrier]
        split
        · exact .inr ⟨_, rfl⟩
        · exact .inl rfl
    · exact .inl rfl

theorem handleConversionWaitKey_settled (s : KeySink τ) (k : KeyStroke) (action : KeyAction) :
    Settled (s.handleConversionWaitKey k action) := by
  cases holds : s.holdsEveryKey with
  | true => exact .inl (handleConversionWaitKey_holds holds action)
  | false =>
    rw [handleConversionWaitKey_open holds]
    split
    · exact takeMeaning_settled _ _
    · exact .inr ⟨_, rfl⟩

end

end KeySink

end Nospacekey
