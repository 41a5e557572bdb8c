import Nospacekey.Composer.Replay
import Nospacekey.Input.Freshness

/-! The typed keys and the composer's segments replay the same reading. -/

namespace Nospacekey

open Utf8 Runs LocalKanaComposer

namespace InputModule

variable {m : InputModule} {segmentation : Segmentation}

/-- The typed keys, the latin start, the composing flag and the composer describe one composition. -/
structure InStep (m : InputModule) : Prop where
  composed : m.localKana.Composed
  idle : m.state.composing = false →
    m.state.raw = [] ∧ m.localKana.reading = [] ∧ m.state.latinFrom = none
  keys : m.replayFromCanonical = false →
    m.state.latinFrom = none ∧ Alike (empty.pushAll (styledText m.state.raw .kana)) m.localKana
  latin : ∀ start, m.state.latinFrom = some start → IsCharBoundary m.state.raw start

/-- The module without any composition is in step. -/
theorem initial_inStep : initial.InStep where
  composed := empty_composed
  idle _ := ⟨rfl, rfl, rfl⟩
  keys _ := ⟨rfl, rfl, rfl, rfl⟩
  latin _ start := by cases start

/-- A reset starts over from an empty composition. -/
theorem reset_inStep (m : InputModule) : m.reset.InStep where
  composed := empty_composed
  idle _ := ⟨rfl, rfl, rfl⟩
  keys _ := ⟨rfl, rfl, rfl, rfl⟩
  latin _ start := by cases start

/-- A composition without a reading holds nothing that later keys could meet. -/
theorem alike_empty_of_reading {c : LocalKanaComposer} (composed : c.Composed) (noReading : c.reading = []) :
    Alike empty c := by
  have parts := composed.reading.symm.trans noReading
  rw [List.append_eq_nil_iff, List.append_eq_nil_iff] at parts
  exact ⟨parts.1.1.symm, parts.1.2.symm, parts.2.symm⟩

/-- The direct text at the end of a composition starts at a character of its reading. -/
theorem isCharBoundary_directEnd {c : LocalKanaComposer} (composed : c.Composed) {segment : ReplaySegment}
    (last : segment ∈ c.replaySegments.getLast?) :
    IsCharBoundary c.reading (byteLength c.reading - byteLength segment.text) := by
  -- The segments spell the reading, and the last one is its end.
  obtain ⟨front, spelled⟩ := List.getLast?_eq_some_iff.mp last
  have reading : c.reading = (styled front).map Prod.fst ++ segment.text := by
    have texts := congrArg (List.map Prod.fst) (styled_replaySegments c)
    rw [spelled] at texts
    simp only [styled_append, styled_cons, styled_nil, List.map_append, List.append_nil, map_fst_styledText,
      composed.stable, composed.suffix] at texts
    rw [composed.reading, ← texts]
  refine ⟨(styled front).map Prod.fst, segment.text, reading, ?_⟩
  rw [reading, byteLength_append]
  omega

/-- After an edit the typed keys are the reading, so the views are in step again. -/
theorem reanchorAfterSurfaceEdit_inStep (composed : m.localKana.Composed) (keepLatinMode : Bool) :
    (m.reanchorAfterSurfaceEdit keepLatinMode).InStep where
  composed := composed
  idle stopped := by
    have noReading : m.localKana.reading = [] := by
      simpa [reanchorAfterSurfaceEdit] using stopped
    refine ⟨noReading, noReading, ?_⟩
    simp [reanchorAfterSurfaceEdit, noReading]
  keys fromKeys := by cases fromKeys
  latin start found := by
    simp only [reanchorAfterSurfaceEdit] at found ⊢
    split at found
    · cases found
    · split at found
      · -- Latin mode restarts at the direct end, or behind the whole reading.
        obtain rfl := Option.some.inj found
        cases last : m.localKana.replaySegments.getLast?.filter fun segment => segment.style = .direct with
        | none => exact isCharBoundary_byteLength _
        | some segment => exact isCharBoundary_directEnd composed (Option.mem_filter_iff.mp last).1
      · cases found

/-- A first key finds the views in step whatever the last composition left. -/
theorem InStep.beginComposition (inStep : m.InStep) : m.beginComposition.InStep := by
  unfold InputModule.beginComposition
  split
  · rename_i stopped
    obtain ⟨noKeys, noReading, noLatin⟩ := inStep.idle (by simpa using stopped)
    refine ⟨inStep.composed, inStep.idle, fun _ => ⟨noLatin, ?_⟩, inStep.latin⟩
    show Alike (empty.pushAll (styledText m.state.raw .kana)) m.localKana
    rw [noKeys]
    exact alike_empty_of_reading inStep.composed noReading
  · exact inStep

/-- A key reaches the typed keys and the composer alike. -/
theorem InStep.typeKey (inStep : m.InStep) (ch : Char) (style : TextStyle) : (m.typeKey ch style).InStep := by
  cases style with
  | kana =>
    refine ⟨inStep.composed.push ch .kana, fun stopped => Bool.noConfusion stopped, fun fromKeys => ?_, fun start found => ?_⟩
    · -- Replaying one key more pushes it behind the others.
      obtain ⟨noLatin, alike⟩ := inStep.keys fromKeys
      refine ⟨noLatin, ?_⟩
      have pushed := push_alike alike ch .kana
      rwa [show (empty.pushAll (styledText m.state.raw .kana)).push ch .kana =
        empty.pushAll (styledText (m.state.raw ++ [ch]) .kana) by simp [pushAll, styledText]] at pushed
    · exact (inStep.latin start found).append [ch]
  | direct =>
    refine ⟨inStep.composed.push ch .direct, fun stopped => Bool.noConfusion stopped, fun fromKeys => Bool.noConfusion fromKeys,
      fun start found => ?_⟩
    -- The first direct key marks the end of the keys before it.
    simp only [InputModule.typeKey, InputState.onCharLatin, InputState.onChar] at found ⊢
    split at found
    · rename_i first
      obtain rfl := Option.some.inj found
      rw [if_pos first]
      exact (isCharBoundary_byteLength _).append [ch]
    · rename_i marked
      rw [if_neg marked]
      exact (inStep.latin start found).append [ch]

/-- The display of a key press leaves the composition alone. -/
theorem InStep.immediateDisplay (inStep : m.InStep) : m.immediateDisplay.1.InStep := by
  unfold InputModule.immediateDisplay
  split
  · exact ⟨inStep.composed, inStep.idle, inStep.keys, inStep.latin⟩
  · split
    · split
      · exact inStep
      · exact ⟨inStep.composed, inStep.idle, inStep.keys, inStep.latin⟩
    · exact ⟨inStep.composed, inStep.idle, inStep.keys, inStep.latin⟩

/-- A typed key keeps the views in step. -/
theorem InStep.handleText (inStep : m.InStep) (ch : Char) (style : TextStyle) (replay : ReplayMode) :
    (m.handleText ch style replay).1.InStep := by
  unfold InputModule.handleText
  extract_lets cursorEdit typed anchored withdrawn
  have started := inStep.beginComposition
  have cleared : m.beginComposition.clearCandidates.InStep :=
    ⟨started.composed, started.idle, started.keys, started.latin⟩
  have typed_inStep : typed.InStep := cleared.typeKey ch style
  -- Away from the end of the reading the keys are anchored to the reading anew.
  have anchored_inStep : anchored.InStep := by
    simp only [anchored]
    split
    · exact reanchorAfterSurfaceEdit_inStep typed_inStep.composed _
    · exact typed_inStep
  exact InStep.immediateDisplay
    ⟨anchored_inStep.composed, anchored_inStep.idle, anchored_inStep.keys, anchored_inStep.latin⟩

/-- Navigation hands the replay over to the composer. -/
theorem InStep.readingNavigationOutput (inStep : m.InStep) {c : LocalKanaComposer} (composed : c.Composed)
    (reading : c.reading = m.localKana.reading) (moved : Bool) (stuck : moved = false → c = m.localKana) :
    ({ m with localKana := c }.readingNavigationOutput moved).1.InStep := by
  cases moved with
  | false =>
    obtain rfl := stuck rfl
    exact inStep
  | true =>
    refine ⟨composed, fun stopped => ?_, fun fromKeys => Bool.noConfusion fromKeys, inStep.latin⟩
    obtain ⟨noKeys, noReading, noLatin⟩ := inStep.idle stopped
    exact ⟨noKeys, reading.trans noReading, noLatin⟩

/-- A placed reading cursor keeps the views in step. -/
theorem InStep.setReadingCursor (inStep : m.InStep) (cursor : Nat) : (m.setReadingCursor cursor).1.InStep :=
  have moved := inStep.composed.setCursor cursor
  inStep.readingNavigationOutput moved.1 moved.2 _ setCursor_of_stuck

/-- A deletion behind the cursor anchors the keys anew. -/
theorem InStep.handleDelete (inStep : m.InStep) : m.handleDelete.1.InStep := by
  unfold InputModule.handleDelete
  dsimp only
  split
  · exact inStep
  · have anchored := reanchorAfterSurfaceEdit_inStep
      (m := ({ m with localKana := m.localKana.deleteForward.1 }).clearCandidates.invalidateLiveDisplay)
      inStep.composed.deleteForward (m.state.latinMode)
    exact ⟨anchored.composed, anchored.idle, anchored.keys, anchored.latin⟩

/-- A deletion before the cursor anchors the keys anew. -/
theorem InStep.handleBackspace (inStep : m.InStep) : (m.handleBackspace segmentation).1.InStep := by
  unfold InputModule.handleBackspace
  split
  · exact inStep
  · extract_lets cleared keepLatinMode deleted
    have anchored := reanchorAfterSurfaceEdit_inStep (m := deleted)
      (inStep.composed.deleteBeforeCursor segmentation true) keepLatinMode
    exact ⟨anchored.composed, anchored.idle, anchored.keys, anchored.latin⟩

/-- A candidate commit leaves the composition alone. -/
theorem InStep.candidateCommit (inStep : m.InStep) (index : Option Nat) : (m.candidateCommit index).1.InStep := by
  unfold InputModule.candidateCommit
  dsimp only
  split
  · exact ⟨inStep.composed, inStep.idle, inStep.keys, inStep.latin⟩
  · exact inStep

end InputModule

/-- The keys that edit, finish or cancel a composition. -/
def KeyEvent.editsComposition : KeyEvent → Bool
  | .text .. | .backspace | .delete | .moveReading _ | .readingHome | .readingEnd | .escape | .enter => true
  | _ => false

/-- An operation that finishes a composition leaves nothing of it. -/
def ImmediateOperation.KeepsNothing : ImmediateOperation → Prop
  | .commit _ _ remaining _ => remaining = none
  | _ => True

namespace InputModule

variable {m : InputModule} {segmentation : Segmentation}

/-- The keys that edit a composition keep its views in step. -/
theorem InStep.handleKey (inStep : m.InStep) {key : KeyEvent} (edits : key.editsComposition) :
    (m.handleKey segmentation key).1.InStep := by
  cases key with
  | text ch style replay => exact inStep.handleText ch style replay
  | moveReading direction =>
    simp only [InputModule.handleKey]
    split
    · have moved := inStep.composed.moveCursor direction
      exact inStep.readingNavigationOutput moved.1 moved.2 _ moveCursor_of_stuck
    · exact inStep
  | readingHome =>
    simp only [InputModule.handleKey]
    split
    · exact inStep.setReadingCursor _
    · exact inStep
  | readingEnd =>
    simp only [InputModule.handleKey]
    split
    · exact inStep.setReadingCursor _
    · exact inStep
  | delete =>
    simp only [InputModule.handleKey]
    split
    · exact inStep.handleDelete
    · exact inStep
  | backspace =>
    simp only [InputModule.handleKey]
    split
    · exact inStep.handleBackspace
    · exact inStep
  | enter =>
    simp only [InputModule.handleKey]
    split
    · exact inStep.candidateCommit none
    · split <;> exact inStep
  | escape =>
    simp only [InputModule.handleKey]
    split <;> exact inStep
  | space | moveCandidate | selectCandidate | commitCandidate | other => cases edits

/-- Navigation shows the reading, if anything. -/
theorem readingNavigationOutput_keepsNothing {moved : Bool} {operation : ImmediateOperation}
    (returned : (m.readingNavigationOutput moved).2.immediate = some operation) : operation.KeepsNothing := by
  cases moved with
  | false => cases returned
  | true => exact Option.some.inj returned ▸ trivial

/-- A deletion shows the reading that is left, or cancels without one. -/
theorem deletionOperation_keepsNothing (m : InputModule) : m.deletionOperation.KeepsNothing := by
  unfold deletionOperation
  split <;> trivial

/-- A candidate commit returns nothing until the engine answers. -/
theorem candidateCommit_immediate (m : InputModule) (index : Option Nat) :
    (m.candidateCommit index).2.immediate = none := by
  unfold candidateCommit
  dsimp only
  split <;> rfl

/-- The keys that edit a composition finish the whole of it, if they finish it. -/
theorem handleKey_keepsNothing {key : KeyEvent} (edits : key.editsComposition) {operation : ImmediateOperation}
    (returned : (m.handleKey segmentation key).2.immediate = some operation) : operation.KeepsNothing := by
  cases key with
  | text ch style replay => exact Option.some.inj returned ▸ trivial
  | moveReading direction =>
    simp only [InputModule.handleKey] at returned
    split at returned
    · exact readingNavigationOutput_keepsNothing returned
    · cases returned
  | readingHome =>
    simp only [InputModule.handleKey] at returned
    split at returned
    · exact readingNavigationOutput_keepsNothing returned
    · cases returned
  | readingEnd =>
    simp only [InputModule.handleKey] at returned
    split at returned
    · exact readingNavigationOutput_keepsNothing returned
    · cases returned
  | delete =>
    simp only [InputModule.handleKey, InputModule.handleDelete] at returned
    split at returned
    · split at returned
      · cases returned
      · exact Option.some.inj returned ▸ deletionOperation_keepsNothing _
    · cases returned
  | backspace =>
    simp only [InputModule.handleKey, InputModule.handleBackspace] at returned
    split at returned
    · split at returned
      · cases returned
      · exact Option.some.inj returned ▸ deletionOperation_keepsNothing _
    · cases returned
  | enter =>
    -- Without candidates Enter commits the reading whole.
    simp only [InputModule.handleKey] at returned
    split at returned
    · cases (candidateCommit_immediate m none).symm.trans returned
    · split at returned
      · exact Option.some.inj returned ▸ rfl
      · cases returned
  | escape =>
    simp only [InputModule.handleKey] at returned
    split at returned
    · exact Option.some.inj returned ▸ trivial
    · cases returned
  | space | moveCandidate | selectCandidate | commitCandidate | other => cases edits

/-- A completed operation keeps the views in step, for it leaves the whole composition or nothing. -/
theorem InStep.complete (inStep : m.InStep) {operation : ImmediateOperation} (all : operation.KeepsNothing)
    (applied : Bool) : (m.complete segmentation operation applied).InStep := by
  unfold InputModule.complete
  extract_lets settled rejected committed
  have settled_inStep : settled.InStep := by
    simp only [settled]
    split
    · exact ⟨inStep.composed, inStep.idle, inStep.keys, inStep.latin⟩
    · exact inStep
  split
  · split
    · -- A rejected cancellation resumes the composition that the document still shows.
      exact ⟨settled_inStep.composed, fun stopped => Bool.noConfusion stopped, settled_inStep.keys,
        settled_inStep.latin⟩
    · exact ⟨settled_inStep.composed, settled_inStep.idle, settled_inStep.keys, settled_inStep.latin⟩
  · split
    · obtain rfl : _ = none := all
      exact reset_inStep _
    · exact reset_inStep _
    · exact settled_inStep

end InputModule

/-- What happens to a module while a composition is edited. -/
inductive EditOp where
  | key (key : KeyEvent)
  | deactivated
  | complete (operation : ImmediateOperation) (applied : Bool)

/-- A module with the operations it has returned so far. -/
structure EditSession where
  module : InputModule
  returned : List ImmediateOperation

namespace EditSession

variable {segmentation : Segmentation}

/-- The session before its first key. -/
def initial : EditSession := ⟨.initial, []⟩

/-- The module and the operation that an event leads to. -/
def receive (s : EditSession) (result : InputModule × ModuleOutput) : EditSession :=
  ⟨result.1, s.returned ++ result.2.immediate.toList⟩

/-- One event of the session. -/
def step (segmentation : Segmentation) (s : EditSession) : EditOp → EditSession
  | .key key => s.receive (s.module.handle segmentation (.key key))
  | .deactivated => s.receive (s.module.handle segmentation (.lifecycle .deactivated))
  | .complete operation applied => { s with module := s.module.complete segmentation operation applied }

/-- Keys edit the composition, and only returned operations are completed. -/
def Allowed (s : EditSession) : EditOp → Prop
  | .key key => key.editsComposition
  | .deactivated => True
  | .complete operation _ => operation ∈ s.returned

/-- The module's views are in step, and no returned operation keeps a rest of the composition. -/
structure Consistent (s : EditSession) : Prop where
  inStep : s.module.InStep
  returned : ∀ operation ∈ s.returned, operation.KeepsNothing

/-- An event that keeps the views in step returns an operation that keeps nothing. -/
theorem Consistent.receive {s : EditSession} (consistent : s.Consistent) {result : InputModule × ModuleOutput}
    (inStep : result.1.InStep) (finishes : ∀ operation, result.2.immediate = some operation → operation.KeepsNothing) :
    (s.receive result).Consistent where
  inStep := inStep
  returned operation member := by
    rcases List.mem_append.mp member with old | new
    · exact consistent.returned operation old
    · exact finishes operation (Option.mem_toList.mp new)

/-- Every event keeps the session consistent. -/
theorem Consistent.step {s : EditSession} (consistent : s.Consistent) {op : EditOp} (allowed : s.Allowed op) :
    (s.step segmentation op).Consistent := by
  cases op with
  | key key =>
    exact consistent.receive (consistent.inStep.handleKey allowed) fun operation returned =>
      InputModule.handleKey_keepsNothing allowed returned
  | deactivated =>
    simp only [EditSession.step, InputModule.handle]
    split
    · exact consistent.receive consistent.inStep fun operation returned => Option.some.inj returned ▸ trivial
    · exact consistent.receive consistent.inStep fun operation returned => by cases returned
  | complete operation applied =>
    exact ⟨consistent.inStep.complete (consistent.returned operation allowed) applied, consistent.returned⟩

end EditSession

/-- The composer's own segments go to the engine and come back unchanged. -/
theorem ReplaySegment.map_input_replay (segments : List ReplaySegment) :
    (segments.map ReplaySegment.input).map InputSegment.replay = segments := by
  rw [List.map_map]
  refine List.map_id'' (fun segment => ?_) _
  obtain ⟨text, style⟩ := segment
  cases style <;> rfl

/-- The segments of views in step replay the canonical reading. -/
theorem InputModule.InStep.replays {m : InputModule} (inStep : m.InStep) :
    (replayed (m.canonicalSegments.map InputSegment.replay)).reading = m.canonicalReading := by
  unfold InputModule.canonicalSegments InputModule.replaySegments InputModule.canonicalReading
  cases path : m.replayFromCanonical with
  | true =>
    simp only [if_true, ReplaySegment.map_input_replay]
    exact inStep.composed.replays.1
  | false =>
    obtain ⟨noLatin, alike⟩ := inStep.keys path
    have keys : replayed [⟨m.state.raw, .kana⟩] = empty.pushAll (styledText m.state.raw .kana) := by
      rw [replayed_eq]
      simp
    simp only [Bool.false_eq_true, if_false, noLatin, List.map_cons, List.map_nil]
    rw [show InputSegment.replay ⟨m.state.raw, .kana⟩ = ⟨m.state.raw, .kana⟩ from rfl, keys,
      pushAll_reading rfl, inStep.composed.reading, alike.stable, alike.pending, alike.suffix]

namespace EditSession

/-- In every run the segments of the composition replay its reading, whichever path they are taken
from, and latin mode is marked at a character of the typed keys only while the composer replays. -/
theorem run_replays_reading (segmentation : Segmentation) (ops : List EditOp)
    (allowed : Admissible (step segmentation) Allowed initial ops) :
    let m := (exec (step segmentation) initial ops).module
    (replayed (m.canonicalSegments.map InputSegment.replay)).reading = m.canonicalReading ∧
      ∀ start, m.state.latinFrom = some start →
        m.replayFromCanonical ∧ start ≤ byteLength m.state.raw ∧ IsCharBoundary m.state.raw start := by
  have consistent := exec_invariant Consistent (fun _ _ consistent allowed => consistent.step allowed)
    ⟨InputModule.initial_inStep, fun _ member => by cases member⟩ allowed
  refine ⟨consistent.inStep.replays, fun start found => ?_⟩
  have boundary := consistent.inStep.latin start found
  refine ⟨?_, boundary.le, boundary⟩
  -- While the typed keys replay there is no latin mode.
  by_contra fromKeys
  have noLatin := (consistent.inStep.keys (Bool.eq_false_iff.mpr fromKeys)).1
  cases noLatin.symm.trans found

/-- A key, a direct key, a rejected cancellation and a deletion inside the reading. -/
theorem run_replays_reading_resumed :
    let ops := [.key (.text 'k' .kana .full), .key (.text 'b' .direct .full), .key .escape,
      .complete .cancel false, .key (.moveReading (-1)), .key .backspace]
    let m := (exec (step .scalars) initial ops).module
    (replayed (m.canonicalSegments.map InputSegment.replay)).reading = m.canonicalReading ∧
      ∀ start, m.state.latinFrom = some start →
        m.replayFromCanonical ∧ start ≤ byteLength m.state.raw ∧ IsCharBoundary m.state.raw start :=
  run_replays_reading .scalars _
    ⟨rfl, rfl, rfl, (by change ImmediateOperation.cancel ∈ EditSession.returned _; decide), rfl, rfl, trivial⟩

end EditSession

end Nospacekey
