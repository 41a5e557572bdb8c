import Nospacekey.Engine.ComposingText
import Nospacekey.Library.Utf8
import Mathlib.Algebra.Order.Ring.Unbundled.Rat

/-! What crosses the process boundary of the GPU worker, and the checks that it has to pass. -/

namespace Nospacekey

/-- A single-precision number, by the value that it stands for. -/
inductive SingleFloat where
  | finite (value : Rat)
  | infinite
  | notANumber
  deriving DecidableEq, Repr

namespace SingleFloat

def isFinite : SingleFloat → Bool
  | finite _ => true
  | _ => false

/-- The number is a finite one of at most this magnitude. -/
def within (bound : Rat) : SingleFloat → Bool
  | finite value => decide (|value| ≤ bound)
  | _ => false

def isNonpositive : SingleFloat → Bool
  | finite value => decide (value ≤ 0)
  | _ => false

end SingleFloat

namespace GpuWorkerWireLimits

def maxCount : Int := 1000000

def maxId : Int := 1000000000

def maxStringBytes : Nat := 1048576

def maxArrayCount : Nat := 16384

def maxAbsValue : Rat := 1000000000

/-- The numbers of words and of their classes are bounded. -/
def validId (value : Int) : Bool := 0 ≤ value && value ≤ maxId

end GpuWorkerWireLimits

open GpuWorkerWireLimits

/-- An addition in the range of the machine's integers, and whether it left the range. -/
def addingReportingOverflow (left right : Int) : Int × Bool :=
  let sum := (left + right).bmod (2 ^ 64)
  (sum, sum ≠ left + right)

inductive GpuWorkerComposingCount where
  | inputCount (value : Int)
  | surfaceCount (value : Int)
  | composite (lhs rhs : GpuWorkerComposingCount)
  deriving DecidableEq, Repr

namespace GpuWorkerComposingCount

def maxDepth : Nat := 64

def validCount (value : Int) : Bool := 0 ≤ value && value ≤ maxCount

/-- The converter's count and its total, unless the count is nested too deeply or grows too large. -/
def makeComposingCountAt (depth : Nat) : GpuWorkerComposingCount → Option (ComposingCount × Int)
  | inputCount value => if depth ≤ maxDepth ∧ validCount value then some (.inputCount value, value) else none
  | surfaceCount value => if depth ≤ maxDepth ∧ validCount value then some (.surfaceCount value, value) else none
  | composite lhs rhs =>
    if depth ≤ maxDepth then
      match lhs.makeComposingCountAt (depth + 1) with
      | none => none
      | some left =>
        match rhs.makeComposingCountAt (depth + 1) with
        | none => none
        | some right =>
          let (total, overflow) := addingReportingOverflow left.2 right.2
          if !overflow && validCount total then some (.composite left.1 right.1, total) else none
    else none

def makeComposingCount (count : GpuWorkerComposingCount) : Option ComposingCount :=
  (count.makeComposingCountAt 0).map Prod.fst

section Apply

variable {χ : Type} (swift : SwiftString) (module : ComposingTextModule χ)

/-- The composing text that is left, as long as each part fits what the parts before it have left. -/
def applyAt (composing : χ) (depth : Nat) : GpuWorkerComposingCount → Option χ
  | inputCount value =>
    if depth ≤ maxDepth ∧ validCount value ∧ value ≤ module.inputCount composing then
      some (module.prefixComplete composing (.inputCount value))
    else none
  | surfaceCount value =>
    if depth ≤ maxDepth ∧ validCount value ∧ value ≤ swift.count (module.convertTarget composing) then
      some (module.prefixComplete composing (.surfaceCount value))
    else none
  | composite lhs rhs =>
    if depth ≤ maxDepth then
      match lhs.applyAt composing (depth + 1) with
      | none => none
      | some composing => rhs.applyAt composing (depth + 1)
    else none

/-- The count can be taken from the text up to the cursor. -/
def canApply (prefixToCursorPosition : χ → χ) (count : GpuWorkerComposingCount) (composing : χ) : Bool :=
  (count.applyAt swift module (prefixToCursorPosition composing) 0).isSome

end Apply

/-- The pairs of totals that are added up while a count is made, whether or not it is accepted in the end. -/
def additionsAt (depth : Nat) : GpuWorkerComposingCount → List (Int × Int)
  | composite lhs rhs =>
    if depth ≤ maxDepth then
      lhs.additionsAt (depth + 1) ++
        match lhs.makeComposingCountAt (depth + 1) with
        | none => []
        | some left =>
          rhs.additionsAt (depth + 1) ++
            match rhs.makeComposingCountAt (depth + 1) with
            | none => []
            | some right => [(left.2, right.2)]
    else []
  | _ => []

/-- A total that is accepted is within the limit. -/
theorem total_valid {depth : Nat} {count : GpuWorkerComposingCount} {made : ComposingCount × Int}
    (accepted : count.makeComposingCountAt depth = some made) : 0 ≤ made.2 ∧ made.2 ≤ maxCount := by
  -- Every branch that accepts has tested its total last.
  cases count with
  | inputCount value =>
    rw [makeComposingCountAt, Option.ite_none_right_eq_some] at accepted
    obtain ⟨⟨_, valid⟩, same⟩ := accepted
    cases same
    simpa [validCount] using valid
  | surfaceCount value =>
    rw [makeComposingCountAt, Option.ite_none_right_eq_some] at accepted
    obtain ⟨⟨_, valid⟩, same⟩ := accepted
    cases same
    simpa [validCount] using valid
  | composite lhs rhs =>
    rw [makeComposingCountAt, Option.ite_none_right_eq_some] at accepted
    obtain ⟨_, accepted⟩ := accepted
    split at accepted
    · cases accepted
    · split at accepted
      · cases accepted
      · rw [Option.ite_none_right_eq_some] at accepted
        obtain ⟨valid, same⟩ := accepted
        cases same
        simp only [validCount, Bool.and_eq_true, decide_eq_true_eq] at valid
        exact valid.2

/-- Totals within the limit are added without leaving the range of the integers. -/
theorem addingReportingOverflow_exact {left right : Int} (leftValid : 0 ≤ left ∧ left ≤ maxCount)
    (rightValid : 0 ≤ right ∧ right ≤ maxCount) : addingReportingOverflow left right = (left + right, false) := by
  -- The sum is at most twice the limit, which is far below the range.
  have sum : (left + right).bmod (2 ^ 64) = left + right := by
    refine Int.bmod_eq_of_le_mul_two ?_ ?_ <;> simp only [maxCount] at leftValid rightValid <;> omega
  rw [addingReportingOverflow, sum]
  simp

/-- Only totals within the limit are added. -/
theorem additions_valid {depth : Nat} {count : GpuWorkerComposingCount} :
    ∀ addition ∈ count.additionsAt depth,
      (0 ≤ addition.1 ∧ addition.1 ≤ maxCount) ∧ (0 ≤ addition.2 ∧ addition.2 ≤ maxCount) := by
  intro addition member
  induction count generalizing depth with
  | inputCount => simp [additionsAt] at member
  | surfaceCount => simp [additionsAt] at member
  | composite lhs rhs left right =>
    simp only [additionsAt] at member
    split at member
    · rcases List.mem_append.mp member with earlier | member
      · exact left earlier
      · split at member
        · simp at member
        · rename_i made
          rcases List.mem_append.mp member with earlier | member
          · exact right earlier
          · split at member
            · simp at member
            · rename_i made'
              cases List.mem_singleton.mp member
              exact ⟨total_valid made, total_valid made'⟩
    · simp at member

end GpuWorkerComposingCount

inductive CompleteAction where
  | moveCursor (count : Int)
  deriving DecidableEq, Repr

/-- A word of the converter's dictionary, with all that the worker tells of it. -/
structure NativeDicdataElement where
  word : Text
  ruby : Text
  lcid : Int
  rcid : Int
  mid : Int
  value : SingleFloat
  metadata : Nat
  deriving DecidableEq, Repr

/-- A candidate of the converter, in full. -/
structure NativeCandidate where
  text : Text
  value : SingleFloat
  composingCount : ComposingCount
  lastMid : Int
  data : List NativeDicdataElement
  actions : List CompleteAction
  inputable : Bool
  isLearningTarget : Bool
  deriving DecidableEq, Repr

inductive GpuWorkerCandidateAction where
  | moveCursor (count : Int)
  deriving DecidableEq, Repr

def GpuWorkerCandidateAction.makeAction : GpuWorkerCandidateAction → Option CompleteAction
  | moveCursor count => if -maxCount ≤ count ∧ count ≤ maxCount then some (.moveCursor count) else none

structure GpuWorkerDicdataElement where
  word : Text
  ruby : Text
  lcid : Int
  rcid : Int
  mid : Int
  value : SingleFloat
  metadataRawValue : Nat
  deriving DecidableEq, Repr

def GpuWorkerDicdataElement.makeDicdataElement (element : GpuWorkerDicdataElement) : Option NativeDicdataElement :=
  if Utf8.byteLength element.word ≤ maxStringBytes ∧ Utf8.byteLength element.ruby ≤ maxStringBytes ∧
      validId element.lcid ∧ validId element.rcid ∧ validId element.mid ∧
      element.value.isFinite ∧ element.value.isNonpositive ∧ element.value.within maxAbsValue then
    some ⟨element.word, element.ruby, element.lcid, element.rcid, element.mid, element.value,
      element.metadataRawValue⟩
  else none

structure GpuWorkerCandidate where
  text : Text
  value : SingleFloat
  composingCount : GpuWorkerComposingCount
  lastMid : Int
  data : List GpuWorkerDicdataElement
  actions : List GpuWorkerCandidateAction
  inputable : Bool
  isLearningTarget : Bool
  deriving DecidableEq, Repr

def GpuWorkerCandidate.makeCandidate (candidate : GpuWorkerCandidate) : Option NativeCandidate :=
  if Utf8.byteLength candidate.text ≤ maxStringBytes ∧ validId candidate.lastMid ∧
      candidate.value.isFinite ∧ candidate.value.within maxAbsValue ∧
      candidate.data.length ≤ maxArrayCount ∧ candidate.actions.length ≤ maxArrayCount then do
    let nativeCount ← candidate.composingCount.makeComposingCount
    let nativeData ← candidate.data.mapM GpuWorkerDicdataElement.makeDicdataElement
    let nativeActions ← candidate.actions.mapM GpuWorkerCandidateAction.makeAction
    some ⟨candidate.text, candidate.value, nativeCount, candidate.lastMid, nativeData, nativeActions,
      candidate.inputable, candidate.isLearningTarget⟩
  else none

inductive GpuWorkerModifier where
  | shift
  deriving DecidableEq, Repr

inductive GpuWorkerInputPiece where
  | character (value : Text)
  | compositionSeparator
  | key (intention : Option Text) (modifiers : List GpuWorkerModifier)
  deriving DecidableEq, Repr

inductive GpuWorkerInputTableId where
  | defaultRomanToKana
  | defaultAzik
  | defaultKanaJis
  | defaultKanaUs
  | empty
  | custom (url : Text)
  | tableName (name : Text)
  deriving DecidableEq, Repr

def GpuWorkerInputTableId.supportsGpuWorker : GpuWorkerInputTableId → Bool
  | custom _ | tableName _ => false
  | _ => true

inductive GpuWorkerInputStyle where
  | direct
  | roman2kana
  | mapped (id : GpuWorkerInputTableId)
  deriving DecidableEq, Repr

def GpuWorkerInputStyle.supportsGpuWorker : GpuWorkerInputStyle → Bool
  | direct | roman2kana => true
  | mapped id => id.supportsGpuWorker

structure GpuWorkerInputElement where
  piece : GpuWorkerInputPiece
  inputStyle : GpuWorkerInputStyle
  deriving DecidableEq, Repr

/-- A snapshot of a composing text. -/
structure GpuWorkerCompositionSnapshot where
  cursor : Int
  input : List GpuWorkerInputElement
  convertTarget : Text
  deriving DecidableEq, Repr

/-- A key of the converter's input. A character is one cluster. -/
inductive NativeInputPiece where
  | character (cluster : Text)
  | compositionSeparator
  | key (intention : Option Text) (shift : Bool)
  deriving DecidableEq, Repr

/-- A table of the converter, where a custom one is a location. -/
inductive NativeInputTableId (υ : Type) where
  | defaultRomanToKana
  | defaultAzik
  | defaultKanaJis
  | defaultKanaUs
  | empty
  | custom (url : υ)
  | tableName (name : Text)

inductive NativeInputStyle (υ : Type) where
  | direct
  | roman2kana
  | mapped (id : NativeInputTableId υ)

structure NativeInputElement (υ : Type) where
  piece : NativeInputPiece
  inputStyle : NativeInputStyle υ

/-- What a snapshot is turned back with: the converter's own editing operations, and the reading of a location. -/
structure ComposingTextEditing (χ υ : Type) extends ComposingTextModule χ where
  new : χ
  make : Int → List (NativeInputElement υ) → Text → χ
  insertAtCursorPosition : χ → List (NativeInputElement υ) → χ
  moveCursorFromCursorPosition : χ → Int → χ
  convertTargetCursorPosition : χ → Int
  prefixToCursorPosition : χ → χ
  url : Text → Option υ

section Snapshot

variable {χ υ : Type} (swift : SwiftString) (module : ComposingTextEditing χ υ)

/-- A text of one cluster. -/
def onlyCharacter (value : Text) : Option Text :=
  match swift.graphemes value with
  | [cluster] => some cluster
  | _ => none

def GpuWorkerInputPiece.makeInputPiece : GpuWorkerInputPiece → Option NativeInputPiece
  | character value => (onlyCharacter swift value).map .character
  | compositionSeparator => some .compositionSeparator
  | key none modifiers => some (.key none (modifiers.contains .shift))
  | key (some intention) modifiers =>
    (onlyCharacter swift intention).map fun cluster => .key (some cluster) (modifiers.contains .shift)

def GpuWorkerInputTableId.makeInputTableId : GpuWorkerInputTableId → Option (NativeInputTableId υ)
  | defaultRomanToKana => some .defaultRomanToKana
  | defaultAzik => some .defaultAzik
  | defaultKanaJis => some .defaultKanaJis
  | defaultKanaUs => some .defaultKanaUs
  | empty => some .empty
  | custom url => (module.url url).map .custom
  | tableName name => some (.tableName name)

def GpuWorkerInputStyle.makeInputStyle : GpuWorkerInputStyle → Option (NativeInputStyle υ)
  | direct => some .direct
  | roman2kana => some .roman2kana
  | mapped id => (id.makeInputTableId module).map .mapped

def GpuWorkerInputElement.makeInputElement (element : GpuWorkerInputElement) : Option (NativeInputElement υ) := do
  let piece ← element.piece.makeInputPiece swift
  let inputStyle ← element.inputStyle.makeInputStyle module
  some ⟨piece, inputStyle⟩

def GpuWorkerCompositionSnapshot.supportsGpuWorker (snapshot : GpuWorkerCompositionSnapshot) : Bool :=
  snapshot.input.all fun element => element.inputStyle.supportsGpuWorker

/-- The composing text of a snapshot. Styles that the converter has itself have to lead to the same text and cursor. -/
def GpuWorkerCompositionSnapshot.makeComposingText (snapshot : GpuWorkerCompositionSnapshot) : Option χ :=
  if 0 ≤ snapshot.cursor ∧ snapshot.cursor ≤ swift.count snapshot.convertTarget then do
    let elements ← snapshot.input.mapM (GpuWorkerInputElement.makeInputElement swift module)
    if snapshot.supportsGpuWorker then
      let reconstructed := module.insertAtCursorPosition module.new elements
      if swift.same (module.convertTarget reconstructed) snapshot.convertTarget then
        let moved := module.moveCursorFromCursorPosition reconstructed
          (snapshot.cursor - module.convertTargetCursorPosition reconstructed)
        if module.convertTargetCursorPosition moved = snapshot.cursor then some moved else none
      else none
    else some (module.make snapshot.cursor elements snapshot.convertTarget)
  else none

end Snapshot

end Nospacekey
