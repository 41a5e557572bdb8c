import Nospacekey.Ipc.Clause
import Mathlib.Data.List.Infix

/-! The latest operation on each model: one record for each kind, which only its own operation changes. -/

namespace Nospacekey

inductive ModelKind where
  | zenzai
  | prediction
  deriving DecidableEq, Repr

inductive OperationPhase where
  | downloading
  | verifying
  | placementWaiting
  | placing
  | activating
  | cancelling
  | succeeded
  | failed
  | cancelled
  deriving DecidableEq, Repr

structure ModelOperationStatus where
  operationId : Nat
  modelKind : ModelKind
  phase : OperationPhase
  progress : Option Nat
  cancelable : Bool
  activationIntent : Bool
  result : Option Text
  deriving DecidableEq, Repr

abbrev Operations := List ModelOperationStatus

namespace Operations

/-- The first record of the kind is updated if it is that of the operation. -/
def withRecord (kind : ModelKind) (operationId : Nat) (update : ModelOperationStatus → ModelOperationStatus) :
    Operations → Operations
  | [] => []
  | operation :: operations =>
    if operation.modelKind = kind then
      (if operation.operationId = operationId then update operation else operation) :: operations
    else operation :: withRecord kind operationId update operations

/-- An operation takes the place of the earlier one of its kind. -/
def beginOperation (kind : ModelKind) (operationId : Nat) (activationIntent : Bool) (operations : Operations) :
    Operations :=
  operations.filter (fun operation => operation.modelKind ≠ kind) ++
    [⟨operationId, kind, .downloading, some 0, true, activationIntent, none⟩]

def progress (kind : ModelKind) (operationId : Nat) (progress : Option Nat) : Operations → Operations :=
  withRecord kind operationId fun operation => { operation with progress }

def phase (kind : ModelKind) (operationId : Nat) (phase : OperationPhase) (cancelable : Bool) :
    Operations → Operations :=
  withRecord kind operationId fun operation => { operation with phase, cancelable }

def succeed (kind : ModelKind) (operationId : Nat) (result : Text) : Operations → Operations :=
  withRecord kind operationId fun operation =>
    { operation with phase := .succeeded, progress := some 100, cancelable := false, result := some result }

/-- An operation that was being cancelled, or whose error says so, was cancelled. -/
def fail (kind : ModelKind) (operationId : Nat) (result : Text) : Operations → Operations :=
  withRecord kind operationId fun operation =>
    let cancelled := operation.phase = .cancelling ∨ "キャンセル".toList <:+: result
    { operation with phase := if cancelled then .cancelled else .failed, cancelable := false, result := some result }

def requestCancel (kind : ModelKind) (operationId : Nat) : Operations → Operations :=
  withRecord kind operationId fun operation =>
    if operation.cancelable then { operation with phase := .cancelling, cancelable := false } else operation

/-- An update reaches only the record of its operation. -/
theorem withRecord_getElem? (kind : ModelKind) (operationId : Nat)
    (update : ModelOperationStatus → ModelOperationStatus) (operations : Operations) (place : Nat)
    (operation : ModelOperationStatus) (there : operations[place]? = some operation) :
    (withRecord kind operationId update operations)[place]? = some operation ∨
      operation.modelKind = kind ∧ operation.operationId = operationId ∧
        (withRecord kind operationId update operations)[place]? = some (update operation) := by
  -- Records in front of the first one of the kind stay, and so do those behind it.
  induction operations generalizing place with
  | nil => cases there
  | cons first rest ih =>
    unfold withRecord
    by_cases same : first.modelKind = kind
    · rw [if_pos same]
      cases place with
      | zero =>
        obtain rfl := Option.some.inj there
        by_cases own : first.operationId = operationId
        · exact .inr ⟨same, own, by rw [if_pos own]; rfl⟩
        · exact .inl (by rw [if_neg own]; rfl)
      | succ behind => exact .inl there
    · rw [if_neg same]
      cases place with
      | zero => exact .inl there
      | succ behind => exact ih behind there

end Operations

end Nospacekey
