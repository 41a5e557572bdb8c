import Nospacekey.Ipc.Clause
import Nospacekey.Library.Table

/-! The engine's ledger of processed receipts, which answers a repeated one without learning from it again. -/

namespace Nospacekey

structure CommitReceiptAck where
  commitId : CommitId
  outcome : ReceiptStatus
  deriving DecidableEq, Repr

/-- A processed receipt, with its outcome and the engine's clock when it was received. -/
structure LedgerEntry (τ : Type) where
  receipt : CommitReceipt τ
  outcome : ReceiptStatus
  receivedAt : Nat
  deriving DecidableEq, Repr

structure CommitReceiptLedger (τ : Type) where
  entries : Table CommitId (LedgerEntry τ)
  capacity : Nat

namespace CommitReceiptLedger

variable {τ σ : Type} [DecidableEq τ]

def retention : Nat := durationFromSecs 60

/-- An empty ledger. -/
def new (capacity : Nat) : CommitReceiptLedger τ := ⟨∅, capacity⟩

/-- The entries that have not been forgotten yet. -/
def live (ledger : CommitReceiptLedger τ) (now : Nat) : Table CommitId (LedgerEntry τ) :=
  ledger.entries.sift fun entry => now - entry.receivedAt < retention

/-- The answer to a repeated receipt of a known outcome. -/
def replay : ReceiptStatus → ReceiptStatus
  | .applied => .alreadyProcessed
  | outcome => outcome

/-- Processes a receipt; only one that is new to the ledger is applied to the learner. -/
def process (ledger : CommitReceiptLedger τ) (receipt : CommitReceipt τ) (now : Nat)
    (apply : σ → ReceiptStatus × σ) (learner : σ) : CommitReceiptAck × CommitReceiptLedger τ × σ :=
  let entries := ledger.live now
  match entries.lookup receipt.commitId with
  | some prior =>
    if prior.receipt ≠ receipt then
      (⟨receipt.commitId, .rejected .conflict⟩, { ledger with entries := entries }, learner)
    else (⟨receipt.commitId, replay prior.outcome⟩, { ledger with entries := entries }, learner)
  | none =>
    if ledger.capacity ≤ entries.entries.length then
      (⟨receipt.commitId, .rejected .capacity⟩, { ledger with entries := entries }, learner)
    else
      let applied := apply learner
      (⟨receipt.commitId, applied.1⟩,
        { ledger with entries := AList.insert receipt.commitId ⟨receipt, applied.1, now⟩ entries }, applied.2)

variable {ledger : CommitReceiptLedger τ} {receipt : CommitReceipt τ} {now : Nat}

omit [DecidableEq τ] in
/-- A live entry is one that was stored less than the retention ago. -/
theorem lookup_live {id : CommitId} {entry : LedgerEntry τ} :
    (ledger.live now).lookup id = some entry ↔
      ledger.entries.lookup id = some entry ∧ now - entry.receivedAt < retention := by
  rw [live, Table.lookup_sift, Option.filter_eq_some_iff, decide_eq_true_eq]

/-- A repeated receipt is answered by its first outcome and not applied again. -/
theorem process_repeated {prior : LedgerEntry τ} (known : (ledger.live now).lookup receipt.commitId = some prior)
    (same : prior.receipt = receipt) (apply : σ → ReceiptStatus × σ) (learner : σ) :
    ledger.process receipt now apply learner =
      (⟨receipt.commitId, replay prior.outcome⟩, { ledger with entries := ledger.live now }, learner) := by
  simp [process, known, same]

/-- A different receipt under a live commit id is a conflict and not applied. -/
theorem process_conflicting {prior : LedgerEntry τ}
    (known : (ledger.live now).lookup receipt.commitId = some prior) (other : prior.receipt ≠ receipt)
    (apply : σ → ReceiptStatus × σ) (learner : σ) :
    ledger.process receipt now apply learner =
      (⟨receipt.commitId, .rejected .conflict⟩, { ledger with entries := ledger.live now }, learner) := by
  simp [process, known, other]

/-- A new receipt is not applied while the ledger is full. -/
theorem process_full (unknown : (ledger.live now).lookup receipt.commitId = none)
    (full : ledger.capacity ≤ (ledger.live now).entries.length) (apply : σ → ReceiptStatus × σ) (learner : σ) :
    ledger.process receipt now apply learner =
      (⟨receipt.commitId, .rejected .capacity⟩, { ledger with entries := ledger.live now }, learner) := by
  simp [process, unknown, full]

/-- A new receipt is applied where the ledger has room, and its outcome is stored. -/
theorem process_new (unknown : (ledger.live now).lookup receipt.commitId = none)
    (room : (ledger.live now).entries.length < ledger.capacity) (apply : σ → ReceiptStatus × σ) (learner : σ) :
    ledger.process receipt now apply learner =
      (⟨receipt.commitId, (apply learner).1⟩,
        { ledger with
          entries := AList.insert receipt.commitId ⟨receipt, (apply learner).1, now⟩ (ledger.live now) },
        (apply learner).2) := by
  simp [process, unknown, Nat.not_le.mpr room]

/-- No live entry is evicted or changed, whatever is processed. -/
theorem process_keeps {id : CommitId} {entry : LedgerEntry τ} (stored : (ledger.live now).lookup id = some entry)
    (apply : σ → ReceiptStatus × σ) (learner : σ) :
    (ledger.process receipt now apply learner).2.1.entries.lookup id = some entry := by
  cases known : (ledger.live now).lookup receipt.commitId with
  | some prior =>
    by_cases same : prior.receipt = receipt
    · rw [process_repeated known same]
      exact stored
    · rw [process_conflicting known same]
      exact stored
  | none =>
    by_cases full : ledger.capacity ≤ (ledger.live now).entries.length
    · rw [process_full known full]
      exact stored
    · rw [process_new known (Nat.lt_of_not_le full)]
      -- The new entry is stored under an id that had none.
      have other : id ≠ receipt.commitId := by
        rintro rfl
        exact absurd (known.symm.trans stored) nofun
      exact (AList.lookup_insert_ne other).trans stored

end CommitReceiptLedger

end Nospacekey
