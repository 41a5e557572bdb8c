import Nospacekey.Ipc.Clause
import Nospacekey.Library.Table
import Mathlib.Algebra.Ring.Nat

/-! The receipt outbox: callers that accept receipts, and the worker that delivers each of them. -/

namespace Nospacekey

namespace ReceiptOutbox

def capacity : Nat := 128

def lifetime : Nat := durationFromSecs 30

def requestBudget : Nat := durationFromMillis 1200

def retries : List Nat := [durationFromMillis 250, durationFromMillis 1000]

end ReceiptOutbox

open ReceiptOutbox

inductive DeliveryNotice where
  | capacity
  | expired
  | failed
  | epochChanged
  | rejected (reason : ReceiptRejection)
  deriving DecidableEq, Repr

structure Delivery (τ : Type) where
  receipt : CommitReceipt τ
  expires : Nat
  nextAttempt : Nat
  attempts : Nat
  deriving DecidableEq, Repr

namespace Delivery

variable {τ : Type}

def new (receipt : CommitReceipt τ) (appliedAt : Nat) : Delivery τ where
  receipt := receipt
  expires := appliedAt + lifetime
  nextAttempt := appliedAt
  attempts := 0

/-- The delay before the next attempt, where there still is one. -/
def retryDelay : Nat → Option Nat
  | 0 => none
  | index + 1 => retries[index]?

def retry (delivery : Delivery τ) (now : Nat) : Delivery τ × Bool :=
  match retryDelay delivery.attempts with
  | none => (delivery, false)
  | some delay => ({ delivery with nextAttempt := now + delay }, now + delay < delivery.expires)

/-- The worker looks at a delivery whose attempt or whose end has come. -/
def isDue (delivery : Delivery τ) (now : Nat) : Bool := delivery.nextAttempt ≤ now || delivery.expires ≤ now

end Delivery

inductive DeliveryResult where
  | acknowledged (status : ReceiptStatus)
  | retry
  | epochChanged
  deriving DecidableEq, Repr

/-- How an accepted receipt leaves the outbox. -/
inductive Fate where
  | acknowledged (status : ReceiptStatus)
  | epochChanged
  | expired
  | exhausted
  deriving DecidableEq, Repr

/-- The notice that a fate leaves. A processed receipt leaves none. -/
def Fate.notice : Fate → Option DeliveryNotice
  | .acknowledged (.rejected reason) => some (.rejected reason)
  | .acknowledged _ => none
  | .epochChanged => some .epochChanged
  | .expired => some .expired
  | .exhausted => some .failed

/-- The generation up to which a fate retires the learning material of the receipt's epoch. -/
def Fate.rejectedGeneration {τ : Type} (receipt : CommitReceipt τ) : Fate → Option Nat
  | .epochChanged => some (2 ^ 64 - 1)
  | .acknowledged (.rejected .staleLearningGeneration) => some receipt.learningGeneration
  | _ => none

/-- An accepted delivery with its place among the accepted ones, which tells equal receipts apart. -/
structure Parcel (τ : Type) where
  serial : Nat
  delivery : Delivery τ
  deriving DecidableEq, Repr

/-- Where the worker thread stands. -/
inductive Worker (τ : Type) where
  | polling
  | delivering (parcel : Parcel τ)
  | settling (parcel : Parcel τ) (fate : Fate) (now : Nat)
  | returned
  deriving DecidableEq, Repr

/-- The parcel that the worker holds outside its queue. -/
def Worker.inFlight {τ : Type} : Worker τ → List (Parcel τ)
  | .delivering parcel => [parcel]
  | .settling parcel _ _ => [parcel]
  | _ => []

/-- The channel is open while its receiver has not returned. -/
def Worker.isOpen {τ : Type} : Worker τ → Bool
  | .returned => false
  | _ => true

/-- A hand-over to the transport: what was handed over, at which clock reading, with which deadline. -/
structure HandOver (τ : Type) where
  serial : Nat
  receipt : CommitReceipt τ
  now : Nat
  deadline : Nat
  deriving DecidableEq, Repr

/-- A removal from the outbox, at the clock reading that decided it. -/
structure Removal where
  serial : Nat
  fate : Fate
  now : Nat
  deriving DecidableEq, Repr

structure ReceiptOutbox (τ : Type) where
  /-- The living clones of the sender. -/
  senders : Nat
  /-- The calls that have counted their receipt and are putting it into the channel. -/
  calls : List (Parcel τ)
  channel : List (Parcel τ)
  outstanding : Nat
  notice : Option DeliveryNotice
  learningInvalidated : Bool
  rejectedGenerations : Table Text Nat
  pending : List (Parcel τ)
  disconnected : Bool
  worker : Worker τ
  /-- The receipts accepted so far with the times their texts were applied. -/
  accepted : List (CommitReceipt τ × Nat)
  handOvers : List (HandOver τ)
  removals : List Removal

namespace ReceiptOutbox

variable {τ : Type}

/-- An outbox that has just been started. -/
def start : ReceiptOutbox τ where
  senders := 1
  calls := []
  channel := []
  outstanding := 0
  notice := none
  learningInvalidated := false
  rejectedGenerations := ∅
  pending := []
  disconnected := false
  worker := .polling
  accepted := []
  handOvers := []
  removals := []

/-- The accepted parcels that are queued, pending or in flight. -/
def live (s : ReceiptOutbox τ) : List (Parcel τ) := s.calls ++ s.channel ++ s.pending ++ s.worker.inFlight

/-- The first half of a call: it counts the receipt unless the outbox is full. -/
def reserve (s : ReceiptOutbox τ) (receipt : CommitReceipt τ) (appliedAt : Nat) : ReceiptOutbox τ × Bool :=
  if s.outstanding < capacity then
    ({ s with
        outstanding := s.outstanding + 1
        calls := s.calls ++ [⟨s.accepted.length, .new receipt appliedAt⟩]
        accepted := s.accepted ++ [(receipt, appliedAt)] },
      true)
  else ({ s with notice := some .capacity }, false)

/-- The second half of a call: it puts the receipt into the channel, unless that is full or closed. -/
def trySend (s : ReceiptOutbox τ) (parcel : Parcel τ) (calls : List (Parcel τ)) : ReceiptOutbox τ × Bool :=
  if s.channel.length < capacity && s.worker.isOpen then
    ({ s with calls := calls, channel := s.channel ++ [parcel] }, true)
  else ({ s with calls := calls, notice := some .failed, outstanding := s.outstanding - 1 }, false)

/-- What the worker does with a due parcel: it drops an expired one and hands over any other. -/
def attempt (s : ReceiptOutbox τ) (parcel : Parcel τ) (now : Nat) : ReceiptOutbox τ :=
  if parcel.delivery.expires ≤ now then { s with worker := .settling parcel .expired now }
  else
    { s with
      worker := .delivering
        { parcel with delivery := { parcel.delivery with attempts := parcel.delivery.attempts + 1 } }
      handOvers := s.handOvers ++
        [⟨parcel.serial, parcel.delivery.receipt, now, min (now + requestBudget) parcel.delivery.expires⟩] }

/-- The worker takes the first due parcel from its queue. -/
def poll (s : ReceiptOutbox τ) (now : Nat) : ReceiptOutbox τ :=
  match s.pending.findIdx? fun parcel => parcel.delivery.isDue now with
  | none => s
  | some index =>
    match s.pending[index]? with
    | none => s
    | some parcel => { s with pending := s.pending.eraseIdx index }.attempt parcel now

/-- What the worker does with the transport's answer. It reads the clock for the retry, and once more
for the reason of its failure. -/
def answer (s : ReceiptOutbox τ) (parcel : Parcel τ) (result : DeliveryResult) (now later : Nat) :
    ReceiptOutbox τ :=
  match result with
  | .acknowledged status => { s with worker := .settling parcel (.acknowledged status) now }
  | .epochChanged => { s with worker := .settling parcel .epochChanged now }
  | .retry =>
    let retried := parcel.delivery.retry now
    let parcel := { parcel with delivery := retried.1 }
    if retried.2 then { s with worker := .polling, pending := s.pending ++ [parcel] }
    else if parcel.delivery.expires ≤ later then { s with worker := .settling parcel .expired later }
    else { s with worker := .settling parcel .exhausted now }

/-- The worker publishes a fate and only then gives back the receipt's place. -/
def settle (s : ReceiptOutbox τ) (parcel : Parcel τ) (fate : Fate) (now : Nat) : ReceiptOutbox τ :=
  let receipt := parcel.delivery.receipt
  let s :=
    match fate.rejectedGeneration receipt with
    | none => s
    | some generation =>
      { s with
        learningInvalidated := true
        rejectedGenerations := AList.insert receipt.engineEpoch
          (max ((s.rejectedGenerations.lookup receipt.engineEpoch).getD 0) generation) s.rejectedGenerations }
  { s with
    notice := fate.notice.or s.notice
    outstanding := s.outstanding - 1
    worker := .polling
    removals := s.removals ++ [⟨parcel.serial, fate, now⟩] }

end ReceiptOutbox

/-- One atomic step of a caller or of the worker. A step that its thread does not stand at is nothing. -/
inductive OutboxOp (τ : Type) where
  | clone
  | drop
  | reserve (receipt : CommitReceipt τ) (appliedAt : Nat)
  | trySend (call : Nat)
  | takeNotice
  | takeLearningInvalidation
  | receive
  | poll (now : Nat)
  | answer (result : DeliveryResult) (now later : Nat)
  | settle
  | disconnect
  | finish

namespace ReceiptOutbox

variable {τ : Type}

def step (s : ReceiptOutbox τ) : OutboxOp τ → ReceiptOutbox τ
  | .clone => if 0 < s.senders then { s with senders := s.senders + 1 } else s
  | .drop =>
    -- A call borrows the sender it is made on.
    if 1 < s.senders || s.calls.isEmpty then { s with senders := s.senders - 1 } else s
  | .reserve receipt appliedAt => if 0 < s.senders then (s.reserve receipt appliedAt).1 else s
  | .trySend call =>
    match s.calls[call]? with
    | none => s
    | some parcel => (s.trySend parcel (s.calls.eraseIdx call)).1
  | .takeNotice => { s with notice := none }
  | .takeLearningInvalidation => { s with learningInvalidated := false }
  | .receive =>
    match s.worker, s.channel with
    | .polling, parcel :: channel => { s with channel := channel, pending := s.pending ++ [parcel] }
    | _, _ => s
  | .poll now =>
    match s.worker with
    | .polling => s.poll now
    | _ => s
  | .answer result now later =>
    match s.worker with
    | .delivering parcel => s.answer parcel result now later
    | _ => s
  | .settle =>
    match s.worker with
    | .settling parcel fate now => s.settle parcel fate now
    | _ => s
  | .disconnect =>
    -- The channel reports its disconnection once it is empty.
    match s.worker, s.channel with
    | .polling, [] => if s.senders = 0 then { s with disconnected := true } else s
    | _, _ => s
  | .finish =>
    match s.worker, s.pending with
    | .polling, [] => if s.disconnected then { s with worker := .returned } else s
    | _, _ => s

end ReceiptOutbox

end Nospacekey
