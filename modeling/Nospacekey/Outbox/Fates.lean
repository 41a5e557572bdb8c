import Nospacekey.Outbox.Accounting

/-! Every accepted receipt leaves the outbox by one fate, and the worker's steps suffice for it. -/

namespace Nospacekey

open Runs

namespace ReceiptOutbox

variable {τ : Type} {s : ReceiptOutbox τ}

/-- The steps that no caller starts: calls that end and the worker's own. -/
def isInternal : OutboxOp τ → Bool
  | .trySend _ | .receive | .poll _ | .answer .. | .settle => true
  | _ => false

/-- The steps a waiting parcel may still need after those that its attempts took. -/
def waitingWork (parcel : Parcel τ) : Nat := 2 * (3 - parcel.delivery.attempts) + 1

/-- The steps that the parcel in the worker's hands may still need. -/
def heldWork : Worker τ → Nat
  | .delivering parcel => 2 * (3 - parcel.delivery.attempts) + 2
  | .settling .. => 1
  | _ => 0

/-- The internal steps that the receipts of the outbox may still need. -/
def work (s : ReceiptOutbox τ) : Nat :=
  9 * s.calls.length + 8 * s.channel.length + (s.pending.map waitingWork).sum + heldWork s.worker

/-- The channel takes over a call's parcel. -/
theorem work_trySend (accounted : s.Accounted) (orderly : s.Orderly) {call : Nat} {parcel : Parcel τ}
    (calling : s.calls[call]? = some parcel) : (s.step (.trySend call)).work < s.work := by
  have sent := (accounted.trySend orderly calling).1
  obtain ⟨within, _⟩ := List.getElem?_eq_some_iff.mp calling
  simp only [ReceiptOutbox.step, calling]
  unfold ReceiptOutbox.trySend at sent ⊢
  split at sent
  · rename_i room
    rw [if_pos room]
    have fewer := List.length_eraseIdx_of_lt within
    simp only [work, fewer, List.length_append, List.length_singleton]
    omega
  · cases sent

/-- The worker's queue takes over a parcel of the channel. -/
theorem work_receive (polling : s.worker = .polling) {parcel : Parcel τ}
    {channel : List (Parcel τ)} (queued : s.channel = parcel :: channel) : (s.step .receive).work < s.work := by
  simp only [ReceiptOutbox.step, polling, queued, work, List.length_cons, List.map_append, List.sum_append,
    List.map_cons, List.map_nil, List.sum_cons, List.sum_nil, waitingWork]
  omega

/-- A due parcel is taken up, for an attempt or for its end. -/
theorem work_poll (accounted : s.Accounted) (polling : s.worker = .polling) {now : Nat}
    (due : ∃ parcel ∈ s.pending, parcel.delivery.isDue now = true) : (s.step (.poll now)).work < s.work := by
  obtain ⟨waits, member, isDue⟩ := due
  simp only [ReceiptOutbox.step, polling, ReceiptOutbox.poll]
  cases first : s.pending.findIdx? fun parcel => parcel.delivery.isDue now with
  | none => exact absurd isDue (by simpa using List.findIdx?_eq_none_iff.mp first waits member)
  | some index =>
    have within := (List.findIdx?_eq_some_iff_getElem.mp first).1
    dsimp only
    rw [List.getElem?_eq_getElem within]
    -- The parcel's own share of the work is what the worker may need less.
    have share := ((List.getElem_cons_eraseIdx_perm within).map waitingWork).sum_nat
    have limited := accounted.waiting s.pending[index] (by simp)
    simp only [List.map_cons, List.sum_cons] at share
    unfold attempt
    dsimp only
    split
    · simp only [work, polling, heldWork, waitingWork] at share ⊢
      omega
    · simp only [work, polling, heldWork, waitingWork] at share ⊢
      omega

/-- Every answer leaves fewer steps. -/
theorem work_answer (accounted : s.Accounted) {parcel : Parcel τ} (delivering : s.worker = .delivering parcel)
    (result : DeliveryResult) (now later : Nat) : (s.step (.answer result now later)).work < s.work := by
  have attempts := accounted.delivering parcel delivering
  have same := (retry_spec parcel.delivery now).2.2.1
  simp only [ReceiptOutbox.step, delivering]
  cases result with
  | acknowledged | epochChanged =>
    simp only [ReceiptOutbox.answer, work, delivering, heldWork]
    omega
  | retry =>
    simp only [ReceiptOutbox.answer]
    split
    · simp only [work, delivering, heldWork, List.map_append, List.sum_append, List.map_cons, List.map_nil,
        List.sum_cons, List.sum_nil, waitingWork, same]
      omega
    · split <;>
      · simp only [work, delivering, heldWork]
        omega

/-- A settled fate ends the work on its receipt. -/
theorem work_settle {parcel : Parcel τ} {fate : Fate} {now : Nat}
    (settling : s.worker = .settling parcel fate now) : (s.step .settle).work < s.work := by
  simp only [ReceiptOutbox.step, settling, ReceiptOutbox.settle]
  cases fate.rejectedGeneration parcel.delivery.receipt <;>
  · simp only [work, settling, heldWork]
    omega

/-- While a receipt lives, the worker or a call can take a step that leaves less work. -/
theorem exists_work_lt (accounted : s.Accounted) (orderly : s.Orderly) (living : s.live ≠ []) :
    ∃ op, isInternal op = true ∧ (s.step op).work < s.work := by
  cases worker : s.worker with
  | delivering parcel => exact ⟨.answer .retry 0 0, rfl, work_answer accounted worker .retry 0 0⟩
  | settling parcel fate now => exact ⟨.settle, rfl, work_settle worker⟩
  | returned =>
    -- A worker that has returned has left nothing behind.
    obtain ⟨closed, noPending⟩ := orderly.returned worker
    obtain ⟨noSender, noChannel⟩ := orderly.drained closed
    exact absurd (by simp [live, orderly.borrowed noSender, noChannel, noPending, worker, Worker.inFlight]) living
  | polling =>
    cases calls : s.calls with
    | cons parcel rest =>
      have first : s.calls[0]? = some parcel := by simp [calls]
      exact ⟨.trySend 0, rfl, work_trySend accounted orderly first⟩
    | nil =>
      cases channel : s.channel with
      | cons parcel rest => exact ⟨.receive, rfl, work_receive worker channel⟩
      | nil =>
        cases pending : s.pending with
        | nil => exact absurd (by simp [live, calls, channel, pending, worker, Worker.inFlight]) living
        | cons parcel rest =>
          refine ⟨.poll parcel.delivery.expires, rfl, work_poll accounted worker ⟨parcel, by simp [pending], ?_⟩⟩
          simp [Delivery.isDue]

/-- Whatever has been accepted, internal steps alone can remove the rest of it. -/
theorem exists_drained (accounted : s.Accounted) (orderly : s.Orderly) :
    ∃ ops, (∀ op ∈ ops, isInternal op = true) ∧ (exec ReceiptOutbox.step s ops).live = [] := by
  -- The work that is left decreases until no receipt lives.
  induction left : s.work using Nat.strong_induction_on generalizing s with
  | _ left ih =>
    by_cases living : s.live = []
    · exact ⟨[], by simp, living⟩
    · obtain ⟨op, internal, less⟩ := exists_work_lt accounted orderly living
      obtain ⟨ops, all, drained⟩ := ih _ (by omega) (accounted.step orderly op) (orderly.step op) rfl
      refine ⟨op :: ops, fun other member => ?_, drained⟩
      rcases List.mem_cons.mp member with rfl | later
      · exact internal
      · exact all other later

/-- What holds of an outbox between any two steps of its threads. -/
structure OneFateEach (s : ReceiptOutbox τ) : Prop where
  /-- The count is that of the accepted receipts that are queued, pending or in flight. -/
  counted : s.outstanding = s.live.length
  bounded : s.outstanding ≤ 128
  /-- An accepted receipt either lives in one place or has been removed once. -/
  once : ∀ serial < s.accepted.length,
    (s.live.map (·.serial)).count serial + (s.removals.map (·.serial)).count serial = 1
  removed : ∀ removal ∈ s.removals, s.Deserved removal
  handedOver : ∀ handOver ∈ s.handOvers, s.HandedOver handOver
  thrice : ∀ serial, s.attemptsOf serial ≤ 3
  /-- A call is refused only by the count, which it leaves as it was. -/
  refused : ∀ receipt appliedAt, (s.reserve receipt appliedAt).2 = false →
    (s.reserve receipt appliedAt).1.outstanding = s.outstanding
  sent : ∀ (call : Nat) parcel, s.calls[call]? = some parcel → (s.trySend parcel (s.calls.eraseIdx call)).2 = true
  /-- A worker that has returned has removed every accepted receipt, and any other still can. -/
  returned : s.worker = .returned → s.live = []
  drains : ∃ ops, (∀ op ∈ ops, isInternal op = true) ∧ (exec ReceiptOutbox.step s ops).live = []

/-- In every run of the callers and the worker, with any transport and any clock, every accepted
receipt is counted while it lives, handed over unmodified at most three times within its lifetime,
and removed by one fate. -/
theorem run_oneFateEach (ops : List (OutboxOp τ)) : (exec ReceiptOutbox.step start ops).OneFateEach := by
  obtain ⟨accounted, orderly⟩ := run_accounted ops
  generalize exec ReceiptOutbox.step start ops = s at accounted orderly
  refine
    { counted := accounted.counted, bounded := accounted.bounded, once := fun serial accepted => ?_,
      removed := accounted.deserved, handedOver := accounted.handedOver, thrice := accounted.thrice,
      refused := fun receipt appliedAt refused => ?_,
      sent := fun call parcel calling => (accounted.trySend orderly calling).1, returned := fun held => ?_,
      drains := exists_drained accounted orderly }
  · rw [← List.count_append, accounted.serials.count_eq]
    exact List.count_eq_one_of_mem List.nodup_range (List.mem_range.mpr accepted)
  · unfold ReceiptOutbox.reserve at refused ⊢
    split at refused
    · cases refused
    · rename_i full
      rw [if_neg full]
  · obtain ⟨closed, noPending⟩ := orderly.returned held
    obtain ⟨noSender, noChannel⟩ := orderly.drained closed
    simp [live, orderly.borrowed noSender, noChannel, noPending, held, Worker.inFlight]

end ReceiptOutbox

end Nospacekey
