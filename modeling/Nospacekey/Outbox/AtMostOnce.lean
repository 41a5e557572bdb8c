import Nospacekey.Engine.CommitReceiptLedger
import Nospacekey.Outbox.Accounting
import Nospacekey.Outbox.Freeze

/-! The outbox against the engine's ledger: a confirmed text is learned at most once. -/

namespace Nospacekey

open Runs

/-- The counter of commit ids, which ends rather than wrap around. -/
def nextCommitId (clientInstance : Option Text) (sequence : Nat) : Option CommitId := do
  let clientInstance ← clientInstance
  if sequence + 1 < 2 ^ 64 then some ⟨clientInstance, sequence + 1⟩ else none

/-- One receipt that reached the ledger: when, among how many live entries, the outcome of applying it
where it was applied, and the answer. -/
structure ProcessedReceipt (τ : Type) where
  receipt : CommitReceipt τ
  now : Nat
  live : Nat
  ran : Option ReceiptStatus
  answer : ReceiptStatus

/-- A client with its outbox and the engine with its ledger, each with a clock of its own. -/
structure ReceiptDelivery (τ : Type) where
  /-- The client's instance, where the system could issue one. -/
  clientInstance : Option Text
  sequence : Nat
  /-- The frozen receipts whose texts have not been applied yet. -/
  prepared : List (CommitReceipt τ)
  outbox : ReceiptOutbox τ
  ledger : CommitReceiptLedger τ
  clientNow : Nat
  engineNow : Nat
  /-- What the engine has processed, the last one first. -/
  processed : List (ProcessedReceipt τ)

/-- The outbox steps that read the clock or a receipt. -/
def OutboxOp.isTimed {τ : Type} : OutboxOp τ → Bool
  | .reserve .. | .poll _ | .answer .. => true
  | _ => false

/-- A step of the client, of the engine or of time. -/
inductive DeliveryOp (τ : Type) where
  | tick (elapsed : Nat)
  | prepare (model : ClauseConversion τ) (text : Text)
  | textApplied (index : Nat)
  | poll
  | answer (result : DeliveryResult) (elapsed : Nat)
  | other (op : OutboxOp τ)
  | deliver (handOver : Nat) (outcome : ReceiptStatus)
  | processForeign (receipt : CommitReceipt τ) (outcome : ReceiptStatus)

namespace ReceiptDelivery

variable {τ : Type}

/-- The time within which a message that was sent is processed, if it ever is. -/
def transit : Nat := durationFromSecs 30

/-- A client that has just started, at any time of an engine whose ledger is empty. -/
def start (clientInstance : Option Text) (capacity clientNow engineNow : Nat) : ReceiptDelivery τ where
  clientInstance := clientInstance
  sequence := 0
  prepared := []
  outbox := .start
  ledger := .new capacity
  clientNow := clientNow
  engineNow := engineNow
  processed := []

/-- A receipt of this client. -/
def Own (s : ReceiptDelivery τ) (receipt : CommitReceipt τ) : Prop :=
  some receipt.commitId.clientInstance = s.clientInstance

instance (s : ReceiptDelivery τ) (receipt : CommitReceipt τ) : Decidable (s.Own receipt) :=
  inferInstanceAs (Decidable (_ = _))

/-- Both clocks run at the same speed. -/
def tick (s : ReceiptDelivery τ) (elapsed : Nat) : ReceiptDelivery τ :=
  { s with clientNow := s.clientNow + elapsed, engineNow := s.engineNow + elapsed }

/-- A receipt is frozen under the next commit id, which is used up even when the receipt is not valid. -/
def prepare [EngineToken τ] (s : ReceiptDelivery τ) (model : ClauseConversion τ) (text : Text) : ReceiptDelivery τ :=
  match model.learningIdentity with
  | none => s
  | some _ =>
    if model.text ≠ text then s
    else
      match nextCommitId s.clientInstance s.sequence with
      | none => s
      | some commitId =>
        { s with
          sequence := s.sequence + 1
          prepared := s.prepared ++ (freeze (some commitId) model text).toList }

/-- The closure of a frozen receipt is called once, when its text was applied. -/
def textApplied (s : ReceiptDelivery τ) (index : Nat) : ReceiptDelivery τ :=
  match s.prepared[index]? with
  | none => s
  | some receipt =>
    { s with
      prepared := s.prepared.eraseIdx index
      outbox := s.outbox.step (.reserve receipt s.clientNow) }

/-- The engine processes a receipt; whatever the learner makes of it, the outcome is recorded. -/
def process [DecidableEq τ] (s : ReceiptDelivery τ) (receipt : CommitReceipt τ) (outcome : ReceiptStatus) : ReceiptDelivery τ :=
  let processed := s.ledger.process receipt s.engineNow (fun _ => (outcome, some outcome)) none
  { s with
    ledger := processed.2.1
    processed := ⟨receipt, s.engineNow, (s.ledger.live s.engineNow).entries.length, processed.2.2,
      processed.1.outcome⟩ :: s.processed }

/-- A step of the system. A message may be lost, processed more than once and overtaken by others, and
the answer to it may be lost as well; a receipt of another client may arrive at any time. -/
def step [DecidableEq τ] [EngineToken τ] (s : ReceiptDelivery τ) : DeliveryOp τ → ReceiptDelivery τ
  | .tick elapsed => s.tick elapsed
  | .prepare model text => s.prepare model text
  | .textApplied index => s.textApplied index
  | .poll => { s with outbox := s.outbox.step (.poll s.clientNow) }
  | .answer result elapsed =>
    { s with outbox := s.outbox.step (.answer result s.clientNow (s.clientNow + elapsed)) }.tick elapsed
  | .other op => if op.isTimed then s else { s with outbox := s.outbox.step op }
  | .deliver handOver outcome =>
    match s.outbox.handOvers[handOver]? with
    | none => s
    | some sent => if s.clientNow < sent.now + transit then s.process sent.receipt outcome else s
  | .processForeign receipt outcome => if s.Own receipt then s else s.process receipt outcome

variable {s : ReceiptDelivery τ}

/-- What the engine's answer to a receipt of this client says about the answers before it. -/
structure Consistent (s : ReceiptDelivery τ) (earlier : List (ProcessedReceipt τ)) (record : ProcessedReceipt τ) :
    Prop where
  /-- A receipt that was applied before is answered by its first outcome and not applied again. -/
  replayed : ∀ first ∈ earlier, first.receipt = record.receipt → ∀ outcome, first.ran = some outcome →
    record.ran = none ∧ record.answer = CommitReceiptLedger.replay outcome
  /-- One that was not applied before is applied now, unless the ledger is full of other receipts. -/
  fresh : (∀ first ∈ earlier, first.receipt = record.receipt → first.ran = none) →
    (record.live < s.ledger.capacity ∧ record.ran = some record.answer) ∨
      (s.ledger.capacity ≤ record.live ∧ record.ran = none ∧ record.answer = .rejected .capacity)

/-- The answers to the receipts of this client are consistent, the last one first. -/
def Answered (s : ReceiptDelivery τ) : List (ProcessedReceipt τ) → Prop
  | [] => True
  | record :: earlier => (s.Own record.receipt → s.Consistent earlier record) ∧ s.Answered earlier

/-- The receipts of this client, with the times when their texts were applied. -/
def accepted (s : ReceiptDelivery τ) : List (CommitReceipt τ × Nat) := s.outbox.accepted

/-- The client's side: every commit id is issued once. -/
structure Issued (s : ReceiptDelivery τ) : Prop where
  accounted : s.outbox.Accounted
  orderly : s.outbox.Orderly
  applied : ∀ entry ∈ s.accepted, entry.2 ≤ s.clientNow
  own : ∀ receipt ∈ s.prepared ++ s.accepted.map Prod.fst,
    s.Own receipt ∧ receipt.commitId.sequence ≤ s.sequence
  distinct : ((s.prepared ++ s.accepted.map Prod.fst).map (·.commitId.sequence)).Nodup

/-- The engine's side: the ledger remembers what was applied for as long as a message may be under way. -/
structure Remembered (s : ReceiptDelivery τ) : Prop where
  past : ∀ record ∈ s.processed, record.now ≤ s.engineNow
  ran : ∀ record ∈ s.processed, s.Own record.receipt → ∀ outcome, record.ran = some outcome →
    ∃ appliedAt, (record.receipt, appliedAt) ∈ s.accepted ∧ appliedAt + s.engineNow ≤ record.now + s.clientNow
  stored : ∀ record ∈ s.processed, s.Own record.receipt → ∀ outcome, record.ran = some outcome →
    s.engineNow - record.now < CommitReceiptLedger.retention →
    s.ledger.entries.lookup record.receipt.commitId = some ⟨record.receipt, outcome, record.now⟩
  known : ∀ id entry, s.ledger.entries.lookup id = some entry → some id.clientInstance = s.clientInstance →
    entry.receipt.commitId = id ∧
      ∃ record ∈ s.processed, record.receipt = entry.receipt ∧ record.ran = some entry.outcome

/-- What holds after every step. -/
structure Sound (s : ReceiptDelivery τ) : Prop where
  issued : s.Issued
  remembered : s.Remembered
  answered : s.Answered s.processed

/-- Commit ids tell the client's accepted receipts apart. -/
theorem Issued.same (issued : s.Issued) {first second : CommitReceipt τ × Nat} (one : first ∈ s.accepted)
    (other : second ∈ s.accepted) (id : first.1.commitId = second.1.commitId) : first = second := by
  have distinct := issued.distinct
  rw [List.map_append, List.map_map] at distinct
  exact List.inj_on_of_nodup_map (List.nodup_append.mp distinct).2.1 one other
    (congrArg CommitId.sequence id)

/-- A receipt of the client that is on its way was applied less than the retention ago. -/
def Recent (s : ReceiptDelivery τ) (receipt : CommitReceipt τ) : Prop :=
  ∃ appliedAt, (receipt, appliedAt) ∈ s.accepted ∧ appliedAt ≤ s.clientNow ∧
    s.clientNow < appliedAt + CommitReceiptLedger.retention

/-- A receipt of this client that reaches the engine was applied less than the retention ago. -/
theorem Issued.recent (issued : s.Issued) {handOver : HandOver τ} (sent : handOver ∈ s.outbox.handOvers)
    (timely : s.clientNow < handOver.now + transit) : s.Recent handOver.receipt := by
  obtain ⟨receipt, appliedAt, found, rfl, before, _⟩ := issued.accounted.handedOver handOver sent
  have member := List.mem_of_getElem? found
  refine ⟨appliedAt, member, issued.applied _ member, ?_⟩
  -- Thirty seconds on the way follow at most thirty seconds in the outbox.
  have both : ReceiptOutbox.lifetime + transit = CommitReceiptLedger.retention := rfl
  omega

/-- Answers stay consistent while the client and the capacity of the ledger are the same. -/
theorem Answered.frame {processed : List (ProcessedReceipt τ)} (answered : s.Answered processed)
    {t : ReceiptDelivery τ} (client : t.clientInstance = s.clientInstance)
    (capacity : t.ledger.capacity = s.ledger.capacity) : t.Answered processed := by
  induction processed with
  | nil => trivial
  | cons record earlier ih =>
    refine ⟨fun own => ?_, ih answered.2⟩
    rw [Own, client] at own
    have consistent := answered.1 own
    exact ⟨consistent.replayed, capacity ▸ consistent.fresh⟩

/-- A receipt of this client that was applied before is among the consistent answers only once. -/
theorem Answered.once {processed : List (ProcessedReceipt τ)} (answered : s.Answered processed)
    {receipt : CommitReceipt τ} (own : s.Own receipt) [DecidableEq τ] :
    processed.countP (fun record => record.receipt = receipt && record.ran.isSome) ≤ 1 := by
  induction processed with
  | nil => exact Nat.zero_le _
  | cons record earlier ih =>
    by_cases ran : (decide (record.receipt = receipt) && record.ran.isSome) = true
    · -- The last answer comes from applying the receipt, so no earlier one does.
      obtain ⟨rfl, applied⟩ : record.receipt = receipt ∧ record.ran.isSome = true := by simpa using ran
      have none : earlier.countP (fun other => other.receipt = record.receipt && other.ran.isSome) = 0 := by
        refine List.countP_eq_zero.mpr fun first member both => ?_
        obtain ⟨same, before⟩ : first.receipt = record.receipt ∧ first.ran.isSome = true := by simpa using both
        obtain ⟨outcome, first_ran⟩ := Option.isSome_iff_exists.mp before
        have again := ((answered.1 own).replayed first member same outcome first_ran).1
        rw [again] at applied
        exact absurd applied Bool.noConfusion
      rw [List.countP_cons, none]
      split <;> omega
    · rw [List.countP_cons, if_neg ran, Nat.add_zero]
      exact ih answered.2

/-- Time passes. -/
theorem Sound.tick (sound : s.Sound) (elapsed : Nat) : (s.tick elapsed).Sound where
  issued :=
    { accounted := sound.issued.accounted
      orderly := sound.issued.orderly
      applied := fun entry member => Nat.le_add_right_of_le (sound.issued.applied entry member)
      own := sound.issued.own
      distinct := sound.issued.distinct }
  remembered :=
    { past := fun record member => Nat.le_add_right_of_le (sound.remembered.past record member)
      ran := by
        intro record member own outcome ran
        obtain ⟨appliedAt, entry, order⟩ := sound.remembered.ran record member own outcome ran
        refine ⟨appliedAt, entry, ?_⟩
        show appliedAt + (s.engineNow + elapsed) ≤ record.now + (s.clientNow + elapsed)
        omega
      stored := by
        intro record member own outcome ran recent
        refine sound.remembered.stored record member own outcome ran (Nat.lt_of_le_of_lt ?_ recent)
        exact Nat.sub_le_sub_right (Nat.le_add_right _ _) _
      known := sound.remembered.known }
  answered := sound.answered.frame rfl rfl

/-- What the client does leaves alone what the engine has seen. -/
theorem Sound.client (sound : s.Sound) (sequence : Nat) (prepared : List (CommitReceipt τ))
    {outbox : ReceiptOutbox τ}
    (issued : Issued { s with sequence := sequence, prepared := prepared, outbox := outbox })
    (grown : ∀ entry ∈ s.accepted, entry ∈ outbox.accepted) :
    Sound { s with sequence := sequence, prepared := prepared, outbox := outbox } where
  issued := issued
  remembered :=
    { past := sound.remembered.past
      ran := by
        intro record member own outcome ran
        obtain ⟨appliedAt, entry, order⟩ := sound.remembered.ran record member own outcome ran
        exact ⟨appliedAt, grown _ entry, order⟩
      stored := sound.remembered.stored
      known := sound.remembered.known }
  answered := sound.answered.frame rfl rfl

/-- The steps of the outbox that accept nothing. -/
theorem Sound.outbox (sound : s.Sound) {op : OutboxOp τ}
    (accepted : (s.outbox.step op).accepted = s.outbox.accepted) :
    Sound { s with outbox := s.outbox.step op } := by
  refine sound.client s.sequence s.prepared ?_ fun entry member => accepted ▸ member
  exact
    { accounted := sound.issued.accounted.step sound.issued.orderly op
      orderly := sound.issued.orderly.step op
      applied := by rw [ReceiptDelivery.accepted, accepted]; exact sound.issued.applied
      own := by rw [ReceiptDelivery.accepted, accepted]; exact sound.issued.own
      distinct := by rw [ReceiptDelivery.accepted, accepted]; exact sound.issued.distinct }

/-- Only a call of the client accepts receipts. -/
theorem step_accepted (outbox : ReceiptOutbox τ) {op : OutboxOp τ}
    (passive : ∀ receipt appliedAt, op ≠ .reserve receipt appliedAt) :
    (outbox.step op).accepted = outbox.accepted := by
  cases op with
  | reserve receipt appliedAt => exact absurd rfl (passive receipt appliedAt)
  | poll now =>
    simp only [ReceiptOutbox.step]
    split
    · unfold ReceiptOutbox.poll
      split
      · rfl
      · split
        · rfl
        · unfold ReceiptOutbox.attempt
          split <;> rfl
    · rfl
  | answer result now later =>
    simp only [ReceiptOutbox.step]
    split
    · unfold ReceiptOutbox.answer
      split
      · rfl
      · rfl
      · dsimp only
        repeat' split
        all_goals rfl
    · rfl
  | settle =>
    simp only [ReceiptOutbox.step]
    split
    · unfold ReceiptOutbox.settle
      dsimp only
      split <;> rfl
    · rfl
  | trySend call =>
    simp only [ReceiptOutbox.step]
    split
    · rfl
    · unfold ReceiptOutbox.trySend
      split <;> rfl
  | clone | drop | disconnect | finish | receive | takeNotice | takeLearningInvalidation =>
    simp only [ReceiptOutbox.step]
    repeat' split
    all_goals rfl

/-- The receipts that are prepared may change with the counter. -/
theorem Sound.prepared (sound : s.Sound) (sequence : Nat) (prepared : List (CommitReceipt τ))
    (own : ∀ receipt ∈ prepared ++ s.accepted.map Prod.fst, s.Own receipt ∧ receipt.commitId.sequence ≤ sequence)
    (distinct : ((prepared ++ s.accepted.map Prod.fst).map (·.commitId.sequence)).Nodup) :
    Sound { s with sequence := sequence, prepared := prepared } :=
  sound.client sequence prepared
    { accounted := sound.issued.accounted
      orderly := sound.issued.orderly
      applied := sound.issued.applied
      own := own
      distinct := distinct } fun _ member => member

/-- A receipt is frozen under a commit id of its own. -/
theorem Sound.prepare [EngineToken τ] (sound : s.Sound) (model : ClauseConversion τ) (text : Text) :
    (s.prepare model text).Sound := by
  unfold ReceiptDelivery.prepare
  split
  · exact sound
  split
  · exact sound
  split
  · exact sound
  · rename_i commitId issued
    -- The id is the next one of the counter, under the client's instance.
    obtain ⟨clientInstance, client, rest⟩ := Option.bind_eq_some_iff.mp issued
    split at rest
    case isFalse => cases rest
    case isTrue =>
      obtain rfl := Option.some.inj rest
      have fresh (receipt : CommitReceipt τ)
          (frozen : receipt ∈ (freeze (some ⟨clientInstance, s.sequence + 1⟩) model text).toList) :
          s.Own receipt ∧ receipt.commitId.sequence = s.sequence + 1 := by
        have id := freeze_commitId (Option.mem_toList.mp frozen)
        exact ⟨by rw [Own, id, client], by rw [id]⟩
      generalize freeze (some ⟨clientInstance, s.sequence + 1⟩) model text = frozen at fresh
      cases frozen with
      | none =>
        rw [Option.toList_none, List.append_nil]
        exact sound.prepared _ _ (fun receipt member =>
          ⟨(sound.issued.own receipt member).1, Nat.le_succ_of_le (sound.issued.own receipt member).2⟩)
          sound.issued.distinct
      | some receipt =>
        obtain ⟨own, next⟩ := fresh receipt (Option.mem_toList.mpr rfl)
        have moved : (s.prepared ++ [receipt] ++ s.accepted.map Prod.fst).Perm
            (receipt :: (s.prepared ++ s.accepted.map Prod.fst)) := by
          rw [List.append_assoc]
          exact List.perm_middle
        refine sound.prepared _ _ (fun other member => ?_) ?_
        · rcases List.mem_cons.mp (moved.mem_iff.mp member) with rfl | before
          · exact ⟨own, Nat.le_of_eq next⟩
          · exact ⟨(sound.issued.own other before).1, Nat.le_succ_of_le (sound.issued.own other before).2⟩
        · -- The ids issued so far are all smaller.
          refine (moved.map _).nodup_iff.mpr (List.nodup_cons.mpr ⟨fun again => ?_, sound.issued.distinct⟩)
          obtain ⟨other, before, same⟩ := List.mem_map.mp again
          have small := (sound.issued.own other before).2
          simp only at same
          omega

/-- A prepared receipt is accepted, unless the outbox is full. -/
theorem Sound.textApplied (sound : s.Sound) (index : Nat) : (s.textApplied index).Sound := by
  unfold ReceiptDelivery.textApplied
  split
  case h_1 => exact sound
  case h_2 receipt found =>
    obtain ⟨within, rfl⟩ := List.getElem?_eq_some_iff.mp found
    have moved := List.getElem_cons_eraseIdx_perm within
    obtain same | more : (s.outbox.step (.reserve s.prepared[index] s.clientNow)).accepted = s.accepted ∨
        (s.outbox.step (.reserve s.prepared[index] s.clientNow)).accepted =
          s.accepted ++ [(s.prepared[index], s.clientNow)] := by
      simp only [ReceiptOutbox.step, ReceiptOutbox.reserve]
      repeat' split
      all_goals first
        | exact .inl rfl
        | exact .inr rfl
    · -- A full outbox drops the receipt.
      have fewer := (List.eraseIdx_sublist s.prepared index).append_right (s.accepted.map Prod.fst)
      refine (sound.outbox same).prepared s.sequence (s.prepared.eraseIdx index) ?_ ?_
      · rw [accepted, same]
        exact fun receipt member => sound.issued.own receipt (fewer.subset member)
      · rw [accepted, same]
        exact sound.issued.distinct.sublist (fewer.map _)
    · -- The receipt goes over from the prepared ones to the accepted ones.
      have moved : (s.prepared.eraseIdx index ++ (s.accepted ++ [(s.prepared[index], s.clientNow)]).map Prod.fst).Perm
          (s.prepared ++ s.accepted.map Prod.fst) := by
        rw [List.map_append, ← List.append_assoc]
        refine (List.perm_append_singleton _ _).trans ?_
        exact (List.getElem_cons_eraseIdx_perm within).append_right _
      refine sound.client s.sequence (s.prepared.eraseIdx index)
        { accounted := sound.issued.accounted.step sound.issued.orderly (.reserve s.prepared[index] s.clientNow)
          orderly := sound.issued.orderly.step (.reserve s.prepared[index] s.clientNow)
          applied := ?_, own := ?_, distinct := ?_ } ?_
      · rw [accepted, more]
        intro entry member
        rcases List.mem_append.mp member with before | new
        · exact sound.issued.applied entry before
        · cases List.mem_singleton.mp new
          exact Nat.le_refl _
      · rw [accepted, more]
        exact fun receipt member => sound.issued.own receipt (moved.mem_iff.mp member)
      · rw [accepted, more]
        exact (moved.map _).nodup_iff.mpr sound.issued.distinct
      · rw [more]
        exact fun entry member => List.mem_append_left _ member

/-- The ledger still knows a recent receipt that was applied. -/
theorem Sound.knows (sound : s.Sound) {receipt : CommitReceipt τ} (own : s.Own receipt) (recent : s.Recent receipt)
    {first : ProcessedReceipt τ} (member : first ∈ s.processed) (same : first.receipt = receipt)
    {outcome : ReceiptStatus} (ran : first.ran = some outcome) :
    (s.ledger.live s.engineNow).lookup receipt.commitId = some ⟨receipt, outcome, first.now⟩ := by
  subst same
  obtain ⟨appliedAt, accepted, _, soon⟩ := recent
  obtain ⟨appliedAt', accepted', order⟩ := sound.remembered.ran first member own outcome ran
  -- Both times are those of the one call that accepted the receipt.
  cases sound.issued.same accepted accepted' rfl
  have past := sound.remembered.past first member
  have young : s.engineNow - first.now < CommitReceiptLedger.retention := by omega
  exact CommitReceiptLedger.lookup_live.mpr ⟨sound.remembered.stored first member own outcome ran young, young⟩

/-- Under the commit id of a receipt of the client the ledger knows at most that receipt, once it was applied. -/
theorem Sound.known (sound : s.Sound) {receipt : CommitReceipt τ} (own : s.Own receipt) (recent : s.Recent receipt)
    {prior : LedgerEntry τ} (live : (s.ledger.live s.engineNow).lookup receipt.commitId = some prior) :
    prior.receipt = receipt ∧ ∃ first ∈ s.processed, first.receipt = receipt ∧ first.ran = some prior.outcome := by
  obtain ⟨id, first, member, same, ran⟩ :=
    sound.remembered.known _ prior (CommitReceiptLedger.lookup_live.mp live).1 own
  have firstOwn : s.Own first.receipt := by rw [Own, same, id]; exact own
  obtain ⟨appliedAt, accepted, _⟩ := recent
  obtain ⟨appliedAt', accepted', _⟩ := sound.remembered.ran first member firstOwn _ ran
  cases sound.issued.same accepted accepted' ((congrArg CommitReceipt.commitId same).trans id).symm
  exact ⟨same.symm, first, member, rfl, ran⟩

/-- A processed receipt is remembered, and its answer is consistent. -/
theorem Sound.recorded (sound : s.Sound) (record : ProcessedReceipt τ) {ledger : CommitReceiptLedger τ}
    (now : record.now = s.engineNow) (capacity : ledger.capacity = s.ledger.capacity)
    (kept : ∀ id entry, (s.ledger.live s.engineNow).lookup id = some entry → ledger.entries.lookup id = some entry)
    (known : ∀ id entry, ledger.entries.lookup id = some entry →
      (s.ledger.live s.engineNow).lookup id = some entry ∨ (id = record.receipt.commitId ∧
        entry.receipt = record.receipt ∧ record.ran = some entry.outcome))
    (stored : ∀ outcome, record.ran = some outcome →
      ledger.entries.lookup record.receipt.commitId = some ⟨record.receipt, outcome, record.now⟩)
    (recent : s.Own record.receipt → s.Recent record.receipt)
    (consistent : s.Own record.receipt → s.Consistent s.processed record) :
    Sound { s with ledger := ledger, processed := record :: s.processed } where
  issued :=
    { accounted := sound.issued.accounted
      orderly := sound.issued.orderly
      applied := sound.issued.applied
      own := sound.issued.own
      distinct := sound.issued.distinct }
  remembered :=
    { past := by
        intro other member
        rcases List.mem_cons.mp member with rfl | before
        · exact Nat.le_of_eq now
        · exact sound.remembered.past other before
      ran := by
        intro other member own outcome ran
        rcases List.mem_cons.mp member with rfl | before
        · obtain ⟨appliedAt, accepted, order, _⟩ := recent own
          exact ⟨appliedAt, accepted, by show appliedAt + s.engineNow ≤ other.now + s.clientNow; omega⟩
        · exact sound.remembered.ran other before own outcome ran
      stored := by
        intro other member own outcome ran young
        rcases List.mem_cons.mp member with rfl | before
        · exact stored outcome ran
        · exact kept _ _ (CommitReceiptLedger.lookup_live.mpr
            ⟨sound.remembered.stored other before own outcome ran young, young⟩)
      known := by
        intro id entry found own
        rcases known id entry found with before | ⟨rfl, same, ran⟩
        · obtain ⟨same, first, member, rest⟩ :=
            sound.remembered.known id entry (CommitReceiptLedger.lookup_live.mp before).1 own
          exact ⟨same, first, List.mem_cons_of_mem _ member, rest⟩
        · exact ⟨by rw [same], record, List.mem_cons_self, same.symm, ran⟩ }
  answered :=
    ⟨fun own => ⟨(consistent own).replayed, capacity ▸ (consistent own).fresh⟩, sound.answered.frame rfl capacity⟩

/-- The engine processes a receipt, which is recent if it is the client's. -/
theorem Sound.process [DecidableEq τ] (sound : s.Sound) {receipt : CommitReceipt τ} (outcome : ReceiptStatus)
    (recent : s.Own receipt → s.Recent receipt) : (s.process receipt outcome).Sound := by
  unfold ReceiptDelivery.process
  have kept : ∀ id entry, (s.ledger.live s.engineNow).lookup id = some entry →
      (s.ledger.process receipt s.engineNow (fun _ => (outcome, some outcome)) none).2.1.entries.lookup id =
        some entry :=
    fun id entry stored => CommitReceiptLedger.process_keeps stored _ _
  cases live : (s.ledger.live s.engineNow).lookup receipt.commitId with
  | some prior =>
    by_cases same : prior.receipt = receipt
    · rw [CommitReceiptLedger.process_repeated live same] at kept ⊢
      refine sound.recorded _ rfl rfl kept (fun id entry found => .inl found) nofun recent fun own => ⟨?_, ?_⟩
      · -- What the ledger knows is the first outcome.
        intro first member repeated before ran
        have found := sound.knows own (recent own) member repeated ran
        rw [live] at found
        have outcome : prior.outcome = before := congrArg LedgerEntry.outcome (Option.some.inj found)
        exact ⟨rfl, congrArg CommitReceiptLedger.replay outcome⟩
      · intro never
        obtain ⟨_, first, member, repeated, ran⟩ := sound.known own (recent own) live
        exact absurd ((never first member repeated).symm.trans ran) nofun
    · rw [CommitReceiptLedger.process_conflicting live same] at kept ⊢
      refine sound.recorded _ rfl rfl kept (fun id entry found => .inl found) nofun recent fun own => ?_
      exact absurd (sound.known own (recent own) live).1 same
  | none =>
    -- Nothing of a receipt that is new to the ledger was applied before.
    have unknown (own : s.Own receipt) (first : ProcessedReceipt τ) (member : first ∈ s.processed)
        (repeated : first.receipt = receipt) (before : ReceiptStatus) : first.ran ≠ some before := fun ran =>
      absurd (live.symm.trans (sound.knows own (recent own) member repeated ran)) nofun
    by_cases full : s.ledger.capacity ≤ (s.ledger.live s.engineNow).entries.length
    · rw [CommitReceiptLedger.process_full live full] at kept ⊢
      exact sound.recorded _ rfl rfl kept (fun id entry found => .inl found) nofun recent fun own =>
        ⟨fun first member repeated before ran => absurd ran (unknown own first member repeated before),
          fun _ => .inr ⟨full, rfl, rfl⟩⟩
    · rw [CommitReceiptLedger.process_new live (Nat.lt_of_not_le full)] at kept ⊢
      refine sound.recorded _ rfl rfl kept ?_ ?_ recent fun own =>
        ⟨fun first member repeated before ran => absurd ran (unknown own first member repeated before),
          fun _ => .inl ⟨Nat.lt_of_not_le full, rfl⟩⟩
      · intro id entry found
        rcases Table.lookup_insert_cases found with ⟨rfl, rfl⟩ | ⟨_, before⟩
        · exact .inr ⟨rfl, rfl, rfl⟩
        · exact .inl before
      · intro given ran
        obtain rfl := Option.some.inj ran
        exact AList.lookup_insert _

/-- Every step keeps the system sound. -/
theorem Sound.step [DecidableEq τ] [EngineToken τ] (sound : s.Sound) (op : DeliveryOp τ) : (s.step op).Sound := by
  cases op with
  | tick elapsed => exact sound.tick elapsed
  | prepare model text => exact sound.prepare model text
  | textApplied index => exact sound.textApplied index
  | poll => exact sound.outbox (step_accepted _ fun _ _ => nofun)
  | answer result elapsed =>
    have same : (s.outbox.step (.answer result s.clientNow (s.clientNow + elapsed))).accepted = s.outbox.accepted :=
      step_accepted _ fun _ _ => nofun
    exact (sound.outbox same).tick elapsed
  | other op =>
    unfold ReceiptDelivery.step
    dsimp only
    split
    case isTrue => exact sound
    case isFalse passive => exact sound.outbox (step_accepted _ fun receipt appliedAt same => passive (same ▸ rfl))
  | deliver index outcome =>
    unfold ReceiptDelivery.step
    dsimp only
    split
    case h_1 => exact sound
    case h_2 handOver found =>
      split
      case isTrue timely =>
        exact sound.process outcome fun _ => sound.issued.recent (List.mem_of_getElem? found) timely
      case isFalse => exact sound
  | processForeign receipt outcome =>
    unfold ReceiptDelivery.step
    dsimp only
    split
    case isTrue => exact sound
    case isFalse foreign => exact sound.process outcome fun own => absurd own foreign

/-- A system that has just started is sound. -/
theorem start_sound (clientInstance : Option Text) (capacity clientNow engineNow : Nat) :
    (start clientInstance capacity clientNow engineNow : ReceiptDelivery τ).Sound where
  issued :=
    { accounted := ReceiptOutbox.start_accounted
      orderly := ReceiptOutbox.start_orderly
      applied := nofun
      own := nofun
      distinct := List.nodup_nil }
  remembered :=
    { past := nofun
      ran := nofun
      stored := nofun
      known := fun _ _ found => absurd found nofun }
  answered := trivial

end ReceiptDelivery

end Nospacekey
