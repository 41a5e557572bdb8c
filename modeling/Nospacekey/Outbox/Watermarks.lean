import Nospacekey.Clause.Requests
import Nospacekey.Library.Runs
import Nospacekey.Outbox.Transport

/-! The rejected generations of each epoch, and the deliveries that raise them. -/

namespace Nospacekey

open Runs ReceiptConnection

namespace ReceiptOutbox

section Identities

variable {τ : Type} {s : ReceiptOutbox τ}

/-- The generation up to which an epoch's learning material has been rejected. -/
def watermark (s : ReceiptOutbox τ) (epoch : Text) : Option Nat := s.rejectedGenerations.lookup epoch

def rejectsIdentity (s : ReceiptOutbox τ) (identity : EngineLearningIdentity) : Bool :=
  (s.watermark identity.engineEpoch).any fun generation => identity.learningGeneration ≤ generation

/-- Whatever a watermark rejects it rejects in every earlier generation too. -/
theorem rejectsIdentity_of_le {identity older : EngineLearningIdentity} (rejected : s.rejectsIdentity identity = true)
    (epoch : older.engineEpoch = identity.engineEpoch)
    (earlier : older.learningGeneration ≤ identity.learningGeneration) : s.rejectsIdentity older = true := by
  unfold rejectsIdentity at rejected ⊢
  rw [epoch]
  obtain ⟨generation, stored, reached⟩ := (Option.any_eq_true _ _).mp rejected
  rw [stored]
  exact decide_eq_true (earlier.trans (of_decide_eq_true reached))

variable [EngineToken τ]

/-- Watermarks outlive their notification, so that a late snapshot cannot bring rejected material back. -/
def invalidateModel (s : ReceiptOutbox τ) (model : ClauseConversion τ) : ClauseConversion τ × Bool :=
  if model.learningIdentity.any s.rejectsIdentity then (model.invalidateLearning, true) else (model, false)

def configureModel (s : ReceiptOutbox τ) (model : ClauseConversion τ) (identity : Option EngineLearningIdentity) :
    ClauseConversion τ :=
  -- A delayed, rejected acknowledgement cannot retire newer candidates.
  if identity.any s.rejectsIdentity then (s.invalidateModel model).1 else model.configuredLearningIdentity identity

omit [EngineToken τ] in
/-- An invalidated model holds no rejected identity. -/
theorem invalidateModel_unrejected (s : ReceiptOutbox τ) (model : ClauseConversion τ) :
    (s.invalidateModel model).1.learningIdentity.any s.rejectsIdentity = false := by
  unfold invalidateModel
  split
  · rfl
  · rename_i kept
    exact Bool.eq_false_iff.mpr kept

omit [EngineToken τ] in
/-- A refreshed identity is taken over, or the model keeps one that it does not continue. -/
theorem refreshLearningIdentity_learningIdentity (model : ClauseConversion τ) (identity : EngineLearningIdentity) :
    (model.refreshLearningIdentity identity).learningIdentity = some identity ∨
      (model.refreshLearningIdentity identity).learningIdentity = model.learningIdentity ∧
        model.continuesLearning identity = false := by
  by_cases same : model.learningIdentity = some identity
  · rw [ClauseConversion.refreshLearningIdentity, if_pos same]
    exact .inl same
  · cases continues : model.continuesLearning identity with
    | false =>
      rw [ClauseConversion.refreshLearningIdentity, if_neg same, continues]
      exact .inr ⟨rfl, rfl⟩
    | true =>
      rw [ClauseConversion.refreshLearningIdentity, if_neg same, if_neg (by simp [continues])]
      left
      dsimp only
      split <;> rfl

omit [EngineToken τ] in
/-- A configured model holds no rejected identity, however late its acknowledgement is. -/
theorem configureModel_unrejected (s : ReceiptOutbox τ) (model : ClauseConversion τ)
    (identity : Option EngineLearningIdentity) :
    (s.configureModel model identity).learningIdentity.any s.rejectsIdentity = false := by
  unfold configureModel
  split
  · exact s.invalidateModel_unrejected model
  · rename_i accepted
    cases identity with
    | none => rfl
    | some identity =>
      have fresh : s.rejectsIdentity identity = false := by simpa using accepted
      simp only [ClauseConversion.configuredLearningIdentity]
      generalize settledEq : (if model.learningIdentity.any (fun old => old.engineEpoch ≠ identity.engineEpoch)
        then model.invalidateLearning else model) = settled
      have epoch : settled.learningIdentity.all fun old => old.engineEpoch = identity.engineEpoch := by
        rw [← settledEq]
        split
        · rfl
        · rename_i same
          simpa [Option.any_eq_true, Option.all_eq_true] using same
      obtain taken | ⟨kept, newer⟩ := refreshLearningIdentity_learningIdentity settled identity
      · simp [taken, fresh]
      · -- An identity that is kept is of a newer generation than one that is not rejected.
        rw [kept]
        cases held : settled.learningIdentity with
        | none => rfl
        | some old =>
          rw [held] at epoch
          have same : old.engineEpoch = identity.engineEpoch := by simpa using epoch
          have later : identity.learningGeneration ≤ old.learningGeneration := by
            have refused := newer
            simp only [ClauseConversion.continuesLearning, held, same, Option.all_some, decide_true, Bool.true_and,
              decide_eq_false_iff_not, not_le] at refused
            exact refused.le
          refine Bool.eq_false_iff.mpr fun rejected => ?_
          have rejectsNew := rejectsIdentity_of_le (by simpa using rejected) same.symm later
          simp [fresh] at rejectsNew

end Identities

section Steps

variable {τ : Type} {s : ReceiptOutbox τ}

/-- A step leaves every watermark, or publishes a fate that raises the one of its receipt's epoch. -/
theorem step_rejectedGenerations (s : ReceiptOutbox τ) (op : OutboxOp τ) :
    (s.step op).rejectedGenerations = s.rejectedGenerations ∨
      ∃ parcel fate now generation, op = .settle ∧ s.worker = .settling parcel fate now ∧
        fate.rejectedGeneration parcel.delivery.receipt = some generation ∧
        (s.step op).rejectedGenerations = AList.insert parcel.delivery.receipt.engineEpoch
          (max ((s.watermark parcel.delivery.receipt.engineEpoch).getD 0) generation) s.rejectedGenerations := by
  cases op with
  | settle =>
    cases standing : s.worker with
    | settling parcel fate now =>
      have settled : s.step .settle = s.settle parcel fate now := by simp only [step, standing]
      rw [settled, settle]
      cases raised : fate.rejectedGeneration parcel.delivery.receipt with
      | none => exact .inl rfl
      | some generation => exact .inr ⟨parcel, fate, now, generation, rfl, rfl, raised, rfl⟩
    | _ => simp [step, standing]
  | answer result now later =>
    left
    cases standing : s.worker with
    | delivering parcel =>
      simp only [step, standing, answer]
      cases result with
      | retry => dsimp only; split <;> [rfl; split <;> rfl]
      | _ => rfl
    | _ => simp [step, standing]
  | poll now =>
    left
    simp only [step]
    split
    · unfold poll
      split
      · rfl
      · split
        · rfl
        · unfold attempt
          split <;> rfl
    · rfl
  | trySend call =>
    left
    simp only [step]
    split
    · rfl
    · unfold ReceiptOutbox.trySend
      split <;> rfl
  | reserve receipt appliedAt =>
    left
    simp only [step]
    split
    · unfold ReceiptOutbox.reserve
      split <;> rfl
    · rfl
  | _ =>
    left
    simp only [step]
    repeat' split
    all_goals rfl

/-- A watermark that a step changes is raised to the generation that the worker's fate rejects. -/
theorem step_watermark (s : ReceiptOutbox τ) (op : OutboxOp τ) (epoch : Text) :
    (s.step op).watermark epoch = s.watermark epoch ∨
      ∃ parcel fate now generation, op = .settle ∧ s.worker = .settling parcel fate now ∧
        fate.rejectedGeneration parcel.delivery.receipt = some generation ∧
        parcel.delivery.receipt.engineEpoch = epoch ∧
        (s.step op).watermark epoch = some (max ((s.watermark epoch).getD 0) generation) := by
  obtain same | ⟨parcel, fate, now, generation, rfl, standing, raises, inserted⟩ := s.step_rejectedGenerations op
  · exact .inl (by rw [watermark, watermark, same])
  · by_cases own : parcel.delivery.receipt.engineEpoch = epoch
    · refine .inr ⟨parcel, fate, now, generation, rfl, standing, raises, own, ?_⟩
      rw [watermark, inserted, own]
      exact AList.lookup_insert _
    · left
      rw [watermark, inserted, watermark]
      exact AList.lookup_insert_ne (Ne.symm own)

/-- A watermark never falls. -/
theorem step_watermark_le (s : ReceiptOutbox τ) (op : OutboxOp τ) {epoch : Text} {generation : Nat}
    (stored : s.watermark epoch = some generation) :
    ∃ later, (s.step op).watermark epoch = some later ∧ generation ≤ later := by
  obtain same | ⟨_, _, _, rejected, _, _, _, _, raised⟩ := s.step_watermark op epoch
  · exact ⟨generation, same.trans stored, le_rfl⟩
  · rw [stored, Option.getD_some] at raised
    exact ⟨_, raised, le_max_left _ _⟩

end Steps

end ReceiptOutbox

/-- The answer of the transport that a fate publishes, if any. -/
def Fate.verdict : Fate → Option DeliveryResult
  | .acknowledged status => some (.acknowledged status)
  | .epochChanged => some .epochChanged
  | _ => none

namespace ReceiptOutbox

section Standing

variable {τ : Type} {s : ReceiptOutbox τ}

/-- The worker comes to stand at a fate without a verdict unless the transport has answered. -/
theorem step_settling {op : OutboxOp τ} (silent : ∀ result now later, op ≠ .answer result now later)
    {parcel : Parcel τ} {fate : Fate} {now : Nat} (stands : (s.step op).worker = .settling parcel fate now) :
    s.worker = .settling parcel fate now ∨ fate.verdict = none := by
  cases op with
  | answer result now later => exact absurd rfl (silent result now later)
  | settle =>
    cases standing : s.worker with
    | settling held reached at' =>
      simp only [step, standing, settle] at stands
      cases stands
    | _ =>
      simp only [step, standing] at stands
      cases stands
  | poll now =>
    simp only [step] at stands
    split at stands
    · rename_i polling
      unfold poll at stands
      split at stands
      · exact .inl stands
      · split at stands
        · exact .inl stands
        · unfold attempt at stands
          split at stands
          · cases stands
            exact .inr rfl
          · cases stands
    · exact .inl stands
  | trySend call =>
    simp only [step] at stands
    split at stands
    · exact .inl stands
    · unfold ReceiptOutbox.trySend at stands
      split at stands <;> exact .inl stands
  | reserve receipt appliedAt =>
    simp only [step] at stands
    split at stands
    · unfold ReceiptOutbox.reserve at stands
      split at stands <;> exact .inl stands
    · exact .inl stands
  | _ =>
    simp only [step] at stands
    repeat' split at stands
    all_goals first | exact .inl stands | cases stands

/-- The worker delivers what it has handed over last. -/
def HandsOver (s : ReceiptOutbox τ) : Prop :=
  ∀ parcel, s.worker = .delivering parcel →
    ∃ handOver, s.handOvers.getLast? = some handOver ∧ handOver.receipt = parcel.delivery.receipt

/-- A step that leaves the worker delivering leaves its hand-over, or hands over what it delivers. -/
theorem step_delivering {op : OutboxOp τ} {parcel : Parcel τ} (stands : (s.step op).worker = .delivering parcel) :
    (s.worker = .delivering parcel ∧ (s.step op).handOvers = s.handOvers) ∨
      ∃ handOver, (s.step op).handOvers = s.handOvers ++ [handOver] ∧
        handOver.receipt = parcel.delivery.receipt := by
  cases op with
  | poll now =>
    cases standing : s.worker with
    | polling =>
      have polled : s.step (.poll now) = s.poll now := by simp only [step, standing]
      rw [polled] at stands ⊢
      unfold poll at stands ⊢
      cases first : s.pending.findIdx? fun parcel => parcel.delivery.isDue now with
      | none => simp [first, standing] at stands
      | some index =>
        cases found : s.pending[index]? with
        | none => simp [first, found, standing] at stands
        | some taken =>
          simp only [first, found, attempt] at stands ⊢
          split at stands
          · cases stands
          · rename_i later
            cases stands
            rw [if_neg later]
            exact .inr ⟨_, rfl, rfl⟩
    | _ =>
      simp only [step, standing] at stands ⊢
      exact .inl ⟨stands, trivial⟩
  | answer result now later =>
    cases standing : s.worker with
    | delivering held =>
      simp only [step, standing, answer] at stands
      cases result with
      | retry =>
        simp only at stands
        split at stands
        · cases stands
        · split at stands <;> cases stands
      | _ => cases stands
    | _ =>
      simp only [step, standing] at stands
      cases stands
  | settle =>
    cases standing : s.worker with
    | settling held fate at' =>
      simp only [step, standing, settle] at stands
      cases stands
    | _ =>
      simp only [step, standing] at stands ⊢
      exact .inl ⟨stands, trivial⟩
  | reserve receipt appliedAt =>
    simp only [step, ReceiptOutbox.reserve] at stands ⊢
    repeat' split at stands
    all_goals exact .inl ⟨stands, by simp [*]⟩
  | trySend call =>
    simp only [step, ReceiptOutbox.trySend] at stands ⊢
    repeat' split at stands
    all_goals exact .inl ⟨stands, by simp [*]⟩
  | _ =>
    simp only [step] at stands ⊢
    repeat' split at stands
    all_goals first | exact .inl ⟨stands, by simp [*]⟩ | cases stands

/-- A step hands over what it makes the worker deliver. -/
theorem HandsOver.step (hands : s.HandsOver) (op : OutboxOp τ) : (s.step op).HandsOver := by
  intro parcel stands
  obtain ⟨before, kept⟩ | ⟨handOver, handed, receipt⟩ := step_delivering stands
  · rw [kept]
    exact hands parcel before
  · exact ⟨handOver, by rw [handed]; exact List.getLast?_concat, receipt⟩

/-- The fate that an answer leads to publishes that answer, if any. -/
theorem answer_settling {parcel held : Parcel τ} {result : DeliveryResult} {now later at' : Nat} {fate : Fate}
    (stands : (s.answer parcel result now later).worker = .settling held fate at') :
    held.delivery.receipt = parcel.delivery.receipt ∧
      ∀ verdict, fate.verdict = some verdict → verdict = result := by
  cases result with
  | acknowledged status =>
    cases stands
    exact ⟨rfl, fun _ same => (Option.some.inj same).symm⟩
  | epochChanged =>
    cases stands
    exact ⟨rfl, fun _ same => (Option.some.inj same).symm⟩
  | retry =>
    have receipt : (parcel.delivery.retry now).1.receipt = parcel.delivery.receipt := by
      unfold Delivery.retry
      split <;> rfl
    simp only [answer] at stands
    split at stands
    · cases stands
    · split at stands <;>
      · cases stands
        exact ⟨receipt, nofun⟩

end Standing

end ReceiptOutbox

/-- The outbox with the transport that its worker delivers over. -/
structure ConnectedOutbox (γ τ : Type) where
  outbox : ReceiptOutbox τ
  transport : EngineReceiptTransport γ
  /-- The deliveries made so far, each with its receipt. -/
  calls : List (CommitReceipt τ × TransportCall γ τ)

/-- One atomic step of the outbox, or a delivery with its clock readings: those of the attempts to
connect, and those of the worker after it. -/
inductive ConnectedOp (τ : Type) where
  | outbox (op : OutboxOp τ)
  | deliver (connecting reconnecting now later : Nat)

namespace ConnectedOutbox

variable {γ τ : Type}

/-- An outbox that has just been started over a transport. -/
def start (transport : EngineReceiptTransport γ) : ConnectedOutbox γ τ where
  outbox := .start
  transport := transport
  calls := []

section System

variable [ReceiptConnection γ τ]

/-- The worker answers only as its transport does. -/
def step (s : ConnectedOutbox γ τ) : ConnectedOp τ → ConnectedOutbox γ τ
  | .outbox op =>
    match op with
    | .answer .. => s
    | op => { s with outbox := s.outbox.step op }
  | .deliver connecting reconnecting now later =>
    match s.outbox.worker, s.outbox.handOvers.getLast? with
    | .delivering parcel, some handOver =>
      let receipt := parcel.delivery.receipt
      let call := s.transport.deliver receipt handOver.deadline connecting reconnecting
      { outbox := s.outbox.step (.answer call.result now later)
        transport := call.transport
        calls := s.calls ++ [(receipt, call)] }
    | _, _ => s

/-- The worker publishes nothing but the result of the last delivery, and every delivery is careful. -/
structure Verdicts (s : ConnectedOutbox γ τ) : Prop where
  careful : ∀ call ∈ s.calls, call.2.Careful call.1
  handsOver : s.outbox.HandsOver
  published : ∀ parcel fate now result, s.outbox.worker = .settling parcel fate now →
    fate.verdict = some result →
      ∃ call, s.calls.getLast? = some (parcel.delivery.receipt, call) ∧ call.result = result

/-- A step either performs one of the outbox that no transport answers, or a delivery, or nothing. -/
theorem step_cases (s : ConnectedOutbox γ τ) (op : ConnectedOp τ) :
    s.step op = s ∨
      (∃ inner, op = .outbox inner ∧ (∀ result now later, inner ≠ .answer result now later) ∧
        s.step op = { s with outbox := s.outbox.step inner }) ∨
      ∃ parcel handOver connecting reconnecting now later, s.outbox.worker = .delivering parcel ∧
        let call := s.transport.deliver parcel.delivery.receipt handOver connecting reconnecting
        op = .deliver connecting reconnecting now later ∧
        s.step op =
          { outbox := s.outbox.step (.answer call.result now later)
            transport := call.transport
            calls := s.calls ++ [(parcel.delivery.receipt, call)] } := by
  cases op with
  | outbox inner =>
    cases inner with
    | answer => exact .inl rfl
    | _ => exact .inr (.inl ⟨_, rfl, nofun, rfl⟩)
  | deliver connecting reconnecting now later =>
    cases standing : s.outbox.worker with
    | delivering parcel =>
      cases last : s.outbox.handOvers.getLast? with
      | none => exact .inl (by simp only [step, standing, last])
      | some handOver =>
        refine .inr (.inr ⟨parcel, handOver.deadline, connecting, reconnecting, now, later, rfl, rfl, ?_⟩)
        simp only [step, standing, last]
    | _ => exact .inl (by simp only [step, standing])

/-- What the worker publishes stays the result of the last delivery. -/
theorem Verdicts.step {s : ConnectedOutbox γ τ} (verdicts : s.Verdicts) (op : ConnectedOp τ) :
    (s.step op).Verdicts := by
  obtain same | ⟨inner, _, silent, stepped⟩ |
    ⟨parcel, deadline, connecting, reconnecting, now, later, delivering, _, stepped⟩ := s.step_cases op
  · rwa [same]
  · rw [stepped]
    refine ⟨verdicts.careful, verdicts.handsOver.step inner, fun parcel fate now result standing verdict => ?_⟩
    obtain before | unanswered := ReceiptOutbox.step_settling silent standing
    · exact verdicts.published parcel fate now result before verdict
    · rw [unanswered] at verdict
      cases verdict
  · rw [stepped]
    constructor
    · intro call member
      obtain earlier | last := List.mem_append.mp member
      · exact verdicts.careful call earlier
      · rw [List.mem_singleton.mp last]
        exact s.transport.deliver_careful parcel.delivery.receipt deadline connecting reconnecting
    · exact verdicts.handsOver.step _
    · intro held fate at' result standing verdict
      simp only [ReceiptOutbox.step, delivering] at standing
      obtain ⟨receipt, same⟩ := ReceiptOutbox.answer_settling standing
      exact ⟨_, by rw [receipt]; exact List.getLast?_concat, (same result verdict).symm⟩

/-- In every run over a transport each published verdict is that of a careful delivery. -/
theorem run_verdicts (transport : EngineReceiptTransport γ) (ops : List (ConnectedOp τ)) :
    (exec step (start transport) ops).Verdicts :=
  exec_invariant_all Verdicts (fun _ op held => held.step op)
    ⟨fun _ member => (by cases member), fun _ standing => (by cases standing),
      fun _ _ _ _ standing => (by cases standing)⟩ ops

/-- A watermark changes only with a step of the outbox. -/
theorem step_watermark (s : ConnectedOutbox γ τ) (op : ConnectedOp τ) :
    (s.step op).outbox.rejectedGenerations = s.outbox.rejectedGenerations ∨
      ∃ inner, op = .outbox inner ∧ (s.step op).outbox = s.outbox.step inner := by
  obtain same | ⟨inner, performed, _, stepped⟩ |
    ⟨parcel, deadline, connecting, reconnecting, now, later, _, _, stepped⟩ := s.step_cases op
  · exact .inl (by rw [same])
  · exact .inr ⟨inner, performed, by rw [stepped]⟩
  · left
    generalize s.transport.deliver parcel.delivery.receipt deadline connecting reconnecting = call at stepped
    rw [stepped]
    obtain kept | ⟨_, _, _, _, settles, _⟩ := s.outbox.step_rejectedGenerations (.answer call.result now later)
    · exact kept
    · cases settles

/-- What holds of the watermarks between any two steps of an outbox over its transport. -/
structure Watermarked (s : ConnectedOutbox γ τ) : Prop where
  careful : ∀ call ∈ s.calls, call.2.Careful call.1
  /-- A delivering worker has the transport deliver the receipt it has handed over last. -/
  delivers : ∀ parcel, s.outbox.worker = .delivering parcel →
    ∃ handOver, s.outbox.handOvers.getLast? = some handOver ∧ handOver.receipt = parcel.delivery.receipt ∧
      ∀ connecting reconnecting now later, (s.step (.deliver connecting reconnecting now later)).calls =
        s.calls ++ [(handOver.receipt,
          s.transport.deliver handOver.receipt handOver.deadline connecting reconnecting)]
  /-- No run of further steps lowers a watermark. -/
  rises : ∀ ops epoch generation, s.outbox.watermark epoch = some generation →
    ∃ later, (exec step s ops).outbox.watermark epoch = some later ∧ generation ≤ later
  /-- A watermark is raised by what the last delivery concluded for a receipt of its epoch. -/
  raised : ∀ op epoch generation, (s.step op).outbox.watermark epoch = some generation →
    s.outbox.watermark epoch ≠ some generation →
    ∃ receipt call, s.calls.getLast? = some (receipt, call) ∧ receipt.engineEpoch = epoch ∧
      ((call.result = .epochChanged ∧ generation = 2 ^ 64 - 1 ∧
          ∃ timeout deadline fresh, .connect timeout deadline (some fresh) ∈ call.events ∧ fresh ≠ epoch) ∨
        (call.result = .acknowledged (.rejected .staleLearningGeneration) ∧
          generation = receipt.learningGeneration))
  /-- What is rejected once stays rejected. -/
  rejects : ∀ ops identity, s.outbox.rejectsIdentity identity = true →
    (exec step s ops).outbox.rejectsIdentity identity = true
  downward : ∀ identity older : EngineLearningIdentity, older.engineEpoch = identity.engineEpoch →
    older.learningGeneration ≤ identity.learningGeneration →
    s.outbox.rejectsIdentity identity = true → s.outbox.rejectsIdentity older = true

/-- No run lowers a watermark. -/
theorem exec_watermark_le (ops : List (ConnectedOp τ)) {s : ConnectedOutbox γ τ} {epoch : Text} {generation : Nat}
    (stored : s.outbox.watermark epoch = some generation) :
    ∃ later, (exec step s ops).outbox.watermark epoch = some later ∧ generation ≤ later := by
  refine exec_invariant_all
    (fun s : ConnectedOutbox γ τ => ∃ later, s.outbox.watermark epoch = some later ∧ generation ≤ later)
    (fun s op held => ?_) ⟨generation, stored, le_rfl⟩ ops
  obtain ⟨reached, stored, above⟩ := held
  obtain same | ⟨inner, _, stepped⟩ := s.step_watermark op
  · exact ⟨reached, by rwa [ReceiptOutbox.watermark, same], above⟩
  · rw [stepped]
    obtain ⟨later, raised, more⟩ := s.outbox.step_watermark_le inner stored
    exact ⟨later, raised, above.trans more⟩

/-- A raised watermark is the generation that the last delivery's verdict rejects. -/
theorem Verdicts.raised {s : ConnectedOutbox γ τ} (verdicts : s.Verdicts) (op : ConnectedOp τ) {epoch : Text}
    {generation : Nat} (after : (s.step op).outbox.watermark epoch = some generation)
    (before : s.outbox.watermark epoch ≠ some generation) :
    ∃ receipt call, s.calls.getLast? = some (receipt, call) ∧ receipt.engineEpoch = epoch ∧
      ((call.result = .epochChanged ∧ generation = 2 ^ 64 - 1 ∧
          ∃ timeout deadline fresh, .connect timeout deadline (some fresh) ∈ call.events ∧ fresh ≠ epoch) ∨
        (call.result = .acknowledged (.rejected .staleLearningGeneration) ∧
          generation = receipt.learningGeneration)) := by
  obtain same | ⟨inner, _, stepped⟩ := s.step_watermark op
  · exact absurd (by rwa [ReceiptOutbox.watermark, same] at after) before
  rw [stepped] at after
  obtain same | ⟨parcel, fate, now, rejected, _, standing, raises, own, reached⟩ :=
    s.outbox.step_watermark inner epoch
  · exact absurd (same ▸ after) before
  -- The larger of the two generations is the new one, as the watermark has changed.
  have chosen : generation = rejected := by
    rw [reached] at after
    have larger := Option.some.inj after
    cases stored : s.outbox.watermark epoch with
    | none => simpa [stored] using larger.symm
    | some old =>
      rw [stored, Option.getD_some] at larger
      rw [stored] at before
      have other : old ≠ generation := fun same => before (congrArg some same)
      omega
  subst chosen
  cases fate with
  | epochChanged =>
    obtain ⟨call, last, result⟩ := verdicts.published parcel _ now _ standing rfl
    obtain ⟨timeout, deadline, fresh, connected, differs⟩ :=
      (verdicts.careful _ (List.mem_of_getLast? last)).condemns result
    exact ⟨_, call, last, own, .inl ⟨result, (Option.some.inj raises).symm, timeout, deadline, fresh, connected,
      own ▸ differs⟩⟩
  | acknowledged status =>
    obtain ⟨call, last, result⟩ := verdicts.published parcel _ now _ standing rfl
    cases status with
    | rejected reason =>
      cases reason with
      | staleLearningGeneration => exact ⟨_, call, last, own, .inr ⟨result, (Option.some.inj raises).symm⟩⟩
      | _ => cases raises
    | _ => cases raises
  | _ => cases raises

/-- One delivery over any transport is careful, and in every run of the outbox over it the watermarks
only rise, each by such a delivery's verdict, and reject ever more. -/
theorem run_watermarked (transport : EngineReceiptTransport γ) (ops : List (ConnectedOp τ)) :
    (∀ receipt deadline now later, (transport.deliver receipt deadline now later).Careful receipt) ∧
      (exec step (start transport) ops).Watermarked := by
  refine ⟨transport.deliver_careful, ?_⟩
  have verdicts := run_verdicts transport ops
  generalize exec step (start transport) ops = s at verdicts
  refine
    { careful := verdicts.careful, delivers := fun parcel standing => ?_,
      rises := fun ops _ _ stored => exec_watermark_le ops stored,
      raised := fun op _ _ after before => verdicts.raised op after before,
      rejects := fun ops identity rejected => ?_,
      downward := fun _ _ epoch earlier rejected => ReceiptOutbox.rejectsIdentity_of_le rejected epoch earlier }
  · obtain ⟨handOver, last, receipt⟩ := verdicts.handsOver parcel standing
    exact ⟨handOver, last, receipt, fun _ _ _ _ => by simp only [step, standing, last, receipt]⟩
  · obtain ⟨generation, stored, reached⟩ := (Option.any_eq_true _ _).mp rejected
    obtain ⟨later, raised, above⟩ := exec_watermark_le ops stored
    exact (Option.any_eq_true _ _).mpr ⟨later, raised, decide_eq_true ((of_decide_eq_true reached).trans above)⟩

end System

end ConnectedOutbox

end Nospacekey
