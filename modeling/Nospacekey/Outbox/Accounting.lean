import Nospacekey.Library.Runs
import Nospacekey.Outbox.Worker
import Mathlib.Data.List.Perm.Basic
import Mathlib.Data.List.Range

/-! The books of the outbox: what is counted, accepted, handed over and removed agrees after every step. -/

namespace Nospacekey

open Runs

namespace ReceiptOutbox

variable {τ : Type} {s t : ReceiptOutbox τ}

/-- How often the parcel of a serial number was handed to the transport. -/
def attemptsOf (s : ReceiptOutbox τ) (serial : Nat) : Nat :=
  s.handOvers.countP fun handOver => handOver.serial = serial

/-- The parcel carries the accepted receipt of its serial number, with the end of its lifetime. -/
def Genuine (s : ReceiptOutbox τ) (parcel : Parcel τ) : Prop :=
  ∃ receipt appliedAt, s.accepted[parcel.serial]? = some (receipt, appliedAt) ∧
    parcel.delivery.receipt = receipt ∧ parcel.delivery.expires = appliedAt + lifetime

/-- The hand-over passed on the accepted receipt unmodified, before its end and with no later deadline. -/
def HandedOver (s : ReceiptOutbox τ) (handOver : HandOver τ) : Prop :=
  ∃ receipt appliedAt, s.accepted[handOver.serial]? = some (receipt, appliedAt) ∧
    handOver.receipt = receipt ∧ handOver.now < appliedAt + lifetime ∧
    handOver.deadline ≤ appliedAt + lifetime

/-- The reason of a removal: an answer of the transport, the end of the lifetime, or no attempt left in it. -/
def Deserved (s : ReceiptOutbox τ) (removal : Removal) : Prop :=
  ∃ receipt appliedAt, s.accepted[removal.serial]? = some (receipt, appliedAt) ∧
    match removal.fate with
    | .acknowledged _ => 0 < s.attemptsOf removal.serial
    | .epochChanged => 0 < s.attemptsOf removal.serial
    | .expired => appliedAt + lifetime ≤ removal.now
    | .exhausted => 3 ≤ s.attemptsOf removal.serial ∨
        appliedAt + lifetime ≤ removal.now + durationFromMillis 1000

/-- The books of the outbox: its count, its parcels, its hand-overs and its removals agree. -/
structure Accounted (s : ReceiptOutbox τ) : Prop where
  counted : s.outstanding = s.live.length
  bounded : s.outstanding ≤ capacity
  serials : (s.live.map (·.serial) ++ s.removals.map (·.serial)).Perm (List.range s.accepted.length)
  genuine : ∀ parcel ∈ s.live, s.Genuine parcel
  attempted : ∀ parcel ∈ s.live, parcel.delivery.attempts = s.attemptsOf parcel.serial
  waiting : ∀ parcel ∈ s.calls ++ s.channel ++ s.pending, parcel.delivery.attempts ≤ 2
  delivering : ∀ parcel, s.worker = .delivering parcel →
    0 < parcel.delivery.attempts ∧ parcel.delivery.attempts ≤ 3
  settling : ∀ parcel fate now, s.worker = .settling parcel fate now → s.Deserved ⟨parcel.serial, fate, now⟩
  handedOver : ∀ handOver ∈ s.handOvers, s.HandedOver handOver
  thrice : ∀ serial, s.attemptsOf serial ≤ 3
  deserved : ∀ removal ∈ s.removals, s.Deserved removal

/-- The channel closes only behind the last call, and the worker returns only when nothing is left. -/
structure Orderly (s : ReceiptOutbox τ) : Prop where
  borrowed : s.senders = 0 → s.calls = []
  drained : s.disconnected → s.senders = 0 ∧ s.channel = []
  returned : s.worker = .returned → s.disconnected ∧ s.pending = []

/-- An outbox that has just been started has empty books. -/
theorem start_accounted : (start : ReceiptOutbox τ).Accounted where
  counted := rfl
  bounded := Nat.zero_le _
  serials := .refl _
  genuine _ member := by cases member
  attempted _ member := by cases member
  waiting _ member := by cases member
  delivering _ held := by cases held
  settling _ _ _ held := by cases held
  handedOver _ member := by cases member
  thrice _ := by simp [attemptsOf, start]
  deserved _ member := by cases member

/-- An outbox that has just been started is open. -/
theorem start_orderly : (start : ReceiptOutbox τ).Orderly where
  borrowed _ := rfl
  drained closed := by cases closed
  returned held := by cases held

/-- Accepting more receipts leaves the serial numbers of the others. -/
theorem getElem?_append_accepted {accepted more : List (CommitReceipt τ × Nat)} {serial : Nat}
    {entry : CommitReceipt τ × Nat} (found : accepted[serial]? = some entry) :
    (accepted ++ more)[serial]? = some entry := by
  rw [List.getElem?_append_left (List.getElem?_eq_some_iff.mp found).1]
  exact found

/-- A parcel that has a serial number was accepted. -/
theorem Accounted.serial_lt (accounted : s.Accounted) {parcel : Parcel τ} (member : parcel ∈ s.live) :
    parcel.serial < s.accepted.length := by
  obtain ⟨receipt, appliedAt, found, _⟩ := accounted.genuine parcel member
  exact (List.getElem?_eq_some_iff.mp found).1

/-- What was not accepted was not handed over. -/
theorem Accounted.attemptsOf_of_le (accounted : s.Accounted) {serial : Nat} (fresh : s.accepted.length ≤ serial) :
    s.attemptsOf serial = 0 := by
  refine List.countP_eq_zero.mpr fun handOver member same => ?_
  obtain ⟨receipt, appliedAt, found, _⟩ := accounted.handedOver handOver member
  have accepted := (List.getElem?_eq_some_iff.mp found).1
  have := of_decide_eq_true same
  omega

/-- A counted receipt takes the next serial number and starts its lifetime. -/
theorem Accounted.reserve (accounted : s.Accounted) (receipt : CommitReceipt τ) (appliedAt : Nat) :
    (s.reserve receipt appliedAt).1.Accounted := by
  unfold ReceiptOutbox.reserve
  split
  · rename_i room
    -- The new parcel comes after the other calls, and no hand-over knows its serial number.
    have fresh := accounted.attemptsOf_of_le (Nat.le_refl s.accepted.length)
    have placed : ({ s with
        outstanding := s.outstanding + 1
        calls := s.calls ++ [⟨s.accepted.length, .new receipt appliedAt⟩]
        accepted := s.accepted ++ [(receipt, appliedAt)] } : ReceiptOutbox τ).live.Perm
        (⟨s.accepted.length, .new receipt appliedAt⟩ :: s.live) := by
      simp only [live, List.append_assoc]
      exact List.perm_middle
    have kept : ∀ removal, s.Deserved removal → Deserved { s with
        outstanding := s.outstanding + 1
        calls := s.calls ++ [⟨s.accepted.length, .new receipt appliedAt⟩]
        accepted := s.accepted ++ [(receipt, appliedAt)] } removal :=
      fun removal ⟨receipt', appliedAt', found, reason⟩ =>
        ⟨receipt', appliedAt', getElem?_append_accepted found, reason⟩
    refine
      { counted := ?_, bounded := room, serials := ?_, genuine := ?_, attempted := ?_, waiting := ?_,
        delivering := accounted.delivering
        settling := fun parcel fate now held => kept _ (accounted.settling parcel fate now held)
        handedOver := ?_, thrice := accounted.thrice
        deserved := fun removal member => kept removal (accounted.deserved removal member) }
    · rw [placed.length_eq, List.length_cons, accounted.counted]
    · -- One more serial number at the front of both sides.
      refine ((placed.map _).append_right _).trans ?_
      rw [List.length_append, List.length_singleton, List.range_succ]
      exact (accounted.serials.cons _).trans (List.perm_append_singleton _ _).symm
    · intro parcel member
      rcases List.mem_cons.mp (placed.mem_iff.mp member) with rfl | old
      · exact ⟨receipt, appliedAt, List.getElem?_concat_length, rfl, rfl⟩
      · obtain ⟨receipt', appliedAt', found, same⟩ := accounted.genuine parcel old
        exact ⟨receipt', appliedAt', getElem?_append_accepted found, same⟩
    · intro parcel member
      rcases List.mem_cons.mp (placed.mem_iff.mp member) with rfl | old
      · exact fresh.symm
      · exact accounted.attempted parcel old
    · intro parcel member
      simp only [List.mem_append, List.mem_singleton] at member
      rcases member with ((old | rfl) | old) | old
      · exact accounted.waiting parcel (by simp [old])
      · exact Nat.zero_le 2
      · exact accounted.waiting parcel (by simp [old])
      · exact accounted.waiting parcel (by simp [old])
    · intro handOver member
      obtain ⟨receipt', appliedAt', found, same⟩ := accounted.handedOver handOver member
      exact ⟨receipt', appliedAt', getElem?_append_accepted found, same⟩
  · exact { accounted with }

/-- A removal stays deserved while more is accepted and handed over. -/
theorem Deserved.mono {removal : Removal} (deserved : s.Deserved removal)
    (accepted : ∀ (serial : Nat) (entry : CommitReceipt τ × Nat), s.accepted[serial]? = some entry →
      t.accepted[serial]? = some entry)
    (attempts : ∀ serial, s.attemptsOf serial ≤ t.attemptsOf serial) : t.Deserved removal := by
  obtain ⟨receipt, appliedAt, found, reason⟩ := deserved
  refine ⟨receipt, appliedAt, accepted _ _ found, ?_⟩
  obtain ⟨serial, fate, now⟩ := removal
  have more := attempts serial
  cases fate with
  | acknowledged | epochChanged => exact Nat.lt_of_lt_of_le reason more
  | expired => exact reason
  | exhausted => exact reason.imp_left fun enough => Nat.le_trans enough more

/-- No two parcels of an outbox have one serial number. -/
theorem Accounted.serials_nodup (accounted : s.Accounted) : (s.live.map (·.serial)).Nodup :=
  (List.nodup_append.mp (accounted.serials.nodup_iff.mpr List.nodup_range)).1

/-- Hand-overs of one parcel count for its serial number alone. -/
theorem attemptsOf_append {more : List (HandOver τ)} {serial : Nat}
    (handOvers : t.handOvers = s.handOvers ++ more) (mine : ∀ handOver ∈ more, handOver.serial = serial)
    (other : Nat) : t.attemptsOf other = s.attemptsOf other + if other = serial then more.length else 0 := by
  rw [attemptsOf, handOvers, List.countP_append]
  congr 1
  split
  · rename_i same
    exact List.countP_eq_length.mpr fun handOver member => by simp [mine handOver member, same]
  · rename_i differs
    refine List.countP_eq_zero.mpr fun handOver member same => differs ?_
    rw [← mine handOver member, of_decide_eq_true same]

/-- A parcel may move on, with the hand-overs made of it, while the others stay. -/
theorem Accounted.move (accounted : s.Accounted) {parcel moved : Parcel τ} {others : List (Parcel τ)}
    (more : List (HandOver τ)) (before : s.live.Perm (parcel :: others)) (after : t.live.Perm (moved :: others))
    (serial : moved.serial = parcel.serial) (receipt : moved.delivery.receipt = parcel.delivery.receipt)
    (expires : moved.delivery.expires = parcel.delivery.expires)
    (attempts : moved.delivery.attempts = parcel.delivery.attempts + more.length)
    (limited : moved.delivery.attempts ≤ 3) (outstanding : t.outstanding = s.outstanding)
    (accepted : t.accepted = s.accepted) (removals : t.removals = s.removals)
    (handOvers : t.handOvers = s.handOvers ++ more) (mine : ∀ handOver ∈ more, handOver.serial = parcel.serial)
    (valid : ∀ handOver ∈ more, s.HandedOver handOver)
    (waiting : ∀ parcel ∈ t.calls ++ t.channel ++ t.pending, parcel.delivery.attempts ≤ 2)
    (delivering : ∀ parcel, t.worker = .delivering parcel →
      0 < parcel.delivery.attempts ∧ parcel.delivery.attempts ≤ 3)
    (settling : ∀ parcel fate now, t.worker = .settling parcel fate now →
      t.Deserved ⟨parcel.serial, fate, now⟩) : t.Accounted := by
  have count := attemptsOf_append handOvers mine
  have own : parcel ∈ s.live := before.mem_iff.mpr List.mem_cons_self
  have ownAttempts := accounted.attempted parcel own
  -- The serial number of the moved parcel is its own.
  have distinct : ∀ other ∈ others, other.serial ≠ parcel.serial := by
    have nodup := (before.map (·.serial)).nodup_iff.mp accounted.serials_nodup
    intro other member same
    exact (List.nodup_cons.mp nodup).1 (List.mem_map.mpr ⟨other, member, same⟩)
  refine
    { counted := ?_, bounded := outstanding ▸ accounted.bounded, serials := ?_, genuine := ?_, attempted := ?_,
      waiting := waiting, delivering := delivering, settling := settling, handedOver := ?_, thrice := ?_,
      deserved := ?_ }
  · rw [outstanding, accounted.counted, before.length_eq, after.length_eq]
    rfl
  · have same : (t.live.map (·.serial)).Perm (s.live.map (·.serial)) := by
      refine (after.map _).trans ?_
      rw [List.map_cons, serial]
      exact (before.map (·.serial)).symm
    rw [accepted, removals]
    exact (same.append_right _).trans accounted.serials
  · intro other member
    rcases List.mem_cons.mp (after.mem_iff.mp member) with rfl | old
    · obtain ⟨original, appliedAt, found, same, ends⟩ := accounted.genuine parcel own
      exact ⟨original, appliedAt, by rw [accepted, serial]; exact found, receipt.trans same, expires.trans ends⟩
    · rw [Genuine, accepted]
      exact accounted.genuine other (before.mem_iff.mpr (List.mem_cons_of_mem _ old))
  · intro other member
    rcases List.mem_cons.mp (after.mem_iff.mp member) with rfl | old
    · rw [count, serial, if_pos rfl, attempts, ownAttempts]
    · rw [count, if_neg (distinct other old)]
      exact accounted.attempted other (before.mem_iff.mpr (List.mem_cons_of_mem _ old))
  · intro handOver member
    rw [HandedOver, accepted]
    rw [handOvers] at member
    rcases List.mem_append.mp member with old | new
    · exact accounted.handedOver handOver old
    · exact valid handOver new
  · intro other
    rw [count]
    split
    · rename_i same
      rw [same, ← ownAttempts, ← attempts]
      exact limited
    · exact accounted.thrice other
  · intro removal member
    rw [removals] at member
    refine (accounted.deserved removal member).mono (fun _ _ found => accepted ▸ found) fun other => ?_
    rw [count]
    exact Nat.le_add_right _ _

/-- A call finds room in the channel, which is open while a sender lives. -/
theorem Accounted.trySend (accounted : s.Accounted) (orderly : s.Orderly) {call : Nat} {parcel : Parcel τ}
    (calling : s.calls[call]? = some parcel) :
    (s.trySend parcel (s.calls.eraseIdx call)).2 = true ∧
      (s.trySend parcel (s.calls.eraseIdx call)).1.Accounted := by
  obtain ⟨within, found⟩ := List.getElem?_eq_some_iff.mp calling
  have taken : s.calls.Perm (parcel :: s.calls.eraseIdx call) :=
    found ▸ (List.getElem_cons_eraseIdx_perm within).symm
  -- The call itself counts against the capacity, so the channel holds less.
  have room : s.channel.length < capacity := by
    have bounded := accounted.bounded
    rw [accounted.counted] at bounded
    simp only [live, List.length_append] at bounded
    omega
  have isOpen : s.worker.isOpen = true := by
    cases worker : s.worker with
    | returned =>
      have none' := orderly.borrowed (orderly.drained (orderly.returned worker).1).1
      simp [none'] at within
    | polling | delivering | settling => rfl
  simp only [ReceiptOutbox.trySend, room, isOpen, decide_true, Bool.and_true, if_true, true_and]
  have before : s.live.Perm (parcel :: (s.calls.eraseIdx call ++ s.channel ++ s.pending ++ s.worker.inFlight)) := by
    simp only [live, List.append_assoc]
    exact taken.append_right _
  have own : parcel ∈ s.calls ++ s.channel ++ s.pending := by simp [taken.mem_iff]
  refine accounted.move [] before ?_ rfl rfl rfl rfl
    (Nat.le_succ_of_le (accounted.waiting parcel own)) rfl rfl rfl (List.append_nil _).symm
    (fun _ member => by cases member) (fun _ member => by cases member) ?_ accounted.delivering accounted.settling
  · simp only [live, List.append_assoc]
    rw [← List.append_assoc, ← List.append_assoc (s.calls.eraseIdx call)]
    exact List.perm_middle
  · intro other member
    refine accounted.waiting other ?_
    simp only [List.mem_append, taken.mem_iff, List.mem_cons] at member ⊢
    tauto

/-- The worker takes a parcel out of the channel behind those it has. -/
theorem Accounted.receive (accounted : s.Accounted) : (s.step .receive).Accounted := by
  simp only [step]
  split
  · rename_i parcel channel polling queued
    have own : parcel ∈ s.calls ++ s.channel ++ s.pending := by simp [queued]
    have before : s.live.Perm (parcel :: (s.calls ++ channel ++ s.pending ++ s.worker.inFlight)) := by
      simp only [live, queued, List.append_assoc]
      exact List.perm_middle
    refine accounted.move [] before ?_ rfl rfl rfl rfl
      (Nat.le_succ_of_le (accounted.waiting parcel own)) rfl rfl rfl (List.append_nil _).symm
      (fun _ member => by cases member) (fun _ member => by cases member) ?_ accounted.delivering
      accounted.settling
    · simp only [live, List.append_assoc]
      rw [← List.append_assoc, ← List.append_assoc, ← List.append_assoc s.calls, ← List.append_assoc (s.calls ++ _)]
      exact List.perm_middle
    · intro other member
      refine accounted.waiting other ?_
      simp only [List.mem_append, queued, List.mem_cons] at member ⊢
      tauto
  · exact accounted

/-- The worker drops an expired parcel and hands over any other, before its end. -/
theorem Accounted.poll (accounted : s.Accounted) (polling : s.worker = .polling) (now : Nat) :
    (s.poll now).Accounted := by
  unfold ReceiptOutbox.poll
  split
  · exact accounted
  · split
    · exact accounted
    · rename_i index due _ parcel found
      obtain ⟨within, same⟩ := List.getElem?_eq_some_iff.mp found
      have taken : s.pending.Perm (parcel :: s.pending.eraseIdx index) :=
        same ▸ (List.getElem_cons_eraseIdx_perm within).symm
      have own : parcel ∈ s.calls ++ s.channel ++ s.pending := by simp [taken.mem_iff]
      have limited := accounted.waiting parcel own
      have before : s.live.Perm (parcel :: (s.calls ++ s.channel ++ s.pending.eraseIdx index)) := by
        simp only [live, polling, Worker.inFlight, List.append_nil]
        exact (taken.append_left _).trans List.perm_middle
      have living : parcel ∈ s.live := before.mem_iff.mpr List.mem_cons_self
      obtain ⟨receipt, appliedAt, accepted, original, ends⟩ := accounted.genuine parcel living
      have waiting : ∀ other ∈ s.calls ++ s.channel ++ s.pending.eraseIdx index, other.delivery.attempts ≤ 2 := by
        intro other member
        refine accounted.waiting other ?_
        simp only [List.mem_append, taken.mem_iff, List.mem_cons] at member ⊢
        tauto
      unfold attempt
      split
      · -- The end of the lifetime comes before another attempt.
        rename_i expired
        refine accounted.move [] before (List.perm_append_singleton _ _) rfl rfl rfl rfl
          (Nat.le_succ_of_le limited) rfl rfl rfl (List.append_nil _).symm
          (fun _ member => by cases member) (fun _ member => by cases member) waiting
          (fun _ held => by cases held) fun held fate at_ settling => ?_
        cases settling
        exact ⟨receipt, appliedAt, accepted, ends ▸ expired⟩
      · rename_i alive
        refine accounted.move [_] before (List.perm_append_singleton _ _) rfl rfl rfl rfl
          (Nat.succ_le_succ limited) rfl rfl rfl rfl ?_ ?_ waiting
          (fun held delivering => ?_) fun held fate at_ settling => by cases settling
        · intro handOver member
          obtain rfl := List.mem_singleton.mp member
          rfl
        · intro handOver member
          obtain rfl := List.mem_singleton.mp member
          exact ⟨receipt, appliedAt, accepted, original, ends ▸ Nat.lt_of_not_le alive, ends ▸ Nat.min_le_right _ _⟩
        · cases delivering
          exact ⟨Nat.succ_pos _, Nat.succ_le_succ limited⟩

/-- A retry is granted after the first two attempts only, and refused before them only near the end. -/
theorem retry_spec (delivery : Delivery τ) (now : Nat) :
    (delivery.retry now).1.receipt = delivery.receipt ∧ (delivery.retry now).1.expires = delivery.expires ∧
      (delivery.retry now).1.attempts = delivery.attempts ∧
      ((delivery.retry now).2 = true → delivery.attempts ≤ 2) ∧
      ((delivery.retry now).2 = false → 0 < delivery.attempts →
        3 ≤ delivery.attempts ∨ delivery.expires ≤ now + durationFromMillis 1000) := by
  -- There are two delays, one for each attempt that may be repeated.
  have delays : ∀ attempts, Delivery.retryDelay attempts = match attempts with
      | 1 => some (durationFromMillis 250)
      | 2 => some (durationFromMillis 1000)
      | _ => none := by
    rintro (_ | _ | _ | _) <;> rfl
  unfold Delivery.retry
  rw [delays]
  split
  · rename_i undelayed
    split at undelayed
    · cases undelayed
    · cases undelayed
    · rename_i notOnce notTwice
      refine ⟨rfl, rfl, rfl, fun granted => (by cases granted), fun _ used => .inl ?_⟩
      have once : delivery.attempts ≠ 1 := notOnce
      have twice : delivery.attempts ≠ 2 := notTwice
      omega
  · rename_i delay delayed
    have bound : delivery.attempts ≤ 2 ∧ delay ≤ durationFromMillis 1000 := by
      split at delayed
      · rename_i once
        cases delayed
        exact ⟨by omega, by decide⟩
      · rename_i twice
        cases delayed
        exact ⟨by omega, Nat.le_refl _⟩
      · cases delayed
    refine ⟨rfl, rfl, rfl, fun _ => bound.1, fun refused _ => .inr ?_⟩
    have late : ¬ now + delay < delivery.expires := of_decide_eq_false refused
    omega

/-- The transport's answer returns the parcel to the queue or decides its fate. -/
theorem Accounted.answer (accounted : s.Accounted) {parcel : Parcel τ} (delivering : s.worker = .delivering parcel)
    (result : DeliveryResult) (now later : Nat) : (s.answer parcel result now later).Accounted := by
  have before : s.live.Perm (parcel :: (s.calls ++ s.channel ++ s.pending)) := by
    simp only [live, delivering, Worker.inFlight]
    exact List.perm_append_singleton _ _
  have living : parcel ∈ s.live := before.mem_iff.mpr List.mem_cons_self
  have attempts := accounted.delivering parcel delivering
  have tried : 0 < s.attemptsOf parcel.serial := accounted.attempted parcel living ▸ attempts.1
  obtain ⟨receipt, appliedAt, accepted, original, ends⟩ := accounted.genuine parcel living
  -- A parcel whose fate is decided stays in flight until the fate is settled.
  have decided : ∀ (held : Parcel τ) fate at_, held.serial = parcel.serial →
      held.delivery.receipt = parcel.delivery.receipt → held.delivery.expires = parcel.delivery.expires →
      held.delivery.attempts = parcel.delivery.attempts → s.Deserved ⟨parcel.serial, fate, at_⟩ →
      Accounted { s with worker := .settling held fate at_ } := by
    intro held fate at_ serial receipt expires same deserved
    refine accounted.move [] before (List.perm_append_singleton _ _) serial receipt expires same
      (same ▸ attempts.2) rfl rfl rfl (List.append_nil _).symm (fun _ member => by cases member)
      (fun _ member => by cases member) accounted.waiting (fun _ delivered => by cases delivered)
      fun other fate at_ settling => ?_
    cases settling
    exact serial ▸ deserved
  cases result with
  | acknowledged status =>
    exact decided parcel _ now rfl rfl rfl rfl ⟨receipt, appliedAt, accepted, tried⟩
  | epochChanged => exact decided parcel _ now rfl rfl rfl rfl ⟨receipt, appliedAt, accepted, tried⟩
  | retry =>
    obtain ⟨sameReceipt, sameEnd, sameAttempts, granted, refused⟩ := retry_spec parcel.delivery now
    simp only [ReceiptOutbox.answer]
    split
    · rename_i again
      have after : (s.calls ++ s.channel ++ (s.pending ++ [{ parcel with delivery := (parcel.delivery.retry now).1 }])
          ++ (Worker.polling : Worker τ).inFlight).Perm
          ({ parcel with delivery := (parcel.delivery.retry now).1 } :: (s.calls ++ s.channel ++ s.pending)) := by
        simp only [Worker.inFlight, List.append_nil]
        rw [← List.append_assoc]
        exact List.perm_append_singleton _ _
      refine accounted.move [] before after rfl sameReceipt sameEnd sameAttempts
        (sameAttempts ▸ attempts.2) rfl rfl rfl (List.append_nil _).symm (fun _ member => by cases member)
        (fun _ member => by cases member) ?_ (fun _ delivered => by cases delivered)
        fun _ _ _ settling => by cases settling
      intro other member
      rw [← List.append_assoc] at member
      rcases List.mem_append.mp member with old | new
      · exact accounted.waiting other old
      · obtain rfl := List.mem_singleton.mp new
        exact Nat.le_trans (Nat.le_of_eq sameAttempts) (granted again)
    · rename_i notAgain
      split
      · rename_i expired
        exact decided _ _ later rfl sameReceipt sameEnd sameAttempts
          ⟨receipt, appliedAt, accepted, ends ▸ sameEnd ▸ expired⟩
      · refine decided _ _ now rfl sameReceipt sameEnd sameAttempts ⟨receipt, appliedAt, accepted, ?_⟩
        have reason := refused (Bool.eq_false_iff.mpr notAgain) attempts.1
        rwa [accounted.attempted parcel living, ends] at reason

/-- A settled fate removes its parcel and gives back one place. -/
theorem Accounted.settle (accounted : s.Accounted) {parcel : Parcel τ} {fate : Fate} {now : Nat}
    (settling : s.worker = .settling parcel fate now) : (s.settle parcel fate now).Accounted := by
  -- Neither the watermark nor the notice is part of the books.
  have settled : ∀ t : ReceiptOutbox τ, t.calls = s.calls → t.channel = s.channel → t.pending = s.pending →
      t.worker = .polling → t.outstanding = s.outstanding - 1 → t.accepted = s.accepted →
      t.handOvers = s.handOvers → t.removals = s.removals ++ [⟨parcel.serial, fate, now⟩] → t.Accounted := by
    intro t calls channel pending polling outstanding accepted handOvers removals
    have before : s.live.Perm (parcel :: t.live) := by
      simp only [live, settling, Worker.inFlight, calls, channel, pending, polling, List.append_nil]
      exact List.perm_append_singleton _ _
    have counted := accounted.counted
    rw [before.length_eq, List.length_cons] at counted
    have same : ∀ serial, t.attemptsOf serial = s.attemptsOf serial := fun serial => by
      rw [attemptsOf, handOvers]
      rfl
    have kept : ∀ removal, s.Deserved removal → t.Deserved removal := fun removal deserved =>
      deserved.mono (fun _ _ found => accepted ▸ found) fun serial => Nat.le_of_eq (same serial).symm
    refine
      { counted := by omega, bounded := ?_, serials := ?_, genuine := ?_, attempted := ?_, waiting := ?_,
        delivering := fun _ delivered => by simp [polling] at delivered
        settling := fun _ _ _ held => by simp [polling] at held
        handedOver := ?_, thrice := fun serial => same serial ▸ accounted.thrice serial, deserved := ?_ }
    · have bounded := accounted.bounded
      omega
    · -- The serial number leaves the living for the removed.
      rw [removals, accepted, List.map_append, ← List.append_assoc]
      refine (List.perm_append_singleton _ _).trans ?_
      exact ((before.map (·.serial)).symm.append_right _).trans accounted.serials
    · intro other member
      rw [Genuine, accepted]
      exact accounted.genuine other (before.mem_iff.mpr (List.mem_cons_of_mem _ member))
    · intro other member
      rw [same]
      exact accounted.attempted other (before.mem_iff.mpr (List.mem_cons_of_mem _ member))
    · rw [calls, channel, pending]
      exact accounted.waiting
    · rw [handOvers]
      intro handOver member
      rw [HandedOver, accepted]
      exact accounted.handedOver handOver member
    · intro removal member
      rw [removals] at member
      rcases List.mem_append.mp member with old | new
      · exact kept removal (accounted.deserved removal old)
      · obtain rfl := List.mem_singleton.mp new
        exact kept _ (accounted.settling parcel fate now settling)
  unfold ReceiptOutbox.settle
  dsimp only
  cases rejected : fate.rejectedGeneration parcel.delivery.receipt with
  | none => exact settled _ rfl rfl rfl rfl rfl rfl rfl rfl
  | some generation => exact settled _ rfl rfl rfl rfl rfl rfl rfl rfl

/-- Every step keeps the books. -/
theorem Accounted.step (accounted : s.Accounted) (orderly : s.Orderly) (op : OutboxOp τ) :
    (s.step op).Accounted := by
  cases op with
  | clone | drop =>
    simp only [ReceiptOutbox.step]
    split <;> exact { accounted with }
  | reserve receipt appliedAt =>
    simp only [ReceiptOutbox.step]
    split
    · exact accounted.reserve receipt appliedAt
    · exact accounted
  | trySend call =>
    simp only [ReceiptOutbox.step]
    split
    · exact accounted
    · rename_i parcel calling
      exact (accounted.trySend orderly calling).2
  | takeNotice | takeLearningInvalidation => exact { accounted with }
  | receive => exact accounted.receive
  | poll now =>
    simp only [ReceiptOutbox.step]
    split
    · rename_i polling
      exact accounted.poll polling now
    · exact accounted
  | answer result now later =>
    simp only [ReceiptOutbox.step]
    split
    · rename_i parcel delivering
      exact accounted.answer delivering result now later
    · exact accounted
  | settle =>
    simp only [ReceiptOutbox.step]
    split
    · rename_i parcel fate now settling
      exact accounted.settle settling
    · exact accounted
  | disconnect =>
    simp only [ReceiptOutbox.step]
    split
    · split
      · exact { accounted with }
      · exact accounted
    · exact accounted
  | finish =>
    simp only [ReceiptOutbox.step]
    split
    · rename_i polling noPending
      split
      · -- The worker that returns held nothing before.
        have same : ({ s with worker := .returned } : ReceiptOutbox τ).live = s.live := by
          simp only [live, polling]
          rfl
        exact
          { accounted with
            counted := by rw [same]; exact accounted.counted
            serials := by rw [same]; exact accounted.serials
            genuine := by rw [same]; exact accounted.genuine
            attempted := by rw [same]; exact accounted.attempted
            delivering := fun _ held => by cases held
            settling := fun _ _ _ held => by cases held }
      · exact accounted
    · exact accounted

/-- While a sender lives, the channel is open and the worker runs. -/
theorem Orderly.of_senders (alive : 0 < t.senders) (running : t.disconnected = false)
    (working : t.worker ≠ .returned) : t.Orderly where
  borrowed closed := by omega
  drained closed := by simp [running] at closed
  returned held := absurd held working

/-- A living sender keeps the outbox open. -/
theorem Orderly.open (orderly : s.Orderly) (alive : 0 < s.senders) :
    s.disconnected = false ∧ s.worker ≠ .returned := by
  have running : s.disconnected ≠ true := fun closed => by
    have := (orderly.drained closed).1
    omega
  exact ⟨Bool.eq_false_iff.mpr running, fun held => running (orderly.returned held).1⟩

/-- Every step keeps the order of closing. -/
theorem Orderly.step (orderly : s.Orderly) (op : OutboxOp τ) : (s.step op).Orderly := by
  cases op with
  | clone =>
    simp only [ReceiptOutbox.step]
    split
    · rename_i alive
      exact .of_senders (Nat.succ_pos _) (orderly.open alive).1 (orderly.open alive).2
    · exact orderly
  | drop =>
    simp only [ReceiptOutbox.step]
    split
    · rename_i free
      refine ⟨fun closed => ?_, fun closed => ?_, orderly.returned⟩
      · -- The last sender is dropped only when no call borrows it.
        rcases Bool.or_eq_true_iff.mp free with more | idle
        · have := of_decide_eq_true more
          dsimp only at closed
          omega
        · exact List.isEmpty_iff.mp idle
      · obtain ⟨noSender, empty⟩ := orderly.drained closed
        exact ⟨by simp [noSender], empty⟩
    · exact orderly
  | reserve receipt appliedAt =>
    simp only [ReceiptOutbox.step]
    split
    · rename_i alive
      unfold ReceiptOutbox.reserve
      split <;> exact .of_senders alive (orderly.open alive).1 (orderly.open alive).2
    · exact orderly
  | trySend call =>
    simp only [ReceiptOutbox.step]
    split
    · exact orderly
    · rename_i parcel calling
      have alive : 0 < s.senders := by
        refine Nat.pos_of_ne_zero fun closed => ?_
        simp [orderly.borrowed closed] at calling
      unfold ReceiptOutbox.trySend
      split <;> exact .of_senders alive (orderly.open alive).1 (orderly.open alive).2
  | takeNotice | takeLearningInvalidation => exact { orderly with }
  | receive =>
    simp only [ReceiptOutbox.step]
    split
    · rename_i parcel channel polling queued
      refine ⟨orderly.borrowed, fun closed => ?_, fun held => by simp [polling] at held⟩
      have empty := (orderly.drained closed).2
      simp [queued] at empty
    · exact orderly
  | poll now =>
    simp only [ReceiptOutbox.step]
    split
    · unfold ReceiptOutbox.poll
      split
      · exact orderly
      · split
        · exact orderly
        · unfold attempt
          split <;> exact ⟨orderly.borrowed, orderly.drained, fun held => by cases held⟩
    · exact orderly
  | answer result now later =>
    simp only [ReceiptOutbox.step]
    split
    · cases result with
      | acknowledged | epochChanged => exact ⟨orderly.borrowed, orderly.drained, fun held => by cases held⟩
      | retry =>
        simp only [ReceiptOutbox.answer]
        split
        · exact ⟨orderly.borrowed, orderly.drained, fun held => by cases held⟩
        · split <;> exact ⟨orderly.borrowed, orderly.drained, fun held => by cases held⟩
    · exact orderly
  | settle =>
    simp only [ReceiptOutbox.step]
    split
    · rename_i parcel fate now settling
      unfold ReceiptOutbox.settle
      dsimp only
      cases fate.rejectedGeneration parcel.delivery.receipt <;>
        exact ⟨orderly.borrowed, orderly.drained, fun held => by cases held⟩
    · exact orderly
  | disconnect =>
    simp only [ReceiptOutbox.step]
    split
    · rename_i polling empty
      split
      · rename_i noSender
        exact ⟨orderly.borrowed, fun _ => ⟨noSender, empty⟩, fun held => by simp [polling] at held⟩
      · exact orderly
    · exact orderly
  | finish =>
    simp only [ReceiptOutbox.step]
    split
    · rename_i polling noPending
      split
      · rename_i closed
        exact ⟨orderly.borrowed, orderly.drained, fun _ => ⟨closed, noPending⟩⟩
      · exact orderly
    · exact orderly

/-- In every run the books are kept and the outbox closes in order. -/
theorem run_accounted (ops : List (OutboxOp τ)) :
    (exec ReceiptOutbox.step start ops).Accounted ∧ (exec ReceiptOutbox.step (start : ReceiptOutbox τ) ops).Orderly :=
  exec_invariant_all (fun s : ReceiptOutbox τ => s.Accounted ∧ s.Orderly)
    (fun _ op books => ⟨books.1.step books.2 op, books.2.step op⟩) ⟨start_accounted, start_orderly⟩ ops

end ReceiptOutbox

end Nospacekey
