import Nospacekey.Outbox.Worker

/-! The transport of receipts over connections to an engine, and what one delivery may conclude from them. -/

namespace Nospacekey

/-- The two things that the outbox needs from a connection to an engine. -/
class ReceiptConnection (γ : Type) (τ : outParam Type) where
  /-- The epoch of the connection's handshake. -/
  engineEpoch : γ → Text
  /-- No status is a failure of the connection, not a verdict of the engine. -/
  sendReceipt : γ → CommitReceipt τ → Nat → Option ReceiptStatus × γ

open ReceiptConnection

/-- What a delivery does outside of the process. -/
inductive TransportEvent (τ : Type) where
  /-- An attempt to connect, with the epoch of the handshake where it succeeded. -/
  | connect (timeout deadline : Nat) (epoch : Option Text)
  /-- A receipt sent over a connection whose handshake had an epoch, with the status that came back. -/
  | send (epoch : Text) (receipt : CommitReceipt τ) (status : Option ReceiptStatus)

namespace TransportEvent

variable {τ : Type}

/-- An attempt to connect. -/
def isConnect : TransportEvent τ → Bool
  | .connect .. => true
  | .send .. => false

/-- A receipt sent. -/
def isSend : TransportEvent τ → Bool
  | .connect .. => false
  | .send .. => true

/-- A connection that was not established or that failed. -/
def isFailure : TransportEvent τ → Bool
  | .connect _ _ epoch => epoch.isNone
  | .send _ _ status => status.isNone

end TransportEvent

structure EngineReceiptTransport (γ : Type) where
  client : Option γ
  /-- The outcome of each attempt to connect, by its number, its timeout and its deadline. -/
  connect : Nat → Nat → Nat → Option γ
  /-- The number of attempts so far. -/
  connects : Nat

/-- One delivery: the transport after it, its result, and what it did. -/
structure TransportCall (γ τ : Type) where
  transport : EngineReceiptTransport γ
  result : DeliveryResult
  events : List (TransportEvent τ)

namespace EngineReceiptTransport

variable {γ τ : Type} [ReceiptConnection γ τ]

def ensureConnected (t : EngineReceiptTransport γ) (deadline now : Nat) :
    EngineReceiptTransport γ × List (TransportEvent τ) :=
  match t.client with
  | some _ => (t, [])
  | none =>
    let timeout := min (deadline - now) (durationFromMillis 500)
    let client := t.connect t.connects timeout deadline
    ({ t with client := client, connects := t.connects + 1 },
      [.connect timeout deadline (client.map engineEpoch)])

/-- The cached handshake is of another epoch than the receipt. -/
def differs (t : EngineReceiptTransport γ) (receipt : CommitReceipt τ) : Bool :=
  t.client.any fun client => engineEpoch client ≠ receipt.engineEpoch

/-- The last part of a delivery: it sends over the cached connection and drops one that fails. -/
def send (t : EngineReceiptTransport γ) (receipt : CommitReceipt τ) (deadline : Nat) : TransportCall γ τ :=
  match t.client with
  | none => ⟨t, .retry, []⟩
  | some client =>
    match sendReceipt client receipt deadline with
    | (some status, client') =>
      ⟨{ t with client := some client' }, .acknowledged status,
        [.send (engineEpoch client) receipt (some status)]⟩
    | (none, _) => ⟨{ t with client := none }, .retry, [.send (engineEpoch client) receipt none]⟩

/-- A delivery, with the clock readings of its attempts to connect. A cached handshake predates every
engine swap since, so only a fresh one may condemn the receipt's epoch. -/
def deliver (t : EngineReceiptTransport γ) (receipt : CommitReceipt τ) (deadline now later : Nat) :
    TransportCall γ τ :=
  let (t, opened) := t.ensureConnected deadline now
  if t.client.isNone then ⟨t, .retry, opened⟩
  else if t.differs receipt then
    let (t, reopened) := { t with client := none }.ensureConnected deadline later
    if t.client.isNone then ⟨t, .retry, opened ++ reopened⟩
    else if t.differs receipt then ⟨t, .epochChanged, opened ++ reopened⟩
    else
      let call := t.send receipt deadline
      { call with events := opened ++ reopened ++ call.events }
  else
    let call := t.send receipt deadline
    { call with events := opened ++ call.events }

end EngineReceiptTransport

namespace TransportCall

variable {γ τ : Type}

/-- What a delivery may do and conclude. -/
structure Careful (call : TransportCall γ τ) (receipt : CommitReceipt τ) : Prop where
  /-- Nothing but the receipt is sent, and only over a connection of its epoch. -/
  sends : ∀ epoch sent status, .send epoch sent status ∈ call.events →
    sent = receipt ∧ epoch = receipt.engineEpoch
  /-- An epoch is condemned only by a handshake that the call itself has made. -/
  condemns : call.result = .epochChanged →
    ∃ timeout deadline epoch, .connect timeout deadline (some epoch) ∈ call.events ∧
      epoch ≠ receipt.engineEpoch
  /-- The caller is asked to retry exactly when a connection was not established or failed. -/
  retries : call.result = .retry ↔ ∃ event ∈ call.events, event.isFailure = true
  /-- A call that asks for a retry leaves no connection behind. -/
  drops : call.result = .retry → call.transport.client = none
  connects : call.events.countP (·.isConnect) ≤ 2
  sendsOnce : call.events.countP (·.isSend) ≤ 1

end TransportCall

namespace EngineReceiptTransport

variable {γ τ : Type} [ReceiptConnection γ τ] {t : EngineReceiptTransport γ}

/-- What connecting did: nothing with a connection at hand, and one attempt without. -/
theorem ensureConnected_cases (t : EngineReceiptTransport γ) (deadline now : Nat) :
    (t.client.isSome = true ∧ t.ensureConnected deadline now = (t, [])) ∨
      ∃ timeout client, t.client = none ∧
        t.ensureConnected deadline now =
          ({ t with client := client, connects := t.connects + 1 },
            [.connect timeout deadline (client.map engineEpoch)]) := by
  unfold ensureConnected
  cases cached : t.client with
  | some client => exact .inl ⟨rfl, rfl⟩
  | none => exact .inr ⟨_, _, rfl, rfl⟩

/-- What sending over a connection of the receipt's epoch did. -/
theorem send_cases {receipt : CommitReceipt τ} (connected : t.client.isNone = false)
    (same : t.differs receipt = false) (deadline : Nat) :
    (∃ status client, t.send receipt deadline =
        ⟨{ t with client := client }, .acknowledged status,
          [.send receipt.engineEpoch receipt (some status)]⟩) ∨
      t.send receipt deadline =
        ⟨{ t with client := none }, .retry, [.send receipt.engineEpoch receipt none]⟩ := by
  unfold send
  cases cached : t.client with
  | none => simp [cached] at connected
  | some client =>
    have epoch : engineEpoch client = receipt.engineEpoch := by simpa [differs, cached] using same
    dsimp only
    rw [epoch]
    split
    · exact .inl ⟨_, _, rfl⟩
    · exact .inr rfl

/-- Established connections: attempts to connect that succeeded. -/
def Established (events : List (TransportEvent τ)) : Prop :=
  ∀ event ∈ events, ∃ timeout deadline epoch, event = .connect timeout deadline (some epoch)

/-- A connection at hand was there before or has been established. -/
theorem ensureConnected_established (t : EngineReceiptTransport γ) {deadline now : Nat}
    (connected : (t.ensureConnected deadline now).1.client.isNone = false) :
    Established (t.ensureConnected deadline now).2 ∧ (t.ensureConnected deadline now).2.length ≤ 1 := by
  obtain ⟨_, cached⟩ | ⟨timeout, client, _, tried⟩ := t.ensureConnected_cases deadline now
  · rw [cached]
    exact ⟨nofun, Nat.zero_le _⟩
  · rw [tried] at connected ⊢
    cases client with
    | none => cases connected
    | some client =>
      refine ⟨fun event member => ?_, le_rfl⟩
      obtain rfl := List.mem_singleton.mp member
      exact ⟨_, _, _, rfl⟩

namespace Established

variable {events : List (TransportEvent τ)}

/-- Two rounds of established connections are one. -/
theorem append {more : List (TransportEvent τ)} (first : Established events) (second : Established more) :
    Established (events ++ more) := fun event member =>
  (List.mem_append.mp member).elim (first event) (second event)

/-- An established connection sends nothing. -/
theorem not_send (established : Established events) {epoch : Text} {sent : CommitReceipt τ}
    {status : Option ReceiptStatus} : .send epoch sent status ∉ events := fun member => by
  obtain ⟨_, _, _, same⟩ := established _ member
  cases same

/-- An established connection is no failure. -/
theorem not_isFailure (established : Established events) {event : TransportEvent τ} (member : event ∈ events) :
    event.isFailure = false := by
  obtain ⟨_, _, _, rfl⟩ := established event member
  rfl

/-- Established connections make no more attempts than there are. -/
theorem countP_isSend (established : Established events) : events.countP (·.isSend) = 0 :=
  List.countP_eq_zero.mpr fun event member => by
    obtain ⟨_, _, _, rfl⟩ := established event member
    simp [TransportEvent.isSend]

/-- A delivery that sends over a connection of the receipt's epoch is careful. -/
theorem send_careful (established : Established events) (few : events.length ≤ 2) {receipt : CommitReceipt τ}
    (connected : t.client.isNone = false) (same : t.differs receipt = false) (deadline : Nat) :
    { t.send receipt deadline with events := events ++ (t.send receipt deadline).events }.Careful receipt := by
  have connects := (List.countP_le_length (p := (·.isConnect)) (l := events)).trans few
  have sends := established.countP_isSend
  obtain ⟨status, client, sent⟩ | failed := send_cases connected same deadline
  · rw [sent]
    constructor
    · intro epoch receipt' status' member
      obtain earlier | last := List.mem_append.mp member
      · exact absurd earlier established.not_send
      · cases List.mem_singleton.mp last
        exact ⟨rfl, rfl⟩
    · nofun
    · refine iff_of_false nofun fun ⟨event, member, failure⟩ => ?_
      obtain earlier | last := List.mem_append.mp member
      · simp [established.not_isFailure earlier] at failure
      · cases List.mem_singleton.mp last
        cases failure
    · nofun
    · simpa [TransportEvent.isConnect] using connects
    · rw [List.countP_append, sends]
      exact le_rfl
  · rw [failed]
    constructor
    · intro epoch receipt' status' member
      obtain earlier | last := List.mem_append.mp member
      · exact absurd earlier established.not_send
      · cases List.mem_singleton.mp last
        exact ⟨rfl, rfl⟩
    · nofun
    · exact iff_of_true rfl ⟨_, List.mem_append_right _ (List.mem_singleton_self _), rfl⟩
    · exact fun _ => rfl
    · simpa [TransportEvent.isConnect] using connects
    · rw [List.countP_append, sends]
      exact le_rfl

/-- A delivery that could not connect asks for a retry and leaves no connection behind. -/
theorem failed_careful (established : Established events) (few : events.length ≤ 1) (receipt : CommitReceipt τ)
    {deadline now : Nat} (t : EngineReceiptTransport γ)
    (failed : (t.ensureConnected deadline now).1.client.isNone = true) :
    TransportCall.Careful
      ⟨(t.ensureConnected deadline now).1, .retry, events ++ (t.ensureConnected deadline now).2⟩ receipt := by
  have connects := (List.countP_le_length (p := (·.isConnect)) (l := events)).trans few
  have sends := established.countP_isSend
  obtain ⟨present, cached⟩ | ⟨timeout, client, _, tried⟩ := t.ensureConnected_cases deadline now
  · rw [cached] at failed
    rw [Option.isNone_iff_eq_none.mp failed] at present
    cases present
  · rw [tried] at failed ⊢
    obtain rfl := Option.isNone_iff_eq_none.mp failed
    constructor
    · intro epoch sent status member
      obtain earlier | last := List.mem_append.mp member
      · exact absurd earlier established.not_send
      · cases List.mem_singleton.mp last
    · nofun
    · exact iff_of_true rfl ⟨_, List.mem_append_right _ (List.mem_singleton_self _), rfl⟩
    · exact fun _ => rfl
    · simpa [TransportEvent.isConnect] using connects
    · rw [List.countP_append, sends]
      exact Nat.zero_le 1

/-- A delivery whose own handshake is of another epoch may condemn the receipt's. -/
theorem condemned_careful (established : Established events) (few : events.length ≤ 1) {receipt : CommitReceipt τ}
    {deadline now : Nat} (dropped : t.client = none)
    (connected : (t.ensureConnected deadline now).1.client.isNone = false)
    (differs : (t.ensureConnected deadline now).1.differs receipt = true) :
    TransportCall.Careful
      ⟨(t.ensureConnected deadline now).1, .epochChanged,
        events ++ (t.ensureConnected deadline now).2⟩ receipt := by
  have all := established.append (t.ensureConnected_established connected).1
  have two : (events ++ (t.ensureConnected deadline now).2).length ≤ 2 := by
    have one := (t.ensureConnected_established connected).2
    rw [List.length_append]
    omega
  constructor
  · exact fun epoch sent status member => absurd member all.not_send
  · intro _
    obtain ⟨present, _⟩ | ⟨timeout, client, _, tried⟩ := t.ensureConnected_cases deadline now
    · rw [dropped] at present
      cases present
    · rw [tried] at connected differs ⊢
      cases client with
      | none => cases connected
      | some client =>
        exact ⟨timeout, deadline, engineEpoch client, List.mem_append_right _ (List.mem_singleton_self _),
          by simpa [EngineReceiptTransport.differs] using differs⟩
  · refine iff_of_false nofun fun ⟨event, member, failure⟩ => ?_
    rw [all.not_isFailure member] at failure
    cases failure
  · nofun
  · exact List.countP_le_length.trans two
  · exact all.countP_isSend.le.trans (Nat.zero_le _)

end Established

/-- A delivery condemns an epoch only by a handshake of its own, and sends only within an epoch. -/
theorem deliver_careful (t : EngineReceiptTransport γ) (receipt : CommitReceipt τ) (deadline now later : Nat) :
    (t.deliver receipt deadline now later).Careful receipt := by
  unfold deliver
  generalize openedEq : t.ensureConnected deadline now = first
  obtain ⟨opened, openedEvents⟩ := first
  dsimp only
  split
  · -- The first attempt to connect has failed.
    rename_i missing
    have quiet : Established ([] : List (TransportEvent τ)) := nofun
    have failed := quiet.failed_careful (Nat.zero_le _) receipt t (by rw [openedEq]; exact missing)
    rwa [openedEq] at failed
  · rename_i connected
    have opening : (t.ensureConnected deadline now).1.client.isNone = false := by
      rw [openedEq]
      exact Bool.eq_false_iff.mpr connected
    obtain ⟨established, one⟩ := t.ensureConnected_established opening
    rw [openedEq] at established one
    split
    · -- The handshake is of another epoch, and may have been cached.
      generalize droppedEq : ({ opened with client := none } : EngineReceiptTransport γ) = dropped
      have empty : dropped.client = none := by rw [← droppedEq]
      generalize reopenedEq : dropped.ensureConnected deadline later = second
      obtain ⟨reopened, reopenedEvents⟩ := second
      dsimp only
      split
      · rename_i missing
        have failed := established.failed_careful one receipt dropped (by rw [reopenedEq]; exact missing)
        rwa [reopenedEq] at failed
      · rename_i reconnected
        have reopening : (dropped.ensureConnected deadline later).1.client.isNone = false := by
          rw [reopenedEq]
          exact Bool.eq_false_iff.mpr reconnected
        obtain ⟨reestablished, another⟩ := dropped.ensureConnected_established reopening
        rw [reopenedEq] at reestablished another
        have all := established.append reestablished
        have few : (openedEvents ++ reopenedEvents).length ≤ 2 := by
          simp only [List.length_append] at one another ⊢
          omega
        split
        · rename_i differs
          have condemned := established.condemned_careful one empty reopening (by rw [reopenedEq]; exact differs)
          rwa [reopenedEq] at condemned
        · rename_i same
          exact all.send_careful few (Bool.eq_false_iff.mpr reconnected) (Bool.eq_false_iff.mpr same) deadline
    · rename_i same
      exact established.send_careful (one.trans (by decide)) (Bool.eq_false_iff.mpr connected)
        (Bool.eq_false_iff.mpr same) deadline

end EngineReceiptTransport

end Nospacekey
