import Mathlib.Data.List.Range
import Nospacekey.Ipc.Progress
import Nospacekey.Library.Runs

/-! Requests and responses never slip out of step, whatever the deadlines and the kernel do. -/

namespace Nospacekey

open Framing Runs

variable {Req Resp : Type}

/-- The calls that the owner of a client makes. -/
inductive ClientCall (Req : Type) where
  | request (req : Req)
  | requestWithin (req : Req) (deadline : Nat)
  | requestWithinKeep (req : Req) (deadline : Nat)
  | drainPending (deadline : Nat)
  deriving Repr

namespace ClientCall

/-- The request that a call sends. -/
def req? : ClientCall Req → Option Req
  | .request req | .requestWithin req _ | .requestWithinKeep req _ => some req
  | .drainPending _ => none

/-- Whether an expired deadline of the call leaves the connection usable. -/
def keeps : ClientCall Req → Bool
  | .requestWithinKeep .. | .drainPending _ => true
  | _ => false

/-- What a call returns, with the operations that the kernel performs for it. -/
def perform (codec : Codec Req Resp) (server : Server) (client : EngineClient) (ios : List KernelIo) :
    ClientCall Req → Except IoErrorKind (Option Resp) × EngineClient
  | .request req => (client.request codec server req ios).map (·.map some) id
  | .requestWithin req deadline => (client.requestWithin codec server req deadline ios).map (·.map some) id
  | .requestWithinKeep req deadline => (client.requestWithinKeep codec server req deadline ios).map (·.map some) id
  | .drainPending deadline => client.drainPending codec deadline ios

end ClientCall

/-- A call that was made: the request it made whole and the request whose answer it delivered, by
their position at the server, and what it returned. -/
structure Exchange (Req Resp : Type) where
  call : ClientCall Req
  served : Option Nat
  delivered : Option Nat
  answer : Except IoErrorKind (Option Resp)

namespace Exchange

/-- Whether the call kept the connection although its deadline had expired. -/
def keptOwing (exchange : Exchange Req Resp) : Bool :=
  match exchange.call, exchange.answer with
  | .requestWithinKeep .., .error .timedOut => true
  | _, _ => false

/-- Whether the call failed in a way that leaves a frame half written or half read. -/
def broke (exchange : Exchange Req Resp) : Bool :=
  match exchange.answer with
  | .ok _ => false
  | .error error => error ≠ .invalidInput && !(exchange.call.keeps && error = .timedOut)

end Exchange

/-- The request whose answer the last call that kept an expired connection left owed. -/
def owedBy (history : List (Exchange Req Resp)) : Option Nat := (history.find? (·.keptOwing)).bind (·.served)

/-- A connection and the calls made on it, the last one first. -/
structure LinkSession (Req Resp : Type) where
  client : EngineClient
  history : List (Exchange Req Resp)

namespace LinkSession

/-- A connection that has just been made. -/
def connected : LinkSession Req Resp where
  client := .connected
  history := []

/-- The requests that the server has received. -/
def requests (s : LinkSession Req Resp) : List Bytes := s.client.pipe.requests

/-- The requests whose answers were delivered. -/
def delivered (s : LinkSession Req Resp) : List Nat := s.history.filterMap (·.delivered)

/-- One call, recorded: a request delivers its own answer, and a drain that of the owed request. -/
def step (codec : Codec Req Resp) (server : Server) (s : LinkSession Req Resp)
    (op : ClientCall Req × List KernelIo) : LinkSession Req Resp :=
  let performed := op.1.perform codec server s.client op.2
  let served :=
    if s.requests.length < performed.2.pipe.requests.length then some s.requests.length else none
  let delivered :=
    match performed.1 with
    | .ok (some _) => if op.1.req?.isSome then served else owedBy s.history
    | _ => none
  { client := performed.2
    history := { call := op.1, served, delivered, answer := performed.1 } :: s.history }

end LinkSession

/-- A connection that is still in step: at most one answer is owed, and it can be read on. -/
structure EngineClient.Aligned (server : Server) (client : EngineClient) : Prop where
  idle : client.pipe.peer.inbox = []
  free : client.pending = none → client.pipe.unread = []
  owes : ∀ pending, client.pending = some pending → Resumes pending (server client.pipe.requests) client.pipe.unread

/-- What a call on a connection in step can do. -/
inductive CallEffect (codec : Codec Req Resp) (server : Server) (client : EngineClient) (call : ClientCall Req) :
    Except IoErrorKind (Option Resp) → EngineClient → Prop
  /-- The call is refused before any operation, or there is nothing to drain. -/
  | refused : CallEffect codec server client call (.error .invalidInput) client
  | nothing (idle : client.pending = none) (drain : call.req? = none) :
    CallEffect codec server client call (.ok none) client
  /-- The request is sent in part or as a whole, and its answer is lost. -/
  | broke {error : IoErrorKind} {client' : EngineClient} (poisoned : client'.poisoned = true)
      (invalid : error ≠ .invalidInput) (timedOut : error = .timedOut → call.keeps = false)
      (sent : (client'.pipe.peer = client.pipe.peer ∧ client'.pipe.written = client.pipe.written) ∨
        ∃ req body count, call.req? = some req ∧ codec.toVec req = some body ∧ body.length < 2 ^ 32 ∧
          count ≤ (frame body).length ∧ client.pending = none ∧
          client'.pipe.peer = client.pipe.peer.receiveAll ((frame body).take count) ∧
          client'.pipe.written = client.pipe.written ++ (frame body).take count) :
    CallEffect codec server client call (.error error) client'
  /-- The request is sent and the whole answer is read. -/
  | answered {req : Req} {body : Bytes} {resp : Resp} {pipe : Pipe} (asks : call.req? = some req)
      (encoded : codec.toVec req = some body) (free : client.pending = none)
      (peer : pipe.peer = ⟨[], client.pipe.requests ++ [body]⟩)
      (written : pipe.written = client.pipe.written ++ frame body) (unread : pipe.unread = [])
      (parsed : codec.fromSlice (server (client.pipe.requests ++ [body])).bytes = some resp) :
    CallEffect codec server client call (.ok (some resp)) { client with pipe }
  /-- The request is sent and its answer stays owed. -/
  | kept {req : Req} {deadline : Nat} {body : Bytes} {pending : PendingResponseFrame} {pipe : Pipe}
      (keep : call = .requestWithinKeep req deadline) (encoded : codec.toVec req = some body)
      (free : client.pending = none) (peer : pipe.peer = ⟨[], client.pipe.requests ++ [body]⟩)
      (written : pipe.written = client.pipe.written ++ frame body)
      (resumes : Resumes pending (server (client.pipe.requests ++ [body])) pipe.unread) :
    CallEffect codec server client call (.error .timedOut) { client with pipe, pending := some pending }
  /-- The owed answer is read to its end. -/
  | drained {pending : PendingResponseFrame} {resp : Resp} {pipe : Pipe} (drain : call.req? = none)
      (owed : client.pending = some pending) (peer : pipe.peer = client.pipe.peer)
      (written : pipe.written = client.pipe.written) (unread : pipe.unread = [])
      (parsed : codec.fromSlice (server client.pipe.requests).bytes = some resp) :
    CallEffect codec server client call (.ok (some resp)) { client with pipe, pending := none }
  /-- The owed answer is read on, and stays owed. -/
  | postponed {deadline : Nat} {before after : PendingResponseFrame} {pipe : Pipe} (drain : call = .drainPending deadline)
      (owed : client.pending = some before) (peer : pipe.peer = client.pipe.peer)
      (written : pipe.written = client.pipe.written)
      (resumes : Resumes after (server client.pipe.requests) pipe.unread) :
    CallEffect codec server client call (.error .timedOut) { client with pipe, pending := some after }

namespace EngineClient

variable {codec : Codec Req Resp} {server : Server} {client : EngineClient}

variable (codec) in
/-- What is read after a request was sent as a whole. -/
theorem answer_spec (aligned : client.Aligned server) (free : client.pending = none) {body : Bytes}
    (fits : body.length < 2 ^ 32) (deadline : Option Nat) (ios : List KernelIo) :
    ResponseRead codec (server (client.pipe.requests ++ [body])) (client.pipe.sendAll server (frame body))
      (readResponseProgress codec (client.pipe.sendAll server (frame body)) deadline .default ios) := by
  refine readResponseProgress_spec codec ?_ deadline ios
  rw [Pipe.sendAll_frame server fits aligned.idle, aligned.free free, List.nil_append]
  exact Resumes.default _

/-- The pipe after a request was sent as a whole. -/
theorem sent_spec (aligned : client.Aligned server) {body : Bytes} (fits : body.length < 2 ^ 32) :
    (client.pipe.sendAll server (frame body)).peer = ⟨[], client.pipe.requests ++ [body]⟩ ∧
      (client.pipe.sendAll server (frame body)).written = client.pipe.written ++ frame body := by
  rw [Pipe.sendAll_peer, Receiver.receiveAll_frame fits aligned.idle, Pipe.sendAll_written]
  exact ⟨rfl, rfl⟩

/-- The pipe after a failed write of a request. -/
theorem sent_of_failed {call : ClientCall Req} {req : Req} (asks : call.req? = some req)
    (free : client.pending = none) {error : Except IoErrorKind Unit} {pipe : Pipe}
    (wrote : WroteRequest codec server client.pipe req (error, pipe)) :
    (pipe.peer = client.pipe.peer ∧ pipe.written = client.pipe.written) ∨
      ∃ req body count, call.req? = some req ∧ codec.toVec req = some body ∧ body.length < 2 ^ 32 ∧
        count ≤ (frame body).length ∧ client.pending = none ∧
        pipe.peer = client.pipe.peer.receiveAll ((frame body).take count) ∧
        pipe.written = client.pipe.written ++ (frame body).take count := by
  obtain same | ⟨body, count, encoded, fits, within, sent⟩ := wrote.sent
  · exact .inl ⟨congrArg Pipe.peer same, congrArg Pipe.written same⟩
  · refine .inr ⟨req, body, count, asks, encoded, fits, within, free, ?_, ?_⟩
    · exact (congrArg Pipe.peer sent).trans (Pipe.sendAll_peer ..)
    · exact (congrArg Pipe.written sent).trans (Pipe.sendAll_written ..)

/-- The pipe after a request was sent as a whole and its answer was lost. -/
theorem sent_of_unanswered {call : ClientCall Req} {req : Req} {body : Bytes}
    (asks : call.req? = some req) (free : client.pending = none) (encoded : codec.toVec req = some body)
    (fits : body.length < 2 ^ 32) {pipe : Pipe} (peer : pipe.peer = (client.pipe.sendAll server (frame body)).peer)
    (written : pipe.written = (client.pipe.sendAll server (frame body)).written) :
    ∃ req body count, call.req? = some req ∧ codec.toVec req = some body ∧ body.length < 2 ^ 32 ∧
      count ≤ (frame body).length ∧ client.pending = none ∧
      pipe.peer = client.pipe.peer.receiveAll ((frame body).take count) ∧
      pipe.written = client.pipe.written ++ (frame body).take count := by
  refine ⟨req, body, _, asks, encoded, fits, Nat.le_refl _, free, ?_, ?_⟩
  · rw [peer, List.take_length, Pipe.sendAll_peer]
  · rw [written, List.take_length, Pipe.sendAll_written]

/-- A client in step refuses a request while an answer is owed. -/
theorem ensureReady_of_owed (usable : client.poisoned = false) {pending : PendingResponseFrame}
    (owed : client.pending = some pending) : client.ensureReady = .error .invalidInput := by
  rw [ensureReady, if_neg (by simp [usable]), owed]
  rfl

/-- A client in step accepts a request while no answer is owed. -/
theorem ensureReady_of_free (usable : client.poisoned = false) (free : client.pending = none) :
    client.ensureReady = .ok () := by
  rw [ensureReady, if_neg (by simp [usable]), free]
  rfl

/-- What a request without a retained frame can do. -/
theorem exchange_effect (usable : client.poisoned = false) (aligned : client.Aligned server)
    {call : ClientCall Req} {req : Req} (asks : call.req? = some req) (discards : call.keeps = false)
    (deadline : Option Nat) (ios : List KernelIo) :
    CallEffect codec server client call
      ((client.exchange codec server req deadline ios).1.map some) (client.exchange codec server req deadline ios).2 := by
  unfold exchange
  obtain free | ⟨pending, owed⟩ := Option.eq_none_or_eq_some client.pending
  · rw [ensureReady_of_free usable free]
    have wrote := writeRequest_spec codec server client.pipe req deadline ios
    generalize writeRequest codec server client.pipe req deadline ios = result at wrote
    obtain ⟨result, pipe, rest⟩ := result
    cases result with
    | error error =>
      have failed (invalid : error ≠ .invalidInput) : CallEffect codec server client call
          (.error error : Except IoErrorKind (Option Resp)) { client with pipe, poisoned := true } :=
        .broke rfl invalid (fun _ => discards) (sent_of_failed asks free wrote)
      cases error with
      | invalidInput =>
        obtain rfl : pipe = client.pipe := wrote.rejected rfl
        exact .refused
      | _ => exact failed nofun
    | ok =>
      obtain ⟨body, encoded, fits, sent⟩ := wrote.whole rfl
      obtain rfl : pipe = client.pipe.sendAll server (frame body) := sent
      have read := answer_spec codec aligned free fits deadline rest
      obtain ⟨peer, written⟩ := sent_spec aligned fits
      dsimp only
      generalize readResponseProgress codec (client.pipe.sendAll server (frame body)) deadline .default rest =
        outcome at read
      obtain ⟨outcome, pipe, pending⟩ := outcome
      cases outcome with
      | ok resp =>
        obtain ⟨parsed, unread⟩ := read.whole resp rfl
        exact .answered asks encoded free (read.peer.trans peer) (read.written.trans written) unread parsed
      | error error =>
        exact .broke rfl (fun invalid => read.kind (congrArg Except.error invalid)) (fun _ => discards)
          (.inr (sent_of_unanswered asks free encoded fits read.peer read.written))
  · rw [ensureReady_of_owed usable owed]
    exact .refused

/-- What a request with a retained frame can do. -/
theorem requestWithinKeep_effect (usable : client.poisoned = false) (aligned : client.Aligned server)
    (req : Req) (deadline : Nat) (ios : List KernelIo) :
    CallEffect codec server client (.requestWithinKeep req deadline)
      ((client.requestWithinKeep codec server req deadline ios).1.map some)
      (client.requestWithinKeep codec server req deadline ios).2 := by
  unfold requestWithinKeep
  obtain free | ⟨pending, owed⟩ := Option.eq_none_or_eq_some client.pending
  · rw [ensureReady_of_free usable free]
    have wrote := writeRequest_spec codec server client.pipe req (some deadline) ios
    generalize writeRequest codec server client.pipe req (some deadline) ios = result at wrote
    obtain ⟨result, pipe, rest⟩ := result
    cases result with
    | error error =>
      -- A request that is partly written breaks the connection, also when it timed out.
      have failed {kind : IoErrorKind} (invalid : kind ≠ .invalidInput) (timely : kind ≠ .timedOut) :
          CallEffect codec server client (.requestWithinKeep req deadline)
            (.error kind : Except IoErrorKind (Option Resp)) { client with pipe, poisoned := true } :=
        .broke rfl invalid (fun late => absurd late timely) (sent_of_failed rfl free wrote)
      cases error with
      | invalidInput =>
        obtain rfl : pipe = client.pipe := wrote.rejected rfl
        exact .refused
      | _ => exact failed nofun nofun
    | ok =>
      obtain ⟨body, encoded, fits, sent⟩ := wrote.whole rfl
      obtain rfl : pipe = client.pipe.sendAll server (frame body) := sent
      have read := answer_spec codec aligned free fits (some deadline) rest
      obtain ⟨peer, written⟩ := sent_spec aligned fits
      dsimp only
      generalize readResponseProgress codec (client.pipe.sendAll server (frame body)) (some deadline) .default rest =
        outcome at read
      obtain ⟨outcome, pipe, pending⟩ := outcome
      cases outcome with
      | ok resp =>
        obtain ⟨parsed, unread⟩ := read.whole resp rfl
        exact .answered rfl encoded free (read.peer.trans peer) (read.written.trans written) unread parsed
      | error error =>
        have failed (timely : error ≠ .timedOut) : CallEffect codec server client (.requestWithinKeep req deadline)
            (.error error : Except IoErrorKind (Option Resp)) { client with pipe, poisoned := true } :=
          .broke rfl (fun invalid => read.kind (congrArg Except.error invalid)) (fun late => absurd late timely)
            (.inr (sent_of_unanswered rfl free encoded fits read.peer read.written))
        cases error with
        | timedOut =>
          exact .kept rfl encoded free (read.peer.trans peer) (read.written.trans written) (read.resumes rfl)
        | _ => exact failed nofun
  · rw [ensureReady_of_owed usable owed]
    exact .refused

/-- What a drain can do. -/
theorem drainPending_effect (usable : client.poisoned = false) (aligned : client.Aligned server)
    (deadline : Nat) (ios : List KernelIo) :
    CallEffect codec server client (.drainPending deadline : ClientCall Req)
      (client.drainPending codec deadline ios).1 (client.drainPending codec deadline ios).2 := by
  unfold drainPending
  rw [if_neg (by simp [usable])]
  obtain free | ⟨pending, owed⟩ := Option.eq_none_or_eq_some client.pending
  · simp only [free]
    exact .nothing free rfl
  · have read := readResponseProgress_spec codec (aligned.owes pending owed) (some deadline) ios
    simp only [owed]
    generalize readResponseProgress codec client.pipe (some deadline) pending ios = outcome at read
    obtain ⟨outcome, pipe, after⟩ := outcome
    cases outcome with
    | ok resp =>
      obtain ⟨parsed, unread⟩ := read.whole resp rfl
      exact .drained rfl owed read.peer read.written unread parsed
    | error error =>
      have failed (timely : error ≠ .timedOut) : CallEffect codec server client (.drainPending deadline : ClientCall Req)
          (.error error : Except IoErrorKind (Option Resp)) { client with pipe, pending := none, poisoned := true } :=
        .broke rfl (fun invalid => read.kind (congrArg Except.error invalid)) (fun late => absurd late timely)
          (.inl ⟨read.peer, read.written⟩)
      cases error with
      | timedOut => exact .postponed rfl owed read.peer read.written (read.resumes rfl)
      | _ => exact failed nofun

variable (codec) in
/-- What a call on a connection in step can do. -/
theorem perform_effect (usable : client.poisoned = false) (aligned : client.Aligned server)
    (call : ClientCall Req) (ios : List KernelIo) :
    CallEffect codec server client call (call.perform codec server client ios).1
      (call.perform codec server client ios).2 := by
  cases call with
  | request req => exact exchange_effect usable aligned rfl rfl none ios
  | requestWithin req deadline => exact exchange_effect usable aligned rfl rfl (some deadline) ios
  | requestWithinKeep req deadline => exact requestWithinKeep_effect usable aligned req deadline ios
  | drainPending deadline => exact drainPending_effect usable aligned deadline ios

variable (codec server) in
/-- A poisoned connection is never touched again. -/
theorem perform_of_poisoned (poisoned : client.poisoned = true) (call : ClientCall Req) (ios : List KernelIo) :
    call.perform codec server client ios = (.error .connectionAborted, client) := by
  have refused : client.ensureReady = .error .connectionAborted := by rw [ensureReady, if_pos poisoned]
  cases call with
  | request req => simp [ClientCall.perform, request, exchange, refused, Except.map]
  | requestWithin req deadline => simp [ClientCall.perform, requestWithin, exchange, refused, Except.map]
  | requestWithinKeep req deadline => simp [ClientCall.perform, requestWithinKeep, refused, Except.map]
  | drainPending deadline => simp [ClientCall.perform, drainPending, poisoned]

end EngineClient

namespace LinkSession

variable {codec : Codec Req Resp} {server : Server} {s : LinkSession Req Resp}

/-- What a drain delivers is the answer to the last call that kept an expired connection, and what a
request delivers is its own. -/
def DeliversOwn (exchange : Exchange Req Resp) (earlier : List (Exchange Req Resp)) : Prop :=
  ∀ index, exchange.delivered = some index →
    (if exchange.call.req?.isSome then exchange.served else owedBy earlier) = some index

/-- What the record of a connection says about the requests and answers that passed over it. -/
structure Recorded (codec : Codec Req Resp) (server : Server) (s : LinkSession Req Resp) : Prop where
  /-- A request that became whole at the server is that of the call which made it whole. -/
  served : ∀ exchange ∈ s.history, ∀ index, exchange.served = some index →
    ∃ req body, exchange.call.req? = some req ∧ codec.toVec req = some body ∧ s.requests[index]? = some body
  /-- An answer that a call returned is the server's answer to the request it delivers. -/
  answered : ∀ exchange ∈ s.history, ∀ resp, exchange.answer = .ok (some resp) →
    ∃ index, exchange.delivered = some index ∧ index < s.requests.length ∧
      codec.fromSlice (server (s.requests.take (index + 1))).bytes = some resp
  own : ∀ exchange earlier, (exchange :: earlier) <:+ s.history → DeliversOwn exchange earlier
  once : s.delivered.Nodup
  within : ∀ index ∈ s.delivered, index < s.requests.length
  poisoned : s.client.poisoned = true ↔ ∃ exchange ∈ s.history, exchange.broke = true

/-- The answers that are due: all were delivered but the one that the last expired call left owed. -/
structure Due (s : LinkSession Req Resp) : Prop where
  free : s.client.pending = none → s.delivered = (List.range s.requests.length).reverse
  owes : s.client.pending.isSome = true → ∃ last, s.requests.length = last + 1 ∧
    s.delivered = (List.range last).reverse ∧ owedBy s.history = some last

/-- The record of a connection, and its state while it is usable. -/
structure Sound (codec : Codec Req Resp) (server : Server) (s : LinkSession Req Resp) : Prop
    extends Recorded codec server s where
  aligned : s.client.poisoned = false → s.client.Aligned server ∧ s.Due

/-- A call that is recorded truthfully keeps the record true. -/
theorem Recorded.record (recorded : s.Recorded codec server) {client : EngineClient} {exchange : Exchange Req Resp}
    (added : List Bytes) (requests : client.pipe.requests = s.requests ++ added)
    (served : ∀ index, exchange.served = some index → ∃ req body, exchange.call.req? = some req ∧
      codec.toVec req = some body ∧ client.pipe.requests[index]? = some body)
    (answered : ∀ resp, exchange.answer = .ok (some resp) → ∃ index, exchange.delivered = some index ∧
      codec.fromSlice (server (client.pipe.requests.take (index + 1))).bytes = some resp)
    (own : DeliversOwn exchange s.history)
    (fresh : ∀ index, exchange.delivered = some index → index ∉ s.delivered ∧ index < client.pipe.requests.length)
    (poisoned : client.poisoned = true ↔ exchange.broke = true ∨ s.client.poisoned = true) :
    Recorded codec server ⟨client, exchange :: s.history⟩ := by
  have grown : s.requests.length ≤ client.pipe.requests.length := by
    rw [requests, List.length_append]
    omega
  refine
    { served := fun other member index served' => ?_, answered := fun other member resp answered' => ?_,
      own := fun other earlier suffix => ?_, once := ?_, within := fun index member => ?_, poisoned := ?_ }
  · obtain rfl | earlier := List.mem_cons.mp member
    · exact served index served'
    · obtain ⟨req, body, asks, encoded, at_⟩ := recorded.served other earlier index served'
      refine ⟨req, body, asks, encoded, ?_⟩
      show client.pipe.requests[index]? = some body
      rw [requests, List.getElem?_append_left (List.getElem?_eq_some_iff.mp at_).1, at_]
  · obtain rfl | earlier := List.mem_cons.mp member
    · obtain ⟨index, delivered, parsed⟩ := answered resp answered'
      exact ⟨index, delivered, (fresh index delivered).2, parsed⟩
    · -- Later requests do not change what the server saw before.
      obtain ⟨index, delivered, within, parsed⟩ := recorded.answered other earlier resp answered'
      refine ⟨index, delivered, Nat.lt_of_lt_of_le within grown, ?_⟩
      show codec.fromSlice (server (client.pipe.requests.take (index + 1))).bytes = some resp
      rw [requests, List.take_append_of_le_length within]
      exact parsed
  · obtain same | later := List.suffix_cons_iff.mp suffix
    · obtain ⟨rfl, rfl⟩ := List.cons.inj same
      exact own
    · exact recorded.own other earlier later
  · show ((exchange :: s.history).filterMap (·.delivered)).Nodup
    cases delivered : exchange.delivered with
    | none => rw [List.filterMap_cons_none delivered]; exact recorded.once
    | some index =>
      rw [List.filterMap_cons_some delivered]
      exact List.nodup_cons.mpr ⟨(fresh index delivered).1, recorded.once⟩
  · obtain ⟨other, belongs, delivered⟩ := List.mem_filterMap.mp member
    obtain rfl | earlier := List.mem_cons.mp belongs
    · exact (fresh index delivered).2
    · exact Nat.lt_of_lt_of_le (recorded.within index (List.mem_filterMap.mpr ⟨other, earlier, delivered⟩)) grown
  · rw [poisoned, recorded.poisoned]
    simp

/-- A call that neither completes a request nor returns an answer keeps the record true. -/
theorem Recorded.record_silent (recorded : s.Recorded codec server) {client : EngineClient}
    {call : ClientCall Req} {answer : Except IoErrorKind (Option Resp)}
    (requests : client.pipe.requests = s.requests) (silent : ∀ resp, answer ≠ .ok (some resp))
    (poisoned : client.poisoned = true ↔
      (Exchange.mk call none none answer).broke = true ∨ s.client.poisoned = true) :
    Recorded codec server ⟨client, ⟨call, none, none, answer⟩ :: s.history⟩ :=
  recorded.record [] (by rw [requests, List.append_nil]) nofun
    (fun resp answered => absurd answered (silent resp)) nofun nofun poisoned

/-- All calls before were answered when nothing is owed. -/
theorem Due.fresh (due : s.Due) (free : s.client.pending = none) : s.requests.length ∉ s.delivered := by
  rw [due.free free]
  simp

/-- A call that neither delivers an answer nor leaves one owed changes nothing of what is due. -/
theorem Due.silent (due : s.Due) {client : EngineClient} {exchange : Exchange Req Resp}
    (requests : client.pipe.requests = s.requests) (pending : client.pending.isSome = s.client.pending.isSome)
    (delivered : exchange.delivered = none) (owing : exchange.keptOwing = false) :
    Due ⟨client, exchange :: s.history⟩ := by
  have same : LinkSession.delivered ⟨client, exchange :: s.history⟩ = s.delivered :=
    List.filterMap_cons_none delivered
  have owed : owedBy (exchange :: s.history) = owedBy s.history := by
    rw [owedBy, List.find?_cons_of_neg (by simp [owing])]
    rfl
  refine ⟨fun free => ?_, fun owes => ?_⟩
  · rw [same]
    refine (due.free ?_).trans (congrArg (fun bodies => (List.range bodies.length).reverse) requests.symm)
    rw [← Option.not_isSome_iff_eq_none, ← pending]
    simpa using free
  · obtain ⟨last, count, answers, owes⟩ := due.owes (pending ▸ owes)
    exact ⟨last, (congrArg List.length requests).trans count, same.trans answers, owed.trans owes⟩

/-- The requests that are counted from the last one back. -/
theorem reverse_range_succ (count : Nat) : (List.range (count + 1)).reverse = count :: (List.range count).reverse := by
  rw [List.range_succ, List.reverse_append]
  rfl

/-- A call that is answered at once. -/
theorem Sound.answered_step (sound : s.Sound codec server) (usable : s.client.poisoned = false)
    {call : ClientCall Req} {req : Req} {body : Bytes} {resp : Resp} {pipe : Pipe} (asks : call.req? = some req)
    (encoded : codec.toVec req = some body) (free : s.client.pending = none)
    (peer : pipe.peer = ⟨[], s.requests ++ [body]⟩) (unread : pipe.unread = [])
    (parsed : codec.fromSlice (server (s.requests ++ [body])).bytes = some resp) :
    Sound codec server ⟨{ s.client with pipe },
      ⟨call, some s.requests.length, some s.requests.length, .ok (some resp)⟩ :: s.history⟩ := by
  obtain ⟨aligned, due⟩ := sound.aligned usable
  have requests : pipe.requests = s.requests ++ [body] := congrArg Receiver.frames peer
  have newest : pipe.requests.length = s.requests.length + 1 := by rw [requests]; simp
  refine
    { toRecorded := sound.record [body] requests (fun index served => ?_) (fun answer answered => ?_)
        (fun index delivered => ?_) (fun index delivered => ?_) ?_,
      aligned := fun _ => ⟨⟨congrArg Receiver.inbox peer, fun _ => unread, fun pending owed => ?_⟩, ⟨fun _ => ?_, fun owes => ?_⟩⟩ }
  · obtain rfl := Option.some.inj served
    exact ⟨req, body, asks, encoded, by simp [requests]⟩
  · obtain rfl := Option.some.inj (Except.ok.inj answered)
    refine ⟨_, rfl, ?_⟩
    rw [← newest, List.take_length, requests]
    exact parsed
  · rw [if_pos (by simp [asks])]
    exact delivered
  · obtain rfl := Option.some.inj delivered
    exact ⟨due.fresh free, by rw [newest]; omega⟩
  · simp [Exchange.broke, usable]
  · exact absurd (free.symm.trans owed) nofun
  · show s.requests.length :: s.delivered = (List.range pipe.requests.length).reverse
    rw [newest, reverse_range_succ, due.free free]
  · exact absurd owes (by simp [free])

/-- A call whose answer stays owed. -/
theorem Sound.kept_step (sound : s.Sound codec server) (usable : s.client.poisoned = false) {req : Req}
    {deadline : Nat} {body : Bytes} {pending : PendingResponseFrame} {pipe : Pipe}
    (encoded : codec.toVec req = some body) (free : s.client.pending = none)
    (peer : pipe.peer = ⟨[], s.requests ++ [body]⟩)
    (resumes : Resumes pending (server (s.requests ++ [body])) pipe.unread) :
    Sound codec server ⟨{ s.client with pipe, pending := some pending },
      ⟨.requestWithinKeep req deadline, some s.requests.length, none, .error .timedOut⟩ :: s.history⟩ := by
  obtain ⟨aligned, due⟩ := sound.aligned usable
  have requests : pipe.requests = s.requests ++ [body] := congrArg Receiver.frames peer
  refine
    { toRecorded := sound.record [body] requests (fun index served => ?_) nofun nofun nofun ?_,
      aligned := fun _ => ⟨⟨congrArg Receiver.inbox peer, nofun, fun after owed => ?_⟩, ⟨nofun, fun _ => ?_⟩⟩ }
  · obtain rfl := Option.some.inj served
    exact ⟨req, body, rfl, encoded, by simp [requests]⟩
  · simp [Exchange.broke, ClientCall.keeps, usable]
  · obtain rfl := Option.some.inj owed
    show Resumes pending (server pipe.requests) pipe.unread
    rw [requests]
    exact resumes
  · exact ⟨s.requests.length, by simp [LinkSession.requests, requests], due.free free, rfl⟩

/-- A drain that reads the owed answer to its end. -/
theorem Sound.drained_step (sound : s.Sound codec server) (usable : s.client.poisoned = false)
    {call : ClientCall Req} {pending : PendingResponseFrame} {resp : Resp} {pipe : Pipe} (drain : call.req? = none)
    (owed : s.client.pending = some pending) (peer : pipe.peer = s.client.pipe.peer) (unread : pipe.unread = [])
    (parsed : codec.fromSlice (server s.requests).bytes = some resp) :
    Sound codec server ⟨{ s.client with pipe, pending := none },
      ⟨call, none, owedBy s.history, .ok (some resp)⟩ :: s.history⟩ := by
  obtain ⟨aligned, due⟩ := sound.aligned usable
  obtain ⟨last, count, answers, owes⟩ := due.owes (by simp [owed])
  have requests : pipe.requests = s.requests := congrArg Receiver.frames peer
  refine
    { toRecorded := sound.record [] (by rw [List.append_nil]; exact requests) nofun
        (fun answer answered => ?_) (fun index delivered => ?_) (fun index delivered => ?_) ?_,
      aligned := fun _ => ⟨⟨?_, fun _ => unread, nofun⟩, ⟨fun _ => ?_, nofun⟩⟩ }
  · obtain rfl := Option.some.inj (Except.ok.inj answered)
    refine ⟨last, owes, ?_⟩
    show codec.fromSlice (server (pipe.requests.take (last + 1))).bytes = some resp
    rw [requests, ← count, List.take_length]
    exact parsed
  · rw [if_neg (by simp [drain])]
    exact delivered
  · -- The owed answer is the only one that was not delivered yet.
    obtain rfl := Option.some.inj (owes.symm.trans delivered)
    refine ⟨by rw [answers]; simp, ?_⟩
    show last < pipe.requests.length
    rw [requests, count]
    omega
  · simp [Exchange.broke, usable]
  · show pipe.peer.inbox = []
    rw [peer]
    exact aligned.idle
  · show (⟨call, none, owedBy s.history, .ok (some resp)⟩ :: s.history).filterMap (·.delivered) =
      (List.range pipe.requests.length).reverse
    have newest : (Exchange.mk call none (owedBy s.history) (.ok (some resp))).delivered = some last := owes
    rw [List.filterMap_cons_some newest, requests, count, reverse_range_succ]
    exact congrArg (last :: ·) answers

/-- A call that fails for good. -/
theorem Sound.broke_step (sound : s.Sound codec server) {call : ClientCall Req} {error : IoErrorKind}
    {client : EngineClient} (poisoned : client.poisoned = true) (invalid : error ≠ .invalidInput)
    (timedOut : error = .timedOut → call.keeps = false) {served : Option Nat} (added : List Bytes)
    (requests : client.pipe.requests = s.requests ++ added)
    (own : ∀ index, served = some index → ∃ req body, call.req? = some req ∧ codec.toVec req = some body ∧
      client.pipe.requests[index]? = some body) :
    Sound codec server ⟨client, ⟨call, served, none, .error error⟩ :: s.history⟩ := by
  refine { toRecorded := sound.record added requests own nofun nofun nofun ?_, aligned := fun usable => ?_ }
  · have broke : (Exchange.mk call served none (.error error : Except IoErrorKind (Option Resp))).broke = true := by
      by_cases late : error = .timedOut
      · simp [Exchange.broke, late, timedOut late]
      · simp [Exchange.broke, late, invalid]
    exact iff_of_true poisoned (.inl broke)
  · rw [poisoned] at usable
    cases usable

/-- Every call keeps the record true. -/
theorem Sound.step (sound : s.Sound codec server) (op : ClientCall Req × List KernelIo) :
    (s.step codec server op).Sound codec server := by
  obtain ⟨call, ios⟩ := op
  cases usable : s.client.poisoned with
  | true =>
    have same := EngineClient.perform_of_poisoned codec server usable call ios
    simp only [LinkSession.step, same, LinkSession.requests, Nat.lt_irrefl, if_false]
    refine { toRecorded := sound.record_silent rfl nofun ?_, aligned := fun other => ?_ }
    · simp [Exchange.broke, usable]
    · rw [usable] at other
      cases other
  | false =>
    obtain ⟨aligned, due⟩ := sound.aligned usable
    have effect := EngineClient.perform_effect codec usable aligned call ios
    simp only [LinkSession.step]
    generalize (call.perform codec server s.client ios) = performed at effect
    obtain ⟨answer, client⟩ := performed
    -- Without a new request nothing is served, and with one it is the next at the server.
    have unserved {pipe : Pipe} (same : pipe.requests = s.requests) :
        (if s.requests.length < pipe.requests.length then some s.requests.length else none) = none := by
      rw [same]
      exact if_neg (Nat.lt_irrefl _)
    have served {pipe : Pipe} {body : Bytes} (grown : pipe.requests = s.requests ++ [body]) :
        (if s.requests.length < pipe.requests.length then some s.requests.length else none) =
          some s.requests.length := by
      rw [grown]
      exact if_pos (by simp)
    dsimp only at effect ⊢
    cases effect with
    | refused =>
      rw [unserved rfl]
      refine { toRecorded := sound.record_silent rfl nofun ?_, aligned := fun _ => ⟨aligned, due.silent rfl rfl rfl ?_⟩ }
      · simp [Exchange.broke, usable]
      · cases call <;> rfl
    | nothing idle drain =>
      rw [unserved rfl]
      refine { toRecorded := sound.record_silent rfl nofun ?_, aligned := fun _ => ⟨aligned, due.silent rfl rfl rfl ?_⟩ }
      · simp [Exchange.broke, usable]
      · cases call <;> rfl
    | broke poisoned invalid timedOut sent =>
      have unanswered (same : client.pipe.requests = s.requests) :
          Sound codec server ⟨client, ⟨call, none, none, .error _⟩ :: s.history⟩ :=
        sound.broke_step poisoned invalid timedOut [] (by rw [same, List.append_nil]) nofun
      obtain ⟨peer, _⟩ | ⟨req, body, count, asks, encoded, fits, within, free, peer, _⟩ := sent
      · rw [unserved (congrArg Receiver.frames peer)]
        exact unanswered (congrArg Receiver.frames peer)
      · -- The failed request may have reached the server as a whole.
        obtain cut | whole := Nat.lt_or_eq_of_le within
        · rw [Receiver.receiveAll_take_frame fits aligned.idle cut] at peer
          have same : client.pipe.requests = s.requests := by rw [Pipe.requests, peer]; rfl
          rw [unserved same]
          exact unanswered same
        · rw [whole, List.take_length, Receiver.receiveAll_frame fits aligned.idle] at peer
          have grown : client.pipe.requests = s.requests ++ [body] := congrArg Receiver.frames peer
          rw [served grown]
          refine sound.broke_step poisoned invalid timedOut [body] grown fun index same => ?_
          obtain rfl := Option.some.inj same
          exact ⟨req, body, asks, encoded, by simp [grown]⟩
    | answered asks encoded free peer written unread parsed =>
      rw [served (congrArg Receiver.frames peer), if_pos (by simp [asks])]
      exact sound.answered_step usable asks encoded free peer unread parsed
    | kept keep encoded free peer written resumes =>
      subst keep
      rw [served (congrArg Receiver.frames peer)]
      exact sound.kept_step usable encoded free peer resumes
    | drained drain owed peer written unread parsed =>
      rw [unserved (congrArg Receiver.frames peer), if_neg (by simp [drain])]
      exact sound.drained_step usable drain owed peer unread parsed
    | postponed drain owed peer written resumes =>
      subst drain
      have same : Pipe.requests _ = s.requests := congrArg Receiver.frames peer
      rw [unserved same]
      refine
        { toRecorded := sound.record_silent same nofun ?_,
          aligned := fun _ => ⟨⟨?_, nofun, fun pending after => ?_⟩, due.silent same (by simp [owed]) rfl rfl⟩ }
      · simp [Exchange.broke, ClientCall.keeps, usable]
      · exact (congrArg Receiver.inbox peer).trans aligned.idle
      · obtain rfl := Option.some.inj after
        exact same.symm ▸ resumes

/-- Every run of calls keeps the record true. -/
theorem run_sound (codec : Codec Req Resp) (server : Server) (ops : List (ClientCall Req × List KernelIo)) :
    (exec (LinkSession.step codec server) connected ops).Sound codec server := by
  refine exec_invariant_all (LinkSession.Sound codec server) (fun _ op sound => sound.step op) ?_ ops
  refine
    { served := nofun, answered := nofun, own := fun _ _ suffix => absurd (List.suffix_nil.mp suffix) nofun,
      once := List.nodup_nil, within := nofun, poisoned := ?_, aligned := fun _ => ⟨⟨rfl, fun _ => rfl, nofun⟩, ⟨fun _ => rfl, nofun⟩⟩ }
  exact iff_of_false nofun nofun

/-- What holds of a connection between any two calls. -/
structure InStep (codec : Codec Req Resp) (server : Server) (s : LinkSession Req Resp) : Prop
    extends Recorded codec server s where
  /-- A call writes at most a front of its own request, and only where no frame was cut short and no
  answer is owed. -/
  writes : ∀ (call : ClientCall Req) ios,
    (s.step codec server (call, ios)).client.pipe.written = s.client.pipe.written ∨
      ((∃ req body count, call.req? = some req ∧ codec.toVec req = some body ∧
          (s.step codec server (call, ios)).client.pipe.written =
            s.client.pipe.written ++ (frame body).take count) ∧
        s.client.pipe.peer.inbox = [] ∧ s.client.pipe.unread = [] ∧
        (∀ index < s.requests.length, index ∈ s.delivered) ∧ ∀ exchange ∈ s.history, exchange.broke = false)
  /-- Once a call broke, the connection is never touched again. -/
  dead : s.client.poisoned = true → ∀ (call : ClientCall Req) ios,
    call.perform codec server s.client ios = (.error .connectionAborted, s.client)

/-- In every run of calls, with any requests, deadlines, chunks and failures, an answer is that of the
server to the request of its call, the owed one is drained once, and nothing is written out of step. -/
theorem run_inStep (codec : Codec Req Resp) (server : Server) (ops : List (ClientCall Req × List KernelIo)) :
    (exec (LinkSession.step codec server) connected ops).InStep codec server := by
  have sound := run_sound codec server ops
  generalize exec (LinkSession.step codec server) connected ops = s at sound
  refine { toRecorded := sound.toRecorded, writes := fun call ios => ?_,
           dead := fun poisoned call ios => EngineClient.perform_of_poisoned codec server poisoned call ios }
  simp only [LinkSession.step]
  cases usable : s.client.poisoned with
  | true => exact .inl (by rw [EngineClient.perform_of_poisoned codec server usable])
  | false =>
    obtain ⟨aligned, due⟩ := sound.aligned usable
    -- A connection without an owed answer has delivered all of them.
    have clean (free : s.client.pending = none) :
        s.client.pipe.peer.inbox = [] ∧ s.client.pipe.unread = [] ∧
          (∀ index < s.requests.length, index ∈ s.delivered) ∧ ∀ exchange ∈ s.history, exchange.broke = false := by
      refine ⟨aligned.idle, aligned.free free, fun index within => ?_, fun exchange member => ?_⟩
      · rw [due.free free]
        exact List.mem_reverse.mpr (List.mem_range.mpr within)
      · refine Bool.eq_false_iff.mpr fun broke => ?_
        have poisoned := sound.poisoned.mpr ⟨exchange, member, broke⟩
        rw [usable] at poisoned
        cases poisoned
    have effect := EngineClient.perform_effect codec usable aligned call ios
    generalize (call.perform codec server s.client ios) = performed at effect
    obtain ⟨answer, client⟩ := performed
    dsimp only at effect ⊢
    cases effect with
    | refused | nothing => exact .inl rfl
    | broke _ _ _ sent =>
      obtain ⟨_, same⟩ | ⟨req, body, count, asks, encoded, _, _, free, _, written⟩ := sent
      · exact .inl same
      · exact .inr ⟨⟨req, body, count, asks, encoded, written⟩, clean free⟩
    | answered asks encoded free _ written =>
      exact .inr ⟨⟨_, _, _, asks, encoded, by rw [List.take_length]; exact written⟩, clean free⟩
    | kept keep encoded free _ written =>
      exact .inr ⟨⟨_, _, _, by rw [keep]; rfl, encoded, by rw [List.take_length]; exact written⟩, clean free⟩
    | drained _ _ _ written | postponed _ _ _ written => exact .inl written

end LinkSession

end Nospacekey
