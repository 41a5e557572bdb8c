import Nospacekey.Library.Framing

/-! The client of the engine's named pipe, the pipe, and a server that answers whole request frames in order. -/

namespace Nospacekey

open Framing

abbrev Bytes := List UInt8

inductive IoErrorKind where
  | timedOut
  | other
  | unexpectedEof
  | writeZero
  | invalidInput
  | invalidData
  | connectionAborted
  deriving DecidableEq, Repr

def maxRequestFrameLen : Nat := 256 * 1024

def maxResponseFrameLen : Nat := 16 * 1024 * 1024

/-- `ERROR_OPERATION_ABORTED`: the kernel confirms that a cancelled operation was not performed. -/
def errorOperationAborted : Nat := 995

inductive CancelledCompletion where
  | completed (bytes : Nat)
  | timedOut
  | failed (code : Nat)
  deriving DecidableEq, Repr

/-- A completion that won the race against its cancellation is still usable progress. -/
def classifyCancelledCompletion (waitTimedOut : Bool) (cancelError : Option Nat) (reap : Except Nat Nat) :
    CancelledCompletion :=
  match reap, cancelError with
  | .ok bytes, _ => .completed bytes
  | .error _, some error => .failed error
  | .error reapError, none =>
    if waitTimedOut && reapError = errorOperationAborted then .timedOut else .failed reapError

inductive OverlappedStart where
  | completed
  | pending
  | failed
  deriving DecidableEq, Repr

inductive EventWait where
  | signalled
  | timedOut
  | failed
  deriving DecidableEq, Repr

/-- What the kernel and the clock do with one overlapped operation. -/
structure KernelIo where
  now : Nat
  eventCreated : Bool
  start : OverlappedStart
  wait : EventWait
  /-- An error of the cancellation other than `ERROR_NOT_FOUND`. -/
  cancelError : Option Nat
  result : Except Nat Nat
  /-- The bytes that an operation has moved although it is reported as failed. -/
  moved : Nat

namespace KernelIo

/-- An operation moves no more bytes than there are. -/
def within (io : KernelIo) (limit : Nat) : KernelIo :=
  { io with result := io.result.map (min limit), moved := min limit io.moved }

/-- Whether the deadline has passed before the operation starts. -/
def late (io : KernelIo) (deadline : Option Nat) : Bool := deadline.any fun deadline => deadline ≤ io.now

/-- What the client learns of one operation. -/
def overlapped (io : KernelIo) (deadline : Option Nat) : Except IoErrorKind Nat :=
  if io.late deadline then .error .timedOut
  else if !io.eventCreated then .error .other
  else
    match io.start with
    | .completed => io.result.mapError fun _ => .other
    | .failed => .error .other
    | .pending =>
      match io.wait with
      | .signalled => io.result.mapError fun _ => .other
      | wait =>
        match classifyCancelledCompletion (wait = .timedOut) io.cancelError io.result with
        | .completed bytes => .ok bytes
        | .timedOut => .error .timedOut
        | .failed _ => .error .other

/-- The bytes that the operation has moved: none if it was never started, or was reported as aborted. -/
def transferred (io : KernelIo) (deadline : Option Nat) : Nat :=
  if io.late deadline || !io.eventCreated || io.start = .failed then 0
  else
    match io.result with
    | .ok bytes => bytes
    | .error code => if code = errorOperationAborted then 0 else io.moved

end KernelIo

/-- A body that a frame can carry. -/
structure FrameBody where
  bytes : Bytes
  fits : bytes.length < 2 ^ 32

/-- The answer of a server to its last request, which may depend on all requests before it. -/
abbrev Server := List Bytes → FrameBody

/-- A byte-mode pipe: the server's end, all bytes that were ever written to it, and those not yet read from it. -/
structure Pipe where
  peer : Receiver
  written : Bytes
  unread : Bytes
  deriving DecidableEq, Repr

namespace Pipe

/-- A pipe that has just been opened. -/
def opened : Pipe where
  peer := ⟨[], []⟩
  written := []
  unread := []

/-- The requests that the server has received. -/
def requests (pipe : Pipe) : List Bytes := pipe.peer.frames

/-- A byte reaches the server, which answers when it makes a request whole. -/
def send (server : Server) (pipe : Pipe) (byte : UInt8) : Pipe :=
  let peer := pipe.peer.receive byte
  { peer := peer
    written := pipe.written ++ [byte]
    unread :=
      if pipe.peer.frames.length < peer.frames.length then pipe.unread ++ frame (server peer.frames).bytes
      else pipe.unread }

/-- Bytes reach the server in their order. -/
def sendAll (server : Server) (pipe : Pipe) (bytes : Bytes) : Pipe := bytes.foldl (send server) pipe

/-- The bytes that were read are gone. -/
def drop (pipe : Pipe) (count : Nat) : Pipe := { pipe with unread := pipe.unread.drop count }

end Pipe

/-- What was read of the frame of a response so far, which can outlive one deadline. -/
structure PendingResponseFrame where
  header : Bytes
  headerRead : Nat
  body : Option Bytes
  bodyRead : Nat
  deriving DecidableEq, Repr

/-- A frame of which nothing has been read. -/
def PendingResponseFrame.default : PendingResponseFrame where
  header := List.replicate 4 0
  headerRead := 0
  body := none
  bodyRead := 0

/-- Bytes are read into a buffer behind those before them. -/
def fillBuffer (buffer : Bytes) (offset : Nat) (bytes : Bytes) : Bytes :=
  buffer.take offset ++ bytes ++ buffer.drop (offset + bytes.length)

/-- Fills a buffer from its offset on; beyond the operations that are given, one fails. -/
def readExactProgress (pipe : Pipe) (deadline : Option Nat) (buffer : Bytes) (offset : Nat) :
    List KernelIo → Except IoErrorKind Unit × Pipe × (Bytes × Nat) × List KernelIo
  | [] => (if offset < buffer.length then .error .other else .ok (), pipe, (buffer, offset), [])
  | io :: ios =>
    if offset < buffer.length then
      let io := io.within (min (buffer.length - offset) pipe.unread.length)
      let moved := io.transferred deadline
      match io.overlapped deadline with
      | .error error => (.error error, pipe.drop moved, (buffer, offset), ios)
      | .ok 0 => (.error .unexpectedEof, pipe.drop moved, (buffer, offset), ios)
      | .ok read =>
        readExactProgress (pipe.drop moved) deadline (fillBuffer buffer offset (pipe.unread.take moved)) (offset + read)
          ios
    else (.ok (), pipe, (buffer, offset), io :: ios)

/-- Writes all bytes of a buffer; beyond the operations that are given, one fails. -/
def writeAll (server : Server) (pipe : Pipe) (deadline : Option Nat) (buffer : Bytes) :
    List KernelIo → Except IoErrorKind Unit × Pipe × List KernelIo
  | [] => (if buffer.isEmpty then .ok () else .error .other, pipe, [])
  | io :: ios =>
    if buffer.isEmpty then (.ok (), pipe, io :: ios)
    else
      let io := io.within buffer.length
      let pipe := pipe.sendAll server (buffer.take (io.transferred deadline))
      match io.overlapped deadline with
      | .error error => (.error error, pipe, ios)
      | .ok 0 => (.error .writeZero, pipe, ios)
      | .ok wrote => writeAll server pipe deadline (buffer.drop wrote) ios

/-- The JSON of the requests and responses, which a library writes and reads. -/
structure Codec (Req Resp : Type) where
  toVec : Req → Option Bytes
  fromSlice : Bytes → Option Resp

variable {Req Resp : Type}

/-- Writes a request behind its length, unless it is too long: then nothing is written. -/
def writeRequest (codec : Codec Req Resp) (server : Server) (pipe : Pipe) (req : Req) (deadline : Option Nat)
    (ios : List KernelIo) : Except IoErrorKind Unit × Pipe × List KernelIo :=
  match codec.toVec req with
  | none => (.error .invalidData, pipe, ios)
  | some body =>
    if maxRequestFrameLen < body.length || 2 ^ 32 ≤ body.length then (.error .invalidInput, pipe, ios)
    else
      match writeAll server pipe deadline (toLeBytes body.length) ios with
      | (.error error, pipe, ios) => (.error error, pipe, ios)
      | (.ok (), pipe, ios) => writeAll server pipe deadline body ios

/-- Reads on in the body of a response and parses it when it is whole. -/
def readResponseBody (codec : Codec Req Resp) (pipe : Pipe) (deadline : Option Nat)
    (pending : PendingResponseFrame) (body : Bytes) (ios : List KernelIo) :
    Except IoErrorKind Resp × Pipe × PendingResponseFrame :=
  match readExactProgress pipe deadline body pending.bodyRead ios with
  | (.error error, pipe, (body, bodyRead), _) => (.error error, pipe, { pending with body := some body, bodyRead })
  | (.ok (), pipe, (body, bodyRead), _) =>
    match codec.fromSlice body with
    | some response => (.ok response, pipe, { pending with body := none, bodyRead })
    | none => (.error .invalidData, pipe, { pending with body := none, bodyRead })

/-- Reads on in the frame of a response, from where the last deadline left it. -/
def readResponseProgress (codec : Codec Req Resp) (pipe : Pipe) (deadline : Option Nat)
    (pending : PendingResponseFrame) (ios : List KernelIo) :
    Except IoErrorKind Resp × Pipe × PendingResponseFrame :=
  match readExactProgress pipe deadline pending.header pending.headerRead ios with
  | (.error error, pipe, (header, headerRead), _) => (.error error, pipe, { pending with header, headerRead })
  | (.ok (), pipe, (header, headerRead), ios) =>
    let pending := { pending with header, headerRead }
    let len := fromLeBytes header
    if maxResponseFrameLen < len then (.error .invalidData, pipe, pending)
    else readResponseBody codec pipe deadline pending (pending.body.getD (List.replicate len 0)) ios

/-- A client with its connection. A response that is owed blocks the next request, and a connection
that failed in the middle of a frame is never used again. -/
structure EngineClient where
  pipe : Pipe
  pending : Option PendingResponseFrame
  poisoned : Bool
  deriving DecidableEq, Repr

namespace EngineClient

/-- A client that has just connected. -/
def connected : EngineClient where
  pipe := .opened
  pending := none
  poisoned := false

def isPending (client : EngineClient) : Bool := client.pending.isSome

def ensureReady (client : EngineClient) : Except IoErrorKind Unit :=
  if client.poisoned then .error .connectionAborted
  else if client.pending.isSome then .error .invalidInput
  else .ok ()

/-- One request and its response without a retained frame: `request` without a deadline, `request_within` with one. -/
def exchange (codec : Codec Req Resp) (server : Server) (client : EngineClient) (req : Req) (deadline : Option Nat)
    (ios : List KernelIo) : Except IoErrorKind Resp × EngineClient :=
  match client.ensureReady with
  | .error error => (.error error, client)
  | .ok () =>
    match writeRequest codec server client.pipe req deadline ios with
    | (.error .invalidInput, pipe, _) => (.error .invalidInput, { client with pipe })
    | (.error error, pipe, _) => (.error error, { client with pipe, poisoned := true })
    | (.ok (), pipe, ios) =>
      match readResponseProgress codec pipe deadline .default ios with
      | (.ok response, pipe, _) => (.ok response, { client with pipe })
      | (.error error, pipe, _) => (.error error, { client with pipe, poisoned := true })

/-- One request and its response, without a deadline. -/
def request (codec : Codec Req Resp) (server : Server) (client : EngineClient) (req : Req) (ios : List KernelIo) :
    Except IoErrorKind Resp × EngineClient :=
  client.exchange codec server req none ios

/-- One request and its response until a deadline. The caller discards the connection on any read failure. -/
def requestWithin (codec : Codec Req Resp) (server : Server) (client : EngineClient) (req : Req) (deadline : Nat)
    (ios : List KernelIo) : Except IoErrorKind Resp × EngineClient :=
  client.exchange codec server req (some deadline) ios

/-- One request and its response until a deadline, after which the frame of the response is retained. -/
def requestWithinKeep (codec : Codec Req Resp) (server : Server) (client : EngineClient) (req : Req) (deadline : Nat)
    (ios : List KernelIo) : Except IoErrorKind Resp × EngineClient :=
  match client.ensureReady with
  | .error error => (.error error, client)
  | .ok () =>
    match writeRequest codec server client.pipe req (some deadline) ios with
    | (.error .invalidInput, pipe, _) => (.error .invalidInput, { client with pipe })
    -- A partly written request cannot be recovered by any response.
    | (.error .timedOut, pipe, _) => (.error .connectionAborted, { client with pipe, poisoned := true })
    | (.error error, pipe, _) => (.error error, { client with pipe, poisoned := true })
    | (.ok (), pipe, ios) =>
      match readResponseProgress codec pipe (some deadline) .default ios with
      | (.ok response, pipe, _) => (.ok response, { client with pipe })
      | (.error .timedOut, pipe, pending) => (.error .timedOut, { client with pipe, pending := some pending })
      | (.error error, pipe, _) => (.error error, { client with pipe, poisoned := true })

/-- Reads on in a response that is owed, if any. -/
def drainPending (codec : Codec Req Resp) (client : EngineClient) (deadline : Nat) (ios : List KernelIo) :
    Except IoErrorKind (Option Resp) × EngineClient :=
  if client.poisoned then (.error .connectionAborted, client)
  else
    match client.pending with
    | none => (.ok none, client)
    | some pending =>
      match readResponseProgress codec client.pipe (some deadline) pending ios with
      | (.ok response, pipe, _) => (.ok (some response), { client with pipe, pending := none })
      | (.error .timedOut, pipe, pending) => (.error .timedOut, { client with pipe, pending := some pending })
      | (.error error, pipe, _) => (.error error, { client with pipe, pending := none, poisoned := true })

end EngineClient

end Nospacekey
