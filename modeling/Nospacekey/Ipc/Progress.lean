import Nospacekey.Ipc.Client

/-! What one read, one write and one frame do to a pipe, and which of their failures lose nothing. -/

namespace Nospacekey

open Framing

namespace KernelIo

/-- Whether the operation reaches the kernel. -/
def begins (io : KernelIo) (deadline : Option Nat) : Bool :=
  !(io.late deadline || !io.eventCreated || io.start = .failed)

/-- The client learns of the kernel's success, of a confirmed abort or an expired deadline as a
timeout, and of anything else as an error. -/
theorem overlapped_cases (io : KernelIo) (deadline : Option Nat) :
    io.overlapped deadline = .error .other ∨
      (io.begins deadline = false ∧ io.overlapped deadline = .error .timedOut) ∨
      (io.begins deadline = true ∧ io.result = .error errorOperationAborted ∧
        io.overlapped deadline = .error .timedOut) ∨
      (io.begins deadline = true ∧ ∃ bytes, io.result = .ok bytes ∧ io.overlapped deadline = .ok bytes) := by
  unfold overlapped begins
  cases late : io.late deadline with
  | true => exact .inr (.inl ⟨rfl, rfl⟩)
  | false =>
    cases created : io.eventCreated with
    | false => exact .inl rfl
    | true =>
      cases start : io.start with
      | failed => exact .inl rfl
      | completed =>
        cases result : io.result with
        | ok bytes => exact .inr (.inr (.inr ⟨rfl, bytes, rfl, rfl⟩))
        | error code => exact .inl rfl
      | pending =>
        cases result : io.result with
        | ok bytes =>
          -- A completion counts, even when it won the race against its cancellation.
          refine .inr (.inr (.inr ⟨rfl, bytes, rfl, ?_⟩))
          cases wait : io.wait <;> rfl
        | error code =>
          cases wait : io.wait with
          | signalled => exact .inl rfl
          | failed => cases cancelled : io.cancelError <;> exact .inl rfl
          | timedOut =>
            cases cancelled : io.cancelError with
            | some error => exact .inl rfl
            | none =>
              by_cases aborted : code = errorOperationAborted
              · exact .inr (.inr (.inl ⟨rfl, congrArg Except.error aborted, by
                  simp [classifyCancelledCompletion, aborted]⟩))
              · exact .inl (by simp [classifyCancelledCompletion, aborted])

/-- An operation that succeeds has moved the bytes it reports. -/
theorem transferred_of_ok {io : KernelIo} {deadline : Option Nat} {bytes : Nat}
    (done : io.overlapped deadline = .ok bytes) : io.transferred deadline = bytes := by
  obtain other | ⟨_, late⟩ | ⟨_, _, aborted⟩ | ⟨begun, moved, result, ok⟩ := io.overlapped_cases deadline
  · exact absurd (done.symm.trans other) nofun
  · exact absurd (done.symm.trans late) nofun
  · exact absurd (done.symm.trans aborted) nofun
  · obtain rfl := Except.ok.inj (done.symm.trans ok)
    rw [begins, Bool.not_eq_true'] at begun
    simp only [transferred, begun, result]
    rfl

/-- An operation that times out has moved nothing. -/
theorem transferred_of_timedOut {io : KernelIo} {deadline : Option Nat}
    (timedOut : io.overlapped deadline = .error .timedOut) : io.transferred deadline = 0 := by
  obtain other | ⟨unbegun, _⟩ | ⟨_, aborted, _⟩ | ⟨_, _, _, ok⟩ := io.overlapped_cases deadline
  · exact absurd (timedOut.symm.trans other) nofun
  · rw [begins, Bool.not_eq_false'] at unbegun
    rw [transferred, if_pos unbegun]
  · rw [transferred, aborted]
    simp
  · exact absurd (timedOut.symm.trans ok) nofun

/-- An operation fails by its deadline or with an error of its own kind, never as an invalid argument. -/
theorem overlapped_ne_invalidInput (io : KernelIo) (deadline : Option Nat) :
    io.overlapped deadline ≠ .error .invalidInput := by
  intro invalid
  obtain other | ⟨_, late⟩ | ⟨_, _, aborted⟩ | ⟨_, _, _, ok⟩ := io.overlapped_cases deadline
  · exact absurd (invalid.symm.trans other) nofun
  · exact absurd (invalid.symm.trans late) nofun
  · exact absurd (invalid.symm.trans aborted) nofun
  · exact absurd (invalid.symm.trans ok) nofun

/-- An operation moves no more bytes than there are. -/
theorem transferred_within_le (io : KernelIo) (limit : Nat) (deadline : Option Nat) :
    (io.within limit).transferred deadline ≤ limit := by
  unfold transferred within
  split
  · exact Nat.zero_le _
  · cases io.result with
    | ok bytes => exact Nat.min_le_left _ _
    | error code =>
      simp only [Except.map]
      split
      · exact Nat.zero_le _
      · exact Nat.min_le_left _ _

end KernelIo

/-- Reading into a buffer leaves what stood before the offset. -/
theorem take_fillBuffer {buffer : Bytes} {offset : Nat} (within : offset ≤ buffer.length) (bytes : Bytes) :
    (fillBuffer buffer offset bytes).take (offset + bytes.length) = buffer.take offset ++ bytes := by
  unfold fillBuffer
  exact List.take_left' (by simp [Nat.min_eq_left within])

/-- Reading into a buffer does not change its length. -/
theorem length_fillBuffer {buffer : Bytes} {offset : Nat} {bytes : Bytes}
    (room : offset + bytes.length ≤ buffer.length) : (fillBuffer buffer offset bytes).length = buffer.length := by
  simp only [fillBuffer, List.length_append, List.length_take, List.length_drop]
  omega

/-- A full buffer is read without any operation. -/
theorem readExactProgress_full (pipe : Pipe) (deadline : Option Nat) {buffer : Bytes} {offset : Nat}
    (full : ¬ offset < buffer.length) (ios : List KernelIo) :
    readExactProgress pipe deadline buffer offset ios = (.ok (), pipe, (buffer, offset), ios) := by
  cases ios with
  | nil => simp [readExactProgress, full]
  | cons io ios => simp [readExactProgress, full]

/-- What is true after reading on in a buffer: nothing of the stream is lost unless the read failed for good. -/
structure ReadOn (pipe : Pipe) (buffer : Bytes) (offset : Nat)
    (read : Except IoErrorKind Unit × Pipe × (Bytes × Nat) × List KernelIo) : Prop where
  peer : read.2.1.peer = pipe.peer
  written : read.2.1.written = pipe.written
  kept : read.1 = .ok () ∨ read.1 = .error .timedOut →
    read.2.2.1.1.take read.2.2.1.2 ++ read.2.1.unread = buffer.take offset ++ pipe.unread ∧
      read.2.2.1.1.length = buffer.length ∧ read.2.2.1.2 ≤ buffer.length
  done : read.1 = .ok () → read.2.2.1.2 = buffer.length
  kind : read.1 ≠ .error .invalidInput

/-- Reading on in a buffer keeps the stream in order across any number of short reads. -/
theorem readExactProgress_spec (pipe : Pipe) (deadline : Option Nat) (ios : List KernelIo) {buffer : Bytes}
    {offset : Nat} (within : offset ≤ buffer.length) :
    ReadOn pipe buffer offset (readExactProgress pipe deadline buffer offset ios) := by
  induction ios generalizing pipe buffer offset with
  | nil =>
    simp only [readExactProgress]
    split
    · exact ⟨rfl, rfl, (Or.elim · nofun nofun), nofun, nofun⟩
    · exact ⟨rfl, rfl, fun _ => ⟨rfl, rfl, within⟩, fun _ => by dsimp only; omega, nofun⟩
  | cons io ios ih =>
    by_cases room : offset < buffer.length
    · simp only [readExactProgress, if_pos room]
      have moves := io.transferred_within_le (min (buffer.length - offset) pipe.unread.length) deadline
      split
      · -- An operation that fails loses what it moved, unless it timed out.
        rename_i error failed
        refine ⟨rfl, rfl, fun kept => ?_, nofun, fun invalid => ?_⟩
        · obtain done | timedOut := kept
          · cases done
          · obtain rfl := Except.error.inj timedOut
            rw [KernelIo.transferred_of_timedOut failed]
            exact ⟨rfl, rfl, within⟩
        · obtain rfl := Except.error.inj invalid
          exact KernelIo.overlapped_ne_invalidInput _ _ failed
      · exact ⟨rfl, rfl, (Or.elim · nofun nofun), nofun, nofun⟩
      · rename_i read _ done
        have moved := KernelIo.transferred_of_ok done
        rw [moved] at moves ⊢
        -- The bytes that arrived continue those read before.
        have arrived : (pipe.unread.take read).length = read := List.length_take_of_le (by omega)
        have fits : (fillBuffer buffer offset (pipe.unread.take read)).length = buffer.length :=
          length_fillBuffer (by omega)
        have front := take_fillBuffer within (pipe.unread.take read)
        rw [arrived] at front
        have within' : offset + read ≤ (fillBuffer buffer offset (pipe.unread.take read)).length := by omega
        obtain ⟨peer, written, kept, full, kind⟩ := ih (pipe.drop read) within'
        refine ⟨peer, written, fun result => ?_, fun result => (full result).trans fits, kind⟩
        obtain ⟨stream, length, bound⟩ := kept result
        refine ⟨?_, length.trans fits, fits ▸ bound⟩
        rw [stream, front, List.append_assoc, Pipe.drop, List.take_append_drop]
    · rw [readExactProgress_full pipe deadline room]
      exact ⟨rfl, rfl, fun _ => ⟨rfl, rfl, within⟩, fun _ => by dsimp only; omega, nofun⟩

/-- A retained frame resumes where the last deadline left it: what was read and what is still unread
are together the frame of the response. -/
structure Resumes (pending : PendingResponseFrame) (response : FrameBody) (unread : Bytes) : Prop where
  header : pending.header.length = 4
  headerRead : pending.headerRead ≤ 4
  started : pending.body = none → pending.bodyRead = 0 ∧
    pending.header.take pending.headerRead ++ unread = frame response.bytes
  continued : ∀ body, pending.body = some body → pending.headerRead = 4 ∧
    pending.header = toLeBytes response.bytes.length ∧ body.length = response.bytes.length ∧
    pending.bodyRead ≤ body.length ∧ body.take pending.bodyRead ++ unread = response.bytes

/-- A frame that has not been read resumes at its start. -/
theorem Resumes.default (response : FrameBody) : Resumes .default response (frame response.bytes) :=
  ⟨rfl, Nat.zero_le _, fun _ => ⟨rfl, rfl⟩, nofun⟩

variable {Req Resp : Type}

/-- What is true after reading on in a response. -/
structure ResponseRead (codec : Codec Req Resp) (response : FrameBody) (pipe : Pipe)
    (read : Except IoErrorKind Resp × Pipe × PendingResponseFrame) : Prop where
  peer : read.2.1.peer = pipe.peer
  written : read.2.1.written = pipe.written
  whole : ∀ answer, read.1 = .ok answer → codec.fromSlice response.bytes = some answer ∧ read.2.1.unread = []
  resumes : read.1 = .error .timedOut → Resumes read.2.2 response read.2.1.unread
  kind : read.1 ≠ .error .invalidInput

/-- Once the header is known, the body is read on with it. -/
theorem readResponseBody_spec (codec : Codec Req Resp) {response : FrameBody} (pipe : Pipe) (deadline : Option Nat)
    {pending : PendingResponseFrame} {body : Bytes} (header : pending.header = toLeBytes response.bytes.length)
    (headerRead : pending.headerRead = 4) (length : body.length = response.bytes.length)
    (within : pending.bodyRead ≤ body.length)
    (stream : body.take pending.bodyRead ++ pipe.unread = response.bytes) (ios : List KernelIo) :
    ResponseRead codec response pipe (readResponseBody codec pipe deadline pending body ios) := by
  unfold readResponseBody
  obtain ⟨peer, written, kept, done, kind⟩ := readExactProgress_spec pipe deadline ios within
  generalize readExactProgress pipe deadline body pending.bodyRead ios = read at peer written kept done kind
  obtain ⟨result, pipe', ⟨body', bodyRead⟩, rest⟩ := read
  dsimp only at peer written kept done kind
  cases result with
  | error error =>
    refine ⟨peer, written, nofun, fun timedOut => ?_,
      fun invalid => kind (congrArg Except.error (Except.error.inj invalid))⟩
    obtain ⟨stream', length', within'⟩ := kept (.inr (congrArg Except.error (Except.error.inj timedOut)))
    refine ⟨by rw [header, toLeBytes_length], Nat.le_of_eq headerRead, nofun, fun other same => ?_⟩
    obtain rfl := Option.some.inj same
    exact ⟨headerRead, header, length'.trans length, length' ▸ within', stream'.trans stream⟩
  | ok =>
    obtain ⟨stream', length', _⟩ := kept (.inl rfl)
    -- A full body uses up the stream.
    have full : body'.take bodyRead = body' := List.take_of_length_le (Nat.le_of_eq (length'.trans (done rfl).symm))
    rw [full, stream] at stream'
    have used : pipe'.unread = [] := by
      have total := congrArg List.length stream'
      rw [List.length_append, length', length] at total
      exact List.eq_nil_of_length_eq_zero (by omega)
    have same : body' = response.bytes := by rw [← stream', used, List.append_nil]
    dsimp only
    cases parsed : codec.fromSlice body' with
    | none => exact ⟨peer, written, nofun, nofun, nofun⟩
    | some answer =>
      refine ⟨peer, written, fun other ok => ?_, nofun, nofun⟩
      obtain rfl := Except.ok.inj ok
      exact ⟨same ▸ parsed, used⟩

/-- Reading on in a response whose header is known. -/
theorem readResponseProgress_continued (codec : Codec Req Resp) {response : FrameBody} {pipe : Pipe}
    {pending : PendingResponseFrame} (resumes : Resumes pending response pipe.unread) {body : Bytes}
    (retained : pending.body = some body) (deadline : Option Nat) (ios : List KernelIo) :
    ResponseRead codec response pipe (readResponseProgress codec pipe deadline pending ios) := by
  obtain ⟨known, header, length, within, stream⟩ := resumes.continued body retained
  have full : ¬ pending.headerRead < pending.header.length := by rw [known, header, toLeBytes_length]; decide
  unfold readResponseProgress
  rw [readExactProgress_full pipe deadline full]
  dsimp only
  split
  · exact ⟨rfl, rfl, nofun, nofun, nofun⟩
  · rw [retained, Option.getD_some]
    exact readResponseBody_spec codec pipe deadline header known length within stream ios

/-- Reading on in a response whose header is not known yet. -/
theorem readResponseProgress_started (codec : Codec Req Resp) {response : FrameBody} {pipe : Pipe}
    {pending : PendingResponseFrame} (resumes : Resumes pending response pipe.unread)
    (retained : pending.body = none) (deadline : Option Nat) (ios : List KernelIo) :
    ResponseRead codec response pipe (readResponseProgress codec pipe deadline pending ios) := by
  obtain ⟨headerLength, headerRead, started, _⟩ := resumes
  obtain ⟨noBody, stream⟩ := started retained
  unfold readResponseProgress
  have room : pending.headerRead ≤ pending.header.length := by omega
  obtain ⟨peer, written, kept, done, kind⟩ := readExactProgress_spec pipe deadline ios room
  generalize readExactProgress pipe deadline pending.header pending.headerRead ios = read at peer written kept done kind
  obtain ⟨result, pipe', ⟨header, headerRead'⟩, rest⟩ := read
  dsimp only at peer written kept done kind
  cases result with
  | error error =>
    refine ⟨peer, written, (by simp), fun timedOut => ?_,
      fun invalid => kind (congrArg Except.error (Except.error.inj invalid))⟩
    obtain ⟨stream', length', within'⟩ := kept (.inr (congrArg Except.error (Except.error.inj timedOut)))
    refine ⟨length'.trans headerLength, headerLength ▸ within', fun _ => ⟨noBody, stream'.trans stream⟩, ?_⟩
    exact fun body same => absurd (retained.symm.trans same) (by simp)
  | ok =>
    obtain ⟨stream', length', _⟩ := kept (.inl rfl)
    have full : header.take headerRead' = header :=
      List.take_of_length_le (Nat.le_of_eq (length'.trans (done rfl).symm))
    rw [full, stream, frame] at stream'
    -- The four bytes of the header are the length of the response.
    obtain ⟨known, rest'⟩ := List.append_inj stream' (by rw [length', headerLength, toLeBytes_length])
    have spelled : fromLeBytes header = response.bytes.length := by rw [known, fromLeBytes_toLeBytes response.fits]
    dsimp only
    split
    · exact ⟨peer, written, (by simp), (by simp), (by simp)⟩
    · rw [spelled, retained, Option.getD_none]
      have resumed : ResponseRead codec response pipe' (readResponseBody codec pipe' deadline
          { pending with header, headerRead := headerRead' } (List.replicate response.bytes.length 0) rest) :=
        readResponseBody_spec codec pipe' deadline known ((done rfl).trans headerLength)
          List.length_replicate (noBody ▸ Nat.zero_le _) (by rw [noBody, List.take_zero, rest']; rfl) rest
      exact ⟨resumed.peer.trans peer, resumed.written.trans written, resumed.whole, resumed.resumes, resumed.kind⟩

/-- Reading on in a response ends with the response, or can be resumed, or has failed for good. -/
theorem readResponseProgress_spec (codec : Codec Req Resp) {response : FrameBody} {pipe : Pipe}
    {pending : PendingResponseFrame} (resumes : Resumes pending response pipe.unread) (deadline : Option Nat)
    (ios : List KernelIo) :
    ResponseRead codec response pipe (readResponseProgress codec pipe deadline pending ios) := by
  cases retained : pending.body with
  | some body => exact readResponseProgress_continued codec resumes retained deadline ios
  | none => exact readResponseProgress_started codec resumes retained deadline ios

namespace Pipe

/-- Bytes may be sent in pieces. -/
theorem sendAll_append (server : Server) (pipe : Pipe) (front back : Bytes) :
    pipe.sendAll server (front ++ back) = (pipe.sendAll server front).sendAll server back := List.foldl_append

/-- All bytes that are sent are written. -/
@[simp] theorem sendAll_written (server : Server) (pipe : Pipe) (bytes : Bytes) :
    (pipe.sendAll server bytes).written = pipe.written ++ bytes := by
  induction bytes generalizing pipe with
  | nil => simp [sendAll]
  | cons byte bytes ih =>
    have later := ih (pipe.send server byte)
    simp only [sendAll, List.foldl_cons] at later ⊢
    rw [later]
    simp [send]

/-- The server receives all bytes that are sent. -/
@[simp] theorem sendAll_peer (server : Server) (pipe : Pipe) (bytes : Bytes) :
    (pipe.sendAll server bytes).peer = pipe.peer.receiveAll bytes := by
  induction bytes generalizing pipe with
  | nil => rfl
  | cons byte bytes ih => exact ih (pipe.send server byte)

/-- The server stays silent until a request is whole. -/
theorem sendAll_cut (server : Server) {pipe : Pipe} {body : Bytes} (fits : body.length < 2 ^ 32)
    (idle : pipe.peer.inbox = []) {count : Nat} (cut : count < (frame body).length) :
    (pipe.sendAll server ((frame body).take count)).unread = pipe.unread := by
  induction count with
  | zero => rfl
  | succ count ih =>
    have earlier := Receiver.receiveAll_take_frame fits idle (show count < (frame body).length by omega)
    have later := Receiver.receiveAll_take_frame fits idle cut
    rw [← List.take_concat_get' _ _ (by omega), Receiver.receiveAll_append, earlier] at later
    rw [← List.take_concat_get' _ _ (by omega), sendAll_append]
    simp only [sendAll, List.foldl_cons, List.foldl_nil, send]
    rw [show List.foldl (send server) pipe ((frame body).take count) =
      pipe.sendAll server ((frame body).take count) from rfl, ih (by omega), sendAll_peer, earlier]
    simp only [Receiver.receiveAll, List.foldl_cons, List.foldl_nil] at later
    simp [later]

/-- The server answers a request when it is whole. -/
theorem sendAll_frame (server : Server) {pipe : Pipe} {body : Bytes} (fits : body.length < 2 ^ 32)
    (idle : pipe.peer.inbox = []) :
    (pipe.sendAll server (frame body)).unread =
      pipe.unread ++ frame (server (pipe.requests ++ [body])).bytes := by
  have last : (frame body).length - 1 < (frame body).length := by rw [frame_length]; omega
  have parts : frame body = (frame body).take ((frame body).length - 1) ++ [(frame body)[(frame body).length - 1]] := by
    rw [List.take_concat_get', Nat.sub_add_cancel (by omega), List.take_length]
  have earlier := Receiver.receiveAll_take_frame fits idle last
  have whole := Receiver.receiveAll_frame fits idle
  rw [parts, Receiver.receiveAll_append, earlier] at whole
  rw [parts, sendAll_append]
  simp only [sendAll, List.foldl_cons, List.foldl_nil, send]
  rw [show List.foldl (send server) pipe ((frame body).take ((frame body).length - 1)) =
    pipe.sendAll server ((frame body).take ((frame body).length - 1)) from rfl, sendAll_cut server fits idle last,
    sendAll_peer, earlier]
  simp only [Receiver.receiveAll, List.foldl_cons, List.foldl_nil] at whole
  rw [whole, if_pos (by simp)]
  rfl

end Pipe

/-- What is true after writing a buffer: a front of it was sent, and all of it on success. -/
structure WroteFront (server : Server) (pipe : Pipe) (bytes : Bytes)
    (wrote : Except IoErrorKind Unit × Pipe) : Prop where
  sent : ∃ count ≤ bytes.length, wrote.2 = pipe.sendAll server (bytes.take count) ∧
    (wrote.1 = .ok () → count = bytes.length)
  kind : wrote.1 ≠ .error .invalidInput

/-- Writing a buffer sends it from its start, without gaps. -/
theorem writeAll_spec (server : Server) (pipe : Pipe) (deadline : Option Nat) (buffer : Bytes) (ios : List KernelIo) :
    let wrote := writeAll server pipe deadline buffer ios
    WroteFront server pipe buffer (wrote.1, wrote.2.1) := by
  induction ios generalizing pipe buffer with
  | nil =>
    simp only [writeAll]
    split
    · rename_i empty
      exact ⟨⟨0, Nat.zero_le _, rfl, fun _ => by rw [List.isEmpty_iff.mp empty]; rfl⟩, nofun⟩
    · exact ⟨⟨0, Nat.zero_le _, rfl, nofun⟩, nofun⟩
  | cons io ios ih =>
    simp only [writeAll]
    split
    · rename_i empty
      exact ⟨⟨0, Nat.zero_le _, rfl, fun _ => by rw [List.isEmpty_iff.mp empty]; rfl⟩, nofun⟩
    · have moves := io.transferred_within_le buffer.length deadline
      split
      · rename_i error failed
        refine ⟨⟨_, moves, rfl, nofun⟩, fun invalid => ?_⟩
        obtain rfl := Except.error.inj invalid
        exact KernelIo.overlapped_ne_invalidInput _ _ failed
      · exact ⟨⟨_, moves, rfl, nofun⟩, nofun⟩
      · rename_i wrote _ done
        have moved := KernelIo.transferred_of_ok done
        rw [moved] at moves ⊢
        -- The rest of the buffer is sent behind the bytes that were taken.
        obtain ⟨⟨count, within, sent, whole⟩, kind⟩ := ih (pipe.sendAll server (buffer.take wrote)) (buffer.drop wrote)
        rw [List.length_drop] at within whole
        refine ⟨⟨wrote + count, by omega, ?_, fun ok => by have := whole ok; omega⟩, kind⟩
        rw [List.take_add, Pipe.sendAll_append]
        exact sent

/-- What is true after writing a request: a front of its frame was sent, the whole of it on success,
and nothing when its length was rejected. -/
structure WroteRequest (codec : Codec Req Resp) (server : Server) (pipe : Pipe) (req : Req)
    (wrote : Except IoErrorKind Unit × Pipe) : Prop where
  sent : wrote.2 = pipe ∨ ∃ body count, codec.toVec req = some body ∧ body.length < 2 ^ 32 ∧
    count ≤ (frame body).length ∧ wrote.2 = pipe.sendAll server ((frame body).take count)
  whole : wrote.1 = .ok () → ∃ body, codec.toVec req = some body ∧ body.length < 2 ^ 32 ∧
    wrote.2 = pipe.sendAll server (frame body)
  rejected : wrote.1 = .error .invalidInput → wrote.2 = pipe

/-- Writing a request sends its frame from its start, without gaps. -/
theorem writeRequest_spec (codec : Codec Req Resp) (server : Server) (pipe : Pipe) (req : Req)
    (deadline : Option Nat) (ios : List KernelIo) :
    let wrote := writeRequest codec server pipe req deadline ios
    WroteRequest codec server pipe req (wrote.1, wrote.2.1) := by
  unfold writeRequest
  cases encoded : codec.toVec req with
  | none => exact ⟨.inl rfl, nofun, nofun⟩
  | some body =>
    dsimp only
    split
    · exact ⟨.inl rfl, nofun, fun _ => rfl⟩
    · rename_i accepted
      have fits : body.length < 2 ^ 32 := by
        rw [Bool.or_eq_true, decide_eq_true_eq, decide_eq_true_eq] at accepted
        omega
      obtain ⟨⟨headerCount, headerWithin, headerSent, headerWhole⟩, headerKind⟩ :=
        writeAll_spec server pipe deadline (toLeBytes body.length) ios
      generalize writeAll server pipe deadline (toLeBytes body.length) ios = wroteHeader at *
      obtain ⟨result, pipe', rest⟩ := wroteHeader
      dsimp only at headerSent headerWhole headerKind
      cases result with
      | error error =>
        refine ⟨.inr ⟨body, headerCount, encoded, fits, ?_, ?_⟩, nofun, fun invalid => ?_⟩
        · rw [frame_length]
          rw [toLeBytes_length] at headerWithin
          omega
        · rw [frame, List.take_append_of_le_length headerWithin]
          exact headerSent
        · exact absurd (congrArg Except.error (Except.error.inj invalid)) headerKind
      | ok =>
        -- The body is sent behind the whole header.
      rw [headerWhole rfl, List.take_length] at headerSent
      obtain rfl := headerSent
      obtain ⟨⟨count, within, sent, whole⟩, kind⟩ :=
        writeAll_spec server (pipe.sendAll server (toLeBytes body.length)) deadline body rest
      dsimp only at sent whole kind ⊢
      have front : (frame body).take (4 + count) = toLeBytes body.length ++ body.take count := by
        rw [frame, List.take_append, List.take_of_length_le (l := toLeBytes _) (by rw [toLeBytes_length]; omega),
          toLeBytes_length, Nat.add_sub_cancel_left]
      rw [← Pipe.sendAll_append, ← front] at sent
      refine ⟨.inr ⟨body, 4 + count, encoded, fits, by rw [frame_length]; omega, sent⟩,
        fun ok => ⟨body, encoded, fits, ?_⟩, fun invalid => absurd invalid kind⟩
      rw [whole ok, ← frame_length, List.take_length] at sent
      exact sent

end Nospacekey
