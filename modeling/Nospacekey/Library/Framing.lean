import Mathlib.Data.List.Basic
import Mathlib.Data.List.TakeDrop
import Mathlib.Algebra.Ring.Nat

/-! Frames with a four-byte little-endian length in front, and a receiver that takes them byte by byte. -/

namespace Framing

/-- The four bytes of a number below `2 ^ 32`, the lowest first. -/
def toLeBytes (value : Nat) : List UInt8 :=
  [UInt8.ofNat value, UInt8.ofNat (value / 256), UInt8.ofNat (value / 65536), UInt8.ofNat (value / 16777216)]

/-- The number that bytes spell, the lowest first. -/
def fromLeBytes : List UInt8 → Nat
  | [] => 0
  | byte :: bytes => byte.toNat + 256 * fromLeBytes bytes

/-- A body behind its length. -/
def frame (body : List UInt8) : List UInt8 := toLeBytes body.length ++ body

/-- A length takes four bytes. -/
@[simp] theorem toLeBytes_length (value : Nat) : (toLeBytes value).length = 4 := rfl

/-- A frame is four bytes longer than its body. -/
@[simp] theorem frame_length (body : List UInt8) : (frame body).length = 4 + body.length := by
  simp [frame]

/-- The bytes of a number spell it. -/
theorem fromLeBytes_toLeBytes {value : Nat} (fits : value < 2 ^ 32) : fromLeBytes (toLeBytes value) = value := by
  -- Each byte is one digit of the number to the base 256.
  simp only [toLeBytes, fromLeBytes, UInt8.toNat_ofNat']
  omega

/-- The first four bytes of a frame spell the length of its body. -/
theorem fromLeBytes_take_frame {body : List UInt8} (fits : body.length < 2 ^ 32) :
    fromLeBytes ((frame body).take 4) = body.length := by
  rw [frame, List.take_left' (toLeBytes_length _), fromLeBytes_toLeBytes fits]

/-- Whether the bytes are a whole frame: the length is known, and as many bytes follow it. -/
def isWhole (bytes : List UInt8) : Bool := 4 ≤ bytes.length && bytes.length = 4 + fromLeBytes (bytes.take 4)

/-- A frame is whole exactly at its end. -/
theorem isWhole_take_frame {body : List UInt8} (fits : body.length < 2 ^ 32) {count : Nat}
    (within : count ≤ (frame body).length) : isWhole ((frame body).take count) = decide (count = (frame body).length) := by
  have cut : ((frame body).take count).length = count := List.length_take_of_le within
  rw [frame_length] at within
  simp only [isWhole, cut, frame_length]
  by_cases known : 4 ≤ count
  · -- The length that the four bytes spell is the same in every longer front.
    rw [List.take_take, Nat.min_eq_left known, fromLeBytes_take_frame fits]
    simp [known]
  · have short : count ≠ 4 + body.length := by omega
    simp [known, short]

/-- A peer that collects frames: the bodies of the whole ones, and the bytes since. -/
structure Receiver where
  inbox : List UInt8
  frames : List (List UInt8)
  deriving DecidableEq, Repr

namespace Receiver

/-- One more byte, which may make the frame whole. -/
def receive (peer : Receiver) (byte : UInt8) : Receiver :=
  let inbox := peer.inbox ++ [byte]
  if isWhole inbox then ⟨[], peer.frames ++ [inbox.drop 4]⟩ else ⟨inbox, peer.frames⟩

/-- Some more bytes, in their order. -/
def receiveAll (peer : Receiver) (bytes : List UInt8) : Receiver := bytes.foldl receive peer

/-- Bytes may arrive in pieces. -/
theorem receiveAll_append (peer : Receiver) (front back : List UInt8) :
    peer.receiveAll (front ++ back) = (peer.receiveAll front).receiveAll back := List.foldl_append

/-- A frame that is cut short is still being collected. -/
theorem receiveAll_take_frame {body : List UInt8} (fits : body.length < 2 ^ 32) {peer : Receiver}
    (idle : peer.inbox = []) {count : Nat} (cut : count < (frame body).length) :
    peer.receiveAll ((frame body).take count) = ⟨(frame body).take count, peer.frames⟩ := by
  induction count with
  | zero =>
    cases peer
    subst idle
    rfl
  | succ count ih =>
    have next : (frame body).take (count + 1) = (frame body).take count ++ [(frame body)[count]] :=
      List.take_concat_get' _ _ _ |>.symm
    have unfinished : isWhole ((frame body).take (count + 1)) = false := by
      rw [isWhole_take_frame fits (by omega)]
      simpa using Nat.ne_of_lt cut
    rw [next] at unfinished
    conv_lhs => rw [next]
    rw [receiveAll_append, ih (by omega), next]
    simp only [receiveAll, List.foldl_cons, List.foldl_nil, receive, unfinished]
    rfl

/-- A whole frame is handed on, and nothing of it is left. -/
theorem receiveAll_frame {body : List UInt8} (fits : body.length < 2 ^ 32) {peer : Receiver}
    (idle : peer.inbox = []) : peer.receiveAll (frame body) = ⟨[], peer.frames ++ [body]⟩ := by
  -- Everything but the last byte is collected first.
  have last : (frame body).length - 1 < (frame body).length := by rw [frame_length]; omega
  have whole : isWhole (frame body) = true := by
    have full := isWhole_take_frame fits (Nat.le_refl (frame body).length)
    rwa [List.take_length, decide_eq_true rfl] at full
  have parts : frame body = (frame body).take ((frame body).length - 1) ++ [(frame body)[(frame body).length - 1]] := by
    rw [List.take_concat_get', Nat.sub_add_cancel (by omega), List.take_length]
  have collected := receiveAll_take_frame fits idle last
  rw [parts] at whole
  conv_lhs => rw [parts]
  rw [receiveAll_append, collected]
  simp only [receiveAll, List.foldl_cons, List.foldl_nil, receive, whole, if_true]
  rw [← parts, frame, List.drop_left' (toLeBytes_length _)]

end Receiver

end Framing
