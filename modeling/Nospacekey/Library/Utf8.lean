import Mathlib.Data.List.Basic
import Mathlib.Algebra.BigOperators.Group.List.Basic
import Mathlib.Algebra.Ring.Nat

/-! Byte offsets into a sequence of Unicode scalars, as UTF-8 strings are indexed. -/

namespace Utf8

/-- The number of bytes the scalars occupy in UTF-8. -/
def byteLength (text : List Char) : Nat := (text.map Char.utf8Size).sum

@[simp] theorem byteLength_nil : byteLength [] = 0 := rfl

@[simp] theorem byteLength_cons (c : Char) (text : List Char) :
    byteLength (c :: text) = c.utf8Size + byteLength text := by simp [byteLength]

/-- Byte lengths add up under concatenation. -/
@[simp] theorem byteLength_append (front back : List Char) :
    byteLength (front ++ back) = byteLength front + byteLength back := by simp [byteLength]

/-- Only the empty text occupies no bytes. -/
@[simp] theorem byteLength_eq_zero {text : List Char} : byteLength text = 0 ↔ text = [] := by
  cases text with
  | nil => simp
  | cons c rest => have := c.utf8Size_pos; simp; omega

/-- The scalars that end at or before a byte offset, and those after it. -/
@[grind =] def splitBytes : Nat → List Char → List Char × List Char
  | _, [] => ([], [])
  | offset, c :: rest =>
    if c.utf8Size ≤ offset then
      let parts := splitBytes (offset - c.utf8Size) rest
      (c :: parts.1, parts.2)
    else ([], c :: rest)

/-- The text before a byte offset. -/
def takeBytes (offset : Nat) (text : List Char) : List Char := (splitBytes offset text).1

/-- The text after a byte offset. -/
def dropBytes (offset : Nat) (text : List Char) : List Char := (splitBytes offset text).2

/-- The two parts make up the whole text. -/
@[simp] theorem takeBytes_append_dropBytes (offset : Nat) (text : List Char) :
    takeBytes offset text ++ dropBytes offset text = text := by
  -- Every scalar goes to exactly one of the two parts.
  induction text generalizing offset with
  | nil => rfl
  | cons c rest ih =>
    unfold takeBytes dropBytes splitBytes
    split
    · exact congrArg (c :: ·) (ih (offset - c.utf8Size))
    · rfl

/-- Splitting a concatenation at the length of its front gives back the two halves. -/
theorem splitBytes_append (front back : List Char) :
    splitBytes (byteLength front) (front ++ back) = (front, back) := by
  -- Each scalar of the front fits into the remaining offset.
  induction front with
  | nil =>
    cases back with
    | nil => rfl
    | cons c rest =>
      have := c.utf8Size_pos
      simp [splitBytes]
      omega
  | cons c rest ih =>
    rw [List.cons_append, splitBytes, if_pos (by simp)]
    simp [ih]

@[simp] theorem takeBytes_append (front back : List Char) :
    takeBytes (byteLength front) (front ++ back) = front := by
  simp [takeBytes, splitBytes_append]

@[simp] theorem dropBytes_append (front back : List Char) :
    dropBytes (byteLength front) (front ++ back) = back := by
  simp [dropBytes, splitBytes_append]

@[simp] theorem takeBytes_zero (text : List Char) : takeBytes 0 text = [] := by
  simpa using takeBytes_append [] text

@[simp] theorem dropBytes_zero (text : List Char) : dropBytes 0 text = text := by
  simpa using dropBytes_append [] text

@[simp] theorem takeBytes_byteLength (text : List Char) : takeBytes (byteLength text) text = text := by
  simpa using takeBytes_append text []

@[simp] theorem dropBytes_byteLength (text : List Char) : dropBytes (byteLength text) text = [] := by
  simpa using dropBytes_append text []

/-- A cut at or behind the end of the front goes through the back. -/
theorem splitBytes_append_of_le {front : List Char} {offset : Nat} (inBack : byteLength front ≤ offset)
    (back : List Char) :
    splitBytes offset (front ++ back) =
      (front ++ takeBytes (offset - byteLength front) back, dropBytes (offset - byteLength front) back) := by
  -- The front is taken scalar by scalar.
  induction front generalizing offset with
  | nil => rfl
  | cons c rest ih =>
    rw [byteLength_cons] at inBack
    rw [List.cons_append, splitBytes, if_pos (by omega), ih (by omega), byteLength_cons, Nat.sub_sub]
    rfl

/-- A cut before the end of the front leaves the whole back behind it. -/
theorem splitBytes_append_of_lt {front : List Char} {offset : Nat} (inFront : offset < byteLength front)
    (back : List Char) :
    splitBytes offset (front ++ back) = (takeBytes offset front, dropBytes offset front ++ back) := by
  induction front generalizing offset with
  | nil => simp at inFront
  | cons c rest ih =>
    rw [byteLength_cons] at inFront
    unfold takeBytes dropBytes
    rw [List.cons_append, splitBytes, splitBytes]
    split
    · rw [ih (by omega)]
      rfl
    · rfl

/-- An offset at or behind the end takes the whole text. -/
theorem takeBytes_of_le {text : List Char} {offset : Nat} (beyond : byteLength text ≤ offset) :
    takeBytes offset text = text := by
  have := splitBytes_append_of_le beyond []
  simp only [List.append_nil] at this
  unfold takeBytes
  rw [this]
  simp [takeBytes, splitBytes]

/-- The part before an offset is no longer than the offset. -/
theorem byteLength_takeBytes_le (text : List Char) (offset : Nat) :
    byteLength (takeBytes offset text) ≤ offset := by
  induction text generalizing offset with
  | nil => simp [takeBytes, splitBytes]
  | cons c rest ih =>
    unfold takeBytes splitBytes
    split
    · have := ih (offset - c.utf8Size)
      simp only [takeBytes] at this
      simp only [byteLength_cons]
      omega
    · simp

/-- Of two beginnings of a text the one with fewer bytes begins the other. -/
theorem prefix_of_byteLength_le {text front front' : List Char} (begins : front <+: text)
    (begins' : front' <+: text) (shorter : byteLength front ≤ byteLength front') : front <+: front' := by
  rcases List.prefix_or_prefix_of_prefix begins begins' with onward | ⟨more, rfl⟩
  · exact onward
  · rw [byteLength_append] at shorter
    have : more = [] := byteLength_eq_zero.mp (by omega)
    simp [this]

/-- Beginnings of a text with equally many bytes are the same. -/
theorem eq_of_byteLength_eq {text front front' : List Char} (begins : front <+: text)
    (begins' : front' <+: text) (same : byteLength front = byteLength front') : front = front' :=
  (prefix_of_byteLength_le begins begins' (Nat.le_of_eq same)).eq_of_length_le
    (prefix_of_byteLength_le begins' begins (Nat.le_of_eq same.symm)).length_le

/-- A beginning that ends at or before an offset is part of what precedes the offset. -/
theorem prefix_takeBytes {text front : List Char} {offset : Nat} (begins : front <+: text)
    (reached : byteLength front ≤ offset) : front <+: takeBytes offset text := by
  obtain ⟨back, rfl⟩ := begins
  rw [takeBytes, splitBytes_append_of_le reached]
  exact List.prefix_append _ _

/-- Whether an offset falls between two scalars of a text. -/
def isCharBoundary (text : List Char) (offset : Nat) : Bool := byteLength (takeBytes offset text) == offset

/-- The offset falls between two scalars of the text. -/
def IsCharBoundary (text : List Char) (offset : Nat) : Prop :=
  ∃ front back, text = front ++ back ∧ byteLength front = offset

/-- At a boundary the part before the offset has exactly that many bytes. -/
theorem IsCharBoundary.byteLength_takeBytes {text : List Char} {offset : Nat}
    (boundary : IsCharBoundary text offset) : byteLength (takeBytes offset text) = offset := by
  obtain ⟨front, back, rfl, rfl⟩ := boundary
  simp

/-- The check finds exactly the boundaries. -/
theorem isCharBoundary_iff {text : List Char} {offset : Nat} :
    isCharBoundary text offset = true ↔ IsCharBoundary text offset := by
  rw [isCharBoundary, beq_iff_eq]
  constructor
  · exact fun same => ⟨_, _, (takeBytes_append_dropBytes offset text).symm, same⟩
  · exact IsCharBoundary.byteLength_takeBytes

/-- A boundary lies inside the text. -/
theorem IsCharBoundary.le {text : List Char} {offset : Nat}
    (boundary : IsCharBoundary text offset) : offset ≤ byteLength text := by
  obtain ⟨front, back, rfl, rfl⟩ := boundary
  simp

/-- Both ends of a text are boundaries. -/
theorem isCharBoundary_zero (text : List Char) : IsCharBoundary text 0 := ⟨[], text, rfl, rfl⟩

theorem isCharBoundary_byteLength (text : List Char) : IsCharBoundary text (byteLength text) :=
  ⟨text, [], by simp, rfl⟩

/-- Appending keeps every boundary. -/
theorem IsCharBoundary.append {text : List Char} {offset : Nat}
    (boundary : IsCharBoundary text offset) (more : List Char) :
    IsCharBoundary (text ++ more) offset := by
  obtain ⟨front, back, rfl, rfl⟩ := boundary
  exact ⟨front, back ++ more, by simp, rfl⟩

/-- The byte offset of the start of each piece, when pieces are laid out one after another. -/
def pieceStarts : Nat → List (List Char) → List Nat
  | _, [] => []
  | offset, piece :: rest => offset :: pieceStarts (offset + byteLength piece) rest

/-- Every piece starts at a boundary of the concatenated text. -/
theorem pieceStarts_isCharBoundary {pieces : List (List Char)} {front : List Char} {offset : Nat}
    (start : offset ∈ pieceStarts (byteLength front) pieces) :
    IsCharBoundary (front ++ pieces.flatten) offset := by
  -- The front grows by one piece at a time.
  induction pieces generalizing front with
  | nil => simp [pieceStarts] at start
  | cons piece rest ih =>
    rcases List.mem_cons.mp start with same | later
    · exact ⟨front, (piece :: rest).flatten, rfl, same.symm⟩
    · rw [← byteLength_append] at later
      simpa using ih later

end Utf8
