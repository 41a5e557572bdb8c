import Nospacekey.Ipc.Clause
import Nospacekey.Library.Utf8

/-! Styled segments of a reading, cut and joined by byte offsets. -/

namespace Nospacekey

open Utf8

/-- How a typed character participates in a composition. -/
inductive InputStyle where
  | kana
  | direct
  deriving DecidableEq, Repr

structure ReplaySegment where
  text : Text
  style : InputStyle
  deriving DecidableEq, Repr

def appendSegment (segments : List ReplaySegment) (text : Text) (style : InputStyle) :
    List ReplaySegment :=
  if text.isEmpty then segments
  else
    match segments.getLast? with
    | some last =>
      if last.style = style then segments.dropLast ++ [{ last with text := last.text ++ text }]
      else segments ++ [{ text := text, style := style }]
    | none => segments ++ [{ text := text, style := style }]

/-- The segments up to a byte offset and those after it, behind what was collected so far. -/
def splitSegmentsFrom : List ReplaySegment → List ReplaySegment → Nat → List ReplaySegment →
    List ReplaySegment × List ReplaySegment
  | before, after, _, [] => (before, after)
  | before, after, bytes, segment :: rest =>
    let split := min bytes (byteLength segment.text)
    splitSegmentsFrom (appendSegment before (takeBytes split segment.text) segment.style)
      (appendSegment after (dropBytes split segment.text) segment.style) (bytes - split) rest

def splitSegments (segments : List ReplaySegment) (bytes : Nat) :
    List ReplaySegment × List ReplaySegment :=
  splitSegmentsFrom [] [] bytes segments

/-- The segments with everything behind a number of bytes taken out of their texts. -/
def clearSegmentsFrom : Nat → List ReplaySegment → List ReplaySegment
  | _, [] => []
  | remaining, segment :: rest =>
    if remaining = 0 then { segment with text := [] } :: clearSegmentsFrom 0 rest
    else if remaining < byteLength segment.text then
      { segment with text := takeBytes remaining segment.text } :: clearSegmentsFrom 0 rest
    else segment :: clearSegmentsFrom (remaining - byteLength segment.text) rest

/-- The segments of a text that is truncated to a number of bytes. -/
def truncateSegments (len : Nat) (segments : List ReplaySegment) : List ReplaySegment :=
  (clearSegmentsFrom len segments).filter fun segment => !segment.text.isEmpty

/-- The segments behind a start, if it does not cut a scalar, and where the last one ends. -/
def suffixSegmentsFrom (start : Nat) : Nat → List ReplaySegment → List ReplaySegment →
    Option (List ReplaySegment × Nat)
  | offset, retained, [] => some (retained, offset)
  | offset, retained, segment :: rest =>
    let stop := offset + byteLength segment.text
    if start < stop then
      let segmentStart := start - offset
      if !isCharBoundary segment.text segmentStart then none
      else
        suffixSegmentsFrom start stop
          (appendSegment retained (dropBytes segmentStart segment.text) segment.style) rest
    else suffixSegmentsFrom start stop retained rest

/-- A text in which every character has a style. -/
abbrev StyledText := List (Char × InputStyle)

/-- All characters of a text in one style. -/
def styledText (text : Text) (style : InputStyle) : StyledText := text.map fun c => (c, style)

/-- The characters of the segments with their styles, which is what a replay pushes. -/
def styled (segments : List ReplaySegment) : StyledText :=
  segments.flatMap fun segment => styledText segment.text segment.style

section Styled

@[simp] theorem styledText_nil (style : InputStyle) : styledText [] style = [] := rfl

@[simp] theorem styledText_append (front back : Text) (style : InputStyle) :
    styledText (front ++ back) style = styledText front style ++ styledText back style := by
  simp [styledText]

@[simp] theorem map_fst_styledText (text : Text) (style : InputStyle) :
    (styledText text style).map Prod.fst = text := by
  induction text with
  | nil => rfl
  | cons c rest ih => exact congrArg (c :: ·) ih

@[simp] theorem styled_nil : styled [] = [] := rfl

@[simp] theorem styled_cons (segment : ReplaySegment) (rest : List ReplaySegment) :
    styled (segment :: rest) = styledText segment.text segment.style ++ styled rest := rfl

@[simp] theorem styled_append (front back : List ReplaySegment) :
    styled (front ++ back) = styled front ++ styled back := by
  simp [styled]

/-- Appending a segment appends its characters in its style, whether or not it is joined. -/
@[simp] theorem styled_appendSegment (segments : List ReplaySegment) (text : Text) (style : InputStyle) :
    styled (appendSegment segments text style) = styled segments ++ styledText text style := by
  unfold appendSegment
  cases text with
  | nil => simp
  | cons c rest =>
    rw [if_neg (by simp)]
    split
    · rename_i last found
      obtain ⟨front, rfl⟩ := List.getLast?_eq_some_iff.mp found
      split
      · rename_i same
        simp [same]
      · simp
    · simp

/-- Appending segments one by one appends their characters. -/
theorem styled_foldl_appendSegment (segments more : List ReplaySegment) :
    styled (more.foldl (fun segments segment => appendSegment segments segment.text segment.style) segments) =
      styled segments ++ styled more := by
  induction more generalizing segments with
  | nil => simp
  | cons segment rest ih => simp [ih]

end Styled

/-- A styled text is cut in two at a byte offset. -/
structure Cut (offset : Nat) (whole front back : StyledText) : Prop where
  parts : whole = front ++ back
  front : front.map Prod.fst = takeBytes offset (whole.map Prod.fst)

section Cuts

/-- What is behind the cut is the text behind the offset. -/
theorem Cut.back {offset : Nat} {whole front back : StyledText} (cut : Cut offset whole front back) :
    back.map Prod.fst = dropBytes offset (whole.map Prod.fst) := by
  have split := takeBytes_append_dropBytes offset (whole.map Prod.fst)
  rw [← cut.front] at split
  conv at split => rhs; rw [cut.parts, List.map_append]
  exact (List.append_cancel_left split).symm

/-- Cutting at the beginning leaves everything behind the cut. -/
theorem cut_zero (whole : StyledText) : Cut 0 whole [] whole := ⟨rfl, by simp⟩

/-- A styled text may be cut anywhere. -/
theorem cut_styledText (offset : Nat) (text : Text) (style : InputStyle) :
    Cut offset (styledText text style) (styledText (takeBytes offset text) style)
      (styledText (dropBytes offset text) style) :=
  ⟨by rw [← styledText_append, takeBytes_append_dropBytes], by simp⟩

/-- A cut behind the first part goes through the second one. -/
theorem Cut.append_left {offset : Nat} {whole front back : StyledText} {first : StyledText}
    (beyond : byteLength (first.map Prod.fst) ≤ offset)
    (cut : Cut (offset - byteLength (first.map Prod.fst)) whole front back) :
    Cut offset (first ++ whole) (first ++ front) back where
  parts := by rw [cut.parts, List.append_assoc]
  front := by
    rw [List.map_append, List.map_append, takeBytes, splitBytes_append_of_le beyond, cut.front]

/-- A cut inside the first part leaves the second one behind it. -/
theorem Cut.append_right {offset : Nat} {whole front back : StyledText}
    (inside : offset < byteLength (whole.map Prod.fst)) (cut : Cut offset whole front back)
    (last : StyledText) : Cut offset (whole ++ last) front (back ++ last) where
  parts := by rw [cut.parts, List.append_assoc]
  front := by
    rw [List.map_append, takeBytes, splitBytes_append_of_lt inside, cut.front]

/-- Splitting segments cuts their characters. -/
theorem splitSegmentsFrom_cut (segments before after : List ReplaySegment) (bytes : Nat) :
    ∃ front back, Cut bytes (styled segments) front back ∧
      styled (splitSegmentsFrom before after bytes segments).1 = styled before ++ front ∧
      styled (splitSegmentsFrom before after bytes segments).2 = styled after ++ back := by
  -- The first segment lies before the cut, or the cut goes through it.
  induction segments generalizing before after bytes with
  | nil => exact ⟨[], [], ⟨rfl, by simp [takeBytes, splitBytes]⟩, by simp [splitSegmentsFrom]⟩
  | cons segment rest ih =>
    unfold splitSegmentsFrom
    dsimp only
    rw [styled_cons]
    rcases Nat.lt_or_ge bytes (byteLength segment.text) with inside | beyond
    · rw [min_eq_left inside.le, Nat.sub_self]
      obtain ⟨front, back, cut, first, second⟩ :=
        ih (appendSegment before (takeBytes bytes segment.text) segment.style)
          (appendSegment after (dropBytes bytes segment.text) segment.style) 0
      have empty : front = [] := by simpa using cut.front
      subst empty
      have rest' : styled rest = back := by simpa using cut.parts
      rw [rest']
      refine ⟨_, _, (cut_styledText bytes segment.text segment.style).append_right (by simpa using inside) back,
        ?_, ?_⟩
      · simpa using first
      · simpa using second
    · rw [min_eq_right beyond]
      obtain ⟨front, back, cut, first, second⟩ :=
        ih (appendSegment before (takeBytes (byteLength segment.text) segment.text) segment.style)
          (appendSegment after (dropBytes (byteLength segment.text) segment.text) segment.style)
          (bytes - byteLength segment.text)
      refine ⟨styledText segment.text segment.style ++ front, back, ?_, ?_, ?_⟩
      · exact Cut.append_left (by simpa using beyond) (by simpa using cut)
      · simpa using first
      · simpa using second

/-- Splitting segments at a byte offset cuts their characters there. -/
theorem splitSegments_cut (segments : List ReplaySegment) (bytes : Nat) :
    Cut bytes (styled segments) (styled (splitSegments segments bytes).1)
      (styled (splitSegments segments bytes).2) := by
  obtain ⟨front, back, cut, first, second⟩ := splitSegmentsFrom_cut segments [] [] bytes
  rw [splitSegments, first, second]
  exact cut

/-- Clearing behind a byte offset cuts the characters there. -/
theorem clearSegmentsFrom_cut (len : Nat) (segments : List ReplaySegment) :
    ∃ back, Cut len (styled segments) (styled (clearSegmentsFrom len segments)) back := by
  have cleared : ∀ segments : List ReplaySegment, styled (clearSegmentsFrom 0 segments) = [] := by
    intro segments
    induction segments with
    | nil => rfl
    | cons segment rest ih => simp [clearSegmentsFrom, ih]
  induction segments generalizing len with
  | nil => exact ⟨[], ⟨rfl, by simp [clearSegmentsFrom, takeBytes, splitBytes]⟩⟩
  | cons segment rest ih =>
    unfold clearSegmentsFrom
    split
    · rename_i zero
      subst zero
      refine ⟨styled (segment :: rest), ?_⟩
      simpa [cleared] using cut_zero (styled (segment :: rest))
    split
    · rename_i inside
      refine ⟨styledText (dropBytes len segment.text) segment.style ++ styled rest, ?_⟩
      simpa [cleared] using
        (cut_styledText len segment.text segment.style).append_right (by simpa using inside) (styled rest)
    · rename_i beyond
      obtain ⟨back, cut⟩ := ih (len - byteLength segment.text)
      rw [styled_cons, styled_cons]
      exact ⟨back, Cut.append_left (by simpa using beyond) (by simpa using cut)⟩

/-- Truncating segments cuts their characters. -/
theorem truncateSegments_cut (len : Nat) (segments : List ReplaySegment) :
    ∃ back, Cut len (styled segments) (styled (truncateSegments len segments)) back := by
  obtain ⟨back, cut⟩ := clearSegmentsFrom_cut len segments
  -- Empty segments have no characters.
  have same : styled (truncateSegments len segments) = styled (clearSegmentsFrom len segments) := by
    unfold truncateSegments
    generalize clearSegmentsFrom len segments = cleared
    induction cleared with
    | nil => rfl
    | cons segment rest ih =>
      rw [List.filter_cons]
      split
      · simp [ih]
      · rename_i empty
        have : segment.text = [] := by simpa using empty
        simp [this, ih]
  exact ⟨back, by rw [same]; exact cut⟩

/-- The segments behind a start have the characters behind it. -/
theorem suffixSegmentsFrom_cut {start offset : Nat} {retained segments kept : List ReplaySegment} {stop : Nat}
    (found : suffixSegmentsFrom start offset retained segments = some (kept, stop)) :
    ∃ front back, Cut (start - offset) (styled segments) front back ∧ styled kept = styled retained ++ back := by
  -- Segments before the start are left out, and the one that holds it is cut.
  induction segments generalizing offset retained with
  | nil =>
    obtain ⟨rfl, rfl⟩ := Prod.mk.inj (Option.some.inj found)
    exact ⟨[], [], ⟨rfl, by simp [takeBytes, splitBytes]⟩, by simp⟩
  | cons segment rest ih =>
    unfold suffixSegmentsFrom at found
    dsimp only at found
    split at found
    · rename_i reaches
      split at found
      · cases found
      obtain ⟨front, back, cut, same⟩ := ih found
      have zero : start - (offset + byteLength segment.text) = 0 := by omega
      rw [zero] at cut
      have empty : front = [] := by simpa using cut.front
      subst empty
      have whole : styled rest = back := by simpa using cut.parts
      subst whole
      rw [styled_cons]
      rcases Nat.lt_or_ge (start - offset) (byteLength segment.text) with inside | beyond
      · refine ⟨_, _, (cut_styledText (start - offset) segment.text segment.style).append_right
          (by simpa using inside) (styled rest), ?_⟩
        rw [same, styled_appendSegment, List.append_assoc]
      · -- The start lies before a segment, which is then empty.
        have zero : start - offset = 0 := by omega
        rw [zero, dropBytes_zero] at same
        rw [zero]
        exact ⟨_, _, cut_zero _, by rw [same, styled_appendSegment, List.append_assoc]⟩
    · rename_i before
      obtain ⟨front, back, cut, same⟩ := ih found
      rw [styled_cons]
      refine ⟨styledText segment.text segment.style ++ front, back, ?_, same⟩
      refine Cut.append_left (by simp only [map_fst_styledText]; omega) ?_
      rwa [map_fst_styledText, Nat.sub_sub]

end Cuts

end Nospacekey
