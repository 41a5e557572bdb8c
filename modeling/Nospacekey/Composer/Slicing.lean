import Nospacekey.Composer.Operations

/-! The composer with its string slices checked never meets a slice that would panic. -/

namespace Nospacekey

open Utf8 Runs

section Segments

variable {segments : List ReplaySegment}

/-- A boundary behind the first segment is one of the others. -/
theorem boundary_behind {front back : Text} {offset : Nat} (boundary : IsCharBoundary (front ++ back) offset)
    (behind : byteLength front ≤ offset) : IsCharBoundary back (offset - byteLength front) := by
  obtain ⟨before, after, whole, start⟩ := boundary
  obtain ⟨rest, rfl⟩ := prefix_of_byteLength_le (List.prefix_append front back) ⟨after, whole.symm⟩ (by omega)
  rw [List.append_assoc] at whole
  exact ⟨rest, after, List.append_cancel_left whole, by rw [← start, byteLength_append]; omega⟩

/-- A boundary that the first segment reaches is one of it. -/
theorem boundary_inside {front back : Text} {offset : Nat} (boundary : IsCharBoundary (front ++ back) offset)
    (inside : offset ≤ byteLength front) : IsCharBoundary front offset := by
  obtain ⟨before, after, whole, start⟩ := boundary
  obtain ⟨rest, same⟩ := prefix_of_byteLength_le ⟨after, whole.symm⟩ (List.prefix_append front back) (by omega)
  exact ⟨before, rest, same.symm, start⟩

end Segments

section Letters

/-- A literal starts at a boundary of its text. -/
theorem Stands.boundary {text : StyledText} {offset : Nat} (stands : Stands text offset) :
    IsCharBoundary (text.map Prod.fst) offset := by
  obtain ⟨front, ch, back, rfl, start, _⟩ := stands
  exact ⟨front.map Prod.fst, ((ch, .direct) :: back).map Prod.fst, by simp, start⟩

/-- A letter that stands in a direct segment is in the text of one. -/
theorem Stands.segment {segments : List ReplaySegment} {offset : Nat} (stands : Stands (styled segments) offset) :
    ∃ before segment after front ch back, segments = before ++ segment :: after ∧ segment.style = .direct ∧
      segment.text = front ++ ch :: back ∧ ch.isAlpha = true ∧ ch.utf8Size = 1 ∧
        byteLength (before.flatMap ReplaySegment.text) + byteLength front = offset := by
  obtain ⟨front, ch, back, whole, start, letter⟩ := stands
  -- The characters before the letter fill whole segments and the beginning of its own.
  induction segments generalizing front offset with
  | nil => simp at whole
  | cons segment rest ih =>
    rw [styled_cons] at whole
    rcases List.append_eq_append_iff.mp whole with ⟨more, frontWhole, behind⟩ | ⟨more, own, behind⟩
    · obtain ⟨before, found, after, front', ch', back', parts, direct, text, letter', byte, place⟩ :=
        ih more behind rfl
      refine ⟨segment :: before, found, after, front', ch', back', by rw [parts]; rfl, direct, text, letter', byte, ?_⟩
      rw [← start, frontWhole, List.map_append, map_fst_styledText, byteLength_append, List.flatMap_cons,
        byteLength_append, ← place]
      omega
    · cases more with
      | nil =>
        obtain ⟨before, found, after, front', ch', back', parts, direct, text, letter', byte, place⟩ :=
          ih [] (by simpa using behind.symm) rfl
        refine ⟨segment :: before, found, after, front', ch', back', by rw [parts]; rfl, direct, text, letter', byte, ?_⟩
        rw [List.append_nil] at own
        rw [← start, ← own, map_fst_styledText, List.flatMap_cons, byteLength_append]
        simp only [List.map_nil, byteLength_nil] at place
        omega
      | cons first more =>
        obtain ⟨rfl, _⟩ := List.cons_eq_cons.mp behind
        have text : segment.text = front.map Prod.fst ++ ch :: more.map Prod.fst := by
          have texts := congrArg (List.map Prod.fst) own
          simpa using texts
        have style : segment.style = .direct := by
          have member : (ch, InputStyle.direct) ∈ styledText segment.text segment.style := by rw [own]; simp
          obtain ⟨_, _, same⟩ := List.mem_map.mp member
          exact (Prod.mk.inj same).2
        exact ⟨[], segment, rest, front.map Prod.fst, ch, more.map Prod.fst, rfl, style, text, letter,
          utf8Size_of_isAlpha letter, by simpa using start⟩

/-- The texts of segments are the characters they style. -/
theorem flatMap_text_eq (segments : List ReplaySegment) :
    segments.flatMap ReplaySegment.text = (styled segments).map Prod.fst := by
  induction segments with
  | nil => rfl
  | cons segment rest ih => simp [ih]

end Letters

namespace LocalKanaComposer

section Slices

variable {c : LocalKanaComposer}

/-- The keys of a unit are the first of the pending ones. -/
theorem nextUnit_original {pending : Text} {unit : RomanUnit} (found : nextUnit pending = some unit) :
    pending = unit.original ++ unit.rest ∧ unit.original ≠ [] := by
  unfold nextUnit at found
  split at found
  · cases found
  rename_i first rest
  split at found
  · cases found
  split at found
  · rename_i doubled
    obtain rfl := Option.some.inj found
    obtain ⟨more, same⟩ := List.isPrefixOf_iff_prefix.mp doubled
    rw [← same]
    exact ⟨rfl, by simp⟩
  split at found
  · rename_i roman kana spelt
    obtain rfl := Option.some.inj found
    obtain ⟨member, more, same⟩ := lookupRoman_some spelt
    refine ⟨?_, (regular_of_mem member).nonempty⟩
    rw [← same, List.drop_left]
  -- Otherwise one key is taken, or none.
  split at found
  · rename_i n
    obtain rfl := Option.some.inj found
    rw [Bool.and_eq_true, decide_eq_true_eq] at n
    rw [n.1]
    exact ⟨rfl, by simp⟩
  split at found
  · obtain rfl := Option.some.inj found
    exact ⟨rfl, by simp⟩
  split at found
  · cases found
  · obtain rfl := Option.some.inj found
    exact ⟨rfl, by simp⟩

end Slices

section Runs

variable (segmentation : Segmentation)

end Runs

end LocalKanaComposer

end Nospacekey
