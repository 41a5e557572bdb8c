import Mathlib.Data.List.Chain
import Nospacekey.Composer.JournalLaws
import Nospacekey.Composer.Replay

/-! The representation that all operations of the composer keep. -/

namespace Nospacekey

open Utf8 Runs

/-- Segments without an empty one, in which neighbours have different styles. -/
structure Tidy (segments : List ReplaySegment) : Prop where
  nonempty : ∀ segment ∈ segments, segment.text ≠ []
  alternating : (segments.map ReplaySegment.style).IsChain (· ≠ ·)

section Tidy

variable {segments : List ReplaySegment}

theorem tidy_nil : Tidy [] := ⟨by simp, .nil⟩

/-- Appending joins neighbours of the same style, and leaves no empty segment. -/
theorem Tidy.appendSegment (tidy : Tidy segments) (text : Text) (style : InputStyle) :
    Tidy (appendSegment segments text style) := by
  unfold Nospacekey.appendSegment
  split
  · exact tidy
  rename_i filled
  have filled : text ≠ [] := by simpa using filled
  split
  · rename_i last found
    obtain ⟨front, rfl⟩ := List.getLast?_eq_some_iff.mp found
    split
    · -- The last segment grows, and keeps its style.
      rw [List.dropLast_concat]
      refine ⟨fun segment member => ?_, ?_⟩
      · rcases List.mem_append.mp member with before | same
        · exact tidy.nonempty segment (List.mem_append_left _ before)
        · rw [List.mem_singleton.mp same]
          exact List.append_ne_nil_of_right_ne_nil _ filled
      · simpa using tidy.alternating
    · rename_i other
      refine ⟨fun segment member => ?_, ?_⟩
      · rcases List.mem_append.mp member with before | same
        · exact tidy.nonempty segment before
        · rw [List.mem_singleton.mp same]
          exact filled
      · rw [List.map_append]
        refine List.isChain_append.mpr ⟨tidy.alternating, .singleton _, ?_⟩
        simpa using other
  · rename_i nothing
    obtain rfl := List.getLast?_eq_none_iff.mp nothing
    exact ⟨by simpa using filled, .singleton _⟩

/-- The styles of truncated segments are the leading ones. -/
theorem styles_truncateSegments (nonempty : ∀ segment ∈ segments, segment.text ≠ []) (len : Nat) :
    (truncateSegments len segments).map ReplaySegment.style <+: segments.map ReplaySegment.style := by
  have cleared : ∀ segments : List ReplaySegment, truncateSegments 0 segments = [] := by
    intro segments
    induction segments with
    | nil => rfl
    | cons segment rest ih => simpa [truncateSegments, clearSegmentsFrom] using ih
  induction segments generalizing len with
  | nil => exact List.prefix_rfl
  | cons segment rest ih =>
    have first : segment.text ≠ [] := nonempty segment List.mem_cons_self
    have later := fun len => ih (fun other member => nonempty other (List.mem_cons_of_mem _ member)) len
    unfold truncateSegments clearSegmentsFrom
    split
    · rename_i zero
      have rest' : (clearSegmentsFrom 0 rest).filter (fun segment => !segment.text.isEmpty) = [] := cleared rest
      simp [rest']
    split
    · -- The truncation ends in this segment.
      have rest' : (clearSegmentsFrom 0 rest).filter (fun segment => !segment.text.isEmpty) = [] := cleared rest
      rw [List.filter_cons, rest']
      split
      · exact ⟨rest.map ReplaySegment.style, rfl⟩
      · exact List.nil_prefix
    · rw [List.filter_cons_of_pos (by simpa using first), List.map_cons, List.map_cons]
      exact List.cons_prefix_cons.mpr ⟨rfl, later _⟩

/-- Truncating leaves no empty segment, and changes no style. -/
theorem Tidy.truncate (tidy : Tidy segments) (len : Nat) : Tidy (truncateSegments len segments) where
  nonempty := by
    intro segment member
    simpa using (List.mem_filter.mp member).2
  alternating := by
    obtain ⟨rest, same⟩ := styles_truncateSegments tidy.nonempty len
    have whole := tidy.alternating
    rw [← same] at whole
    exact (List.isChain_append.mp whole).1

/-- Both halves of split segments are built by appending. -/
theorem tidy_splitSegments (segments : List ReplaySegment) (bytes : Nat) :
    Tidy (splitSegments segments bytes).1 ∧ Tidy (splitSegments segments bytes).2 := by
  suffices from' : ∀ (before after : List ReplaySegment), Tidy before → Tidy after → ∀ bytes,
      Tidy (splitSegmentsFrom before after bytes segments).1 ∧
        Tidy (splitSegmentsFrom before after bytes segments).2 from from' [] [] tidy_nil tidy_nil bytes
  intro before after first second bytes
  induction segments generalizing before after bytes with
  | nil => exact ⟨first, second⟩
  | cons segment rest ih => exact ih _ _ (first.appendSegment _ _) (second.appendSegment _ _) _

/-- What is kept of the segments behind a start is built by appending. -/
theorem tidy_suffixSegmentsFrom {start offset : Nat} {retained kept : List ReplaySegment} {stop : Nat}
    (tidy : Tidy retained) (found : suffixSegmentsFrom start offset retained segments = some (kept, stop)) :
    Tidy kept := by
  induction segments generalizing offset retained with
  | nil =>
    obtain ⟨rfl, rfl⟩ := Prod.mk.inj (Option.some.inj found)
    exact tidy
  | cons segment rest ih =>
    unfold suffixSegmentsFrom at found
    dsimp only at found
    split at found
    · split at found
      · cases found
      · exact ih (tidy.appendSegment _ _) found
    · exact ih tidy found

end Tidy

/-- A letter in a direct segment stands at the byte offset. -/
def Stands (text : StyledText) (offset : Nat) : Prop :=
  ∃ front ch back, text = front ++ (ch, .direct) :: back ∧ byteLength (front.map Prod.fst) = offset ∧
    ch.isAlpha = true

section Stands

variable {text : StyledText} {offset : Nat}

/-- A letter takes one byte of the text. -/
theorem Stands.inside (stands : Stands text offset) : offset + 1 ≤ byteLength (text.map Prod.fst) := by
  obtain ⟨front, ch, back, rfl, rfl, letter⟩ := stands
  simp [utf8Size_of_isAlpha letter]

/-- More text behind it leaves a letter where it is. -/
theorem Stands.append (stands : Stands text offset) (more : StyledText) : Stands (text ++ more) offset := by
  obtain ⟨front, ch, back, rfl, start, letter⟩ := stands
  exact ⟨front, ch, back ++ more, by simp, start, letter⟩

/-- A letter before a cut stays where it is. -/
theorem Stands.cut {len : Nat} {kept back : StyledText} (stands : Stands text offset)
    (cut : Cut len text kept back) (before : offset < len) : Stands kept offset := by
  obtain ⟨front, ch, rest, whole, start, letter⟩ := stands
  -- The text up to the letter fits before the cut.
  have fits : (front ++ [(ch, InputStyle.direct)]).map Prod.fst <+: kept.map Prod.fst := by
    rw [cut.front]
    refine prefix_takeBytes ⟨rest.map Prod.fst, by rw [whole]; simp⟩ ?_
    rw [List.map_append, byteLength_append, start]
    simp [utf8Size_of_isAlpha letter]
    omega
  obtain ⟨more, same⟩ : front ++ [(ch, .direct)] <+: kept := by
    have inText : front ++ [(ch, .direct)] <+: text := ⟨rest, by rw [whole]; simp⟩
    refine List.prefix_of_prefix_length_le inText ⟨back, cut.parts.symm⟩ ?_
    simpa using fits.length_le
  exact ⟨front, ch, more, by rw [← same]; simp, start, letter⟩

/-- Text that goes before a letter moves it. -/
theorem Stands.drop {gone : StyledText} (stands : Stands (gone ++ text) offset)
    (behind : byteLength (gone.map Prod.fst) ≤ offset) :
    Stands text (offset - byteLength (gone.map Prod.fst)) := by
  obtain ⟨front, ch, back, whole, start, letter⟩ := stands
  obtain ⟨rest, rfl⟩ : gone <+: front := by
    rcases List.prefix_or_prefix_of_prefix (List.prefix_append gone text) ⟨(ch, .direct) :: back, whole.symm⟩ with
      onward | ⟨more, rfl⟩
    · exact onward
    · rw [← start, List.map_append, byteLength_append] at behind
      have empty : more.map Prod.fst = [] := byteLength_eq_zero.mp (by omega)
      simp [List.map_eq_nil_iff.mp empty]
  rw [List.append_assoc] at whole
  refine ⟨rest, ch, back, List.append_cancel_left whole, ?_, letter⟩
  rw [← start, List.map_append, byteLength_append]
  omega

end Stands

namespace LocalKanaComposer

/-- The segments have the texts they stand for, they are tidy, and the automatic literals are in order
and stand in direct segments. -/
structure Segmented (c : LocalKanaComposer) : Prop where
  stable : (styled c.stableSegments).map Prod.fst = c.stable
  suffix : (styled c.suffixSegments).map Prod.fst = c.suffix
  stableTidy : Tidy c.stableSegments
  suffixTidy : Tidy c.suffixSegments
  sorted : c.automaticLiterals.Pairwise (· < ·)
  stands : ∀ offset ∈ c.automaticLiterals, Stands (styled c.stableSegments) offset

/-- The representation of a composer between two operations. -/
structure Represented (c : LocalKanaComposer) : Prop extends Segmented c where
  reading : c.reading = c.stable ++ c.pending ++ c.suffix
  journal : Laid c.journal.units 0 c.reading.length
  apart : c.pending ≠ [] → ∀ u ∈ c.journal.units, u.stop ≤ c.stable.length ∨ c.cursor ≤ u.start

section Segmented

variable {c : LocalKanaComposer}

/-- A unit is appended to the stable text as its last segment, or to it. -/
theorem Segmented.appendInputUnit (segmented : c.Segmented) {text pending : Text} {style : InputStyle}
    {literals : List Nat} (original : Text) (sorted : literals.Pairwise (· < ·))
    (stands : ∀ offset ∈ literals, Stands (styled c.stableSegments ++ styledText text style) offset) :
    { c.appendInputUnit text style original with automaticLiterals := literals, pending := pending }.Segmented where
  stable := by
    simp only [styled_appendInputUnit, List.map_append, segmented.stable, map_fst_styledText]
    rfl
  suffix := segmented.suffix
  stableTidy := segmented.stableTidy.appendSegment _ _
  suffixTidy := segmented.suffixTidy
  sorted := sorted
  stands := by
    simp only [styled_appendInputUnit]
    exact stands

/-- A unit leaves the literals before it where they are. -/
theorem Segmented.appendUnit (segmented : c.Segmented) (text original : Text) (style : InputStyle) :
    (c.appendInputUnit text style original).Segmented :=
  segmented.appendInputUnit original segmented.sorted fun offset member => (segmented.stands offset member).append _

/-- Cutting the stable text off keeps the literals before the cut. -/
theorem Segmented.truncate (segmented : c.Segmented) (len : Nat) : (c.truncateStable len).Segmented := by
  obtain ⟨back, cut⟩ := truncateSegments_cut len c.stableSegments
  refine { segmented with
    stable := cut.front.trans (by rw [segmented.stable]; rfl)
    stableTidy := segmented.stableTidy.truncate len
    sorted := segmented.sorted.filter _
    stands := fun offset member => ?_ }
  obtain ⟨member, before⟩ := List.mem_filter.mp member
  exact (segmented.stands offset member).cut cut (of_decide_eq_true before)

/-- Only a rejected letter is a direct unit, and it is the whole of it. -/
theorem nextUnit_direct {pending : Text} {unit : RomanUnit} (found : nextUnit pending = some unit)
    (direct : unit.style = .direct) : ∃ ch, unit.text = [ch] ∧ ch.isAlpha = true := by
  cases nextUnit_parses found with
  | converted => cases direct
  | @frozen first rest _ _ literal _ => exact ⟨first, rfl, literal.1⟩

/-- A unit of the parser leaves the literals in order, and a rejected letter is one of them. -/
theorem Segmented.acceptUnit (segmented : c.Segmented) {unit : RomanUnit} (found : nextUnit c.pending = some unit) :
    (c.acceptUnit unit).Segmented := by
  have kept : ∀ offset ∈ c.automaticLiterals,
      Stands (styled c.stableSegments ++ styledText unit.text unit.style) offset :=
    fun offset member => (segmented.stands offset member).append _
  unfold LocalKanaComposer.acceptUnit
  split
  · rename_i direct
    obtain ⟨ch, text, letter⟩ := nextUnit_direct found direct
    refine segmented.appendInputUnit unit.original ?_ fun offset member => ?_
    · refine List.pairwise_append.mpr ⟨segmented.sorted, by simp, fun offset member last isLast => ?_⟩
      have := (segmented.stands offset member).inside
      rw [segmented.stable] at this
      have := List.mem_singleton.mp isLast
      omega
    · rcases List.mem_append.mp member with before | last
      · exact kept offset before
      · refine ⟨styled c.stableSegments, ch, [], ?_, ?_, letter⟩
        · rw [direct, text]
          rfl
        · rw [segmented.stable, List.mem_singleton.mp last]
  · exact segmented.appendInputUnit unit.original segmented.sorted kept

/-- The parser leaves the segments and the literals in order. -/
theorem Segmented.advanceWithin (segmented : c.Segmented) (fuel : Nat) : (c.advanceWithin fuel).Segmented := by
  induction fuel generalizing c with
  | zero => exact segmented
  | succ fuel ih =>
    unfold LocalKanaComposer.advanceWithin
    split
    · exact segmented
    · rename_i unit found
      exact ih (segmented.acceptUnit found)

/-- Reopening cuts the stable text off. -/
theorem Segmented.reopenRomanTail (segmented : c.Segmented) : c.reopenRomanTail.Segmented := by
  unfold LocalKanaComposer.reopenRomanTail
  split
  · exact { segmented.truncate _ with }
  · exact segmented

/-- Freezing pending keys appends them. -/
theorem Segmented.freezePending (segmented : c.Segmented) : c.freezePending.Segmented := by
  unfold LocalKanaComposer.freezePending
  split
  · exact segmented
  · have taken : { c with journal := (c.journal.detachSuffix c.cursor).1, pending := [] }.Segmented :=
      { segmented with }
    exact { taken.appendUnit c.pending c.pending .direct with }

end Segmented

section Journal

variable {c : LocalKanaComposer}

/-- Units that are laid out over the stable text and one that is appended to it are laid out over both. -/
theorem laid_appendInputUnit (laid : Laid c.journal.units 0 c.stable.length) (text original : Text)
    (style : InputStyle) :
    Laid (c.appendInputUnit text style original).journal.units 0
      (c.appendInputUnit text style original).stable.length := by
  have length : (c.appendInputUnit text style original).stable.length = c.stable.length + text.length :=
    List.length_append
  rw [length]
  exact InputJournal.laid_append laid text.length original

/-- The parser lays its units out over the stable text. -/
theorem laid_advanceWithin (fuel : Nat) (laid : Laid c.journal.units 0 c.stable.length) :
    Laid (c.advanceWithin fuel).journal.units 0 (c.advanceWithin fuel).stable.length := by
  induction fuel generalizing c with
  | zero => exact laid
  | succ fuel ih =>
    unfold LocalKanaComposer.advanceWithin
    split
    · exact laid
    · rename_i unit _
      exact ih (laid_appendInputUnit laid unit.text unit.original unit.style)

/-- Cutting the stable text off drops the units that do not end in it. -/
theorem laid_truncateStable {stop : Nat} (laid : Laid c.journal.units 0 stop) (len : Nat) :
    Laid (c.truncateStable len).journal.units 0 (c.truncateStable len).stable.length :=
  InputJournal.laid_retainPrefix laid _

/-- Reopening cuts the stable text off. -/
theorem laid_reopenRomanTail (laid : Laid c.journal.units 0 c.stable.length) :
    Laid c.reopenRomanTail.journal.units 0 c.reopenRomanTail.stable.length := by
  unfold LocalKanaComposer.reopenRomanTail
  split
  · exact laid_truncateStable laid _
  · exact laid

/-- Between two operations, what is set apart at the cursor is laid out over the stable text, and over
the text behind the cursor. -/
theorem Represented.detached (represented : c.Represented) :
    Laid (c.journal.detachSuffix c.cursor).1.units 0 c.stable.length ∧
      Laid (c.journal.detachSuffix c.cursor).2.units 0 c.suffix.length := by
  obtain ⟨before, after⟩ := InputJournal.laid_detachSuffix represented.journal c.cursor
  constructor
  · refine before.between fun u member => ⟨Nat.zero_le _, ?_⟩
    rw [(InputJournal.detachSuffix_units represented.journal c.cursor).1] at member
    obtain ⟨member, ends⟩ := List.mem_filter.mp member
    obtain ⟨inUnits, starts⟩ := List.mem_filter.mp member
    by_cases empty : c.pending = []
    · -- Then the cursor is at the end of the stable text.
      have ends := of_decide_eq_true ends
      rwa [cursor, empty, List.length_nil, Nat.add_zero] at ends
    · -- A unit that starts before the cursor ends before the pending keys.
      rcases represented.apart empty u inUnits with ends | behind
      · exact ends
      · have := of_decide_eq_true starts
        omega
  · have length : c.reading.length - c.cursor = c.suffix.length := by
      rw [represented.reading, cursor, List.length_append, List.length_append]
      omega
    rwa [length] at after

/-- The units of the stable text and those set apart, put back behind the cursor, keep the pending
range free. -/
theorem represented_of_detached {after : InputJournal} (segmented : c.Segmented)
    (laid : Laid c.journal.units 0 c.stable.length) (set : Laid after.units 0 c.suffix.length) :
    { c with journal := c.journal.appendSuffix after c.cursor }.refreshReading.Represented := by
  have room : c.stable.length ≤ c.cursor := Nat.le_add_right _ _
  refine { segmented with reading := rfl, journal := ?_, apart := ?_ }
  · have length : (c.stable ++ c.pending ++ c.suffix).length = c.cursor + c.suffix.length := by
      rw [List.length_append, List.length_append]
      rfl
    show Laid _ 0 (c.stable ++ c.pending ++ c.suffix).length
    rw [length]
    exact InputJournal.laid_appendSuffix (laid.mono (Nat.le_refl _) room) set (Nat.zero_le _)
  · intro _ u member
    change u ∈ (c.journal.appendSuffix after c.cursor).units at member
    unfold InputJournal.appendSuffix at member
    split at member
    · exact .inl (laid.inside u member).2.2
    · rcases List.mem_append.mp member with before | behind
      · exact .inl (laid.inside u before).2.2
      · obtain ⟨v, _, rfl⟩ := List.mem_map.mp behind
        exact .inr (Nat.le_add_left _ _)

/-- An edit before the cursor keeps the representation if it keeps the segments, leaves the text behind
the cursor, and lays its units out over the stable text. -/
theorem Represented.withDetached (represented : c.Represented) {edit : LocalKanaComposer → LocalKanaComposer}
    (edits : ∀ journal : InputJournal, Laid journal.units 0 c.stable.length →
      (edit { c with journal := journal }).Segmented ∧ (edit { c with journal := journal }).suffix = c.suffix ∧
        Laid (edit { c with journal := journal }).journal.units 0 (edit { c with journal := journal }).stable.length) :
    (c.withDetached edit).refreshReading.Represented := by
  obtain ⟨before, after⟩ := represented.detached
  obtain ⟨segmented, same, laid⟩ := edits _ before
  exact represented_of_detached segmented laid (by rw [same]; exact after)

end Journal

end LocalKanaComposer

end Nospacekey
