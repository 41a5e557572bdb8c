import Nospacekey.Composer.Lossless
import Nospacekey.Input.Module

/-! What stays of a composition when a suffix of its reading is retained. -/

namespace Nospacekey

open Utf8 Runs

/-- At a boundary of the whole text, the segments behind it are found. -/
theorem suffixSegmentsFrom_of_boundary {start : Nat} {segments : List ReplaySegment} (offset : Nat)
    (retained : List ReplaySegment)
    (boundary : IsCharBoundary ((styled segments).map Prod.fst) (start - offset)) :
    ∃ kept, suffixSegmentsFrom start offset retained segments =
      some (kept, offset + byteLength ((styled segments).map Prod.fst)) := by
  induction segments generalizing offset retained with
  | nil => exact ⟨retained, rfl⟩
  | cons segment rest ih =>
    rw [styled_cons, List.map_append, map_fst_styledText] at boundary
    have length : byteLength ((styled (segment :: rest)).map Prod.fst) =
        byteLength segment.text + byteLength ((styled rest).map Prod.fst) := by
      rw [styled_cons, List.map_append, map_fst_styledText, byteLength_append]
    rw [length, ← Nat.add_assoc]
    unfold suffixSegmentsFrom
    dsimp only
    split
    · rename_i reaches
      have inside : isCharBoundary segment.text (start - offset) = true :=
        isCharBoundary_iff.mpr (boundary_inside boundary (by omega))
      rw [inside]
      -- The start is in this segment, and the others are kept whole.
      have zero : start - (offset + byteLength segment.text) = 0 := by omega
      exact ih _ _ (by rw [zero]; exact isCharBoundary_zero _)
    · rename_i before
      have behind := boundary_behind boundary (by omega)
      rw [Nat.sub_sub] at behind
      exact ih _ _ behind

section Restriction

variable {segments others : List ReplaySegment} {segment : ReplaySegment}

/-- Tidy segments start with the longest run of a style. -/
theorem Tidy.styled_cons (tidy : Tidy (segment :: segments)) :
    (styled (segment :: segments)).span (·.2 = segment.style) =
      (styledText segment.text segment.style, styled segments) := by
  have first : ∀ c ∈ styledText segment.text segment.style, (decide (c.2 = segment.style)) = true := by
    simp [styledText]
  have next : (styled segments).span (·.2 = segment.style) = ([], styled segments) := by
    cases segments with
    | nil => rfl
    | cons other rest =>
      have apart : segment.style ≠ other.style := (List.isChain_cons_cons.mp tidy.alternating).1
      obtain ⟨c, text, filled⟩ := List.exists_cons_of_ne_nil (tidy.nonempty other (by simp))
      rw [Nospacekey.styled_cons, filled, List.span_eq_takeWhile_dropWhile]
      simp [styledText, Ne.symm apart]
  rw [List.span_eq_takeWhile_dropWhile, Prod.mk.injEq] at next ⊢
  rw [Nospacekey.styled_cons, List.takeWhile_append_of_pos first, List.dropWhile_append_of_pos first, next.1, next.2,
    List.append_nil]
  exact ⟨rfl, rfl⟩

/-- The segments behind the first one are tidy too. -/
theorem Tidy.tail (tidy : Tidy (segment :: segments)) : Tidy segments where
  nonempty other member := tidy.nonempty other (List.mem_cons_of_mem _ member)
  alternating := tidy.alternating.tail

/-- Tidy segments are given by the styles of their characters. -/
theorem Tidy.ext (tidy : Tidy segments) (tidy' : Tidy others) (same : styled segments = styled others) :
    segments = others := by
  have filled : ∀ {segment : ReplaySegment} {rest}, Tidy (segment :: rest) →
      ∃ c more, styled (segment :: rest) = (c, segment.style) :: more := by
    intro segment rest tidy
    obtain ⟨c, text, some'⟩ := List.exists_cons_of_ne_nil (tidy.nonempty segment (by simp))
    exact ⟨c, _, by rw [Nospacekey.styled_cons, some', styledText]; rfl⟩
  induction segments generalizing others with
  | nil =>
    cases others with
    | nil => rfl
    | cons other rest =>
      obtain ⟨c, more, whole⟩ := filled tidy'
      rw [whole] at same
      cases same
  | cons segment segments ih =>
    obtain ⟨c, more, whole⟩ := filled tidy
    cases others with
    | nil =>
      rw [whole] at same
      cases same
    | cons other rest =>
      obtain ⟨c', more', whole'⟩ := filled tidy'
      -- The first characters have the same style, and the first segments are the runs of it.
      have style : segment.style = other.style := by
        rw [whole, whole'] at same
        exact (Prod.mk.inj (List.cons.inj same).1).2
      have spans := tidy.styled_cons
      rw [same, style, tidy'.styled_cons, Prod.mk.injEq] at spans
      have text : segment.text = other.text := by
        rw [← map_fst_styledText segment.text other.style, ← spans.1, map_fst_styledText]
      rw [ih tidy.tail tidy'.tail spans.2.symm, show segment = other from by
        cases segment
        cases other
        simp_all]

/-- The segments behind the first characters, the one that holds the cut without its front. -/
def dropSegments : Nat → List ReplaySegment → List ReplaySegment
  | _, [] => []
  | count, segment :: rest =>
    if count < segment.text.length then { segment with text := segment.text.drop count } :: rest
    else dropSegments (count - segment.text.length) rest

/-- Dropped segments show what is left of the characters. -/
@[simp] theorem styled_dropSegments (count : Nat) (segments : List ReplaySegment) :
    styled (dropSegments count segments) = (styled segments).drop count := by
  induction segments generalizing count with
  | nil => simp [dropSegments, styled]
  | cons segment rest ih =>
    have length : (styledText segment.text segment.style).length = segment.text.length := List.length_map _
    unfold dropSegments
    rw [Nospacekey.styled_cons, List.drop_append, length]
    split
    · rename_i inside
      rw [Nospacekey.styled_cons, Nat.sub_eq_zero_of_le inside.le, List.drop_zero]
      simp [styledText]
    · rename_i outside
      have gone : (styledText segment.text segment.style).drop count = [] := List.drop_eq_nil_of_le (by omega)
      rw [ih, gone, List.nil_append]

/-- What is left of tidy segments is tidy. -/
theorem Tidy.drop (tidy : Tidy segments) (count : Nat) : Tidy (dropSegments count segments) := by
  induction segments generalizing count with
  | nil => exact tidy
  | cons segment rest ih =>
    unfold dropSegments
    split
    · rename_i inside
      refine ⟨fun other member => ?_, tidy.alternating⟩
      rcases List.mem_cons.mp member with rfl | behind
      · simpa using inside
      · exact tidy.nonempty other (List.mem_cons_of_mem _ behind)
    · exact ih tidy.tail _

/-- The segments of a replay are tidy. -/
theorem LocalKanaComposer.Represented.tidy_replaySegments {c : LocalKanaComposer} (represented : c.Represented) :
    Tidy c.replaySegments := by
  have appended : ∀ (later before : List ReplaySegment), Tidy before →
      Tidy (later.foldl (fun segments segment => appendSegment segments segment.text segment.style) before) := by
    intro later
    induction later with
    | nil => exact fun _ tidy => tidy
    | cons segment rest ih => exact fun _ tidy => ih _ (tidy.appendSegment _ _)
  exact appended _ _ (represented.stableTidy.appendSegment _ _)

end Restriction

namespace LocalKanaComposer

section Retention

variable {c : LocalKanaComposer}

/-- Frozen keys are the unit that answered for them while they were pending. -/
theorem freezePending_journal (c : LocalKanaComposer) : c.freezePending.journal = c.inputJournal := by
  unfold freezePending inputJournal
  split <;> rfl

/-- A cursor before some text is moved to the end as a whole: the pending keys are frozen where they stand, and the
replay and the units that answer for the original input are the same. -/
structure MovedToEnd (c d : LocalKanaComposer) : Prop extends Represented d where
  finished : d.pending = []
  atEnd : d.suffix = []
  shown : d.stable = c.reading
  units : d.journal = c.inputJournal
  replay : styled d.replaySegments = styled c.replaySegments

/-- Moving the cursor to the end of a reading all positions of which fit. -/
theorem Represented.movedToEnd (represented : c.Represented) (fits : c.reading.length < 2 ^ 32)
    (interior : c.suffix ≠ []) : MovedToEnd c (c.setCursor c.reading.length).1 := by
  obtain ⟨moved, same⟩ := represented.setCursor c.reading.length
  obtain ⟨positions, built⟩ := legalBoundaries_of_lt fits
  have length : c.cursor + c.suffix.length = c.reading.length := by
    rw [represented.reading, List.length_append, List.length_append]
    rfl
  have more : 0 < c.suffix.length := List.length_pos_iff.mpr interior
  -- The last boundary is the end of the reading, where the cursor is not.
  have last : (positions.reverse.find? fun position => position ≤ c.reading.length).getD 0 = c.reading.length := by
    obtain ⟨_, whole⟩ := legalBoundaries_ok_iff.mp built
    rw [if_pos (show c.reading.length ≠ 0 by omega)] at whole
    rw [whole]
    simp
  have apart : c.reading.length ≠ c.cursor := by omega
  obtain ⟨frozen, pending, reading, stable, suffix⟩ := represented.freezePending
  have cut := splitSegments_cut c.freezePending.replaySegments (byteLength (c.freezePending.reading.take c.reading.length))
  have texts : (styled c.freezePending.replaySegments).map Prod.fst = c.reading := by
    rw [styled_replaySegments, pending, ← reading, frozen.reading, pending]
    simp [frozen.stable, frozen.suffix]
  have moves : (c.setCursor c.reading.length).1 =
      { c.freezePending with
        stable := takeBytes (byteLength (c.freezePending.reading.take c.reading.length)) c.freezePending.reading
        suffix := dropBytes (byteLength (c.freezePending.reading.take c.reading.length)) c.freezePending.reading
        stableSegments := (splitSegments c.freezePending.replaySegments
          (byteLength (c.freezePending.reading.take c.reading.length))).1
        suffixSegments := (splitSegments c.freezePending.replaySegments
          (byteLength (c.freezePending.reading.take c.reading.length))).2
        automaticLiterals := [] } := by
    unfold LocalKanaComposer.setCursor
    rw [built]
    dsimp only
    rw [last, if_neg apart]
  refine { moved with finished := ?_, atEnd := ?_, shown := ?_, units := ?_, replay := ?_ }
  · rw [moves]
    exact pending
  · rw [moves, reading, List.take_length]
    exact dropBytes_byteLength _
  · rw [moves, reading, List.take_length]
    exact takeBytes_byteLength _
  · rw [moves]
    exact freezePending_journal c
  · -- Everything is before the new cursor, and pending keys before other text were direct already.
    have split : styled c.freezePending.replaySegments = styled c.replaySegments := by
      rw [styled_replaySegments, styled_replaySegments, pending, suffix]
      unfold LocalKanaComposer.freezePending
      split
      · rename_i empty
        have empty : c.pending = [] := by simpa using empty
        simp [empty]
      · have behind : c.suffix.isEmpty = false := by simpa using interior
        simp [appendInputUnit, appendStable, behind]
    rw [← split, cut.parts, styled_replaySegments, moves]
    simp [pending]

/-- With the cursor at the end, the pending keys are the last unit that answers for the original input. -/
theorem Represented.inputJournal_atEnd (represented : c.Represented) (atEnd : c.suffix = []) :
    c.inputJournal.units = c.journal.units ++
      if c.pending = [] then [] else [{ start := c.stable.length, stop := c.cursor, original := c.pending }] := by
  unfold inputJournal
  by_cases finished : c.pending = []
  · simp [finished]
  have length : c.reading.length = c.cursor := by
    rw [represented.reading, atEnd, List.append_nil, List.length_append]
    rfl
  have filled : 0 < c.pending.length := List.length_pos_iff.mpr finished
  have total : c.cursor = c.stable.length + c.pending.length := rfl
  -- All units are in the stable text.
  have inside : ∀ u ∈ c.journal.units, u.start < c.cursor ∧ u.stop ≤ c.stable.length := by
    intro u member
    obtain ⟨_, some', ends⟩ := represented.journal.inside u member
    rcases represented.apart finished u member with before | after
    · exact ⟨by omega, before⟩
    · omega
  obtain ⟨before, after⟩ := InputJournal.detachSuffix_units represented.journal c.cursor
  have front : (c.journal.detachSuffix c.cursor).1.units = c.journal.units := by
    rw [before, List.filter_filter]
    refine List.filter_eq_self.mpr fun u member => ?_
    obtain ⟨starts, ends⟩ := inside u member
    rw [Bool.and_eq_true, decide_eq_true_eq, decide_eq_true_eq]
    omega
  have back : (c.journal.detachSuffix c.cursor).2 = ⟨[]⟩ := by
    rw [after]
    unfold InputJournal.removePrefix
    have none' : (c.journal.units.filter fun u => c.cursor ≤ u.start) = [] :=
      List.filter_eq_nil_iff.mpr fun u member => by
        have := (inside u member).1
        simp
        omega
    rw [none']
    rfl
  rw [if_neg (by simpa using finished), if_neg finished]
  dsimp only
  rw [back, appendSuffix_nil,
    InputJournal.append_of_filled _ (by omega) finished, InputJournal.retainPrefix_units represented.detached.1, front]
  refine congrArg (· ++ _) (List.filter_eq_self.mpr fun u member => ?_)
  exact decide_eq_true (inside u member).2

/-- What a retained suffix leaves of a composer with the cursor at the end. -/
structure Retained (c d : LocalKanaComposer) (suffix : Text) : Prop where
  reading : d.reading = suffix
  atEnd : d.cursorAtEnd = true
  replay : d.replaySegments = dropSegments (c.reading.length - suffix.length) c.replaySegments
  original : ∀ first last, d.originalInput first last =
    c.originalInput (c.reading.length - suffix.length + first) (c.reading.length - suffix.length + last)

/-- A retained suffix is what of the stable text is kept, and the pending keys. -/
theorem retainedStableSuffix_text {segmentation : Segmentation} {suffix stableSuffix : Text}
    {segments : List ReplaySegment} (found : c.retainedStableSuffix segmentation suffix = some (stableSuffix, segments)) :
    stableSuffix ++ c.pending = suffix := by
  unfold retainedStableSuffix at found
  split at found
  · cases found
  split at found
  · cases found
  rename_i ends
  dsimp only at found
  split at found
  · cases found
  obtain ⟨kept, _, same⟩ := Option.map_eq_some_iff.mp found
  obtain ⟨rfl, _⟩ := Prod.mk.inj same
  rw [Bool.not_eq_true, Bool.not_eq_false', List.isSuffixOf_iff_suffix] at ends
  obtain ⟨front, rfl⟩ := ends
  simp

/-- Retaining a suffix with the cursor at the end. -/
theorem Represented.retainAtEnd_retained (represented : c.Represented) (atEnd : c.suffix = [])
    (segmentation : Segmentation) (suffix : Text) (kept : (c.retainAtEnd segmentation suffix).2 = true) :
    Retained c (c.retainAtEnd segmentation suffix).1 suffix ∧
      (c.retainAtEnd segmentation suffix).1.pending = c.pending := by
  have represented' := represented.retainAtEnd segmentation suffix
  unfold LocalKanaComposer.retainAtEnd at kept represented' ⊢
  cases found : c.retainedStableSuffix segmentation suffix with
  | none =>
    simp only [found] at kept
    cases kept
  | some pair =>
  obtain ⟨stableSuffix, segments⟩ := pair
  obtain ⟨gone, whole, result⟩ := retainedStableSuffix_spec found
  obtain ⟨texts, front, parts, goneText⟩ := stableSuffixSegments_spec represented.stable whole result
  have text := retainedStableSuffix_text found
  have removed : byteLength c.stable - byteLength stableSuffix = byteLength gone := by
    rw [whole, byteLength_append]
    omega
  have taken : takeBytes (byteLength gone) c.stable = gone := by rw [whole, takeBytes_append]
  simp only [found, removed, taken] at represented' ⊢
  have shown : c.reading = gone ++ suffix := by
    rw [represented.reading, atEnd, List.append_nil, whole, ← text, List.append_assoc]
  have count : c.reading.length - suffix.length = gone.length := by
    rw [shown, List.length_append, Nat.add_sub_cancel]
  refine ⟨⟨?_, ?_, ?_, fun first last => ?_⟩, rfl⟩
  · show stableSuffix ++ c.pending ++ c.suffix = suffix
    rw [atEnd, List.append_nil, text]
  · show c.suffix.isEmpty = true
    rw [atEnd]
    rfl
  · refine represented'.tidy_replaySegments.ext (represented.tidy_replaySegments.drop _) ?_
    rw [styled_dropSegments, styled_replaySegments, styled_replaySegments, count, ← goneText]
    show styled segments ++ styledText c.pending _ ++ styled c.suffixSegments = _
    rw [parts, List.append_assoc front, List.append_assoc front, List.length_map, List.drop_left]
    rfl
  · -- The units behind what is gone are the old ones, the pending keys among them.
    rw [originalInput_eq, originalInput_eq, count, ← InputJournal.original_removePrefix represented.laid_inputJournal]
    refine congrArg (fun journal => InputJournal.original journal first last) ?_
    have units : ∀ journal journal' : InputJournal, journal.units = journal'.units → journal = journal' := by
      rintro ⟨_⟩ ⟨_⟩ rfl
      rfl
    refine units _ _ ?_
    rw [represented'.inputJournal_atEnd atEnd]
    unfold InputJournal.removePrefix
    rw [represented.inputJournal_atEnd atEnd, List.filter_append, List.map_append]
    refine congrArg (_ ++ ·) ?_
    show (if c.pending = [] then [] else _) = _
    split
    · rfl
    · have length : c.stable.length = gone.length + stableSuffix.length := by rw [whole, List.length_append]
      simp only [List.filter_cons, List.filter_nil, length, Nat.le_add_right, decide_true, if_true, List.map_cons,
        List.map_nil, refreshReading, cursor, List.cons.injEq, and_true, InputUnit.mk.injEq]
      exact ⟨by omega, by omega⟩

/-- The segments of an end of the stable text are those behind its start. -/
theorem stableSuffixSegments_of {segmentation : Segmentation} {front suffix : Text}
    (segments : (styled c.stableSegments).map Prod.fst = c.stable) (filled : suffix ≠ [])
    (whole : c.stable = front ++ suffix)
    (boundary : isGraphemeBoundary segmentation c.stable (byteLength front) = true) :
    ∃ segments, c.stableSuffixSegments segmentation (byteLength suffix) = some segments := by
  have some' : byteLength suffix ≠ 0 := fun empty => filled (byteLength_eq_zero.mp empty)
  have length : byteLength c.stable = byteLength front + byteLength suffix := by rw [whole, byteLength_append]
  have start : byteLength c.stable - byteLength suffix = byteLength front := by omega
  have onChar : IsCharBoundary c.stable (byteLength front) := ⟨front, suffix, whole, rfl⟩
  unfold stableSuffixSegments
  rw [if_neg some', if_neg (by omega)]
  dsimp only
  rw [start, isCharBoundary_iff.mpr onChar, boundary]
  have stableBoundary : IsCharBoundary ((styled c.stableSegments).map Prod.fst) (byteLength front - 0) := by
    rw [segments]
    exact onChar
  obtain ⟨kept, found⟩ := suffixSegmentsFrom_of_boundary 0 [] stableBoundary
  rw [found, segments]
  simp

/-- With nothing pending, an end of the stable text that the reading ends with is kept. -/
theorem retainedStableSuffix_of {segmentation : Segmentation} {front before suffix : Text}
    (segments : (styled c.stableSegments).map Prod.fst = c.stable) (finished : c.pending = []) (filled : suffix ≠ [])
    (whole : c.stable = front ++ suffix) (shown : c.reading = before ++ suffix)
    (boundary : isGraphemeBoundary segmentation c.stable (byteLength front) = true) :
    ∃ segments, c.retainedStableSuffix segmentation suffix = some (suffix, segments) := by
  obtain ⟨segments, found⟩ := stableSuffixSegments_of segments filled whole boundary
  refine ⟨segments, ?_⟩
  unfold LocalKanaComposer.retainedStableSuffix
  have ends : suffix.isSuffixOf c.reading = true := List.isSuffixOf_iff_suffix.mpr ⟨before, shown.symm⟩
  have stableEnds : suffix.isSuffixOf c.stable = true := List.isSuffixOf_iff_suffix.mpr ⟨front, whole.symm⟩
  simp [filled, ends, finished, stableEnds, found]

/-- With the cursor at the end and nothing pending, every suffix that starts at a grapheme is retained. -/
theorem MovedToEnd.retainedStableSuffix {d : LocalKanaComposer} (moved : MovedToEnd c d) (segmentation : Segmentation)
    {suffix : Text} (filled : suffix ≠ []) (ends : suffix <:+ c.reading)
    (boundary : isGraphemeBoundary segmentation c.reading (byteLength c.reading - byteLength suffix) = true) :
    ∃ segments, d.retainedStableSuffix segmentation suffix = some (suffix, segments) := by
  obtain ⟨front, whole⟩ := ends
  have shown : d.reading = c.reading := by
    rw [moved.reading, moved.finished, moved.atEnd, moved.shown, List.append_nil, List.append_nil]
  have length : byteLength c.reading = byteLength front + byteLength suffix := by rw [← whole, byteLength_append]
  have start : byteLength c.reading - byteLength suffix = byteLength front := by omega
  exact retainedStableSuffix_of moved.stable moved.finished filled (moved.shown.trans whole.symm)
    (shown.trans whole.symm) (by rwa [moved.shown, ← start])

/-- A suffix that can be retained is, as far as positions fit, and one that is not retained changes nothing. -/
theorem Represented.retainSuffix_iff (represented : c.Represented) (segmentation : Segmentation) (suffix : Text)
    (fits : c.suffix = [] ∨ c.reading.length < 2 ^ 32) :
    c.canRetainSuffix segmentation suffix = true ↔ (c.retainSuffix segmentation suffix).2 = true := by
  unfold canRetainSuffix LocalKanaComposer.retainSuffix
  by_cases atEnd : c.suffix = []
  · simp only [atEnd, List.isEmpty_nil, Bool.not_true, Bool.false_eq_true, if_false]
    unfold LocalKanaComposer.retainAtEnd
    cases c.retainedStableSuffix segmentation suffix <;> simp
  · have interior : c.suffix.isEmpty = false := by simpa using atEnd
    have moved := represented.movedToEnd (fits.resolve_left atEnd) atEnd
    simp only [interior, Bool.not_false, if_true]
    unfold canRetainSuffix
    simp only [interior, Bool.not_false, if_true]
    constructor
    · intro can
      rw [can]
      simp only [Bool.and_eq_true, Bool.not_eq_true', List.isEmpty_eq_false_iff, List.isSuffixOf_iff_suffix] at can
      obtain ⟨segments, found⟩ := moved.retainedStableSuffix segmentation can.1.1 can.1.2 can.2
      unfold LocalKanaComposer.retainAtEnd
      simp [found]
    · intro kept
      by_contra cannot
      rw [Bool.not_eq_true] at cannot
      rw [cannot] at kept
      cases kept

/-- A retention that fails changes nothing. -/
theorem Represented.retainSuffix_false (represented : c.Represented) (segmentation : Segmentation) (suffix : Text)
    (refused : (c.retainSuffix segmentation suffix).2 = false) : (c.retainSuffix segmentation suffix).1 = c := by
  have none' : ∀ d : LocalKanaComposer, (d.retainAtEnd segmentation suffix).2 = false →
      d.retainAtEnd segmentation suffix = (d, false) := by
    intro d refused
    unfold LocalKanaComposer.retainAtEnd at refused ⊢
    cases found : d.retainedStableSuffix segmentation suffix with
    | none => rfl
    | some pair =>
      simp only [found] at refused
      cases refused
  by_cases atEnd : c.suffix = []
  · unfold LocalKanaComposer.retainSuffix at refused ⊢
    simp only [atEnd, List.isEmpty_nil, Bool.not_true, Bool.false_eq_true, if_false] at refused ⊢
    rw [none' c refused]
  have interior : c.suffix.isEmpty = false := by simpa using atEnd
  by_cases fits : c.reading.length < 2 ^ 32
  · have cannot : c.canRetainSuffix segmentation suffix = false := by
      rw [Bool.eq_false_iff]
      intro can
      rw [(represented.retainSuffix_iff segmentation suffix (.inr fits)).mp can] at refused
      cases refused
    unfold LocalKanaComposer.retainSuffix
    simp [interior, cannot]
  · -- The cursor cannot be moved.
    have stays : (c.setCursor c.reading.length).1 = c := by
      have failed : legalBoundaries c.reading = .error .range := by
        simp only [legalBoundaries, u32TryFrom, if_neg fits]
      unfold LocalKanaComposer.setCursor
      rw [failed]
    unfold LocalKanaComposer.retainSuffix at refused ⊢
    simp only [interior, Bool.not_false, if_true, stays] at refused ⊢
    split
    · rfl
    · rename_i can
      rw [if_neg can] at refused
      rw [none' c refused]

/-- What a retained suffix leaves: pending keys stay pending only if the cursor was at the end. -/
theorem Represented.retainSuffix_retained (represented : c.Represented) (segmentation : Segmentation) (suffix : Text)
    (fits : c.suffix = [] ∨ c.reading.length < 2 ^ 32) (kept : (c.retainSuffix segmentation suffix).2 = true) :
    Retained c (c.retainSuffix segmentation suffix).1 suffix ∧
      (c.retainSuffix segmentation suffix).1.pending = if c.cursorAtEnd then c.pending else [] := by
  unfold LocalKanaComposer.retainSuffix cursorAtEnd at *
  by_cases atEnd : c.suffix = []
  · simp only [atEnd, List.isEmpty_nil, Bool.not_true, Bool.false_eq_true, if_false, if_true] at kept ⊢
    exact represented.retainAtEnd_retained atEnd segmentation suffix kept
  · have interior : c.suffix.isEmpty = false := by simpa using atEnd
    have moved := represented.movedToEnd (fits.resolve_left atEnd) atEnd
    simp only [interior, Bool.not_false, if_true, Bool.false_eq_true, if_false] at kept ⊢
    split at kept
    · cases kept
    rename_i can
    rw [if_neg can]
    obtain ⟨retained, pending⟩ := moved.toRepresented.retainAtEnd_retained moved.atEnd segmentation suffix kept
    have shown : (c.setCursor c.reading.length).1.reading = c.reading := (represented.setCursor _).2
    refine ⟨⟨retained.reading, retained.atEnd, ?_, fun first last => ?_⟩, pending.trans moved.finished⟩
    · have same : (c.setCursor c.reading.length).1.replaySegments = c.replaySegments :=
        moved.toRepresented.tidy_replaySegments.ext represented.tidy_replaySegments moved.replay
      rw [retained.replay, same, shown]
    · rw [retained.original, shown, originalInput_eq, originalInput_eq]
      refine congrArg (fun journal => InputJournal.original journal _ _) ?_
      unfold inputJournal
      rw [moved.finished]
      exact moved.units

section Claims

variable (segmentation : Segmentation)

/-- A module keeps the suffix that it has validated when the commit of what is before it completes. -/
theorem Represented.complete_validated (represented : c.Represented) (fits : c.suffix = [] ∨ c.reading.length < 2 ^ 32)
    {m : InputModule} (holds : m.localKana = c) {proposed remaining : Text}
    (validated : m.validatePartialReseed segmentation proposed = some remaining) (text : Text) (candidate : Option Nat)
    (latinFrom : Option Nat) :
    remaining = proposed ∧ (c.retainSuffix segmentation remaining).2 = true ∧
      (m.complete segmentation (.commit text candidate (some remaining) latinFrom) true).localKana =
        (c.retainSuffix segmentation remaining).1 := by
  subst holds
  unfold InputModule.validatePartialReseed at validated
  dsimp only at validated
  split at validated
  · cases validated
  rename_i filled
  split at validated
  · cases validated
  rename_i accepted
  simp only [Bool.or_eq_true, Bool.not_eq_true', not_or, Bool.not_eq_false] at filled accepted
  obtain ⟨⟨_, ends⟩, can⟩ := accepted
  have same : remaining = proposed := by
    obtain ⟨front, whole⟩ := List.isSuffixOf_iff_suffix.mp ends
    rw [← Option.some.inj validated, ← whole, byteLength_append, Nat.add_sub_cancel, dropBytes_append]
  have kept := (represented.retainSuffix_iff segmentation proposed fits).mp can
  have some' : remaining.isEmpty = false := by rw [same]; simpa using filled.1
  refine ⟨same, same ▸ kept, ?_⟩
  unfold InputModule.complete
  simp only [Bool.not_true, Bool.false_eq_true, if_false, some', InputModule.reseedAfterPartialCommitWithLatin,
    InputModule.clearCandidates, InputModule.invalidateLiveSnapshot, InputModule.invalidateLiveDisplay]
  rw [same, if_pos kept]

/-- A suffix is retained exactly if it can be, as far as positions reach the end or the cursor is there. A retention that
fails changes nothing, one that succeeds leaves the suffix with what it had, and what is validated is retained. -/
theorem run_retainSuffix (calls : List ComposerCall) (suffix : Text) :
    let c := exec (LocalKanaComposer.call segmentation) empty calls
    ((c.retainSuffix segmentation suffix).2 = false → (c.retainSuffix segmentation suffix).1 = c) ∧
    ((c.suffix = [] ∨ c.reading.length < 2 ^ 32) →
      (c.canRetainSuffix segmentation suffix = true ↔ (c.retainSuffix segmentation suffix).2 = true) ∧
      ((c.retainSuffix segmentation suffix).2 = true →
        Retained c (c.retainSuffix segmentation suffix).1 suffix ∧
          (c.retainSuffix segmentation suffix).1.pending = if c.cursorAtEnd then c.pending else []) ∧
      ∀ m : InputModule, m.localKana = c → ∀ remaining, m.validatePartialReseed segmentation suffix = some remaining →
        ∀ text candidate latinFrom, remaining = suffix ∧ (c.retainSuffix segmentation remaining).2 = true ∧
          (m.complete segmentation (.commit text candidate (some remaining) latinFrom) true).localKana =
            (c.retainSuffix segmentation remaining).1) := by
  intro c
  have represented : c.Represented := run_represented segmentation calls
  exact ⟨represented.retainSuffix_false segmentation suffix, fun fits =>
    ⟨represented.retainSuffix_iff segmentation suffix fits, represented.retainSuffix_retained segmentation suffix fits,
      fun m holds remaining validated => represented.complete_validated segmentation fits holds validated⟩⟩

/-- Text typed directly is added before the cursor. -/
theorem exec_push_direct (text : Text) {c : LocalKanaComposer} (finished : c.pending = []) :
    let d := exec (LocalKanaComposer.call segmentation) c (text.map (.push · .direct))
    d.pending = [] ∧ d.stable = c.stable ++ text ∧ d.suffix = c.suffix := by
  induction text generalizing c with
  | nil => exact ⟨finished, (List.append_nil _).symm, rfl⟩
  | cons ch text ih =>
    have pushed : (c.push ch .direct).pending = [] ∧ (c.push ch .direct).stable = c.stable ++ [ch] ∧
        (c.push ch .direct).suffix = c.suffix := by
      unfold LocalKanaComposer.push withDetached
      simp [appendInputUnit, appendStable, refreshReading, finished]
    obtain ⟨settled, stable, suffix⟩ := ih pushed.1
    rw [pushed.2.1, List.append_assoc] at stable
    exact ⟨settled, stable, suffix.trans pushed.2.2⟩

/-- Of か and a pending n, the pending key is retained alone and stays pending, and with the cursor before it it is
settled. What the reading does not end with is not retained. -/
theorem run_retainSuffix_kan :
    let c := exec (LocalKanaComposer.call .scalars) empty [.push 'k' .kana, .push 'a' .kana, .push 'n' .kana]
    let d := exec (LocalKanaComposer.call .scalars) empty
      [.push 'k' .kana, .push 'a' .kana, .push 'n' .kana, .setCursor 1]
    (c.retainSuffix .scalars ['ん']).1 = c ∧
      Retained c (c.retainSuffix .scalars ['n']).1 ['n'] ∧ (c.retainSuffix .scalars ['n']).1.pending = ['n'] ∧
      Retained d (d.retainSuffix .scalars ['n']).1 ['n'] ∧ (d.retainSuffix .scalars ['n']).1.pending = [] ∧
      (({ InputModule.initial with localKana := c } : InputModule).complete .scalars (.commit ['蚊'] none (some ['n']) none) true).localKana =
        (c.retainSuffix .scalars ['n']).1 := by
  have atEnd := run_retainSuffix .scalars [.push 'k' .kana, .push 'a' .kana, .push 'n' .kana]
  have interior := run_retainSuffix .scalars [.push 'k' .kana, .push 'a' .kana, .push 'n' .kana, .setCursor 1]
  refine ⟨(atEnd ['ん']).1 (by decide +kernel), (((atEnd ['n']).2 (by decide +kernel)).2.1 (by decide +kernel)).1, ?_,
    (((interior ['n']).2 (by decide +kernel)).2.1 (by decide +kernel)).1, ?_,
    (((atEnd ['n']).2 (by decide +kernel)).2.2 _ rfl ['n'] (by decide +kernel) ['蚊'] none none).2.2⟩
  · rw [(((atEnd ['n']).2 (by decide +kernel)).2.1 (by decide +kernel)).2]
    decide +kernel
  · rw [(((interior ['n']).2 (by decide +kernel)).2.1 (by decide +kernel)).2]
    decide +kernel

/-- With the cursor inside a text with as many characters as there are positions, the whole reading can be retained and is
not. -/
theorem retainSuffix_overflow :
    ¬∀ (calls : List ComposerCall) (suffix : Text),
      let c := exec (LocalKanaComposer.call .scalars) empty calls
      c.canRetainSuffix .scalars suffix = true ↔ (c.retainSuffix .scalars suffix).2 = true := by
  intro every
  obtain ⟨n, count⟩ : ∃ n, n = 2 ^ 32 := ⟨2 ^ 32, rfl⟩
  have agree := every ([.push 'b' .direct, .setCursor 0] ++ List.replicate n (.push 'a' .direct))
  have represented := run_represented .scalars ([.push 'b' .direct, .setCursor 0] ++ List.replicate n (.push 'a' .direct))
  have started : (exec (LocalKanaComposer.call .scalars) empty [.push 'b' .direct, .setCursor 0]).pending = [] ∧
      (exec (LocalKanaComposer.call .scalars) empty [.push 'b' .direct, .setCursor 0]).suffix = ['b'] := by
    decide +kernel
  obtain ⟨settled, stable, suffix⟩ := exec_push_direct .scalars (List.replicate n 'a') started.1
  rw [List.map_replicate] at settled stable suffix
  rw [exec_append] at agree represented
  rw [started.2] at suffix
  generalize exec (LocalKanaComposer.call .scalars) empty [.push 'b' .direct, .setCursor 0] = start at *
  generalize exec (LocalKanaComposer.call .scalars) start (List.replicate n (.push 'a' .direct)) = c at *
  have reading : c.reading = c.stable ++ ['b'] := by rw [represented.reading, settled, suffix, List.append_nil]
  have long : ¬c.reading.length < 2 ^ 32 := by
    rw [reading, stable, List.length_append, List.length_append, List.length_replicate]
    omega
  have can : c.canRetainSuffix .scalars c.reading = true := by
    unfold canRetainSuffix
    simp [suffix, reading, isGraphemeBoundary]
  -- The cursor stays where it is, and the reading is more than the stable text.
  have stays : (c.setCursor c.reading.length).1 = c := by
    have failed : legalBoundaries c.reading = .error .range := by
      simp only [legalBoundaries, u32TryFrom, if_neg long]
    unfold LocalKanaComposer.setCursor
    rw [failed]
  have kept := (agree c.reading).mp can
  unfold LocalKanaComposer.retainSuffix at kept
  rw [can, stays] at kept
  have inside : c.suffix.isEmpty = false := by rw [suffix]; rfl
  simp only [inside, Bool.not_false, Bool.not_true, if_true, Bool.false_eq_true, if_false] at kept
  unfold LocalKanaComposer.retainAtEnd at kept
  cases found : c.retainedStableSuffix .scalars c.reading with
  | none =>
    simp only [found] at kept
    cases kept
  | some pair =>
    obtain ⟨gone, whole, _⟩ := retainedStableSuffix_spec found
    have same := retainedStableSuffix_text found
    rw [settled, List.append_nil] at same
    have length := congrArg List.length whole
    rw [same, reading, List.length_append, List.length_append] at length
    simp at length
    omega

end Claims

end Retention

end LocalKanaComposer

end Nospacekey
