import Nospacekey.Composer.Representation
import Nospacekey.Ipc.ClauseLaws

/-! Every operation of the composer keeps its representation. -/

namespace Nospacekey

open Utf8 Runs

namespace LocalKanaComposer

section Typing

variable {c : LocalKanaComposer}

/-- The parser leaves the text after the cursor as it is. -/
@[simp] theorem advanceWithin_suffix (fuel : Nat) : (c.advanceWithin fuel).suffix = c.suffix := by
  induction fuel generalizing c with
  | zero => rfl
  | succ fuel ih =>
    unfold advanceWithin
    split
    · rfl
    · exact ih

/-- Reopening leaves the text after the cursor as it is. -/
@[simp] theorem reopenRomanTail_suffix : c.reopenRomanTail.suffix = c.suffix := by
  unfold reopenRomanTail
  split <;> rfl

/-- Typing keeps the representation. -/
theorem Represented.push (represented : c.Represented) (ch : Char) (style : InputStyle) :
    (c.push ch style).Represented := by
  refine represented.withDetached fun journal laid => ?_
  cases style with
  | kana =>
    have typed : { c with journal := journal, pending := c.pending ++ [ch] }.Segmented :=
      { represented.toSegmented with }
    exact ⟨typed.advanceWithin _, advanceWithin_suffix _, laid_advanceWithin _ laid⟩
  | direct =>
    -- The literals are forgotten, and the pending keys and the character are appended.
    have cleared : { c with journal := journal, automaticLiterals := [], pending := [] }.Segmented :=
      { represented.toSegmented with
        sorted := .nil
        stands := fun _ member => by cases member }
    refine ⟨(cleared.appendUnit c.pending c.pending .direct).appendUnit [ch] [ch] .direct, rfl, ?_⟩
    exact laid_appendInputUnit (laid_appendInputUnit laid c.pending c.pending .direct) [ch] [ch] .direct

/-- Deleting before the cursor keeps the representation. -/
theorem Represented.deleteBeforeCursor (represented : c.Represented) (segmentation : Segmentation)
    (readingBoundary : Bool) : (c.deleteBeforeCursor segmentation readingBoundary).Represented := by
  refine represented.withDetached fun journal laid => ?_
  have set : { c with journal := journal }.Segmented := { represented.toSegmented with }
  dsimp only
  split
  · refine ⟨(set.truncate _).reopenRomanTail, reopenRomanTail_suffix, ?_⟩
    exact laid_reopenRomanTail (laid_truncateStable laid _)
  · have dropped : { c with journal := journal, pending := c.pending.dropLast }.Segmented :=
      { represented.toSegmented with }
    exact ⟨dropped.reopenRomanTail, reopenRomanTail_suffix, laid_reopenRomanTail laid⟩

/-- Completing a final n keeps the representation. -/
theorem Represented.finalizePendingN (represented : c.Represented) : c.finalizePendingN.1.Represented := by
  unfold LocalKanaComposer.finalizePendingN
  split
  · exact represented
  · refine represented.withDetached fun journal laid => ?_
    have taken : { c with journal := journal, pending := [] }.Segmented := { represented.toSegmented with }
    exact ⟨taken.appendUnit ['ん'] ['n'] .kana, rfl, laid_appendInputUnit laid ['ん'] ['n'] .kana⟩

/-- Naming the keys of a unit again changes no position. -/
theorem laid_replaceSingleUnit {units : List InputUnit} {start stop : Nat} (laid : Laid units start stop)
    (position : Nat) (original : Char) :
    Laid (InputJournal.replaceSingleUnit position original units) start stop ∧
      ∀ u ∈ InputJournal.replaceSingleUnit position original units,
        ∃ v ∈ units, u.start = v.start ∧ u.stop = v.stop := by
  have same : (InputJournal.replaceSingleUnit position original units).map (fun u => (u.start, u.stop)) =
      units.map fun u => (u.start, u.stop) := by
    clear laid
    induction units with
    | nil => rfl
    | cons unit rest ih =>
      unfold InputJournal.replaceSingleUnit
      split
      · rfl
      · exact congrArg ((unit.start, unit.stop) :: ·) ih
  have bounds : ∀ u ∈ InputJournal.replaceSingleUnit position original units,
      ∃ v ∈ units, u.start = v.start ∧ u.stop = v.stop := by
    intro u member
    have inMap := List.mem_map_of_mem (f := fun u : InputUnit => (u.start, u.stop)) member
    rw [same] at inMap
    obtain ⟨v, inUnits, pair⟩ := List.mem_map.mp inMap
    obtain ⟨starts, stops⟩ := Prod.mk.inj pair
    exact ⟨v, inUnits, starts.symm, stops.symm⟩
  refine ⟨⟨?_, fun u member => ?_⟩, bounds⟩
  · have ordered : (units.map fun u => (u.start, u.stop)).Pairwise fun a b => a.2 ≤ b.1 :=
      List.pairwise_map.mpr laid.ordered
    rw [← same] at ordered
    exact List.pairwise_map.mp ordered
  · obtain ⟨v, inUnits, starts, stops⟩ := bounds u member
    rw [starts, stops]
    exact laid.inside v inUnits

/-- Naming the keys of the last literal again keeps the representation. -/
theorem Represented.preserveLastLiteralOriginal (represented : c.Represented) (original : Char) :
    (c.preserveLastLiteralOriginal original).Represented := by
  unfold LocalKanaComposer.preserveLastLiteralOriginal
  split
  · rename_i empty
    exact { represented with
      journal := (laid_replaceSingleUnit represented.journal _ original).1
      apart := fun filled => absurd (by simpa using empty) filled }
  · exact represented

end Typing

section Moving

variable {c : LocalKanaComposer}

/-- Freezing pending keys keeps the representation, and shows the same. -/
theorem Represented.freezePending (represented : c.Represented) :
    c.freezePending.Represented ∧ c.freezePending.pending = [] ∧ c.freezePending.reading = c.reading ∧
      c.freezePending.stable = c.stable ++ c.pending ∧ c.freezePending.suffix = c.suffix := by
  obtain ⟨before, after⟩ := represented.detached
  have segmented := represented.toSegmented.freezePending
  unfold LocalKanaComposer.freezePending at segmented ⊢
  split
  · rename_i empty
    have empty : c.pending = [] := by simpa using empty
    exact ⟨represented, empty, rfl, by rw [empty, List.append_nil], rfl⟩
  · refine ⟨?_, rfl, rfl, rfl, rfl⟩
    have taken : { c with journal := (c.journal.detachSuffix c.cursor).1, pending := [] }.Segmented :=
      { represented.toSegmented with }
    have rebuilt := represented_of_detached (taken.appendUnit c.pending c.pending .direct)
      (laid_appendInputUnit before c.pending c.pending .direct) after
    -- The cursor is where it was, and so is the reading.
    have cursor : ({ c with journal := (c.journal.detachSuffix c.cursor).1, pending := [] }.appendInputUnit
        c.pending .direct c.pending).cursor = c.cursor := by
      show (c.stable ++ c.pending).length + 0 = _
      rw [List.length_append]
      rfl
    have shown : (c.stable ++ c.pending) ++ [] ++ c.suffix = c.reading := by
      rw [List.append_nil, represented.reading]
    rw [cursor] at rebuilt
    unfold refreshReading at rebuilt
    have reading : ({ c with journal := (c.journal.detachSuffix c.cursor).1, pending := [] }.appendInputUnit
        c.pending .direct c.pending).reading = (c.stable ++ c.pending) ++ [] ++ c.suffix := shown.symm
    exact { rebuilt with
      reading := reading
      journal := by
        have room : Laid _ 0 (c.stable ++ c.pending ++ [] ++ c.suffix).length := rebuilt.journal
        rw [shown] at room
        exact room }

/-- Moving the cursor keeps the representation and the reading. -/
theorem Represented.setCursor (represented : c.Represented) (requested : Nat) :
    (c.setCursor requested).1.Represented ∧ (c.setCursor requested).1.reading = c.reading := by
  unfold LocalKanaComposer.setCursor
  split
  · exact ⟨represented, rfl⟩
  dsimp only
  split
  · exact ⟨represented, rfl⟩
  rename_i positions _ _
  generalize ((positions.reverse.find? fun position => position ≤ requested).getD 0) = next
  obtain ⟨frozen, pending, reading, _, _⟩ := represented.freezePending
  generalize c.freezePending = d at *
  have cut := splitSegments_cut d.replaySegments (byteLength (d.reading.take next))
  have texts : (styled d.replaySegments).map Prod.fst = d.reading := by
    rw [styled_replaySegments, pending, frozen.reading, pending]
    simp [frozen.stable, frozen.suffix]
  have tidy := tidy_splitSegments d.replaySegments (byteLength (d.reading.take next))
  refine ⟨?_, reading⟩
  exact
    { stable := cut.front.trans (by rw [texts])
      suffix := cut.back.trans (by rw [texts])
      stableTidy := tidy.1
      suffixTidy := tidy.2
      sorted := .nil
      stands := fun _ member => by cases member
      reading := by simp [pending]
      journal := frozen.journal
      apart := fun filled => absurd pending filled }

/-- Moving the cursor by one position keeps the representation. -/
theorem Represented.moveCursor (represented : c.Represented) (direction : Int) :
    (c.moveCursor direction).1.Represented := by
  unfold LocalKanaComposer.moveCursor
  split
  · exact represented
  · dsimp only
    split
    · exact represented
    · exact (represented.setCursor _).1

/-- A deletion behind the cursor ends at a boundary of the reading behind the cursor. -/
theorem next_boundary {next : Nat}
    (found : (legalBoundaries c.reading).toOption.bind (fun positions =>
      positions.find? fun position => c.cursor < position) = some next) :
    c.cursor < next ∧ next ≤ c.reading.length := by
  cases built : legalBoundaries c.reading with
  | error failure => rw [built] at found; cases found
  | ok positions =>
    rw [built] at found
    have found : positions.find? (fun position => c.cursor < position) = some next := found
    refine ⟨by simpa using List.find?_some found, ?_⟩
    exact ((mem_legalBoundaries built).mp (List.mem_of_find?_eq_some found)).le_length

/-- Deleting after the cursor keeps the representation. -/
theorem Represented.deleteForward (represented : c.Represented) : c.deleteForward.1.Represented := by
  unfold LocalKanaComposer.deleteForward
  split
  · exact represented
  rename_i next found
  obtain ⟨ahead, within⟩ := next_boundary found
  have cut := splitSegments_cut c.suffixSegments (byteLength (c.suffix.take (next - c.cursor)))
  have segmented : { c with
      suffix := dropBytes (byteLength (c.suffix.take (next - c.cursor))) c.suffix
      suffixSegments := (splitSegments c.suffixSegments (byteLength (c.suffix.take (next - c.cursor)))).2 }.Segmented :=
    { represented.toSegmented with
      suffix := cut.back.trans (by rw [represented.suffix])
      suffixTidy := (tidy_splitSegments _ _).2 }
  obtain ⟨before, after⟩ := InputJournal.laid_detachSuffix represented.journal next
  -- What stays before the cursor ends in the stable text, as without the deletion.
  have kept : Laid ((c.journal.detachSuffix next).1.retainPrefix c.cursor).units 0 c.stable.length := by
    refine (InputJournal.laid_retainPrefix before c.cursor).between fun u member => ⟨Nat.zero_le _, ?_⟩
    obtain ⟨starts, filled, ends⟩ := (InputJournal.laid_retainPrefix before c.cursor).inside u member
    rw [InputJournal.retainPrefix_units before] at member
    have member := List.mem_of_mem_filter member
    rw [(InputJournal.detachSuffix_units represented.journal next).1] at member
    have inUnits := List.mem_of_mem_filter (List.mem_of_mem_filter member)
    by_cases empty : c.pending = []
    · rwa [cursor, empty, List.length_nil, Nat.add_zero] at ends
    · rcases represented.apart empty u inUnits with done | behind
      · exact done
      · omega
  have length : c.reading.length - next = (c.suffix.drop (next - c.cursor)).length := by
    rw [represented.reading, List.length_drop, List.length_append, List.length_append]
    unfold cursor at ahead ⊢
    omega
  have dropped : dropBytes (byteLength (c.suffix.take (next - c.cursor))) c.suffix = c.suffix.drop (next - c.cursor) := by
    have whole := dropBytes_append (c.suffix.take (next - c.cursor)) (c.suffix.drop (next - c.cursor))
    rwa [List.take_append_drop] at whole
  have set : Laid (c.journal.detachSuffix next).2.units 0
      (dropBytes (byteLength (c.suffix.take (next - c.cursor))) c.suffix).length := by
    rw [dropped, ← length]
    exact after
  have shortened : { c with
      journal := (c.journal.detachSuffix next).1.retainPrefix c.cursor
      suffix := dropBytes (byteLength (c.suffix.take (next - c.cursor))) c.suffix
      suffixSegments := (splitSegments c.suffixSegments (byteLength (c.suffix.take (next - c.cursor)))).2 }.Segmented :=
    { segmented with }
  exact represented_of_detached shortened kept set

end Moving

section Retaining

variable {c : LocalKanaComposer}

/-- A unit behind the stable text drops every unit that does not end there. -/
theorem laid_appendInputUnit_of_ne_nil {stop : Nat} (laid : Laid c.journal.units 0 stop) {text : Text}
    (filled : text ≠ []) (style : InputStyle) :
    Laid (c.appendInputUnit text style text).journal.units 0 (c.stable.length + text.length) := by
  have length := List.length_pos_iff.mpr filled
  have kept := InputJournal.laid_retainPrefix laid c.stable.length
  have placed := InputJournal.laid_append kept text.length text
  -- What is kept twice is what is kept once.
  have same : ((c.journal.retainPrefix c.stable.length).append c.stable.length (c.stable.length + text.length) text) =
      c.journal.append c.stable.length (c.stable.length + text.length) text := by
    have less : c.stable.length < c.stable.length + text.length := Nat.lt_add_of_pos_right length
    rw [InputJournal.append_of_filled _ less filled, InputJournal.append_of_filled _ less filled]
    congr 2
    rw [InputJournal.retainPrefix_units kept, InputJournal.retainPrefix_units laid, List.filter_filter]
    simp
  rw [same] at placed
  exact placed

/-- Something is left of a text behind an offset that is not its end. -/
theorem dropBytes_ne_nil {text : Text} {offset : Nat} (inside : offset < byteLength text) : dropBytes offset text ≠ [] := by
  intro nothing
  have whole := takeBytes_append_dropBytes offset text
  rw [nothing, List.append_nil] at whole
  have := byteLength_takeBytes_le text offset
  rw [whole] at this
  omega

/-- Retaining the beginning of the reading keeps the representation. -/
theorem Represented.retainPrefix (represented : c.Represented) (front : Text) :
    (c.retainPrefix front).1.Represented := by
  unfold LocalKanaComposer.retainPrefix
  split
  · exact represented
  dsimp only
  -- The cursor has been moved to the end, if it was not there.
  have moved : (if c.suffix.isEmpty then c else (c.setCursor c.reading.length).1).Represented := by
    split
    · exact represented
    · exact (represented.setCursor _).1
  generalize (if c.suffix.isEmpty then c else (c.setCursor c.reading.length).1) = d at *
  split
  · have truncated := moved.toSegmented.truncate (byteLength front)
    have laid := laid_truncateStable moved.journal (byteLength front)
    exact { truncated with
      reading := rfl
      journal := laid.mono (Nat.le_refl _) (by
        show _ ≤ ((d.truncateStable (byteLength front)).stable ++ [] ++ d.suffix).length
        rw [List.length_append, List.length_append]
        omega)
      apart := fun filled => absurd rfl filled }
  · rename_i longer
    have filled := dropBytes_ne_nil (Nat.lt_of_not_le longer)
    have taken : { d with pending := [] }.Segmented := { moved.toSegmented with }
    have appended := taken.appendUnit (dropBytes (byteLength d.stable) front) (dropBytes (byteLength d.stable) front)
      .direct
    have laid := laid_appendInputUnit_of_ne_nil (c := { d with pending := [] }) moved.journal filled .direct
    exact { appended with
      reading := rfl
      journal := laid.mono (Nat.le_refl _) (by
        show _ ≤ ((d.stable ++ dropBytes (byteLength d.stable) front) ++ [] ++ d.suffix).length
        rw [List.length_append, List.length_append, List.length_append]
        dsimp only
        omega)
      apart := fun filled => absurd rfl filled }

/-- What is kept of the stable segments is tidy. -/
theorem tidy_stableSuffixSegments {segmentation : Segmentation} {suffixLen : Nat} {segments : List ReplaySegment}
    (found : c.stableSuffixSegments segmentation suffixLen = some segments) : Tidy segments := by
  unfold stableSuffixSegments at found
  split at found
  · obtain rfl := Option.some.inj found
    exact tidy_nil
  split at found
  · cases found
  dsimp only at found
  split at found
  · cases found
  split at found
  · cases found
  rename_i retained stop result
  split at found
  · obtain rfl := Option.some.inj found
    exact tidy_suffixSegmentsFrom tidy_nil result
  · cases found

/-- Retaining a suffix at the end keeps the representation. -/
theorem Represented.retainAtEnd (represented : c.Represented) (segmentation : Segmentation) (suffix : Text) :
    (c.retainAtEnd segmentation suffix).1.Represented := by
  unfold LocalKanaComposer.retainAtEnd
  split
  · exact represented
  rename_i stableSuffix segments found
  obtain ⟨gone, whole, result⟩ := retainedStableSuffix_spec found
  obtain ⟨texts, front, parts, goneText⟩ := stableSuffixSegments_spec represented.stable whole result
  have removed : byteLength c.stable - byteLength stableSuffix = byteLength gone := by
    rw [whole, byteLength_append]
    omega
  have taken : takeBytes (byteLength gone) c.stable = gone := by rw [whole, takeBytes_append]
  dsimp only
  rw [removed, taken]
  have length : c.reading.length = gone.length + (stableSuffix ++ c.pending ++ c.suffix).length := by
    rw [represented.reading, whole]
    simp only [List.length_append]
    omega
  exact
    { stable := texts
      suffix := represented.suffix
      stableTidy := tidy_stableSuffixSegments result
      suffixTidy := represented.suffixTidy
      sorted := by
        refine List.pairwise_map.mpr ((represented.sorted.filter _).imp_of_mem fun {a b} inA _ less => ?_)
        have := of_decide_eq_true (List.mem_filter.mp inA).2
        omega
      stands := by
        intro offset member
        obtain ⟨old, inOld, rfl⟩ := List.mem_map.mp member
        obtain ⟨inOld, behind⟩ := List.mem_filter.mp inOld
        have stands := represented.stands old inOld
        rw [parts] at stands
        have moved := stands.drop (by rw [goneText]; exact of_decide_eq_true behind)
        rwa [goneText] at moved
      reading := rfl
      journal := by
        have laid := InputJournal.laid_removePrefix represented.journal gone.length
        rw [length, Nat.add_sub_cancel_left] at laid
        exact laid
      apart := by
        intro filled u member
        obtain ⟨v, inUnits, rfl⟩ := List.mem_map.mp member
        obtain ⟨inUnits, behind⟩ := List.mem_filter.mp inUnits
        have behind := of_decide_eq_true behind
        have stable : c.stable.length = gone.length + stableSuffix.length := by rw [whole, List.length_append]
        show v.stop - gone.length ≤ stableSuffix.length ∨
          stableSuffix.length + c.pending.length ≤ v.start - gone.length
        rcases represented.apart filled v inUnits with before | after
        · omega
        · unfold cursor at after
          omega }

/-- Retaining a visible suffix keeps the representation. -/
theorem Represented.retainSuffix (represented : c.Represented) (segmentation : Segmentation) (suffix : Text) :
    (c.retainSuffix segmentation suffix).1.Represented := by
  unfold LocalKanaComposer.retainSuffix
  split
  · split
    · exact represented
    · exact (represented.setCursor _).1.retainAtEnd segmentation suffix
  · exact represented.retainAtEnd segmentation suffix

end Retaining

section Replacing

variable {c : LocalKanaComposer}

/-- Folding katakana onto hiragana changes no byte length. -/
theorem byteLength_normalizeReading (text : Text) : byteLength (normalizeReading text) = byteLength text := by
  have katakana : ∀ k < 0x56, (Char.ofNat (0x30a1 + k)).utf8Size = 3 ∧ (Char.ofNat (0x30a1 + k - 0x60)).utf8Size = 3 := by
    decide
  induction text with
  | nil => rfl
  | cons ch rest ih =>
    show byteLength (_ :: normalizeReading rest) = _
    rw [byteLength_cons, byteLength_cons, ih]
    congr 1
    dsimp only
    split
    · rename_i bounds
      obtain ⟨before, after⟩ := katakana (ch.toNat - 0x30a1) (by omega)
      rw [show 0x30a1 + (ch.toNat - 0x30a1) = ch.toNat by omega] at before after
      rw [Char.ofNat_toNat] at before
      rw [before, after]
    · rfl

/-- Folding leaves a letter where it is. -/
theorem normalizeReading_letter {front back : Text} {ch : Char} (letter : ch.isAlpha = true) :
    normalizeReading (front ++ ch :: back) = normalizeReading front ++ ch :: normalizeReading back := by
  have small : ch.toNat < 0x30a1 := by
    have := utf8Size_of_isAlpha letter
    rw [Char.utf8Size_eq_one_iff] at this
    have : ch.toNat ≤ 0x7f := this
    omega
  simp only [normalizeReading, List.map_append, List.map_cons]
  rw [if_neg (by omega)]

/-- A cursor that moves forgets the literals. -/
theorem setCursor_literals (requested : Nat) :
    (c.setCursor requested).1 = c ∨ (c.setCursor requested).1.automaticLiterals = [] := by
  unfold LocalKanaComposer.setCursor
  split
  · exact .inl rfl
  dsimp only
  split
  · exact .inl rfl
  · exact .inr rfl

/-- A reading that is adopted has a letter wherever the old one had it, and as many characters. -/
theorem adopted_reading {reading : Text} (represented : c.Represented)
    (adopted : normalizeReading c.reading = reading ∨
      (c.suffix = [] ∧ c.pending = ['n']) ∧ (normalizeReading c.reading).dropLast ++ ['ん'] = reading) :
    reading.length = c.reading.length ∧
      ∀ offset ∈ c.automaticLiterals, Stands (styledText reading .direct) offset := by
  have shown := represented.reading
  -- A literal stands in the stable text, which both kinds of reading begin with.
  have stands (rest : Text) (begins : reading = normalizeReading c.stable ++ rest) :
      ∀ offset ∈ c.automaticLiterals, Stands (styledText reading .direct) offset := by
    intro offset member
    obtain ⟨front, ch, back, whole, start, letter⟩ := represented.stands offset member
    have stable : c.stable = front.map Prod.fst ++ ch :: back.map Prod.fst := by
      rw [← represented.stable, whole]
      simp
    rw [stable, normalizeReading_letter letter] at begins
    refine ⟨styledText (normalizeReading (front.map Prod.fst)) .direct, ch,
      styledText (normalizeReading (back.map Prod.fst) ++ rest) .direct, ?_, ?_, letter⟩
    · rw [begins, List.append_assoc, styledText_append]
      rfl
    · rw [map_fst_styledText, byteLength_normalizeReading, start]
  rcases adopted with rfl | ⟨⟨suffix, pending⟩, rfl⟩
  · refine ⟨List.length_map _, ?_⟩
    refine stands (normalizeReading (c.pending ++ c.suffix)) ?_
    rw [shown, List.append_assoc]
    exact List.map_append
  · have whole : normalizeReading c.reading = normalizeReading c.stable ++ ['n'] := by
      rw [shown, pending, suffix, List.append_nil]
      exact List.map_append
    rw [whole, List.dropLast_concat] at stands ⊢
    refine ⟨?_, stands _ rfl⟩
    rw [shown, pending, suffix]
    simp [normalizeReading]

/-- Adopting the reading of a conversion keeps the representation. -/
theorem Represented.adoptConversionReading (represented : c.Represented) (reading : Text) :
    (c.adoptConversionReading reading).1.Represented := by
  unfold LocalKanaComposer.adoptConversionReading
  split
  · exact represented
  dsimp only
  generalize resolved : (if c.suffix.isEmpty && c.pending = ['n'] then
    some ((normalizeReading c.reading).dropLast ++ ['ん']) else none) = resolvedN
  split
  · exact represented
  rename_i accepted
  have adopted : normalizeReading c.reading = reading ∨
      (c.suffix = [] ∧ c.pending = ['n']) ∧ (normalizeReading c.reading).dropLast ++ ['ん'] = reading := by
    by_cases same : normalizeReading c.reading = reading
    · exact .inl same
    · have final : resolvedN = some reading := by simpa [same] using accepted
      rw [final] at resolved
      split at resolved
      · rename_i last
        exact .inr ⟨by simpa using last, Option.some.inj resolved⟩
      · cases resolved
  obtain ⟨length, stands⟩ := adopted_reading represented adopted
  obtain ⟨front, shown⟩ := represented.setCursor 0
  obtain ⟨moved, shown'⟩ := front.setCursor c.reading.length
  -- Unless the cursor could not be moved at all, the literals are forgotten.
  have literals : ((c.setCursor 0).1.setCursor c.reading.length).1.automaticLiterals = c.automaticLiterals ∨
      ((c.setCursor 0).1.setCursor c.reading.length).1.automaticLiterals = [] := by
    rcases setCursor_literals (c := (c.setCursor 0).1) c.reading.length with same | nothing
    · rw [same]
      rcases setCursor_literals (c := c) 0 with same | nothing
      · exact .inl (by rw [same])
      · exact .inr nothing
    · exact .inr nothing
  rw [shown] at shown'
  generalize ((c.setCursor 0).1.setCursor c.reading.length).1 = d at *
  have styles : styled (appendSegment [] reading .direct) = styledText reading .direct := by simp
  exact
    { stable := by
        show (styled (appendSegment [] reading .direct)).map Prod.fst = [] ++ reading
        rw [styles, map_fst_styledText, List.nil_append]
      suffix := moved.suffix
      stableTidy := tidy_nil.appendSegment reading .direct
      suffixTidy := moved.suffixTidy
      sorted := moved.sorted
      stands := by
        intro offset member
        show Stands (styled (appendSegment [] reading .direct)) offset
        rw [styles]
        rcases literals with same | nothing
        · exact stands offset (same ▸ member)
        · have member : offset ∈ d.automaticLiterals := member
          rw [nothing] at member
          cases member
      reading := rfl
      journal := by
        have room := moved.journal
        rw [shown', ← length] at room
        refine room.mono (Nat.le_refl _) ?_
        show reading.length ≤ ([] ++ reading ++ d.pending ++ d.suffix).length
        simp only [List.nil_append, List.length_append]
        omega
      apart := by
        intro _ u member
        have inside := (moved.journal.inside u member).2.2
        rw [shown', ← length] at inside
        exact .inl inside }

/-- A reading that is put in place of the input has no units. -/
theorem reseedReading_represented (reading : Text) : (reseedReading reading).Represented where
  stable := by
    show (styled (appendSegment [] reading .kana)).map Prod.fst = [] ++ reading
    simp
  suffix := rfl
  stableTidy := tidy_nil.appendSegment reading .kana
  suffixTidy := tidy_nil
  sorted := .nil
  stands _ member := by cases member
  reading := rfl
  journal := Laid.nil _ _
  apart _ _ member := by cases member

end Replacing

/-- Every operation that changes the composer. -/
inductive ComposerCall where
  | push (ch : Char) (style : InputStyle)
  | backspace
  | backspaceAtCursor
  | clear
  | reseedReading (reading : Text)
  | retainPrefix (front : Text)
  | retainSuffix (suffix : Text)
  | finalizePendingN
  | preserveLastLiteralOriginal (original : Char)
  | adoptConversionReading (reading : Text)
  | setCursor (requested : Nat)
  | moveCursor (direction : Int)
  | deleteForward
  deriving DecidableEq, Repr

/-- The composer after a call. -/
def call (segmentation : Segmentation) (c : LocalKanaComposer) : ComposerCall → LocalKanaComposer
  | .push ch style => c.push ch style
  | .backspace => c.backspace segmentation
  | .backspaceAtCursor => c.backspaceAtCursor segmentation
  | .clear => empty
  | .reseedReading reading => reseedReading reading
  | .retainPrefix front => (c.retainPrefix front).1
  | .retainSuffix suffix => (c.retainSuffix segmentation suffix).1
  | .finalizePendingN => c.finalizePendingN.1
  | .preserveLastLiteralOriginal original => c.preserveLastLiteralOriginal original
  | .adoptConversionReading reading => (c.adoptConversionReading reading).1
  | .setCursor requested => (c.setCursor requested).1
  | .moveCursor direction => (c.moveCursor direction).1
  | .deleteForward => c.deleteForward.1

section Calls

variable {c : LocalKanaComposer} (segmentation : Segmentation)

/-- The empty composer is represented as it should be. -/
theorem empty_represented : empty.Represented where
  stable := rfl
  suffix := rfl
  stableTidy := tidy_nil
  suffixTidy := tidy_nil
  sorted := .nil
  stands _ member := by cases member
  reading := rfl
  journal := Laid.nil _ _
  apart _ _ member := by cases member

/-- Every call keeps the representation. -/
theorem Represented.call (represented : c.Represented) (call : ComposerCall) :
    (c.call segmentation call).Represented := by
  cases call with
  | push ch style => exact represented.push ch style
  | backspace => exact represented.deleteBeforeCursor segmentation false
  | backspaceAtCursor => exact represented.deleteBeforeCursor segmentation true
  | clear => exact empty_represented
  | reseedReading reading => exact reseedReading_represented reading
  | retainPrefix front => exact represented.retainPrefix front
  | retainSuffix suffix => exact represented.retainSuffix segmentation suffix
  | finalizePendingN => exact represented.finalizePendingN
  | preserveLastLiteralOriginal original => exact represented.preserveLastLiteralOriginal original
  | adoptConversionReading reading => exact represented.adoptConversionReading reading
  | setCursor requested => exact (represented.setCursor requested).1
  | moveCursor direction => exact represented.moveCursor direction
  | deleteForward => exact represented.deleteForward

/-- After any calls the composer is represented as it should be. -/
theorem run_represented (calls : List ComposerCall) :
    (exec (LocalKanaComposer.call segmentation) empty calls).Represented :=
  exec_invariant_all Represented (fun _ call represented => represented.call segmentation call) empty_represented calls

end Calls

end LocalKanaComposer

end Nospacekey
