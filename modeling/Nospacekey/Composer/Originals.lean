import Nospacekey.Composer.Slicing

/-! The original input is what was typed, unit by unit. -/

namespace Nospacekey

open Utf8 Runs Tiling

namespace LocalKanaComposer

/-- The keys stand for the text: as themselves, or as a unit of the roman parser. -/
inductive Spells : Text → Text → Prop where
  | itself (text : Text) : Spells text text
  | parsed {keys : Text} {unit : RomanUnit} (found : nextUnit keys = some unit) : Spells unit.original unit.text

/-- The characters of a text from one position to another. -/
def window (text : Text) (start stop : Nat) : Text := (text.drop start).take (stop - start)

/-- The keys of every unit stand for the text at its positions. -/
def Spelled (text : Text) (units : List InputUnit) : Prop :=
  ∀ u ∈ units, Spells u.original (window text u.start u.stop)

section Spelled

variable {text front back : Text} {units : List InputUnit}

/-- A window into the front does not see the back. -/
theorem window_append_left {start stop : Nat} (within : stop ≤ front.length) :
    window (front ++ back) start stop = window front start stop := by
  unfold window
  rcases Nat.lt_or_ge start stop with less | empty
  · rw [List.drop_append_of_le_length (by omega), List.take_append_of_le_length (by rw [List.length_drop]; omega)]
  · rw [Nat.sub_eq_zero_of_le empty]
    simp

/-- A window behind the front sees the back alone. -/
theorem window_append_right {start stop : Nat} (behind : front.length ≤ start) :
    window (front ++ back) start stop = window back (start - front.length) (stop - front.length) := by
  unfold window
  rw [List.drop_append, List.drop_eq_nil_of_le behind, List.nil_append]
  congr 1
  omega

/-- Units that end in the front of a text are spelled by the front. -/
theorem spelled_append_left (back : Text) (within : ∀ u ∈ units, u.stop ≤ front.length) :
    Spelled (front ++ back) units ↔ Spelled front units :=
  forall₂_congr fun u member => by rw [window_append_left (within u member)]

/-- Units that are moved on behind the front are spelled by the back. -/
theorem spelled_append_right (front : Text) :
    Spelled (front ++ back) (units.map fun u => u.shift front.length) ↔ Spelled back units := by
  constructor
  · intro spelled u member
    have moved := spelled _ (List.mem_map_of_mem member)
    simp only [InputUnit.shift] at moved
    rw [window_append_right (Nat.le_add_left _ _), Nat.add_sub_cancel, Nat.add_sub_cancel] at moved
    exact moved
  · intro spelled u member
    obtain ⟨v, inUnits, rfl⟩ := List.mem_map.mp member
    simp only [InputUnit.shift]
    rw [window_append_right (Nat.le_add_left _ _), Nat.add_sub_cancel, Nat.add_sub_cancel]
    exact spelled v inUnits

/-- Some of the units are spelled like all of them. -/
theorem Spelled.subset (spelled : Spelled text units) {fewer : List InputUnit} (part : fewer ⊆ units) :
    Spelled text fewer := fun u member => spelled u (part member)

/-- Without the front, the units behind it are spelled by the back. -/
theorem Spelled.removePrefix (spelled : Spelled (front ++ back) units) (filled : ∀ u ∈ units, u.start < u.stop) :
    Spelled back (InputJournal.removePrefix ⟨units⟩ front.length).units := by
  refine (spelled_append_right front).mp ?_
  rw [InputJournal.removePrefix_shift units filled]
  exact spelled.subset List.filter_sublist.subset

/-- A unit is spelled by the text that is appended with it. -/
theorem spelled_append {journal : InputJournal} {stop : Nat} (laid : Laid journal.units 0 stop)
    (spelled : Spelled front journal.units) {original : Text} (spells : Spells original text) :
    Spelled (front ++ text) (journal.append front.length (front.length + text.length) original).units := by
  unfold InputJournal.append
  split
  · rename_i nothing
    simp only [Bool.or_eq_true, decide_eq_true_eq] at nothing
    rcases Nat.eq_zero_or_pos text.length with empty | filled
    · rw [List.length_eq_zero_iff.mp empty, List.append_nil]
      exact spelled
    · -- Text without keys is not a unit.
      have noKeys : original = [] := by
        rcases nothing with short | empty
        · omega
        · simpa using empty
      cases spells with
      | itself => rw [noKeys] at filled; cases filled
      | parsed found => exact absurd noKeys (nextUnit_original found).2
  · intro u member
    rcases List.mem_append.mp member with before | last
    · have ends := ((InputJournal.laid_retainPrefix laid front.length).inside u before).2.2
      rw [window_append_left ends]
      rw [InputJournal.retainPrefix_units laid] at before
      exact spelled u (List.mem_of_mem_filter before)
    · rw [List.mem_singleton.mp last]
      dsimp only
      rw [window_append_right (Nat.le_refl _)]
      simpa [window] using spells

end Spelled

/-- The representation of a composer whose units all have the keys of their text. -/
structure Keyed (c : LocalKanaComposer) : Prop extends Represented c where
  spelled : Spelled c.reading c.journal.units

section Keyed

variable {c : LocalKanaComposer}

/-- What is set apart at the cursor is spelled by the stable text, and by the text behind the cursor. -/
theorem Keyed.detached (keyed : c.Keyed) :
    Spelled c.stable (c.journal.detachSuffix c.cursor).1.units ∧
      Spelled c.suffix (c.journal.detachSuffix c.cursor).2.units := by
  obtain ⟨before, after⟩ := InputJournal.detachSuffix_units keyed.journal c.cursor
  have spelled := keyed.spelled
  rw [keyed.reading] at spelled
  constructor
  · rw [List.append_assoc] at spelled
    refine (spelled_append_left (c.pending ++ c.suffix) fun u member =>
      (keyed.toRepresented.detached.1.inside u member).2.2).mp (spelled.subset ?_)
    rw [before]
    exact (List.filter_sublist.trans List.filter_sublist).subset
  · have behind := spelled.removePrefix fun u member => (keyed.journal.inside u member).2.1
    rw [List.length_append] at behind
    rw [after]
    exact behind

/-- Units that are put together again behind a text are spelled by both. -/
theorem spelled_appendSuffix {journal after : InputJournal} {front back : Text} {position : Nat}
    (length : front.length = position) (within : ∀ u ∈ journal.units, u.stop ≤ position)
    (spelled : Spelled front journal.units) (spelled' : Spelled back after.units) :
    Spelled (front ++ back) (journal.appendSuffix after position).units := by
  subst length
  have left : Spelled (front ++ back) journal.units := (spelled_append_left back within).mpr spelled
  unfold InputJournal.appendSuffix
  split
  · exact left
  · intro u member
    rcases List.mem_append.mp member with before | behind
    · exact left u before
    · exact (spelled_append_right front).mpr spelled' u behind

/-- Units that are put together again at the cursor are spelled by the whole reading. -/
theorem spelled_of_detached {after : InputJournal} (laid : Laid c.journal.units 0 c.stable.length)
    (spelled : Spelled c.stable c.journal.units) (spelled' : Spelled c.suffix after.units) :
    Spelled (c.stable ++ c.pending ++ c.suffix) (c.journal.appendSuffix after c.cursor).units := by
  refine spelled_appendSuffix List.length_append (fun u member => ?_) ?_ spelled'
  · exact (laid.inside u member).2.2.trans (Nat.le_add_right _ _)
  · exact (spelled_append_left _ fun u member => (laid.inside u member).2.2).mpr spelled

/-- An edit before the cursor keeps the keys if it keeps those of the stable text. -/
theorem Keyed.withDetached (keyed : c.Keyed) {edit : LocalKanaComposer → LocalKanaComposer}
    (represented : (c.withDetached edit).refreshReading.Represented)
    (edits : ∀ journal : InputJournal, Laid journal.units 0 c.stable.length → Spelled c.stable journal.units →
      (edit { c with journal := journal }).suffix = c.suffix ∧
        Laid (edit { c with journal := journal }).journal.units 0 (edit { c with journal := journal }).stable.length ∧
        Spelled (edit { c with journal := journal }).stable (edit { c with journal := journal }).journal.units) :
    (c.withDetached edit).refreshReading.Keyed := by
  obtain ⟨before, after⟩ := keyed.detached
  obtain ⟨same, laid, spelled⟩ := edits _ keyed.toRepresented.detached.1 before
  exact { represented with spelled := spelled_of_detached laid spelled (by rw [same]; exact after) }

/-- A unit that is appended has the keys of its text. -/
theorem spelled_appendInputUnit (laid : Laid c.journal.units 0 c.stable.length)
    (spelled : Spelled c.stable c.journal.units) {text original : Text} (spells : Spells original text)
    (style : InputStyle) :
    Spelled (c.appendInputUnit text style original).stable (c.appendInputUnit text style original).journal.units :=
  spelled_append laid spelled spells

/-- The parser appends units with their keys. -/
theorem spelled_advanceWithin (fuel : Nat) (laid : Laid c.journal.units 0 c.stable.length)
    (spelled : Spelled c.stable c.journal.units) :
    Spelled (c.advanceWithin fuel).stable (c.advanceWithin fuel).journal.units := by
  induction fuel generalizing c with
  | zero => exact spelled
  | succ fuel ih =>
    unfold LocalKanaComposer.advanceWithin
    split
    · exact spelled
    · rename_i unit found
      exact ih (laid_appendInputUnit laid unit.text unit.original unit.style)
        (spelled_appendInputUnit laid spelled (.parsed found) unit.style)

/-- Cutting the stable text off keeps the keys of the units before the cut. -/
theorem spelled_truncateStable {stop : Nat} (laid : Laid c.journal.units 0 stop) {text : Text}
    (whole : c.stable <+: text) (spelled : Spelled text c.journal.units) (len : Nat) :
    Spelled (c.truncateStable len).stable (c.truncateStable len).journal.units := by
  obtain ⟨rest, same⟩ := List.IsPrefix.trans ⟨_, takeBytes_append_dropBytes len c.stable⟩ whole
  have kept := InputJournal.laid_retainPrefix laid (takeBytes len c.stable).length
  refine (spelled_append_left rest fun u member => (kept.inside u member).2.2).mp ?_
  show Spelled (takeBytes len c.stable ++ rest) _
  rw [same]
  refine spelled.subset ?_
  show (c.journal.retainPrefix (takeBytes len c.stable).length).units ⊆ _
  rw [InputJournal.retainPrefix_units laid]
  exact List.filter_sublist.subset

/-- Reopening keeps the keys of the units that are left. -/
theorem spelled_reopenRomanTail (laid : Laid c.journal.units 0 c.stable.length)
    (spelled : Spelled c.stable c.journal.units) : Spelled c.reopenRomanTail.stable c.reopenRomanTail.journal.units := by
  unfold LocalKanaComposer.reopenRomanTail
  split
  · exact spelled_truncateStable laid List.prefix_rfl spelled _
  · exact spelled

/-- Typing keeps the keys of all units. -/
theorem Keyed.push (keyed : c.Keyed) (ch : Char) (style : InputStyle) : (c.push ch style).Keyed := by
  refine keyed.withDetached (keyed.toRepresented.push ch style) fun journal laid spelled => ?_
  cases style with
  | kana => exact ⟨advanceWithin_suffix _, laid_advanceWithin _ laid, spelled_advanceWithin _ laid spelled⟩
  | direct =>
    have first := laid_appendInputUnit (c := { c with journal := journal, automaticLiterals := [], pending := [] })
      laid c.pending c.pending .direct
    refine ⟨rfl, laid_appendInputUnit first [ch] [ch] .direct, ?_⟩
    have spelled' := spelled_appendInputUnit
      (c := { c with journal := journal, automaticLiterals := [], pending := [] }) laid spelled (.itself c.pending) .direct
    exact spelled_appendInputUnit first spelled' (.itself [ch]) .direct

/-- Deleting before the cursor keeps the keys of the units that are left. -/
theorem Keyed.deleteBeforeCursor (keyed : c.Keyed) (segmentation : Segmentation) (readingBoundary : Bool) :
    (c.deleteBeforeCursor segmentation readingBoundary).Keyed := by
  refine keyed.withDetached (keyed.toRepresented.deleteBeforeCursor segmentation readingBoundary)
    fun journal laid spelled => ?_
  dsimp only
  split
  · have truncated := laid_truncateStable (c := { c with journal := journal }) laid
    refine ⟨reopenRomanTail_suffix, laid_reopenRomanTail (truncated _), ?_⟩
    exact spelled_reopenRomanTail (truncated _) (spelled_truncateStable laid List.prefix_rfl spelled _)
  · exact ⟨reopenRomanTail_suffix, laid_reopenRomanTail laid, spelled_reopenRomanTail laid spelled⟩

/-- Completing a final n keeps the keys of all units. -/
theorem Keyed.finalizePendingN (keyed : c.Keyed) : c.finalizePendingN.1.Keyed := by
  have represented := keyed.toRepresented.finalizePendingN
  unfold LocalKanaComposer.finalizePendingN at represented ⊢
  split
  · exact keyed
  · rename_i isN
    rw [if_neg isN] at represented
    refine keyed.withDetached represented fun journal laid spelled => ?_
    have unit : nextUnit ['n', 'k'] = some ⟨['ん'], .kana, ['n'], ['k']⟩ := by decide +kernel
    exact ⟨rfl, laid_appendInputUnit laid ['ん'] ['n'] .kana, spelled_appendInputUnit laid spelled (.parsed unit) .kana⟩

/-- Freezing pending keys makes them a unit that spells itself. -/
theorem Keyed.freezePending (keyed : c.Keyed) : Spelled c.reading c.freezePending.journal.units := by
  obtain ⟨before, after⟩ := keyed.detached
  have laid := keyed.toRepresented.detached.1
  unfold LocalKanaComposer.freezePending
  split
  · exact keyed.spelled
  · have whole := spelled_of_detached
      (c := { c with journal := (c.journal.detachSuffix c.cursor).1, pending := [] }.appendInputUnit c.pending .direct
        c.pending)
      (laid_appendInputUnit laid c.pending c.pending .direct)
      (spelled_appendInputUnit laid before (.itself c.pending) .direct) after
    have cursor : ({ c with journal := (c.journal.detachSuffix c.cursor).1, pending := [] }.appendInputUnit
        c.pending .direct c.pending).cursor = c.cursor := by
      show (c.stable ++ c.pending).length + 0 = _
      rw [List.length_append]
      rfl
    rw [cursor] at whole
    have shown : (c.stable ++ c.pending) ++ [] ++ c.suffix = c.reading := by
      rw [List.append_nil, keyed.reading]
    rw [← shown]
    exact whole

/-- Moving the cursor keeps the keys of all units. -/
theorem Keyed.setCursor (keyed : c.Keyed) (requested : Nat) : (c.setCursor requested).1.Keyed := by
  obtain ⟨represented, shown⟩ := keyed.toRepresented.setCursor requested
  refine { represented with spelled := ?_ }
  rw [shown]
  unfold LocalKanaComposer.setCursor
  split
  · exact keyed.spelled
  dsimp only
  split
  · exact keyed.spelled
  · exact keyed.freezePending

/-- Moving the cursor by one position keeps the keys of all units. -/
theorem Keyed.moveCursor (keyed : c.Keyed) (direction : Int) : (c.moveCursor direction).1.Keyed := by
  unfold LocalKanaComposer.moveCursor
  split
  · exact keyed
  · dsimp only
    split
    · exact keyed
    · exact keyed.setCursor _

/-- A deletion behind the cursor leaves the text before it and what follows the deleted characters. -/
theorem deleteForward_suffix (c : LocalKanaComposer) (count : Nat) :
    dropBytes (byteLength (c.suffix.take count)) c.suffix = c.suffix.drop count := by
  have whole := dropBytes_append (c.suffix.take count) (c.suffix.drop count)
  rwa [List.take_append_drop] at whole

/-- Deleting after the cursor keeps the keys of the units that are left. -/
theorem Keyed.deleteForward (keyed : c.Keyed) : c.deleteForward.1.Keyed := by
  have represented := keyed.toRepresented.deleteForward
  refine { represented with spelled := ?_ }
  unfold LocalKanaComposer.deleteForward
  split
  · exact keyed.spelled
  rename_i next found
  obtain ⟨ahead, within⟩ := next_boundary found
  have behindKeys : c.stable.length + c.pending.length < next := ahead
  have laid := (InputJournal.laid_detachSuffix keyed.journal next)
  obtain ⟨units, after⟩ := InputJournal.detachSuffix_units keyed.journal next
  have spelled := keyed.spelled
  rw [keyed.reading] at spelled
  show Spelled (c.stable ++ c.pending ++ dropBytes (byteLength (c.suffix.take (next - c.cursor))) c.suffix)
    (((c.journal.detachSuffix next).1.retainPrefix c.cursor).appendSuffix (c.journal.detachSuffix next).2 c.cursor).units
  rw [deleteForward_suffix]
  have kept := InputJournal.laid_retainPrefix laid.1 c.cursor
  have front : Spelled (c.stable ++ c.pending) ((c.journal.detachSuffix next).1.retainPrefix c.cursor).units := by
    refine (spelled_append_left c.suffix fun u member => ?_).mp (spelled.subset ?_)
    · rw [List.length_append]
      exact (kept.inside u member).2.2
    · rw [InputJournal.retainPrefix_units laid.1, units]
      exact (List.filter_sublist.trans (List.filter_sublist.trans List.filter_sublist)).subset
  have back : Spelled (c.suffix.drop (next - c.cursor)) (c.journal.detachSuffix next).2.units := by
    have whole : c.stable ++ c.pending ++ c.suffix =
        (c.stable ++ c.pending ++ c.suffix.take (next - c.cursor)) ++ c.suffix.drop (next - c.cursor) := by
      rw [List.append_assoc (c.stable ++ c.pending), List.take_append_drop]
    rw [whole] at spelled
    have removed := spelled.removePrefix fun u member => (keyed.journal.inside u member).2.1
    have length : (c.stable ++ c.pending ++ c.suffix.take (next - c.cursor)).length = next := by
      rw [keyed.reading] at within
      simp only [List.length_append, List.length_take] at within ⊢
      unfold cursor
      omega
    rw [length] at removed
    rw [after]
    exact removed
  exact spelled_appendSuffix List.length_append (fun u member => (kept.inside u member).2.2) front back

/-- Retaining the beginning of the reading keeps the keys of the units that are left. -/
theorem Keyed.retainPrefix (keyed : c.Keyed) (front : Text) : (c.retainPrefix front).1.Keyed := by
  have represented := keyed.toRepresented.retainPrefix front
  refine { represented with spelled := ?_ }
  unfold LocalKanaComposer.retainPrefix
  split
  · exact keyed.spelled
  dsimp only
  have moved : (if c.suffix.isEmpty then c else (c.setCursor c.reading.length).1).Keyed := by
    split
    · exact keyed
    · exact keyed.setCursor _
  generalize (if c.suffix.isEmpty then c else (c.setCursor c.reading.length).1) = d at *
  have whole : d.stable <+: d.reading := ⟨d.pending ++ d.suffix, by rw [moved.reading, List.append_assoc]⟩
  split
  · have spelled := spelled_truncateStable moved.journal whole moved.spelled (byteLength front)
    have laid := laid_truncateStable moved.journal (byteLength front)
    show Spelled ((d.truncateStable (byteLength front)).stable ++ [] ++ d.suffix) _
    rw [List.append_nil]
    exact (spelled_append_left _ fun u member => (laid.inside u member).2.2).mpr spelled
  · rename_i longer
    have filled := dropBytes_ne_nil (Nat.lt_of_not_le longer)
    generalize dropBytes (byteLength d.stable) front = rest at *
    show Spelled ((d.stable ++ rest) ++ [] ++ d.suffix) (d.journal.append d.stable.length (d.stable.length + rest.length) rest).units
    rw [List.append_nil]
    -- The units that are kept end in the stable text.
    unfold InputJournal.append
    split
    · rename_i nothing
      have empty : rest = [] := by
        simp only [Bool.or_eq_true, decide_eq_true_eq] at nothing
        rcases nothing with short | empty
        · exact List.length_eq_zero_iff.mp (by omega)
        · simpa using empty
      exact absurd empty filled
    · intro u member
      rcases List.mem_append.mp member with before | last
      · have ends := ((InputJournal.laid_retainPrefix moved.journal d.stable.length).inside u before).2.2
        rw [InputJournal.retainPrefix_units moved.journal] at before
        have spells := moved.spelled u (List.mem_of_mem_filter before)
        rw [moved.reading, List.append_assoc, window_append_left ends] at spells
        rw [List.append_assoc, window_append_left ends]
        exact spells
      · rw [List.mem_singleton.mp last]
        dsimp only
        rw [window_append_left (by rw [List.length_append]), window_append_right (Nat.le_refl _)]
        simpa [window] using Spells.itself rest

/-- Retaining a suffix at the end keeps the keys of the units that are left. -/
theorem Keyed.retainAtEnd (keyed : c.Keyed) (segmentation : Segmentation) (suffix : Text) :
    (c.retainAtEnd segmentation suffix).1.Keyed := by
  have represented := keyed.toRepresented.retainAtEnd segmentation suffix
  refine { represented with spelled := ?_ }
  unfold LocalKanaComposer.retainAtEnd
  split
  · exact keyed.spelled
  rename_i stableSuffix segments found
  obtain ⟨gone, whole, _⟩ := retainedStableSuffix_spec found
  have removed : byteLength c.stable - byteLength stableSuffix = byteLength gone := by
    rw [whole, byteLength_append]
    omega
  have taken : takeBytes (byteLength gone) c.stable = gone := by rw [whole, takeBytes_append]
  dsimp only
  rw [removed, taken]
  have spelled := keyed.spelled
  rw [keyed.reading, whole, List.append_assoc, List.append_assoc, ← List.append_assoc stableSuffix] at spelled
  exact spelled.removePrefix fun u member => (keyed.journal.inside u member).2.1

/-- Retaining a visible suffix keeps the keys of the units that are left. -/
theorem Keyed.retainSuffix (keyed : c.Keyed) (segmentation : Segmentation) (suffix : Text) :
    (c.retainSuffix segmentation suffix).1.Keyed := by
  unfold LocalKanaComposer.retainSuffix
  split
  · split
    · exact keyed
    · exact (keyed.setCursor _).retainAtEnd segmentation suffix
  · exact keyed.retainAtEnd segmentation suffix

end Keyed

/-- A call that types, deletes, moves the cursor or retains a part of the reading. -/
def ComposerCall.Edits : ComposerCall → Prop
  | .clear | .reseedReading _ | .adoptConversionReading _ | .preserveLastLiteralOriginal _ => False
  | _ => True

section Runs

variable {c : LocalKanaComposer} (segmentation : Segmentation)

/-- Every edit keeps the keys of the units that are left. -/
theorem Keyed.call (keyed : c.Keyed) {call : ComposerCall} (edits : call.Edits) : (c.call segmentation call).Keyed := by
  cases call with
  | push ch style => exact keyed.push ch style
  | backspace => exact keyed.deleteBeforeCursor segmentation false
  | backspaceAtCursor => exact keyed.deleteBeforeCursor segmentation true
  | retainPrefix front => exact keyed.retainPrefix front
  | retainSuffix suffix => exact keyed.retainSuffix segmentation suffix
  | finalizePendingN => exact keyed.finalizePendingN
  | setCursor requested => exact keyed.setCursor requested
  | moveCursor direction => exact keyed.moveCursor direction
  | deleteForward => exact keyed.deleteForward
  | _ => cases edits

end Runs

/-- The units that answer for the original input: those of the journal, and the pending keys as one. -/
def inputJournal (c : LocalKanaComposer) : InputJournal :=
  if c.pending.isEmpty then c.journal
  else
    let detached := c.journal.detachSuffix c.cursor
    (detached.1.append c.stable.length c.cursor c.pending).appendSuffix detached.2 c.cursor

section Answers

variable {c : LocalKanaComposer}

/-- The original input is that of these units. -/
theorem originalInput_eq (c : LocalKanaComposer) (start stop : Nat) :
    c.originalInput start stop = c.inputJournal.original start stop := by
  unfold originalInput inputJournal
  split <;> rfl

/-- The pending keys are laid out behind the units before the cursor. -/
theorem Represented.laid_pending (represented : c.Represented) :
    Laid ((c.journal.detachSuffix c.cursor).1.append c.stable.length c.cursor c.pending).units 0 c.cursor :=
  InputJournal.laid_append represented.detached.1 c.pending.length c.pending

/-- The units and the pending keys are laid out over the reading. -/
theorem Represented.laid_inputJournal (represented : c.Represented) :
    Laid c.inputJournal.units 0 c.reading.length := by
  unfold inputJournal
  split
  · exact represented.journal
  · have length : c.reading.length = c.cursor + c.suffix.length := by
      rw [represented.reading, List.length_append, List.length_append]
      rfl
    rw [length]
    exact InputJournal.laid_appendSuffix represented.laid_pending represented.detached.2 (Nat.zero_le _)

/-- The text and the units behind the cursor are the same, as far as all positions fit. -/
structure SameBehind (c d : LocalKanaComposer) : Prop where
  suffix : d.suffix = c.suffix
  units : d.reading.length < 2 ^ 32 → d.journal.removePrefix d.cursor = c.journal.removePrefix c.cursor

/-- An edit before the cursor leaves what is behind it. -/
theorem Represented.sameBehind (represented : c.Represented) {edit : LocalKanaComposer → LocalKanaComposer}
    (edits : ∀ journal : InputJournal, Laid journal.units 0 c.stable.length →
      (edit { c with journal := journal }).suffix = c.suffix ∧
        Laid (edit { c with journal := journal }).journal.units 0 (edit { c with journal := journal }).stable.length) :
    SameBehind c (c.withDetached edit).refreshReading := by
  obtain ⟨before, after⟩ := represented.detached
  obtain ⟨same, laid⟩ := edits _ before
  refine ⟨same, fun fits => ?_⟩
  rw [← (InputJournal.detachSuffix_units represented.journal c.cursor).2]
  refine InputJournal.removePrefix_appendSuffix (laid.mono (Nat.le_refl _) (Nat.le_add_right _ _)) after ?_
  have fits : ((edit { c with journal := (c.journal.detachSuffix c.cursor).1 }).stable ++
      (edit { c with journal := (c.journal.detachSuffix c.cursor).1 }).pending ++
      (edit { c with journal := (c.journal.detachSuffix c.cursor).1 }).suffix).length < 2 ^ 32 := fits
  rw [same, List.length_append, List.length_append] at fits
  exact fits

/-- Typing leaves what is behind the cursor. -/
theorem Represented.push_sameBehind (represented : c.Represented) (ch : Char) (style : InputStyle) :
    SameBehind c (c.push ch style) := by
  unfold LocalKanaComposer.push
  refine represented.sameBehind fun journal laid => ?_
  cases style with
  | kana => exact ⟨advanceWithin_suffix _, laid_advanceWithin _ laid⟩
  | direct =>
    have first := laid_appendInputUnit (c := { c with journal := journal, automaticLiterals := [], pending := [] })
      laid c.pending c.pending .direct
    exact ⟨rfl, laid_appendInputUnit first [ch] [ch] .direct⟩

/-- Deleting before the cursor leaves what is behind it. -/
theorem Represented.deleteBeforeCursor_sameBehind (represented : c.Represented) (segmentation : Segmentation)
    (readingBoundary : Bool) : SameBehind c (c.deleteBeforeCursor segmentation readingBoundary) := by
  unfold LocalKanaComposer.deleteBeforeCursor
  refine represented.sameBehind fun journal laid => ?_
  dsimp only
  split
  · exact ⟨reopenRomanTail_suffix, laid_reopenRomanTail (laid_truncateStable laid _)⟩
  · exact ⟨reopenRomanTail_suffix, laid_reopenRomanTail laid⟩

end Answers

section Shifts

variable {c : LocalKanaComposer} (segmentation : Segmentation)

end Shifts

end LocalKanaComposer

end Nospacekey
