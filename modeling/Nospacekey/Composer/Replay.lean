import Nospacekey.Composer.Parsing
import Nospacekey.Library.Runs

/-! Replaying a composer's segments into a fresh one gives back its reading. -/

namespace Nospacekey

open Utf8 Runs

namespace LocalKanaComposer

/-- The segments have the texts they stand for, letters in them are direct, and the automatic
literals are in order. -/
structure Parsed (c : LocalKanaComposer) : Prop where
  stable : (styled c.stableSegments).map Prod.fst = c.stable
  suffix : (styled c.suffixSegments).map Prod.fst = c.suffix
  plain : ∀ typed ∈ styled c.stableSegments ++ styled c.suffixSegments,
    typed.2 = .kana → typed.1.isAlpha = false
  marked : Marked c.stable c.pending c.automaticLiterals

/-- A composer between two operations: its reading is up to date, and its pending keys wait. -/
structure Composed (c : LocalKanaComposer) : Prop extends Parsed c where
  reading : c.reading = c.stable ++ c.pending ++ c.suffix
  waiting : Waiting c.pending
  followed : Followed c.stable c.pending c.automaticLiterals

section Parsed

variable {c : LocalKanaComposer}

/-- Appending a unit appends its characters in its style. -/
theorem styled_appendInputUnit (text : Text) (style : InputStyle) (original : Text) :
    styled (c.appendInputUnit text style original).stableSegments =
      styled c.stableSegments ++ styledText text style := by
  simp [appendInputUnit, appendStable]

/-- A unit without letters, or a direct one, keeps the segments in order. -/
theorem Parsed.appendInputUnit (parsed : c.Parsed) {text pending : Text} {style : InputStyle}
    {literals : List Nat} (original : Text) (plain : style = .kana → ∀ ch ∈ text, ch.isAlpha = false)
    (marked : Marked (c.stable ++ text) pending literals) :
    { c.appendInputUnit text style original with automaticLiterals := literals, pending := pending }.Parsed where
  stable := by
    simp only [styled_appendInputUnit, List.map_append, parsed.stable, map_fst_styledText]
    rfl
  suffix := parsed.suffix
  plain := by
    intro typed member isKana
    simp only [styled_appendInputUnit, List.append_assoc] at member
    rcases List.mem_append.mp member with old | member
    · exact parsed.plain typed (List.mem_append_left _ old) isKana
    rcases List.mem_append.mp member with new | old
    · obtain ⟨ch, inText, rfl⟩ := List.mem_map.mp new
      exact plain isKana ch inText
    · exact parsed.plain typed (List.mem_append_right _ old) isKana
  marked := marked

/-- Direct text may be appended where no literal is recoverable. -/
theorem Parsed.appendDirect (parsed : c.Parsed) (text original : Text) (none' : c.automaticLiterals = []) :
    (c.appendInputUnit text .direct original).Parsed :=
  parsed.appendInputUnit original (fun direct => by cases direct)
    (show Marked (c.stable ++ text) c.pending c.automaticLiterals from none' ▸ marked_nil _ _)

/-- Cutting the text off, with other keys pending, keeps the segments in order. -/
theorem Parsed.truncate (parsed : c.Parsed) {len : Nat} {left : Text}
    (begins : takeBytes len c.stable ++ left <+: c.stable ++ c.pending) :
    { c.truncateStable len with pending := left }.Parsed := by
  obtain ⟨back, cut⟩ := truncateSegments_cut len c.stableSegments
  refine { stable := ?_, suffix := parsed.suffix, plain := ?_, marked := parsed.marked.cut begins }
  · exact cut.front.trans (by rw [parsed.stable]; rfl)
  · intro typed member
    refine parsed.plain typed ?_
    rw [cut.parts]
    rcases List.mem_append.mp member with front | suffix
    · exact List.mem_append_left _ (List.mem_append_left _ front)
    · exact List.mem_append_right _ suffix

/-- A unit of the parser keeps the segments in order, and no literal is last with nothing pending. -/
theorem Parsed.acceptUnit (parsed : c.Parsed) {unit : RomanUnit} (parses : Parses c.pending unit) :
    (c.acceptUnit unit).Parsed ∧
      Followed (c.acceptUnit unit).stable (c.acceptUnit unit).pending (c.acceptUnit unit).automaticLiterals := by
  cases parses with
  | @converted taken text original rest keys used nonempty other =>
    have marked : Marked (c.stable ++ text) rest c.automaticLiterals := by
      refine Marked.extend (keys ▸ parsed.marked) used nonempty fun ch first => .inl (other ch ?_)
      exact List.mem_of_mem_head? first
    refine ⟨parsed.appendInputUnit original (fun _ => other) marked, ?_⟩
    rintro - offset member last
    -- The text ends with a character that is no letter.
    obtain ⟨front, ch, back, whole, start, letter, _⟩ := marked.stands offset member
    have empty : back = [] := by
      have length := congrArg byteLength whole
      rw [byteLength_append front, byteLength_cons, utf8Size_of_isAlpha letter.1, start] at length
      have last : offset + 1 = byteLength (c.stable ++ text) := last
      exact byteLength_eq_zero.mp (by omega)
    subst empty
    have final : (c.stable ++ text).getLast? = some ch := by rw [whole]; simp
    rw [List.getLast?_append_of_ne_nil _ nonempty] at final
    have nonletter := other ch (List.mem_of_getLast? final)
    rw [letter.1] at nonletter
    cases nonletter
  | @frozen first rest keys more literal apart =>
    refine ⟨parsed.appendInputUnit [first] (fun direct => by cases direct) ?_, fun empty => absurd empty more⟩
    exact Marked.freeze (keys ▸ parsed.marked) literal apart

end Parsed

section Operations

variable {c : LocalKanaComposer}

/-- What the parts of an operation leave behind before the reading is brought up to date. -/
structure Settles (c : LocalKanaComposer) : Prop extends Parsed c where
  waiting : Waiting c.pending
  followed : Followed c.stable c.pending c.automaticLiterals

/-- Bringing the reading up to date completes an operation. -/
theorem Settles.refresh (settles : c.Settles) : c.refreshReading.Composed :=
  { settles with reading := rfl }

/-- The journal plays no part in this. -/
theorem Settles.journal (settles : c.Settles) (journal : InputJournal) :
    { c with journal := journal }.Settles :=
  { settles with }

/-- An edit before the cursor completes an operation if it settles under any journal. -/
theorem composed_withDetached {edit : LocalKanaComposer → LocalKanaComposer}
    (settles : ∀ journal, (edit { c with journal := journal }).Settles) :
    (c.withDetached edit).refreshReading.Composed :=
  ((settles _).journal _).refresh

/-- A composed reading settles as it is. -/
theorem Composed.settles (composed : c.Composed) : c.Settles := { composed with }

/-- The parser ends by itself, where it waits for more keys. -/
theorem advanceWithin_settles (fuel : Nat) (bound : c.pending.length ≤ fuel) (parsed : c.Parsed)
    (followed : Followed c.stable c.pending c.automaticLiterals) : (c.advanceWithin fuel).Settles := by
  -- Every round takes a pending key at least.
  induction fuel generalizing c with
  | zero =>
    have empty : c.pending = [] := List.length_eq_zero_iff.mp (by omega)
    exact { parsed with waiting := empty ▸ waiting_nil, followed := followed }
  | succ fuel ih =>
    unfold advanceWithin
    cases next : nextUnit c.pending with
    | none => exact { parsed with waiting := nextUnit_eq_none_iff.mp next, followed := followed }
    | some unit =>
      have parses := nextUnit_parses next
      obtain ⟨parsed', followed'⟩ := parsed.acceptUnit parses
      refine ih ?_ parsed' followed'
      have := parses.rest_lt
      exact show unit.rest.length ≤ fuel by omega

/-- Typing keeps a composition in order. -/
theorem Composed.push (composed : c.Composed) (ch : Char) (style : InputStyle) : (c.push ch style).Composed := by
  refine composed_withDetached fun journal => ?_
  have settles := composed.settles.journal journal
  cases style with
  | kana =>
    refine advanceWithin_settles _ le_rfl ?_ fun empty => absurd empty (by simp)
    exact { settles.toParsed with marked := settles.marked.more settles.followed [ch] }
  | direct =>
    have cleared : { c with journal := journal, automaticLiterals := [], pending := [] }.Parsed :=
      { settles.toParsed with marked := marked_nil _ _ }
    have frozen := (cleared.appendDirect c.pending c.pending rfl).appendDirect [ch] [ch] rfl
    exact { frozen with waiting := waiting_nil, followed := fun _ _ member => by cases member }

/-- Reopening the roman tail leaves no literal last with nothing pending, and shows the same. -/
theorem reopenRomanTail_settles (parsed : c.Parsed) (waiting : Waiting c.pending) :
    c.reopenRomanTail.Settles ∧
      c.reopenRomanTail.stable ++ c.reopenRomanTail.pending = c.stable ++ c.pending := by
  unfold reopenRomanTail
  split
  · rename_i start candidate found
    have reopens : Reopens c.stable c.pending c.automaticLiterals start candidate :=
      reopenFrom_spec parsed.marked _ _ _ (by simp) ⟨c.stable, [], by simp, rfl, by simp⟩
        (fun _ absurdity => by cases absurdity) _ found
    obtain ⟨front, letters, whole, offset, nonempty, _, rfl⟩ := reopens.letters
    have kept : takeBytes start c.stable = front := by rw [whole, ← offset, takeBytes_append]
    have same : takeBytes start c.stable ++ (letters ++ c.pending) = c.stable ++ c.pending := by
      rw [kept, whole, List.append_assoc]
    have truncated : { c.truncateStable start with pending := letters ++ c.pending }.Parsed :=
      parsed.truncate ⟨[], by rw [List.append_nil]; exact same⟩
    exact ⟨{ truncated with
      waiting := reopens.waiting parsed.marked waiting
      followed := fun empty => absurd empty (by simp [nonempty]) }, same⟩
  · rename_i missing
    refine ⟨{ parsed with waiting := waiting, followed := ?_ }, rfl⟩
    intro empty offset member last
    rw [empty] at missing
    exact reopenFrom_last (empty ▸ parsed.marked) member last missing

/-- Deleting before the cursor keeps a composition in order. -/
theorem Composed.deleteBeforeCursor (composed : c.Composed) (segmentation : Segmentation)
    (readingBoundary : Bool) : (c.deleteBeforeCursor segmentation readingBoundary).Composed := by
  refine composed_withDetached fun journal => ?_
  have settles := composed.settles.journal journal
  dsimp only
  split
  · rename_i empty
    have empty : c.pending = [] := by simpa using empty
    refine (reopenRomanTail_settles ?_ (by rw [truncateStable]; exact settles.waiting)).1
    have begins : ∀ len, takeBytes len c.stable ++ c.pending <+: c.stable ++ c.pending := by
      intro len
      rw [empty, List.append_nil, List.append_nil]
      exact ⟨_, takeBytes_append_dropBytes _ _⟩
    exact settles.toParsed.truncate (begins _)
  · refine (reopenRomanTail_settles ?_ (settles.waiting.of_prefix (List.dropLast_prefix _))).1
    exact { settles.toParsed with marked := settles.marked.fewer (List.dropLast_prefix _) }

/-- The replay pushes the stable text, the pending keys and the text after the cursor. -/
theorem styled_replaySegments (c : LocalKanaComposer) : styled c.replaySegments =
    styled c.stableSegments ++ styledText c.pending (if c.suffix.isEmpty then .kana else .direct) ++
      styled c.suffixSegments := by
  unfold replaySegments
  rw [styled_foldl_appendSegment, styled_appendSegment]

/-- Freezing pending keys where they stand shows the same. -/
theorem freezePending_parsed (settles : c.Settles) :
    c.freezePending.Parsed ∧ c.freezePending.pending = [] ∧ c.freezePending.reading = c.reading ∧
      c.freezePending.stable = c.stable ++ c.pending ∧ c.freezePending.suffix = c.suffix := by
  unfold freezePending
  split
  · rename_i empty
    have empty : c.pending = [] := by simpa using empty
    exact ⟨settles.toParsed, empty, rfl, by simp [empty], rfl⟩
  · rename_i some
    have marked : Marked (c.stable ++ c.pending) [] c.automaticLiterals := by
      refine Marked.extend (by rw [List.append_nil]; exact settles.marked) ?_ ?_ fun _ first => .inr first
      all_goals simpa using some
    refine ⟨?_, rfl, rfl, rfl, rfl⟩
    have frozen := settles.toParsed.appendInputUnit c.pending
      (show InputStyle.direct = .kana → _ from fun direct => by cases direct) marked
    exact { frozen with }

/-- Moving the cursor keeps a composition in order and its reading as it is. -/
theorem Composed.setCursor (composed : c.Composed) (requested : Nat) :
    (c.setCursor requested).1.Composed ∧ (c.setCursor requested).1.reading = c.reading := by
  unfold LocalKanaComposer.setCursor
  split
  · exact ⟨composed, rfl⟩
  dsimp only
  split
  · exact ⟨composed, rfl⟩
  rename_i positions _ _
  generalize ((positions.reverse.find? fun position => position ≤ requested).getD 0) = next
  obtain ⟨parsed, pending, reading, stable, suffix⟩ := freezePending_parsed composed.settles
  generalize c.freezePending = frozen at *
  have shown : frozen.reading = frozen.stable ++ frozen.suffix := by
    rw [reading, composed.reading, stable, suffix]
  have cut := splitSegments_cut frozen.replaySegments (byteLength (frozen.reading.take next))
  have texts : (styled frozen.replaySegments).map Prod.fst = frozen.reading := by
    rw [styled_replaySegments, pending, shown]
    simp [parsed.stable, parsed.suffix]
  refine ⟨?_, reading⟩
  exact
    { stable := cut.front.trans (by rw [texts])
      suffix := cut.back.trans (by rw [texts])
      plain := by
        intro typed member
        rw [← cut.parts, styled_replaySegments, pending] at member
        exact parsed.plain typed (by simpa using member)
      marked := marked_nil _ _
      reading := by simp [pending]
      waiting := by rw [pending]; exact waiting_nil
      followed := fun _ _ member => by cases member }

/-- Moving the cursor by one position keeps a composition in order and its reading as it is. -/
theorem Composed.moveCursor (composed : c.Composed) (direction : Int) :
    (c.moveCursor direction).1.Composed ∧ (c.moveCursor direction).1.reading = c.reading := by
  unfold LocalKanaComposer.moveCursor
  split
  · exact ⟨composed, rfl⟩
  · dsimp only
    split
    · exact ⟨composed, rfl⟩
    · exact composed.setCursor _

/-- Deleting after the cursor keeps a composition in order. -/
theorem Composed.deleteForward (composed : c.Composed) : c.deleteForward.1.Composed := by
  unfold LocalKanaComposer.deleteForward
  split
  · exact composed
  rename_i next _
  have cut := splitSegments_cut c.suffixSegments (byteLength (c.suffix.take (next - c.cursor)))
  refine Settles.refresh { composed.settles with suffix := ?_, plain := ?_ }
  · exact cut.back.trans (by rw [composed.suffix])
  · intro typed member
    refine composed.plain typed ?_
    rw [cut.parts]
    rcases List.mem_append.mp member with stable | suffix
    · exact List.mem_append_left _ stable
    · exact List.mem_append_right _ (List.mem_append_right _ suffix)

/-- Completing a final n keeps a composition in order. -/
theorem Composed.finalizePendingN (composed : c.Composed) : c.finalizePendingN.1.Composed := by
  unfold LocalKanaComposer.finalizePendingN
  split
  · exact composed
  rename_i isN
  rw [ne_eq, not_not] at isN
  refine composed_withDetached fun journal => ?_
  have settles := composed.settles.journal journal
  -- The parser does the same with an n before another consonant.
  have parses : Parses c.pending ⟨['ん'], .kana, ['n'], []⟩ :=
    .converted ['n'] isN (by simp) (by simp) (List.forall_mem_singleton.mpr (by decide))
  obtain ⟨parsed, followed⟩ := settles.toParsed.acceptUnit parses
  exact { parsed with waiting := waiting_nil, followed := followed }

/-- The segments behind a start are the last ones, and have the text behind it. -/
theorem stableSuffixSegments_spec {segmentation : Segmentation} {stableSuffix : Text}
    {segments : List ReplaySegment} (texts : (styled c.stableSegments).map Prod.fst = c.stable) {gone : Text}
    (whole : c.stable = gone ++ stableSuffix)
    (found : c.stableSuffixSegments segmentation (byteLength stableSuffix) = some segments) :
    (styled segments).map Prod.fst = stableSuffix ∧
      ∃ front, styled c.stableSegments = front ++ styled segments ∧ front.map Prod.fst = gone := by
  unfold stableSuffixSegments at found
  split at found
  · rename_i empty
    obtain rfl := Option.some.inj found
    have nothing : stableSuffix = [] := byteLength_eq_zero.mp empty
    refine ⟨nothing.symm, styled c.stableSegments, by simp, ?_⟩
    rw [texts, whole, nothing, List.append_nil]
  split at found
  · cases found
  dsimp only at found
  split at found
  · cases found
  split at found
  · cases found
  rename_i retained stop result
  split at found
  · obtain rfl := Option.some.inj found
    obtain ⟨front, back, cut, same⟩ := suffixSegmentsFrom_cut result
    rw [styled_nil, List.nil_append] at same
    -- The cut falls between what is gone and what is kept.
    have start : byteLength c.stable - byteLength stableSuffix - 0 = byteLength gone := by
      rw [whole, byteLength_append]
      omega
    rw [start] at cut
    refine ⟨?_, front, by rw [cut.parts, same], ?_⟩
    · rw [same, cut.back, texts, whole, dropBytes_append]
    · rw [cut.front, texts, whole, takeBytes_append]
  · cases found

/-- A retained suffix is a stable text and the pending keys. -/
theorem retainedStableSuffix_spec {segmentation : Segmentation} {suffix stableSuffix : Text}
    {segments : List ReplaySegment} (found : c.retainedStableSuffix segmentation suffix = some (stableSuffix, segments)) :
    ∃ gone, c.stable = gone ++ stableSuffix ∧
      c.stableSuffixSegments segmentation (byteLength stableSuffix) = some segments := by
  unfold retainedStableSuffix at found
  split at found
  · cases found
  split at found
  · cases found
  dsimp only at found
  split at found
  · cases found
  rename_i ends
  obtain ⟨kept, result, same⟩ := Option.map_eq_some_iff.mp found
  obtain ⟨rfl, rfl⟩ := Prod.mk.inj same
  simp only [Bool.not_eq_true, Bool.not_eq_false', List.isSuffixOf_iff_suffix] at ends
  obtain ⟨gone, whole⟩ := ends
  exact ⟨gone, whole.symm, result⟩

/-- Retaining a suffix at the end keeps a composition in order. -/
theorem Composed.retainAtEnd (composed : c.Composed) (segmentation : Segmentation) (suffix : Text) :
    (c.retainAtEnd segmentation suffix).1.Composed := by
  unfold LocalKanaComposer.retainAtEnd
  split
  · exact composed
  rename_i stableSuffix segments found
  obtain ⟨gone, whole, result⟩ := retainedStableSuffix_spec found
  obtain ⟨texts, front, parts, _⟩ := stableSuffixSegments_spec composed.stable whole result
  have removed : byteLength c.stable - byteLength stableSuffix = byteLength gone := by
    rw [whole, byteLength_append]
    omega
  rw [removed]
  refine Settles.refresh { composed.settles with stable := texts, plain := ?_, marked := ?_, followed := ?_ }
  · intro typed member
    refine composed.plain typed ?_
    rcases List.mem_append.mp member with new | old
    · exact List.mem_append_left _ (by rw [parts]; exact List.mem_append_right _ new)
    · exact List.mem_append_right _ old
  · exact Marked.drop (whole ▸ composed.marked)
  · intro empty offset member last
    obtain ⟨old, inOld, rfl⟩ := List.mem_map.mp member
    obtain ⟨inOld, behind⟩ := List.mem_filter.mp inOld
    rw [decide_eq_true_eq] at behind
    refine composed.followed empty old inOld ?_
    rw [whole, byteLength_append]
    dsimp only at last
    omega

/-- Retaining a visible suffix keeps a composition in order. -/
theorem Composed.retainSuffix (composed : c.Composed) (segmentation : Segmentation) (suffix : Text) :
    (c.retainSuffix segmentation suffix).1.Composed := by
  unfold LocalKanaComposer.retainSuffix
  split
  · split
    · exact composed
    · exact (composed.setCursor _).1.retainAtEnd segmentation suffix
  · exact composed.retainAtEnd segmentation suffix

end Operations

section Typing

variable {c d : LocalKanaComposer}

/-- The parts of two composers that later typing and the reading depend on are the same. -/
structure Alike (c d : LocalKanaComposer) : Prop where
  stable : c.stable = d.stable
  pending : c.pending = d.pending
  suffix : c.suffix = d.suffix

/-- The parser treats alike composers alike. -/
theorem advanceWithin_alike (fuel : Nat) (alike : Alike c d) :
    Alike (c.advanceWithin fuel) (d.advanceWithin fuel) := by
  induction fuel generalizing c d with
  | zero => exact alike
  | succ fuel ih =>
    unfold advanceWithin
    rw [alike.pending]
    cases nextUnit d.pending with
    | none => exact alike
    | some unit =>
      refine ih ⟨?_, rfl, alike.suffix⟩
      exact congrArg (· ++ unit.text) alike.stable

/-- Typing keeps composers alike. -/
theorem push_alike (alike : Alike c d) (ch : Char) (style : InputStyle) : Alike (c.push ch style) (d.push ch style) := by
  cases style with
  | kana =>
    have typed : Alike
        { c with journal := (c.journal.detachSuffix c.cursor).1, pending := c.pending ++ [ch] }
        { d with journal := (d.journal.detachSuffix d.cursor).1, pending := d.pending ++ [ch] } :=
      ⟨alike.stable, congrArg (· ++ [ch]) alike.pending, alike.suffix⟩
    have length := congrArg List.length typed.pending
    have advanced := advanceWithin_alike (c.pending ++ [ch]).length typed
    refine ⟨advanced.stable.trans ?_, advanced.pending.trans ?_, advanced.suffix.trans ?_⟩
    all_goals dsimp only at length; rw [length]; rfl
  | direct =>
    refine ⟨?_, rfl, alike.suffix⟩
    exact congrArg (· ++ [ch]) (congrArg₂ (· ++ ·) alike.stable alike.pending)

/-- Typing a text keeps composers alike. -/
theorem pushAll_alike (alike : Alike c d) (text : StyledText) : Alike (c.pushAll text) (d.pushAll text) := by
  induction text generalizing c d with
  | nil => exact alike
  | cons typed rest ih => exact ih (push_alike alike typed.1 typed.2)

/-- Typing keeps the reading up to date. -/
theorem pushAll_reading (current : c.reading = c.stable ++ c.pending ++ c.suffix) (text : StyledText) :
    (c.pushAll text).reading = (c.pushAll text).stable ++ (c.pushAll text).pending ++ (c.pushAll text).suffix := by
  induction text generalizing c with
  | nil => exact current
  | cons typed rest ih => exact ih rfl

/-- Keys are letters while they wait. -/
theorem isAlpha_of_waiting {input : Text} (waiting : Waiting input) : ∀ c ∈ input, c.isAlpha = true := by
  rcases waiting with ⟨c, rfl, letter, _⟩ | ⟨entry, member, begins, _⟩
  · simpa using letter
  · exact fun c inside => isAlpha_of_spelling member c (begins.subset inside)

/-- A character that is no letter is a unit by itself. -/
theorem nextUnit_of_not_alpha {ch : Char} (other : ch.isAlpha = false) :
    nextUnit [ch] = some ⟨[ch], .kana, [ch], []⟩ := by
  have missing : lookupRoman [ch] = none := by
    rw [lookupRoman_eq_none_iff]
    intro entry member begins
    obtain ⟨key, rest, same⟩ := List.exists_cons_of_ne_nil (regular_of_mem member).nonempty
    have letter := isAlpha_of_spelling member key (by rw [same]; simp)
    have equal : key = ch := by
      rw [same] at begins
      exact (List.cons_prefix_cons.mp begins).1
    rw [equal, other] at letter
    cases letter
  have final : isRomanPrefix [ch] = false := by
    cases completes : isRomanPrefix [ch] with
    | false => rfl
    | true =>
      have letter := isAlpha_of_waiting (waiting_of_completable completes missing) ch (by simp)
      rw [other] at letter
      cases letter
  unfold nextUnit
  simp [missing, final, other]

/-- Text that is direct or has no letters is typed as it is. -/
theorem push_plain (noPending : c.pending = []) {ch : Char} {style : InputStyle}
    (plain : style = .kana → ch.isAlpha = false) :
    (c.push ch style).stable = c.stable ++ [ch] ∧ (c.push ch style).pending = [] ∧
      (c.push ch style).suffix = c.suffix := by
  cases style with
  | kana =>
    have unit := nextUnit_of_not_alpha (plain rfl)
    simp only [push, withDetached, refreshReading, advancePending, noPending, List.nil_append,
      List.length_singleton, advanceWithin, unit]
    exact ⟨rfl, rfl, rfl⟩
  | direct =>
    refine ⟨?_, rfl, rfl⟩
    exact congrArg (· ++ [ch]) (by rw [noPending]; exact List.append_nil _)

/-- A key that leaves the pending ones waiting is pending as well. -/
theorem push_waiting {ch : Char} (waiting : Waiting (c.pending ++ [ch])) :
    (c.push ch .kana).stable = c.stable ∧ (c.push ch .kana).pending = c.pending ++ [ch] ∧
      (c.push ch .kana).suffix = c.suffix := by
  have none' := nextUnit_eq_none_iff.mpr waiting
  simp [push, withDetached, refreshReading, advancePending, advanceWithin, none']

/-- Plain text is typed as it is. -/
theorem pushAll_plain (noPending : c.pending = []) {text : StyledText}
    (plain : ∀ typed ∈ text, typed.2 = .kana → typed.1.isAlpha = false) :
    (c.pushAll text).stable = c.stable ++ text.map Prod.fst ∧ (c.pushAll text).pending = [] ∧
      (c.pushAll text).suffix = c.suffix := by
  induction text generalizing c with
  | nil => exact ⟨by simp [pushAll], noPending, rfl⟩
  | cons typed rest ih =>
    obtain ⟨stable, pending, suffix⟩ := push_plain noPending (plain typed (by simp))
    obtain ⟨stable', pending', suffix'⟩ := ih pending fun other member => plain other (by simp [member])
    refine ⟨?_, pending', suffix'.trans suffix⟩
    rw [pushAll, List.foldl_cons]
    rw [pushAll] at stable'
    rw [stable', stable, List.map_cons, List.append_assoc]
    rfl

/-- Waiting keys are typed as they are, and wait. -/
theorem pushAll_waiting {keys : Text} (waiting : Waiting (c.pending ++ keys)) :
    (c.pushAll (styledText keys .kana)).stable = c.stable ∧
      (c.pushAll (styledText keys .kana)).pending = c.pending ++ keys ∧
      (c.pushAll (styledText keys .kana)).suffix = c.suffix := by
  induction keys generalizing c with
  | nil => exact ⟨rfl, by simp [pushAll], rfl⟩
  | cons ch rest ih =>
    obtain ⟨stable, pending, suffix⟩ : (c.push ch .kana).stable = c.stable ∧
        (c.push ch .kana).pending = c.pending ++ [ch] ∧ (c.push ch .kana).suffix = c.suffix :=
      push_waiting (waiting.of_prefix ⟨rest, by simp⟩)
    have later : Waiting ((c.push ch .kana).pending ++ rest) := by
      rw [pending, List.append_assoc]
      exact waiting
    obtain ⟨stable', pending', suffix'⟩ := ih later
    refine ⟨stable'.trans stable, pending'.trans ?_, suffix'.trans suffix⟩
    rw [pending, List.append_assoc]
    rfl

/-- Replaying segments pushes their characters in their styles. -/
theorem replayed_eq (segments : List ReplaySegment) : replayed segments = empty.pushAll (styled segments) := by
  unfold replayed
  generalize empty = c
  induction segments generalizing c with
  | nil => rfl
  | cons segment rest ih =>
    rw [List.foldl_cons, ih, styled_cons, pushAll, pushAll, List.foldl_append]
    congr 1
    rw [styledText, List.foldl_map]

end Typing

/-- The operations that edit a composition. -/
inductive ComposerOp where
  | push (ch : Char) (style : InputStyle)
  | backspace
  | backspaceAtCursor
  | setCursor (requested : Nat)
  | moveCursor (direction : Int)
  | deleteForward
  | finalizePendingN
  | retainSuffix (suffix : Text)
  deriving DecidableEq, Repr

/-- The composer after one operation. -/
def apply (segmentation : Segmentation) (c : LocalKanaComposer) : ComposerOp → LocalKanaComposer
  | .push ch style => c.push ch style
  | .backspace => c.backspace segmentation
  | .backspaceAtCursor => c.backspaceAtCursor segmentation
  | .setCursor requested => (c.setCursor requested).1
  | .moveCursor direction => (c.moveCursor direction).1
  | .deleteForward => c.deleteForward.1
  | .finalizePendingN => c.finalizePendingN.1
  | .retainSuffix suffix => (c.retainSuffix segmentation suffix).1

section Runs

variable {c : LocalKanaComposer} (segmentation : Segmentation)

/-- The empty composer is in order. -/
theorem empty_composed : empty.Composed where
  stable := rfl
  suffix := rfl
  plain := fun _ member => by cases member
  marked := marked_nil _ _
  reading := rfl
  waiting := waiting_nil
  followed := fun _ _ member => by cases member

/-- Every operation keeps a composition in order. -/
theorem Composed.apply (composed : c.Composed) (op : ComposerOp) : (c.apply segmentation op).Composed := by
  cases op with
  | push ch style => exact composed.push ch style
  | backspace => exact composed.deleteBeforeCursor segmentation false
  | backspaceAtCursor => exact composed.deleteBeforeCursor segmentation true
  | setCursor requested => exact (composed.setCursor requested).1
  | moveCursor direction => exact (composed.moveCursor direction).1
  | deleteForward => exact composed.deleteForward
  | finalizePendingN => exact composed.finalizePendingN
  | retainSuffix suffix => exact composed.retainSuffix segmentation suffix

/-- Every run from the empty composer leaves a composition in order. -/
theorem run_composed (ops : List ComposerOp) : (exec (LocalKanaComposer.apply segmentation) empty ops).Composed :=
  exec_invariant_all Composed (fun _ op composed => composed.apply segmentation op) empty_composed ops

/-- The replay of a composition shows its reading, and waits for the same keys at its end. -/
theorem Composed.replays (composed : c.Composed) :
    (replayed c.replaySegments).reading = c.reading ∧
      (c.cursorAtEnd = true → Alike (replayed c.replaySegments) c) := by
  have current : (replayed c.replaySegments).reading = (replayed c.replaySegments).stable ++
      (replayed c.replaySegments).pending ++ (replayed c.replaySegments).suffix := by
    rw [replayed_eq]
    exact pushAll_reading rfl _
  rw [current, composed.reading]
  have stable : ∀ typed ∈ styled c.stableSegments, typed.2 = .kana → typed.1.isAlpha = false :=
    fun typed member => composed.plain typed (List.mem_append_left _ member)
  cases suffix : c.suffix with
  | nil =>
    have noSuffix : styled c.suffixSegments = [] := by
      rw [← List.map_eq_nil_iff, composed.suffix, suffix]
    have pushes : replayed c.replaySegments =
        (empty.pushAll (styled c.stableSegments)).pushAll (styledText c.pending .kana) := by
      rw [replayed_eq, styled_replaySegments, noSuffix, suffix, List.append_nil, pushAll, List.foldl_append]
      rfl
    obtain ⟨shown, none', first⟩ := pushAll_plain (show empty.pending = [] from rfl) stable
    obtain ⟨shown', keys, second⟩ := pushAll_waiting
      (show Waiting ((empty.pushAll (styled c.stableSegments)).pending ++ c.pending) by
        rw [none']; exact composed.waiting)
    have alike : Alike (replayed c.replaySegments) c := by
      rw [pushes]
      refine ⟨?_, ?_, ?_⟩
      · rw [shown', shown, composed.stable]
        rfl
      · rw [keys, none', List.nil_append]
      · rw [second, first, suffix]
        rfl
    exact ⟨by rw [alike.stable, alike.pending, alike.suffix, suffix], fun _ => alike⟩
  | cons ch rest =>
    refine ⟨?_, fun atEnd => by simp [cursorAtEnd, suffix] at atEnd⟩
    -- Before a suffix the pending keys are replayed as they are.
    have direct : styled c.replaySegments =
        styled c.stableSegments ++ styledText c.pending .direct ++ styled c.suffixSegments := by
      rw [styled_replaySegments, suffix]
      rfl
    have plain : ∀ typed ∈ styled c.replaySegments, typed.2 = .kana → typed.1.isAlpha = false := by
      intro typed member isKana
      rw [direct] at member
      rcases List.mem_append.mp member with front | back
      · rcases List.mem_append.mp front with old | frozen
        · exact stable typed old isKana
        · obtain ⟨_, _, rfl⟩ := List.mem_map.mp frozen
          cases isKana
      · exact composed.plain typed (List.mem_append_right _ back) isKana
    obtain ⟨shown, none', after⟩ := pushAll_plain (show empty.pending = [] from rfl) plain
    rw [replayed_eq, shown, none', after, direct]
    simp [composed.stable, composed.suffix, suffix, empty]

/-- In every run the segments replay the reading, and at the end of it later keys are read alike. -/
theorem run_replays (ops : List ComposerOp) :
    let c := exec (LocalKanaComposer.apply segmentation) empty ops
    (replayed c.replaySegments).reading = c.reading ∧
      (c.cursorAtEnd = true → (replayed c.replaySegments).readingParts = c.readingParts ∧
        ∀ typed, ((replayed c.replaySegments).pushAll typed).reading = (c.pushAll typed).reading) := by
  have composed := run_composed segmentation ops
  obtain ⟨reading, alike⟩ := composed.replays
  refine ⟨reading, fun atEnd => ?_⟩
  have alike := alike atEnd
  refine ⟨Prod.ext alike.stable alike.pending, fun typed => ?_⟩
  have later := pushAll_alike alike typed
  have current := reading.trans composed.reading
  rw [← alike.stable, ← alike.pending, ← alike.suffix] at current
  rw [pushAll_reading current, pushAll_reading composed.reading, later.stable, later.pending, later.suffix]

end Runs

end LocalKanaComposer

end Nospacekey
