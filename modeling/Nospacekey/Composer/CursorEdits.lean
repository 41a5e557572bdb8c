import Mathlib.Order.Bounds.Basic
import Nospacekey.Composer.Lossless

/-! What an edit at the cursor changes, and what it leaves. -/

namespace Nospacekey

open Utf8 Runs

section Searches

variable {positions : List Nat} {found : Nat}

/-- A search from the back of sorted positions finds the greatest one. -/
theorem isGreatest_of_findBack (sorted : positions.Pairwise (· < ·)) {wanted : Nat → Bool}
    (result : positions.reverse.find? wanted = some found) :
    IsGreatest {position | position ∈ positions ∧ wanted position = true} found := by
  obtain ⟨holds, later, earlier, split, refused⟩ := List.find?_eq_some_iff_append.mp result
  have whole : positions = earlier.reverse ++ found :: later.reverse := by
    rw [← List.reverse_reverse positions, split]
    simp
  refine ⟨⟨by rw [whole]; simp, holds⟩, fun position ⟨member, wants⟩ => ?_⟩
  rw [whole] at member sorted
  rcases List.mem_append.mp member with before | rest
  · exact (List.pairwise_append.mp sorted).2.2 position before found List.mem_cons_self |>.le
  · rcases List.mem_cons.mp rest with same | behind
    · exact same.le
    · have other := refused position (List.mem_reverse.mp behind)
      rw [wants] at other
      cases other

/-- A search through sorted positions finds the least one. -/
theorem isLeast_of_find (sorted : positions.Pairwise (· < ·)) {wanted : Nat → Bool}
    (result : positions.find? wanted = some found) :
    IsLeast {position | position ∈ positions ∧ wanted position = true} found := by
  obtain ⟨holds, earlier, later, whole, refused⟩ := List.find?_eq_some_iff_append.mp result
  refine ⟨⟨by rw [whole]; simp, holds⟩, fun position ⟨member, wants⟩ => ?_⟩
  rw [whole] at member sorted
  rcases List.mem_append.mp member with before | rest
  · have other := refused position before
    rw [wants] at other
    cases other
  · rcases List.mem_cons.mp rest with same | behind
    · exact same.ge
    · exact (List.pairwise_cons.mp (List.pairwise_append.mp sorted).2.1).1 position behind |>.le

end Searches

namespace LocalKanaComposer

/-- The text behind the cursor, its segments and their styles are the same. -/
structure SameAfterCursor (c d : LocalKanaComposer) : Prop where
  text : d.reading.drop d.cursor = c.reading.drop c.cursor
  suffix : d.suffix = c.suffix
  segments : d.suffixSegments = c.suffixSegments

section Reopening

variable {c : LocalKanaComposer}

/-- What a reopened tail completes is the text from its start on. -/
theorem reopenFrom_candidate {stable pending : Text} {found : Nat × Text} (lower : List Nat) {start : Nat}
    {reopen : Option (Nat × Text)} (valid : ∀ known, reopen = some known → known.2 = dropBytes known.1 stable ++ pending)
    (result : reopenFrom stable pending start reopen lower = some found) :
    found.2 = dropBytes found.1 stable ++ pending := by
  induction lower generalizing start reopen with
  | nil => exact valid found result
  | cons offset lower ih =>
    unfold reopenFrom at result
    split at result
    · exact valid found result
    · refine ih (fun known isKnown => ?_) result
      split at isKnown
      · rw [← Option.some.inj isKnown]
      · exact valid known isKnown

/-- Reopening literals moves them from the stable text to the pending keys. -/
theorem reopenRomanTail_text (c : LocalKanaComposer) :
    c.reopenRomanTail.stable ++ c.reopenRomanTail.pending = c.stable ++ c.pending := by
  unfold reopenRomanTail
  split
  · rename_i start pending found
    have candidate : pending = dropBytes start c.stable ++ c.pending :=
      reopenFrom_candidate c.automaticLiterals.reverse (fun _ none' => by cases none') found
    show takeBytes start c.stable ++ pending = c.stable ++ c.pending
    rw [candidate, ← List.append_assoc, takeBytes_append_dropBytes]
  · rfl

/-- Reopening literals leaves the segments behind the cursor. -/
@[simp] theorem reopenRomanTail_suffixSegments (c : LocalKanaComposer) :
    c.reopenRomanTail.suffixSegments = c.suffixSegments := by
  unfold reopenRomanTail
  split <;> rfl

/-- Reopening literals shows the same reading. -/
theorem reopenRomanTail_reading (c : LocalKanaComposer) :
    c.reopenRomanTail.refreshReading.reading = c.refreshReading.reading := by
  show c.reopenRomanTail.stable ++ c.reopenRomanTail.pending ++ c.reopenRomanTail.suffix = _
  rw [reopenRomanTail_text, reopenRomanTail_suffix]
  rfl

end Reopening

section Edits

variable {c : LocalKanaComposer}

/-- The text behind the cursor is what follows as many characters as are before it. -/
theorem Represented.drop_cursor (represented : c.Represented) : c.reading.drop c.cursor = c.suffix := by
  rw [represented.reading, cursor, ← List.length_append, List.drop_left]

/-- The text before the cursor is the stable text and the pending keys. -/
theorem Represented.take_cursor (represented : c.Represented) : c.reading.take c.cursor = c.stable ++ c.pending := by
  rw [represented.reading, cursor, ← List.length_append, List.take_left]

/-- An edit that keeps the suffix and its segments keeps the text behind the cursor. -/
theorem Represented.sameAfterCursor {d : LocalKanaComposer} (represented : c.Represented) (represented' : d.Represented)
    (suffix : d.suffix = c.suffix) (segments : d.suffixSegments = c.suffixSegments) : SameAfterCursor c d :=
  ⟨by rw [represented.drop_cursor, represented'.drop_cursor, suffix], suffix, segments⟩

/-- The parser leaves the segments behind the cursor. -/
@[simp] theorem advanceWithin_suffixSegments (fuel : Nat) (c : LocalKanaComposer) :
    (c.advanceWithin fuel).suffixSegments = c.suffixSegments := by
  induction fuel generalizing c with
  | zero => rfl
  | succ fuel ih =>
    unfold advanceWithin
    split
    · rfl
    · exact ih _

/-- Typing leaves what is behind the cursor. -/
theorem Represented.push_sameAfterCursor (represented : c.Represented) (ch : Char) (style : InputStyle) :
    SameAfterCursor c (c.push ch style) := by
  refine represented.sameAfterCursor (represented.push ch style) (represented.push_sameBehind ch style).suffix ?_
  cases style with
  | kana => exact advanceWithin_suffixSegments _ _
  | direct => rfl

/-- Deleting before the cursor leaves what is behind it. -/
theorem Represented.deleteBeforeCursor_sameAfterCursor (represented : c.Represented) (segmentation : Segmentation)
    (readingBoundary : Bool) : SameAfterCursor c (c.deleteBeforeCursor segmentation readingBoundary) := by
  refine represented.sameAfterCursor (represented.deleteBeforeCursor segmentation readingBoundary)
    (represented.deleteBeforeCursor_sameBehind segmentation readingBoundary).suffix ?_
  show (if _ then _ else _ : LocalKanaComposer).suffixSegments = _
  split
  · exact reopenRomanTail_suffixSegments _
  · exact reopenRomanTail_suffixSegments _

/-- With pending keys, a deletion takes the last of them. -/
theorem deleteBeforeCursor_pending (segmentation : Segmentation) (readingBoundary : Bool) (some' : c.pending ≠ []) :
    (c.deleteBeforeCursor segmentation readingBoundary).reading = c.stable ++ c.pending.dropLast ++ c.suffix := by
  unfold deleteBeforeCursor withDetached
  have filled : c.pending.isEmpty = false := by simpa using some'
  simp only [filled, Bool.false_eq_true, if_false]
  show _ ++ _ ++ _ = _
  rw [reopenRomanTail_text, reopenRomanTail_suffix]

/-- Without pending keys, a deletion takes the text from what it retains on. -/
theorem deleteBeforeCursor_stable (segmentation : Segmentation) (readingBoundary : Bool) (finished : c.pending = []) :
    (c.deleteBeforeCursor segmentation readingBoundary).reading =
      takeBytes (c.retainedLen segmentation readingBoundary) c.stable ++ c.suffix := by
  have empty : c.pending.isEmpty = true := by rw [finished]; rfl
  unfold deleteBeforeCursor withDetached
  simp only [empty, if_true]
  show _ ++ _ ++ _ = _
  rw [reopenRomanTail_text, reopenRomanTail_suffix]
  show takeBytes (c.retainedLen segmentation readingBoundary) c.stable ++ c.pending ++ c.suffix = _
  rw [finished, List.append_nil]

/-- What a deletion at a legal boundary retains is the text up to the greatest one below the cursor. -/
theorem takeBytes_retainedLen (segmentation : Segmentation) (fits : c.stable.length < 2 ^ 32) {boundary : Nat}
    (greatest : IsGreatest {position | LegalBoundary c.stable position ∧ position < c.cursor} boundary) :
    takeBytes (c.retainedLen segmentation true) c.stable = c.stable.take boundary := by
  obtain ⟨positions, built⟩ := legalBoundaries_of_lt fits
  have previous : positions.reverse.find? (fun position => decide (position < c.cursor)) = some boundary := by
    cases result : positions.reverse.find? fun position => decide (position < c.cursor) with
    | none =>
      have refused := List.find?_eq_none.mp result boundary
        (List.mem_reverse.mpr ((mem_legalBoundaries built).mpr greatest.1.1))
      exact absurd (decide_eq_true greatest.1.2) refused
    | some found =>
      have greatest' := isGreatest_of_findBack (legalBoundaries_sorted built) result
      refine congrArg some (IsGreatest.unique ?_ greatest)
      simpa [mem_legalBoundaries built] using greatest'
  have retained : c.retainedLen segmentation true = byteLength (c.stable.take boundary) := by
    rw [retainedLen, if_pos rfl, built]
    show byteLength (c.stable.take ((positions.reverse.find? _).getD 0)) = _
    rw [previous, Option.getD_some]
  have whole := takeBytes_append (c.stable.take boundary) (c.stable.drop boundary)
  rwa [List.take_append_drop, ← retained] at whole

/-- A text that is too long has no legal boundaries, and nothing of it is retained. -/
theorem retainedLen_of_long (segmentation : Segmentation) (long : ¬c.stable.length < 2 ^ 32) :
    c.retainedLen segmentation true = 0 := by
  have refused : legalBoundaries c.stable = .error .range := by
    simp only [legalBoundaries, u32TryFrom, if_neg long]
  rw [retainedLen, if_pos rfl, refused]
  rfl

/-- A deletion after the cursor ends at the least legal boundary above it. -/
theorem Represented.deleteForward_next (represented : c.Represented) (fits : c.reading.length < 2 ^ 32) {next : Nat}
    (least : IsLeast {position | LegalBoundary c.reading position ∧ c.cursor < position} next) :
    c.deleteForward.2 = true ∧ c.deleteForward.1.reading = c.reading.take c.cursor ++ c.reading.drop next ∧
      c.deleteForward.1.cursor = c.cursor := by
  obtain ⟨positions, built⟩ := legalBoundaries_of_lt fits
  have ahead : positions.find? (fun position => decide (c.cursor < position)) = some next := by
    cases result : positions.find? fun position => decide (c.cursor < position) with
    | none =>
      have refused := List.find?_eq_none.mp result next ((mem_legalBoundaries built).mpr least.1.1)
      exact absurd (decide_eq_true least.1.2) refused
    | some found =>
      have least' := isLeast_of_find (legalBoundaries_sorted built) result
      refine congrArg some (IsLeast.unique ?_ least)
      simpa [mem_legalBoundaries built] using least'
  have found : ((legalBoundaries c.reading).toOption.bind fun positions =>
      positions.find? fun position => decide (c.cursor < position)) = some next := by
    rw [built]
    exact ahead
  unfold LocalKanaComposer.deleteForward
  simp only [found]
  refine ⟨trivial, ?_, rfl⟩
  show c.stable ++ c.pending ++ dropBytes (byteLength (c.suffix.take (next - c.cursor))) c.suffix = _
  rw [deleteForward_suffix, represented.take_cursor, ← represented.drop_cursor, List.drop_drop]
  have above : c.cursor < next := least.1.2
  rw [show c.cursor + (next - c.cursor) = next by omega]

/-- Without a legal boundary above the cursor nothing is deleted. -/
theorem deleteForward_none
    (none' : ¬c.reading.length < 2 ^ 32 ∨ ∀ position, LegalBoundary c.reading position → position ≤ c.cursor) :
    c.deleteForward = (c, false) := by
  have missing : ((legalBoundaries c.reading).toOption.bind fun positions =>
      positions.find? fun position => decide (c.cursor < position)) = none := by
    cases built : legalBoundaries c.reading with
    | error failure => rfl
    | ok positions =>
      refine List.find?_eq_none.mpr fun position member => ?_
      rcases none' with long | none'
      · exact absurd (legalBoundaries_ok_iff.mp built).1 long
      · have below := none' position ((mem_legalBoundaries built).mp member)
        simpa using below
  unfold LocalKanaComposer.deleteForward
  simp only [missing]

/-- The replay of a represented composer shows its reading. -/
theorem Represented.replay_text (represented : c.Represented) :
    c.replaySegments.flatMap ReplaySegment.text = c.reading := by
  rw [flatMap_text_eq, styled_replaySegments, List.map_append, List.map_append, represented.stable, represented.suffix,
    represented.reading]
  simp

end Edits

section Claims

variable (segmentation : Segmentation)

/-- What is typed and deleted at the cursor leaves the text behind it with its segments. A deletion before the cursor
takes the last pending key or else, as far as positions reach, what is behind the greatest legal boundary; one after
it takes what is before the least; and moving the cursor shows the same text. -/
theorem run_editsExact (calls : List ComposerCall) :
    let c := exec (LocalKanaComposer.call segmentation) empty calls
    (∀ ch style, SameAfterCursor c (c.push ch style)) ∧
    SameAfterCursor c (c.backspaceAtCursor segmentation) ∧
    (c.pending ≠ [] → (c.backspaceAtCursor segmentation).reading = c.stable ++ c.pending.dropLast ++ c.suffix) ∧
    (c.pending = [] → c.stable.length < 2 ^ 32 →
      (c.cursor = 0 → (c.backspaceAtCursor segmentation).reading = c.reading) ∧
      ∀ boundary, IsGreatest {position | LegalBoundary c.stable position ∧ position < c.cursor} boundary →
        (c.backspaceAtCursor segmentation).reading = c.reading.take boundary ++ c.reading.drop c.cursor) ∧
    (c.pending = [] → ¬c.stable.length < 2 ^ 32 →
      (c.backspaceAtCursor segmentation).reading = c.reading.drop c.cursor) ∧
    (∀ d : LocalKanaComposer, d.reopenRomanTail.refreshReading.reading = d.refreshReading.reading) ∧
    (∀ next, c.reading.length < 2 ^ 32 →
      IsLeast {position | LegalBoundary c.reading position ∧ c.cursor < position} next →
        c.deleteForward.2 = true ∧ c.deleteForward.1.reading = c.reading.take c.cursor ++ c.reading.drop next ∧
          c.deleteForward.1.cursor = c.cursor) ∧
    ((¬c.reading.length < 2 ^ 32 ∨ ∀ position, LegalBoundary c.reading position → position ≤ c.cursor) →
      c.deleteForward = (c, false)) ∧
    (∀ requested, (c.setCursor requested).1.reading = c.reading ∧
      (c.setCursor requested).1.replaySegments.flatMap ReplaySegment.text =
        c.replaySegments.flatMap ReplaySegment.text) ∧
    ∀ direction, (c.moveCursor direction).1.reading = c.reading ∧
      (c.moveCursor direction).1.replaySegments.flatMap ReplaySegment.text =
        c.replaySegments.flatMap ReplaySegment.text := by
  intro c
  have represented : c.Represented := run_represented segmentation calls
  refine ⟨fun ch style => represented.push_sameAfterCursor ch style,
    represented.deleteBeforeCursor_sameAfterCursor segmentation true,
    fun some' => deleteBeforeCursor_pending segmentation true some', fun finished fits => ⟨fun front => ?_, ?_⟩,
    fun finished long => ?_, reopenRomanTail_reading, fun next fits least => represented.deleteForward_next fits least,
    deleteForward_none, fun requested => ?_, fun direction => ?_⟩
  · -- There is no text before the cursor.
    have nothing : c.stable = [] := by
      rw [cursor] at front
      exact List.length_eq_zero_iff.mp (by omega)
    rw [backspaceAtCursor, deleteBeforeCursor_stable segmentation true finished, represented.reading, nothing, finished]
    simp [takeBytes, splitBytes]
  · intro boundary greatest
    have below : boundary ≤ c.stable.length := greatest.1.1.le_length
    rw [backspaceAtCursor, deleteBeforeCursor_stable segmentation true finished,
      takeBytes_retainedLen segmentation fits greatest, represented.drop_cursor, represented.reading, List.append_assoc,
      List.take_append_of_le_length below]
  · rw [backspaceAtCursor, deleteBeforeCursor_stable segmentation true finished,
      retainedLen_of_long segmentation long, takeBytes_zero, represented.drop_cursor]
    rfl
  · obtain ⟨moved, same⟩ := represented.setCursor requested
    exact ⟨same, by rw [moved.replay_text, represented.replay_text, same]⟩
  · have moved := represented.moveCursor direction
    have same : (c.moveCursor direction).1.reading = c.reading := by
      unfold LocalKanaComposer.moveCursor
      split
      · rfl
      · dsimp only
        split
        · rfl
        · exact (represented.setCursor _).2
    exact ⟨same, by rw [moved.replay_text, represented.replay_text, same]⟩

/-- In あいう with the cursor before う, a deletion before the cursor takes い, and one after it う. -/
theorem run_editsExact_aiu :
    let c := exec (LocalKanaComposer.call .scalars) empty
      [.push 'a' .kana, .push 'i' .kana, .push 'u' .kana, .setCursor 2]
    (c.backspaceAtCursor .scalars).reading = c.reading.take 1 ++ c.reading.drop c.cursor ∧
      c.deleteForward.1.reading = c.reading.take c.cursor ++ c.reading.drop 3 ∧
      ((c.push 'k' .kana).backspaceAtCursor .scalars).reading = ['あ', 'い'] ++ [] ++ ['う'] ∧
      (c.moveCursor 1).1.deleteForward = ((c.moveCursor 1).1, false) := by
  intro c
  have calls := run_editsExact .scalars [.push 'a' .kana, .push 'i' .kana, .push 'u' .kana, .setCursor 2]
  have typed := run_editsExact .scalars
    [.push 'a' .kana, .push 'i' .kana, .push 'u' .kana, .setCursor 2, .push 'k' .kana]
  have moved := run_editsExact .scalars
    [.push 'a' .kana, .push 'i' .kana, .push 'u' .kana, .setCursor 2, .moveCursor 1]
  refine ⟨(calls.2.2.2.1 (by decide +kernel) (by decide +kernel)).2 1 ?_, (calls.2.2.2.2.2.2.1 3 (by decide +kernel) ?_).2.1,
    typed.2.2.1 (by decide +kernel), moved.2.2.2.2.2.2.2.1 (.inr ?_)⟩
  · have stable : c.stable = ['あ', 'い'] := by decide +kernel
    have place : c.cursor = 2 := by decide +kernel
    show IsGreatest {position | LegalBoundary c.stable position ∧ position < c.cursor} 1
    rw [stable, place]
    exact ⟨⟨.inr (.inr ⟨'い', rfl, by decide⟩), by decide⟩, fun position inside => Nat.le_of_lt_succ inside.2⟩
  · have reading : c.reading = ['あ', 'い', 'う'] := by decide +kernel
    have place : c.cursor = 2 := by decide +kernel
    show IsLeast {position | LegalBoundary c.reading position ∧ c.cursor < position} 3
    rw [reading, place]
    exact ⟨⟨.inr (.inl rfl), by decide⟩, fun position inside => inside.2⟩
  · intro position legal
    have length : (c.moveCursor 1).1.reading.length = 3 := by decide +kernel
    have place : (c.moveCursor 1).1.cursor = 3 := by decide +kernel
    have within : position ≤ (c.moveCursor 1).1.reading.length := legal.le_length
    show position ≤ (c.moveCursor 1).1.cursor
    omega

/-- Before the cursor in a text with as many characters as there are positions, a deletion takes the whole text and not
its last character only. -/
theorem backspaceAtCursor_overflow :
    ¬∀ calls : List ComposerCall,
      let c := exec (LocalKanaComposer.call .scalars) empty calls
      c.pending = [] →
        ∀ boundary, IsGreatest {position | LegalBoundary c.stable position ∧ position < c.cursor} boundary →
          (c.backspaceAtCursor .scalars).reading = c.reading.take boundary ++ c.reading.drop c.cursor := by
  intro every
  obtain ⟨n, count⟩ : ∃ n, n + 1 = 2 ^ 32 := ⟨2 ^ 32 - 1, by decide⟩
  obtain ⟨_, finished, stable, reading, _⟩ := typed_letters n
  have exact' := every (List.replicate (n + 1) (.push 'a' .direct))
  have represented := run_represented .scalars (List.replicate (n + 1) (.push 'a' .direct))
  generalize exec (LocalKanaComposer.call .scalars) empty (List.replicate (n + 1) (.push 'a' .direct)) = c at *
  have place : c.cursor = n + 1 := by rw [cursor, stable, finished]; simp
  have last : IsGreatest {position | LegalBoundary c.stable position ∧ position < c.cursor} n := by
    refine ⟨⟨.inr (.inr ⟨'a', ?_, by decide⟩), by rw [place]; exact Nat.lt_succ_self n⟩, fun position inside => ?_⟩
    · rw [stable, List.getElem?_replicate, if_pos (Nat.lt_succ_self n)]
    · have below := inside.2
      omega
  have long : ¬c.stable.length < 2 ^ 32 := by rw [stable, List.length_replicate]; omega
  have kept := exact' finished n last
  rw [backspaceAtCursor, deleteBeforeCursor_stable .scalars true finished, retainedLen_of_long .scalars long,
    takeBytes_zero, represented.drop_cursor, reading] at kept
  have length := congrArg List.length kept
  simp only [List.nil_append, List.length_append, List.length_take, List.length_replicate] at length
  omega

end Claims

end LocalKanaComposer

end Nospacekey
