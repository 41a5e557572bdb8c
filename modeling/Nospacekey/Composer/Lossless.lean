import Nospacekey.Composer.Originals

/-! Nothing that was typed is lost from the original input, and nothing else gets into it. -/

namespace Nospacekey

open Utf8 Runs Tiling

/-- Units that cover some positions are laid out over them. -/
theorem Covers.laid {units : List InputUnit} {start stop : Nat} (covers : Covers units start stop) :
    Laid units start stop := by
  induction units generalizing start with
  | nil => exact Laid.nil _ _
  | cons unit rest ih =>
    have later : Covers rest unit.stop stop := covers.2.2
    have behind := ih later
    refine ⟨List.pairwise_cons.mpr ⟨fun v member => (behind.inside v member).1, behind.ordered⟩, fun u member => ?_⟩
    have filled := covers.head rfl
    rcases List.mem_cons.mp member with rfl | inRest
    · exact ⟨Nat.le_of_eq filled.1.symm, filled.2, (covers.bounds u List.mem_cons_self).2⟩
    · obtain ⟨starts, more, ends⟩ := behind.inside u inRest
      exact ⟨by omega, more, ends⟩

/-- A unit with keys is appended to units that cover what is before it. -/
theorem InputJournal.append_units {journal : InputJournal} {position length : Nat} {original : Text}
    (covers : Covers journal.units 0 position) (filled : 0 < length) (keys : original ≠ []) :
    (journal.append position (position + length) original).units =
      journal.units ++ [{ start := position, stop := position + length, original := original }] := by
  have kept : (journal.units.filter fun unit => unit.stop ≤ position) = journal.units :=
    List.filter_eq_self.mpr fun u member => by simpa using (covers.bounds u member).2
  rw [append_of_filled _ (Nat.lt_add_of_pos_right filled) keys, retainPrefix_units covers.laid]
  simp only [kept]

namespace LocalKanaComposer

/-- The keys were typed one after the other: the units cover the stable text and have all of them but
the pending ones. -/
structure Typed (keys : Text) (c : LocalKanaComposer) : Prop where
  suffix : c.suffix = []
  covers : Covers c.journal.units 0 c.stable.length
  keys : c.journal.units.flatMap InputUnit.original ++ c.pending = keys

section Typed

variable {c : LocalKanaComposer} {keys : Text}

/-- A unit that is typed covers the text that it adds. -/
theorem covers_appendInputUnit (covers : Covers c.journal.units 0 c.stable.length) {text original : Text}
    (filled : text ≠ []) (typed : original ≠ []) (style : InputStyle) :
    (c.appendInputUnit text style original).journal.units =
        c.journal.units ++ [{ start := c.stable.length, stop := c.stable.length + text.length, original := original }] ∧
      Covers (c.appendInputUnit text style original).journal.units 0
        (c.appendInputUnit text style original).stable.length := by
  have length := List.length_pos_iff.mpr filled
  have units := InputJournal.append_units covers length typed
  refine ⟨units, ?_⟩
  have stable : (c.appendInputUnit text style original).stable.length = c.stable.length + text.length :=
    List.length_append
  rw [stable]
  show Covers (c.journal.append c.stable.length (c.stable.length + text.length) original).units _ _
  rw [units]
  exact covers.append ⟨rfl, Nat.lt_add_of_pos_right length, rfl⟩

/-- A unit of the parser adds text. -/
theorem nextUnit_text {pending : Text} {unit : RomanUnit} (found : nextUnit pending = some unit) : unit.text ≠ [] := by
  cases nextUnit_parses found with
  | converted _ _ _ nonempty _ => exact nonempty
  | frozen => simp

/-- The parser moves keys from the pending ones to its units. -/
theorem Typed.advanceWithin (typed : Typed keys c) (fuel : Nat) : Typed keys (c.advanceWithin fuel) := by
  induction fuel generalizing c with
  | zero => exact typed
  | succ fuel ih =>
    unfold LocalKanaComposer.advanceWithin
    split
    · exact typed
    rename_i unit found
    obtain ⟨whole, some'⟩ := nextUnit_original found
    obtain ⟨units, covers⟩ := covers_appendInputUnit typed.covers (nextUnit_text found) some' unit.style
    refine ih ⟨typed.suffix, covers, ?_⟩
    show (c.appendInputUnit unit.text unit.style unit.original).journal.units.flatMap InputUnit.original ++ unit.rest = keys
    rw [units, List.flatMap_append, List.append_assoc, ← typed.keys, whole]
    simp

/-- With the cursor behind all units, nothing is set apart. -/
theorem Typed.detached (typed : Typed keys c) :
    (c.journal.detachSuffix c.cursor).1.units = c.journal.units ∧ (c.journal.detachSuffix c.cursor).2 = ⟨[]⟩ := by
  obtain ⟨before, after⟩ := InputJournal.detachSuffix_units typed.covers.laid c.cursor
  have inside : ∀ u ∈ c.journal.units, u.start < c.cursor ∧ u.stop ≤ c.cursor := by
    intro u member
    obtain ⟨_, filled, ends⟩ := typed.covers.laid.inside u member
    have : c.stable.length ≤ c.cursor := Nat.le_add_right _ _
    omega
  constructor
  · rw [before, List.filter_filter]
    exact List.filter_eq_self.mpr fun u member => by simpa using ⟨(inside u member).2, (inside u member).1⟩
  · rw [after]
    unfold InputJournal.removePrefix
    have none' : (c.journal.units.filter fun unit => c.cursor ≤ unit.start) = [] :=
      List.filter_eq_nil_iff.mpr fun u member => by
        have := (inside u member).1
        simp
        omega
    rw [none']
    rfl

/-- Nothing is put back where nothing was set apart. -/
theorem appendSuffix_nil (journal : InputJournal) (position : Nat) : journal.appendSuffix ⟨[]⟩ position = journal := by
  simp [InputJournal.appendSuffix]

/-- A character that is typed behind the others is the last of the keys. -/
theorem Typed.push (typed : Typed keys c) (ch : Char) (style : InputStyle) : Typed (keys ++ [ch]) (c.push ch style) := by
  obtain ⟨before, after⟩ := typed.detached
  suffices edited : ∀ d : LocalKanaComposer, Typed (keys ++ [ch]) d →
      Typed (keys ++ [ch]) { d with journal := d.journal.appendSuffix ⟨[]⟩ d.cursor }.refreshReading by
    unfold LocalKanaComposer.push withDetached
    dsimp only
    rw [after]
    refine edited _ ?_
    cases style with
    | kana =>
      have start : Typed (keys ++ [ch])
          { c with journal := (c.journal.detachSuffix c.cursor).1, pending := c.pending ++ [ch] } := by
        refine ⟨typed.suffix, ?_, ?_⟩
        · show Covers (c.journal.detachSuffix c.cursor).1.units 0 c.stable.length
          rw [before]
          exact typed.covers
        · show (c.journal.detachSuffix c.cursor).1.units.flatMap InputUnit.original ++ (c.pending ++ [ch]) = _
          rw [before, ← typed.keys, List.append_assoc]
      exact start.advanceWithin _
    | direct =>
      have start : Typed (c.journal.units.flatMap InputUnit.original)
          { c with journal := (c.journal.detachSuffix c.cursor).1, automaticLiterals := [], pending := [] } := by
        refine ⟨typed.suffix, ?_, ?_⟩
        · show Covers (c.journal.detachSuffix c.cursor).1.units 0 c.stable.length
          rw [before]
          exact typed.covers
        · show (c.journal.detachSuffix c.cursor).1.units.flatMap InputUnit.original ++ [] = _
          rw [before, List.append_nil]
      -- The pending keys are a unit of their own, if there are any.
      have frozen : Typed keys ({ c with
          journal := (c.journal.detachSuffix c.cursor).1
          automaticLiterals := []
          pending := [] }.appendInputUnit c.pending .direct c.pending) := by
        rw [← typed.keys]
        by_cases empty : c.pending = []
        · rw [empty, List.append_nil]
          have same : ({ c with
              journal := (c.journal.detachSuffix c.cursor).1
              automaticLiterals := []
              pending := [] }.appendInputUnit [] .direct []).stable = c.stable := List.append_nil _
          refine ⟨typed.suffix, ?_, ?_⟩
          · rw [same]
            show Covers ((c.journal.detachSuffix c.cursor).1.append c.stable.length _ []).units 0 c.stable.length
            rw [InputJournal.append_nil]
            exact start.covers
          · show ((c.journal.detachSuffix c.cursor).1.append c.stable.length _ []).units.flatMap InputUnit.original ++ [] = _
            rw [InputJournal.append_nil]
            exact start.keys
        · obtain ⟨units, covers⟩ := covers_appendInputUnit start.covers empty empty .direct
          refine ⟨typed.suffix, covers, ?_⟩
          rw [units, List.flatMap_append]
          show ((c.journal.detachSuffix c.cursor).1.units.flatMap InputUnit.original ++ _) ++ [] = _
          rw [before]
          simp
      obtain ⟨units, covers⟩ := covers_appendInputUnit frozen.covers
        (show [ch] ≠ [] by simp) (show [ch] ≠ [] by simp) .direct
      refine ⟨typed.suffix, covers, ?_⟩
      rw [units, List.flatMap_append]
      have rest := frozen.keys
      have none' : ({ c with
          journal := (c.journal.detachSuffix c.cursor).1
          automaticLiterals := []
          pending := [] }.appendInputUnit c.pending .direct c.pending).pending = [] := rfl
      rw [none', List.append_nil] at rest
      rw [rest]
      show (keys ++ [ch]) ++ [] = _
      rw [List.append_nil]
  intro d kept
  rw [appendSuffix_nil]
  exact ⟨kept.suffix, kept.covers, kept.keys⟩

/-- The original input up to the cursor is all of the keys. -/
theorem Typed.originalInput (typed : Typed keys c) (filled : keys ≠ []) : c.originalInput 0 c.cursor = some keys := by
  rw [originalInput_eq]
  unfold inputJournal
  split
  · rename_i empty
    have empty : c.pending = [] := by simpa using empty
    have all := typed.keys
    rw [empty, List.append_nil] at all
    have length : c.cursor = c.stable.length := by rw [cursor, empty]; rfl
    have some' : c.journal.units.map InputUnit.span ≠ [] := by
      intro none'
      rw [List.map_eq_nil_iff.mp none'] at all
      exact filled all.symm
    have less : 0 < c.stable.length := by
      rcases Nat.eq_zero_or_pos c.stable.length with zero | more
      · exact absurd (Tiles.eq_nil_iff typed.covers |>.mpr zero.symm) some'
      · exact more
    rw [length]
    exact (InputJournal.original_eq_some_iff typed.covers.laid).mpr
      ⟨less, [], c.journal.units, [], by simp, typed.covers, all.symm⟩
  · rename_i pending
    have pending : c.pending ≠ [] := by simpa using pending
    obtain ⟨before, after⟩ := typed.detached
    have covers : Covers (c.journal.detachSuffix c.cursor).1.units 0 c.stable.length := by
      rw [before]
      exact typed.covers
    dsimp only
    rw [after, appendSuffix_nil]
    have length := List.length_pos_iff.mpr pending
    have units := InputJournal.append_units covers length pending
    have whole : Covers ((c.journal.detachSuffix c.cursor).1.append c.stable.length c.cursor c.pending).units 0 c.cursor := by
      show Covers ((c.journal.detachSuffix c.cursor).1.append c.stable.length (c.stable.length + c.pending.length)
        c.pending).units 0 (c.stable.length + c.pending.length)
      rw [units]
      exact covers.append ⟨rfl, Nat.lt_add_of_pos_right length, rfl⟩
    refine (InputJournal.original_eq_some_iff whole.laid).mpr
      ⟨Nat.lt_of_lt_of_le length (Nat.le_add_left _ _), [], _, [], by simp, whole, ?_⟩
    have keys' := typed.keys
    rw [← before] at keys'
    show keys = ((c.journal.detachSuffix c.cursor).1.append c.stable.length (c.stable.length + c.pending.length)
      c.pending).units.flatMap InputUnit.original
    rw [units, List.flatMap_append, ← keys']
    simp

end Typed

section Overflow

variable {c : LocalKanaComposer} {keys : Text}

/-- A letter that is typed as it is behind finished text is a unit of its own. -/
theorem Typed.push_direct (typed : Typed keys c) (finished : c.pending = []) (ch : Char) :
    (c.push ch .direct).stable = c.stable ++ [ch] ∧ (c.push ch .direct).pending = [] ∧
      (c.push ch .direct).reading = c.stable ++ [ch] ∧
      (c.push ch .direct).journal.units = c.journal.units ++
        [{ start := c.stable.length, stop := c.stable.length + 1, original := [ch] }] := by
  obtain ⟨before, after⟩ := typed.detached
  have covers : Covers (c.journal.detachSuffix c.cursor).1.units 0 c.stable.length := by
    rw [before]
    exact typed.covers
  have units := InputJournal.append_units covers Nat.one_pos (show [ch] ≠ [] by simp)
  rw [before] at units
  unfold LocalKanaComposer.push withDetached
  simp only [after, appendSuffix_nil, finished, appendInputUnit, appendStable, refreshReading, typed.suffix,
    List.append_nil, List.length_nil, Nat.add_zero, List.length_singleton]
  refine ⟨trivial, trivial, trivial, ?_⟩
  have same : (c.journal.detachSuffix c.cursor).1.append c.stable.length c.stable.length [] =
      (c.journal.detachSuffix c.cursor).1 := InputJournal.append_nil _ _ _
  rw [same]
  exact units

/-- Letters typed as they are, one after the other. -/
theorem typed_letters (n : Nat) :
    let c := exec (LocalKanaComposer.call .scalars) empty (List.replicate (n + 1) (.push 'a' .direct))
    Typed (List.replicate (n + 1) 'a') c ∧ c.pending = [] ∧ c.stable = List.replicate (n + 1) 'a' ∧
      c.reading = List.replicate (n + 1) 'a' ∧
      ∃ rest, c.journal.units = { start := 0, stop := 1, original := ['a'] } :: rest := by
  induction n with
  | zero =>
    have typed : Typed [] empty := ⟨rfl, rfl, rfl⟩
    exact ⟨typed.push 'a' .direct, by decide, by decide, by decide, [], by decide⟩
  | succ n ih =>
    rw [List.replicate_succ' (n := n + 1), exec_append]
    obtain ⟨typed, finished, stable, _, rest, units⟩ := ih
    have last := typed.push_direct finished 'a'
    rw [stable, units] at last
    rw [List.replicate_succ' (n := n + 1)]
    exact ⟨typed.push 'a' .direct, last.2.1, last.1, last.2.2.1, _, last.2.2.2⟩

end Overflow

section Claims

variable (segmentation : Segmentation)

end Claims

end LocalKanaComposer

end Nospacekey
