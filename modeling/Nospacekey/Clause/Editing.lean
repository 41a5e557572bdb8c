import Nospacekey.Clause.Effects

/-! The local edits of the clause model keep the partition of the reading. -/

namespace Nospacekey

open Tiling

variable {τ : Type}

namespace ClauseConversion

/-- An edit that withdraws everything it could have invalidated. -/
theorem reshaped_of_cleared {m m' : ClauseConversion τ} (formed : m.WellFormed → m'.WellFormed)
    (revision : m.revision < m'.revision) (learning : m'.learningIdentity = m.learningIdentity)
    (lastRequestId : m'.lastRequestId = m.lastRequestId)
    (tokens : ∀ token ∈ m'.clauseTokens, token ∈ m.clauseTokens) (sentence : m'.sentenceToken = none)
    (issued : m'.issued = ∅) (cache : m'.cache = ∅) (window : m'.window = .closed)
    (boundary : ∀ entry, m'.boundaryRequest = some entry → m.boundaryRequest = some entry) :
    Reshaped m m' where
  formed := formed
  revision := revision
  learning := learning
  sentence := .inl sentence
  lastRequestId := lastRequestId
  tokens := tokens
  issued := fun _ _ found => (lookup_empty_ne_some (issued ▸ found)).elim
  boundary := boundary
  cache := fun _ _ found => (lookup_empty_ne_some (cache ▸ found)).elim
  window := window

section ReadingEdit

variable (m : ClauseConversion τ)

/-- Replacing a clause by one with its id and interval keeps the ranges. -/
theorem map_clauseRange_set {clauses : List (LocalClause τ)} {index : Nat} {old new : LocalClause τ}
    (found : clauses[index]? = some old) (same : clauseRange new = clauseRange old) :
    (clauses.set index new).map clauseRange = clauses.map clauseRange := by
  -- Setting an element of a list to its own value changes nothing.
  rw [List.map_set, same]
  refine List.ext_getElem? fun i => ?_
  rw [List.getElem?_set]
  split
  · subst i
    simp [found]
    exact (List.getElem?_eq_some_iff.mp found).1
  · rfl

/-- Rewriting each clause within its id and interval keeps the ranges. -/
theorem map_clauseRange_mapIdx {clauses : List (LocalClause τ)}
    {f : Nat → LocalClause τ → LocalClause τ}
    (same : ∀ index clause, clauseRange (f index clause) = clauseRange clause) :
    (clauses.mapIdx f).map clauseRange = clauses.map clauseRange := by
  refine List.ext_getElem? fun i => ?_
  simp only [List.getElem?_map, List.getElem?_mapIdx]
  cases clauses[i]? with
  | none => rfl
  | some clause => simp only [Option.map_some, same]

/-- Starting a reading edit shows one clause as its reading. -/
theorem beginReadingEdit_edited (index : Nat) : Edited m (m.beginReadingEdit index).1 := by
  unfold beginReadingEdit
  split
  · exact .quiet (Quiet.refl m)
  · rename_i clause found
    split
    · exact .quiet (Quiet.refl m)
    · rename_i revision added
      have member : clause ∈ m.clauses := List.mem_of_getElem? found
      have inside : index < m.clauses.length := (List.getElem?_eq_some_iff.mp found).1
      refine .reshaped (reshaped_of_cleared ?_ ?_ rfl rfl ?_ rfl rfl rfl rfl
        (fun _ absurdity => by cases absurdity))
      · intro formed
        refine formed.reshow rfl (map_clauseRange_set found rfl) rfl ?_ ?_
        · intro other changed isReading
          rcases List.mem_or_eq_of_mem_set changed with old | new
          · exact formed.shown other old isReading
          · subst new; rfl
        · intro _
          simpa [closeWindow] using inside
      · have := u64CheckedAdd_eq_some added
        simp only [closeWindow]
        omega
      · refine clauseTokens_subset fun other changed => ?_
        rcases List.mem_or_eq_of_mem_set changed with old | new
        · exact .inr ⟨other, old, rfl⟩
        · subst new; exact .inl rfl

/-- Escape closes the window, or shows readings in place of surfaces. -/
theorem escape_edited : Edited m m.escape.1 := by
  unfold escape
  split
  · exact .quiet (closeWindow_quiet m)
  · rename_i unopened
    split
    · exact .quiet (Quiet.refl m)
    · split
      · exact .quiet (Quiet.refl m)
      · rename_i revision added
        have closed : m.window = .closed := by
          cases window : m.window <;> simp_all [CandidateWindow.isClosed]
        -- A reverted clause is the old one or a reading clause over the same interval.
        have reverted : ∀ (all : Bool) index clause, m.revertClause all index clause = clause ∨
            m.revertClause all index clause =
              { clause with surface := m.readingOf clause.start clause.stop, source := .reading } := by
          intro all index clause
          unfold revertClause
          split
          · exact .inr rfl
          · exact .inl rfl
        have origin : ∀ (all : Bool), ∀ clause ∈ m.clauses.mapIdx (m.revertClause all),
            clause ∈ m.clauses ∨ clause.source = .reading ∧
              clause.surface = m.readingOf clause.start clause.stop := by
          intro all clause member
          obtain ⟨index, inside, rfl⟩ := List.mem_mapIdx.mp member
          rcases reverted all index m.clauses[index] with kept | shown
          · rw [kept]; exact .inl (List.getElem_mem inside)
          · rw [shown]; exact .inr ⟨rfl, rfl⟩
        refine .reshaped (reshaped_of_cleared ?_ ?_ rfl rfl ?_ rfl rfl rfl closed
          (fun _ found => found))
        · intro formed
          refine formed.reshow rfl ?_ rfl ?_ ?_
          · refine map_clauseRange_mapIdx fun index clause => ?_
            rcases reverted _ index clause with kept | shown
            · rw [kept]
            · rw [shown]; rfl
          · intro clause member isReading
            rcases origin _ clause member with old | shown
            · exact formed.shown clause old isReading
            · exact shown.2
          · intro some
            simp only [List.length_mapIdx]
            exact formed.selected (by simpa [List.mapIdx_eq_nil_iff] using some)
        · have := u64CheckedAdd_eq_some added
          dsimp only
          omega
        · refine clauseTokens_subset fun clause member => ?_
          rcases origin _ clause member with old | shown
          · exact .inr ⟨clause, old, rfl⟩
          · exact .inl (by rw [shown.1]; rfl)

end ReadingEdit

section Display

variable (m : ClauseConversion τ)

/-- Whole-surface replacement merges the clauses into one local surface. -/
theorem replaceWholeSurface_edited (surface : Text) : Edited m (m.replaceWholeSurface surface).1 := by
  unfold replaceWholeSurface
  dsimp only
  split
  · rename_i revision first added found
    have member : first ∈ m.clauses := List.mem_of_mem_head? found
    refine .reshaped (reshaped_of_cleared ?_ ?_ rfl rfl ?_ rfl rfl rfl rfl
      (fun _ absurdity => by cases absurdity))
    · intro formed
      -- The single clause covers what all clauses covered, under the id of the first.
      have nonempty : m.clauses ≠ [] := List.ne_nil_of_mem member
      have length := List.length_pos_iff.mpr nonempty
      have tail : m.clauses.getLast? = some (m.clauses.getLast nonempty) :=
        List.getLast?_eq_some_getLast nonempty
      have spanHead : (m.clauses.map LocalClause.span).head? = some first.span := by
        rw [List.head?_map, found]; rfl
      have spanTail : (m.clauses.map LocalClause.span).getLast? = some (m.clauses.getLast nonempty).span := by
        rw [List.getLast?_map, tail]; rfl
      obtain ⟨start, stop, _⟩ := formed.tiles.ends spanHead spanTail
      have atFront : m.clauses[0]? = some first := by rw [← List.head?_eq_getElem?, found]
      have atBack : m.clauses[m.clauses.length - 1]? = some (m.clauses.getLast nonempty) := by
        rw [← List.getLast?_eq_getElem?, tail]
      refine formed.merge (Nat.zero_le (m.clauses.length - 1)) atFront atBack
        { id := first.id, start := 0, stop := m.reading.length, surface := surface, source := .localSurface }
        rfl start.symm stop.symm (fun isReading => by cases isReading) rfl ?_ rfl rfl
      rw [Nat.sub_add_cancel length]
      simp [Tiling.splice]
    · have := u64CheckedAdd_eq_some added
      dsimp only
      omega
    · refine clauseTokens_subset fun clause member => ?_
      simp only [List.mem_singleton] at member
      subst member
      exact .inl rfl
  · exact .quiet (clearCancelStage_quiet m)

/-- A notation change merges the clauses between two edges into one. -/
theorem transformNotation_edited (start stop : Nat) (kind : Notation) (original : Option Text) :
    Edited m (m.transformNotation start stop kind original).1 := by
  unfold transformNotation
  dsimp only
  split
  · rename_i first last atStart atStop
    split
    · exact .quiet (clearCancelStage_quiet m)
    · rename_i ordered
      rw [Nat.not_lt] at ordered
      split
      · rename_i revision front added found
        have front_start : front.start = start := by
          obtain ⟨inside, holds, _⟩ := List.findIdx?_eq_some_iff_getElem.mp atStart
          rw [List.getElem?_eq_some_iff] at found
          obtain ⟨_, rfl⟩ := found
          simpa using holds
        obtain ⟨insideLast, holds, _⟩ := List.findIdx?_eq_some_iff_getElem.mp atStop
        have back_stop : m.clauses[last].stop = stop := by simpa using holds
        have atBack : m.clauses[last]? = some m.clauses[last] := List.getElem?_eq_getElem insideLast
        -- The shown surface is a reading only for the plain reading of the interval.
        have shown : (m.notationSurface start stop kind original).2.1 = .reading →
            (m.notationSurface start stop kind original).1 = m.readingOf start stop := by
          unfold notationSurface
          cases kind <;> simp
        have tokenless : (m.notationSurface start stop kind original).2.1.token = none := by
          unfold notationSurface
          cases kind <;> rfl
        refine .reshaped
          { formed := ?_, revision := ?_, learning := rfl, sentence := .inr rfl, lastRequestId := rfl
            tokens := ?_, issued := fun _ _ none => (lookup_empty_ne_some none).elim
            boundary := fun _ absurdity => by cases absurdity
            cache := fun _ _ kept => ⟨rfl, Table.lookup_of_lookup_retain kept⟩, window := rfl }
        · intro formed
          exact formed.merge ordered found atBack _ (by rfl) front_start.symm back_stop.symm shown rfl
            rfl rfl rfl
        · have := u64CheckedAdd_eq_some added
          dsimp only
          omega
        · refine clauseTokens_subset fun clause member => ?_
          rcases mem_or_mem_of_mem_splice member with old | new
          · exact .inr ⟨clause, old, rfl⟩
          · simp only [List.mem_singleton] at new
            subst new
            exact .inl tokenless
      · exact .quiet (clearCancelStage_quiet m)
  · exact .quiet (clearCancelStage_quiet m)

end Display

section Resize

variable {m : ClauseConversion τ}

/-- In a sorted list, the first position above a bound is at most any position above it. -/
theorem find_above_le {positions : List Nat} (sorted : positions.Pairwise (· < ·)) {bound found other : Nat}
    (first : (positions.find? fun position => decide (bound < position)) = some found)
    (member : other ∈ positions) (above : bound < other) : found ≤ other := by
  obtain ⟨_, front, back, rfl, skipped⟩ := List.find?_eq_some_iff_append.mp first
  rcases List.mem_append.mp member with early | late
  · simpa [above] using skipped other early
  · rcases List.mem_cons.mp late with same | behind
    · omega
    · have := (List.pairwise_append.mp sorted).2.1
      exact ((List.pairwise_cons.mp this).1 other behind).le

/-- The boundaries of a well-formed reading are listed in order. -/
theorem boundaries_of_toOption {reading : Text} {boundaries : List Nat}
    (listed : (legalBoundaries reading).toOption = some boundaries) :
    legalBoundaries reading = .ok boundaries := by
  cases built : legalBoundaries reading with
  | error _ => rw [built] at listed; cases listed
  | ok found => rw [built] at listed; exact congrArg _ (Option.some.inj listed)

/-- The new end of the selection is a legal boundary inside it and its right neighbour. -/
theorem resize_target (formed : m.WellFormed) {selected : LocalClause τ} {boundaries : List Nat}
    {direction : Int} {nextStop : Nat} (atSelected : m.clauses[m.selected]? = some selected)
    (built : legalBoundaries m.reading = .ok boundaries)
    (target : (if 0 < direction then boundaries.find? fun position => decide (selected.stop < position)
      else boundaries.reverse.find? fun position =>
        decide (position < selected.stop) && decide (selected.start < position)) = some nextStop) :
    LegalBoundary m.reading nextStop ∧ selected.start < nextStop ∧
      nextStop ≤ m.clauses[m.selected + 1]?.elim selected.stop LocalClause.stop := by
  have member := List.mem_of_getElem? atSelected
  have inside := formed.bounds member
  -- The right neighbour starts where the selection ends, and without one the reading ends there.
  have edge : selected.stop ≤ m.clauses[m.selected + 1]?.elim selected.stop LocalClause.stop ∧
      (m.clauses[m.selected + 1]? = none → selected.stop = m.reading.length) ∧
      ∀ right, m.clauses[m.selected + 1]? = some right → selected.stop < right.stop := by
    cases right : m.clauses[m.selected + 1]? with
    | none =>
      refine ⟨le_rfl, fun _ => ?_, fun _ absurdity => (by cases absurdity)⟩
      have last : m.clauses.length = m.selected + 1 := by
        have := (List.getElem?_eq_some_iff.mp atSelected).1
        have := List.getElem?_eq_none_iff.mp right
        omega
      have tail : (m.clauses.map LocalClause.span).getLast? = some selected.span := by
        rw [List.getLast?_eq_getElem?, List.length_map, last, List.getElem?_map, Nat.add_sub_cancel,
          atSelected]
        rfl
      have nonempty : m.clauses ≠ [] := List.ne_nil_of_mem member
      have head : (m.clauses.map LocalClause.span).head? = some (m.clauses.head nonempty).span := by
        rw [List.head?_map, List.head?_eq_some_head nonempty]; rfl
      exact (formed.tiles.ends head tail).2.1
    | some right' =>
      have tiles := formed.tiles
      rw [← List.take_append_drop (m.selected + 1) m.clauses, List.map_append] at tiles
      obtain ⟨mid, left, behind⟩ := tiles_append.mp tiles
      have inTake : selected ∈ m.clauses.take (m.selected + 1) :=
        List.mem_iff_getElem?.mpr ⟨m.selected, by
          rw [List.getElem?_take_of_lt (by omega), atSelected]⟩
      have inDrop : right' ∈ m.clauses.drop (m.selected + 1) :=
        List.mem_iff_getElem?.mpr ⟨0, by rw [List.getElem?_drop, Nat.add_zero, right]⟩
      have below := (left.bounds (List.mem_map_of_mem inTake)).2.2
      have above := behind.bounds (List.mem_map_of_mem inDrop)
      have onward : selected.stop < right'.stop :=
        lt_of_le_of_lt (le_trans below above.1) above.2.1
      refine ⟨onward.le, fun absurdity => (by cases absurdity), ?_⟩
      rintro _ ⟨⟩
      exact onward
  split at target
  · -- Growing takes the next boundary, and the right neighbour's end is one further boundary.
    have bounded := target
    obtain ⟨above, front, back, shape, _⟩ := List.find?_eq_some_iff_append.mp target
    have legal : LegalBoundary m.reading nextStop :=
      (mem_legalBoundaries built).mp (by rw [shape]; simp)
    have above : selected.stop < nextStop := by simpa using above
    refine ⟨legal, by omega, ?_⟩
    cases right : m.clauses[m.selected + 1]? with
    | none =>
      have := edge.2.1 right
      have := legal.le_length
      simp only [Option.elim_none]
      omega
    | some right' =>
      refine find_above_le (legalBoundaries_sorted built) bounded ?_ (edge.2.2 right' right)
      exact (mem_legalBoundaries built).mpr (formed.legal_stop (List.mem_of_getElem? right))
  · obtain ⟨within, front, back, shape, _⟩ := List.find?_eq_some_iff_append.mp target
    have legal : LegalBoundary m.reading nextStop := by
      refine (mem_legalBoundaries built).mp (List.mem_reverse.mp ?_)
      rw [shape]; simp
    simp only [Bool.and_eq_true, decide_eq_true_eq] at within
    exact ⟨legal, within.2, le_trans within.1.le edge.1⟩

/-- Moving a boundary of the selection divides it and its right neighbour anew. -/
theorem resizeSelected_edited (direction : Int) : Edited m (m.resizeSelected direction).1 := by
  unfold resizeSelected
  split
  · exact .quiet (Quiet.refl m)
  split
  case h_2 => exact .quiet (Quiet.refl m)
  rename_i selected boundaries atSelected listed
  dsimp only
  split
  · exact .quiet (Quiet.refl m)
  rename_i nextStop target
  split
  · exact .quiet (Quiet.refl m)
  rename_i revision added
  split
  · exact .quiet (Quiet.refl m)
  rename_i firstId numbered
  split
  · exact .quiet (Quiet.refl m)
  rename_i nextId reserved
  have revised := u64CheckedAdd_eq_some added
  have counted := u64CheckedAdd_eq_some reserved
  refine .reshaped (reshaped_of_cleared ?_ (by dsimp only; omega) rfl rfl ?_ rfl rfl rfl rfl
    (fun _ absurdity => by cases absurdity))
  · intro formed
    have built := boundaries_of_toOption listed
    obtain ⟨legal, onward, within⟩ := resize_target formed atSelected built target
    -- The last replaced clause is the right neighbour, or the selection itself when there is none.
    obtain ⟨back, atBack, stop⟩ : ∃ back, m.clauses[m.selected +
        if m.clauses[m.selected + 1]?.isSome then 1 else 0]? = some back ∧
        back.stop = m.clauses[m.selected + 1]?.elim selected.stop LocalClause.stop := by
      cases right : m.clauses[m.selected + 1]? with
      | none => exact ⟨selected, atSelected, rfl⟩
      | some right' => exact ⟨right', right, rfl⟩
    have tailLegal := formed.legal_stop (List.mem_of_getElem? atBack)
    rw [stop] at tailLegal
    refine formed.splice (Nat.le_add_right _ _) atSelected atBack _ rfl
      (congrArg (fun place => Tiling.splice m.clauses m.selected place _) (by omega))
      ?_ ?_ ?_ ?_ ?_ ?_ ?_ (fun none => by rw [none] at numbered; cases numbered) rfl
    · split <;> simp
    · rw [stop]
      split
      · rename_i suffix
        exact ⟨rfl, onward, rfl, suffix, rfl⟩
      · rename_i whole
        refine ⟨rfl, onward, ?_⟩
        simp only [Nat.not_lt] at whole
        exact le_antisymm within whole
    · split <;> simp [makeReading, legal, tailLegal]
    · split <;> simp [makeReading]
    · split <;> simp [makeReading, numbered]
    · intro bound known
      simp only [Option.some.injEq] at known
      split at counted <;> split <;> simp_all [makeReading] <;> omega
    · split <;> simp [makeReading]
  · refine clauseTokens_subset fun clause member => ?_
    rcases mem_or_mem_of_mem_splice member with old | new
    · exact .inr ⟨clause, old, rfl⟩
    · refine .inl ?_
      split at new
      · rcases List.mem_cons.mp new with rfl | new
        · rfl
        · rw [List.mem_singleton.mp new]; rfl
      · rw [List.mem_singleton.mp new]; rfl

end Resize

section Tail

variable (m : ClauseConversion τ)

/-- The clauses before the last one partition the reading up to it. -/
theorem wellFormed_dropLast {m m' : ClauseConversion τ} (formed : m.WellFormed) {last : LocalClause τ}
    (tail : m.clauses.getLast? = some last) (reading : m'.reading = m.reading.take last.start)
    (clauses : m'.clauses = m.clauses.dropLast) (next : m'.nextClauseId = m.nextClauseId)
    (selected : m'.clauses ≠ [] → m'.selected < m'.clauses.length) : m'.WellFormed := by
  have shape : m.clauses = m.clauses.dropLast ++ [last] := by
    obtain ⟨init, split⟩ := List.getLast?_eq_some_iff.mp tail
    rw [split, List.dropLast_concat]
  have inLast : last ∈ m.clauses := by rw [shape]; simp
  have kept : ∀ clause ∈ m'.clauses, clause ∈ m.clauses := fun clause member =>
    (List.dropLast_sublist _).subset (clauses ▸ member)
  have tiles := formed.tiles
  rw [shape, List.map_append] at tiles
  obtain ⟨mid, front, start, _, _⟩ := tiles_append.mp tiles
  have start : last.start = mid := start
  have length : (m.reading.take last.start).length = last.start := by
    have := (formed.bounds inLast)
    simp
    omega
  have within : ∀ clause ∈ m'.clauses, clause.stop ≤ (m.reading.take last.start).length := by
    intro clause member
    rw [length, start]
    exact (front.bounds (List.mem_map_of_mem (clauses ▸ member))).2.2
  have split : m.reading.take last.start ++ m.reading.drop last.start = m.reading :=
    List.take_append_drop _ _
  refine wellFormed_of_stops ?_ ?_ ?_ ?_ ?_ ?_ selected
  · rw [clauses, reading, length, start]
    exact front
  · rw [reading, length]
    have := formed.fits
    have := formed.bounds inLast
    omega
  · intro clause member
    have legal := formed.legal_stop (kept clause member)
    rw [← split] at legal
    have moved : LegalBoundary (m.reading.take last.start ++ []) clause.stop :=
      legal.change_back_of_edge (within clause member) (by rw [List.append_nil]; exact legalBoundary_length _)
    rwa [List.append_nil, ← reading] at moved
  · rw [clauses]
    exact ((List.dropLast_sublist _).map _).nodup formed.distinct
  · intro bound known clause member
    exact formed.below bound (next ▸ known) clause (kept clause member)
  · intro clause member isReading
    have shown := formed.shown clause (kept clause member) isReading
    unfold readingOf at shown ⊢
    rw [← split] at shown
    have moved : slice (m.reading.take last.start ++ m.reading.drop last.start) clause.start clause.stop =
        slice (m.reading.take last.start ++ []) clause.start clause.stop :=
      slice_append_left (within clause member)
    rw [shown, reading, moved, List.append_nil]

/-- Deleting from the display shortens the last surface, or drops the last clause with its reading. -/
theorem deleteDisplayTail_edited (segmentation : Segmentation) :
    Edited m (m.deleteDisplayTail segmentation).1 := by
  unfold deleteDisplayTail
  split
  · exact .quiet (Quiet.refl m)
  rename_i last tail
  split
  · exact .quiet (Quiet.refl m)
  rename_i retainedBytes found
  split
  · exact .quiet (Quiet.refl m)
  rename_i revision added
  have revised := u64CheckedAdd_eq_some added
  split
  · split
    · exact .quiet (Quiet.refl m)
    rename_i readingRevision counted
    refine .reshaped (reshaped_of_cleared ?_ (by simp only [closeWindow]; omega) rfl rfl ?_ rfl rfl rfl rfl
      (fun _ absurdity => by cases absurdity))
    · intro formed
      refine wellFormed_dropLast formed tail rfl rfl rfl fun some => ?_
      have := List.length_pos_iff.mpr some
      simp only [closeWindow] at this ⊢
      omega
    · exact clauseTokens_subset fun clause member =>
        .inr ⟨clause, (List.dropLast_sublist _).subset member, rfl⟩
  · have shape : m.clauses = m.clauses.dropLast ++ [last] := by
      obtain ⟨init, split⟩ := List.getLast?_eq_some_iff.mp tail
      rw [split, List.dropLast_concat]
    -- The shortened clause keeps the id and the interval of the last one.
    have origin : ∀ clause ∈ m.clauses.dropLast ++ [{ last with
          surface := Utf8.takeBytes retainedBytes last.surface, source := .localSurface }],
        clause ∈ m.clauses ∨ clause.source = .localSurface := by
      intro clause member
      rcases List.mem_append.mp member with old | new
      · exact .inl ((List.dropLast_sublist _).subset old)
      · rw [List.mem_singleton.mp new]; exact .inr rfl
    refine .reshaped (reshaped_of_cleared ?_ (by simp only [closeWindow]; omega) rfl rfl ?_ rfl rfl rfl rfl
      (fun _ absurdity => by cases absurdity))
    · intro formed
      refine formed.reshow rfl ?_ rfl ?_ ?_
      · simp only [ranges, closeWindow]
        conv_rhs => rw [shape]
        simp [clauseRange]
      · intro clause member isReading
        rcases origin clause member with old | local'
        · exact formed.shown clause old isReading
        · rw [local'] at isReading; cases isReading
      · intro _
        have length := congrArg List.length shape
        have := formed.selected (by rw [shape]; simp)
        simp only [List.length_append, List.length_singleton, closeWindow] at length ⊢
        omega
    · refine clauseTokens_subset fun clause member => ?_
      rcases origin clause member with old | local'
      · exact .inr ⟨clause, old, rfl⟩
      · exact .inl (by rw [local']; rfl)

end Tail

section Promotion

variable {m m' : ClauseConversion τ}

/-- A reading clause may be appended for text that follows the reading at a legal boundary. -/
theorem wellFormed_append (formed : m.WellFormed) (inhabited : m.clauses ≠ [])
    {suffix : Text} (nonempty : suffix ≠ []) {boundaries : List Nat}
    (built : legalBoundaries (m.reading ++ suffix) = .ok boundaries)
    (edge : m.reading.length ∈ boundaries) {id : Nat} (numbered : m.nextClauseId = some id)
    (reading : m'.reading = m.reading ++ suffix)
    (clauses : m'.clauses = m.clauses ++
      [{ id := id, start := m.reading.length, stop := (m.reading ++ suffix).length
         surface := suffix, source := .reading }])
    (next : m'.nextClauseId = some (id + 1)) (selected : m'.selected = m.selected) : m'.WellFormed := by
  have edge := (mem_legalBoundaries built).mp edge
  have positive := List.length_pos_iff.mpr nonempty
  have split : m.reading ++ [] = m.reading := List.append_nil _
  refine wellFormed_of_stops ?_ ?_ ?_ ?_ ?_ ?_ ?_
  · rw [clauses, reading, List.map_append]
    refine tiles_append.mpr ⟨m.reading.length, formed.tiles, rfl, ?_, rfl⟩
    simp only [LocalClause.span, List.length_append]
    omega
  · rw [reading]
    exact (legalBoundaries_ok_iff.mp built).1
  · intro clause member
    rw [clauses] at member
    rw [reading]
    rcases List.mem_append.mp member with old | new
    · have legal := formed.legal_stop old
      rw [← split] at legal
      exact legal.change_back_of_edge (formed.bounds old).2 edge
    · rw [List.mem_singleton.mp new]
      exact legalBoundary_length _
  · rw [clauses, List.map_append, List.nodup_append]
    refine ⟨formed.distinct, by simp, ?_⟩
    intro one first two second
    obtain ⟨clause, member, rfl⟩ := List.mem_map.mp first
    simp only [List.map_cons, List.map_nil, List.mem_singleton] at second
    have := formed.below id numbered clause member
    omega
  · intro bound known clause member
    rw [next, Option.some.injEq] at known
    rw [clauses] at member
    rcases List.mem_append.mp member with old | new
    · have := formed.below id numbered clause old
      omega
    · rw [List.mem_singleton.mp new]
      dsimp only
      omega
  · intro clause member isReading
    rw [clauses] at member
    unfold readingOf
    rw [reading]
    rcases List.mem_append.mp member with old | new
    · have shown := formed.shown clause old isReading
      unfold readingOf at shown
      rw [← split] at shown
      exact shown.trans (slice_append_left (formed.bounds old).2)
    · rw [List.mem_singleton.mp new]
      simp [slice]
  · intro _
    rw [clauses, selected, List.length_append, List.length_singleton]
    have := formed.selected inhabited
    omega

/-- Promotion freezes the display as it is, or with one reading clause for the typed suffix. -/
theorem promoteLiveDisplay_cases {identity : SnapshotIdentity} {reading text : Text}
    (promoted : m.promoteLiveDisplay identity reading text = some m') : Quiet m m' ∨ Extended m m' := by
  unfold promoteLiveDisplay at promoted
  split at promoted
  · cases promoted
  rename_i admitted
  simp only [Bool.or_eq_true, not_or, Bool.not_eq_true] at admitted
  -- A promoted display has a converted clause, so it is not empty.
  have inhabited : m.clauses ≠ [] := by
    rintro empty
    simp [empty] at admitted
  have isPrefix : m.reading.isPrefixOf reading = true := by simpa using admitted.2
  have shape : m.reading ++ reading.drop m.reading.length = reading :=
    List.prefix_iff_eq_append.mp (List.isPrefixOf_iff_prefix.mp isPrefix)
  dsimp only at promoted
  split at promoted
  · cases promoted
  split at promoted
  · obtain rfl := (Option.some.inj promoted).symm
    exact .inl { Quiet.refl m with }
  rename_i typed
  obtain ⟨start, startFits, promoted⟩ := Option.bind_eq_some_iff.mp promoted
  obtain ⟨stop, stopFits, promoted⟩ := Option.bind_eq_some_iff.mp promoted
  obtain ⟨boundaries, listed, promoted⟩ := Option.bind_eq_some_iff.mp promoted
  split at promoted
  · cases promoted
  rename_i edge
  obtain ⟨id, numbered, promoted⟩ := Option.bind_eq_some_iff.mp promoted
  obtain ⟨next, counted, promoted⟩ := Option.bind_eq_some_iff.mp promoted
  obtain ⟨revision, added, promoted⟩ := Option.bind_eq_some_iff.mp promoted
  obtain rfl := (Option.some.inj promoted).symm
  obtain rfl := (u32TryFrom_eq_some startFits).1
  obtain rfl := (u32TryFrom_eq_some stopFits).1
  have nonempty : reading.drop m.reading.length ≠ [] := by simpa using typed
  have built := boundaries_of_toOption listed
  have edge : m.reading.length ∈ boundaries := by simpa using edge
  rw [u64CheckedAdd_eq_some counted]
  refine .inr
    { formed := fun formed => wellFormed_append formed inhabited nonempty (shape.symm ▸ built) edge numbered
        shape.symm (by rw [shape]) rfl rfl
      revision := by have := u64CheckedAdd_eq_some added; dsimp only; omega
      learning := rfl, sentence := rfl, lastRequestId := rfl, clauses := ⟨_, rfl, rfl⟩, legal := ?_
      issued := rfl, boundary := rfl, cache := rfl, window := rfl }
  intro position legal
  have edge := (mem_legalBoundaries built).mp edge
  have within := legal.le_length
  rw [← shape] at edge
  change LegalBoundary reading position
  rw [← shape]
  rw [← List.append_nil m.reading] at legal
  exact legal.change_back_of_edge within edge

end Promotion

end ClauseConversion

end Nospacekey
