import Nospacekey.Clause.Editing

/-! Replacing the reading of the clause under edit, with the neighbours a combining mark attaches to. -/

namespace Nospacekey

open Tiling

variable {τ : Type}

namespace ClauseConversion

section Interval

variable {m m' : ClauseConversion τ}

/-- The edited range is that of the clause at the edited place. -/
theorem editingRange_eq_some {start stop : Nat} (editing : m.editingRange = some (start, stop)) :
    ∃ clause, m.clauses[m.editedIndex]? = some clause ∧ clause.start = start ∧ clause.stop = stop ∧
      m.mode = .editing ∧ some clause.id = m.editingClause := by
  unfold editingRange editedClause at editing
  split at editing
  · cases editing
  rename_i mode
  obtain ⟨clause, found, same⟩ := Option.map_eq_some_iff.mp editing
  simp only [Prod.mk.injEq] at same
  have holds := List.find?_some found
  rw [List.find?_eq_getElem?_findIdx] at found
  exact ⟨clause, found, same.1, same.2, by simpa using mode, by simpa using holds⟩

/-- A text with a given front and back, at least as long as both, has a middle part between them. -/
theorem exists_middle {reading front back : Text} (isPrefix : front.isPrefixOf reading = true)
    (isSuffix : back.isSuffixOf reading = true) (room : front.length + back.length ≤ reading.length) :
    ∃ middle, reading = front ++ (middle ++ back) := by
  rw [List.isPrefixOf_iff_prefix] at isPrefix
  rw [List.isSuffixOf_iff_suffix] at isSuffix
  obtain ⟨rest, rfl⟩ := isPrefix
  -- The back lies inside what follows the front.
  have inner : back <:+ rest := by
    refine List.suffix_of_suffix_length_le isSuffix (List.suffix_append _ _) ?_
    simp only [List.length_append] at room
    omega
  obtain ⟨middle, rfl⟩ := inner
  exact ⟨middle, rfl⟩

/-- Shifted clauses move by the difference of the two lengths. -/
theorem span_shiftClauses (firstId : Nat) (delta : Int) (later : List (LocalClause τ)) :
    (shiftClauses firstId delta later).map LocalClause.span =
      (later.map LocalClause.span).map fun span => ((span.1 + delta).toNat, (span.2 + delta).toNat) := by
  unfold shiftClauses
  split
  · refine List.ext_getElem? fun i => ?_
    simp only [List.getElem?_map, List.getElem?_mapIdx, Option.map_map]
    rfl
  · rename_i still
    simp only [ne_eq, not_not] at still
    simp [still]

/-- Shifted clauses keep their ids, or take consecutive ones behind the edited clause. -/
theorem id_shiftClauses (firstId : Nat) (delta : Int) (later : List (LocalClause τ)) :
    (delta = 0 ∧ (shiftClauses firstId delta later).map LocalClause.id = later.map LocalClause.id) ∨
      (delta ≠ 0 ∧ (shiftClauses firstId delta later).map LocalClause.id =
        (List.range later.length).map (firstId + 1 + ·)) := by
  unfold shiftClauses
  split
  · rename_i moved
    refine .inr ⟨moved, List.ext_getElem (by simp) fun i _ _ => ?_⟩
    simp [shiftClause]
  · rename_i still
    exact .inl ⟨by simpa using still, rfl⟩

/-- A shifted clause shows what it showed, and is a reading clause only if it was one. -/
theorem mem_shiftClauses {firstId : Nat} {delta : Int} {later : List (LocalClause τ)}
    {clause : LocalClause τ} (member : clause ∈ shiftClauses firstId delta later) :
    ∃ old ∈ later, clause.start = (old.start + delta).toNat ∧ clause.stop = (old.stop + delta).toNat ∧
      clause.surface = old.surface ∧ (clause.source = old.source ∨ clause.source = old.source.retire) := by
  unfold shiftClauses at member
  split at member
  · obtain ⟨index, inside, rfl⟩ := List.mem_mapIdx.mp member
    exact ⟨later[index], List.getElem_mem inside, rfl, rfl, rfl, .inr rfl⟩
  · rename_i still
    simp only [ne_eq, not_not] at still
    exact ⟨clause, member, by simp [still], by simp [still], rfl, .inl rfl⟩

/-- The partition is kept when one interval's reading is replaced at legal edges. -/
theorem replaceInterval_formed (formed : m.WellFormed) {edited : LocalClause τ}
    (atEdited : m.clauses[m.editedIndex]? = some edited) {middle : Text} {firstId : Nat}
    {reading : Text} {newStop : Nat}
    (shape : reading = m.reading.take edited.start ++ (middle ++ m.reading.drop edited.stop))
    (target : newStop = edited.start + middle.length) (fits : reading.length < 2 ^ 32)
    (legalStart : LegalBoundary reading edited.start) (legalStop : LegalBoundary reading newStop)
    (numbered : m.nextClauseId = some firstId) (isReading : m'.reading = reading)
    (clauses : m'.clauses = m.clauses.take m.editedIndex ++
      (if newStop = edited.start then
        shiftClauses firstId (reading.length - m.reading.length) (m.clauses.drop (m.editedIndex + 1))
      else
        { id := firstId, start := edited.start, stop := newStop
          surface := slice reading edited.start newStop, source := .reading } ::
        shiftClauses firstId (reading.length - m.reading.length) (m.clauses.drop (m.editedIndex + 1))))
    (next : m'.nextClauseId = some (firstId + (1 +
      if reading.length ≠ m.reading.length then m.clauses.length - m.editedIndex - 1 else 0)))
    (selected : m'.clauses ≠ [] → m'.selected < m'.clauses.length) : m'.WellFormed := by
  have member := List.mem_of_getElem? atEdited
  have inside := (List.getElem?_eq_some_iff.mp atEdited).1
  have bounds := formed.bounds member
  -- Split the old partition around the edited clause.
  have split : m.clauses = m.clauses.take m.editedIndex ++ edited :: m.clauses.drop (m.editedIndex + 1) := by
    have := List.take_append_drop m.editedIndex m.clauses
    rw [List.drop_eq_getElem_cons inside] at this
    rw [List.getElem?_eq_getElem inside, Option.some.injEq] at atEdited
    rw [atEdited] at this
    exact this.symm
  have ids := formed.distinct
  have tiles := formed.tiles
  have count : m.clauses.length - m.editedIndex - 1 = (m.clauses.drop (m.editedIndex + 1)).length := by
    rw [List.length_drop]; omega
  rw [count] at next
  have inFront : ∀ clause ∈ m.clauses.take m.editedIndex, clause ∈ m.clauses := fun _ =>
    List.mem_of_mem_take
  have inLater : ∀ clause ∈ m.clauses.drop (m.editedIndex + 1), clause ∈ m.clauses := fun _ =>
    List.mem_of_mem_drop
  generalize m.clauses.take m.editedIndex = front at *
  generalize m.clauses.drop (m.editedIndex + 1) = later at *
  rw [split, List.map_append, List.map_cons] at tiles ids
  obtain ⟨mid, frontTiles, startAt, _, laterTiles⟩ := tiles_append.mp tiles
  have startAt : edited.start = mid := startAt
  subst startAt
  have laterTiles : Tiles edited.stop (later.map LocalClause.span) m.reading.length := laterTiles
  -- Both readings share what precedes and what follows the interval.
  obtain ⟨old, oldShape, oldLength⟩ : ∃ old, m.reading =
      m.reading.take edited.start ++ old ++ m.reading.drop edited.stop ∧
        old.length = edited.stop - edited.start := by
    refine ⟨(m.reading.take edited.stop).drop edited.start, ?_, by simp; omega⟩
    rw [show m.reading.take edited.start = (m.reading.take edited.stop).take edited.start by
      rw [List.take_take, Nat.min_eq_left bounds.1.le], List.take_append_drop, List.take_append_drop]
  have frontLength : (m.reading.take edited.start).length = edited.start := by simp; omega
  have backLength : (m.reading.drop edited.stop).length = m.reading.length - edited.stop := by simp
  generalize m.reading.take edited.start = frontText at *
  generalize m.reading.drop edited.stop = backText at *
  have oldEdge : (frontText ++ old).length = edited.stop := by simp; omega
  have newEdge : (frontText ++ middle).length = newStop := by simp; omega
  have length : reading.length = newStop + (m.reading.length - edited.stop) := by
    rw [shape]; simp; omega
  have delta : (reading.length : Int) - m.reading.length = newStop - edited.stop := by omega
  rw [delta] at clauses
  have moved : ∀ position, edited.stop ≤ position →
      (position + ((newStop : Int) - edited.stop)).toNat = newStop + (position - edited.stop) := by
    intro position above; omega
  have shifted : Tiles newStop
      ((shiftClauses firstId (newStop - edited.stop) later).map LocalClause.span) reading.length := by
    rw [span_shiftClauses]
    have mapped := laterTiles.map (fun position => (position + ((newStop : Int) - edited.stop)).toNat)
      (fun x y above before => by omega)
    rwa [moved _ le_rfl, moved _ bounds.2, Nat.sub_self, Nat.add_zero, ← length] at mapped
  -- Where the clauses of the edited model come from.
  have origin : ∀ clause ∈ m'.clauses, clause ∈ front ∨
      (clause.id = firstId ∧ clause.stop = newStop ∧
        clause.surface = slice reading clause.start clause.stop) ∨
      clause ∈ shiftClauses firstId (newStop - edited.stop) later := by
    intro clause inNew
    rw [clauses] at inNew
    rcases List.mem_append.mp inNew with early | late
    · exact .inl early
    · split at late
      · exact .inr (.inr late)
      · rcases List.mem_cons.mp late with rfl | late
        · exact .inr (.inl ⟨rfl, rfl, rfl⟩)
        · exact .inr (.inr late)
  have frontWithin : ∀ clause ∈ front, clause.stop ≤ frontText.length := by
    intro clause early
    rw [frontLength]
    exact (frontTiles.bounds (List.mem_map_of_mem early)).2.2
  have laterAbove : ∀ clause ∈ later, edited.stop ≤ clause.start ∧ clause.start < clause.stop := by
    intro clause late
    have := laterTiles.bounds (List.mem_map_of_mem late)
    exact ⟨this.1, this.2.1⟩
  -- Later ids are old ones, or the consecutive ones reserved behind the edited clause.
  have fresh : ∀ id ∈ (shiftClauses firstId (newStop - edited.stop) later).map LocalClause.id,
      (id < firstId ∧ id ∈ later.map LocalClause.id) ∨ (firstId < id ∧
        id < firstId + (1 + if reading.length ≠ m.reading.length then later.length else 0)) := by
    intro id member
    rcases id_shiftClauses firstId (newStop - edited.stop) later with ⟨_, kept⟩ | ⟨changed, renumbered⟩
    · rw [kept] at member
      obtain ⟨clause, late, rfl⟩ := List.mem_map.mp member
      exact .inl ⟨formed.below firstId numbered clause (inLater clause late), member⟩
    · rw [renumbered] at member
      obtain ⟨offset, within, rfl⟩ := List.mem_map.mp member
      rw [List.mem_range] at within
      rw [if_pos (by omega)]
      exact .inr ⟨by omega, by omega⟩
  refine wellFormed_of_stops ?_ (isReading ▸ fits) ?_ ?_ ?_ ?_ selected
  · rw [clauses, isReading, List.map_append]
    refine tiles_append.mpr ⟨edited.start, frontTiles, ?_⟩
    split
    · rename_i emptied
      rw [← emptied]
      exact shifted
    · refine ⟨rfl, ?_, shifted⟩
      change edited.start < newStop
      omega
  · intro clause inNew
    rw [isReading]
    rcases origin clause inNew with early | ⟨_, stop, _⟩ | late
    · have legal := formed.legal_stop (inFront clause early)
      rw [oldShape, List.append_assoc] at legal
      rw [shape]
      refine legal.change_back_of_edge (frontWithin clause early) ?_
      rw [frontLength, ← shape]
      exact legalStart
    · rw [stop]; exact legalStop
    · obtain ⟨before, late, _, stop, _⟩ := mem_shiftClauses late
      obtain ⟨above, onward⟩ := laterAbove before late
      have legal := formed.legal_stop (inLater before late)
      -- A boundary behind the interval depends on what follows the interval alone.
      rw [oldShape, show before.stop = (frontText ++ old).length + (before.stop - edited.stop) by omega,
        legalBoundary_append_right (by omega)] at legal
      rw [stop, moved _ (by omega), shape, ← List.append_assoc, ← newEdge,
        legalBoundary_append_right (by omega)]
      exact legal
  · rw [clauses, List.map_append]
    have whole : (front.map LocalClause.id ++ firstId ::
        (shiftClauses firstId (newStop - edited.stop) later).map LocalClause.id).Nodup := by
      refine List.nodup_append.mpr ⟨(List.nodup_append.mp ids).1, List.nodup_cons.mpr ⟨?_, ?_⟩, ?_⟩
      · intro repeated
        rcases fresh _ repeated with ⟨_, member⟩ | ⟨above, _⟩
        · obtain ⟨clause, late, same⟩ := List.mem_map.mp member
          have := formed.below firstId numbered clause (inLater clause late)
          omega
        · omega
      · rcases id_shiftClauses firstId (newStop - edited.stop) later with ⟨_, kept⟩ | ⟨_, renumbered⟩
        · rw [kept]
          exact (List.nodup_cons.mp (List.nodup_append.mp ids).2.1).2
        · rw [renumbered]
          exact (List.nodup_range).map fun a b same => by simpa using same
      · intro one early two late same
        obtain ⟨clause, member, rfl⟩ := List.mem_map.mp early
        have := formed.below firstId numbered clause (inFront clause member)
        rcases List.mem_cons.mp late with rfl | late
        · omega
        · rcases fresh _ late with ⟨_, inIds⟩ | ⟨above, _⟩
          · exact (List.nodup_append.mp ids).2.2 _ early _ (List.mem_cons_of_mem _ inIds) same
          · omega
    refine whole.sublist (List.Sublist.append_left ?_ _)
    split
    · exact List.sublist_cons_self _ _
    · exact List.Sublist.refl _
  · intro bound known clause inNew
    rw [next, Option.some.injEq] at known
    rcases origin clause inNew with early | ⟨id, _, _⟩ | late
    · have := formed.below firstId numbered clause (inFront clause early)
      omega
    · omega
    · rcases fresh _ (List.mem_map_of_mem late) with ⟨below, _⟩ | ⟨_, below⟩ <;> omega
  · intro clause inNew plain
    unfold readingOf
    rw [isReading]
    rcases origin clause inNew with early | ⟨_, _, surface⟩ | late
    · rw [formed.shown clause (inFront clause early) plain]
      unfold readingOf
      rw [oldShape, List.append_assoc, shape]
      exact slice_append_left (frontWithin clause early)
    · exact surface
    · obtain ⟨before, late, start, stop, surface, source⟩ := mem_shiftClauses late
      obtain ⟨above, onward⟩ := laterAbove before late
      have plain : before.source = .reading := by
        rcases source with kept | retired
        · rw [← kept]; exact plain
        · rw [retired] at plain; exact (SurfaceSource.retire_eq_reading _).mp plain
      rw [surface, formed.shown before (inLater before late) plain, start, stop, moved _ above,
        moved _ (by omega), shape, ← List.append_assoc, ← newEdge, slice_append_right]
      unfold readingOf
      rw [oldShape]
      conv_lhs =>
        rw [show before.start = (frontText ++ old).length + (before.start - edited.stop) by omega,
          show before.stop = (frontText ++ old).length + (before.stop - edited.stop) by omega]
      exact slice_append_right

/-- The outcome of an attempt: a local edit exactly when it reports one. -/
def Replaced (m : ClauseConversion τ) (result : ClauseConversion τ × LocalEditOutcome) : Prop :=
  (Reshaped m result.1 ∧ (result.2 = .readingChanged ∨ result.2 = .empty)) ∨
    (result.1 = m ∧ result.2 ≠ .readingChanged ∧ result.2 ≠ .empty)

/-- An attempt that reports neither kind of change must have left the model alone. -/
theorem replaced_of_unchanged {m : ClauseConversion τ} {outcome : LocalEditOutcome}
    (changed : outcome ≠ .readingChanged) (emptied : outcome ≠ .empty) : Replaced m (m, outcome) :=
  .inr ⟨rfl, changed, emptied⟩

/-- An accepted replacement is a local edit, and any other outcome leaves the model alone. -/
theorem replaceInterval_replaced {edited : LocalClause τ} {reading : Text}
    {readingRevision newStop : Nat} (atEdited : m.clauses[m.editedIndex]? = some edited)
    (ready : m.WellFormed → reading.length < 2 ^ 32 ∧ LegalBoundary reading edited.start ∧
      LegalBoundary reading newStop ∧ ∃ middle, newStop = edited.start + middle.length ∧
        reading = m.reading.take edited.start ++ (middle ++ m.reading.drop edited.stop)) :
    Replaced m (m.replaceInterval reading readingRevision edited.start newStop) := by
  have inside := (List.getElem?_eq_some_iff.mp atEdited).1
  unfold replaceInterval
  dsimp only
  split
  · exact replaced_of_unchanged (by simp) (by simp)
  rename_i revision added
  split
  · exact replaced_of_unchanged (by simp) (by simp)
  split
  · exact replaced_of_unchanged (by simp) (by simp)
  rename_i firstId numbered
  split
  · exact replaced_of_unchanged (by simp) (by simp)
  rename_i nextId reserved
  have revised := u64CheckedAdd_eq_some added
  have counted := u64CheckedAdd_eq_some reserved
  refine .inl ⟨reshaped_of_cleared ?_ (by simp only [closeWindow]; omega) rfl rfl ?_ rfl rfl rfl rfl
    (fun _ absurdity => by cases absurdity), ?_⟩
  · intro formed
    obtain ⟨fits, legalStart, legalStop, middle, target, shape⟩ := ready formed
    refine replaceInterval_formed formed atEdited shape target fits legalStart legalStop numbered rfl rfl
      (by rw [← counted]; rfl) ?_
    intro some
    have length := List.length_pos_iff.mpr some
    have chosen := formed.selected (List.ne_nil_of_mem (List.mem_of_getElem? atEdited))
    simp only [closeWindow] at length ⊢
    split
    · rename_i emptied
      rw [if_pos emptied] at length
      omega
    · simp only [shiftClauses, List.length_append, List.length_take, List.length_cons]
      split <;> simp <;> omega
  · refine clauseTokens_subset fun clause member => ?_
    simp only [closeWindow] at member
    have shifted : ∀ later, (∀ clause ∈ later, clause ∈ m.clauses) →
        ∀ clause ∈ shiftClauses firstId (reading.length - m.reading.length) later,
        clause.source.token = none ∨ ∃ old ∈ m.clauses, old.source = clause.source := by
      intro later within clause member
      obtain ⟨old, inOld, _, _, _, source⟩ := mem_shiftClauses member
      rcases source with kept | retired
      · exact .inr ⟨old, within old inOld, kept.symm⟩
      · exact .inl (by rw [retired]; exact SurfaceSource.token_retire _)
    rcases List.mem_append.mp member with early | late
    · exact .inr ⟨clause, List.mem_of_mem_take early, rfl⟩
    · split at late
      · exact shifted _ (fun _ => List.mem_of_mem_drop) clause late
      · rcases List.mem_cons.mp late with rfl | late
        · exact .inl rfl
        · exact shifted _ (fun _ => List.mem_of_mem_drop) clause late
  · generalize List.isEmpty _ = emptied
    cases emptied with
    | false => exact .inl rfl
    | true => exact .inr rfl

end Interval

section Absorption

variable {m : ClauseConversion τ}

/-- Merging neighbours into the edited clause keeps the partition and everything but the clauses. -/
theorem absorbNeighbours_spec {first last : Nat} {front back : LocalClause τ}
    (atFront : m.clauses[first]? = some front) (atBack : m.clauses[last]? = some back) :
    m.absorbNeighbours first last =
      { m with
        clauses := splice m.clauses first (last + 1)
          [{ id := front.id, start := front.start, stop := back.stop
             surface := m.readingOf front.start back.stop, source := .reading }]
        selected := first
        editingClause := some front.id } := by
  unfold absorbNeighbours
  rw [atFront, atBack]

/-- A local edit of the merged clauses is a local edit of the clauses themselves. -/
theorem Reshaped.of_absorbNeighbours {m' : ClauseConversion τ} {first last : Nat}
    (ordered : first ≤ last) (within : last < m.clauses.length)
    (effect : Reshaped (m.absorbNeighbours first last) m') : Reshaped m m' := by
  have atFront := List.getElem?_eq_getElem (show first < m.clauses.length by omega)
  have atBack := List.getElem?_eq_getElem within
  rw [absorbNeighbours_spec atFront atBack] at effect
  refine { effect with formed := fun formed => effect.formed ?_, tokens := fun token member => ?_ }
  · exact formed.merge ordered atFront atBack _ (by rfl) (by rfl) (by rfl) (fun _ => by rfl) rfl rfl rfl rfl
  · refine clauseTokens_subset (fun clause inMerged => ?_) token (effect.tokens token member)
    rcases mem_or_mem_of_mem_splice inMerged with old | new
    · exact .inr ⟨clause, old, rfl⟩
    · rw [List.mem_singleton.mp new]
      exact .inl rfl

/-- Merging at least two neighbours leaves fewer clauses. -/
theorem length_absorbNeighbours {first last : Nat} (ordered : first < last)
    (within : last < m.clauses.length) :
    (m.absorbNeighbours first last).clauses.length < m.clauses.length := by
  have atFront := List.getElem?_eq_getElem (show first < m.clauses.length by omega)
  have atBack := List.getElem?_eq_getElem within
  rw [absorbNeighbours_spec atFront atBack]
  dsimp only
  rw [length_splice (by omega) (by omega), List.length_singleton]
  omega

/-- The absorbed places lie around the edited one. -/
theorem absorbedPlaces_spec {m : ClauseConversion τ} (boundaries : List Nat) (start newStop : Nat)
    (inside : m.editedIndex < m.clauses.length) :
    (m.absorbedPlaces boundaries start newStop).1 ≤ m.editedIndex ∧
      m.editedIndex ≤ (m.absorbedPlaces boundaries start newStop).2 ∧
      (m.absorbedPlaces boundaries start newStop).2 < m.clauses.length := by
  unfold absorbedPlaces
  dsimp only
  split <;> split <;> omega

/-- An attempt is a local edit when it reports one, provided its retries are. -/
theorem replaceEditedReadingBy_replaced
    {retry : ClauseConversion τ → ClauseConversion τ × LocalEditOutcome}
    (retries : ∀ draft, Replaced draft (retry draft)) (m : ClauseConversion τ) (reading : Text)
    (readingRevision : Nat) : Replaced m (replaceEditedReadingBy retry m reading readingRevision) := by
  unfold replaceEditedReadingBy
  split
  · exact replaced_of_unchanged (by simp) (by simp)
  rename_i start stop editing
  obtain ⟨edited, atEdited, rfl, rfl, _, _⟩ := editingRange_eq_some editing
  have inside := (List.getElem?_eq_some_iff.mp atEdited).1
  dsimp only
  split
  · exact replaced_of_unchanged (by simp) (by simp)
  rename_i newLen converted
  obtain ⟨rfl, fits⟩ := u32TryFrom_eq_some converted
  split
  · exact replaced_of_unchanged (by simp) (by simp)
  rename_i admitted
  split
  · exact replaced_of_unchanged (by simp) (by simp)
  rename_i boundaries built
  split
  · split
    · exact replaced_of_unchanged (by simp) (by simp)
    rename_i apart
    obtain ⟨below, above, within⟩ := absorbedPlaces_spec boundaries edited.start
      (edited.start + reading.length - (edited.start + m.reading.length - edited.stop)) inside
    generalize m.absorbedPlaces boundaries edited.start _ = absorbed at *
    rcases retries (m.absorbNeighbours absorbed.1 absorbed.2) with ⟨effect, changed⟩ | ⟨_, changed⟩
    · have effect : Reshaped m _ := Reshaped.of_absorbNeighbours (le_trans below above) within effect
      rcases changed with changed | changed <;> rw [changed]
      · exact .inl ⟨effect, .inl changed⟩
      · exact .inl ⟨effect, .inr changed⟩
    · split
      · exact absurd ‹_› changed.1
      · exact absurd ‹_› changed.2
      · exact .inr ⟨rfl, changed⟩
  · rename_i legal
    simp only [Bool.or_eq_true, Bool.not_eq_true', not_or, Bool.not_eq_false, List.contains_eq_mem,
      decide_eq_true_eq, mem_legalBoundaries built] at legal
    simp only [Bool.or_eq_true, decide_eq_true_eq, Bool.not_eq_true', not_or, Bool.not_eq_false,
      Nat.not_lt] at admitted
    refine replaceInterval_replaced atEdited fun formed => ⟨fits, legal.1, legal.2, ?_⟩
    have bounds := formed.bounds (List.mem_of_getElem? atEdited)
    have frontLength : (m.reading.take edited.start).length = edited.start := by simp; omega
    have backLength : (m.reading.drop edited.stop).length = m.reading.length - edited.stop := by simp
    obtain ⟨middle, shape⟩ := exists_middle admitted.1.2 admitted.2 (by omega)
    refine ⟨middle, ?_, shape⟩
    have length := congrArg List.length shape
    simp only [List.length_append, frontLength, backLength] at length
    omega

/-- Replacing the edited reading is a local edit when it reports one, and nothing otherwise. -/
theorem replaceEditedReading_replaced (m : ClauseConversion τ) (reading : Text) (readingRevision : Nat) :
    Replaced m (m.replaceEditedReading reading readingRevision) := by
  -- The bound on absorptions only decides how many retries there are.
  have within : ∀ fuel m, Replaced m (replaceEditedReadingWithin (τ := τ) reading readingRevision fuel m) := by
    intro fuel
    induction fuel with
    | zero =>
      exact fun m => replaceEditedReadingBy_replaced (fun _ => replaced_of_unchanged (by simp) (by simp)) m
        reading readingRevision
    | succ fuel ih => exact fun m => replaceEditedReadingBy_replaced ih m reading readingRevision
  exact within _ m

/-- The reading replacement is a local operation. -/
theorem replaceEditedReading_edited (m : ClauseConversion τ) (reading : Text) (readingRevision : Nat) :
    Edited m (m.replaceEditedReading reading readingRevision).1 := by
  rcases replaceEditedReading_replaced m reading readingRevision with ⟨effect, _⟩ | ⟨same, _⟩
  · exact .reshaped effect
  · rw [same]; exact .quiet (Quiet.refl m)

/-- An attempt only retries on drafts that absorbed neighbours, so retries that agree on these give one attempt. -/
theorem replaceEditedReadingBy_congr
    {retry retry' : ClauseConversion τ → ClauseConversion τ × LocalEditOutcome} {m : ClauseConversion τ}
    (same : ∀ first last, first < last → last < m.clauses.length →
      retry (m.absorbNeighbours first last) = retry' (m.absorbNeighbours first last))
    (reading : Text) (readingRevision : Nat) :
    replaceEditedReadingBy retry m reading readingRevision =
      replaceEditedReadingBy retry' m reading readingRevision := by
  unfold replaceEditedReadingBy
  split
  · rfl
  rename_i start stop editing
  obtain ⟨edited, atEdited, rfl, rfl, _, _⟩ := editingRange_eq_some editing
  have inside := (List.getElem?_eq_some_iff.mp atEdited).1
  dsimp only
  split
  · rfl
  rename_i newLen _
  split
  · rfl
  split
  · rfl
  rename_i boundaries _
  split
  · split
    · rfl
    rename_i apart
    obtain ⟨below, above, within⟩ := absorbedPlaces_spec boundaries edited.start
      (edited.start + newLen - (edited.start + m.reading.length - edited.stop)) inside
    rw [same _ _ (by omega) within]
  · rfl

/-- A draft that absorbed neighbours has fewer clauses, so any bound that allows one retry less than there are clauses
is enough. -/
theorem replaceEditedReadingWithin_eq (m : ClauseConversion τ) (reading : Text) (readingRevision : Nat) {fuel : Nat}
    (bounded : m.clauses.length ≤ fuel + 1) :
    replaceEditedReadingWithin reading readingRevision fuel m = m.replaceEditedReading reading readingRevision := by
  -- Two bounds are compared, as the drafts of one are bounded by their own clauses and not by one less than those.
  suffices agree : ∀ (fuel fuel' : Nat) (m : ClauseConversion τ), m.clauses.length ≤ fuel + 1 →
      m.clauses.length ≤ fuel' + 1 → replaceEditedReadingWithin reading readingRevision fuel m =
        replaceEditedReadingWithin reading readingRevision fuel' m from agree _ _ m bounded (Nat.le_succ _)
  intro fuel
  induction fuel with
  | zero =>
    intro fuel' m small _
    cases fuel' <;> exact replaceEditedReadingBy_congr (fun first last ordered within => by omega) _ _
  | succ fuel ih =>
    intro fuel' m bounded bounded'
    cases fuel' with
    | zero => exact replaceEditedReadingBy_congr (fun first last ordered within => by omega) _ _
    | succ fuel' =>
      refine replaceEditedReadingBy_congr (fun first last ordered within => ?_) _ _
      have fewer := length_absorbNeighbours ordered within
      exact ih fuel' _ (by omega) (by omega)

/-- The number of clauses bounds the absorptions, so the edit retries itself on every draft. -/
theorem replaceEditedReading_eq (m : ClauseConversion τ) (reading : Text) (readingRevision : Nat) :
    m.replaceEditedReading reading readingRevision =
      replaceEditedReadingBy (fun draft => draft.replaceEditedReading reading readingRevision) m reading
        readingRevision := by
  rw [← replaceEditedReadingWithin_eq m reading readingRevision (Nat.le_succ_of_le (Nat.le_succ _))]
  refine replaceEditedReadingBy_congr (fun first last ordered within => ?_) _ _
  have fewer := length_absorbNeighbours ordered within
  exact replaceEditedReadingWithin_eq _ reading readingRevision (by omega)

end Absorption

end ClauseConversion

end Nospacekey
