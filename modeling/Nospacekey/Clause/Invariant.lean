import Nospacekey.Clause.Conversion
import Nospacekey.Ipc.ClauseLaws

/-! The partition invariant of the clause model and the rules that keep it. -/

namespace Nospacekey

open Tiling

variable {τ : Type}

/-- The interval of the reading that a local clause covers. -/
def LocalClause.span (clause : LocalClause τ) : Nat × Nat := (clause.start, clause.stop)

/-- Within a shared front, a slice does not depend on what follows. -/
theorem slice_append_left {front back other : Text} {start stop : Nat} (within : stop ≤ front.length) :
    slice (front ++ back) start stop = slice (front ++ other) start stop := by
  -- Both sides take the same scalars of the front.
  unfold slice
  rcases Nat.lt_or_ge start front.length with before | after
  · rw [List.drop_append_of_le_length (by omega), List.drop_append_of_le_length (by omega),
      List.take_append_of_le_length (by simp; omega), List.take_append_of_le_length (by simp; omega)]
  · rw [show stop - start = 0 by omega, List.take_zero, List.take_zero]

/-- Behind a shared back, a slice only shifts with the length of what precedes it. -/
theorem slice_append_right {front back : Text} {start stop : Nat} :
    slice (front ++ back) (front.length + start) (front.length + stop) = slice back start stop := by
  unfold slice
  rw [List.drop_append, List.drop_of_length_le (by omega), List.nil_append,
    show front.length + start - front.length = start by omega,
    show front.length + stop - (front.length + start) = stop - start by omega]

/-- A slice of a whole text is the text. -/
@[simp] theorem slice_full (text : Text) : slice text 0 text.length = text := by
  simp [slice]

namespace ClauseConversion

/-- The id and interval of every clause, in order. -/
def ranges (m : ClauseConversion τ) : List ClauseRange := m.clauses.map clauseRange

/-- The clauses partition the reading at legal boundaries, under distinct ids that the next id
exceeds, reading clauses show their slice and the selection is one of the clauses. -/
structure WellFormed (m : ClauseConversion τ) : Prop where
  tiles : Tiles 0 (m.clauses.map LocalClause.span) m.reading.length
  legal : ∃ boundaries, legalBoundaries m.reading = .ok boundaries ∧
    ∀ clause ∈ m.clauses, clause.start ∈ boundaries ∧ clause.stop ∈ boundaries
  distinct : (m.clauses.map LocalClause.id).Nodup
  below : ∀ next, m.nextClauseId = some next → ∀ clause ∈ m.clauses, clause.id < next
  shown : ∀ clause ∈ m.clauses, clause.source = .reading →
    clause.surface = m.readingOf clause.start clause.stop
  selected : m.clauses ≠ [] → m.selected < m.clauses.length

/-- A partition needs its boundaries checked at the clause ends only. -/
theorem wellFormed_of_stops {m : ClauseConversion τ}
    (tiles : Tiles 0 (m.clauses.map LocalClause.span) m.reading.length)
    (fits : m.reading.length < 2 ^ 32)
    (stops : ∀ clause ∈ m.clauses, LegalBoundary m.reading clause.stop)
    (distinct : (m.clauses.map LocalClause.id).Nodup)
    (below : ∀ next, m.nextClauseId = some next → ∀ clause ∈ m.clauses, clause.id < next)
    (shown : ∀ clause ∈ m.clauses, clause.source = .reading →
      clause.surface = m.readingOf clause.start clause.stop)
    (selected : m.clauses ≠ [] → m.selected < m.clauses.length) : m.WellFormed := by
  -- Every start is the start of the reading or the end of another clause.
  obtain ⟨boundaries, built⟩ := legalBoundaries_of_lt fits
  refine ⟨tiles, ⟨boundaries, built, fun clause member => ?_⟩, distinct, below, shown, selected⟩
  simp only [mem_legalBoundaries built]
  have starts := tiles.starts (LegalBoundary m.reading) (legalBoundary_zero _) (by
    intro span inSpans
    obtain ⟨other, inClauses, rfl⟩ := List.mem_map.mp inSpans
    exact stops other inClauses)
  exact ⟨starts _ (List.mem_map_of_mem member), stops clause member⟩

namespace WellFormed

variable {m m' : ClauseConversion τ}

/-- The reading of a well-formed model fits the wire. -/
theorem fits (formed : m.WellFormed) : m.reading.length < 2 ^ 32 := by
  obtain ⟨_, built, _⟩ := formed.legal
  exact (legalBoundaries_ok_iff.mp built).1

/-- Every clause ends at a legal boundary. -/
theorem legal_stop (formed : m.WellFormed) {clause : LocalClause τ} (member : clause ∈ m.clauses) :
    LegalBoundary m.reading clause.stop := by
  obtain ⟨_, built, ends⟩ := formed.legal
  exact (mem_legalBoundaries built).mp (ends clause member).2

/-- Every clause starts at a legal boundary. -/
theorem legal_start (formed : m.WellFormed) {clause : LocalClause τ} (member : clause ∈ m.clauses) :
    LegalBoundary m.reading clause.start := by
  obtain ⟨_, built, ends⟩ := formed.legal
  exact (mem_legalBoundaries built).mp (ends clause member).1

/-- Every clause covers a nonempty part of the reading. -/
theorem bounds (formed : m.WellFormed) {clause : LocalClause τ} (member : clause ∈ m.clauses) :
    clause.start < clause.stop ∧ clause.stop ≤ m.reading.length :=
  (formed.tiles.bounds (List.mem_map_of_mem member)).2

/-- Clauses with one id are one clause. -/
theorem eq_of_id (formed : m.WellFormed) {a b : LocalClause τ} (first : a ∈ m.clauses)
    (second : b ∈ m.clauses) (same : a.id = b.id) : a = b :=
  List.inj_on_of_nodup_map formed.distinct first second same

/-- A model without clauses has no reading. -/
theorem clauses_eq_nil_iff (formed : m.WellFormed) : m.clauses = [] ↔ m.reading = [] := by
  have empty := formed.tiles.eq_nil_iff
  rw [List.map_eq_nil_iff] at empty
  rw [empty, eq_comm, List.length_eq_zero_iff]

/-- The clauses from one place to another cover what lies between their outer edges. -/
theorem block_ends {first last : Nat} {front back : LocalClause τ} (ordered : first ≤ last)
    (atFront : m.clauses[first]? = some front) (atBack : m.clauses[last]? = some back) {a b : Nat}
    (tiles : Tiles a (((m.clauses.drop first).take (last + 1 - first)).map LocalClause.span) b) :
    a = front.start ∧ back.stop = b ∧ a < b := by
  -- The two outer clauses are the ends of the cut.
  have head : (((m.clauses.drop first).take (last + 1 - first)).map LocalClause.span).head? =
      some front.span := by
    rw [List.head?_eq_getElem?, List.getElem?_map, List.getElem?_take_of_lt (by omega),
      List.getElem?_drop, Nat.add_zero, atFront]
    rfl
  have inside := (List.getElem?_eq_some_iff.mp atBack).1
  have tail : (((m.clauses.drop first).take (last + 1 - first)).map LocalClause.span).getLast? =
      some back.span := by
    rw [List.getLast?_eq_getElem?, List.length_map, List.length_take, List.length_drop,
      List.getElem?_map, List.getElem?_take_of_lt (by omega), List.getElem?_drop,
      show first + (min (last + 1 - first) (m.clauses.length - first) - 1) = last by omega, atBack]
    rfl
  obtain ⟨start, stop, nonempty⟩ := tiles.ends head tail
  exact ⟨start.symm, stop, nonempty⟩

/-- The invariant only reads the clauses, the reading, the next id and the selection. -/
theorem congr (formed : m.WellFormed) (reading : m'.reading = m.reading)
    (clauses : m'.clauses = m.clauses) (next : m'.nextClauseId = m.nextClauseId)
    (selected : m.clauses ≠ [] → m.selected < m.clauses.length → m'.selected < m.clauses.length) :
    m'.WellFormed where
  tiles := by rw [clauses, reading]; exact formed.tiles
  legal := by rw [clauses, reading]; exact formed.legal
  distinct := by rw [clauses]; exact formed.distinct
  below := by rw [clauses, next]; exact formed.below
  shown := by unfold readingOf; rw [clauses, reading]; exact formed.shown
  selected := by rw [clauses]; exact fun some => selected some (formed.selected some)

/-- Surfaces and sources may change freely as long as reading clauses show their slice. -/
theorem reshow (formed : m.WellFormed) (reading : m'.reading = m.reading)
    (ranges : m'.ranges = m.ranges) (next : m'.nextClauseId = m.nextClauseId)
    (shown : ∀ clause ∈ m'.clauses, clause.source = .reading →
      clause.surface = m'.readingOf clause.start clause.stop)
    (selected : m'.clauses ≠ [] → m'.selected < m'.clauses.length) : m'.WellFormed := by
  -- Ids and intervals are those of the old clauses, which the other conditions are about.
  have spans : m'.clauses.map LocalClause.span = m.clauses.map LocalClause.span := by
    have := congrArg (List.map fun range => (range.readingStart, range.readingEnd)) ranges
    simp only [ClauseConversion.ranges, List.map_map] at this
    exact this
  have ids : m'.clauses.map LocalClause.id = m.clauses.map LocalClause.id := by
    have := congrArg (List.map ClauseRange.id) ranges
    simp only [ClauseConversion.ranges, List.map_map] at this
    exact this
  have inherited : ∀ clause ∈ m'.clauses, ∃ old ∈ m.clauses, clauseRange old = clauseRange clause := by
    intro clause member
    have inRanges : clauseRange clause ∈ m.ranges := ranges ▸ List.mem_map_of_mem member
    exact List.mem_map.mp inRanges
  refine wellFormed_of_stops ?_ (reading ▸ formed.fits) ?_ (ids ▸ formed.distinct) ?_ shown selected
  · rw [spans, reading]; exact formed.tiles
  · intro clause member
    obtain ⟨old, inOld, same⟩ := inherited clause member
    have stop : old.stop = clause.stop := congrArg ClauseRange.readingEnd same
    rw [reading, ← stop]
    exact formed.legal_stop inOld
  · intro bound found clause member
    obtain ⟨old, inOld, same⟩ := inherited clause member
    have id : old.id = clause.id := congrArg ClauseRange.id same
    rw [← id]
    exact formed.below bound (next ▸ found) old inOld

/-- Neighbouring clauses may be replaced by clauses that tile the same interval, end at legal
boundaries, show their slices, and use fresh ids or the id of the first replaced clause. -/
theorem splice (formed : m.WellFormed) {first last : Nat} {front back : LocalClause τ}
    (ordered : first ≤ last) (atFront : m.clauses[first]? = some front)
    (atBack : m.clauses[last]? = some back) (block : List (LocalClause τ))
    (reading : m'.reading = m.reading)
    (clauses : m'.clauses = Tiling.splice m.clauses first (last + 1) block)
    (nonempty : block ≠ []) (covers : Tiles front.start (block.map LocalClause.span) back.stop)
    (stops : ∀ clause ∈ block, LegalBoundary m.reading clause.stop)
    (distinct : (block.map LocalClause.id).Nodup)
    (ids : ∀ clause ∈ block, clause.id = front.id ∨
      ∃ next, m.nextClauseId = some next ∧ next ≤ clause.id)
    (below : ∀ bound, m'.nextClauseId = some bound →
      (∀ clause ∈ block, clause.id < bound) ∧ ∀ next, m.nextClauseId = some next → next ≤ bound)
    (shown : ∀ clause ∈ block, clause.source = .reading →
      clause.surface = m.readingOf clause.start clause.stop)
    (numbered : m.nextClauseId = none → m'.nextClauseId = none)
    (selected : m'.selected = first) : m'.WellFormed := by
  have inFront := (List.getElem?_eq_some_iff.mp atFront).1
  have inBack := (List.getElem?_eq_some_iff.mp atBack).1
  -- Every clause after the replacement is an old one or one of the new block.
  have origin : ∀ clause ∈ m'.clauses, clause ∈ m.clauses ∨ clause ∈ block := by
    intro clause member
    rw [clauses] at member
    exact mem_or_mem_of_mem_splice member
  refine wellFormed_of_stops ?_ (reading ▸ formed.fits) ?_ ?_ ?_ ?_ ?_
  · rw [clauses, map_splice, reading]
    refine formed.tiles.splice (by omega) fun a b old => ?_
    rw [← List.map_drop, ← List.map_take] at old
    obtain ⟨left, right, _⟩ := block_ends ordered atFront atBack old
    rw [left, ← right]
    exact covers
  · intro clause member
    rw [reading]
    rcases origin clause member with old | new
    · exact formed.legal_stop old
    · exact stops clause new
  · rw [clauses]
    refine nodup_splice LocalClause.id (by omega) formed.distinct distinct ?_
    intro clause inBlock other outside same
    have inClauses : other ∈ m.clauses := by
      rcases outside with inTake | inDrop
      · exact List.mem_of_mem_take inTake
      · exact List.mem_of_mem_drop inDrop
    rcases ids clause inBlock with reused | ⟨next, found, fresh⟩
    · -- The reused id is that of the clause at the first place, which is not outside the block.
      have equal : front = other :=
        formed.eq_of_id (List.mem_of_getElem? atFront) inClauses (reused.symm.trans same)
      subst equal
      have nodup : m.clauses.Nodup := List.Nodup.of_map _ formed.distinct
      have unique : ∀ place : Nat, m.clauses[place]? = some front → place = first := fun place found =>
        ((List.getElem?_inj inFront nodup).mp (atFront.trans found.symm)).symm
      rcases outside with inTake | inDrop
      · obtain ⟨place, found⟩ := List.mem_iff_getElem?.mp inTake
        rw [List.getElem?_take] at found
        split at found
        · have := unique place found; omega
        · cases found
      · obtain ⟨place, found⟩ := List.mem_iff_getElem?.mp inDrop
        rw [List.getElem?_drop] at found
        have := unique _ found
        omega
    · exact absurd (formed.below next found other inClauses) (by omega)
  · intro bound known clause member
    obtain ⟨inside, onward⟩ := below bound known
    rcases origin clause member with old | new
    · cases next : m.nextClauseId with
      | none => rw [numbered next] at known; cases known
      | some next' =>
        have := formed.below next' next clause old
        have := onward next' next
        omega
    · exact inside clause new
  · intro clause member isReading
    unfold readingOf
    rw [reading]
    rcases origin clause member with old | new
    · exact formed.shown clause old isReading
    · exact shown clause new isReading
  · intro _
    rw [selected, clauses, length_splice (by omega) (by omega)]
    have := List.length_pos_iff.mpr nonempty
    omega

/-- Neighbouring clauses may be merged into one clause under the id of the first. -/
theorem merge (formed : m.WellFormed) {first last : Nat} {front back : LocalClause τ}
    (ordered : first ≤ last) (atFront : m.clauses[first]? = some front)
    (atBack : m.clauses[last]? = some back) (merged : LocalClause τ) (id : merged.id = front.id)
    (start : merged.start = front.start) (stop : merged.stop = back.stop)
    (shown : merged.source = .reading → merged.surface = m.readingOf merged.start merged.stop)
    (reading : m'.reading = m.reading)
    (clauses : m'.clauses = Tiling.splice m.clauses first (last + 1) [merged])
    (next : m'.nextClauseId = m.nextClauseId) (selected : m'.selected = first) : m'.WellFormed := by
  have only : ∀ clause ∈ [merged], clause = merged := by simp
  have nonempty : front.start < back.stop := by
    -- The merged clauses are a nonempty run from the first start to the last end.
    have tiles := formed.tiles
    rw [← List.take_append_drop first m.clauses, List.map_append] at tiles
    obtain ⟨mid, _, tiles⟩ := tiles_append.mp tiles
    rw [← List.take_append_drop (last + 1 - first) (m.clauses.drop first), List.map_append] at tiles
    obtain ⟨far, run, _⟩ := tiles_append.mp tiles
    obtain ⟨left, right, onward⟩ := block_ends ordered atFront atBack run
    omega
  refine formed.splice ordered atFront atBack [merged] reading clauses (by simp) ?_ ?_ (by simp) ?_ ?_ ?_
    (fun none => next.trans none) selected
  · refine tiles_singleton.mpr ⟨start, ?_, stop⟩
    change merged.start < merged.stop
    omega
  · intro clause inBlock
    rw [only clause inBlock, stop]
    exact formed.legal_stop (List.mem_of_getElem? atBack)
  · intro clause inBlock
    rw [only clause inBlock]
    exact .inl id
  · intro bound known
    rw [next] at known
    refine ⟨fun clause inBlock => ?_, fun other same => by rw [known] at same; cases same; exact le_rfl⟩
    rw [only clause inBlock, id]
    exact formed.below bound known front (List.mem_of_getElem? atFront)
  · intro clause inBlock
    rw [only clause inBlock]
    exact shown

end WellFormed

end ClauseConversion

end Nospacekey
