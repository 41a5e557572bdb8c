import Nospacekey.Clause.Steps
import Mathlib.Data.List.Forall2

/-! Editing the reading of one interval leaves everything outside it alone. -/

namespace Nospacekey

open Runs Tiling

variable {τ : Type}

namespace ClauseConversion

/-- A combining sound mark follows a position of a reading, so no boundary may lie there. -/
def Attached (reading : Text) (position : Nat) : Prop :=
  ∃ scalar, reading[position]? = some scalar ∧ combiningMark scalar = true

/-- By how much an edit makes the reading longer. -/
def growth (m : ClauseConversion τ) (reading : Text) : Int := reading.length - m.reading.length

/-- A clause behind an edit keeps its surface and moves with the edit. Unless it stays, it has a new id and no token. -/
structure Shifted (m : ClauseConversion τ) (reading : Text) (old new : LocalClause τ) : Prop where
  surface : new.surface = old.surface
  start : (new.start : Int) = old.start + m.growth reading
  stop : (new.stop : Int) = old.stop + m.growth reading
  still : m.growth reading = 0 → new = old
  id : m.growth reading ≠ 0 → ∃ next, m.nextClauseId = some next ∧ next < new.id
  token : m.growth reading ≠ 0 → new.source.token = none

/-- An edit of the clause `c` that also takes in some neighbours: what is before them stays, what is behind them is
shifted, and the interval shows its part of the new reading. -/
structure Framed (m m' : ClauseConversion τ) (reading : Text) (before left : List (LocalClause τ)) (c : LocalClause τ)
    (right after shifted : List (LocalClause τ)) (start stop : Nat) : Prop where
  clauses : m.clauses = before ++ ((left ++ c :: right) ++ after)
  place : (before ++ left).length = m.editedIndex
  covers : Tiles start ((left ++ c :: right).map LocalClause.span) stop
  leftwards : ∀ clause ∈ left, Attached reading clause.stop
  rightwards : ∀ clause ∈ right, Attached reading (clause.start + m.growth reading).toNat
  read : m'.reading = reading
  result : ∃ edited, m'.clauses = before ++ (edited ++ shifted) ∧
    ((stop + m.growth reading = start ∧ edited = []) ∨ ((start : Int) < stop + m.growth reading ∧ ∃ id, edited =
      [{ id := id, start := start, stop := (stop + m.growth reading).toNat
         surface := slice reading start (stop + m.growth reading).toNat, source := .reading }]))
  behind : List.Forall₂ (Shifted m reading) after shifted

section Parts

variable {m m' : ClauseConversion τ} {reading : Text}

/-- A position inside a reading is a legal boundary, or a combining mark follows it. -/
theorem attached_of_illegal {position : Nat} (within : position ≤ reading.length)
    (illegal : ¬LegalBoundary reading position) : Attached reading position := by
  have inside : position < reading.length := by
    refine lt_of_le_of_ne within fun full => illegal (.inr (.inl full))
  refine ⟨reading[position], List.getElem?_eq_getElem inside, ?_⟩
  by_contra plain
  exact illegal (.inr (.inr ⟨_, List.getElem?_eq_getElem inside, by simpa using plain⟩))

/-- A clause in the middle of distinct ones is found at its place. -/
theorem editedIndex_eq {before after : List (LocalClause τ)} {c : LocalClause τ}
    (clauses : m.clauses = before ++ c :: after) (distinct : (m.clauses.map LocalClause.id).Nodup)
    (edited : m.editingClause = some c.id) : m.editedIndex = before.length := by
  have apart : ∀ clause ∈ before, ¬(some clause.id = m.editingClause) := by
    intro clause member same
    rw [edited] at same
    rw [clauses, List.map_append] at distinct
    exact List.disjoint_of_nodup_append distinct (List.mem_map_of_mem member)
      (by rw [List.map_cons, Option.some.inj same]; exact List.mem_cons_self)
  unfold editedIndex
  rw [clauses, List.findIdx_append, List.findIdx_eq_length.mpr (fun clause member => by simpa using apart clause member),
    if_neg (Nat.lt_irrefl _), List.findIdx_cons, edited]
  simp

/-- The clauses around one of them, cut at two places around it. -/
theorem split_around {list : List (LocalClause τ)} {first index last : Nat} {c : LocalClause τ} (below : first ≤ index)
    (above : index ≤ last) (found : list[index]? = some c) :
    list = list.take first ++ (((list.drop first).take (index - first) ++
      c :: (list.drop (index + 1)).take (last - index)) ++ list.drop (last + 1)) ∧
    (list.drop first).take (last + 1 - first) =
      (list.drop first).take (index - first) ++ c :: (list.drop (index + 1)).take (last - index) := by
  obtain ⟨inside, rfl⟩ := List.getElem?_eq_some_iff.mp found
  have tail : list.drop index = list[index] :: list.drop (index + 1) := (List.getElem_cons_drop inside).symm
  have front : list.drop first = (list.drop first).take (index - first) ++ list.drop index := by
    conv_lhs => rw [← List.take_append_drop (index - first) (list.drop first)]
    rw [List.drop_drop, show first + (index - first) = index by omega]
  have back : list.drop (index + 1) = (list.drop (index + 1)).take (last - index) ++ list.drop (last + 1) := by
    conv_lhs => rw [← List.take_append_drop (last - index) (list.drop (index + 1))]
    rw [List.drop_drop, show index + 1 + (last - index) = last + 1 by omega]
  have length : ((list.drop first).take (index - first)).length = index - first := by
    rw [List.length_take, List.length_drop]
    omega
  constructor
  · conv_lhs => rw [← List.take_append_drop first list, front, tail, back]
    simp
  · conv_lhs => rw [front, tail]
    rw [List.take_append, length, show last + 1 - first - (index - first) = last - index + 1 by omega, List.take_succ_cons]
    congr 1
    rw [List.take_of_length_le]
    rw [length]
    omega

/-- Shifting keeps surfaces, and moves clauses by the growth of the reading. -/
theorem shifted_of_shiftClauses {next : Nat} (numbered : m.nextClauseId = some next)
    {after : List (LocalClause τ)} (room : ∀ clause ∈ after, 0 ≤ (clause.start : Int) + m.growth reading ∧
      clause.start ≤ clause.stop) :
    List.Forall₂ (Shifted m reading) after (shiftClauses next (m.growth reading) after) := by
  unfold shiftClauses
  split
  · rename_i moved
    refine List.forall₂_iff_get.mpr ⟨List.length_mapIdx.symm, fun i inOld inNew => ?_⟩
    have bounds := room _ (List.getElem_mem inOld)
    simp only [List.get_eq_getElem, List.getElem_mapIdx] at bounds ⊢
    exact
      { surface := rfl
        start := Int.toNat_of_nonneg bounds.1
        stop := Int.toNat_of_nonneg (by omega)
        still := fun zero => absurd zero moved
        id := fun _ => ⟨next, numbered, by simp only [shiftClause]; omega⟩
        token := fun _ => SurfaceSource.token_retire _ }
  · rename_i still
    rw [ne_eq, not_not] at still
    refine List.forall₂_same.mpr fun clause _ => ?_
    exact
      { surface := rfl
        start := by omega
        stop := by omega
        still := fun _ => rfl
        id := fun moved => absurd still moved
        token := fun moved => absurd still moved }

/-- An attempt that needs no neighbour is framed by the edited clause alone. -/
theorem replaceInterval_framed (formed : m.WellFormed) {c : LocalClause τ} (atEdited : m.clauses[m.editedIndex]? = some c)
    {readingRevision newStop : Nat} (target : (newStop : Int) = c.stop + m.growth reading) (ordered : c.start ≤ newStop)
    (accepted : (m.replaceInterval reading readingRevision c.start newStop).2 = .readingChanged ∨
      (m.replaceInterval reading readingRevision c.start newStop).2 = .empty) :
    ∃ shifted, Framed m (m.replaceInterval reading readingRevision c.start newStop).1 reading
      (m.clauses.take m.editedIndex) [] c [] (m.clauses.drop (m.editedIndex + 1)) shifted c.start c.stop := by
  obtain ⟨inside, same⟩ := List.getElem?_eq_some_iff.mp atEdited
  have whole : m.clauses = m.clauses.take m.editedIndex ++ (([] ++ [c]) ++ m.clauses.drop (m.editedIndex + 1)) := by
    rw [List.nil_append, List.singleton_append, ← same, List.getElem_cons_drop, List.take_append_drop]
  -- What is behind the edited clause starts where that ends, or further back.
  have room : ∀ clause ∈ m.clauses.drop (m.editedIndex + 1), 0 ≤ (clause.start : Int) + m.growth reading ∧
      clause.start ≤ clause.stop := by
    intro clause member
    have tiles := formed.tiles
    rw [whole, List.map_append, tiles_append] at tiles
    obtain ⟨mid, _, start, nonempty, behind⟩ := tiles
    have bounds := behind.bounds (List.mem_map_of_mem member)
    simp only [LocalClause.span] at bounds nonempty
    exact ⟨by omega, bounds.2.1.le⟩
  unfold replaceInterval at accepted ⊢
  split at accepted
  · rcases accepted with absurdity | absurdity <;> cases absurdity
  split at accepted
  · rcases accepted with absurdity | absurdity <;> cases absurdity
  rename_i older
  dsimp only at accepted
  split at accepted
  · rcases accepted with absurdity | absurdity <;> cases absurdity
  rename_i next numbered
  split at accepted
  · rcases accepted with absurdity | absurdity <;> cases absurdity
  rename_i nextId reserved
  rw [if_neg older]
  simp only [reserved]
  refine ⟨shiftClauses next (m.growth reading) (m.clauses.drop (m.editedIndex + 1)), ?_⟩
  refine
    { clauses := whole
      place := by rw [List.append_nil, List.length_take, Nat.min_eq_left inside.le]
      covers := tiles_singleton.mpr ⟨rfl, (formed.bounds (List.mem_of_getElem? atEdited)).1, rfl⟩
      leftwards := fun _ member => by cases member
      rightwards := fun _ member => by cases member
      read := rfl
      result := ?_
      behind := shifted_of_shiftClauses numbered room }
  by_cases emptied : newStop = c.start
  · refine ⟨[], ?_, .inl ⟨by omega, rfl⟩⟩
    show m.clauses.take m.editedIndex ++ (if newStop = c.start then _ else _) = _
    rw [if_pos emptied]
    rfl
  · refine ⟨_, ?_, .inr ⟨by omega, next, rfl⟩⟩
    show m.clauses.take m.editedIndex ++ (if newStop = c.start then _ else _) = _
    rw [if_neg emptied, ← target, Int.toNat_natCast]
    rfl

/-- Absorbed neighbours tile what the merged clause covers. -/
theorem tiles_absorbed (formed : m.WellFormed) {first last : Nat} {front back c : LocalClause τ} (below : first ≤ m.editedIndex)
    (above : m.editedIndex ≤ last) (atEdited : m.clauses[m.editedIndex]? = some c) (atFront : m.clauses[first]? = some front)
    (atBack : m.clauses[last]? = some back) :
    Tiles front.start (((m.clauses.drop first).take (m.editedIndex - first) ++
      c :: (m.clauses.drop (m.editedIndex + 1)).take (last - m.editedIndex)).map LocalClause.span) back.stop := by
  obtain ⟨whole, block⟩ := split_around below above atEdited
  have tiles := formed.tiles
  rw [whole, List.map_append, List.map_append, tiles_append] at tiles
  obtain ⟨start, _, tiles⟩ := tiles
  obtain ⟨stop, tiles, _⟩ := tiles_append.mp tiles
  rw [← block] at tiles ⊢
  obtain ⟨rfl, rfl, _⟩ := WellFormed.block_ends (le_trans below above) atFront atBack tiles
  exact tiles

/-- What is framed on a draft that absorbed neighbours is framed on the model, with those neighbours taken in. -/
theorem Framed.of_absorbed (formed : m.WellFormed) {c : LocalClause τ} (atEdited : m.clauses[m.editedIndex]? = some c)
    {first last : Nat} (below : first ≤ m.editedIndex) (above : m.editedIndex ≤ last) (within : last < m.clauses.length)
    (leftwards : ∀ clause ∈ (m.clauses.drop first).take (m.editedIndex - first), Attached reading clause.stop)
    (rightwards : ∀ clause ∈ (m.clauses.drop (m.editedIndex + 1)).take (last - m.editedIndex),
      Attached reading (clause.start + m.growth reading).toNat)
    {before left right after shifted : List (LocalClause τ)} {merged : LocalClause τ} {start stop : Nat}
    (framed : Framed (m.absorbNeighbours first last) m' reading before left merged right after shifted start stop) :
    ∃ left right, Framed m m' reading before left c right after shifted start stop := by
  have atFront := List.getElem?_eq_getElem (show first < m.clauses.length by omega)
  have atBack := List.getElem?_eq_getElem within
  have spec := absorbNeighbours_spec atFront atBack
  have tiles := tiles_absorbed formed below above atEdited atFront atBack
  obtain ⟨whole, _⟩ := split_around below above atEdited
  have draft : (m.absorbNeighbours first last).WellFormed := by
    rw [spec]
    exact formed.merge (le_trans below above) atFront atBack _ (by rfl) (by rfl) (by rfl) (fun _ => by rfl) rfl rfl rfl rfl
  have growth : (m.absorbNeighbours first last).growth reading = m.growth reading := by rw [spec]; rfl
  have numbered : (m.absorbNeighbours first last).nextClauseId = m.nextClauseId := by rw [spec]
  obtain ⟨absorbed, shape⟩ : ∃ absorbed : LocalClause τ, absorbed.span = (m.clauses[first].start, m.clauses[last].stop) ∧
      (m.absorbNeighbours first last).clauses = m.clauses.take first ++ (absorbed :: m.clauses.drop (last + 1)) ∧
      (m.absorbNeighbours first last).editingClause = some absorbed.id := by
    refine ⟨{ id := m.clauses[first].id, start := m.clauses[first].start, stop := m.clauses[last].stop
              surface := m.readingOf m.clauses[first].start m.clauses[last].stop, source := .reading }, rfl, ?_, ?_⟩
    · rw [spec, splice, List.append_assoc]
      rfl
    · rw [spec]
  obtain ⟨span, clauses, editing⟩ := shape
  -- The merged clause is where the first absorbed one was, which tells the two lists' parts apart.
  have place := framed.place
  rw [editedIndex_eq clauses draft.distinct editing] at place
  have parts := framed.clauses
  rw [clauses, List.append_assoc left, List.cons_append, ← List.append_assoc before] at parts
  obtain ⟨fronts, backs⟩ := List.append_inj parts place.symm
  obtain ⟨rfl, behind⟩ := List.cons.inj backs
  refine ⟨left ++ (m.clauses.drop first).take (m.editedIndex - first),
    (m.clauses.drop (m.editedIndex + 1)).take (last - m.editedIndex) ++ right, ?_⟩
  refine
    { clauses := ?_
      place := ?_
      covers := ?_
      leftwards := fun clause member => ?_
      rightwards := fun clause member => ?_
      read := framed.read
      result := growth ▸ framed.result
      behind := framed.behind.imp fun old new moved => ?_ }
  · conv_lhs => rw [whole, fronts, behind]
    simp
  · rw [← List.append_assoc, List.length_append, place, List.length_take, List.length_take, List.length_drop]
    omega
  · have covers := framed.covers
    rw [List.map_append, tiles_append] at covers
    obtain ⟨mid, outer, start', _, rest⟩ := covers
    rw [span] at start' rest
    rw [← start'] at outer
    have joined := tiles_append.mpr ⟨_, outer, tiles_append.mpr ⟨_, tiles, rest⟩⟩
    simp only [List.map_append, List.map_cons, List.append_assoc, List.cons_append] at joined ⊢
    exact joined
  · rcases List.mem_append.mp member with old | new
    · exact framed.leftwards clause old
    · exact leftwards clause new
  · rcases List.mem_append.mp member with new | old
    · exact rightwards clause new
    · exact growth ▸ framed.rightwards clause old
  · exact
      { surface := moved.surface
        start := growth ▸ moved.start
        stop := growth ▸ moved.stop
        still := growth ▸ moved.still
        id := growth ▸ numbered ▸ moved.id
        token := growth ▸ moved.token }

/-- A list of at most one element that has one is that element. -/
theorem eq_singleton_of_mem {α : Type} {list : List α} {x : α} (member : x ∈ list) (one : list.length ≤ 1) :
    ∃ only, list = [only] := by
  match list, one with
  | [only], _ => exact ⟨only, rfl⟩

/-- The neighbours that an attempt absorbs are attached to the edited clause by a combining mark. -/
theorem absorbedPlaces_attached (formed : m.WellFormed) {c : LocalClause τ} (atEdited : m.clauses[m.editedIndex]? = some c)
    {boundaries : List Nat} (built : legalBoundaries reading = .ok boundaries) {newStop : Nat}
    (target : (newStop : Int) = c.stop + m.growth reading) (ordered : c.start ≤ newStop) (within : newStop ≤ reading.length) :
    (∀ clause ∈ (m.clauses.drop (m.absorbedPlaces boundaries c.start newStop).1).take
        (m.editedIndex - (m.absorbedPlaces boundaries c.start newStop).1), Attached reading clause.stop) ∧
      ∀ clause ∈ (m.clauses.drop (m.editedIndex + 1)).take
        ((m.absorbedPlaces boundaries c.start newStop).2 - m.editedIndex),
        Attached reading (clause.start + m.growth reading).toNat := by
  have inside := (List.getElem?_eq_some_iff.mp atEdited).1
  obtain ⟨below, above, bounded⟩ := absorbedPlaces_spec boundaries c.start newStop inside
  have illegal : ∀ {position}, position ≤ reading.length → ¬boundaries.contains position → Attached reading position :=
    fun room absent => attached_of_illegal room fun legal => absent (by simpa using (mem_legalBoundaries built).mpr legal)
  -- The absorbed clauses and the edited one are consecutive, and at most one lies on either side.
  have tiles := tiles_absorbed formed below above atEdited (List.getElem?_eq_getElem (by omega))
    (List.getElem?_eq_getElem bounded)
  rw [List.map_append, tiles_append] at tiles
  obtain ⟨mid, before, start, nonempty, behind⟩ := tiles
  obtain rfl : c.start = mid := start
  constructor
  · intro clause member
    by_cases legal : boundaries.contains c.start = true
    · have none' : (m.absorbedPlaces boundaries c.start newStop).1 = m.editedIndex := if_neg (by rw [legal]; decide)
      rw [none', Nat.sub_self, List.take_zero] at member
      cases member
    · have one : (m.absorbedPlaces boundaries c.start newStop).1 = m.editedIndex - 1 := if_pos (by simpa using legal)
      obtain ⟨only, single⟩ := eq_singleton_of_mem member ((List.length_take_le _ _).trans (by omega))
      rw [single] at before member
      have stop := (tiles_singleton.mp before).2.2
      rw [List.mem_singleton.mp member, show only.stop = c.start from stop]
      exact illegal (le_trans ordered within) legal
  · intro clause member
    by_cases legal : boundaries.contains newStop = true
    · have none' : (m.absorbedPlaces boundaries c.start newStop).2 = m.editedIndex := if_neg (by rw [legal]; decide)
      rw [none', Nat.sub_self, List.take_zero] at member
      cases member
    · have one : (m.absorbedPlaces boundaries c.start newStop).2 = min (m.editedIndex + 1) (m.clauses.length - 1) :=
        if_pos (by simpa using legal)
      obtain ⟨only, single⟩ := eq_singleton_of_mem member ((List.length_take_le _ _).trans (by omega))
      rw [single] at behind member
      have start := (tiles_singleton.mp behind).1
      rw [List.mem_singleton.mp member, show only.start = c.stop from start, ← target, Int.toNat_natCast]
      exact illegal within legal

/-- An accepted edit is framed by the edited clause and the neighbours that combining marks attach to it. -/
theorem replaceEditedReading_framed (formed : m.WellFormed) {readingRevision : Nat}
    (accepted : (m.replaceEditedReading reading readingRevision).2 = .readingChanged ∨
      (m.replaceEditedReading reading readingRevision).2 = .empty) :
    ∃ before left c right after shifted start stop, m.editingRange = some (c.start, c.stop) ∧
      Framed m (m.replaceEditedReading reading readingRevision).1 reading before left c right after shifted start stop := by
  -- Every absorption leaves fewer clauses.
  generalize bound : m.clauses.length = count
  induction count using Nat.strong_induction_on generalizing m with
  | _ count ih =>
    rw [replaceEditedReading_eq] at accepted ⊢
    unfold replaceEditedReadingBy at accepted ⊢
    split at accepted
    · rcases accepted with absurdity | absurdity <;> cases absurdity
    rename_i start stop editing
    obtain ⟨c, atEdited, rfl, rfl, _, same⟩ := editingRange_eq_some editing
    have inside := (List.getElem?_eq_some_iff.mp atEdited).1
    dsimp only at accepted ⊢
    split at accepted
    · rcases accepted with absurdity | absurdity <;> cases absurdity
    rename_i newLen converted
    obtain ⟨rfl, fits⟩ := u32TryFrom_eq_some converted
    split at accepted
    · rcases accepted with absurdity | absurdity <;> cases absurdity
    rename_i admitted
    rw [if_neg admitted]
    simp only [Bool.or_eq_true, decide_eq_true_eq, Bool.not_eq_true', not_or, Bool.not_eq_false, Nat.not_lt] at admitted
    have bounds := formed.bounds (List.mem_of_getElem? atEdited)
    split at accepted
    · rcases accepted with absurdity | absurdity <;> cases absurdity
    rename_i boundaries built
    have target : ((c.start + reading.length - (c.start + m.reading.length - c.stop) : Nat) : Int) =
        c.stop + m.growth reading := by
      unfold growth
      omega
    have within : c.start + reading.length - (c.start + m.reading.length - c.stop) ≤ reading.length := by omega
    have ordered : c.start ≤ c.start + reading.length - (c.start + m.reading.length - c.stop) := by omega
    generalize c.start + reading.length - (c.start + m.reading.length - c.stop) = newStop at *
    split at accepted
    · rename_i illegal
      rw [if_pos illegal]
      obtain ⟨leftwards, rightwards⟩ := absorbedPlaces_attached formed atEdited built target ordered within
      obtain ⟨below, above, bounded⟩ := absorbedPlaces_spec boundaries c.start newStop inside
      generalize m.absorbedPlaces boundaries c.start newStop = absorbed at *
      split at accepted
      · rcases accepted with absurdity | absurdity <;> cases absurdity
      rename_i apart
      rw [if_neg apart]
      have fewer := length_absorbNeighbours (show absorbed.1 < absorbed.2 by omega) bounded
      have draft : (m.absorbNeighbours absorbed.1 absorbed.2).WellFormed := by
        rw [absorbNeighbours_spec (List.getElem?_eq_getElem (by omega)) (List.getElem?_eq_getElem bounded)]
        exact formed.merge (le_trans below above) (List.getElem?_eq_getElem (by omega)) (List.getElem?_eq_getElem bounded) _
          (by rfl) (by rfl) (by rfl) (fun _ => by rfl) rfl rfl rfl rfl
      have retried : ((m.absorbNeighbours absorbed.1 absorbed.2).replaceEditedReading reading readingRevision).2 =
          .readingChanged ∨
          ((m.absorbNeighbours absorbed.1 absorbed.2).replaceEditedReading reading readingRevision).2 = .empty := by
        split at accepted
        · exact .inl ‹_›
        · exact .inr ‹_›
        · rename_i changed emptied
          exact (accepted.elim changed emptied).elim
      obtain ⟨before, left, merged, right, after, shifted, start, stop, _, framed⟩ :=
        ih _ (bound ▸ fewer) draft retried rfl
      obtain ⟨left, right, framed⟩ :=
        framed.of_absorbed formed atEdited below above bounded leftwards rightwards
      refine ⟨before, left, c, right, after, shifted, start, stop, editing, ?_⟩
      split
      · exact framed
      · exact framed
      · rename_i changed emptied
        exact (retried.elim changed emptied).elim
    · rename_i legal
      rw [if_neg legal]
      obtain ⟨shifted, framed⟩ := replaceInterval_framed formed atEdited target ordered accepted
      exact ⟨_, _, c, _, _, shifted, _, _, editing, framed⟩

/-- Shifted clauses show what they showed. -/
theorem surfaces_shifted {after shifted : List (LocalClause τ)} (behind : List.Forall₂ (Shifted m reading) after shifted) :
    shifted.flatMap LocalClause.surface = after.flatMap LocalClause.surface := by
  induction behind with
  | nil => rfl
  | cons moved _ ih => rw [List.flatMap_cons, List.flatMap_cons, moved.surface, ih]

/-- The text before a framed edit, and the text after it. -/
theorem Framed.text {before left right after shifted : List (LocalClause τ)} {c : LocalClause τ} {start stop : Nat}
    (framed : Framed m m' reading before left c right after shifted start stop) :
    m.text = before.flatMap LocalClause.surface ++
      ((left ++ c :: right).flatMap LocalClause.surface ++ after.flatMap LocalClause.surface) ∧
    m'.text = before.flatMap LocalClause.surface ++
      (slice reading start (stop + m.growth reading).toNat ++ after.flatMap LocalClause.surface) := by
  constructor
  · unfold ClauseConversion.text
    rw [framed.clauses, List.flatMap_append, List.flatMap_append]
  · obtain ⟨edited, clauses, shape⟩ := framed.result
    unfold ClauseConversion.text
    rw [clauses, List.flatMap_append, List.flatMap_append, surfaces_shifted framed.behind]
    congr 2
    rcases shape with ⟨emptied, rfl⟩ | ⟨_, id, rfl⟩
    · rw [emptied, Int.toNat_natCast]
      simp [slice]
    · exact List.flatMap_singleton _ _

/-- Clauses that had to move have ids above all old ones. -/
theorem Framed.fresh (formed : m.WellFormed) {before left right after shifted : List (LocalClause τ)} {c : LocalClause τ}
    {start stop : Nat} (framed : Framed m m' reading before left c right after shifted start stop)
    (moved : m.growth reading ≠ 0) : ∀ new ∈ shifted, ∀ clause ∈ m.clauses, clause.id < new.id := by
  intro new member clause inClauses
  obtain ⟨i, inside, rfl⟩ := List.mem_iff_getElem.mp member
  have length := framed.behind.length_eq
  obtain ⟨next, numbered, below⟩ := (framed.behind.get (by omega) inside).id moved
  exact lt_trans (formed.below next numbered clause inClauses) below

end Parts

section Reachable

variable [EngineToken τ]

/-- In every run, an edit of a reading interval changes that interval alone, with the neighbours that combining marks
attach to it. -/
theorem run_framed (segmentation : Segmentation) {m : ClauseConversion τ} (initial : Initial m) (ops : List (ClauseOp τ))
    {reading : Text} {readingRevision : Nat}
    (accepted : ((exec (apply segmentation) m ops).replaceEditedReading reading readingRevision).2 = .readingChanged ∨
      ((exec (apply segmentation) m ops).replaceEditedReading reading readingRevision).2 = .empty) :
    ∃ before left c right after shifted start stop,
      (exec (apply segmentation) m ops).editingRange = some (c.start, c.stop) ∧
      Framed (exec (apply segmentation) m ops)
        ((exec (apply segmentation) m ops).replaceEditedReading reading readingRevision).1 reading before left c right
        after shifted start stop ∧
      ((exec (apply segmentation) m ops).growth reading ≠ 0 →
        ∀ new ∈ shifted, ∀ clause ∈ (exec (apply segmentation) m ops).clauses, clause.id < new.id) ∧
      (exec (apply segmentation) m ops).text = before.flatMap LocalClause.surface ++
        ((left ++ c :: right).flatMap LocalClause.surface ++ after.flatMap LocalClause.surface) ∧
      ((exec (apply segmentation) m ops).replaceEditedReading reading readingRevision).1.text =
        before.flatMap LocalClause.surface ++
          (slice reading start (stop + (exec (apply segmentation) m ops).growth reading).toNat ++
            after.flatMap LocalClause.surface) := by
  have formed := (run_sound segmentation initial ops).formed
  obtain ⟨before, left, c, right, after, shifted, start, stop, editing, framed⟩ := replaceEditedReading_framed formed accepted
  exact ⟨before, left, c, right, after, shifted, start, stop, editing, framed, framed.fresh formed, framed.text⟩

end Reachable

/-- A longer reading of the first clause moves the second, which keeps its surface. -/
theorem run_framed_longer : ∃ m : ClauseConversion String,
    fromSnapshot ⟨1, 1, 1, 1⟩ 1
      ⟨['か', 'な'], 1, 1, [⟨1, 0, 1, .converted, ['蚊'], some "t"⟩, ⟨2, 1, 2, .converted, ['名'], some "u"⟩], none⟩
      ['蚊', '名'] = .ok m ∧
    ∃ before left c right after shifted start stop,
      Framed (exec (apply Segmentation.scalars) m [.beginReadingEdit 0])
        ((exec (apply Segmentation.scalars) m [.beginReadingEdit 0]).replaceEditedReading ['か', 'き', 'な'] 2).1
        ['か', 'き', 'な'] before left c right after shifted start stop ∧
      ((exec (apply Segmentation.scalars) m [.beginReadingEdit 0]).replaceEditedReading ['か', 'き', 'な'] 2).1.text =
        ['か', 'き', '名'] := by
  have built : (fromSnapshot ⟨1, 1, 1, 1⟩ 1
      ⟨['か', 'な'], 1, 1, [⟨1, 0, 1, .converted, ['蚊'], some "t"⟩, ⟨2, 1, 2, .converted, ['名'], some "u"⟩], none⟩
      ['蚊', '名'] : Except ClauseValidationError (ClauseConversion String)) = .ok _ := rfl
  obtain ⟨before, left, c, right, after, shifted, start, stop, _, framed, _⟩ :=
    @run_framed String _ Segmentation.scalars _ (.snapshot built) [.beginReadingEdit 0] ['か', 'き', 'な'] 2 (.inl rfl)
  exact ⟨_, built, before, left, c, right, after, shifted, start, stop, framed, rfl⟩

end ClauseConversion

end Nospacekey
