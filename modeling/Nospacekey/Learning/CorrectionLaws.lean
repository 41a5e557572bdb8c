import Nospacekey.Learning.Corrections

/-! What looking up and changing a table of corrections can do to it. -/

namespace Nospacekey

namespace CorrectionStore

variable {δ : Type} {files : δ → Option (List CorrectionEntry)} {store : CorrectionStore δ}

/-- A file is never read as more entries than a table may have. -/
theorem contents_short (file : Option (List CorrectionEntry)) : (contents file).length ≤ maxEntries := by
  simp only [contents, List.length_take]
  omega

/-- A short list of entries survives being written and read back. -/
theorem contents_some {data : List CorrectionEntry} (short : data.length ≤ maxEntries) :
    contents (some data) = data := List.take_of_length_le short

@[simp] theorem contents_none : contents none = [] := by simp [contents]

@[simp] theorem loadIfNeeded_id : (store.loadIfNeeded files).id = store.id := by
  unfold loadIfNeeded
  split <;> rfl

@[simp] theorem loadIfNeeded_directory : (store.loadIfNeeded files).directory = store.directory := by
  unfold loadIfNeeded
  split <;> rfl

@[simp] theorem loadIfNeeded_generation : (store.loadIfNeeded files).generation = store.generation := by
  unfold loadIfNeeded
  split <;> rfl

@[simp] theorem loadIfNeeded_dirty : (store.loadIfNeeded files).dirty = store.dirty := by
  unfold loadIfNeeded
  split <;> rfl

@[simp] theorem loadIfNeeded_loaded : (store.loadIfNeeded files).loaded = true := by
  unfold loadIfNeeded
  split
  case isTrue loaded => exact loaded
  case isFalse => rfl

/-- A table that has been read is not read again. -/
theorem loadIfNeeded_of_loaded (loaded : store.loaded = true) : store.loadIfNeeded files = store := by
  simp [loadIfNeeded, loaded]

/-- A table that has not been read takes the entries of its file. -/
theorem loadIfNeeded_entries (fresh : store.loaded = false) :
    (store.loadIfNeeded files).entries = contents (store.file files) := by
  simp [loadIfNeeded, fresh]

/-- Reading its file keeps a table short. -/
theorem loadIfNeeded_short (short : store.entries.length ≤ maxEntries) :
    (store.loadIfNeeded files).entries.length ≤ maxEntries := by
  unfold loadIfNeeded
  split
  case isTrue => exact short
  case isFalse => exact contents_short _

/-- What at most so many changes make of a table, and whether it has to be written for them. -/
structure Edited (files : δ → Option (List CorrectionEntry)) (bound : Nat) (store after : CorrectionStore δ)
    (wants : Bool) : Prop where
  id : after.id = store.id
  directory : after.directory = store.directory
  short : store.entries.length ≤ maxEntries → after.entries.length ≤ maxEntries
  outcome : after = store ∨ after = store.loadIfNeeded files ∨
    ∃ times, 0 < times ∧ times ≤ bound ∧ after.generation = (store.generation + times) % 2 ^ 64 ∧
      after.dirty = true ∧ after.loaded = true ∧ wants = true

/-- A table that is left alone. -/
theorem Edited.refl (bound : Nat) (wants : Bool) : Edited files bound store store wants :=
  ⟨rfl, rfl, fun short => short, .inl rfl⟩

/-- A table that is only read. -/
theorem Edited.loaded (bound : Nat) (wants : Bool) :
    Edited files bound store (store.loadIfNeeded files) wants :=
  ⟨loadIfNeeded_id, loadIfNeeded_directory, loadIfNeeded_short, .inr (.inl rfl)⟩

/-- A table that is read and given other entries. -/
theorem Edited.changed {entries : List CorrectionEntry} (short : entries.length ≤ maxEntries) :
    Edited files 1 store ((store.loadIfNeeded files).changed entries) true where
  id := loadIfNeeded_id
  directory := loadIfNeeded_directory
  short _ := short
  outcome := .inr (.inr ⟨1, Nat.one_pos, Nat.le_refl 1, by simp [CorrectionStore.changed], rfl,
    loadIfNeeded_loaded, rfl⟩)

/-- Changes compose; a need to write is not forgotten. -/
theorem Edited.trans {first second : Nat} {middle after : CorrectionStore δ} {wanted wants : Bool}
    (front : Edited files first store middle wanted) (back : Edited files second middle after wants)
    (kept : wanted = true → wants = true) : Edited files (first + second) store after wants where
  id := back.id.trans front.id
  directory := back.directory.trans front.directory
  short := fun short => back.short (front.short short)
  outcome := by
    -- Once the table has been read, reading it again changes nothing.
    have reread (loaded : middle.loaded = true)
        (outcome : after = middle ∨ after = middle.loadIfNeeded files) : after = middle := by
      rcases outcome with same | again
      · exact same
      · exact again.trans (loadIfNeeded_of_loaded loaded)
    rcases front.outcome with rfl | rfl | ⟨times, positive, within, generation, dirty, loaded, wanted⟩
    · rcases back.outcome with same | read | ⟨times, positive, within, rest⟩
      · exact .inl same
      · exact .inr (.inl read)
      · exact .inr (.inr ⟨times, positive, by omega, rest⟩)
    · rcases back.outcome with same | read | ⟨times, positive, within, generation, rest⟩
      · exact .inr (.inl same)
      · exact .inr (.inl (reread loadIfNeeded_loaded (.inr read)))
      · rw [loadIfNeeded_generation] at generation
        exact .inr (.inr ⟨times, positive, by omega, generation, rest⟩)
    · rcases back.outcome with same | read | ⟨more, _, _, later, rest⟩
      · subst same
        exact .inr (.inr ⟨times, positive, by omega, generation, dirty, loaded, kept wanted⟩)
      · cases reread loaded (.inr read)
        exact .inr (.inr ⟨times, positive, by omega, generation, dirty, loaded, kept wanted⟩)
      · refine .inr (.inr ⟨times + more, by omega, by omega, ?_, rest⟩)
        rw [later, generation]
        omega

/-- A recorded correction keeps the table short. -/
theorem record_edited (reading surface : Text) :
    Edited files 1 store (store.record files reading surface) true := by
  unfold record
  split
  case h_1 => exact .refl 1 true
  case h_2 key normalized =>
    split
    case isTrue => exact .refl 1 true
    case isFalse =>
      apply Edited.changed
      simp only [List.length_take]
      omega

/-- A removed correction is one that was there. -/
theorem remove_edited (reading : Text) (wanted : Bool) :
    Edited files 1 store (store.remove files reading).1 ((store.remove files reading).2 || wanted) := by
  unfold remove
  split
  case h_1 => exact .refl 1 _
  case h_2 key normalized =>
    dsimp only
    split
    case isTrue => exact .loaded 1 _
    case isFalse shorter =>
      -- What is left of a short table is short.
      refine ⟨loadIfNeeded_id, loadIfNeeded_directory, fun short => ?_, .inr (.inr
        ⟨1, Nat.one_pos, Nat.le_refl 1, by simp [changed], rfl, loadIfNeeded_loaded, rfl⟩)⟩
      exact (List.length_filter_le _ _).trans (loadIfNeeded_short short)

/-- Looking an entry up reads the table at most. -/
theorem lookup_read (files : δ → Option (List CorrectionEntry)) (store : CorrectionStore δ) (reading : Text) :
    (store.lookup files reading).1 = store ∨ (store.lookup files reading).1 = store.loadIfNeeded files := by
  unfold lookup
  split
  case h_1 => exact .inl rfl
  case h_2 => exact .inr rfl

/-- Nothing can be removed from an empty table. -/
theorem remove_empty (reading : Text) (empty : (store.loadIfNeeded files).entries = []) :
    (store.remove files reading).1 = store ∨ (store.remove files reading).1 = store.loadIfNeeded files := by
  unfold remove
  split
  case h_1 => exact .inl rfl
  case h_2 => simp [empty]

/-- Only a dirty table with a directory has a snapshot, which holds its entries. -/
theorem persistenceSnapshot_some {snapshot : PersistenceSnapshot δ}
    (taken : store.persistenceSnapshot = some snapshot) :
    store.dirty = true ∧ store.directory = some snapshot.url ∧ snapshot.generation = store.generation ∧
      snapshot.data = store.entries := by
  unfold persistenceSnapshot at taken
  split at taken
  case isTrue dirty =>
    obtain ⟨url, directory, rfl⟩ := Option.map_eq_some_iff.mp taken
    exact ⟨dirty, directory, rfl, rfl⟩
  case isFalse => exact absurd taken nofun

end CorrectionStore

namespace CorrectionEdit

open CorrectionStore

variable {δ : Type} {files : δ → Option (List CorrectionEntry)}

/-- One change, and the need to write that was there before. -/
theorem apply_edited (files : δ → Option (List CorrectionEntry)) (state : CorrectionStore δ × Bool) (edit : CorrectionEdit) :
    Edited files 1 state.1 (apply files state edit).1 (apply files state edit).2 ∧
      (state.2 = true → (apply files state edit).2 = true) := by
  cases edit with
  | record reading surface => exact ⟨record_edited reading surface, fun _ => rfl⟩
  | remove reading =>
    exact ⟨remove_edited reading state.2, fun wanted => by simp [apply, wanted]⟩

/-- The changes of one critical section, continued from where they stand. -/
theorem foldl_edited (files : δ → Option (List CorrectionEntry)) (edits : List CorrectionEdit) :
    ∀ state : CorrectionStore δ × Bool,
      Edited files edits.length state.1 (edits.foldl (apply files) state).1
          (edits.foldl (apply files) state).2 ∧
        (state.2 = true → (edits.foldl (apply files) state).2 = true) := by
  induction edits with
  | nil => exact fun state => ⟨.refl 0 _, id⟩
  | cons edit edits ih =>
    intro state
    obtain ⟨first, kept⟩ := apply_edited files state edit
    obtain ⟨rest, later⟩ := ih (apply files state edit)
    refine ⟨?_, fun wanted => later (kept wanted)⟩
    rw [List.length_cons, Nat.add_comm]
    exact first.trans rest later

/-- The changes of one critical section. -/
theorem applyAll_edited (files : δ → Option (List CorrectionEntry)) (store : CorrectionStore δ) (edits : List CorrectionEdit) :
    Edited files edits.length store (applyAll files store edits).1 (applyAll files store edits).2 :=
  (foldl_edited files edits (store, false)).1

/-- An empty table stays empty while nothing is recorded. -/
theorem foldl_empty {edits : List CorrectionEdit} (unrecorded : edits.any (·.isRecord) = false) :
    ∀ state : CorrectionStore δ × Bool, state.1.entries = [] → contents (state.1.file files) = [] →
      (edits.foldl (apply files) state).1.entries = [] := by
  induction edits with
  | nil => exact fun state empty _ => empty
  | cons edit edits ih =>
    intro state empty missing
    rw [List.any_cons, Bool.or_eq_false_iff] at unrecorded
    have read : (state.1.loadIfNeeded files).entries = [] := by
      unfold loadIfNeeded
      split
      · exact empty
      · exact missing
    cases edit with
    | record reading surface => exact absurd unrecorded.1 Bool.noConfusion
    | remove reading =>
      -- The table is at most read, and its file has nothing to offer.
      apply ih unrecorded.2
      · rcases remove_empty reading read with same | loaded
        · exact (congrArg entries same).trans empty
        · exact (congrArg entries loaded).trans read
      · rcases remove_empty reading read with same | loaded
        · exact (congrArg (fun store => contents (store.file files)) same).trans missing
        · refine (congrArg (fun store => contents (store.file files)) loaded).trans ?_
          rw [file, loadIfNeeded_directory]
          exact missing

end CorrectionEdit

end Nospacekey
