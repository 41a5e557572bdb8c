import Nospacekey.Learning.CorrectionLane
import Nospacekey.Learning.CorrectionLaws
import Nospacekey.Library.Runs

/-! When corrections are neither lost nor resurrected on disk. -/

namespace Nospacekey

namespace CorrectionLane

open CorrectionStore

variable {δ : Type} [DecidableEq δ] {s : CorrectionLane δ} {d : δ}

/-- The first table of a directory that has been read. -/
def lastIn (stores : List (CorrectionStore δ)) (d : δ) : Option (CorrectionStore δ) :=
  stores.find? fun store => store.directory = some d && store.loaded

/-- The table that held the corrections of a directory last. -/
def lastLoaded (s : CorrectionLane δ) (d : δ) : Option (CorrectionStore δ) := lastIn (s.corrections :: s.replaced) d

/-- No drain waits or runs, so no job does. -/
def LaneEmpty (s : CorrectionLane δ) : Prop := .drain ∉ s.blocks

/-- The job has captured this snapshot of a table and not yet acknowledged it. -/
def InFlight (s : CorrectionLane δ) (store : Nat) (snapshot : PersistenceSnapshot δ) : Prop :=
  s.job = .captured store snapshot ∨ s.job = .written store snapshot

/-- A directory's file holds these entries, and so does a write that is on its way to it. -/
def Settled (s : CorrectionLane δ) (d : δ) (entries : List CorrectionEntry) : Prop :=
  contents (s.files d) = entries ∧
    ∀ store snapshot, s.job = .captured store snapshot → snapshot.url = d → snapshot.data = entries

/-- The present state of a table has been captured and is about to be written. -/
def Carried (s : CorrectionLane δ) (store : CorrectionStore δ) : Prop :=
  ∃ snapshot, s.job = .captured store.id snapshot ∧ snapshot.generation = store.generation

/-- The current table has been read, or the file it is read from is settled. -/
def Readable (s : CorrectionLane δ) : Prop :=
  s.corrections.loaded = true ∨
    ∀ d, s.corrections.directory = some d → s.Settled d (contents (s.files d))

/-- The generation of the current table stays clear of a snapshot in flight for so many changes. -/
def Apart (s : CorrectionLane δ) (changes : Nat) : Prop :=
  ∀ snapshot, s.InFlight s.corrections.id snapshot →
    (s.corrections.generation + 2 ^ 64 - snapshot.generation) % 2 ^ 64 + changes < 2 ^ 64

/--
The steps that stay clear of the lane's two gaps.

A table is not replaced while its changes are neither on disk nor captured, and nothing is read or
cleared over a captured snapshot that is still to be written.
-/
def Safe (s : CorrectionLane δ) : Op δ → Prop
  | .correct edits => s.Readable ∧ s.Apart edits.length
  | .lookup _ => s.Readable
  | .reload newLearningDirectory _ =>
    s.learningDirectory = newLearningDirectory ∨ s.corrections.loaded = false ∨
      ∀ d, s.corrections.directory = some d → s.Settled d s.corrections.entries ∨ s.Carried s.corrections
  | .finishClear true => s.clear = .fenced →
    (∀ store snapshot, s.job = .captured store snapshot → snapshot.data = []) ∧
      ∀ d, s.learningDirectory ≠ some d → contents (s.files d) = []
  | .finishClear false => s.clear = .fenced → ∀ d, s.corrections.directory = some d → s.Settled d []
  | .work | .clearLearning => True

/-- How the table that held a directory's corrections last stands to the directory's file. -/
structure Kept (s : CorrectionLane δ) (d : δ) (store : CorrectionStore δ) : Prop where
  clean : store.dirty = false → s.Settled d store.entries
  captured : ∀ snapshot, s.job = .captured store.id snapshot → snapshot.generation = store.generation →
    snapshot.url = d ∧ snapshot.data = store.entries
  written : ∀ snapshot, s.job = .written store.id snapshot → snapshot.generation = store.generation →
    s.Settled d store.entries
  onDisk : s.Settled d store.entries ∨ s.Carried store ∨
    (store.id = s.corrections.id ∧ store.dirty = true ∧ (s.coalesced = true ∨ s.job = .starting))

/-- What the lane keeps while its steps are safe. -/
structure Ordered (s : CorrectionLane δ) : Prop where
  short : ∀ store ∈ s.corrections :: s.replaced, store.entries.length ≤ maxEntries
  older : ∀ store ∈ s.replaced, store.id < s.corrections.id
  directory : s.corrections.directory = s.learningDirectory ∨
    (s.corrections.directory = none ∧ s.replaced = [])
  read : s.corrections.dirty = true → s.corrections.loaded = true
  inFlight : ∀ store snapshot, s.InFlight store snapshot →
    store < s.corrections.id ∨ (store = s.corrections.id ∧ s.corrections.loaded = true)
  fits : ∀ store snapshot, s.job = .captured store snapshot → snapshot.data.length ≤ maxEntries
  busy : s.coalesced = true ∨ s.job ≠ .none → .drain ∈ s.blocks
  kept : ∀ d store, s.lastLoaded d = some store → s.Kept d store
  wiped : s.cleared = true → (∀ d, contents (s.files d) = []) ∧
    (∀ store snapshot, s.job = .captured store snapshot → snapshot.data = []) ∧ s.corrections.entries = []

/-- The corrections of every directory are on disk once the lane is empty. -/
structure Durable (s : CorrectionLane δ) : Prop where
  /-- A file holds what its directory's table held last. -/
  stored : s.LaneEmpty → ∀ d store, s.lastLoaded d = some store → contents (s.files d) = store.entries
  /-- What was cleared does not come back. -/
  erased : s.LaneEmpty → s.cleared = true → ∀ d, contents (s.files d) = []
  /-- A table that is not dirty is on disk, with the lane empty or not. -/
  clean : ∀ d store, s.lastLoaded d = some store → store.dirty = false → contents (s.files d) = store.entries
  /-- The current table is what its file is read as, even before it is read. -/
  current : ∀ d, s.corrections.directory = some d → s.corrections.dirty = false →
    contents (s.files d) = (s.corrections.loadIfNeeded s.files).entries

/-- The first table is the last one of its directory once it has been read. -/
theorem lastIn_head (store : CorrectionStore δ) (stores : List (CorrectionStore δ))
    (directory : store.directory = some d) (loaded : store.loaded = true) :
    lastIn (store :: stores) d = some store := by
  simp [lastIn, directory, loaded]

/-- Before that, and for other directories, the last table is a later one. -/
theorem lastIn_tail (store : CorrectionStore δ) (stores : List (CorrectionStore δ))
    (other : ¬(store.directory = some d ∧ store.loaded = true)) :
    lastIn (store :: stores) d = lastIn stores d := by
  rw [lastIn, List.find?_cons_of_neg]
  · rfl
  · simpa using other

/-- The last table of a directory belongs to it and is one of those the service had. -/
theorem lastLoaded_sound {store : CorrectionStore δ} (last : s.lastLoaded d = some store) :
    store.directory = some d ∧ store.loaded = true ∧ store ∈ s.corrections :: s.replaced := by
  unfold lastLoaded lastIn at last
  have found := List.find?_some last
  simp only [Bool.and_eq_true, decide_eq_true_eq] at found
  exact ⟨found.1, found.2, List.mem_of_find?_eq_some last⟩

/-- The last table that is the current one by its identity is the current one. -/
theorem Ordered.isCurrent (ordered : s.Ordered) {store : CorrectionStore δ} (last : s.lastLoaded d = some store)
    (current : store.id = s.corrections.id) : store = s.corrections := by
  rcases List.mem_cons.mp (lastLoaded_sound last).2.2 with same | earlier
  · exact same
  · exact absurd (current ▸ ordered.older store earlier) (Nat.lt_irrefl _)

omit [DecidableEq δ] in
/-- What is kept of a table depends on the disk, the job and the label only. -/
theorem Kept.frame {after : CorrectionLane δ} {store : CorrectionStore δ} (kept : s.Kept d store)
    (files : after.files d = s.files d) (job : after.job = s.job)
    (id : after.corrections.id = s.corrections.id) (coalesced : s.coalesced = true → after.coalesced = true) :
    after.Kept d store := by
  have settled (entries : List CorrectionEntry) (before : s.Settled d entries) : after.Settled d entries := by
    rw [Settled, files, job]
    exact before
  refine ⟨fun clean => settled _ (kept.clean clean), ?_, ?_, ?_⟩
  · rw [job]
    exact kept.captured
  · rw [job]
    exact fun snapshot written same => settled _ (kept.written snapshot written same)
  · rcases kept.onDisk with before | carried | ⟨current, dirty, pending⟩
    · exact .inl (settled _ before)
    · rw [Carried, job]
      exact .inr (.inl carried)
    · rw [id, job]
      exact .inr (.inr ⟨current, dirty, pending.imp_left coalesced⟩)

/-- Submitting a job loses nothing. -/
theorem Ordered.enqueued (ordered : s.Ordered) : s.enqueueCorrectionPersistence.Ordered where
  short := ordered.short
  older := ordered.older
  directory := ordered.directory
  read := ordered.read
  inFlight := ordered.inFlight
  fits := ordered.fits
  busy := by
    intro _
    simp only [enqueueCorrectionPersistence]
    split
    case isTrue present => exact present
    case isFalse => exact List.mem_append_right _ (List.mem_singleton.mpr rfl)
  kept := fun d store last => (ordered.kept d store last).frame rfl rfl rfl fun _ => rfl
  wiped := ordered.wiped

/-- A table that is read, or changed with a job to follow, is still kept. -/
theorem Ordered.touched (ordered : s.Ordered) {bound : Nat} {after : CorrectionStore δ} {wants cleared : Bool}
    (edited : Edited s.files bound s.corrections after wants) (readable : s.Readable) (apart : s.Apart bound)
    (submitted : wants = true → s.coalesced = true)
    (unchanged : cleared = true → s.cleared = true ∧ after.entries = []) :
    Ordered { s with corrections := after, cleared := cleared } where
  short := by
    intro store member
    rcases List.mem_cons.mp member with rfl | earlier
    · exact edited.short (ordered.short _ List.mem_cons_self)
    · exact ordered.short store (List.mem_cons_of_mem _ earlier)
  older := fun store earlier => edited.id ▸ ordered.older store earlier
  directory := edited.directory ▸ ordered.directory
  read := by
    rcases edited.outcome with rfl | rfl | ⟨_, _, _, _, _, loaded, _⟩
    · exact ordered.read
    · exact fun _ => loadIfNeeded_loaded
    · exact fun _ => loaded
  inFlight := by
    intro store snapshot flying
    refine (ordered.inFlight store snapshot flying).imp (edited.id ▸ ·) fun ⟨same, read⟩ => ?_
    refine ⟨same.trans edited.id.symm, ?_⟩
    rcases edited.outcome with rfl | rfl | ⟨_, _, _, _, _, loaded, _⟩
    · exact read
    · exact loadIfNeeded_loaded
    · exact loaded
  fits := ordered.fits
  busy := ordered.busy
  kept := by
    intro d store last
    have untouched (before : s.lastLoaded d = some store) :
        Kept { s with corrections := after, cleared := cleared } d store :=
      (ordered.kept d store before).frame rfl rfl edited.id id
    by_cases current : after.directory = some d ∧ after.loaded = true
    · cases (lastIn_head after s.replaced current.1 current.2).symm.trans last
      have directory := edited.directory.symm.trans current.1
      rcases edited.outcome with rfl | read | ⟨times, positive, within, generation, dirty, loaded, wanted⟩
      · exact untouched (lastIn_head _ _ directory current.2)
      · by_cases loaded : s.corrections.loaded = true
        · obtain rfl := read.trans (loadIfNeeded_of_loaded loaded)
          exact untouched (lastIn_head _ _ directory current.2)
        · -- A table that is read for the first time takes the settled contents of its file.
          have settled : s.Settled d after.entries := by
            rw [read, loadIfNeeded_entries (Bool.eq_false_iff.mpr loaded), file, directory]
            exact readable.resolve_left loaded d directory
          have idle (snapshot : PersistenceSnapshot δ) : ¬s.InFlight after.id snapshot := by
            intro flying
            rcases ordered.inFlight _ snapshot flying with below | ⟨_, before⟩
            · rw [edited.id] at below
              exact Nat.lt_irrefl _ below
            · exact loaded before
          exact ⟨fun _ => settled, fun snapshot captured => absurd (.inl captured) (idle snapshot),
            fun snapshot written => absurd (.inr written) (idle snapshot), .inl settled⟩
      · -- A changed table is under a new generation, and its job is submitted.
        have renewed (snapshot : PersistenceSnapshot δ) (flying : s.InFlight after.id snapshot) :
            snapshot.generation ≠ after.generation := by
          have clear := apart snapshot (edited.id ▸ flying)
          omega
        refine ⟨fun clean => absurd (clean.symm.trans dirty) Bool.noConfusion, ?_, ?_, ?_⟩
        · exact fun snapshot captured same => absurd same (renewed snapshot (.inl captured))
        · exact fun snapshot written same => absurd same (renewed snapshot (.inr written))
        · exact .inr (.inr ⟨rfl, dirty, .inl (submitted wanted)⟩)
    · -- The last table of this directory is a replaced one, before and after.
      have other : ¬(s.corrections.directory = some d ∧ s.corrections.loaded = true) := by
        rintro ⟨directory, loaded⟩
        refine current ⟨edited.directory.trans directory, ?_⟩
        rcases edited.outcome with rfl | rfl | ⟨_, _, _, _, _, read, _⟩
        · exact loaded
        · exact loadIfNeeded_loaded
        · exact read
      apply untouched
      exact (lastIn_tail _ _ other).trans ((lastIn_tail after _ current).symm.trans last)
  wiped := by
    intro clear
    obtain ⟨before, empty⟩ := unchanged clear
    exact ⟨(ordered.wiped before).1, (ordered.wiped before).2.1, empty⟩

/-- One critical section of changes. -/
theorem Ordered.correct (ordered : s.Ordered) {edits : List CorrectionEdit}
    (safe : s.Safe (.correct edits)) : (s.correct edits).Ordered := by
  have edited := CorrectionEdit.applyAll_edited s.files s.corrections edits
  -- The table keeps nothing of what was cleared unless something is recorded.
  have unchanged (clear : (s.cleared && !edits.any (·.isRecord)) = true) :
      s.cleared = true ∧ (CorrectionEdit.applyAll s.files s.corrections edits).1.entries = [] := by
    simp only [Bool.and_eq_true, Bool.not_eq_true'] at clear
    obtain ⟨files, _, empty⟩ := ordered.wiped clear.1
    refine ⟨clear.1, CorrectionEdit.foldl_empty clear.2 (s.corrections, false) empty ?_⟩
    cases directory : s.corrections.directory with
    | none => simp [file, directory]
    | some d => simpa [file, directory] using files d
  unfold CorrectionLane.correct
  dsimp only
  split
  case isTrue wants =>
    exact Ordered.touched (s := s.enqueueCorrectionPersistence) ordered.enqueued edited safe.1 safe.2
      (fun _ => rfl) unchanged
  case isFalse unwanted => exact ordered.touched edited safe.1 safe.2 (absurd · unwanted) unchanged

/-- Looking an entry up. -/
theorem Ordered.lookup (ordered : s.Ordered) {reading : Text} (safe : s.Safe (.lookup reading)) :
    (s.step (.lookup reading)).Ordered := by
  have edited : Edited s.files 0 s.corrections (s.corrections.lookup s.files reading).1 false := by
    rcases lookup_read s.files s.corrections reading with same | read
    · rw [same]
      exact .refl 0 false
    · rw [read]
      exact .loaded 0 false
  have empty (clear : s.cleared = true) : (s.corrections.lookup s.files reading).1.entries = [] := by
    obtain ⟨files, _, before⟩ := ordered.wiped clear
    rcases lookup_read s.files s.corrections reading with same | read
    · exact (congrArg entries same).trans before
    · rw [read]
      unfold loadIfNeeded
      split
      · exact before
      · cases directory : s.corrections.directory with
        | none => simp [file, directory]
        | some d => simpa [file, directory] using files d
  exact ordered.touched edited safe (fun snapshot _ => by omega) Bool.noConfusion fun clear => ⟨clear, empty clear⟩

/-- A table of another directory takes the place of one whose changes are on disk or captured. -/
theorem Ordered.replace (ordered : s.Ordered) (dir : Option δ)
    (safe : s.corrections.loaded = false ∨ ∀ d, s.corrections.directory = some d →
      s.Settled d s.corrections.entries ∨ s.Carried s.corrections) :
    Ordered { s with
      corrections := .new (s.corrections.id + 1) dir
      replaced := s.corrections :: s.replaced
      learningDirectory := dir } where
  short := by
    intro store member
    rcases List.mem_cons.mp member with rfl | earlier
    · exact Nat.zero_le _
    · exact ordered.short store earlier
  older := by
    intro store member
    rcases List.mem_cons.mp member with rfl | earlier
    · exact Nat.lt_succ_self _
    · exact Nat.lt_succ_of_lt (ordered.older store earlier)
  directory := .inl rfl
  read := fun dirty => absurd dirty Bool.noConfusion
  inFlight := by
    intro store snapshot flying
    rcases ordered.inFlight store snapshot flying with below | ⟨same, _⟩
    · exact .inl (Nat.lt_succ_of_lt below)
    · exact .inl (same ▸ Nat.lt_succ_self _)
  fits := ordered.fits
  busy := ordered.busy
  kept := by
    intro d store last
    -- The new table has not been read, so the last one is as before.
    have before : s.lastLoaded d = some store :=
      (lastIn_tail (.new _ dir) _ (fun both => absurd both.2 Bool.noConfusion)).symm.trans last
    have kept := ordered.kept d store before
    refine ⟨kept.clean, kept.captured, kept.written, ?_⟩
    rcases kept.onDisk with settled | carried | ⟨current, dirty, pending⟩
    · exact .inl settled
    · exact .inr (.inl carried)
    · -- Only the table that is replaced could still wait for its job.
      obtain ⟨directory, loaded, _⟩ := lastLoaded_sound before
      cases ordered.isCurrent before current
      rcases safe with unread | stored
      · exact absurd (unread.symm.trans loaded) Bool.noConfusion
      · exact (stored d directory).imp id .inl
  wiped := fun clear => ⟨(ordered.wiped clear).1, (ordered.wiped clear).2.1, rfl⟩

/-- Another learning directory. -/
theorem Ordered.reload (ordered : s.Ordered) {dir : Option δ} {turnedOff : Bool}
    (safe : s.Safe (.reload dir turnedOff)) : (s.reload dir turnedOff).Ordered := by
  unfold CorrectionLane.reload
  by_cases same : s.learningDirectory = dir
  · -- At most a job is submitted.
    cases turnedOff with
    | false =>
      simp only [Bool.false_eq_true, if_false, ne_eq, same, not_true_eq_false]
      exact ordered
    | true =>
      simp only [if_true, ne_eq, show s.enqueueCorrectionPersistence.learningDirectory = dir from same,
        not_true_eq_false, if_false]
      exact ordered.enqueued
  · -- The table is replaced after a job was submitted, with learning turned off or not.
    have stored := safe.resolve_left same
    cases turnedOff with
    | false =>
      simp only [Bool.false_eq_true, if_false, ne_eq, same, not_false_eq_true, if_true]
      exact Ordered.replace ordered.enqueued dir stored
    | true =>
      simp only [if_true, ne_eq, show ¬s.enqueueCorrectionPersistence.learningDirectory = dir from same,
        not_false_eq_true]
      exact Ordered.replace ordered.enqueued.enqueued dir stored

/-- The wiping of the memory, when the file of the table ends up settled as empty. -/
theorem Ordered.forget (ordered : s.Ordered) (files : δ → Option (List CorrectionEntry)) (cleared : Bool)
    (settled : ∀ d, s.corrections.directory = some d → Settled { s with files := files } d [])
    (others : ∀ d store, s.corrections.directory ≠ some d → s.lastLoaded d = some store → files d = s.files d)
    (wiped : cleared = true → (∀ d, contents (files d) = []) ∧
      ∀ store snapshot, s.job = .captured store snapshot → snapshot.data = []) :
    Ordered { s with
      corrections := s.corrections.clearMemory
      clear := .idle
      files := files
      cleared := cleared } where
  short := by
    intro store member
    rcases List.mem_cons.mp member with rfl | earlier
    · exact Nat.zero_le _
    · exact ordered.short store (List.mem_cons_of_mem _ earlier)
  older := ordered.older
  directory := ordered.directory
  read := fun _ => rfl
  inFlight := fun store snapshot flying =>
    (ordered.inFlight store snapshot flying).imp_right fun same => ⟨same.1, rfl⟩
  fits := ordered.fits
  busy := ordered.busy
  kept := by
    intro d store last
    by_cases current : s.corrections.directory = some d
    · cases (lastIn_head s.corrections.clearMemory s.replaced current rfl).symm.trans last
      have empty := settled d current
      refine ⟨fun _ => empty, fun snapshot captured generation => ?_, fun _ _ _ => empty, .inl empty⟩
      -- A captured snapshot of this table has been found empty.
      have loaded : s.corrections.loaded = true :=
        ((ordered.inFlight _ snapshot (.inl captured)).resolve_left (Nat.lt_irrefl _)).2
      have kept := ordered.kept d _ (lastIn_head _ _ current loaded)
      have url := (kept.captured snapshot captured generation).1
      exact ⟨url, empty.2 _ snapshot captured url⟩
    · -- The tables of other directories are those that were replaced.
      have before : s.lastLoaded d = some store :=
        (lastIn_tail _ _ (fun both => current both.1)).trans
          ((lastIn_tail s.corrections.clearMemory _ (fun both => current both.1)).symm.trans last)
      exact (ordered.kept d store before).frame (others d store current before) rfl rfl id
  wiped := fun clear => ⟨(wiped clear).1, (wiped clear).2, rfl⟩

/-- The end of a clear. -/
theorem Ordered.finishClear (ordered : s.Ordered) {deletes : Bool} (fenced : s.clear = .fenced)
    (safe : s.Safe (.finishClear deletes)) : (s.finishClear deletes).Ordered := by
  cases deletes with
  | false =>
    exact ordered.forget s.files s.cleared (safe fenced) (fun _ _ _ _ => rfl) fun clear =>
      ⟨(ordered.wiped clear).1, (ordered.wiped clear).2.1⟩
  | true =>
    obtain ⟨captured, elsewhere⟩ := safe fenced
    have erased (d : δ) : contents (if s.learningDirectory = some d then none else s.files d) = [] := by
      split
      case isTrue => exact contents_none
      case isFalse other => exact elsewhere d other
    refine ordered.forget (fun url => if s.learningDirectory = some url then none else s.files url) true
      (fun d _ => ⟨erased d, fun store snapshot flying _ => captured store snapshot flying⟩) ?_
      fun _ => ⟨erased, captured⟩
    -- A directory with a table of its own is kept unless it is the learning directory.
    intro d store other last
    refine if_neg fun same => ?_
    rcases ordered.directory with known | ⟨missing, unreplaced⟩
    · exact other (known.trans same)
    · have none : s.lastLoaded d = none := by simp [lastLoaded, lastIn, missing, unreplaced]
      exact absurd (none.symm.trans last) nofun

/-- What the lane keeps does not depend on the clear that is going on. -/
theorem Ordered.fenced (ordered : s.Ordered) (clear : LearningClear) (blocks : List LaneBlock)
    (drains : .drain ∈ s.blocks → .drain ∈ blocks) : Ordered { s with clear := clear, blocks := blocks } where
  short := ordered.short
  older := ordered.older
  directory := ordered.directory
  read := ordered.read
  inFlight := ordered.inFlight
  fits := ordered.fits
  busy := fun working => drains (ordered.busy working)
  kept := fun d store last => (ordered.kept d store last).frame rfl rfl rfl id
  wiped := ordered.wiped

/-- A job that waits is started. -/
theorem Ordered.started (ordered : s.Ordered) (idle : s.job = .none) (drains : .drain ∈ s.blocks) :
    Ordered { s with coalesced := false, job := .starting } where
  short := ordered.short
  older := ordered.older
  directory := ordered.directory
  read := ordered.read
  inFlight := fun _ _ flying => flying.elim nofun nofun
  fits := fun _ _ captured => absurd captured nofun
  busy := fun _ => drains
  kept := by
    intro d store last
    have kept := ordered.kept d store last
    have settled (entries : List CorrectionEntry) (before : s.Settled d entries) :
        Settled { s with coalesced := false, job := .starting } d entries := ⟨before.1, nofun⟩
    refine ⟨fun clean => settled _ (kept.clean clean), nofun, nofun, ?_⟩
    rcases kept.onDisk with before | ⟨_, captured, _⟩ | ⟨current, dirty, _⟩
    · exact .inl (settled _ before)
    · exact absurd (idle.symm.trans captured) nofun
    · exact .inr (.inr ⟨current, dirty, .inr rfl⟩)
  wiped := fun clear => ⟨(ordered.wiped clear).1, nofun, (ordered.wiped clear).2.2⟩

/-- An idle lane stops draining. -/
theorem Ordered.drained (ordered : s.Ordered) (idle : s.job = .none) (nothing : s.coalesced = false)
    (blocks : List LaneBlock) : Ordered { s with blocks := blocks } where
  short := ordered.short
  older := ordered.older
  directory := ordered.directory
  read := ordered.read
  inFlight := ordered.inFlight
  fits := ordered.fits
  busy := by
    rintro (waiting | working)
    · exact absurd (nothing.symm.trans waiting) Bool.noConfusion
    · exact absurd idle working
  kept := fun d store last => (ordered.kept d store last).frame rfl rfl rfl id
  wiped := ordered.wiped

/-- A job that finds nothing to write ends. -/
theorem Ordered.skipped (ordered : s.Ordered) (starting : s.job = .starting)
    (nothing : s.corrections.persistenceSnapshot = none) : Ordered { s with job := .none } where
  short := ordered.short
  older := ordered.older
  directory := ordered.directory
  read := ordered.read
  inFlight := fun _ _ flying => flying.elim nofun nofun
  fits := fun _ _ captured => absurd captured nofun
  busy := fun working => ordered.busy (.inr (starting ▸ nofun))
  kept := by
    intro d store last
    have kept := ordered.kept d store last
    have settled (entries : List CorrectionEntry) (before : s.Settled d entries) :
        Settled { s with job := .none } d entries := ⟨before.1, nofun⟩
    refine ⟨fun clean => settled _ (kept.clean clean), nofun, nofun, ?_⟩
    rcases kept.onDisk with before | ⟨_, captured, _⟩ | ⟨current, dirty, _⟩
    · exact .inl (settled _ before)
    · exact absurd (starting.symm.trans captured) nofun
    · -- The current table is dirty and has a directory, so there was something to write.
      have directory := (lastLoaded_sound last).1
      cases ordered.isCurrent last current
      simp [persistenceSnapshot, dirty, directory] at nothing
  wiped := fun clear => ⟨(ordered.wiped clear).1, nofun, (ordered.wiped clear).2.2⟩

/-- A job captures the current table. -/
theorem Ordered.captured (ordered : s.Ordered) (starting : s.job = .starting) {snapshot : PersistenceSnapshot δ}
    (taken : s.corrections.persistenceSnapshot = some snapshot) :
    Ordered { s with job := .captured s.corrections.id snapshot } where
  short := ordered.short
  older := ordered.older
  directory := ordered.directory
  read := ordered.read
  inFlight := by
    rintro store other (captured | written)
    · cases captured
      exact .inr ⟨rfl, ordered.read (persistenceSnapshot_some taken).1⟩
    · exact absurd written nofun
  fits := by
    rintro store other captured
    cases captured
    rw [(persistenceSnapshot_some taken).2.2.2]
    exact ordered.short _ List.mem_cons_self
  busy := fun working => ordered.busy (.inr (starting ▸ nofun))
  kept := by
    intro d store last
    have kept := ordered.kept d store last
    obtain ⟨dirty, directory, generation, data⟩ := persistenceSnapshot_some taken
    by_cases current : s.corrections.directory = some d
    · -- The table that is captured is the last one of its directory.
      cases (lastIn_head _ s.replaced current (ordered.read dirty)).symm.trans last
      refine ⟨fun clean => absurd (clean.symm.trans dirty) Bool.noConfusion, fun other captured _ => ?_, nofun,
        .inr (.inl ⟨snapshot, rfl, generation⟩)⟩
      cases captured
      exact ⟨Option.some.inj (directory.symm.trans current), data⟩
    · have settled (entries : List CorrectionEntry) (before : s.Settled d entries) :
          Settled { s with job := .captured s.corrections.id snapshot } d entries := by
        refine ⟨before.1, fun store other captured same => ?_⟩
        cases captured
        exact absurd (same ▸ directory) current
      have other : store.id ≠ s.corrections.id := by
        rintro same
        cases ordered.isCurrent last same
        exact current (lastLoaded_sound last).1
      refine ⟨fun clean => settled _ (kept.clean clean), fun _ captured => ?_, nofun, ?_⟩
      · exact absurd (CorrectionJob.captured.inj captured).1.symm other
      · rcases kept.onDisk with before | ⟨_, captured, _⟩ | ⟨same, _⟩
        · exact .inl (settled _ before)
        · exact absurd (starting.symm.trans captured) nofun
        · exact absurd same other
  wiped := by
    intro clear
    obtain ⟨files, _, empty⟩ := ordered.wiped clear
    refine ⟨files, fun store other captured => ?_, empty⟩
    cases captured
    exact (persistenceSnapshot_some taken).2.2.2.trans empty

/-- A captured snapshot is written. -/
theorem Ordered.written (ordered : s.Ordered) {id : Nat} {snapshot : PersistenceSnapshot δ}
    (captured : s.job = .captured id snapshot) :
    Ordered { s with files := Function.update s.files snapshot.url (some snapshot.data), job := .written id snapshot } where
  short := ordered.short
  older := ordered.older
  directory := ordered.directory
  read := ordered.read
  inFlight := by
    rintro store other (again | written)
    · exact absurd again nofun
    · cases written
      exact ordered.inFlight id snapshot (.inl captured)
  fits := fun _ _ again => absurd again nofun
  busy := fun _ => ordered.busy (.inr (captured ▸ nofun))
  kept := by
    intro d store last
    have kept := ordered.kept d store last
    have short := contents_some (ordered.fits id snapshot captured)
    -- What was on disk or on its way there is on disk now.
    have settled (entries : List CorrectionEntry)
        (before : s.Settled d entries ∨ (snapshot.url = d ∧ snapshot.data = entries)) :
        Settled { s with
          files := Function.update s.files snapshot.url (some snapshot.data)
          job := .written id snapshot } d entries := by
      refine ⟨?_, nofun⟩
      by_cases same : snapshot.url = d
      · subst same
        have data : snapshot.data = entries :=
          before.elim (fun before => before.2 id snapshot captured rfl) And.right
        simpa [short] using data
      · simp only [Function.update_of_ne (Ne.symm same)]
        exact (before.resolve_right fun both => same both.1).1
    have own (same : store.id = id) (generation : snapshot.generation = store.generation) :
        snapshot.url = d ∧ snapshot.data = store.entries := kept.captured snapshot (same ▸ captured) generation
    refine ⟨fun clean => settled _ (.inl (kept.clean clean)), nofun, fun _ written generation => ?_, ?_⟩
    · cases written
      exact settled _ (.inr (own rfl generation))
    · rcases kept.onDisk with before | ⟨_, again, generation⟩ | ⟨same, dirty, pending | starting⟩
      · exact .inl (settled _ (.inl before))
      · cases captured.symm.trans again
        exact .inl (settled _ (.inr (own rfl generation)))
      · exact .inr (.inr ⟨same, dirty, .inl pending⟩)
      · exact absurd (captured.symm.trans starting) nofun
  wiped := by
    intro clear
    obtain ⟨files, data, empty⟩ := ordered.wiped clear
    refine ⟨fun d => ?_, nofun, empty⟩
    by_cases same : d = snapshot.url
    · subst same
      simp [data id snapshot captured, contents]
    · simpa [Function.update_of_ne same] using files d

/-- The acknowledgement of a written snapshot, as the tables see it. -/
def acknowledged (id : Nat) (snapshot : PersistenceSnapshot δ) (other : CorrectionStore δ) : CorrectionStore δ :=
  if other.id = id then other.acknowledgePersistence snapshot else other

omit [DecidableEq δ] in
/-- An acknowledgement can only make a table of its generation clean. -/
theorem acknowledged_spec (id : Nat) (snapshot : PersistenceSnapshot δ) (other : CorrectionStore δ) :
    (acknowledged id snapshot other).id = other.id ∧ (acknowledged id snapshot other).directory = other.directory ∧
      (acknowledged id snapshot other).entries = other.entries ∧ (acknowledged id snapshot other).loaded = other.loaded ∧
      ((acknowledged id snapshot other).dirty = other.dirty ∨ ((acknowledged id snapshot other).dirty = false ∧
        other.id = id ∧ snapshot.generation = other.generation)) := by
  unfold acknowledged acknowledgePersistence
  split
  case isTrue same =>
    split
    case isTrue generation => exact ⟨rfl, rfl, rfl, rfl, .inr ⟨rfl, same, generation.symm⟩⟩
    case isFalse => exact ⟨rfl, rfl, rfl, rfl, .inl rfl⟩
  case isFalse => exact ⟨rfl, rfl, rfl, rfl, .inl rfl⟩

/-- Acknowledging does not change which table is the last one. -/
theorem lastIn_acknowledged (id : Nat) (snapshot : PersistenceSnapshot δ) (stores : List (CorrectionStore δ)) :
    lastIn (stores.map (acknowledged id snapshot)) d = (lastIn stores d).map (acknowledged id snapshot) := by
  rw [lastIn, List.find?_map]
  congr 2
  funext store
  obtain ⟨_, directory, _, loaded, _⟩ := acknowledged_spec id snapshot store
  simp only [Function.comp_apply, directory, loaded]

/-- A written snapshot is acknowledged. -/
theorem Ordered.acknowledged (ordered : s.Ordered) {id : Nat} {snapshot : PersistenceSnapshot δ}
    (written : s.job = .written id snapshot) : (s.acknowledge id snapshot).Ordered where
  short := by
    intro store member
    obtain ⟨before, earlier, rfl⟩ :=
      List.mem_map.mp (show store ∈ (s.corrections :: s.replaced).map (CorrectionLane.acknowledged id snapshot) from member)
    rw [(acknowledged_spec id snapshot before).2.2.1]
    exact ordered.short before earlier
  older := by
    intro store member
    obtain ⟨before, earlier, rfl⟩ := List.mem_map.mp member
    have current := (acknowledged_spec id snapshot s.corrections).1
    have replaced := (acknowledged_spec id snapshot before).1
    exact (replaced.trans_lt (ordered.older before earlier)).trans_eq current.symm
  directory := by
    have same := (acknowledged_spec id snapshot s.corrections).2.1
    rcases ordered.directory with known | ⟨missing, unreplaced⟩
    · exact .inl (same.trans known)
    · exact .inr ⟨same.trans missing, congrArg (List.map _) unreplaced⟩
  read := by
    intro dirty
    obtain ⟨_, _, _, loaded, before | clean⟩ := acknowledged_spec id snapshot s.corrections
    · exact loaded.trans (ordered.read (before.symm.trans dirty))
    · exact absurd (clean.1.symm.trans dirty) Bool.noConfusion
  inFlight := fun _ _ flying => flying.elim nofun nofun
  fits := fun _ _ captured => absurd captured nofun
  busy := fun _ => ordered.busy (.inr (written ▸ nofun))
  kept := by
    intro d store last
    obtain ⟨before, earlier, rfl⟩ := Option.map_eq_some_iff.mp
      ((lastIn_acknowledged id snapshot (s.corrections :: s.replaced)).symm.trans last)
    have kept := ordered.kept d before earlier
    obtain ⟨same, _, entries, _, dirtiness⟩ := acknowledged_spec id snapshot before
    have settled (settled : s.Settled d before.entries) :
        (s.acknowledge id snapshot).Settled d (CorrectionLane.acknowledged id snapshot before).entries :=
      ⟨settled.1.trans entries.symm, nofun⟩
    -- The acknowledged table is the one whose entries were written.
    have clean (cleaned : before.id = id ∧ snapshot.generation = before.generation) : s.Settled d before.entries :=
      kept.written snapshot (cleaned.1 ▸ written) cleaned.2
    refine ⟨fun spotless => settled ?_, nofun, nofun, ?_⟩
    · exact dirtiness.elim (fun unchanged => kept.clean (unchanged.symm.trans spotless)) fun cleaned => clean cleaned.2
    · rcases dirtiness with unchanged | cleaned
      · rcases kept.onDisk with stored | ⟨_, captured, _⟩ | ⟨current, dirty, pending | starting⟩
        · exact .inl (settled stored)
        · exact absurd (written.symm.trans captured) nofun
        · have here := (acknowledged_spec id snapshot s.corrections).1
          exact .inr (.inr ⟨(same.trans current).trans here.symm, unchanged.trans dirty, .inl pending⟩)
        · exact absurd (written.symm.trans starting) nofun
      · exact .inl (settled (clean cleaned.2))
  wiped := by
    intro clear
    obtain ⟨files, _, empty⟩ := ordered.wiped clear
    exact ⟨files, nofun, (acknowledged_spec id snapshot s.corrections).2.2.1.trans empty⟩

/-- The next step of the lane. -/
theorem Ordered.work (ordered : s.Ordered) : s.work.Ordered := by
  unfold CorrectionLane.work
  split
  case h_1 => exact ordered
  case h_2 blocks waiting =>
    have drains : .drain ∈ s.blocks := waiting ▸ List.mem_cons_self
    unfold drain
    split
    case h_1 idle =>
      split
      case isTrue => exact ordered.started idle drains
      case isFalse nothing => exact ordered.drained idle (Bool.eq_false_iff.mpr nothing) blocks
    case h_2 starting =>
      split
      case h_1 nothing => exact ordered.skipped starting nothing
      case h_2 snapshot taken => exact ordered.captured starting taken
    case h_3 store snapshot captured => exact ordered.written captured
    case h_4 store snapshot written => exact ordered.acknowledged written
  case h_3 blocks waiting =>
    -- A fence that is passed leaves the drains behind it.
    refine ordered.fenced .fenced blocks fun drains => ?_
    rw [waiting] at drains
    exact (List.mem_cons.mp drains).resolve_left nofun

/-- A service starts in order. -/
theorem start_ordered (files : δ → Option (List CorrectionEntry)) (memoryDir resolved : Option δ) :
    (start files memoryDir resolved).Ordered where
  short := by
    intro store member
    cases List.mem_singleton.mp member
    exact Nat.zero_le _
  older := fun _ earlier => absurd earlier List.not_mem_nil
  directory := by
    cases memoryDir with
    | none => exact .inr ⟨rfl, rfl⟩
    | some d => exact .inl rfl
  read := fun dirty => absurd dirty Bool.noConfusion
  inFlight := fun _ _ flying => flying.elim nofun nofun
  fits := fun _ _ captured => absurd captured nofun
  busy := by
    rintro (waiting | working)
    · exact absurd waiting Bool.noConfusion
    · exact absurd rfl working
  kept := by
    intro d store last
    exact absurd ((lastIn_tail (.new 0 memoryDir) [] (fun both => absurd both.2 Bool.noConfusion)).symm.trans last) nofun
  wiped := fun clear => absurd clear Bool.noConfusion

/-- A safe step keeps the lane in order. -/
theorem Ordered.step (ordered : s.Ordered) (op : Op δ) (safe : s.Safe op) : (s.step op).Ordered := by
  cases op with
  | correct edits => exact ordered.correct safe
  | lookup reading => exact ordered.lookup safe
  | reload dir turnedOff => exact ordered.reload safe
  | work => exact ordered.work
  | clearLearning =>
    unfold CorrectionLane.step
    dsimp only
    split
    case isTrue => exact ordered.fenced .waiting _ (List.mem_append_left _)
    case isFalse => exact ordered
  | finishClear deletes =>
    unfold CorrectionLane.step
    dsimp only
    split
    case isTrue fenced => exact ordered.finishClear fenced safe
    case isFalse => exact ordered

/-- A lane in order has lost nothing and resurrects nothing. -/
theorem Ordered.durable (ordered : s.Ordered) : s.Durable where
  stored := by
    intro empty d store last
    rcases (ordered.kept d store last).onDisk with settled | ⟨snapshot, captured, _⟩ | ⟨_, _, pending⟩
    · exact settled.1
    · exact absurd (ordered.busy (.inr fun idle => absurd (captured.symm.trans idle) nofun)) empty
    · refine absurd (ordered.busy (pending.imp_right fun starting idle => ?_)) empty
      exact absurd (starting.symm.trans idle) nofun
  erased := fun _ clear => (ordered.wiped clear).1
  clean := fun d store last clean => ((ordered.kept d store last).clean clean).1
  current := by
    intro d directory clean
    by_cases loaded : s.corrections.loaded = true
    · rw [loadIfNeeded_of_loaded loaded]
      exact ((ordered.kept d _ (lastIn_head _ _ directory loaded)).clean clean).1
    · rw [loadIfNeeded_entries (Bool.eq_false_iff.mpr loaded), file, directory]
      rfl

/-- While steps are safe, the corrections are neither lost nor resurrected on disk. -/
theorem run_durable (files : δ → Option (List CorrectionEntry)) (memoryDir resolved : Option δ)
    (ops : List (Op δ)) (safe : Runs.Admissible CorrectionLane.step Safe (start files memoryDir resolved) ops) :
    (Runs.exec CorrectionLane.step (start files memoryDir resolved) ops).Durable :=
  (Runs.exec_invariant Ordered (fun _ op ordered safe => ordered.step op safe)
    (start_ordered files memoryDir resolved) safe).durable

/-- A correction that reaches the disk before its table is replaced. -/
theorem run_durable_reloaded :
    (Runs.exec step (start (fun _ => none) (some 1) none)
      [.correct [.record ['あ'] ['亜']], .work, .work, .work, .work, .work, .reload (some 2) false]).Durable :=
  run_durable (fun _ : Nat => none) (some 1) none _
    ⟨⟨.inr fun _ _ => ⟨rfl, nofun⟩, fun _ flying => flying.elim nofun nofun⟩, trivial, trivial, trivial, trivial,
      trivial, .inr (.inr fun d directory => .inl (by cases directory; exact ⟨rfl, nofun⟩)), trivial⟩

/-- A table replaced before its job runs is never written, and a write captured before a clear outlives it. -/
theorem lost_or_resurrected :
    ¬(∀ ops : List (Op Nat), (Runs.exec step (start (fun _ => none) (some 1) none) ops).Durable) ∧
      (let lost := Runs.exec step (start (fun _ : Nat => none) (some 1) none)
        [.correct [.record ['あ'] ['亜']], .reload (some 2) false, .work, .work, .work]
      lost.blocks = [] ∧ (lost.lastLoaded 1).map (·.entries) = some [⟨['あ'], ['亜']⟩] ∧ lost.files 1 = none) ∧
      (let resurrected := Runs.exec step (start (fun _ : Nat => none) (some 1) none)
        [.clearLearning, .work, .correct [.record ['あ'] ['亜']], .work, .work, .finishClear true, .work, .work, .work]
      resurrected.blocks = [] ∧ resurrected.cleared = true ∧ resurrected.corrections.entries = [] ∧
        resurrected.corrections.dirty = false ∧ resurrected.files 1 = some [⟨['あ'], ['亜']⟩]) := by
  refine ⟨fun durable => ?_, by decide, by decide⟩
  -- The cleared run leaves the entry in the file of the cleared directory.
  have erased := (durable [.clearLearning, .work, .correct [.record ['あ'] ['亜']], .work, .work, .finishClear true,
    .work, .work, .work]).erased (by unfold LaneEmpty; decide) (by decide) 1
  exact absurd erased (by decide)

end CorrectionLane

end Nospacekey
