import Nospacekey.Learning.ClearLearning
import Nospacekey.Library.Table

/-! A clear removes learning files only, and says that they are gone only when they are. -/

namespace Nospacekey

variable {ω : Type} {swift : SwiftString} {fs : LearningFileSystem ω}

/-- What the engine relies on of files: a call tells the truth about every name that no other process touches,
and changes nothing at it but what the call is for. A path that has gone is reported as such, and not as an
error. The converter's reset empties its memory and removes at most the names that it matches. -/
structure LearningFileSystem.Lawful (swift : SwiftString) (fs : LearningFileSystem ω)
    (present : ω → Text → Option LearningPathMetadata) (filled : ω → Bool) (touched : Text → Prop)
    (metadata : LearningPath → ω → Except FileError (Option LearningPathMetadata) × ω) : Prop where
  provided : fs.metadata = some metadata
  list_keeps : ∀ world name, ¬touched name → present (fs.list world).2 name = present world name
  list_names : ∀ world names, (fs.list world).1 = .ok names → ∀ name, ¬touched name → present world name ≠ none →
    name ∈ names
  list_gone : ∀ world, (fs.list world).1 = .error .notFound → ∀ name, ¬touched name → present world name = none
  metadata_keeps : ∀ path world name, ¬touched name → present (metadata path world).2 name = present world name
  metadata_found : ∀ name world found, (metadata (.entry name) world).1 = .ok found → ¬touched name →
    found = present world name
  metadata_gone : ∀ world, (metadata .root world).1 = .ok none → ∀ name, ¬touched name → present world name = none
  metadata_error : ∀ path world, (metadata path world).1 ≠ .error .notFound
  remove_keeps : ∀ name world other, ¬touched other → other ≠ name →
    present (fs.remove name world).2 other = present world other
  remove_removes : ∀ name world, ¬touched name →
    present (fs.remove name world).2 name = present world name ∨ present (fs.remove name world).2 name = none
  reset_keeps : ∀ world name, ¬touched name → present (fs.resetMemory world) name = present world name ∨
    vendorResetLearningName swift name = true ∧ present (fs.resetMemory world) name = none
  reset_empties : ∀ world, filled (fs.resetMemory world) = false
  list_filled : ∀ world, filled (fs.list world).2 = filled world
  metadata_filled : ∀ path world, filled (metadata path world).2 = filled world
  remove_filled : ∀ name world, filled (fs.remove name world).2 = filled world

section Scans

variable {present : ω → Text → Option LearningPathMetadata} {filled : ω → Bool} {touched : Text → Prop}
  {metadata : LearningPath → ω → Except FileError (Option LearningPathMetadata) × ω}

/-- An error for a path that is not there is one whatever was asked for. -/
theorem notFound_transfer {α β : Type} {error : FileError}
    (same : (.error error : Except FileError α) = .error .notFound) :
    (.error error : Except FileError β) = .error .notFound := by
  rw [Except.error.inj same]

/-- A scan of listed names leaves everything where it is. -/
theorem scanEntries_keeps (lawful : fs.Lawful swift present filled touched metadata) (names : List Text) (world : ω) :
    (∀ name, ¬touched name → present (scanEntries fs names world).2 name = present world name) ∧
      filled (scanEntries fs names world).2 = filled world := by
  induction names generalizing world with
  | nil => exact ⟨fun _ _ => rfl, rfl⟩
  | cons name names ih =>
    have kept := lawful.metadata_keeps (.entry name) world
    have filled' := lawful.metadata_filled (.entry name) world
    unfold scanEntries
    rw [lawful.provided]
    dsimp only
    rcases found : metadata (.entry name) world with ⟨outcome, world'⟩
    rw [found] at kept filled'
    obtain ⟨rest, more⟩ := ih world'
    have onward : ∀ other, ¬touched other → present (scanEntries fs names world').2 other = present world other :=
      fun other free => (rest other free).trans (kept other free)
    cases outcome with
    | error error => exact ⟨kept, filled'⟩
    | ok there =>
      cases there with
      | none => exact ⟨onward, more.trans filled'⟩
      | some there =>
        dsimp only
        rcases last : scanEntries fs names world' with ⟨entries, final⟩
        rw [last] at onward more
        cases entries <;> exact ⟨onward, more.trans filled'⟩

/-- The entries that a scan finds are the listed names that are there, as they are. -/
theorem scanEntries_finds (lawful : fs.Lawful swift present filled touched metadata) {names : List Text} {world : ω}
    {entries : List LearningEntry} (scanned : (scanEntries fs names world).1 = .ok entries) :
    (∀ entry ∈ entries, ¬touched entry.name → present world entry.name = some entry.metadata) ∧
      ∀ name ∈ names, ¬touched name → ∀ found, present world name = some found → ⟨name, found⟩ ∈ entries := by
  induction names generalizing world entries with
  | nil =>
    obtain rfl : [] = entries := Except.ok.inj scanned
    simp
  | cons name names ih =>
    have kept := lawful.metadata_keeps (.entry name) world
    have truth := lawful.metadata_found name world
    unfold scanEntries at scanned
    rw [lawful.provided] at scanned
    dsimp only at scanned
    rcases asked : metadata (.entry name) world with ⟨outcome, world'⟩
    rw [asked] at kept truth scanned
    cases outcome with
    | error error => cases scanned
    | ok there =>
      have here := truth there rfl
      cases there with
      | none =>
        obtain ⟨inside, all⟩ := ih scanned
        refine ⟨fun entry member free => (kept _ free).symm.trans (inside entry member free), fun other member free
          found stays => ?_⟩
        rcases List.mem_cons.mp member with rfl | later
        · rw [← here free] at stays
          cases stays
        · exact all other later free found ((kept other free).trans stays)
      | some there =>
        dsimp only at scanned
        rcases rest : scanEntries fs names world' with ⟨outcome, final⟩
        rw [rest] at scanned
        cases outcome with
        | error error => cases scanned
        | ok more =>
          obtain rfl : ⟨name, there⟩ :: more = entries := Except.ok.inj scanned
          have onward : (scanEntries fs names world').1 = .ok more := by rw [rest]
          obtain ⟨inside, all⟩ := ih onward
          constructor
          · intro entry member free
            rcases List.mem_cons.mp member with rfl | later
            · exact (here free).symm
            · exact (kept _ free).symm.trans (inside entry later free)
          · intro other member free found stays
            rcases List.mem_cons.mp member with rfl | later
            · rw [← here free] at stays
              rw [Option.some.inj stays]
              exact List.mem_cons_self
            · exact List.mem_cons_of_mem _ (all other later free found ((kept other free).trans stays))

/-- A scan of listed names fails with no error for a name that is not there. -/
theorem scanEntries_error (lawful : fs.Lawful swift present filled touched metadata) (names : List Text) (world : ω) :
    (scanEntries fs names world).1 ≠ .error .notFound := by
  induction names generalizing world with
  | nil => simp [scanEntries]
  | cons name names ih =>
    have truth := lawful.metadata_error (.entry name) world
    unfold scanEntries
    rw [lawful.provided]
    dsimp only
    rcases asked : metadata (.entry name) world with ⟨outcome, world'⟩
    rw [asked] at truth
    cases outcome with
    | error error => exact fun same => truth (notFound_transfer same)
    | ok there =>
      cases there with
      | none => exact ih world'
      | some there =>
        have rest := ih world'
        dsimp only
        rcases last : scanEntries fs names world' with ⟨outcome, final⟩
        rw [last] at rest
        cases outcome with
        | error error => exact fun same => rest (notFound_transfer same)
        | ok entries => simp

/-- What a scan of the directory says, and what it leaves as it is. -/
structure Scanned (fs : LearningFileSystem ω) (present : ω → Text → Option LearningPathMetadata) (filled : ω → Bool)
    (touched : Text → Prop) (world : ω) : Prop where
  keeps : ∀ name, ¬touched name → present (scanLearningDirectory fs world).2 name = present world name
  filled : filled (scanLearningDirectory fs world).2 = filled world
  inside : ∀ entries, (scanLearningDirectory fs world).1 = .ok (some entries) →
    ∀ entry ∈ entries, ¬touched entry.name → present world entry.name = some entry.metadata
  all : ∀ entries, (scanLearningDirectory fs world).1 = .ok (some entries) →
    ∀ name, ¬touched name → ∀ found, present world name = some found → ⟨name, found⟩ ∈ entries
  gone : (scanLearningDirectory fs world).1 = .ok none ∨ (scanLearningDirectory fs world).1 = .error .notFound →
    ∀ name, ¬touched name → present world name = none

/-- A scan tells the truth. -/
theorem scanLearningDirectory_scanned (lawful : fs.Lawful swift present filled touched metadata) (world : ω) :
    Scanned fs present filled touched world := by
  -- The root first, then the listing, then the entries.
  have listing : ∀ world', (∀ name, ¬touched name → present world' name = present world name) →
      filled world' = filled world →
      scanLearningDirectory fs world = scanListing fs world' → Scanned fs present filled touched world := by
    intro world' kept filled' same
    have listed := lawful.list_keeps world'
    have names := lawful.list_names world'
    have absent := lawful.list_gone world'
    have more := lawful.list_filled world'
    unfold scanListing at same
    rcases asked : fs.list world' with ⟨outcome, world''⟩
    rw [asked] at listed names absent more same
    cases outcome with
    | error error =>
      refine ⟨fun name free => ?_, ?_, fun entries ok => ?_, fun entries ok => ?_, fun gone name free => ?_⟩
      · rw [same]
        exact (listed name free).trans (kept name free)
      · rw [same]
        exact more.trans filled'
      · rw [same] at ok
        cases ok
      · rw [same] at ok
        cases ok
      · rw [same] at gone
        rcases gone with nothing | nothing
        · cases nothing
        · rw [← kept name free]
          exact absent (notFound_transfer nothing) name free
    | ok found =>
      obtain ⟨rest, last⟩ := scanEntries_keeps lawful found world''
      have before : ∀ name, ¬touched name → present world'' name = present world name :=
        fun name free => (listed name free).trans (kept name free)
      have honest := scanEntries_error lawful found world''
      refine ⟨fun name free => ?_, ?_, fun entries ok => ?_, fun entries ok => ?_, fun gone name free => ?_⟩
      · rw [same]
        exact (rest name free).trans (before name free)
      · rw [same]
        exact (last.trans more).trans filled'
      · rw [same] at ok
        cases scanned : (scanEntries fs found world'').1 with
        | error error => simp [scanned, Except.map] at ok
        | ok entries' =>
          simp only [scanned, Except.map, Except.ok.injEq, Option.some.injEq] at ok
          subst ok
          intro entry member free
          rw [← before _ free]
          exact (scanEntries_finds lawful scanned).1 entry member free
      · rw [same] at ok
        cases scanned : (scanEntries fs found world'').1 with
        | error error => simp [scanned, Except.map] at ok
        | ok entries' =>
          simp only [scanned, Except.map, Except.ok.injEq, Option.some.injEq] at ok
          subst ok
          intro name free there stays
          have member := names found rfl name free (by rw [kept name free, stays]; simp)
          exact (scanEntries_finds lawful scanned).2 name member free there ((before name free).trans stays)
      · rw [same] at gone
        cases scanned : (scanEntries fs found world'').1 with
        | error error =>
          rw [scanned] at honest
          simp only [scanned, Except.map] at gone
          rcases gone with nothing | nothing
          · cases nothing
          · exact absurd (notFound_transfer nothing) honest
        | ok entries' => simp [scanned, Except.map] at gone
  have kept := lawful.metadata_keeps .root world
  have filled' := lawful.metadata_filled .root world
  have absent := lawful.metadata_gone world
  have honest := lawful.metadata_error .root world
  -- The scan starts with what is known of the directory itself.
  have same := Eq.refl (scanLearningDirectory fs world)
  conv at same =>
    rhs
    rw [scanLearningDirectory, lawful.provided]
  dsimp only at same
  rcases asked : metadata .root world with ⟨outcome, world'⟩
  rw [asked] at kept filled' absent honest same
  have stopped : ∀ outcome, scanLearningDirectory fs world = (outcome, world') → (∀ entries, outcome ≠ .ok (some entries)) →
      (outcome = .ok none ∨ outcome = .error .notFound → ∀ name, ¬touched name → present world name = none) →
      Scanned fs present filled touched world := by
    intro outcome same' never gone
    refine ⟨fun name free => ?_, ?_, fun entries ok => ?_, fun entries ok => ?_, fun ends => ?_⟩
    · rw [same']
      exact kept name free
    · rw [same']
      exact filled'
    · rw [same'] at ok
      exact absurd ok (never entries)
    · rw [same'] at ok
      exact absurd ok (never entries)
    · rw [same'] at ends
      exact gone ends
  cases outcome with
  | error error =>
    refine stopped _ same (by simp) fun ends => ?_
    rcases ends with nothing | nothing
    · cases nothing
    · exact absurd (notFound_transfer nothing) honest
  | ok root =>
    cases root with
    | none => exact stopped _ same (by simp) fun _ => absent rfl
    | some root =>
      dsimp only at same
      split at same
      · exact listing world' kept filled' same
      · exact stopped _ same (by simp) (by simp)

end Scans

section Clears

variable {present : ω → Text → Option LearningPathMetadata} {filled : ω → Bool} {touched : Text → Prop}
  {metadata : LearningPath → ω → Except FileError (Option LearningPathMetadata) × ω}

/-- Removing leaves everything where it is but the learning files among the entries. -/
theorem removeArtifacts_keeps (lawful : fs.Lawful swift present filled touched metadata)
    (entries : List LearningEntry) (world : ω) :
    filled (removeArtifacts swift fs entries world).2.1 = filled world ∧
      ∀ name, ¬touched name → present (removeArtifacts swift fs entries world).2.1 name = present world name ∨
        present (removeArtifacts swift fs entries world).2.1 name = none ∧ isLearningArtifactName swift name = true ∧
          ∃ entry ∈ entries, entry.name = name := by
  induction entries generalizing world with
  | nil => exact ⟨rfl, fun _ _ => .inl rfl⟩
  | cons entry entries ih =>
    unfold removeArtifacts
    split
    · rename_i artifact
      obtain ⟨more, rest⟩ := ih (fs.remove entry.name world).2
      refine ⟨more.trans (lawful.remove_filled _ _), fun name free => ?_⟩
      by_cases here : name = entry.name
      · -- The entry of this name has been removed, or is still there.
        subst here
        rcases rest _ free with same | ⟨gone, _⟩
        · rcases lawful.remove_removes _ world free with kept | gone
          · exact .inl (same.trans kept)
          · exact .inr ⟨same.trans gone, artifact, entry, List.mem_cons_self, rfl⟩
        · exact .inr ⟨gone, artifact, entry, List.mem_cons_self, rfl⟩
      · have kept := lawful.remove_keeps entry.name world name free here
        rcases rest _ free with same | ⟨gone, named, other, member, same⟩
        · exact .inl (same.trans kept)
        · exact .inr ⟨gone, named, other, List.mem_cons_of_mem _ member, same⟩
    · obtain ⟨more, rest⟩ := ih world
      refine ⟨more, fun name free => ?_⟩
      rcases rest _ free with same | ⟨gone, named, other, member, same⟩
      · exact .inl same
      · exact .inr ⟨gone, named, other, List.mem_cons_of_mem _ member, same⟩

/-- Only learning files among the entries are removed. -/
theorem removeArtifacts_steps (entries : List LearningEntry) (world : ω) :
    ∀ step ∈ (removeArtifacts swift fs entries world).2.2, ∃ entry ∈ entries,
      isLearningArtifactName swift entry.name = true ∧ ∃ outcome, step = .removed entry.name outcome := by
  induction entries generalizing world with
  | nil => simp [removeArtifacts]
  | cons entry entries ih =>
    unfold removeArtifacts
    split
    · rename_i artifact
      intro step member
      rcases List.mem_cons.mp member with rfl | later
      · exact ⟨entry, List.mem_cons_self, artifact, _, rfl⟩
      · obtain ⟨other, inside, rest⟩ := ih _ step later
        exact ⟨other, List.mem_cons_of_mem _ inside, rest⟩
    · intro step member
      obtain ⟨other, inside, rest⟩ := ih _ step member
      exact ⟨other, List.mem_cons_of_mem _ inside, rest⟩

/-- An entry that passes the preflight. -/
theorem preflight_entry {canResetVendor : Bool} {entries : List LearningEntry}
    (passed : preflight swift canResetVendor entries = true) {entry : LearningEntry} (member : entry ∈ entries) :
    (canResetVendor = true → vendorResetLearningName swift entry.name = true → isVendorResetSafe swift entry = true) ∧
      (isLearningArtifactName swift entry.name = true → isDirectDeleteSafe entry = true) := by
  have both := List.all_eq_true.mp passed entry member
  simp only [Bool.and_eq_true, Bool.not_eq_true', Bool.and_eq_false_iff, Bool.not_eq_false'] at both
  refine ⟨fun reset matched => ?_, fun artifact => ?_⟩
  · simpa [reset, matched] using both.1
  · simpa [artifact] using both.2

/-- A name at which something was that may be removed. -/
def Removable (swift : SwiftString) (found : Option LearningPathMetadata) (name : Text) : Prop :=
  ∃ there, found = some there ∧ isLearningArtifactName swift name = true ∧ there.isRegularFile = true ∧
    there.isDirectory = false ∧ there.isReparsePoint = false

/-- An entry that may be removed, as it was found. -/
theorem removable_of_safe (entry : LearningEntry) (artifact : isLearningArtifactName swift entry.name = true)
    (safe : isDirectDeleteSafe entry = true) : Removable swift (some entry.metadata) entry.name := by
  unfold isDirectDeleteSafe at safe
  simp only [Bool.and_eq_true, Bool.not_eq_true'] at safe
  exact ⟨_, rfl, artifact, safe.1.1, safe.1.2, safe.2⟩

/-- The last scan of a clear found no learning file, or no directory. -/
def VerifiedGone (swift : SwiftString) (steps : List ClearStep) : Prop :=
  ∃ found, steps.getLast? = some (.scanned found) ∧ (found = .ok none ∨ found = .error .notFound ∨
    ∃ entries, found = .ok (some entries) ∧ ∀ entry ∈ entries, isLearningArtifactName swift entry.name = false)

/-- What is true of a clear of the directory that begins in a world. -/
structure Cleared (swift : SwiftString) (fs : LearningFileSystem ω)
    (present : ω → Text → Option LearningPathMetadata) (filled : ω → Bool) (touched : Text → Prop)
    (canResetVendor : Bool) (temporary : VendorTemporaryState) (world : ω) (run : ClearRun ω) : Prop where
  /-- Only learning files have gone. -/
  removed : ∀ name, ¬touched name → present run.world name = present world name ∨
    present run.world name = none ∧ Removable swift (present world name) name
  /-- Only learning files that the first scan found safe were to be removed. -/
  named : ∀ name outcome, .removed name outcome ∈ run.steps → ∃ entries,
    (scanLearningDirectory fs world).1 = .ok (some entries) ∧ ∃ entry ∈ entries, entry.name = name ∧
      Removable swift (some entry.metadata) name
  /-- Where the preflight fails nothing is touched. -/
  refused : ∀ entries, (scanLearningDirectory fs world).1 = .ok (some entries) →
    preflight swift canResetVendor entries = false → run.clean = false ∧
      (∀ name, ¬touched name → present run.world name = present world name) ∧
      ∀ step ∈ run.steps, ∃ found, step = .scanned found
  /-- The converter is reset only when all that it matches is safe to remove. -/
  reset : .reset ∈ run.steps → canResetVendor = true ∧ ∃ entries,
    (scanLearningDirectory fs world).1 = .ok (some entries) ∧
      ∀ entry ∈ entries, vendorResetLearningName swift entry.name = true → isVendorResetSafe swift entry = true
  /-- A clean end means that nothing is left. -/
  clean : run.clean = true → run.temporary = .empty ∧ VerifiedGone swift run.steps ∧
    (∀ name, ¬touched name → isLearningArtifactName swift name = true → present run.world name = none) ∧
    ((temporary = .empty → filled world = false) → filled run.world = false)

/-- A clear that ends with its first scan is one in which nothing is removed. -/
theorem cleared_of_scanned {canResetVendor : Bool} {temporary : VendorTemporaryState} {world : ω}
    (scanned : Scanned fs present filled touched world) {clean : Bool}
    (refused : ∀ entries, (scanLearningDirectory fs world).1 = .ok (some entries) →
      preflight swift canResetVendor entries = false → clean = false)
    (gone : clean = true → temporary = .empty ∧
      ((scanLearningDirectory fs world).1 = .ok none ∨ (scanLearningDirectory fs world).1 = .error .notFound)) :
    Cleared swift fs present filled touched canResetVendor temporary world
      ⟨clean, temporary, (scanLearningDirectory fs world).2, [.scanned (scanLearningDirectory fs world).1]⟩ where
  removed name free := .inl (scanned.keeps name free)
  named name outcome member := by simp at member
  refused entries found failed := ⟨refused entries found failed, scanned.keeps, by simp⟩
  reset member := by simp at member
  clean yes := by
    obtain ⟨empty, nothing⟩ := gone yes
    refine ⟨empty, ⟨_, rfl, nothing.imp_right .inl⟩, fun name free _ => ?_, fun known => ?_⟩
    · exact (scanned.keeps name free).trans (scanned.gone nothing name free)
    · exact scanned.filled.trans (known empty)

/-- Once the preflight has passed, whatever is removed was found to be a learning file. -/
theorem clearEntries_removed (lawful : fs.Lawful swift present filled touched metadata) {canResetVendor : Bool}
    {temporary : VendorTemporaryState} {world : ω} {entries : List LearningEntry}
    (found : (scanLearningDirectory fs world).1 = .ok (some entries))
    (passed : preflight swift canResetVendor entries = true) {name : Text} (free : ¬touched name) :
    let run := clearEntries swift fs canResetVendor temporary entries (scanLearningDirectory fs world).2
    present run.world name = present world name ∨
      present run.world name = none ∧ Removable swift (present world name) name := by
  have scanned := scanLearningDirectory_scanned lawful world
  -- What was there has an entry, and an entry that the reset or the engine removes is safe.
  have safe : ∀ there, present world name = some there →
      isLearningArtifactName swift name = true ∨
        canResetVendor = true ∧ vendorResetLearningName swift name = true →
      Removable swift (present world name) name := by
    intro there here removes
    obtain ⟨reset, direct⟩ := preflight_entry passed (scanned.all entries found name free there here)
    rw [here]
    rcases removes with artifact | ⟨may, matched⟩
    · exact removable_of_safe ⟨name, there⟩ artifact (direct artifact)
    · have both := reset may matched
      simp only [isVendorResetSafe, Bool.and_eq_true] at both
      exact removable_of_safe ⟨name, there⟩ both.1 both.2
  have settle : ∀ after : Option LearningPathMetadata, after = none →
      isLearningArtifactName swift name = true ∨
        canResetVendor = true ∧ vendorResetLearningName swift name = true →
      after = present world name ∨ after = none ∧ Removable swift (present world name) name := by
    intro after gone removes
    cases here : present world name with
    | none => exact .inl gone
    | some there => exact .inr ⟨gone, here ▸ safe there here removes⟩
  intro run
  have last : present run.world name = present (removeArtifacts swift fs entries
      (if canResetVendor then fs.resetMemory (scanLearningDirectory fs world).2
        else (scanLearningDirectory fs world).2)).2.1 name := by
    have kept := (scanLearningDirectory_scanned lawful (removeArtifacts swift fs entries
      (if canResetVendor then fs.resetMemory (scanLearningDirectory fs world).2
        else (scanLearningDirectory fs world).2)).2.1).keeps name free
    rw [← kept]
    show present (clearEntries swift fs canResetVendor temporary entries (scanLearningDirectory fs world).2).world name =
      _
    unfold clearEntries
    dsimp only
    split <;> rfl
  rw [last]
  rcases (removeArtifacts_keeps lawful entries _).2 name free with same | ⟨gone, artifact, _⟩
  · rw [same]
    cases may : canResetVendor with
    | false => exact .inl (scanned.keeps name free)
    | true =>
      rcases lawful.reset_keeps (scanLearningDirectory fs world).2 name free with kept | ⟨matched, gone⟩
      · exact .inl (kept.trans (scanned.keeps name free))
      · exact settle _ gone (.inr ⟨may, matched⟩)
  · exact settle _ gone (.inl artifact)

/-- The steps of a clear that has passed the preflight. -/
theorem clearEntries_steps (canResetVendor : Bool) (temporary : VendorTemporaryState) (entries : List LearningEntry)
    (world : ω) : ∀ step ∈ (clearEntries swift fs canResetVendor temporary entries world).steps,
      (∃ found, step = .scanned found) ∨ (step = .reset ∧ canResetVendor = true) ∨
        ∃ entry ∈ entries, isLearningArtifactName swift entry.name = true ∧
          ∃ outcome, step = .removed entry.name outcome := by
  have all : ∀ world' found, ∀ step ∈ (if canResetVendor then [ClearStep.reset] else []) ++
      (removeArtifacts swift fs entries world').2.2 ++ [.scanned found],
      (∃ found, step = .scanned found) ∨ (step = .reset ∧ canResetVendor = true) ∨
        ∃ entry ∈ entries, isLearningArtifactName swift entry.name = true ∧
          ∃ outcome, step = .removed entry.name outcome := by
    intro world' found step member
    rcases List.mem_append.mp member with front | back
    · rcases List.mem_append.mp front with resets | removes
      · split at resets
        · rename_i may
          exact .inr (.inl ⟨List.mem_singleton.mp resets, may⟩)
        · cases resets
      · exact .inr (.inr (removeArtifacts_steps entries world' step removes))
    · exact .inl ⟨found, List.mem_singleton.mp back⟩
  unfold clearEntries
  dsimp only
  split <;> exact all _ _

/-- A clear that ends clean has found nothing in its last scan. -/
theorem clearEntries_clean (lawful : fs.Lawful swift present filled touched metadata) {canResetVendor : Bool}
    {temporary : VendorTemporaryState} (known : temporary = .empty ∨ canResetVendor = true)
    (entries : List LearningEntry) (world : ω) :
    let run := clearEntries swift fs canResetVendor temporary entries world
    run.clean = true → run.temporary = .empty ∧ VerifiedGone swift run.steps ∧
      (∀ name, ¬touched name → isLearningArtifactName swift name = true → present run.world name = none) ∧
      ((temporary = .empty → filled world = false) → filled run.world = false) := by
  intro run
  show (clearEntries swift fs canResetVendor temporary entries world).clean = true →
    (clearEntries swift fs canResetVendor temporary entries world).temporary = .empty ∧
    VerifiedGone swift (clearEntries swift fs canResetVendor temporary entries world).steps ∧
    (∀ name, ¬touched name → isLearningArtifactName swift name = true →
      present (clearEntries swift fs canResetVendor temporary entries world).world name = none) ∧
    ((temporary = .empty → filled world = false) →
      filled (clearEntries swift fs canResetVendor temporary entries world).world = false)
  -- The converter's memory has been empty all along, or the reset has emptied it.
  have emptied : (temporary = .empty → filled world = false) → filled (removeArtifacts swift fs entries
      (if canResetVendor then fs.resetMemory world else world)).2.1 = false := by
    intro empty
    rw [(removeArtifacts_keeps lawful entries _).1]
    cases may : canResetVendor with
    | true => exact lawful.reset_empties world
    | false => exact empty (known.resolve_right (by simp [may]))
  have state : (if canResetVendor then VendorTemporaryState.empty else temporary) = .empty := by
    cases may : canResetVendor with
    | true => rfl
    | false => exact known.resolve_right (by simp [may])
  have scanned := scanLearningDirectory_scanned lawful (removeArtifacts swift fs entries
    (if canResetVendor then fs.resetMemory world else world)).2.1
  unfold clearEntries
  dsimp only
  rw [state]
  split
  · rename_i found
    intro _
    refine ⟨rfl, ⟨_, List.getLast?_concat .., .inl found⟩, fun name free _ => ?_, fun empty => ?_⟩
    · exact (scanned.keeps name free).trans (scanned.gone (.inl found) name free)
    · exact scanned.filled.trans (emptied empty)
  · rename_i after found
    intro clean
    simp only [Bool.and_eq_true, Bool.not_eq_true'] at clean
    have none' : ∀ entry ∈ after, isLearningArtifactName swift entry.name = false := by
      intro entry member
      have left := List.any_eq_false.mp clean.2 entry member
      simp only [Bool.or_eq_true, not_or, Bool.not_eq_true] at left
      exact left.1
    refine ⟨by simp, ⟨_, List.getLast?_concat .., .inr (.inr ⟨after, found, none'⟩)⟩, fun name free artifact => ?_,
      fun empty => scanned.filled.trans (emptied empty)⟩
    rw [scanned.keeps name free]
    cases there : present (removeArtifacts swift fs entries
        (if canResetVendor then fs.resetMemory world else world)).2.1 name with
    | none => rfl
    | some still =>
      have named := none' _ (scanned.all after found name free still there)
      rw [artifact] at named
      cases named
  · intro clean
    cases clean

/-- A clear of the directory is safe, and clean only if nothing is left. -/
theorem clearDirectory_cleared (lawful : fs.Lawful swift present filled touched metadata) (canResetVendor : Bool)
    {temporary : VendorTemporaryState} (world : ω) (known : temporary = .empty ∨ canResetVendor = true) :
    Cleared swift fs present filled touched canResetVendor temporary world
      (clearDirectory swift fs canResetVendor temporary world) := by
  have scanned := scanLearningDirectory_scanned lawful world
  unfold clearDirectory
  dsimp only
  split
  · rename_i error found
    refine cleared_of_scanned scanned (fun entries ok _ => ?_) fun yes => ?_
    · rw [found] at ok
      cases ok
    · simp only [Bool.and_eq_true, decide_eq_true_eq] at yes
      exact ⟨yes.2, .inr (found.trans (congrArg _ yes.1))⟩
  · rename_i found
    refine cleared_of_scanned scanned (fun entries ok _ => ?_) fun yes => ?_
    · rw [found] at ok
      cases ok
    · exact ⟨of_decide_eq_true yes, .inl found⟩
  · rename_i entries found
    split
    · rename_i passed
      have steps := @clearEntries_steps ω swift fs canResetVendor temporary entries
        (scanLearningDirectory fs world).2
      refine ⟨fun name free => clearEntries_removed lawful found passed free, fun name outcome member => ?_,
        fun entries' found' failed => ?_, fun member => ?_, fun clean => ?_⟩
      · rcases List.mem_cons.mp member with first | later
        · cases first
        · rcases steps _ later with ⟨_, absurdity⟩ | ⟨absurdity, _⟩ | ⟨entry, inside, artifact, outcome', same⟩
          · cases absurdity
          · cases absurdity
          · cases same
            exact ⟨entries, found, entry, inside, rfl,
              removable_of_safe entry artifact ((preflight_entry passed inside).2 artifact)⟩
      · rw [found] at found'
        cases found'
        rw [passed] at failed
        cases failed
      · rcases List.mem_cons.mp member with first | later
        · cases first
        · rcases steps _ later with ⟨_, absurdity⟩ | ⟨_, may⟩ | ⟨_, _, _, _, absurdity⟩
          · cases absurdity
          · exact ⟨may, entries, found, fun entry inside => (preflight_entry passed inside).1 may⟩
          · cases absurdity
      · obtain ⟨state, ⟨last, ends, verified⟩, gone, emptied⟩ := clearEntries_clean lawful known entries
          (scanLearningDirectory fs world).2 clean
        refine ⟨state, ⟨last, ?_, verified⟩, gone, fun empty => emptied fun temporary' => ?_⟩
        · rw [List.getLast?_cons, ends]
          rfl
        · exact scanned.filled.trans (empty temporary')
    · exact cleared_of_scanned scanned (fun _ _ _ => rfl) fun yes => by cases yes

/-- A clear removes learning files only and nothing where anything that it would remove is not one, resets the
converter only where that is as safe, and ends clean only if no learning file was left and the converter's
memory is empty. -/
theorem clearLearningAccepted_safe (lawful : fs.Lawful swift present filled touched metadata)
    (samePath : Text → Text → Bool) (state : LearningState) (world : ω) :
    let run := clearLearningAccepted swift fs samePath state world
    (∀ name, ¬touched name → present run.world name = present world name ∨
      present run.world name = none ∧ Removable swift (present world name) name) ∧
    (∀ name outcome, .removed name outcome ∈ run.steps → ∃ entries,
      (scanLearningDirectory fs world).1 = .ok (some entries) ∧ ∃ entry ∈ entries, entry.name = name ∧
        Removable swift (some entry.metadata) name) ∧
    (∀ dir entries, state.learningDirectory = some dir → (scanLearningDirectory fs world).1 = .ok (some entries) →
      preflight swift (state.canResetVendor samePath dir) entries = false → run.clean = false ∧
        (∀ name, ¬touched name → present run.world name = present world name) ∧
        ∀ step ∈ run.steps, ∃ found, step = .scanned found) ∧
    (.reset ∈ run.steps → ∃ dir entries, state.learningDirectory = some dir ∧
      learningPathsEqual samePath state.vendorLearningRoot (some dir) = true ∧
      (scanLearningDirectory fs world).1 = .ok (some entries) ∧
      ∀ entry ∈ entries, vendorResetLearningName swift entry.name = true → isVendorResetSafe swift entry = true) ∧
    (run.clean = true → run.temporary = .empty ∧
      ((state.vendorTemporaryState = .empty → filled world = false) → filled run.world = false) ∧
      (state.learningDirectory = none ∨ VerifiedGone swift run.steps ∧
        ∀ name, ¬touched name → isLearningArtifactName swift name = true → present run.world name = none)) := by
  unfold clearLearningAccepted
  cases directory : state.learningDirectory with
  | none =>
    refine ⟨fun _ _ => .inl rfl, by simp, fun dir _ absurdity => (by cases absurdity), by simp, fun clean => ?_⟩
    have empty := of_decide_eq_true clean
    exact ⟨empty, fun known => known empty, .inl rfl⟩
  | some dir =>
    -- Where the converter's directory or memory is in doubt, nothing is done at all.
    have stopped : ∀ run : ClearRun ω, run = ⟨false, state.vendorTemporaryState, world, []⟩ →
        (∀ name, ¬touched name → present run.world name = present world name ∨
          present run.world name = none ∧ Removable swift (present world name) name) ∧
        (∀ name outcome, .removed name outcome ∈ run.steps → ∃ entries,
          (scanLearningDirectory fs world).1 = .ok (some entries) ∧ ∃ entry ∈ entries, entry.name = name ∧
            Removable swift (some entry.metadata) name) ∧
        (∀ dir' entries, some dir = some dir' → (scanLearningDirectory fs world).1 = .ok (some entries) →
          preflight swift (state.canResetVendor samePath dir') entries = false → run.clean = false ∧
            (∀ name, ¬touched name → present run.world name = present world name) ∧
            ∀ step ∈ run.steps, ∃ found, step = .scanned found) ∧
        (.reset ∈ run.steps → ∃ dir' entries, some dir = some dir' ∧
          learningPathsEqual samePath state.vendorLearningRoot (some dir') = true ∧
          (scanLearningDirectory fs world).1 = .ok (some entries) ∧
          ∀ entry ∈ entries, vendorResetLearningName swift entry.name = true → isVendorResetSafe swift entry = true) ∧
        (run.clean = true → run.temporary = .empty ∧
          ((state.vendorTemporaryState = .empty → filled world = false) → filled run.world = false) ∧
          (some dir = none ∨ VerifiedGone swift run.steps ∧
            ∀ name, ¬touched name → isLearningArtifactName swift name = true → present run.world name = none)) := by
      rintro _ rfl
      exact ⟨fun _ _ => .inl rfl, by simp, fun _ _ _ _ _ => ⟨rfl, fun _ _ => rfl, by simp⟩, by simp, by simp⟩
    dsimp only
    split
    · exact stopped _ rfl
    · split
      · exact stopped _ rfl
      · split
        · rename_i known
          simp only [Bool.or_eq_true, decide_eq_true_eq] at known
          have cleared := clearDirectory_cleared lawful (state.canResetVendor samePath dir) world known
          refine ⟨cleared.removed, cleared.named, ?_, fun member => ?_, fun clean => ?_⟩
          · rintro _ entries ⟨⟩ found failed
            exact cleared.refused entries found failed
          · obtain ⟨may, entries, found, safe⟩ := cleared.reset member
            refine ⟨dir, entries, rfl, ?_, found, safe⟩
            unfold LearningState.canResetVendor at may
            simp only [Bool.and_eq_true] at may
            exact may.2
          · obtain ⟨empty, verified, gone, emptied⟩ := cleared.clean clean
            exact ⟨empty, emptied, .inr ⟨verified, gone⟩⟩
        · exact stopped _ rfl

end Clears

section Memory

/-- A directory that nothing else touches, and whether the converter's memory has something. -/
abbrev MemoryDirectory := Table Text LearningPathMetadata × Bool

/-- Its metadata. -/
def memoryMetadata : LearningPath → MemoryDirectory → Except FileError (Option LearningPathMetadata) × MemoryDirectory
  | .root, directory => (.ok (some ⟨true, false, false⟩), directory)
  | .entry name, directory => (.ok (directory.1.lookup name), directory)

/-- Its files. -/
def memoryFiles (swift : SwiftString) : LearningFileSystem MemoryDirectory where
  list directory := (.ok directory.1.keys, directory)
  remove name directory :=
    (if (directory.1.lookup name).isSome then .ok () else .error .notFound, (directory.1.erase name, directory.2))
  resetMemory directory := (directory.1.retain fun name => !vendorResetLearningName swift name, false)
  metadata := some memoryMetadata

/-- Such files are lawful. -/
theorem memoryFiles_lawful (swift : SwiftString) : (memoryFiles swift).Lawful swift (fun directory name =>
    directory.1.lookup name) Prod.snd (fun _ => False) memoryMetadata where
  provided := rfl
  list_keeps _ _ _ := rfl
  list_names directory names listed name _ there := by
    obtain rfl : directory.1.keys = names := Except.ok.inj listed
    exact AList.mem_keys.mp (AList.lookup_isSome.mp (Option.isSome_iff_ne_none.mpr there))
  list_gone directory gone := by cases gone
  metadata_keeps path directory name _ := by cases path <;> rfl
  metadata_found name directory found asked _ := (Except.ok.inj asked).symm
  metadata_gone directory gone := by cases gone
  metadata_error path directory := by cases path <;> simp [memoryMetadata]
  remove_keeps name directory other _ different := AList.lookup_erase_ne different
  remove_removes name directory _ := .inr (AList.lookup_erase _ _)
  reset_keeps directory name _ := by
    show (directory.1.retain _).lookup name = _ ∨ _ ∧ (directory.1.retain _).lookup name = _
    rw [Table.lookup_retain]
    cases vendorResetLearningName swift name with
    | true => exact .inr ⟨rfl, rfl⟩
    | false => exact .inl rfl
  reset_empties _ := rfl
  list_filled _ := rfl
  metadata_filled path directory := by cases path <;> rfl
  remove_filled _ _ := rfl

/-- A learning file beside one of the user's. -/
def memoryDirectory : MemoryDirectory :=
  (AList.insert "memory.louds".toList ⟨false, true, false⟩ (AList.insert "notes.txt".toList ⟨false, true, false⟩ ∅), true)

/-- A converter that has learned in the directory that is cleared. -/
def learnedState : LearningState :=
  ⟨true, some "memory".toList, "work".toList, some "memory".toList, true, true, .mayContainData⟩

/-- The learning file goes, the user's stays and the converter's memory is empty. -/
theorem clearLearningAccepted_safe_memory :
    let run := clearLearningAccepted .scalars (memoryFiles .scalars) (fun left right => left = right) learnedState
      memoryDirectory
    run.clean = true ∧ run.world.1.lookup "memory.louds".toList = none ∧ run.world.2 = false ∧
      run.world.1.lookup "notes.txt".toList = memoryDirectory.1.lookup "notes.txt".toList := by
  intro run
  have clean : run.clean = true := by decide +kernel
  obtain ⟨removed, _, _, _, ends⟩ := clearLearningAccepted_safe (memoryFiles_lawful .scalars)
    (fun left right => left = right) learnedState memoryDirectory
  obtain ⟨_, emptied, left⟩ := ends clean
  refine ⟨clean, ?_, emptied (by simp [learnedState]), ?_⟩
  · exact (left.resolve_left (by simp [learnedState])).2 _ id (by decide +kernel)
  · rcases removed "notes.txt".toList id with same | ⟨_, _, _, artifact, _⟩
    · exact same
    · exact absurd artifact (by decide +kernel)

end Memory

end Nospacekey
