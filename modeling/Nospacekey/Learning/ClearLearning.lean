import Nospacekey.Text.SwiftString

/-! Clearing what was learned: which files go, and when the engine may say that they are gone. -/

namespace Nospacekey

/-- What a path is, as far as it can be removed safely. -/
structure LearningPathMetadata where
  isDirectory : Bool
  isRegularFile : Bool
  isReparsePoint : Bool
  deriving DecidableEq, Repr

/-- Errors are told apart by whether the file is not there. -/
inductive FileError where
  | notFound
  | other
  deriving DecidableEq, Repr

/-- A path of the learning directory: the directory or an entry of it. -/
inductive LearningPath where
  | root
  | entry (name : Text)
  deriving DecidableEq, Repr

/-- Files as the engine gets at them, in a world that may change with every call. Without a function for
metadata every entry is taken for a regular file. -/
structure LearningFileSystem (ω : Type) where
  list : ω → Except FileError (List Text) × ω
  remove : Text → ω → Except FileError Unit × ω
  resetMemory : ω → ω
  metadata : Option (LearningPath → ω → Except FileError (Option LearningPathMetadata) × ω)

structure LearningEntry where
  name : Text
  metadata : LearningPathMetadata
  deriving DecidableEq, Repr

inductive VendorTemporaryState where
  | empty
  | mayContainData
  | unobservableAfterFlush
  deriving DecidableEq, Repr

section Names

variable (swift : SwiftString)

/-- The names that the converter's own reset removes, foreign ones included. -/
def vendorResetLearningName (name : Text) : Bool :=
  swift.hasSuffix name ".loudstxt3".toList || swift.hasSuffix name ".loudschars2".toList
    || swift.hasSuffix name ".memorymetadata".toList || swift.hasSuffix name ".louds".toList
    || swift.hasSuffix name ".loudstxt3.2".toList || swift.hasSuffix name ".loudschars2.2".toList
    || swift.hasSuffix name ".memorymetadata.2".toList || swift.hasSuffix name ".louds.2".toList
    || swift.hasSuffix name ".pause".toList || swift.hasSuffix name "learningMemory.txt".toList

/-- The names of learning files that are not numbered. -/
def learningArtifactNames : List Text :=
  [".pause", "corrections.json", "learningMemory.txt",
    "memory.louds", "memory.louds.2", "memory.loudschars2", "memory.loudschars2.2",
    "memory.memorymetadata", "memory.memorymetadata.2",
    "memory.loudstxt3", "memory.loudstxt3.2"].map String.toList

/-- The number that decimal digits stand for. -/
def decimalValue (digits : Text) : Nat := digits.foldl (fun value digit => 10 * value + (digit.toNat - 48)) 0

/-- The converter numbers its shards in canonical decimal. -/
def isShardNumber (shard : Text) : Bool :=
  !shard.isEmpty && (shard.all fun digit => 48 ≤ digit.toNat && digit.toNat ≤ 57)
    && (swift.count shard = 1 || (swift.graphemes shard).head? ≠ some ['0'])
    && decimalValue shard < 2 ^ 63

/-- A shard file with one suffix. -/
def isShardName (name suffix : Text) : Bool :=
  swift.hasPrefix name "memory".toList && swift.hasSuffix name suffix
    && isShardNumber swift (((swift.graphemes name).take (swift.count name - swift.count suffix)).drop 6).flatten

def isLearningArtifactName (name : Text) : Bool :=
  (learningArtifactNames.any fun artifact => swift.same name artifact)
    || isShardName swift name ".loudstxt3".toList || isShardName swift name ".loudstxt3.2".toList

end Names

section Scans

variable {ω : Type} (fs : LearningFileSystem ω)

/-- The entries of a listing. One that has gone since is left out, and any other error ends the scan. -/
def scanEntries : List Text → ω → Except FileError (List LearningEntry) × ω
  | [], world => (.ok [], world)
  | name :: names, world =>
    match fs.metadata with
    | none =>
      match scanEntries names world with
      | (.ok entries, world) => (.ok (⟨name, ⟨false, true, false⟩⟩ :: entries), world)
      | failed => failed
    | some metadata =>
      match metadata (.entry name) world with
      | (.error error, world) => (.error error, world)
      | (.ok none, world) => scanEntries names world
      | (.ok (some found), world) =>
        match scanEntries names world with
        | (.ok entries, world) => (.ok (⟨name, found⟩ :: entries), world)
        | failed => failed

/-- The entries that a listing finds. -/
def scanListing (world : ω) : Except FileError (Option (List LearningEntry)) × ω :=
  match fs.list world with
  | (.error error, world) => (.error error, world)
  | (.ok names, world) =>
    let scanned := scanEntries fs names world
    (scanned.1.map some, scanned.2)

/-- The entries of the directory, or none where it is gone. -/
def scanLearningDirectory (world : ω) : Except FileError (Option (List LearningEntry)) × ω :=
  match fs.metadata with
  | none => scanListing fs world
  | some metadata =>
    match metadata .root world with
    | (.error error, world) => (.error error, world)
    | (.ok none, world) => (.ok none, world)
    | (.ok (some root), world) =>
      if root.isDirectory && !root.isReparsePoint then scanListing fs world else (.error .other, world)

end Scans

section Clears

variable (swift : SwiftString)

def isDirectDeleteSafe (entry : LearningEntry) : Bool :=
  entry.metadata.isRegularFile && !entry.metadata.isDirectory && !entry.metadata.isReparsePoint

def isVendorResetSafe (entry : LearningEntry) : Bool :=
  isLearningArtifactName swift entry.name && isDirectDeleteSafe entry

/-- Whether nothing that would be removed is anything but a learning file. -/
def preflight (canResetVendor : Bool) (entries : List LearningEntry) : Bool :=
  entries.all fun entry =>
    !(canResetVendor && vendorResetLearningName swift entry.name && !isVendorResetSafe swift entry)
      && !(isLearningArtifactName swift entry.name && !isDirectDeleteSafe entry)

/-- What a clear does with files. -/
inductive ClearStep where
  | scanned (found : Except FileError (Option (List LearningEntry)))
  | reset
  | removed (name : Text) (outcome : Except FileError Unit)

/-- A clear that is over: whether everything is gone, what is known of the converter's memory, and what was
done. -/
structure ClearRun (ω : Type) where
  clean : Bool
  temporary : VendorTemporaryState
  world : ω
  steps : List ClearStep

variable {ω : Type} (fs : LearningFileSystem ω)

/-- The learning files are removed one by one. One that has gone meanwhile counts as removed. -/
def removeArtifacts : List LearningEntry → ω → Bool × ω × List ClearStep
  | [], world => (true, world, [])
  | entry :: entries, world =>
    if isLearningArtifactName swift entry.name then
      let removed := fs.remove entry.name world
      let gone := match removed.1 with
        | .ok _ => true
        | .error error => error = .notFound
      let rest := removeArtifacts entries removed.2
      (gone && rest.1, rest.2.1, .removed entry.name removed.1 :: rest.2.2)
    else removeArtifacts entries world

/-- Whether a scan finds anything that should have gone. -/
def residual (canResetVendor : Bool) (entries : List LearningEntry) : Bool :=
  entries.any fun entry =>
    isLearningArtifactName swift entry.name || canResetVendor && vendorResetLearningName swift entry.name

/-- The files are removed and looked for once more. -/
def clearEntries (canResetVendor : Bool) (temporary : VendorTemporaryState) (entries : List LearningEntry)
    (world : ω) : ClearRun ω :=
  let world := if canResetVendor then fs.resetMemory world else world
  let temporary := if canResetVendor then .empty else temporary
  let removed := removeArtifacts swift fs entries world
  let verified := scanLearningDirectory fs removed.2.1
  let steps := (if canResetVendor then [.reset] else []) ++ removed.2.2 ++ [.scanned verified.1]
  match verified.1 with
  | .ok none => ⟨removed.1, .empty, verified.2, steps⟩
  | .ok (some after) =>
    let clean := removed.1 && !residual swift canResetVendor after
    ⟨clean, if clean && (temporary = .empty || canResetVendor) then .empty else temporary, verified.2, steps⟩
  | .error _ => ⟨false, temporary, verified.2, steps⟩

/-- The directory is scanned and, if all is well, cleared. -/
def clearDirectory (canResetVendor : Bool) (temporary : VendorTemporaryState) (world : ω) : ClearRun ω :=
  let scanned := scanLearningDirectory fs world
  match scanned.1 with
  | .error error => ⟨error = .notFound && temporary = .empty, temporary, scanned.2, [.scanned scanned.1]⟩
  | .ok none => ⟨temporary = .empty, temporary, scanned.2, [.scanned scanned.1]⟩
  | .ok (some entries) =>
    if preflight swift canResetVendor entries then
      let cleared := clearEntries swift fs canResetVendor temporary entries scanned.2
      { cleared with steps := .scanned scanned.1 :: cleared.steps }
    else ⟨false, temporary, scanned.2, [.scanned scanned.1]⟩

/-- What the service knows of its own learning directory and of the one the converter was last given. -/
structure LearningState where
  enabled : Bool
  learningDirectory : Option Text
  workDir : Text
  vendorLearningRoot : Option Text
  vendorLearningEnabled : Bool
  vendorLearningConfigKnown : Bool
  vendorTemporaryState : VendorTemporaryState
  deriving DecidableEq, Repr

/-- Whether two paths are the same, where the system says which ones are. -/
def learningPathsEqual (samePath : Text → Text → Bool) : Option Text → Option Text → Bool
  | some left, some right => samePath left right
  | left, right => left.isNone && right.isNone

/-- The converter may be reset if it learns, and does so in the directory that is cleared. -/
def LearningState.canResetVendor (state : LearningState) (samePath : Text → Text → Bool) (dir : Text) : Bool :=
  state.enabled && state.vendorLearningConfigKnown && state.vendorLearningEnabled
    && !learningPathsEqual samePath state.vendorLearningRoot (some state.workDir)
    && learningPathsEqual samePath state.vendorLearningRoot (some dir)

/-- The files are cleared once the tables in memory are. -/
def clearLearningAccepted (samePath : Text → Text → Bool) (state : LearningState) (world : ω) : ClearRun ω :=
  let temporary := state.vendorTemporaryState
  match state.learningDirectory with
  | none => ⟨temporary = .empty, temporary, world, []⟩
  | some dir =>
    let canResetVendor := state.canResetVendor samePath dir
    if state.vendorLearningConfigKnown && state.vendorLearningEnabled
        && !learningPathsEqual samePath state.vendorLearningRoot (some dir) then ⟨false, temporary, world, []⟩
    else if !state.vendorLearningConfigKnown && temporary ≠ .empty then ⟨false, temporary, world, []⟩
    else if temporary = .empty || canResetVendor then clearDirectory swift fs canResetVendor temporary world
    else ⟨false, temporary, world, []⟩

end Clears

end Nospacekey
