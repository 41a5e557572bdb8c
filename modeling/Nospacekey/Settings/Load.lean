import Nospacekey.Settings.Settings

/-! The settings file: what a load makes of it, what it does with a broken one, and what a save writes. -/

namespace Nospacekey

open Serde Json

variable {f32 f64 : Type}

/-- How a read or a write failed. -/
inductive ErrorKind where
  | notFound
  | permissionDenied
  | invalidData
  | other
  deriving DecidableEq, Repr

structure IoError where
  kind : ErrorKind
  message : Text
  deriving DecidableEq, Repr

/-- What came of a load. -/
inductive LoadOutcome where
  | loaded
  | missing
  | permissionDenied
  | ioError
  | noPath
  | empty
  | corrupt
  | corruptQuarantineFailed
  | unsupportedVersion
  deriving DecidableEq, Repr

def classifyReadError : ErrorKind → LoadOutcome
  | .notFound => .missing
  | .permissionDenied => .permissionDenied
  | _ => .ioError

/-- The built-in palettes of the first version give way to the present ones, other palettes stay. -/
def migrate (settings : Settings f32) : Settings f32 :=
  if settings.version < settingsSchemaVersion then
    { settings with
      version := settingsSchemaVersion
      appearance :=
        { settings.appearance with
          paletteLight := if settings.appearance.paletteLight = legacyV1LightPalette then defaultLightPalette
            else settings.appearance.paletteLight
          paletteDark := if settings.appearance.paletteDark = legacyV1DarkPalette then defaultDarkPalette
            else settings.appearance.paletteDark } }
  else settings

/-- The version that a text gives, whatever else it holds. -/
structure VersionProbe where
  version : UInt64

def VersionProbe.codec : Serde.Codec f64 VersionProbe :=
  .struct (Record.of VersionProbe.mk |>.required "version" .u64 VersionProbe.version) ⟨fun _ => rfl, by simp⟩

section Texts

variable (floats : Floats f32 f64) (serde : SerdeJson f64) (isAbsolute : Text → Bool)

/-- A path that is not absolute is dropped. -/
def normalizeLoaded (settings : Settings f32) : Settings f32 :=
  if !settings.zenzai.weightPath.isEmpty && !isAbsolute settings.zenzai.weightPath then
    { settings with zenzai := { settings.zenzai with weightPath := [] } }
  else settings

/-- The fields of a later version that can be read, one after the other, and defaults for the others. -/
def readCompatibleFutureSettings (text : Text) : Settings f32 :=
  match (serde.fromStr text).bind value, (Settings.codec floats).write (.default floats) with
  | some (.object future), .object accepted =>
    let accepted := future.foldl (fun accepted member =>
      if (accepted.lookup member.1).isNone then accepted
      else
        let candidate := insertMember member.1 member.2 accepted
        if ((Settings.codec floats).read (.object candidate)).isSome then candidate else accepted) accepted
    match (Settings.codec floats).read (.object accepted) with
    | some settings => normalizeLoaded isAbsolute (migrate settings)
    | none => .default floats
  | _, _ => .default floats

/-- Whether a text gives a version later than this one. -/
def isFutureVersion (text : Text) : Bool :=
  match (serde.fromStr text).bind VersionProbe.codec.read with
  | some probe => probe.version > settingsSchemaVersion.toUInt64
  | none => false

def parseSettingsText (text : Text) : Settings f32 × LoadOutcome :=
  if isBlank text then (.default floats, .empty)
  else if isFutureVersion serde text then (readCompatibleFutureSettings floats serde isAbsolute text, .unsupportedVersion)
  else
    match (serde.fromStr text).bind (Settings.codec floats).read with
    | some settings => (normalizeLoaded isAbsolute (migrate settings), .loaded)
    | none => (.default floats, .corrupt)

/-- The value that settings are laid on. -/
def mergeDestination (existing : Option Text) : Except IoError (Value f64) :=
  match existing with
  | none => .ok (.object [])
  | some text =>
    if isBlank text then .ok (.object [])
    else
      match (parseSettingsText floats serde isAbsolute text).2 with
      | .loaded =>
        match (serde.fromStr text).bind value with
        | some destination => .ok destination
        | none => .error ⟨.other, serde.error text⟩
      | .unsupportedVersion => .error ⟨.invalidData, "settings schema is newer than this binary".toList⟩
      | _ => .error ⟨.invalidData, "settings file must be loaded for mutation before saving".toList⟩

/-- The text that a save writes: the present one with the known fields laid on it. -/
def mergedSettingsJson (existing : Option Text) (settings : Settings f32) : Except IoError Text :=
  match mergeDestination floats serde isAbsolute existing with
  | .ok destination =>
    .ok (serde.toStringPretty (mergeKnownFields destination ((Settings.codec floats).write settings)))
  | .error error => .error error

end Texts

/-- A quarantine file: the time and the process that made it, and a number where there was one already. -/
structure QuarantineName where
  seconds : Nat
  nanoseconds : Nat
  process : Nat
  suffix : Nat
  deriving DecidableEq, Repr

/-- The settings file and the quarantine files beside it. -/
structure SettingsDisk where
  file : Option ByteArray
  quarantine : List (QuarantineName × ByteArray)

/-- The text that bytes are, if they are one. -/
def decodeUtf8 (bytes : ByteArray) : Option Text := (String.fromUTF8? bytes).map String.toList

def encodeUtf8 (text : Text) : ByteArray := (String.ofList text).toUTF8

/-- Whether a read gets through. Only a file that is not there is not found. -/
inductive ReadCall where
  | works
  | denied (message : Text)
  | fails (message : Text)
  deriving DecidableEq, Repr

/-- A copy that failed may have left part of the file behind. -/
inductive CopyCall where
  | works
  | fails (left : Option ByteArray)

/-- What comes of the calls of a load, and when and by whom it is made. -/
structure LoadCalls where
  read : ReadCall
  rename : Bool
  copy : CopyCall
  seconds : Nat
  nanoseconds : Nat
  process : Nat

namespace SettingsDisk

/-- The file as a text. -/
def readToString (disk : SettingsDisk) : ReadCall → Except IoError Text
  | .denied message => .error ⟨.permissionDenied, message⟩
  | .fails message => .error ⟨.other, message⟩
  | .works =>
    match disk.file with
    | none => .error ⟨.notFound, []⟩
    | some bytes =>
      match decodeUtf8 bytes with
      | some text => .ok text
      | none => .error ⟨.invalidData, "stream did not contain valid UTF-8".toList⟩

/-- The first name that no quarantine file has. -/
def quarantineDestPath (disk : SettingsDisk) (seconds nanoseconds process : Nat) : QuarantineName :=
  let named := fun suffix => QuarantineName.mk seconds nanoseconds process suffix
  named (((List.range (disk.quarantine.length + 1)).find? fun suffix =>
    !(disk.quarantine.any fun entry => entry.1 = named suffix)).getD 0)

variable (floats : Floats f32 f64) (serde : SerdeJson f64) (isAbsolute : Text → Bool)

def loadReportingFromWith (disk : SettingsDisk) (read : ReadCall) : Settings f32 × LoadOutcome :=
  match disk.readToString read with
  | .ok text => parseSettingsText floats serde isAbsolute text
  | .error error => (.default floats, classifyReadError error.kind)

/-- A broken file is moved to the quarantine or, failing that, copied there. -/
def loadForMutationFromWith (disk : SettingsDisk) (calls : LoadCalls) : (Settings f32 × LoadOutcome) × SettingsDisk :=
  let loaded := disk.loadReportingFromWith floats serde isAbsolute calls.read
  if loaded.2 ≠ .corrupt then (loaded, disk)
  else
    match disk.file with
    | none => ((.default floats, .corruptQuarantineFailed), disk)
    | some bytes =>
      let destination := disk.quarantineDestPath calls.seconds calls.nanoseconds calls.process
      if calls.rename then ((.default floats, .corrupt), ⟨none, (destination, bytes) :: disk.quarantine⟩)
      else
        match calls.copy with
        | .works => ((.default floats, .corrupt), { disk with quarantine := (destination, bytes) :: disk.quarantine })
        | .fails none => ((.default floats, .corruptQuarantineFailed), disk)
        | .fails (some left) =>
          ((.default floats, .corruptQuarantineFailed),
            { disk with quarantine := (destination, left) :: disk.quarantine })

def loadForMutation (disk : SettingsDisk) (calls : LoadCalls) : Except LoadOutcome (Settings f32) × SettingsDisk :=
  match disk.loadForMutationFromWith floats serde isAbsolute calls with
  | ((settings, .loaded), disk) => (.ok settings, disk)
  | ((settings, .missing), disk) => (.ok settings, disk)
  | ((settings, .empty), disk) => (.ok settings, disk)
  | ((settings, .corrupt), disk) => (.ok settings, disk)
  | ((_, outcome), disk) => (.error outcome, disk)

/-- The file is replaced as a whole or not at all. -/
def saveAtomic (disk : SettingsDisk) (write : Option IoError) (text : Text) : Except IoError Unit × SettingsDisk :=
  match write with
  | none => (.ok (), { disk with file := some (encodeUtf8 text) })
  | some error => (.error error, disk)

/-- A save, with what comes of its read and of its write. -/
def save (disk : SettingsDisk) (read : ReadCall) (write : Option IoError) (settings : Settings f32) :
    Except IoError Unit × SettingsDisk :=
  let existing : Except IoError (Option Text) :=
    match disk.readToString read with
    | .ok text => .ok (some text)
    | .error error => if error.kind = .notFound then .ok none else .error error
  match existing with
  | .error error => (.error error, disk)
  | .ok existing =>
    match mergedSettingsJson floats serde isAbsolute existing settings with
    | .ok text => disk.saveAtomic write text
    | .error error => (.error error, disk)

end SettingsDisk

end Nospacekey
