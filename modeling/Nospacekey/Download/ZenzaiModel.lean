import Mathlib.Logic.Function.Basic
import Nospacekey.Download.OperationState
import Nospacekey.Engine.PredictionService
import Nospacekey.Ipc.Client
import Nospacekey.Settings.Load
import Nospacekey.Update.Release

/-! The download of the Zenzai model: every access to a file, an atomic or a lock is one step. -/

namespace Nospacekey

open Serde

variable {f32 f64 : Type}

/-- The files of the models folder. A backup is a temporary file with a name of its own. -/
inductive ModelFile where
  | dest
  | part
  | backup (name : Nat)
  deriving DecidableEq, Repr

abbrev ModelFiles := ModelFile → Option Bytes

/-- A rename takes the place of what is there. -/
def ModelFiles.rename (files : ModelFiles) (source target : ModelFile) : ModelFiles :=
  Function.update (Function.update files target (files source)) source none

/-- The crates, the environment and the file formats that the download rests on. -/
structure DownloadContext (f32 f64 : Type) where
  /-- The SHA-256 of some bytes in hex. -/
  sha256 : Bytes → Text
  /-- The path of the model, as it is written to the settings. -/
  destPath : Text
  floats : Floats f32 f64
  serde : SerdeJson f64
  isAbsolute : Text → Bool

def modelSha256 : Text := "4de930c06bef8c263aa1aa40684af206db4ce1b96375b3b8ed0ea508e0b14f6c".toList

def sha256HexMatches (actual expected : Text) : Bool := eqIgnoreAsciiCase actual expected

def progressPercent (received : Nat) (total : Option Nat) : Option Nat :=
  match total with
  | some total => if 0 < total then some (min received total * 100 / total) else none
  | none => none

def cancelledText : Text := "キャンセルしました。".toList

def settingsMutationErrorForDownload : LoadOutcome → Text
  | .permissionDenied => "設定ファイルを読み取れないため、変更を保存できません（アクセス拒否）。".toList
  | .ioError => "設定ファイルの読み取りに失敗したため、変更を保存できません。".toList
  | .noPath => "設定ファイルの保存先を解決できないため、変更を保存できません。".toList
  | .corruptQuarantineFailed => "設定ファイルが壊れており、原本を退避できないため変更を保存できません。".toList
  | .unsupportedVersion =>
    "設定ファイルはこの設定画面より新しい形式です。最新版の設定画面から変更してください。".toList
  | outcome =>
    let name := match outcome with
      | .loaded => "Loaded"
      | .missing => "Missing"
      | .empty => "Empty"
      | _ => "Corrupt"
    "設定ファイルの読み込み状態が mutation に適さないため、変更を保存できません（".toList ++ name.toList ++ "）。".toList

/-! ## Attempts -/

/-- Where an attempt stands before it downloads. -/
inductive StartPoint where
  | checkId
  | clearCancel
  | beginIntent
  | beginOperation
  deriving DecidableEq, Repr

/-- Where an attempt stands while it downloads and verifies. -/
inductive FetchPoint where
  | prepare
  | connect
  | send
  | sendFailed (error : Text)
  | createPart
  | receive
  | checkChunk (item : Except Text Bytes)
  | chunkFailed (error : Text)
  | writeChunk (chunk : Bytes)
  | emitProgress (percent : Option Nat)
  | checkReceived
  | verify

/-- Where an attempt stands from the verified part to the saved settings. -/
inductive PlacePoint where
  | lookDest
  | placementWaiting
  | maintenance
  | stopEngine
  | lease
  | checkPlacement
  | placing
  | lock
  | checkLocked
  | checkIntent
  | loadSettings
  | lookBackup
  | makeHolder
  | clearHolder
  | moveOld
  | place
  | restorePlaced (error : Text)
  | activating
  | save
  | removeNew (error : Text)
  | restoreSaved (error : Text) (removeError : Option Text)
  deriving DecidableEq, Repr

/-- Where an attempt stands whose result is known: what is dropped, in this order. -/
inductive LeavePoint where
  | discardPart
  | dropBackup
  | dropGuard
  | dropPart
  | finish
  | clearActive
  | clearDownloading
  deriving DecidableEq, Repr

inductive Point where
  | start (point : StartPoint)
  | fetch (point : FetchPoint)
  | place (point : PlacePoint)
  | leave (point : LeavePoint) (result : Except Text Text)
  | ended (result : Except Text Text)

/-- A call of the command, with its variables. -/
structure DownloadAttempt (f32 : Type) where
  activate : Bool
  attemptId : Nat
  point : Point
  activationGeneration : Option Nat
  /-- Whether the part is to be kept, once there is a guard for it. -/
  partCommitted : Option Bool
  total : Option Nat
  /-- What went into the hasher. -/
  received : Bytes
  lastEmitPct : Option Nat
  lastEmitBytes : Nat
  settingsGuard : Bool
  settingsToSave : Option (Settings f32)
  enableAfterInstall : Bool
  backup : Option Nat
  /-- What stood at the destination when the attempt began. The program does not keep it. -/
  before : Option Bytes
  /-- The number of the attempt among those that were active. The program does not keep it. -/
  epoch : Nat
  /-- How often its intent had been invalidated when it was checked. The program does not keep it. -/
  invalidated : Option Nat
  /-- Whether what stood at the destination was not brought back. The program does not keep it. -/
  lost : Bool
  /-- Whether it saved the settings. The program does not keep it. -/
  saved : Bool

namespace DownloadAttempt

/-- An attempt past the exclusion. -/
def new (activate : Bool) (attemptId : Nat) (before : Option Bytes) : DownloadAttempt f32 :=
  ⟨activate, attemptId, .start .checkId, none, none, none, [], none, 0, false, none, false, none, before, 0, none,
    false, false⟩

/-- An error leaves by way of all guards. -/
def fail (a : DownloadAttempt f32) (error : Text) : DownloadAttempt f32 :=
  { a with point := .leave .dropBackup (.error error) }

def succeed (a : DownloadAttempt f32) : DownloadAttempt f32 :=
  { a with
    point := .leave .dropBackup (.ok (
      if a.enableAfterInstall then "モデルを導入し、Zenzai を有効化しました（次の入力から反映されます）。".toList
      else if a.activate then "モデルを導入しました。導入中に変更された利用設定はそのまま維持しました。".toList
      else "モデルを取得・検証し、利用設定を変えずに配置しました。".toList)) }

end DownloadAttempt

/-! ## Cancels -/

/-- A cancel that found its attempt active: the attempt, and which attempt was the active one then. -/
structure CancelRequest where
  attemptId : Nat
  epoch : Nat
  deriving DecidableEq, Repr

inductive CancelPoint where
  | storeRequest
  | requestCancel
  | invalidate
  | done
  deriving DecidableEq, Repr

/-- Who invalidated an intent. -/
inductive IntentInvalidation where
  | patch
  | cancel (request : CancelRequest)
  deriving DecidableEq, Repr

/-! ## The process -/

/-- What comes of a call of the system. -/
inductive Reply where
  | ok
  | err (error : Text)
  | absent
  | status (status : Text)
  | response (total : Option Nat)
  | chunk (chunk : Bytes)
  | ended
  | wrote (count : Nat) (error : Text)
  | found (found : Bool)
  | busy
  | name (name : Nat)
  | load (calls : LoadCalls)
  | save (read : ReadCall) (write : Option IoError)

/-- The files, the atomics and the locks, with the calls that are under way. -/
structure ZenzaiDownload (f32 : Type) where
  files : ModelFiles
  settings : SettingsDisk
  downloading : Bool
  activeAttempt : Nat
  cancelRequested : Bool
  activationGeneration : Nat
  operations : Operations
  settingsLock : Bool
  attempts : Nat → Option (DownloadAttempt f32)
  cancels : Nat → Option (CancelRequest × CancelPoint)
  /-- The invalidations that a patch with the lock has still to make. -/
  patch : Option Nat
  /-- How many attempts have been active. The program does not keep it. -/
  epoch : Nat
  /-- The cancels that were stored since the flag was cleared. The program does not keep them. -/
  requests : List CancelRequest
  /-- Who invalidated since an attempt began its intent. The program does not keep it. -/
  invalidations : List IntentInvalidation

namespace ZenzaiDownload

variable (context : DownloadContext f32 f64) (s : ZenzaiDownload f32) (i : Nat) (a : DownloadAttempt f32)

/-- The process with some files, before any download. -/
def new (files : ModelFiles) (settings : SettingsDisk) : ZenzaiDownload f32 :=
  ⟨files, settings, false, 0, false, 0, [], false, fun _ => none, fun _ => none, none, 0, [], []⟩

def put (a : DownloadAttempt f32) : ZenzaiDownload f32 := { s with attempts := Function.update s.attempts i (some a) }

def write (file : ModelFile) (content : Option Bytes) : ZenzaiDownload f32 :=
  { s with files := Function.update s.files file content }

def rename (source target : ModelFile) : ZenzaiDownload f32 := { s with files := s.files.rename source target }

def operate (change : Operations → Operations) : ZenzaiDownload f32 := { s with operations := change s.operations }

/-- One more invalidation of the intent to activate. -/
def invalidateActivationIntent (invalidation : IntentInvalidation) : ZenzaiDownload f32 :=
  { s with
    activationGeneration := nextUInt64 s.activationGeneration
    invalidations := s.invalidations ++ [invalidation] }

/-- The exclusion: only one attempt gets past it. -/
def download (activate : Bool) (attemptId : Nat) : ZenzaiDownload f32 :=
  if (s.attempts i).isSome then s
  else
    let a := DownloadAttempt.new activate attemptId (s.files .dest)
    if s.downloading then s.put i { a with point := .ended (.error "既にダウンロード中です。".toList) }
    else { s with downloading := true }.put i a

/-- An attempt takes the flags over from the one before it. -/
def start : StartPoint → ZenzaiDownload f32
  | .checkId =>
    if a.attemptId = 0 then
      { s with downloading := false }.put i { a with point := .ended (.error "操作IDが不正です。".toList) }
    else
      { s with
        activeAttempt := a.attemptId
        epoch := s.epoch + 1 }.put i { a with point := .start .clearCancel, epoch := s.epoch + 1 }
  | .clearCancel =>
    { s with
      cancelRequested := false
      requests := [] }.put i { a with point := .start .beginIntent }
  | .beginIntent =>
    if a.activate then
      { s with
        activationGeneration := nextUInt64 s.activationGeneration
        invalidations := [] }.put i
          { a with point := .start .beginOperation, activationGeneration := some (nextUInt64 s.activationGeneration) }
    else
      { s with invalidations := [] }.put i { a with point := .start .beginOperation, activationGeneration := none }
  | .beginOperation =>
    (s.operate (Operations.beginOperation .zenzai a.attemptId a.activate)).put i { a with point := .fetch .prepare }

/-- The model is received into the part and its hash is compared. -/
def fetch : FetchPoint → Reply → ZenzaiDownload f32
  | .prepare, .absent => s.put i (a.fail "LOCALAPPDATA が解決できません。".toList)
  | .prepare, .err error => s.put i (a.fail ("保存先フォルダを作成できません: ".toList ++ error))
  | .prepare, .ok => s.put i { a with point := .fetch .connect, partCommitted := some false }
  | .connect, .err error => s.put i (a.fail ("HTTP クライアントの初期化に失敗: ".toList ++ error))
  | .connect, .ok => s.put i { a with point := .fetch .send }
  | .send, .err error => s.put i { a with point := .fetch (.sendFailed error) }
  | .send, .status status =>
    s.put i (a.fail ("ダウンロードに失敗しました（HTTP ".toList ++ status ++ "）。".toList))
  | .send, .response total => s.put i { a with point := .fetch .createPart, total }
  | .sendFailed error, _ =>
    s.put i (a.fail (if s.cancelRequested then cancelledText
      else "接続に失敗しました（ネットワークを確認してください）: ".toList ++ error))
  | .createPart, .err error => s.put i (a.fail ("一時ファイルを作成できません: ".toList ++ error))
  | .createPart, .ok => (s.write .part (some [])).put i { a with point := .fetch .receive }
  | .receive, .chunk chunk => s.put i { a with point := .fetch (.checkChunk (.ok chunk)) }
  | .receive, .err error => s.put i { a with point := .fetch (.checkChunk (.error error)) }
  | .receive, .ended => s.put i { a with point := .fetch .checkReceived }
  | .checkChunk item, _ =>
    if s.cancelRequested then s.put i (a.fail cancelledText)
    else
      match item with
      | .ok chunk => s.put i { a with point := .fetch (.writeChunk chunk) }
      | .error error => s.put i { a with point := .fetch (.chunkFailed error) }
  | .chunkFailed error, _ =>
    s.put i (a.fail (if s.cancelRequested then cancelledText else "受信中にエラーが発生しました: ".toList ++ error))
  | .writeChunk chunk, .wrote count error =>
    -- A write that fails may have written a part.
    (s.write .part ((s.files .part).map (· ++ chunk.take count))).put i
      (a.fail ("書き込みに失敗しました（ディスクの空き容量を確認してください）: ".toList ++ error))
  | .writeChunk chunk, .ok =>
    let received := a.received ++ chunk
    let pct := progressPercent received.length a.total
    let shouldEmit := match pct with
      | some p => a.lastEmitPct != some p
      | none => received.length - a.lastEmitBytes ≥ 1048576
    let s := s.write .part ((s.files .part).map (· ++ chunk))
    if shouldEmit then
      s.put i
        { a with received, point := .fetch (.emitProgress pct), lastEmitPct := pct, lastEmitBytes := received.length }
    else s.put i { a with received, point := .fetch .receive }
  | .emitProgress percent, _ =>
    (s.operate (Operations.progress .zenzai a.attemptId percent)).put i { a with point := .fetch .receive }
  | .checkReceived, _ =>
    if s.cancelRequested then s.put i { a with point := .leave .discardPart (.error cancelledText) }
    else s.put i { a with point := .fetch .verify }
  | .verify, _ =>
    let s := s.operate (Operations.phase .zenzai a.attemptId .verifying true)
    let actual := context.sha256 a.received
    if sha256HexMatches actual modelSha256 then s.put i { a with point := .place .lookDest }
    else
      s.put i
        { a with
          point := .leave .discardPart (.error
            ("整合性チェックに失敗しました（上流ファイルが変わった可能性があります）。\n期待 ".toList ++ modelSha256 ++
              "\n実際 ".toList ++ actual)) }
  | _, _ => s

/-- The old model moves aside, the part takes its place, and the settings are saved. -/
def place : PlacePoint → Reply → ZenzaiDownload f32
  | .lookDest, .found found =>
    -- What is not there is not found, what is there may not be found either.
    if found && (s.files .dest).isNone then s
    else s.put i { a with point := .place (if found then .placementWaiting else .checkPlacement) }
  | .placementWaiting, _ =>
    (s.operate (Operations.phase .zenzai a.attemptId .placementWaiting true)).put i
      { a with point := .place .maintenance }
  | .maintenance, _ =>
    s.put i (if s.cancelRequested then a.fail cancelledText else { a with point := .place .stopEngine })
  | .stopEngine, .ok => s.put i { a with point := .place .lease }
  | .stopEngine, .busy => s.put i { a with point := .place .maintenance }
  | .stopEngine, .err error => s.put i (a.fail error)
  | .lease, .ok => s.put i { a with point := .place .checkPlacement }
  | .lease, .err error => s.put i (a.fail ("エンジンの停止後に配置排他を取得できませんでした: ".toList ++ error))
  | .checkPlacement, _ =>
    if s.cancelRequested then s.put i { a with point := .leave .discardPart (.error cancelledText) }
    else s.put i { a with point := .place .placing }
  | .placing, _ =>
    (s.operate (Operations.phase .zenzai a.attemptId .placing false)).put i { a with point := .place .lock }
  | .lock, .ok =>
    if s.settingsLock then s
    else { s with settingsLock := true }.put i { a with point := .place .checkLocked, settingsGuard := true }
  | .lock, .err _ => s.put i (a.fail "設定ロックを取得できませんでした".toList)
  | .checkLocked, _ =>
    s.put i (if s.cancelRequested then a.fail cancelledText else { a with point := .place .checkIntent })
  | .checkIntent, _ =>
    let enableAfterInstall := a.activationGeneration == some s.activationGeneration
    s.put i
      { a with
        point := .place (if enableAfterInstall then .loadSettings else .lookBackup)
        enableAfterInstall
        settingsToSave := none
        invalidated := some s.invalidations.length }
  | .loadSettings, .load calls =>
    let loaded := s.settings.loadForMutation context.floats context.serde context.isAbsolute calls
    let s := { s with settings := loaded.2 }
    match loaded.1 with
    | .error outcome => s.put i (a.fail (settingsMutationErrorForDownload outcome))
    | .ok current =>
      s.put i
        { a with
          point := .place .lookBackup
          settingsToSave := some
            { current with zenzai := { current.zenzai with weightPath := context.destPath, enabled := true } } }
  | .lookBackup, .found found =>
    if found && (s.files .dest).isNone then s
    else s.put i { a with point := .place (if found then .makeHolder else .place) }
  | .makeHolder, .err error => s.put i (a.fail ("旧モデルの退避先を作成できません: ".toList ++ error))
  | .makeHolder, .name name =>
    -- A temporary file gets a name that no file has.
    if (s.files (.backup name)).isSome then s
    else (s.write (.backup name) (some [])).put i { a with point := .place .clearHolder, backup := some name }
  | .clearHolder, .err error => s.put i (a.fail ("旧モデルの退避先を準備できません: ".toList ++ error))
  | .clearHolder, .ok =>
    match a.backup with
    | some name => (s.write (.backup name) none).put i { a with point := .place .moveOld }
    | none => s
  | .moveOld, .err error => s.put i (a.fail ("旧モデルを退避できません: ".toList ++ error))
  | .moveOld, .ok =>
    match a.backup with
    | some name => (s.rename .dest (.backup name)).put i { a with point := .place .place }
    | none => s
  | .place, .err error =>
    match a.backup with
    | some _ => s.put i { a with point := .place (.restorePlaced error) }
    | none => s.put i (a.fail ("モデルの配置に失敗しました: ".toList ++ error))
  | .place, .ok =>
    let a := { a with partCommitted := some true }
    let s := s.rename .part .dest
    match a.settingsToSave with
    | some _ => s.put i { a with point := .place .activating }
    | none => s.put i a.succeed
  | .restorePlaced error, reply =>
    let failed := a.fail ("モデルの配置に失敗しました: ".toList ++ error)
    match a.backup, reply with
    | some name, .ok => (s.rename (.backup name) .dest).put i failed
    | some _, .err _ => s.put i { failed with lost := true }
    | _, _ => s
  | .activating, _ =>
    (s.operate (Operations.phase .zenzai a.attemptId .activating false)).put i { a with point := .place .save }
  | .save, .save read write =>
    match a.settingsToSave with
    | some current =>
      let saved := s.settings.save context.floats context.serde context.isAbsolute read write current
      let s := { s with settings := saved.2 }
      match saved.1 with
      | .ok _ => s.put i { a.succeed with saved := true }
      | .error error => s.put i { a with point := .place (.removeNew error.message) }
    | none => s
  | .removeNew error, .ok =>
    (s.write .dest none).put i { a with point := .place (.restoreSaved error none) }
  | .removeNew error, .err removeError => s.put i { a with point := .place (.restoreSaved error (some removeError)) }
  | .restoreSaved error removeError, reply =>
    let text := "モデルは検証済みですが有効化設定を保存できません: ".toList ++ error ++
      (match removeError with
      | some removeError => "; 新モデル除去失敗: ".toList ++ removeError
      | none => [])
    match a.backup, reply with
    | some name, .ok => (s.rename (.backup name) .dest).put i (a.fail text)
    | some _, .err restoreError =>
      s.put i { a.fail (text ++ "; 旧モデル復元失敗: ".toList ++ restoreError) with lost := true }
    -- A model that was not seen has no backup.
    | none, _ => s.put i { a.fail text with lost := a.before.isSome }
    | _, _ => s
  | _, _ => s

/-- What an attempt held is dropped. Whether a file is removed is not looked at. -/
def leave (result : Except Text Text) : LeavePoint → Reply → ZenzaiDownload f32
  | .discardPart, .ok => (s.write .part none).put i { a with point := .leave .dropBackup result }
  | .discardPart, _ => s.put i { a with point := .leave .dropBackup result }
  | .dropBackup, reply =>
    let next := { a with point := .leave .dropGuard result }
    match a.backup, reply with
    | some name, .ok => (s.write (.backup name) none).put i next
    | _, _ => s.put i next
  | .dropGuard, _ =>
    let next := { a with point := .leave .dropPart result, settingsGuard := false }
    if a.settingsGuard then { s with settingsLock := false }.put i next else s.put i next
  | .dropPart, reply =>
    let next := { a with point := .leave .finish result }
    match a.partCommitted, reply with
    | some false, .ok => (s.write .part none).put i next
    | _, _ => s.put i next
  | .finish, _ =>
    let change := match result with
      | .ok message => Operations.succeed .zenzai a.attemptId message
      | .error error => Operations.fail .zenzai a.attemptId error
    (s.operate change).put i { a with point := .leave .clearActive result }
  | .clearActive, _ =>
    { s with activeAttempt := if s.activeAttempt = a.attemptId then 0 else s.activeAttempt }.put i
      { a with point := .leave .clearDownloading result }
  | .clearDownloading, _ => { s with downloading := false }.put i { a with point := .ended result }

/-- One step of an attempt. -/
def advance (reply : Reply) : ZenzaiDownload f32 :=
  match s.attempts i with
  | none => s
  | some a =>
    match a.point with
    | .start point => s.start i a point
    | .fetch point => s.fetch context i a point reply
    | .place point => s.place context i a point reply
    | .leave point result => s.leave i a result point reply
    | .ended _ => s

/-- A cancel looks for its attempt. -/
def cancelZenzaiDownload (k attemptId : Nat) : ZenzaiDownload f32 :=
  if (s.cancels k).isSome || s.activeAttempt ≠ attemptId then s
  else { s with cancels := Function.update s.cancels k (some (⟨attemptId, s.epoch⟩, .storeRequest)) }

/-- One step of a cancel that found its attempt. -/
def advanceCancel (k : Nat) : ZenzaiDownload f32 :=
  match s.cancels k with
  | none => s
  | some (request, point) =>
    let next := fun (s : ZenzaiDownload f32) point =>
      { s with cancels := Function.update s.cancels k (some (request, point)) }
    match point with
    | .storeRequest =>
      next { s with cancelRequested := true, requests := s.requests ++ [request] } .requestCancel
    | .requestCancel => next (s.operate (Operations.requestCancel .zenzai request.attemptId)) .invalidate
    | .invalidate => next (s.invalidateActivationIntent (.cancel request)) .done
    | .done => s

/-- A patch of the settings, up to its invalidations. The changes may be refused. -/
def settingsPatch (calls : LoadCalls) (change : Settings f32 → Option (Settings f32)) (invalidations : Nat)
    (read : ReadCall) (write : Option IoError) : ZenzaiDownload f32 :=
  if s.settingsLock then s
  else
    let loaded := s.settings.loadForMutation context.floats context.serde context.isAbsolute calls
    let s := { s with settings := loaded.2 }
    match loaded.1 with
    | .error _ => s
    | .ok current =>
      match change current with
      | none => s
      | some next =>
        let saved := s.settings.save context.floats context.serde context.isAbsolute read write next
        let s := { s with settings := saved.2 }
        match saved.1 with
        | .error _ => s
        | .ok _ => { s with settingsLock := true, patch := some invalidations }

/-- A patch that saved invalidates the intent once for each change of the switch, and returns the lock. -/
def advancePatch : ZenzaiDownload f32 :=
  match s.patch with
  | none => s
  | some 0 => { s with settingsLock := false, patch := none }
  | some (left + 1) => { s.invalidateActivationIntent .patch with patch := some left }

end ZenzaiDownload

/-- What can happen next. -/
inductive DownloadOp (f32 : Type) where
  | download (i : Nat) (activate : Bool) (attemptId : Nat)
  | advance (i : Nat) (reply : Reply)
  | cancel (k attemptId : Nat)
  | advanceCancel (k : Nat)
  | patch (calls : LoadCalls) (change : Settings f32 → Option (Settings f32)) (invalidations : Nat) (read : ReadCall)
    (write : Option IoError)
  | advancePatch

def ZenzaiDownload.step (context : DownloadContext f32 f64) (s : ZenzaiDownload f32) :
    DownloadOp f32 → ZenzaiDownload f32
  | .download i activate attemptId => s.download i activate attemptId
  | .advance i reply => s.advance context i reply
  | .cancel k attemptId => s.cancelZenzaiDownload k attemptId
  | .advanceCancel k => s.advanceCancel k
  | .patch calls change invalidations read write => s.settingsPatch context calls change invalidations read write
  | .advancePatch => s.advancePatch

end Nospacekey
