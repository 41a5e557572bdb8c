import Nospacekey.Settings.SettingChanges

/-! The store behind the settings window: edits wait in a queue, are sent one by one, and are held when they conflict. -/

namespace Nospacekey

namespace SettingsStore

variable {ν ε : Type}

structure SettingsSnapshot (ν : Type) where
  revision : Text
  values : PublicSettings ν

structure FieldError where
  field : Text
  message : Text
  deriving DecidableEq, Repr

/-- A field that is shown as being in conflict. -/
structure ConflictField (ν : Type) where
  field : Text
  saved : FieldValue ν
  edited : FieldValue ν
  deriving DecidableEq

structure SettingsConflict (ν : Type) where
  fields : List (ConflictField ν)
  deriving DecidableEq

inductive SaveState where
  | loading
  | saved
  | saving
  | checking
  | blocked
  deriving DecidableEq, Repr

structure QueueItem (ν : Type) where
  operationId : Nat
  changes : List (SettingChange ν)
  baseValues : Option (PublicSettings ν)
  conflictRetries : Option Nat
  /-- The call that the changes come from. Nothing reads it. -/
  call : Nat

inductive SettingsPatchResult (ν ε : Type) where
  | saved (snapshot : SettingsSnapshot ν) (effects : List ε)
  | conflict (snapshot : SettingsSnapshot ν)
  | rejected (errors : List FieldError) (snapshot : Option (SettingsSnapshot ν))

/-- What a request asks for. -/
structure SettingsPatchRequest (ν : Type) where
  operationId : Nat
  baseRevision : Text
  changes : List (SettingChange ν)

/-- What has become of the edits. Nothing reads it. -/
structure EditHistory (ν : Type) where
  /-- The changes of each call. -/
  made : List (List (SettingChange ν))
  /-- The requests that were sent, with the calls that their changes come from. -/
  sent : List (Nat × SettingsPatchRequest ν)
  /-- The changes that an answer said were saved. -/
  saved : List (Nat × List (SettingChange ν))
  /-- Those that an answer rejected. -/
  rejected : List (Nat × List (SettingChange ν))
  /-- The fields whose edits the user gave up. -/
  discarded : List (Nat × Text)
  /-- The errors of what was rejected since the user last did something. -/
  reported : Option (List FieldError)

structure SettingsProvider (ν ε : Type) where
  snapshot : Option (SettingsSnapshot ν)
  values : Option (PublicSettings ν)
  saveState : SaveState
  errors : List FieldError
  loadError : Option Text
  effects : List ε
  conflict : Option (SettingsConflict ν)
  queue : List (QueueItem ν)
  active : Option (QueueItem ν)
  conflictItem : Option (QueueItem ν)
  discardedConflictTargets : List Text
  paused : Bool
  /-- The next operation's identity. -/
  nextOperation : Nat
  /-- The patches that an answer is awaited for. -/
  patches : List (QueueItem ν)
  /-- The questions about the state of an operation, with the error of its patch. -/
  checks : List (QueueItem ν × Text)
  /-- The snapshots that are asked for, and whether an unknown operation is waiting for it. -/
  refreshes : List Bool
  history : EditHistory ν

/-- The values of a snapshot with edits on them. -/
def replay (snapshot : SettingsSnapshot ν) (active : Option (QueueItem ν)) (queue : List (QueueItem ν)) :
    PublicSettings ν :=
  (active.toList ++ queue).foldl (fun values item => item.changes.foldl applyLocalChange values) snapshot.values

namespace SettingsProvider

def start : SettingsProvider ν ε where
  snapshot := none
  values := none
  saveState := .loading
  errors := []
  loadError := none
  effects := []
  conflict := none
  queue := []
  active := none
  conflictItem := none
  discardedConflictTargets := []
  paused := false
  nextOperation := 0
  patches := []
  checks := []
  refreshes := []
  history := ⟨[], [], [], [], [], none⟩

variable (store : SettingsProvider ν ε)

/-- A snapshot is asked for. -/
def refresh (unknown : Bool) : SettingsProvider ν ε :=
  { store with
    loadError := none
    refreshes := store.refreshes ++ [unknown] }

/-- The next edit is sent, unless one is on its way or something is to be decided first. -/
def drain : SettingsProvider ν ε :=
  match store.active, store.paused, store.snapshot with
  | none, false, some snapshot =>
    match store.queue with
    | [] => { store with saveState := .saved }
    | item :: queue =>
      let item := { item with baseValues := item.baseValues <|> some snapshot.values }
      { store with
        queue := queue
        active := some item
        saveState := .saving
        errors := []
        patches := store.patches ++ [item]
        history :=
          { store.history with
            sent := store.history.sent ++ [(item.call, ⟨item.operationId, snapshot.revision, item.changes⟩)] } }
  | _, _, _ => store

/-- An edit joins the others and is shown. -/
def enqueue (changes : List (SettingChange ν)) : SettingsProvider ν ε :=
  { store with
    queue := store.queue ++ [⟨store.nextOperation, changes, none, none, store.history.made.length⟩]
    values := store.values.map fun current => changes.foldl applyLocalChange current
    saveState := .saving
    nextOperation := store.nextOperation + 1
    history := { store.history with made := store.history.made ++ [changes], reported := none } }

def save (changes : List (SettingChange ν)) : SettingsProvider ν ε := drain (store.enqueue changes)

def retry : SettingsProvider ν ε :=
  drain
    { store with
      paused := false
      errors := []
      saveState := .saving
      history := { store.history with reported := none } }

/-- The changes of an item that the user has not given up. -/
def keptChanges (discarded : List Text) (item : QueueItem ν) : List (SettingChange ν) :=
  item.changes.filter fun change => !discarded.contains (changeTarget change)

def resolveConflict (field : Text) (keepEdited : Bool) : SettingsProvider ν ε :=
  match store.conflictItem, store.snapshot, store.conflict with
  | some item, some latest, some conflict =>
    if !conflict.fields.any (fun candidate => candidate.field = field) then store
    else
      let discarded :=
        if keepEdited then store.discardedConflictTargets else field :: store.discardedConflictTargets
      let store :=
        { store with
          discardedConflictTargets := discarded
          history :=
            { store.history with
              discarded :=
                if keepEdited then store.history.discarded else (item.call, field) :: store.history.discarded
              reported := none } }
      let remaining := conflict.fields.filter fun candidate => candidate.field ≠ field
      let changes := keptChanges discarded item
      if !remaining.isEmpty then
        { store with
          values :=
            some (replay latest (if changes.isEmpty then none else some { item with changes := changes }) store.queue)
          conflict := some ⟨remaining⟩ }
      else
        let queue :=
          if changes.isEmpty then store.queue
          else ⟨store.nextOperation, changes, some latest.values, some 1, item.call⟩ :: store.queue
        drain
          { store with
            conflictItem := none
            discardedConflictTargets := []
            conflict := none
            paused := false
            queue := queue
            nextOperation := store.nextOperation + 1
            errors := []
            values := some (replay latest none queue)
            saveState := if queue.isEmpty then .saved else .saving }
  | _, _, _ => store

def acceptSnapshot (next : SettingsSnapshot ν) : SettingsProvider ν ε :=
  { store with
    snapshot := some next
    values := some (replay next store.active store.queue) }

/-- What a conflict leaves to decide about. -/
def changedFields [DecidableEq ν] (item : QueueItem ν) (snapshot : SettingsSnapshot ν) : List (SettingChange ν) :=
  match item.baseValues with
  | some base => conflictingChanges base snapshot.values item.changes
  | none => []

/-- The answer to a patch, or what is known of its operation. -/
def settle [DecidableEq ν] (item : QueueItem ν) : SettingsPatchResult ν ε → SettingsProvider ν ε
  | .saved snapshot effects =>
    drain
      { store with
        active := none
        effects := effects
        snapshot := some snapshot
        values := some (replay snapshot none store.queue)
        history := { store.history with saved := store.history.saved ++ [(item.call, item.changes)] } }
  | .conflict snapshot =>
    let changed := changedFields item snapshot
    if changed.isEmpty && item.conflictRetries.getD 0 < 1 then
      -- Somebody else changed other fields only, so that the edit is sent once more by itself.
      let queue :=
        { item with
          operationId := store.nextOperation
          baseValues := some snapshot.values
          conflictRetries := some (item.conflictRetries.getD 0 + 1) } :: store.queue
      drain
        { store with
          active := none
          snapshot := some snapshot
          queue := queue
          nextOperation := store.nextOperation + 1
          values := some (replay snapshot none queue) }
    else
      { store with
        active := none
        snapshot := some snapshot
        conflictItem := some item
        discardedConflictTargets := []
        paused := true
        values := some (replay snapshot (some item) store.queue)
        conflict :=
          some
            ⟨changed.map fun change => ⟨changeTarget change, changeValue snapshot.values change, change.value⟩⟩
        errors :=
          [⟨"_conflict".toList, "設定が別の処理で変更されました。現在値を確認して、編集した値を保存してください。".toList⟩]
        saveState := .blocked }
  | .rejected errors snapshot =>
    let latest := snapshot <|> store.snapshot
    let store :=
      { store with
        active := none
        snapshot := latest
        values := (latest.map fun latest => replay latest none store.queue) <|> store.values
        errors := errors
        saveState := if store.queue.isEmpty then .blocked else .saving
        history :=
          { store.history with
            rejected := store.history.rejected ++ [(item.call, item.changes)]
            reported := some errors } }
    if store.queue.isEmpty then store else store.drain

/-- A patch is answered, or could not be. -/
def patched [DecidableEq ν] (place : Nat) (answer : Except Text (SettingsPatchResult ν ε)) : SettingsProvider ν ε :=
  match store.patches[place]? with
  | none => store
  | some item =>
    let store := { store with patches := store.patches.eraseIdx place }
    match answer with
    | .ok result => store.settle item result
    | .error message =>
      { store with
        saveState := .checking
        checks := store.checks ++ [(item, message)] }

/-- The state of an operation is known, or is not. -/
def checked [DecidableEq ν] (place : Nat) (answer : Option (SettingsPatchResult ν ε)) : SettingsProvider ν ε :=
  match store.checks[place]? with
  | none => store
  | some (item, message) =>
    let store := { store with checks := store.checks.eraseIdx place }
    match answer with
    | some result => store.settle item result
    | none =>
      -- Whether it was saved is not known, so that the edit waits for the user.
      refresh
        { store with
          queue := item :: store.queue
          active := none
          paused := true
          errors := [⟨"_io".toList, message ++ " 保存結果を確認できません。".toList⟩]
          saveState := .blocked }
        true

/-- A snapshot arrives, or cannot be loaded. -/
def refreshed (place : Nat) (answer : Except Text (SettingsSnapshot ν)) : SettingsProvider ν ε :=
  match store.refreshes[place]? with
  | none => store
  | some unknown =>
    let store := { store with refreshes := store.refreshes.eraseIdx place }
    let store :=
      match answer with
      | .ok next =>
        { store with
          snapshot := some next
          values := some (replay next store.active store.queue)
          saveState := if store.active.isSome || !store.queue.isEmpty then .saving else .saved }
      | .error message => { store with loadError := some message, saveState := .blocked }
    if unknown then { store with saveState := .blocked } else store

end SettingsProvider

/-- What the user does, and what comes back. -/
inductive StoreEvent (ν ε : Type) where
  | save (changes : List (SettingChange ν))
  | retry
  | resolveConflict (field : Text) (keepEdited : Bool)
  | acceptSnapshot (next : SettingsSnapshot ν)
  | refresh
  | patched (place : Nat) (answer : Except Text (SettingsPatchResult ν ε))
  | checked (place : Nat) (answer : Option (SettingsPatchResult ν ε))
  | refreshed (place : Nat) (answer : Except Text (SettingsSnapshot ν))

def SettingsProvider.step [DecidableEq ν] (store : SettingsProvider ν ε) : StoreEvent ν ε → SettingsProvider ν ε
  | .save changes => store.save changes
  | .retry => store.retry
  | .resolveConflict field keepEdited => store.resolveConflict field keepEdited
  | .acceptSnapshot next => store.acceptSnapshot next
  | .refresh => store.refresh false
  | .patched place answer => store.patched place answer
  | .checked place answer => store.checked place answer
  | .refreshed place answer => store.refreshed place answer

end SettingsStore

end Nospacekey
