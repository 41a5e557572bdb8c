import Nospacekey.Download.Placement
import Nospacekey.Settings.Recovery

/-! The settings are saved only by an attempt that succeeds and whose intent stood when it was checked. -/

namespace Nospacekey

open Serde

variable {f32 f64 : Type}

namespace DownloadAttempt

variable {a b : DownloadAttempt f32}

/-- The attempt was to activate, and its intent had not been invalidated when it was checked, or so often that the
generation came round. -/
def Intends (a : DownloadAttempt f32) : Prop := a.activate = true ∧ ∃ count, a.invalidated = some count ∧ 2 ^ 64 ∣ count

/-- The attempt succeeds or has succeeded. -/
def Succeeds (a : DownloadAttempt f32) : Prop :=
  ∃ message, (∃ point, a.point = .leave point (.ok message)) ∨ a.point = .ended (.ok message)

/-- What an attempt remembers of its intent. -/
structure Honest (a : DownloadAttempt f32) : Prop where
  begun : a.activationGeneration ≠ none → a.activate = true
  enabled : a.enableAfterInstall = true → a.Intends
  loads : a.point = .place .loadSettings → a.enableAfterInstall = true
  keeps : a.settingsToSave ≠ none → a.enableAfterInstall = true
  saved : a.saved = true → a.enableAfterInstall = true ∧ a.Succeeds

/-- An attempt that has no result yet has not saved. -/
theorem Honest.unsaved (honest : a.Honest) (going : ¬ a.Succeeds) : a.saved = false := by
  cases saved : a.saved with
  | false => rfl
  | true => exact absurd (honest.saved saved).2 going

/-- An attempt that goes on remembers the same. -/
theorem Honest.move (honest : a.Honest) (going : ¬ a.Succeeds) (activate : b.activate = a.activate)
    (generation : b.activationGeneration = a.activationGeneration)
    (enabled : b.enableAfterInstall = a.enableAfterInstall) (invalidated : b.invalidated = a.invalidated)
    (keeps : b.settingsToSave = a.settingsToSave) (saved : b.saved = a.saved)
    (loads : b.point = .place .loadSettings → b.enableAfterInstall = true) : b.Honest where
  begun begun := activate.trans (honest.begun (generation ▸ begun))
  enabled on := by
    rw [Intends, activate, invalidated]
    exact honest.enabled (enabled ▸ on)
  loads := loads
  keeps kept := enabled.trans (honest.keeps (keeps ▸ kept))
  saved did := by
    rw [saved, honest.unsaved going] at did
    cases did

/-- An attempt that leaves remembers the same, and keeps its result. -/
theorem Honest.leave (honest : a.Honest) {point : LeavePoint} {result : Except Text Text}
    (stands : a.point = .leave point result) (activate : b.activate = a.activate)
    (generation : b.activationGeneration = a.activationGeneration)
    (enabled : b.enableAfterInstall = a.enableAfterInstall) (invalidated : b.invalidated = a.invalidated)
    (keeps : b.settingsToSave = a.settingsToSave) (saved : b.saved = a.saved)
    (moved : (∃ next, b.point = .leave next result) ∨ b.point = .ended result) : b.Honest where
  begun begun := activate.trans (honest.begun (generation ▸ begun))
  enabled on := by
    rw [Intends, activate, invalidated]
    exact honest.enabled (enabled ▸ on)
  loads loads := by
    rcases moved with ⟨_, left⟩ | ended
    · cases left.symm.trans loads
    · cases ended.symm.trans loads
  keeps kept := enabled.trans (honest.keeps (keeps ▸ kept))
  saved did := by
    rw [saved] at did
    obtain ⟨on, message, ⟨next, left⟩ | ended⟩ := honest.saved did
    · obtain rfl := (Point.leave.inj (stands.symm.trans left)).2
      exact ⟨enabled.trans on, message, moved⟩
    · cases stands.symm.trans ended

end DownloadAttempt

namespace ZenzaiDownload

open DownloadAttempt

variable {context : DownloadContext f32 f64} {s t : ZenzaiDownload f32} {i : Nat} {a b : DownloadAttempt f32}

/-- Every attempt remembers its intent. -/
def AllHonest (s : ZenzaiDownload f32) : Prop := ∀ i a, s.attempts i = some a → a.Honest

/-- One attempt has moved, and remembers its intent. -/
theorem AllHonest.replace (all : s.AllHonest) (attempts : t.attempts = Function.update s.attempts i (some b))
    (honest : b.Honest) : t.AllHonest := by
  intro j c found
  rw [attempts] at found
  rcases eq_or_of_update found with ⟨_, rfl⟩ | ⟨_, found⟩
  · exact honest
  · exact all j c found

theorem AllHonest.keep (all : s.AllHonest) (attempts : t.attempts = s.attempts) : t.AllHonest := by
  intro j c found
  rw [attempts] at found
  exact all j c found

/-- Attempts that go on or fail have not succeeded. -/
theorem not_succeeds {point : Point} (stands : a.point = point)
    (going : ∀ message, (∀ next, point ≠ .leave next (.ok message)) ∧ point ≠ .ended (.ok message)) : ¬ a.Succeeds := by
  rintro ⟨message, ⟨next, left⟩ | ended⟩
  · exact (going message).1 next (stands.symm.trans left)
  · exact (going message).2 (stands.symm.trans ended)

/-- An attempt that begins has its intent, if it is to activate. -/
theorem start_honest (all : s.AllHonest) (there : s.attempts i = some a) {point : StartPoint}
    (stands : a.point = .start point) : (s.start i a point).AllHonest := by
  have honest := all i a there
  have going : ¬ a.Succeeds := not_succeeds stands fun _ => ⟨nofun, nofun⟩
  unfold start
  split
  · split
    · exact all.replace rfl (honest.move going rfl rfl rfl rfl rfl rfl nofun)
    · exact all.replace rfl (honest.move going rfl rfl rfl rfl rfl rfl nofun)
  · exact all.replace rfl (honest.move going rfl rfl rfl rfl rfl rfl nofun)
  · split
    · rename_i activate
      refine all.replace rfl ⟨fun _ => activate, honest.enabled, nofun, honest.keeps, fun saved => ?_⟩
      rw [honest.unsaved going] at saved
      cases saved
    · refine all.replace rfl ⟨fun begun => absurd rfl begun, honest.enabled, nofun, honest.keeps, fun saved => ?_⟩
      rw [honest.unsaved going] at saved
      cases saved
  · exact all.replace rfl (honest.move going rfl rfl rfl rfl rfl rfl nofun)

/-- Fetching has nothing to do with the intent, or with the settings. -/
theorem fetch_honest (all : s.AllHonest) (there : s.attempts i = some a) {point : FetchPoint}
    (stands : a.point = .fetch point) (reply : Reply) :
    (s.fetch context i a point reply).AllHonest ∧ (s.fetch context i a point reply).settings = s.settings := by
  have honest := all i a there
  have going : ¬ a.Succeeds := not_succeeds stands fun _ => ⟨nofun, nofun⟩
  unfold fetch
  split
  all_goals
    try dsimp only
    repeat' split
  all_goals first
    | exact ⟨all.replace rfl (honest.move going rfl rfl rfl rfl rfl rfl nofun), rfl⟩
    | exact ⟨all, rfl⟩

/-- A file that cannot be parsed was moved to the quarantine. -/
def MovedAside (context : DownloadContext f32 f64) (before after : SettingsDisk) : Prop :=
  after.file = none ∧ ∃ bytes text name, before.file = some bytes ∧ decodeUtf8 bytes = some text ∧
    (parseSettingsText context.floats context.serde context.isAbsolute text).2 = .corrupt ∧
      after.quarantine.lookup name = some bytes

/-- A load leaves the file alone, unless it cannot be parsed. -/
theorem loadForMutation_file (context : DownloadContext f32 f64) (disk : SettingsDisk) (calls : LoadCalls) :
    (disk.loadForMutation context.floats context.serde context.isAbsolute calls).2.file = disk.file ∨
      MovedAside context disk (disk.loadForMutation context.floats context.serde context.isAbsolute calls).2 := by
  rw [(SettingsDisk.loadForMutation_eq context.floats context.serde context.isAbsolute disk calls).1]
  rcases SettingsDisk.loadForMutationFromWith_cases context.floats context.serde context.isAbsolute disk calls with
    ⟨_, same⟩ | ⟨bytes, text, _, _, file, decoded, _, corrupt, same, quarantined⟩
  · exact .inl (by rw [same])
  · rw [same]
    cases quarantined with
    | moved _ => exact .inr ⟨rfl, bytes, text, _, file, decoded, corrupt, List.lookup_cons_self⟩
    | copied _ _ => exact .inl file.symm
    | failed _ _ => exact .inl rfl
    | part _ _ => exact .inl file.symm

/-- What a step of an attempt may do to the settings file. -/
def Changes (context : DownloadContext f32 f64) (s : ZenzaiDownload f32) (i : Nat) (t : ZenzaiDownload f32) : Prop :=
  t.settings.file = s.settings.file ∨ ∃ b, t.attempts i = some b ∧ b.Intends ∧
    (b.saved = true ∨ MovedAside context s.settings t.settings)

/-- The generation is the one of the intent only if nobody invalidated it, or so often that it came round. -/
theorem intends_of_current (honest : a.Honest) (owns : s.Owns a) (intended : a.point.intended = true)
    (current : a.activationGeneration = some s.activationGeneration) :
    a.activate = true ∧ 2 ^ 64 ∣ s.invalidations.length := by
  obtain ⟨small, counted⟩ := (owns.intended intended).2 _ current
  refine ⟨honest.begun (by simp [current]), Nat.dvd_of_mod_eq_zero ?_⟩
  omega

/-- Where the intent is not looked at and the settings are not touched, both are left alone. -/
theorem place_idle (context : DownloadContext f32 f64) (all : s.AllHonest) (there : s.attempts i = some a)
    {point : PlacePoint} (stands : a.point = .place point)
    (idle : point ≠ .checkIntent ∧ point ≠ .loadSettings ∧ point ≠ .save) (reply : Reply) :
    (s.place context i a point reply).AllHonest ∧ (s.place context i a point reply).settings = s.settings := by
  have honest := all i a there
  have going : ¬ a.Succeeds := not_succeeds stands fun _ => ⟨nofun, nofun⟩
  unfold place
  split
  all_goals
    try dsimp only
    repeat' split
  all_goals first
    | exact absurd rfl idle.1
    | exact absurd rfl idle.2.1
    | exact absurd rfl idle.2.2
    | exact ⟨all, rfl⟩
    | exact ⟨all.replace rfl (honest.move going rfl rfl rfl rfl rfl rfl nofun), rfl⟩

/-- The intent is checked once. -/
theorem checkIntent_honest (exclusive : s.Exclusive) (all : s.AllHonest) (there : s.attempts i = some a)
    (stands : a.point = .place .checkIntent) (reply : Reply) :
    (s.place context i a .checkIntent reply).AllHonest := by
  have honest := all i a there
  have going : ¬ a.Succeeds := not_succeeds stands fun _ => ⟨nofun, nofun⟩
  have owns := exclusive.owns i a there (by rw [stands]; rfl)
  refine all.replace rfl ⟨honest.begun, fun on => ?_, fun loads => ?_, fun kept => absurd rfl kept, fun saved => ?_⟩
  · obtain ⟨activate, round⟩ := intends_of_current honest owns (by rw [stands]; rfl) (beq_iff_eq.mp on)
    exact ⟨activate, _, rfl, round⟩
  · -- The settings are loaded only for an intent that stands.
    show (a.activationGeneration == some s.activationGeneration) = true
    cases on : a.activationGeneration == some s.activationGeneration with
    | true => rfl
    | false =>
      simp only [on] at loads
      cases loads
  · rw [honest.unsaved going] at saved
    cases saved

/-- What is loaded is kept for an intent that stands. -/
theorem loadSettings_honest (all : s.AllHonest) (there : s.attempts i = some a)
    (stands : a.point = .place .loadSettings) (calls : LoadCalls) :
    (s.place context i a .loadSettings (.load calls)).AllHonest ∧
      Changes context s i (s.place context i a .loadSettings (.load calls)) := by
  have honest := all i a there
  have enabled := honest.loads stands
  have going : ¬ a.Succeeds := not_succeeds stands fun _ => ⟨nofun, nofun⟩
  have file := loadForMutation_file context s.settings calls
  unfold place
  dsimp only
  split
  · refine ⟨all.replace rfl (honest.move going rfl rfl rfl rfl rfl rfl nofun), file.imp_right fun aside => ?_⟩
    exact ⟨_, Function.update_self .., honest.enabled enabled, .inr aside⟩
  · refine ⟨all.replace rfl ⟨honest.begun, honest.enabled, nofun, fun _ => enabled, fun saved => ?_⟩,
      file.imp_right fun aside => ?_⟩
    · rw [honest.unsaved going] at saved
      cases saved
    · exact ⟨_, Function.update_self .., honest.enabled enabled, .inr aside⟩

/-- A save that fails leaves the disk alone. -/
theorem save_error {disk : SettingsDisk} {read : ReadCall} {write : Option IoError} {settings : Settings f32}
    {error : IoError}
    (failed : (disk.save context.floats context.serde context.isAbsolute read write settings).1 = .error error) :
    (disk.save context.floats context.serde context.isAbsolute read write settings).2 = disk := by
  -- The file is written last, and nothing fails after that.
  cases reading : disk.readToString read with
  | ok text =>
    cases merged : mergedSettingsJson context.floats context.serde context.isAbsolute (some text) settings with
    | error _ => simp [SettingsDisk.save, reading, merged]
    | ok _ => cases write <;> simp_all [SettingsDisk.save, SettingsDisk.saveAtomic]
  | error unread =>
    by_cases missing : unread.kind = .notFound
    · cases merged : mergedSettingsJson context.floats context.serde context.isAbsolute none settings with
      | error _ => simp [SettingsDisk.save, reading, missing, merged]
      | ok _ => cases write <;> simp_all [SettingsDisk.save, SettingsDisk.saveAtomic]
    · simp [SettingsDisk.save, reading, missing]

/-- An attempt that saves succeeds. -/
theorem save_honest (all : s.AllHonest) (there : s.attempts i = some a) (stands : a.point = .place .save)
    (read : ReadCall) (write : Option IoError) :
    (s.place context i a .save (.save read write)).AllHonest ∧
      Changes context s i (s.place context i a .save (.save read write)) := by
  have honest := all i a there
  have going : ¬ a.Succeeds := not_succeeds stands fun _ => ⟨nofun, nofun⟩
  unfold place
  dsimp only
  split
  · rename_i current kept
    have enabled := honest.keeps (by simp [kept])
    split
    · refine ⟨all.replace rfl ⟨honest.begun, honest.enabled, nofun, honest.keeps, fun _ => ⟨enabled, _, .inl ⟨_, rfl⟩⟩⟩,
        .inr ⟨_, Function.update_self .., honest.enabled enabled, .inl rfl⟩⟩
    · rename_i error failed
      refine ⟨all.replace rfl (honest.move going rfl rfl rfl rfl rfl rfl nofun), .inl ?_⟩
      exact congrArg SettingsDisk.file (save_error failed)
  · exact ⟨all, .inl rfl⟩

/-- Placing changes the settings only for an intent that stood when it was checked. -/
theorem place_honest (exclusive : s.Exclusive) (all : s.AllHonest) (there : s.attempts i = some a) {point : PlacePoint}
    (stands : a.point = .place point) (reply : Reply) :
    (s.place context i a point reply).AllHonest ∧ Changes context s i (s.place context i a point reply) := by
  have idle (elsewhere : point ≠ .checkIntent ∧ point ≠ .loadSettings ∧ point ≠ .save) :
      (s.place context i a point reply).AllHonest ∧ Changes context s i (s.place context i a point reply) :=
    (place_idle context all there stands elsewhere reply).imp_right fun same =>
      Or.inl (congrArg SettingsDisk.file same)
  cases point with
  | checkIntent => exact ⟨checkIntent_honest exclusive all there stands reply, .inl rfl⟩
  | loadSettings =>
    cases reply with
    | load calls => exact loadSettings_honest all there stands calls
    | _ => exact ⟨all, .inl rfl⟩
  | save =>
    cases reply with
    | save read write => exact save_honest all there stands read write
    | _ => exact ⟨all, .inl rfl⟩
  | _ => exact idle ⟨nofun, nofun, nofun⟩

/-- An attempt that leaves keeps its result. -/
theorem leave_honest (all : s.AllHonest) (there : s.attempts i = some a) {point : LeavePoint}
    {result : Except Text Text} (stands : a.point = .leave point result) (reply : Reply) :
    (s.leave i a result point reply).AllHonest ∧ (s.leave i a result point reply).settings = s.settings := by
  have honest := all i a there
  unfold leave
  split
  all_goals
    try dsimp only
    repeat' split
  all_goals first
    | exact ⟨all.replace rfl (honest.leave stands rfl rfl rfl rfl rfl rfl (.inl ⟨_, rfl⟩)), rfl⟩
    | exact ⟨all.replace rfl (honest.leave stands rfl rfl rfl rfl rfl rfl (.inr rfl)), rfl⟩

/-- A step of an attempt keeps what attempts remember, and saves only for an intent that stood. -/
theorem advance_honest (context : DownloadContext f32 f64) (exclusive : s.Exclusive) (all : s.AllHonest) (i : Nat)
    (reply : Reply) :
    (s.advance context i reply).AllHonest ∧ Changes context s i (s.advance context i reply) := by
  unfold advance
  split
  · exact ⟨all, .inl rfl⟩
  · rename_i a there
    split
    · rename_i point stands
      refine ⟨start_honest all there stands, .inl ?_⟩
      cases point with
      | checkId =>
        unfold start
        simp only
        split <;> rfl
      | beginIntent =>
        unfold start
        simp only
        split <;> rfl
      | _ => rfl
    · rename_i point stands
      exact (fetch_honest all there stands reply).imp_right fun same => .inl (congrArg SettingsDisk.file same)
    · rename_i point stands
      exact place_honest exclusive all there stands reply
    · rename_i point result stands
      exact (leave_honest all there stands reply).imp_right fun same => .inl (congrArg SettingsDisk.file same)
    · exact ⟨all, .inl rfl⟩

/-- An attempt that is called has nothing to remember. -/
theorem download_honest (all : s.AllHonest) (i : Nat) (activate : Bool) (attemptId : Nat) :
    (s.download i activate attemptId).AllHonest ∧ (s.download i activate attemptId).settings = s.settings := by
  unfold download
  split
  · exact ⟨all, rfl⟩
  · simp only
    split
    · exact ⟨all.replace rfl ⟨fun begun => absurd rfl begun, nofun, nofun, fun kept => absurd rfl kept, nofun⟩, rfl⟩
    · exact ⟨all.replace rfl ⟨fun begun => absurd rfl begun, nofun, nofun, fun kept => absurd rfl kept, nofun⟩, rfl⟩

/-- Every step keeps what attempts remember. -/
theorem AllHonest.step (all : s.AllHonest) (exclusive : s.Exclusive) (op : DownloadOp f32) :
    (s.step context op).AllHonest := by
  cases op with
  | download i activate attemptId => exact (download_honest all i activate attemptId).1
  | advance i reply => exact (advance_honest context exclusive all i reply).1
  | cancel k attemptId => exact all.keep (s.cancel_files k attemptId).1
  | advanceCancel k => exact all.keep (s.advanceCancel_files k).1
  | patch calls change invalidations read write =>
    exact all.keep (s.settingsPatch_flags context calls change invalidations read write).1
  | advancePatch => exact all.keep s.advancePatch_files.1

/-- The settings file is changed by a patch, or by an attempt whose intent stood when it was checked: it saves, or
moves a file that cannot be parsed aside. -/
theorem step_changes (exclusive : s.Exclusive) (all : s.AllHonest) (op : DownloadOp f32)
    (changed : (s.step context op).settings.file ≠ s.settings.file) :
    (∃ calls change invalidations read write, op = .patch calls change invalidations read write) ∨
      ∃ i reply b, op = .advance i reply ∧ (s.step context op).attempts i = some b ∧ b.Intends ∧
        (b.saved = true ∨ MovedAside context s.settings (s.step context op).settings) := by
  cases op with
  | download i activate attemptId =>
    exact absurd (congrArg SettingsDisk.file (download_honest all i activate attemptId).2) changed
  | advance i reply =>
    rcases (advance_honest context exclusive all i reply).2 with same | ⟨b, there, intends, how⟩
    · exact absurd same changed
    · exact .inr ⟨i, reply, b, rfl, there, intends, how⟩
  | cancel k attemptId => exact absurd (congrArg SettingsDisk.file (s.cancel_files k attemptId).2.2) changed
  | advanceCancel k => exact absurd (congrArg SettingsDisk.file (s.advanceCancel_files k).2.2) changed
  | patch calls change invalidations read write => exact .inl ⟨calls, change, invalidations, read, write, rfl⟩
  | advancePatch => exact absurd (congrArg SettingsDisk.file s.advancePatch_files.2.2) changed

end ZenzaiDownload

end Nospacekey
