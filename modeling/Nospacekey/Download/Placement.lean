import Nospacekey.Download.Exclusion

/-! The model at the destination is the old one or a verified one, and an old one comes back when an attempt fails. -/

namespace Nospacekey

open Serde

variable {f32 f64 : Type}

/-- Bytes with the expected hash. -/
def DownloadContext.Verified (context : DownloadContext f32 f64) (bytes : Bytes) : Prop :=
  sha256HexMatches (context.sha256 bytes) modelSha256 = true

/-- The destination holds a verified model. -/
def DownloadContext.HoldsVerified (context : DownloadContext f32 f64) (files : ModelFiles) : Prop :=
  ∃ bytes, files .dest = some bytes ∧ context.Verified bytes

/-- From the creation of the part on. -/
def FetchPoint.receives : FetchPoint → Bool
  | .receive | .checkChunk _ | .chunkFailed _ | .writeChunk _ | .emitProgress _ | .checkReceived | .verify => true
  | _ => false

namespace DownloadAttempt

variable (context : DownloadContext f32 f64) (files : ModelFiles) (a : DownloadAttempt f32)

/-- The part holds what was received, and that is verified. -/
def Ready : Prop := files .part = some a.received ∧ context.Verified a.received

/-- A backup, where there is one, is what stood at the destination. -/
def Kept : Prop := ∀ name, a.backup = some name → files (.backup name) = a.before

/-- While it is fetched the model is in the part. -/
def Fetched (point : FetchPoint) : Prop :=
  files .dest = a.before ∧ a.backup = none ∧
    (if point.receives then files .part = some a.received else a.received = [])

/-- While it is placed the old model is at the destination or in the backup. -/
def Placing : PlacePoint → Prop
  | .clearHolder | .moveOld => a.Ready context files ∧ files .dest = a.before ∧ ∃ name, a.backup = some name
  | .place =>
    a.Ready context files ∧ (a.backup = none ∧ files .dest = a.before ∨
      ∃ name, a.backup = some name ∧ files (.backup name) = a.before)
  | .restorePlaced _ => ∃ name, a.backup = some name ∧ files (.backup name) = a.before
  | .activating | .save | .removeNew _ => context.HoldsVerified files ∧ a.Kept files
  | .restoreSaved _ _ => (files .dest = none ∨ context.HoldsVerified files) ∧ a.Kept files
  | _ => a.Ready context files ∧ files .dest = a.before ∧ a.backup = none

/-- What is at the destination in the end, unless what stood there was not brought back. -/
def Settled : Except Text Text → Prop
  | .ok _ => context.HoldsVerified files
  | .error _ => a.lost = true ∨ files .dest = a.before ∨ a.before = none ∧ context.HoldsVerified files

/-- How the files are while the attempt stands where it does. -/
def Stands : Prop :=
  match a.point with
  | .start _ => files .dest = a.before ∧ a.backup = none ∧ a.received = []
  | .fetch point => a.Fetched files point
  | .place point => a.Placing context files point
  | .leave _ result | .ended result => a.Settled context files result

end DownloadAttempt

namespace ZenzaiDownload

open DownloadAttempt

variable {context : DownloadContext f32 f64} {s t : ZenzaiDownload f32} {i : Nat} {a b : DownloadAttempt f32}

/-- A write is found again. -/
@[simp] theorem write_files_self (s : ZenzaiDownload f32) (file : ModelFile) (content : Option Bytes) :
    (s.write file content).files file = content := Function.update_self ..

/-- Other files are not written. -/
theorem write_files_of_ne (s : ZenzaiDownload f32) {file other : ModelFile} (different : other ≠ file)
    (content : Option Bytes) : (s.write file content).files other = s.files other :=
  Function.update_of_ne different ..

/-- The target of a rename is what the source was. -/
theorem rename_files_target (s : ZenzaiDownload f32) {source target : ModelFile} (different : target ≠ source) :
    (s.rename source target).files target = s.files source := by
  show Function.update (Function.update s.files target (s.files source)) source none target = _
  rw [Function.update_of_ne different, Function.update_self]

/-- The source of a rename is gone. -/
theorem rename_files_source (s : ZenzaiDownload f32) (source target : ModelFile) :
    (s.rename source target).files source = none := Function.update_self ..

/-- Other files are not renamed. -/
theorem rename_files_of_ne (s : ZenzaiDownload f32) {source target other : ModelFile} (different : other ≠ source)
    (apart : other ≠ target) : (s.rename source target).files other = s.files other := by
  show Function.update (Function.update s.files target (s.files source)) source none other = _
  rw [Function.update_of_ne different, Function.update_of_ne apart]

/-- An attempt has moved, or stayed, and the files are as they should be. -/
def Stood (context : DownloadContext f32 f64) (s : ZenzaiDownload f32) (i : Nat) (t : ZenzaiDownload f32) : Prop :=
  ∃ b, t.attempts = Function.update s.attempts i (some b) ∧ b.Stands context t.files

theorem Stood.refl (there : s.attempts i = some a) (stands : a.Stands context s.files) : Stood context s i s :=
  ⟨a, (Function.update_eq_self_iff.mpr there.symm).symm, stands⟩

theorem Stood.put (attempts : t.attempts = s.attempts) (stands : b.Stands context t.files) :
    Stood context s i (t.put i b) :=
  ⟨b, by rw [ZenzaiDownload.put, attempts], stands⟩

/-- Nothing was done to the destination, so an error leaves it as it was. -/
theorem settled_of_untouched {files : ModelFiles} (untouched : files .dest = a.before) (error : Text) :
    (a.fail error).Stands context files := .inr (.inl untouched)

/-- An attempt that begins has touched nothing. -/
theorem start_stood {point : StartPoint} (stands : a.point = .start point) (stood : a.Stands context s.files) :
    Stood context s i (s.start i a point) := by
  rw [DownloadAttempt.Stands, stands] at stood
  unfold start
  split
  · split
    · exact .put rfl (.inr (.inl stood.1))
    · exact .put rfl stood
  · exact .put rfl stood
  · split
    · exact .put rfl stood
    · exact .put rfl stood
  · exact .put rfl stood

/-- What is fetched goes to the part. -/
theorem fetch_stood (there : s.attempts i = some a) {point : FetchPoint} (stands : a.point = .fetch point)
    (stood : a.Stands context s.files) (reply : Reply) : Stood context s i (s.fetch context i a point reply) := by
  have stays := Stood.refl there stood
  rw [DownloadAttempt.Stands, stands] at stood
  obtain ⟨dest, backup, part⟩ := stood
  have fails (error : Text) : Stood context s i (s.put i (a.fail error)) := .put rfl (settled_of_untouched dest error)
  have written (content : Option Bytes) : (s.write .part content).files .dest = a.before :=
    (s.write_files_of_ne (nofun : ModelFile.dest ≠ .part) content).trans dest
  cases point with
  | prepare =>
    cases reply with
    | ok => exact .put rfl ⟨dest, backup, part⟩
    | err error => exact fails _
    | absent => exact fails _
    | _ => exact stays
  | connect =>
    cases reply with
    | ok => exact .put rfl ⟨dest, backup, part⟩
    | err error => exact fails _
    | _ => exact stays
  | send =>
    cases reply with
    | response total => exact .put rfl ⟨dest, backup, part⟩
    | err error => exact .put rfl ⟨dest, backup, part⟩
    | status status => exact fails _
    | _ => exact stays
  | sendFailed error => exact fails _
  | createPart =>
    cases reply with
    | ok => exact .put rfl ⟨written _, backup, (s.write_files_self _ _).trans (congrArg some part.symm)⟩
    | err error => exact fails _
    | _ => exact stays
  | receive =>
    cases reply with
    | chunk chunk => exact .put rfl ⟨dest, backup, part⟩
    | err error => exact .put rfl ⟨dest, backup, part⟩
    | ended => exact .put rfl ⟨dest, backup, part⟩
    | _ => exact stays
  | checkChunk item =>
    unfold fetch
    simp only
    split
    · exact fails _
    · cases item with
      | ok chunk => exact .put rfl ⟨dest, backup, part⟩
      | error error => exact .put rfl ⟨dest, backup, part⟩
  | chunkFailed error => exact fails _
  | writeChunk chunk =>
    cases reply with
    | ok =>
      have more : (s.write .part ((s.files .part).map (· ++ chunk))).files .part = some (a.received ++ chunk) := by
        have part : s.files .part = some a.received := part
        rw [write_files_self, part, Option.map_some]
      unfold fetch
      dsimp only
      -- Whether progress is shown makes no difference.
      repeat' split
      all_goals
        refine .put rfl ?_
        exact ⟨written _, backup, more⟩
    | wrote count error => exact .put rfl (settled_of_untouched (written _) _)
    | _ => exact stays
  | emitProgress percent => exact .put rfl ⟨dest, backup, part⟩
  | checkReceived =>
    unfold fetch
    simp only
    split
    · exact .put rfl (settled_of_untouched dest cancelledText)
    · exact .put rfl ⟨dest, backup, part⟩
  | verify =>
    unfold fetch
    simp only
    split
    · rename_i verified
      exact .put rfl ⟨⟨part, verified⟩, dest, backup⟩
    · exact .put rfl (.inr (.inl dest))

/-- What is placed is verified, and what stood there is in the backup. -/
theorem place_stood (there : s.attempts i = some a) {point : PlacePoint} (stands : a.point = .place point)
    (stood : a.Stands context s.files) (reply : Reply) : Stood context s i (s.place context i a point reply) := by
  have stays := Stood.refl there stood
  rw [DownloadAttempt.Stands, stands] at stood
  have fails (dest : s.files .dest = a.before) (error : Text) : Stood context s i (s.put i (a.fail error)) :=
    .put rfl (settled_of_untouched dest error)
  cases point with
  | lookDest =>
    cases reply with
    | found found =>
      unfold place
      simp only
      split
      · exact stays
      · refine .put rfl ?_
        cases found with
        | true => exact stood
        | false => exact stood
    | _ => exact stays
  | placementWaiting => exact .put rfl stood
  | maintenance =>
    unfold place
    simp only
    split
    · exact fails stood.2.1 _
    · exact .put rfl stood
  | stopEngine =>
    cases reply with
    | ok => exact .put rfl stood
    | busy => exact .put rfl stood
    | err error => exact fails stood.2.1 _
    | _ => exact stays
  | lease =>
    cases reply with
    | ok => exact .put rfl stood
    | err error => exact fails stood.2.1 _
    | _ => exact stays
  | checkPlacement =>
    unfold place
    simp only
    split
    · exact .put rfl (settled_of_untouched stood.2.1 cancelledText)
    · exact .put rfl stood
  | placing => exact .put rfl stood
  | lock =>
    cases reply with
    | ok =>
      unfold place
      simp only
      split
      · exact stays
      · exact .put rfl stood
    | err error => exact fails stood.2.1 _
    | _ => exact stays
  | checkLocked =>
    unfold place
    simp only
    split
    · exact fails stood.2.1 _
    · exact .put rfl stood
  | checkIntent =>
    refine .put rfl ?_
    simp only [DownloadAttempt.Stands]
    split
    · exact stood
    · exact stood
  | loadSettings =>
    cases reply with
    | load calls =>
      unfold place
      simp only
      split
      · exact .put rfl (settled_of_untouched stood.2.1 _)
      · exact .put rfl stood
    | _ => exact stays
  | lookBackup =>
    cases reply with
    | found found =>
      unfold place
      simp only
      split
      · exact stays
      · refine .put rfl ?_
        cases found with
        | true => exact stood
        | false => exact ⟨stood.1, .inl ⟨stood.2.2, stood.2.1⟩⟩
    | _ => exact stays
  | makeHolder =>
    cases reply with
    | name name =>
      unfold place
      simp only
      split
      · exact stays
      · refine .put rfl ⟨⟨?_, stood.1.2⟩, ?_, name, rfl⟩
        · exact (s.write_files_of_ne (nofun : ModelFile.part ≠ .backup name) _).trans stood.1.1
        · exact (s.write_files_of_ne (nofun : ModelFile.dest ≠ .backup name) _).trans stood.2.1
    | err error => exact fails stood.2.1 _
    | _ => exact stays
  | clearHolder =>
    obtain ⟨ready, dest, name, backup⟩ := stood
    cases reply with
    | ok =>
      unfold place
      simp only [backup]
      refine .put rfl ⟨⟨?_, ready.2⟩, ?_, name, rfl⟩
      · exact (s.write_files_of_ne (nofun : ModelFile.part ≠ .backup name) _).trans ready.1
      · exact (s.write_files_of_ne (nofun : ModelFile.dest ≠ .backup name) _).trans dest
    | err error => exact fails dest _
    | _ => exact stays
  | moveOld =>
    obtain ⟨ready, dest, name, backup⟩ := stood
    cases reply with
    | ok =>
      unfold place
      simp only [backup]
      refine .put rfl ⟨⟨?_, ready.2⟩, .inr ⟨name, rfl, ?_⟩⟩
      · exact (s.rename_files_of_ne (nofun : ModelFile.part ≠ .dest)
          (nofun : ModelFile.part ≠ .backup name)).trans ready.1
      · exact (s.rename_files_target (nofun : ModelFile.backup name ≠ .dest)).trans dest
    | err error => exact fails dest _
    | _ => exact stays
  | place =>
    obtain ⟨ready, held⟩ := stood
    cases reply with
    | ok =>
      have verified : context.HoldsVerified (s.rename .part .dest).files :=
        ⟨a.received, (s.rename_files_target (nofun : ModelFile.dest ≠ .part)).trans ready.1, ready.2⟩
      unfold place
      simp only
      split
      · refine .put rfl ⟨verified, fun name backup => ?_⟩
        rcases held with ⟨missing, _⟩ | ⟨other, there', kept⟩
        · cases missing.symm.trans backup
        · obtain rfl := Option.some.inj (there'.symm.trans backup)
          exact (s.rename_files_of_ne (nofun : ModelFile.backup other ≠ .part)
            (nofun : ModelFile.backup other ≠ .dest)).trans kept
      · exact .put rfl verified
    | err error =>
      unfold place
      rcases held with ⟨backup, dest⟩ | ⟨name, backup, kept⟩
      · simp only [backup]
        exact fails dest _
      · simp only [backup]
        exact .put rfl ⟨name, rfl, kept⟩
    | _ => exact stays
  | restorePlaced error =>
    obtain ⟨name, backup, kept⟩ := stood
    unfold place
    simp only [backup]
    split
    · rename_i same
      obtain rfl := Option.some.inj same
      exact .put rfl (settled_of_untouched
        ((s.rename_files_target (nofun : ModelFile.dest ≠ .backup name)).trans kept) _)
    · exact .put rfl (.inl rfl)
    · exact stays
  | activating => exact .put rfl stood
  | save =>
    cases reply with
    | save read write =>
      unfold place
      simp only
      split
      · split
        · exact .put rfl stood.1
        · exact .put rfl stood
      · exact stays
    | _ => exact stays
  | removeNew error =>
    cases reply with
    | ok =>
      refine .put rfl ⟨.inl (s.write_files_self ..), fun name backup => ?_⟩
      exact (s.write_files_of_ne (nofun : ModelFile.backup name ≠ .dest) _).trans (stood.2 name backup)
    | err removeError => exact .put rfl ⟨.inr stood.1, stood.2⟩
    | _ => exact stays
  | restoreSaved error removeError =>
    obtain ⟨dest, kept⟩ := stood
    unfold place
    simp only
    split
    · rename_i name backup
      exact .put rfl (settled_of_untouched
        ((s.rename_files_target (nofun : ModelFile.dest ≠ .backup name)).trans (kept name backup)) _)
    · exact .put rfl (.inl rfl)
    · -- Without a backup nothing stood there, or it is lost.
      refine .put rfl ?_
      cases before : a.before with
      | some old => exact .inl rfl
      | none =>
        exact dest.elim (fun gone => .inr (.inl (gone.trans before.symm)))
          fun verified => .inr (.inr ⟨before, verified⟩)
    · exact stays

/-- What is dropped is not at the destination. -/
theorem leave_stood {point : LeavePoint} {result : Except Text Text} (stands : a.point = .leave point result)
    (stood : a.Stands context s.files) (reply : Reply) : Stood context s i (s.leave i a result point reply) := by
  rw [DownloadAttempt.Stands, stands] at stood
  -- Only the destination counts, and whose call it is.
  have same {t : ZenzaiDownload f32} {b : DownloadAttempt f32} (dest : t.files .dest = s.files .dest)
      (before : b.before = a.before) (lost : b.lost = a.lost) : b.Settled context t.files result := by
    cases result with
    | ok message =>
      obtain ⟨bytes, found, verified⟩ := stood
      exact ⟨bytes, dest.trans found, verified⟩
    | error error =>
      show b.lost = true ∨ _
      rw [lost, dest, before]
      refine stood.imp_right (.imp_right fun ⟨missing, bytes, found, verified⟩ => ?_)
      exact ⟨missing, bytes, dest.trans found, verified⟩
  unfold leave
  split
  all_goals
    try dsimp only
    repeat' split
  all_goals exact .put rfl (same rfl rfl rfl)

/-- Every attempt inside has the files as they should be. -/
def Standing (context : DownloadContext f32 f64) (s : ZenzaiDownload f32) : Prop :=
  ∀ i a, s.attempts i = some a → a.point.inside = true → a.Stands context s.files

/-- The step of the attempt that is inside is the only one that touches files. -/
theorem Standing.replace (exclusive : s.Exclusive) (there : s.attempts i = some a) (inside : a.point.inside = true)
    (stood : Stood context s i t) : t.Standing context := by
  obtain ⟨b, attempts, stands⟩ := stood
  intro j c found within
  rw [attempts] at found
  rcases eq_or_of_update found with ⟨_, rfl⟩ | ⟨other, found⟩
  · exact stands
  · exact absurd ((exclusive.alone i a there inside).2 j c found within) other

/-- Nobody else touches files. -/
theorem Standing.keep (standing : s.Standing context) (attempts : t.attempts = s.attempts) (files : t.files = s.files) :
    t.Standing context := by
  intro j c found within
  rw [attempts] at found
  rw [files]
  exact standing j c found within

/-- A cancel leaves attempts and files alone. -/
theorem cancel_files (s : ZenzaiDownload f32) (k attemptId : Nat) :
    (s.cancelZenzaiDownload k attemptId).attempts = s.attempts ∧
      (s.cancelZenzaiDownload k attemptId).files = s.files ∧
        (s.cancelZenzaiDownload k attemptId).settings = s.settings := by
  unfold cancelZenzaiDownload
  split <;> exact ⟨rfl, rfl, rfl⟩

/-- A cancel that found its attempt leaves attempts and files alone. -/
theorem advanceCancel_files (s : ZenzaiDownload f32) (k : Nat) :
    (s.advanceCancel k).attempts = s.attempts ∧ (s.advanceCancel k).files = s.files ∧
      (s.advanceCancel k).settings = s.settings := by
  unfold advanceCancel
  split
  · exact ⟨rfl, rfl, rfl⟩
  · simp only
    split <;> exact ⟨rfl, rfl, rfl⟩

/-- A patch that invalidates leaves attempts and files alone. -/
theorem advancePatch_files (s : ZenzaiDownload f32) :
    s.advancePatch.attempts = s.attempts ∧ s.advancePatch.files = s.files ∧ s.advancePatch.settings = s.settings := by
  unfold advancePatch
  split <;> exact ⟨rfl, rfl, rfl⟩

/-- A step of the attempt that is inside leaves the files as they should be. -/
theorem advance_stood (standing : s.Standing context) (there : s.attempts i = some a) (inside : a.point.inside = true)
    (reply : Reply) : Stood context s i (s.advance context i reply) := by
  have stood := standing i a there inside
  unfold advance
  rw [there]
  simp only
  split
  · rename_i point stands
    exact start_stood stands stood
  · rename_i point stands
    exact fetch_stood there stands stood reply
  · rename_i point stands
    exact place_stood there stands stood reply
  · rename_i point result stands
    exact leave_stood stands stood reply
  · rename_i result stands
    rw [stands] at inside
    cases inside

/-- An attempt that has ended makes no step. -/
theorem advance_ended (there : s.attempts i = some a) (outside : a.point.inside = false) (reply : Reply) :
    s.advance context i reply = s := by
  cases stands : a.point with
  | ended result => simp only [advance, there, stands]
  | _ =>
    rw [stands] at outside
    cases outside

/-- A step of an attempt keeps the files as they should be. -/
theorem advance_standing (exclusive : s.Exclusive) (standing : s.Standing context) (i : Nat) (reply : Reply) :
    (s.advance context i reply).Standing context := by
  cases there : s.attempts i with
  | none =>
    rw [advance, there]
    exact standing
  | some a =>
    cases inside : a.point.inside with
    | true => exact .replace exclusive there inside (advance_stood standing there inside reply)
    | false =>
      rw [advance_ended there inside]
      exact standing

/-- Every step keeps the files as they should be. -/
theorem Standing.step (standing : s.Standing context) (exclusive : s.Exclusive) (op : DownloadOp f32) :
    (s.step context op).Standing context := by
  cases op with
  | download i activate attemptId =>
    show (s.download i activate attemptId).Standing context
    unfold download
    split
    · exact standing
    · simp only
      split
      all_goals
        intro j c found within
        rcases eq_or_of_update found with ⟨_, rfl⟩ | ⟨_, found⟩
      · cases within
      · exact standing j c found within
      · exact ⟨rfl, rfl, rfl⟩
      · exact standing j c found within
  | advance i reply => exact advance_standing exclusive standing i reply
  | cancel k attemptId => exact standing.keep (s.cancel_files k attemptId).1 (s.cancel_files k attemptId).2.1
  | advanceCancel k => exact standing.keep (s.advanceCancel_files k).1 (s.advanceCancel_files k).2.1
  | patch calls change invalidations read write =>
    obtain ⟨attempts, files, _⟩ := s.settingsPatch_flags context calls change invalidations read write
    exact standing.keep attempts files
  | advancePatch => exact standing.keep s.advancePatch_files.1 s.advancePatch_files.2.1

end ZenzaiDownload

end Nospacekey
