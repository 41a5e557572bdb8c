import Nospacekey.Download.Activation
import Nospacekey.Library.Runs
import Nospacekey.Library.SerdeModel

/-! Every interleaving of downloads, cancels and patches: what an attempt leaves behind and what reaches it. -/

namespace Nospacekey

open Serde Runs

variable {f32 f64 : Type}

namespace ZenzaiDownload

variable {context : DownloadContext f32 f64} {s : ZenzaiDownload f32}

/-- What an attempt leaves at the destination: what was there or a verified model, and a model that was there if the
attempt fails. -/
structure Installs (context : DownloadContext f32 f64) (files : ModelFiles) (before : Option Bytes)
    (result : Except Text Text) : Prop where
  dest : files .dest = before ∨ context.HoldsVerified files
  failed : ∀ error, result = .error error → ∀ old, before = some old → files .dest = some old

/-- What holds of a state, and of the next step. -/
structure Transactional (context : DownloadContext f32 f64) (s : ZenzaiDownload f32) : Prop where
  /-- One attempt is past the exclusion. -/
  alone : ∀ i j a b, s.attempts i = some a → s.attempts j = some b → a.point.inside = true → b.point.inside = true →
    i = j
  /-- An attempt that ends leaves a model, unless a model that was there could not be brought back. -/
  ends : ∀ op i b result, (∀ a, s.attempts i = some a → a.point.inside = true) →
    (s.step context op).attempts i = some b → b.point = .ended result →
    b.lost = true ∨ Installs context (s.step context op).files b.before result
  /-- The settings file is changed by patches and by attempts with an intent: such an attempt saves, or moves a file
  that cannot be parsed aside. -/
  changes : ∀ op, (s.step context op).settings.file ≠ s.settings.file →
    (∃ calls change invalidations read write, op = .patch calls change invalidations read write) ∨
      ∃ i reply b, op = .advance i reply ∧ (s.step context op).attempts i = some b ∧ b.Intends ∧
        (b.saved = true ∨ MovedAside context s.settings (s.step context op).settings)
  /-- An attempt that saved succeeds. -/
  saved : ∀ i a, s.attempts i = some a → a.saved = true → a.Intends ∧ a.Succeeds
  /-- The flag that an attempt reads was set by its own cancel, or by one that had looked for its attempt earlier. -/
  cancelled : ∀ i a, s.attempts i = some a → a.point.cleared = true → s.cancelRequested = true →
    s.requests ≠ [] ∧ ∀ request ∈ s.requests, a.Own request
  /-- The intent of an attempt was invalidated by a patch, by its own cancel, or by one that had looked for its attempt
  earlier. -/
  invalidated : ∀ i a generation, s.attempts i = some a → a.point.intended = true →
    a.activationGeneration = some generation → s.activationGeneration ≠ generation →
    s.invalidations ≠ [] ∧ ∀ request, .cancel request ∈ s.invalidations → a.Own request
  /-- A cancel leaves the records of other operations alone. -/
  records : ∀ k request point (place : Nat) (operation : ModelOperationStatus), s.cancels k = some (request, point) →
    s.operations[place]? = some operation → operation.operationId ≠ request.attemptId →
    (s.step context (.advanceCancel k)).operations[place]? = some operation

/-- What is settled in the end is what is promised. -/
theorem installs_of_settled {a : DownloadAttempt f32} {files : ModelFiles} {result : Except Text Text}
    (settled : a.Settled context files result) : a.lost = true ∨ Installs context files a.before result := by
  cases result with
  | ok message => exact .inr ⟨.inr settled, nofun⟩
  | error error =>
    refine settled.imp_right fun kept => ?_
    rcases kept with same | ⟨missing, verified⟩
    · exact ⟨.inl same, fun _ _ old there => same.trans there⟩
    · refine ⟨.inr verified, fun _ _ old there => ?_⟩
      cases missing.symm.trans there

/-- A call is put beside the others, and finds the destination as it is. -/
theorem download_cases (s : ZenzaiDownload f32) (i : Nat) (activate : Bool) (attemptId : Nat) :
    s.download i activate attemptId = s ∨ s.attempts i = none ∧ ∃ b : DownloadAttempt f32, b.before = s.files .dest ∧
      ∃ downloading, s.download i activate attemptId = { s with downloading }.put i b := by
  unfold download
  split
  · exact .inl rfl
  · rename_i free
    rw [Bool.not_eq_true, Option.isSome_eq_false_iff, Option.isNone_iff_eq_none] at free
    simp only
    split
    · exact .inr ⟨free, _, rfl, s.downloading, rfl⟩
    · exact .inr ⟨free, _, rfl, true, rfl⟩

/-- An attempt that ends leaves what it should. -/
theorem Standing.ends (standing : s.Standing context) {op : DownloadOp f32} {i : Nat} {b : DownloadAttempt f32}
    {result : Except Text Text} (going : ∀ a, s.attempts i = some a → a.point.inside = true)
    (there : (s.step context op).attempts i = some b) (ended : b.point = .ended result) :
    b.lost = true ∨ Installs context (s.step context op).files b.before result := by
  have outside : b.point.inside = false := by rw [ended]; rfl
  -- An attempt that stays where it was has not ended.
  have stays (same : (s.step context op).attempts i = s.attempts i) : b.lost = true ∨
      Installs context (s.step context op).files b.before result := by
    rw [same] at there
    rw [going b there] at outside
    cases outside
  cases op with
  | download j activate attemptId =>
    change (s.download j activate attemptId).attempts i = some b at there
    show _ ∨ Installs context (s.download j activate attemptId).files b.before result
    rcases s.download_cases j activate attemptId with same | ⟨_, c, before, _, called⟩
    · rw [same] at there
      exact absurd (going b there) (by simp [outside])
    · rw [called] at there ⊢
      rcases eq_or_of_update there with ⟨_, rfl⟩ | ⟨_, earlier⟩
      · exact .inr ⟨.inl before.symm, fun _ _ old there => before.symm.trans there⟩
      · exact absurd (going b earlier) (by simp [outside])
  | advance j reply =>
    change (s.advance context j reply).attempts i = some b at there
    show _ ∨ Installs context (s.advance context j reply).files b.before result
    cases found : s.attempts j with
    | none =>
      rw [advance, found] at there
      rw [going b there] at outside
      cases outside
    | some a =>
      cases inside : a.point.inside with
      | false =>
        rw [advance_ended found inside] at there
        rw [going b there] at outside
        cases outside
      | true =>
        obtain ⟨c, attempts, stands⟩ := advance_stood standing found inside reply
        rw [attempts] at there
        rcases eq_or_of_update there with ⟨_, rfl⟩ | ⟨_, earlier⟩
        · rw [DownloadAttempt.Stands, ended] at stands
          exact installs_of_settled stands
        · rw [going b earlier] at outside
          cases outside
  | cancel k attemptId => exact stays (congrFun (s.cancel_files k attemptId).1 i)
  | advanceCancel k => exact stays (congrFun (s.advanceCancel_files k).1 i)
  | patch calls change invalidations read write =>
    exact stays (congrFun (s.settingsPatch_flags context calls change invalidations read write).1 i)
  | advancePatch => exact stays (congrFun s.advancePatch_files.1 i)

/-- A cancel leaves the records of other operations alone. -/
theorem advanceCancel_records {k place : Nat} {request : CancelRequest} {point : CancelPoint}
    {operation : ModelOperationStatus} (there : s.cancels k = some (request, point))
    (found : s.operations[place]? = some operation) (other : operation.operationId ≠ request.attemptId) :
    (s.advanceCancel k).operations[place]? = some operation := by
  unfold advanceCancel
  rw [there]
  cases point with
  | requestCancel =>
    rcases Operations.withRecord_getElem? .zenzai request.attemptId _ s.operations place operation found with
      same | ⟨_, own, _⟩
    · exact same
    · exact absurd own other
  | _ => exact found

/-- In every run of downloads, cancels and patches, from any files and settings, each attempt is a transaction and
cancels reach their own attempt. -/
theorem install_transactional (context : DownloadContext f32 f64) (files : ModelFiles) (settings : SettingsDisk)
    (ops : List (DownloadOp f32)) :
    (exec (step context) (new files settings) ops).Transactional context := by
  have invariant : (exec (step context) (new files settings) ops).Exclusive ∧
      (exec (step context) (new files settings) ops).Standing context ∧
        (exec (step context) (new files settings) ops).AllHonest :=
    exec_invariant_all (fun s : ZenzaiDownload f32 => s.Exclusive ∧ s.Standing context ∧ s.AllHonest)
      (fun s op ⟨exclusive, standing, honest⟩ =>
        ⟨exclusive.step op, standing.step exclusive op, honest.step exclusive op⟩)
      ⟨new_exclusive files settings, fun _ _ there => (nomatch there), fun _ _ there => nomatch there⟩ ops
  obtain ⟨exclusive, standing, honest⟩ := invariant
  refine ⟨fun i j a b left right first second => ?_, fun _ _ _ _ => standing.ends,
    fun op changed => step_changes exclusive honest op changed, fun i a there saved => ?_,
    fun i a there cleared set => ?_, fun i a generation there intended begun different => ?_,
    fun k request point place operation there found other => advanceCancel_records there found other⟩
  · exact ((exclusive.alone i a left first).2 j b right second).symm
  · obtain ⟨enabled, succeeds⟩ := (honest i a there).saved saved
    exact ⟨(honest i a there).enabled enabled, succeeds⟩
  · have inside := Point.inside_of_active (Point.active_of_cleared cleared)
    exact ⟨exclusive.flag set, (exclusive.owns i a there inside).cleared cleared⟩
  · have inside := Point.inside_of_active (Point.active_of_cleared (Point.cleared_of_intended intended))
    obtain ⟨own, counted⟩ := (exclusive.owns i a there inside).intended intended
    refine ⟨fun nobody => different ?_, own⟩
    -- Without invalidations the generation is the one that was begun.
    obtain ⟨small, now⟩ := counted generation begun
    rw [now, nobody, List.length_nil, Nat.add_zero, Nat.mod_eq_of_lt small]

/-! ## Four runs -/

/-- A hash that knows one model. -/
def knownContext : DownloadContext ℚ ℚ :=
  ⟨fun bytes => if bytes = [7] then modelSha256 else [], "C:\\models\\m.gguf".toList, rationals, futureSerde, hasDrive⟩

/-- The steps of an attempt, by what comes of them. -/
def steps (i : Nat) (replies : List Reply) : List (DownloadOp ℚ) := replies.map (.advance i)

/-- An attempt up to the check of its intent, with or without an old model. -/
def fetched (i : Nat) (activate : Bool) (attemptId : Nat) (found : Bool) : List (DownloadOp ℚ) :=
  .download i activate attemptId ::
    steps i ([.ok, .ok, .ok, .ok, .ok, .ok, .response none, .ok, .chunk [7], .ok, .ok, .ended, .ok, .ok,
      .found found] ++ (if found then [.ok, .ok, .ok, .ok] else []) ++ [.ok, .ok, .ok, .ok])

def oldModel : ModelFiles := Function.update (fun _ => none) .dest (some [1])

/-- The part cannot be renamed, and neither can the backup, which is then dropped. -/
def lostRun : List (DownloadOp ℚ) :=
  fetched 0 false 1 true ++
    steps 0 [.ok, .found true, .name 0, .ok, .ok, .err [], .err [], .ok, .ok, .ok, .ok, .ok, .ok]

/-- A cancel looks for the first attempt and sets the flag of the second. -/
def staleRun : List (DownloadOp ℚ) :=
  .download 0 false 1 :: steps 0 [.ok, .ok, .ok, .ok] ++ [.cancel 0 1] ++
    steps 0 [.absent, .ok, .ok, .ok, .ok, .ok, .ok] ++ [.download 1 false 2] ++
    steps 1 [.ok, .ok, .ok, .ok, .ok, .ok, .err []] ++ [.advanceCancel 0, .advance 1 .ok]

/-- Calls of which the rename gets through. -/
def movingCalls : LoadCalls := ⟨.works, true, .works, 0, 0, 0⟩

/-- The settings cannot be parsed, and the part cannot be renamed. -/
def brokenRun : List (DownloadOp ℚ) :=
  fetched 0 true 1 false ++ steps 0 [.ok, .load movingCalls, .found false, .err [], .ok, .ok, .ok, .ok, .ok, .ok]

/-- A cancel from beginning to end. -/
def cancelling (attemptId k : Nat) : List (DownloadOp ℚ) :=
  [.cancel k attemptId, .advanceCancel k, .advanceCancel k, .advanceCancel k]

/-- Cancels invalidate once each. -/
theorem exec_cancelling (attemptId times k : Nat) (s : ZenzaiDownload ℚ) (active : s.activeAttempt = attemptId)
    (small : s.activationGeneration < 2 ^ 64) (free : ∀ l, k ≤ l → s.cancels l = none) :
    ∃ cancelRequested operations cancels requests invalidations,
      exec (step knownContext) s ((List.range' k times).flatMap (cancelling attemptId)) =
        { s with
          activationGeneration := (s.activationGeneration + times) % 2 ^ 64
          cancelRequested, operations, cancels, requests, invalidations } ∧
        invalidations.length = s.invalidations.length + times := by
  induction times generalizing k s with
  | zero => exact ⟨_, _, _, _, _, by rw [Nat.add_zero, Nat.mod_eq_of_lt small]; rfl, rfl⟩
  | succ times ih =>
    have found : s.cancelZenzaiDownload k attemptId =
        { s with cancels := Function.update s.cancels k (some (⟨attemptId, s.epoch⟩, .storeRequest)) } := by
      rw [cancelZenzaiDownload, if_neg (by simp [free k le_rfl, active])]
    -- The four steps of one cancel.
    have cancelled : exec (step knownContext) s (cancelling attemptId k) =
        { s with
          cancelRequested := true
          requests := s.requests ++ [⟨attemptId, s.epoch⟩]
          operations := Operations.requestCancel .zenzai attemptId s.operations
          activationGeneration := nextUInt64 s.activationGeneration
          invalidations := s.invalidations ++ [.cancel ⟨attemptId, s.epoch⟩]
          cancels := Function.update s.cancels k (some (⟨attemptId, s.epoch⟩, .done)) } := by
      simp only [cancelling, exec_cons, exec_nil, step, found, advanceCancel, Function.update_self, operate,
        invalidateActivationIntent, Function.update_idem]
    have rest := ih (k + 1) (exec (step knownContext) s (cancelling attemptId k))
    rw [cancelled] at rest
    obtain ⟨cancelRequested, operations, cancels, requests, invalidations, ran, counted⟩ :=
      rest active (Nat.mod_lt _ (Nat.two_pow_pos 64)) fun l later =>
        (Function.update_of_ne (Nat.ne_of_gt later) ..).trans (free l (Nat.le_of_succ_le later))
    rw [List.range'_succ, List.flatMap_cons, exec_append, cancelled]
    refine ⟨cancelRequested, operations, cancels, requests, invalidations, ran.trans ?_, ?_⟩
    · simp only [nextUInt64, Nat.mod_add_mod, Nat.add_assoc, Nat.add_comm 1 times]
    · rw [counted, List.length_append, List.length_singleton, Nat.add_assoc, Nat.add_comm 1 times]

/-- The intent is invalidated until its generation comes round. -/
def cameRound : List (DownloadOp ℚ) :=
  fetched 0 true 1 false ++ ((List.range' 0 (2 ^ 64)).flatMap (cancelling 1) ++
    steps 0 [.ok, .load movingCalls, .found false, .ok, .ok, .save .works none])

/-- A model is lost, a cancel of one attempt stops another, an attempt that fails takes the settings file away, and one
saves whose intent was invalidated. -/
theorem install_goes_wrong :
    (∃ b error, (exec (step knownContext) (new oldModel ⟨none, []⟩) lostRun).attempts 0 = some b ∧
      b.before = some [1] ∧ b.point = .ended (.error error) ∧
        ∀ file, (exec (step knownContext) (new oldModel ⟨none, []⟩) lostRun).files file = none) ∧
    (∃ b point, (exec (step knownContext) (new (fun _ => none) ⟨none, []⟩) staleRun).attempts 1 = some b ∧
      b.attemptId = 2 ∧ b.point = .leave point (.error cancelledText) ∧
        ∀ k attemptId, .cancel k attemptId ∈ staleRun → attemptId = 1) ∧
    (∃ b error, (exec (step knownContext) (new (fun _ => none) brokenDisk) brokenRun).attempts 0 = some b ∧
      b.point = .ended (.error error) ∧ brokenDisk.file ≠ none ∧
        (exec (step knownContext) (new (fun _ => none) brokenDisk) brokenRun).settings.file = none) ∧
    ∃ b, (exec (step knownContext) (new (fun _ => none) ⟨none, []⟩) cameRound).attempts 0 = some b ∧
      b.saved = true ∧ b.invalidated = some (2 ^ 64) := by
  refine ⟨⟨_, _, rfl, rfl, rfl, fun file => ?_⟩, ⟨_, _, rfl, rfl, rfl, fun k attemptId among => ?_⟩,
    ⟨_, _, rfl, rfl, nofun, rfl⟩, ?_⟩
  · cases file with
    | backup name => cases name <;> rfl
    | _ => rfl
  · have only : k = 0 ∧ attemptId = 1 := by simpa [staleRun, steps] using among
    exact only.2
  · obtain ⟨cancelRequested, operations, cancels, requests, invalidations, ran, counted⟩ :=
      exec_cancelling 1 (2 ^ 64) 0 (exec (step knownContext) (new (fun _ => none) ⟨none, []⟩) (fetched 0 true 1 false))
        rfl (by decide) fun _ _ => rfl
    rw [cameRound, exec_append, exec_append, ran]
    exact ⟨_, rfl, rfl, congrArg some counted⟩

end ZenzaiDownload

end Nospacekey
