import Nospacekey.Engine.DictionaryReloadJobs

/-! The reload of the dictionary comes to rest with the setting and the file of the last request. -/

namespace Nospacekey

open Runs

/-- The file could not be read. -/
def LoadResult.isFailed {δ : Type} : LoadResult δ → Bool
  | .failed => true
  | _ => false

namespace DictionaryService

variable {δ : Type} {templates : List δ} {s t : DictionaryService δ} {job : ReloadJob δ}

/-- How many of the reads that began after a call failed. -/
def failures (s : DictionaryService δ) (generation : Nat) : Nat :=
  (s.reads.filter fun read => generation ≤ read.after && read.outcome.isFailed).length

/-- The dictionary was built from the setting and, when it is on, from a read that began after the last call. -/
def Fits (templates : List δ) (s : DictionaryService δ) (dicdata : List δ) : Prop :=
  (s.desiredDictEnabled = false ∧ dicdata = templates) ∨
    (s.desiredDictEnabled = true ∧
      ∃ read ∈ s.reads, s.dictionaryReloadGeneration ≤ read.after ∧ read.outcome.dicdata templates = some dicdata)

/-- The imported dictionary is up to date, or three reads after the last call have failed. -/
def Settled (templates : List δ) (s : DictionaryService δ) : Prop :=
  s.Fits templates s.dynamicUserDictionary ∨
    (s.desiredDictEnabled = true ∧ 3 ≤ s.failures s.dictionaryReloadGeneration)

/-- What a reload of the last generation has done when it enters a lock region. -/
def Progress (templates : List δ) (s : DictionaryService δ) (job : ReloadJob δ) : Prop :=
  match job.stage with
  | .current | .desired _ => job.attempt ≤ s.failures s.dictionaryReloadGeneration
  | .load | .loading _ => s.desiredDictEnabled = true ∧ job.attempt ≤ s.failures s.dictionaryReloadGeneration
  | .importing dicdata => s.Fits templates dicdata
  | .stillCurrent | .retry =>
    s.desiredDictEnabled = true ∧ job.attempt + 1 ≤ s.failures s.dictionaryReloadGeneration
  | .done _ => False

/-- Where the last call is: its job waits or runs, or the dictionary is settled. -/
inductive Latest (templates : List δ) (s : DictionaryService δ) : Prop where
  | waiting (attempt : Nat) (waits : s.waiting = some (.runDictionaryReload s.dictionaryReloadGeneration attempt))
      (failed : attempt ≤ s.failures s.dictionaryReloadGeneration)
  | running (job : ReloadJob δ) (running : s.reload = some job)
      (generation : job.generation = s.dictionaryReloadGeneration) (progress : s.Progress templates job)
  | settled (waits : s.waiting = none) (past : ∀ job, s.reload = some job → job.stage.isDone = true)
      (settled : s.Settled templates)

/-- A read counts when it began after the call and failed. -/
theorem failures_append (read : DictionaryRead δ) (reads : t.reads = s.reads ++ [read]) (generation : Nat) :
    t.failures generation =
      s.failures generation + if generation ≤ read.after ∧ read.outcome.isFailed = true then 1 else 0 := by
  unfold failures
  rw [reads, List.filter_append, List.length_append]
  by_cases counts : generation ≤ read.after ∧ read.outcome.isFailed = true
  · simp [counts]
  · rw [if_neg counts]
    simpa using counts

/-- What a running reload leaves as it was. -/
theorem runDictionaryReload_frame (templates : List δ) (s : DictionaryService δ) (job : ReloadJob δ) (op : ReloadOp δ) :
    let t := runDictionaryReload templates s job op
    t.dictionaryReloadGeneration = s.dictionaryReloadGeneration ∧ t.desiredDictEnabled = s.desiredDictEnabled ∧
      t.call = s.call ∧ ∀ generation, s.failures generation ≤ t.failures generation := by
  cases op with
  | endLoad outcome =>
    dsimp only [runDictionaryReload]
    split
    · rename_i after _
      refine ⟨rfl, rfl, rfl, fun generation => ?_⟩
      exact (Nat.le_add_right _ _).trans (failures_append (s := s) ⟨after, outcome⟩ rfl generation).ge
    · exact ⟨rfl, rfl, rfl, fun _ => le_rfl⟩
  | readDesired | importDictionary | checkCurrent | checkStillCurrent =>
    dsimp only [runDictionaryReload]
    split <;> exact ⟨rfl, rfl, rfl, fun _ => le_rfl⟩
  | _ => exact ⟨rfl, rfl, rfl, fun _ => le_rfl⟩

/-- While a reload of the last generation runs, nothing waits. -/
theorem Ordered.nothing_waits (ordered : s.Ordered) (running : s.reload = some job)
    (pending : job.stage.isDone = false) (last : job.generation = s.dictionaryReloadGeneration) : s.waiting = none := by
  by_contra waits
  obtain ⟨work, waits⟩ := Option.ne_none_iff_exists'.mp waits
  obtain ⟨generation, attempt, rfl, _, older, _⟩ := ordered.waits work waits
  have newer := (ordered.job job running).newer pending generation attempt waits
  have returned := s.returned_le
  omega

/-- The lane's own steps leave the last call where it is, or take its job. -/
theorem Latest.maintenance (ordered : s.Ordered) (latest : s.Latest templates)
    {op : MaintenanceOp Text MaintenanceWork} (allowed : s.Allowed (.maintenance op)) :
    (s.step templates (.maintenance op)).Latest templates := by
  cases op with
  | drainStep =>
    obtain ⟨draining, _⟩ : s.maintenance.worker = .draining ∧ True := allowed
    obtain ⟨_, taken⟩ := MaintenanceRun.drain_reload ordered.accounted ordered.unmixed draining
    obtain ⟨label, work, takes, rfl, held, waits, _⟩ | ⟨others, waits⟩ := taken
    · cases latest with
      | waiting attempt waiting failed =>
        obtain rfl := Option.some.inj (held.symm.trans waiting)
        refine .running ⟨s.dictionaryReloadGeneration, attempt, .current⟩ ?_ rfl failed
        simp [DictionaryService.step, DictionaryService.taken, takes]
      | running job running =>
        obtain ⟨taken, working⟩ := ordered.worker job running
        cases draining.symm.trans working
      | settled nothing => cases nothing.symm.trans held
    · have reload : (s.step templates (.maintenance .drainStep)).reload = none := by
        simp only [DictionaryService.step, DictionaryService.taken]
        split
        · rename_i lane label generation attempt takes
          cases others _ takes
        · rfl
      cases latest with
      | waiting attempt waiting failed => exact .waiting attempt (waits.trans waiting) failed
      | running job running =>
        obtain ⟨taken, working⟩ := ordered.worker job running
        cases draining.symm.trans working
      | settled nothing _ settled =>
        exact .settled (waits.trans nothing) (fun job running => absurd (reload.symm.trans running) (by simp)) settled
  | finish failed =>
    obtain ⟨_, finished⟩ := allowed
    obtain ⟨_, waits⟩ :=
      MaintenanceRun.foreign_step ordered.accounted ordered.unmixed (.finish failed) trivial (by simp)
    cases latest with
    | waiting attempt waiting less => exact .waiting attempt (waits.trans waiting) less
    | running job running _ progress => simp [Progress, finished job running] at progress
    | settled nothing _ settled => exact .settled (waits.trans nothing) (fun _ (running : none = some _) => by cases running) settled
  | submit | submitLatest | submitLatestAfter | promoteDueDelayed | startDrain =>
    obtain ⟨_, waits⟩ := MaintenanceRun.foreign_step ordered.accounted ordered.unmixed _ allowed.2 (by simp)
    cases latest with
    | waiting attempt waiting failed => exact .waiting attempt (waits.trans waiting) failed
    | running job running generation progress => exact .running job running generation progress
    | settled nothing past settled => exact .settled (waits.trans nothing) past settled

/-- A running reload leaves the lane as it is until it schedules a retry. -/
theorem runDictionaryReload_maintenance (templates : List δ) (s : DictionaryService δ) (job : ReloadJob δ)
    {op : ReloadOp δ}
    (unscheduled : ∀ deadline, op ≠ .scheduleRetry deadline) :
    (runDictionaryReload templates s job op).maintenance = s.maintenance := by
  cases op with
  | scheduleRetry deadline => exact absurd rfl (unscheduled deadline)
  | readDesired | importDictionary | checkCurrent | checkStillCurrent | endLoad =>
    dsimp only [runDictionaryReload]
    split <;> rfl
  | _ => rfl

/-- A running reload matters to the last call only when it is the last call's own. -/
theorem Latest.running_step (latest : s.Latest templates) (running : s.reload = some job)
    (pending : job.stage.isDone = false) {op : ReloadOp δ} (unscheduled : ∀ deadline, op ≠ .scheduleRetry deadline)
    (own : job.generation = s.dictionaryReloadGeneration → s.Progress templates job →
      (runDictionaryReload templates s job op).Latest templates) :
    (runDictionaryReload templates s job op).Latest templates := by
  cases latest with
  | waiting attempt waits failed =>
    obtain ⟨generation, _, _, failures⟩ := runDictionaryReload_frame templates s job op
    have maintenance := runDictionaryReload_maintenance templates s job unscheduled
    refine .waiting attempt ?_ ?_
    · rw [generation, DictionaryService.waiting, maintenance]
      exact waits
    · rw [generation]
      exact failed.trans (failures _)
  | running job' running' generation progress =>
    obtain rfl := Option.some.inj (running.symm.trans running')
    exact own generation progress
  | settled _ past => cases pending.symm.trans (past job running)

/-- A step is no call's own. -/
def Uncalled : ReloadOp δ → Prop
  | .requestDictionaryReload _ | .enqueueDictionaryReload | .submitReload => False
  | _ => True

/-- Only calls change the generation. -/
theorem step_uncalled (templates : List δ) (s : DictionaryService δ) {op : ReloadOp δ} (uncalled : Uncalled op) :
    (s.step templates op).call = s.call ∧
      (s.step templates op).dictionaryReloadGeneration = s.dictionaryReloadGeneration := by
  cases op with
  | requestDictionaryReload | enqueueDictionaryReload | submitReload => exact uncalled.elim
  | maintenance op => cases op <;> exact ⟨rfl, rfl⟩
  | _ =>
    simp only [DictionaryService.step]
    split
    · exact ⟨(runDictionaryReload_frame _ _ _ _).2.2.1, (runDictionaryReload_frame _ _ _ _).1⟩
    · exact ⟨rfl, rfl⟩

/-- The last call stays on its way until the dictionary is settled. -/
theorem Latest.step (ordered : s.Ordered) (latest : s.Latest templates) {op : ReloadOp δ} (allowed : s.Allowed op)
    (uncalled : Uncalled op) : (s.step templates op).Latest templates := by
  have goes {job : ReloadJob δ} (running : s.reload = some job) (stage : ReloadStage δ) :
      (s.goes stage).reload = some { job with stage := stage } := by simp [DictionaryService.goes, running]
  cases op with
  | requestDictionaryReload | enqueueDictionaryReload | submitReload => exact uncalled.elim
  | maintenance op => exact latest.maintenance ordered allowed
  | checkCurrent =>
    obtain ⟨job, running, stage⟩ := allowed
    simp only [DictionaryService.step, running]
    refine latest.running_step running (by rw [stage]; rfl) (by simp) fun last progress => ?_
    have current : s.isCurrent job.generation = true := by simp [isCurrent, last]
    simp only [Progress, stage] at progress
    simp only [runDictionaryReload, current, if_true]
    exact .running _ (goes running _) last progress
  | readDesired =>
    obtain ⟨found, job, running, stage⟩ := allowed
    simp only [DictionaryService.step, running]
    refine latest.running_step running (by rw [stage]; rfl) (by simp) fun last progress => ?_
    simp only [Progress, stage] at progress
    simp only [runDictionaryReload, stage]
    cases enabled : s.desiredDictEnabled with
    | true => exact .running _ (goes running _) last ⟨enabled, progress⟩
    | false => exact .running _ (goes running _) last (.inl ⟨enabled, rfl⟩)
  | beginLoad =>
    obtain ⟨job, running, stage⟩ := allowed
    simp only [DictionaryService.step, running]
    refine latest.running_step running (by rw [stage]; rfl) (by simp) fun last progress => ?_
    simp only [Progress, stage] at progress
    exact .running _ (goes running _) last progress
  | endLoad outcome =>
    obtain ⟨after, job, running, stage⟩ := allowed
    simp only [DictionaryService.step, running]
    refine latest.running_step running (by rw [stage]; rfl) (by simp) fun last progress => ?_
    simp only [Progress, stage] at progress
    obtain ⟨enabled, failed⟩ := progress
    have begun : s.dictionaryReloadGeneration ≤ after := last ▸ (ordered.job job running).after after stage
    simp only [runDictionaryReload, stage]
    refine .running { job with stage := outcome.next templates } (goes running _) last ?_
    cases outcome with
    | failed =>
      -- One more read after the last call has failed.
      refine ⟨enabled, ?_⟩
      rw [failures_append (s := s) ⟨after, .failed⟩ rfl, if_pos ⟨begun, rfl⟩]
      exact Nat.add_le_add_right failed 1
    | absent => exact .inr ⟨enabled, ⟨after, .absent⟩, by simp, begun, rfl⟩
    | loaded imported => exact .inr ⟨enabled, ⟨after, .loaded imported⟩, by simp, begun, rfl⟩
  | importDictionary =>
    obtain ⟨dicdata, job, running, stage⟩ := allowed
    have pending : job.stage.isDone = false := by rw [stage]; rfl
    simp only [DictionaryService.step, running]
    refine latest.running_step running pending (by simp) fun last progress => ?_
    simp only [Progress, stage] at progress
    simp only [runDictionaryReload, stage]
    refine .settled (ordered.nothing_waits running pending last) (fun job' running' => ?_) (.inl progress)
    rw [← Option.some.inj ((goes running (.done false)).symm.trans running')]
    rfl
  | checkStillCurrent =>
    obtain ⟨job, running, stage⟩ := allowed
    have pending : job.stage.isDone = false := by rw [stage]; rfl
    simp only [DictionaryService.step, running]
    refine latest.running_step running pending (by simp) fun last progress => ?_
    have current : s.isCurrent job.generation = true := by simp [isCurrent, last]
    simp only [Progress, stage] at progress
    simp only [runDictionaryReload, current, if_true]
    split
    · exact .running _ (goes running _) last progress
    · rename_i many
      -- The third attempt has failed as well.
      refine .settled (ordered.nothing_waits running pending last) (fun job' running' => ?_)
        (.inr ⟨progress.1, le_trans (by omega) progress.2⟩)
      rw [← Option.some.inj ((goes running (.done true)).symm.trans running')]
      rfl
  | scheduleRetry deadline =>
    obtain ⟨⟨job, running, stage⟩, room⟩ := allowed
    have pending : job.stage.isDone = false := by rw [stage]; rfl
    obtain ⟨_, waits⟩ := ordered.retry_waiting running pending room deadline
      (.runDictionaryReload job.generation (job.attempt + 1))
    simp only [DictionaryService.step, running]
    cases latest with
    | waiting attempt waiting failed => exact .waiting attempt (waits.trans (by rw [waiting]; rfl)) failed
    | running job' running' last progress =>
      obtain rfl := Option.some.inj (running.symm.trans running')
      simp only [Progress, stage] at progress
      refine .waiting (job.attempt + 1) (waits.trans ?_) progress.2
      rw [ordered.nothing_waits running pending last, last]
      rfl
    | settled _ past => cases pending.symm.trans (past job running)

/-- The jobs are in order, and the last call is on its way or done. -/
structure Converging (templates : List δ) (s : DictionaryService δ) : Prop where
  ordered : s.Ordered
  latest : s.call = none → 0 < s.dictionaryReloadGeneration → s.Latest templates

/-- Every allowed step brings the last call on its way. -/
theorem Converging.step (converging : s.Converging templates) {op : ReloadOp δ} (allowed : s.Allowed op) :
    (s.step templates op).Converging templates := by
  have ordered := converging.ordered
  refine ⟨ordered.step allowed, fun called made => ?_⟩
  by_cases uncalled : Uncalled op
  · obtain ⟨call, generation⟩ := s.step_uncalled templates uncalled
    exact (converging.latest (call ▸ called) (generation ▸ made)).step ordered allowed uncalled
  · cases op with
    | requestDictionaryReload enabled => cases called
    | enqueueDictionaryReload => cases called
    | submitReload =>
      obtain ⟨calling, room⟩ := allowed
      obtain ⟨generation, call⟩ := Option.isSome_iff_exists.mp calling
      obtain ⟨rfl, _⟩ := ordered.called generation call
      obtain ⟨_, waits, _⟩ := ordered.submit_waiting room (.runDictionaryReload s.dictionaryReloadGeneration 0)
      simp only [DictionaryService.step, call]
      exact .waiting 0 waits (Nat.zero_le _)
    | _ => exact absurd trivial uncalled

/-- No reload waits, is delayed or runs. -/
def Idle (s : DictionaryService δ) : Prop := s.waiting = none ∧ s.reload = none

/-- The setting of the last request. -/
def lastSetting (enabled : Bool) (ops : List (ReloadOp δ)) : Bool :=
  ops.foldl (fun enabled op => match op with
    | .requestDictionaryReload requested => requested
    | _ => enabled) enabled

/-- What holds of the reloads after every run, when the last request has left a setting. -/
structure Converges (templates : List δ) (enabled : Bool) (s : DictionaryService δ) : Prop where
  thrice : ∀ generation, s.attempts generation ≤ 3
  /-- A reload that starts its work was of the newest generation when it checked. -/
  found : ∀ execution ∈ s.executions, execution.found % 2 ^ 64 = execution.generation % 2 ^ 64 ∧
    (execution.found < 2 ^ 64 → execution.generation = execution.found)
  /-- A retry displaces nothing. -/
  retried : ∀ deadline, s.Allowed (.scheduleRetry deadline) → ∀ work, s.waiting = some work →
    (s.step templates (.scheduleRetry deadline)).waiting = some work
  /-- A call's job displaces whatever waits. -/
  submitted : s.Allowed .submitReload →
    (s.step templates .submitReload).waiting = some (.runDictionaryReload s.dictionaryReloadGeneration 0)
  desired : s.desiredDictEnabled = enabled
  settled : s.Idle → s.call = none → 0 < s.dictionaryReloadGeneration → s.Settled templates
  disabled : s.Idle → s.call = none → 0 < s.dictionaryReloadGeneration → enabled = false →
    s.dynamicUserDictionary = templates

/-- Only a request changes the setting. -/
theorem step_desired (s : DictionaryService δ) (op : ReloadOp δ) :
    (s.step templates op).desiredDictEnabled = lastSetting s.desiredDictEnabled [op] := by
  cases op with
  | requestDictionaryReload | enqueueDictionaryReload => rfl
  | submitReload =>
    simp only [DictionaryService.step]
    split <;> rfl
  | maintenance op => cases op <;> rfl
  | _ =>
    simp only [DictionaryService.step]
    split
    · exact (runDictionaryReload_frame _ _ _ _).2.1
    · rfl

/-- The setting is the last request's. -/
theorem exec_desired (s : DictionaryService δ) (ops : List (ReloadOp δ)) :
    (exec (step templates) s ops).desiredDictEnabled = lastSetting s.desiredDictEnabled ops := by
  induction ops generalizing s with
  | nil => rfl
  | cons op ops ih =>
    rw [exec_cons, ih, step_desired]
    rfl

/-- When no reload is left, the last call is settled. -/
theorem Converging.at_rest (converging : s.Converging templates) (idle : s.Idle) (returned : s.call = none)
    (called : 0 < s.dictionaryReloadGeneration) : s.Settled templates := by
  cases converging.latest returned called with
  | waiting attempt waits => cases idle.1.symm.trans waits
  | running job running => cases idle.2.symm.trans running
  | settled _ _ settled => exact settled

/-- What converges has the properties that are promised of it. -/
theorem Converging.converges (converging : s.Converging templates) {enabled : Bool}
    (desired : s.desiredDictEnabled = enabled) : s.Converges templates enabled := by
  have ordered := converging.ordered
  refine ⟨ordered.thrice, fun execution member => ?_, fun deadline allowed work waits => ?_, fun allowed => ?_, desired,
    converging.at_rest, fun idle returned called disabled => ?_⟩
  · obtain ⟨same, older⟩ := ordered.found execution member
    refine ⟨same, fun small => ?_⟩
    -- Below 2 ^ 64 the generation is the one that was compared.
    rwa [Nat.mod_eq_of_lt small, Nat.mod_eq_of_lt (by omega), eq_comm] at same
  · obtain ⟨⟨job, running, stage⟩, room⟩ := allowed
    obtain ⟨_, kept⟩ := ordered.retry_waiting running (by rw [stage]; rfl) room deadline
      (.runDictionaryReload job.generation (job.attempt + 1))
    simp only [DictionaryService.step, running]
    exact kept.trans (by rw [waits]; rfl)
  · obtain ⟨calling, room⟩ := allowed
    obtain ⟨generation, call⟩ := Option.isSome_iff_exists.mp calling
    obtain ⟨rfl, _⟩ := ordered.called generation call
    simp only [DictionaryService.step, call]
    exact (ordered.submit_waiting room _).2.1
  · rcases converging.at_rest idle returned called with (⟨_, built⟩ | ⟨enabled', _⟩) | ⟨enabled', _⟩
    · exact built
    · exact absurd (enabled'.symm.trans (desired.trans disabled)) (by simp)
    · exact absurd (enabled'.symm.trans (desired.trans disabled)) (by simp)

/-- Nothing was called in a new service. -/
theorem new_converging (capacity : Nat) (enabled : Bool) (dictionary : List δ) :
    (new capacity enabled dictionary).Converging templates :=
  ⟨new_ordered capacity enabled dictionary, fun _ called => absurd called (Nat.lt_irrefl 0)⟩

/-- In every run, with the calls, the drains, the timer and the other callers in any order, a generation is tried at
most three times, no retry displaces a newer request, and the dictionary comes to rest with the last request. -/
theorem reload_converges (templates dictionary : List δ) (capacity : Nat) (enabled : Bool) (ops : List (ReloadOp δ))
    (allowed : Admissible (step templates) Allowed (new capacity enabled dictionary) ops) :
    (exec (step templates) (new capacity enabled dictionary) ops).Converges templates (lastSetting enabled ops) :=
  (exec_invariant (Converging templates) (fun _ _ converging allowed => converging.step allowed)
    (new_converging capacity enabled dictionary) allowed).converges (exec_desired _ ops)

/-- A first read that fails, and the retry that the timer brings. -/
def retried : List (ReloadOp Nat) :=
  [.requestDictionaryReload true, .submitReload, .maintenance .startDrain, .maintenance .drainStep, .checkCurrent,
    .readDesired, .beginLoad, .endLoad .failed, .checkStillCurrent, .scheduleRetry 5, .maintenance (.finish false),
    .maintenance .drainStep, .maintenance (.promoteDueDelayed 7 [dictionaryReload]), .maintenance .drainStep,
    .checkCurrent, .readDesired, .beginLoad, .endLoad (.loaded [1]), .importDictionary, .maintenance (.finish false)]

/-- The word that the second read finds is imported. -/
theorem reload_converges_retried :
    (exec (step [0]) (new 64 true [0]) retried).Converges [0] true ∧
      (exec (step [0]) (new 64 true [0]) retried).dynamicUserDictionary = [0, 1] := by
  refine ⟨reload_converges [0] [0] 64 true retried ?_, rfl⟩
  exact ⟨rfl, ⟨rfl, by decide⟩, ⟨⟨rfl, by decide⟩, trivial⟩, ⟨rfl, trivial⟩, ⟨_, rfl, rfl⟩, ⟨_, _, rfl, rfl⟩,
    ⟨_, rfl, rfl⟩, ⟨_, _, rfl, rfl⟩, ⟨_, rfl, rfl⟩, ⟨⟨_, rfl, rfl⟩, by decide⟩, ⟨⟨_, rfl⟩, by rintro _ ⟨⟩; rfl⟩,
    ⟨rfl, trivial⟩, ⟨⟨rfl, .refl _⟩, trivial⟩, ⟨rfl, trivial⟩, ⟨_, rfl, rfl⟩, ⟨_, _, rfl, rfl⟩, ⟨_, rfl, rfl⟩,
    ⟨_, _, rfl, rfl⟩, ⟨_, _, rfl, rfl⟩, ⟨⟨_, rfl⟩, by rintro _ ⟨⟩; rfl⟩, trivial⟩

/-- Work that was found current starts after the next request has come, and no reload waits or runs while a request
that turned the dictionary off has its job still to submit. -/
theorem reload_superseded :
    (∃ ops, Admissible (step [0]) Allowed (new 64 true [0]) ops ∧
      ∃ execution ∈ (exec (step [0]) (new 64 true [0]) ops).executions, execution.generation < execution.started) ∧
    ∃ ops, Admissible (step [0]) Allowed (new 64 true [0, 1]) ops ∧
      (exec (step [0]) (new 64 true [0, 1]) ops).Idle ∧
      0 < (exec (step [0]) (new 64 true [0, 1]) ops).dictionaryReloadGeneration ∧
      ¬ (exec (step [0]) (new 64 true [0, 1]) ops).Settled [0] := by
  refine ⟨⟨[.requestDictionaryReload true, .submitReload, .maintenance .startDrain, .maintenance .drainStep,
    .checkCurrent, .requestDictionaryReload false, .readDesired], ?_, ⟨1, 0, 1, 2⟩, ?_, ?_⟩,
    [.requestDictionaryReload true, .submitReload, .maintenance .startDrain, .maintenance .drainStep,
      .requestDictionaryReload false, .checkCurrent, .maintenance (.finish false)], ?_, ⟨rfl, rfl⟩, by decide, ?_⟩
  · exact ⟨rfl, ⟨rfl, by decide⟩, ⟨⟨rfl, by decide⟩, trivial⟩, ⟨rfl, trivial⟩, ⟨_, rfl, rfl⟩, rfl,
      ⟨_, _, rfl, rfl⟩, trivial⟩
  · decide
  · decide
  · exact ⟨rfl, ⟨rfl, by decide⟩, ⟨⟨rfl, by decide⟩, trivial⟩, ⟨rfl, trivial⟩, rfl, ⟨_, rfl, rfl⟩,
      ⟨⟨_, rfl⟩, by rintro _ ⟨⟩; rfl⟩, trivial⟩
  · rintro ((⟨_, built⟩ | ⟨enabled, _⟩) | ⟨enabled, _⟩)
    · exact absurd built (by decide)
    · exact absurd enabled (by decide)
    · exact absurd enabled (by decide)

end DictionaryService

end Nospacekey
