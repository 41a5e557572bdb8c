import Nospacekey.Engine.DictionaryReload

/-! The jobs of the dictionary reloads stand in order: a newer generation behind an older one, each tried in turn. -/

namespace Nospacekey

namespace BackgroundMaintenance

variable {κ ω : Type} [DecidableEq κ] {s : BackgroundMaintenance κ ω} {label other : κ}

omit [DecidableEq κ] in
/-- A submitted job delays none. -/
theorem submit_delayed (s : BackgroundMaintenance κ ω) (label : κ) (work : ω) :
    (s.submit label work).1.delayed = s.delayed := by
  unfold submit
  split
  · rfl
  · simp only [start_eq]

/-- An immediate job takes its own label off the delayed ones. -/
theorem submitLatest_delayed (timed : s.delayedTimer = (s.delayed.values.map Prod.fst).min?) (work : ω) :
    (s.submitLatest label work).1.delayed = s.delayed.erase label := by
  unfold submitLatest
  rw [withdrawDelayed_eq timed]
  dsimp only
  split
  · rfl
  · split
    · rfl
    · simp only [start_eq, scheduleNextDelayed]

/-- A delayed job leaves the other labels as they were. -/
theorem submitLatestAfter_delayed (different : other ≠ label) (deadline : Nat) (work : ω) :
    (s.submitLatestAfter label deadline work).1.delayed.lookup other = s.delayed.lookup other := by
  unfold submitLatestAfter
  split
  · rfl
  · split
    · rfl
    · simp only [scheduleNextDelayed]
      exact AList.lookup_insert_ne different

end BackgroundMaintenance

/-- No job but a reload's own is a reload, and none of them waits among the submitted ones. -/
structure Unmixed (lane : BackgroundMaintenance Text MaintenanceWork) : Prop where
  submitted : ∀ entry ∈ lane.pending, entry.2 = .other
  labelled : ∀ label work, label ≠ dictionaryReload → lane.waiting label = some work → work = .other

namespace Unmixed

open BackgroundMaintenance

variable {s t : BackgroundMaintenance Text MaintenanceWork}

/-- A request for a label leaves the jobs unmixed when it is another's or the reload's own. -/
theorem leaves (unmixed : Unmixed s) {label : Text} {work : MaintenanceWork}
    (own : label ≠ dictionaryReload → work = .other)
    (left : Leaves s t (Function.update s.waiting label (some work)) s.pending) : Unmixed t where
  submitted := by
    rw [left.pending]
    exact unmixed.submitted
  labelled other held different waits := by
    rw [left.waits other] at waits
    by_cases same : other = label
    · subst same
      simpa using (Option.some.inj (by simpa using waits)).symm.trans (own different)
    · exact unmixed.labelled other held different (by simpa [same] using waits)

/-- A refused request leaves the jobs unmixed. -/
theorem refused (unmixed : Unmixed s) (left : Leaves s t s.waiting s.pending) : Unmixed t where
  submitted := by
    rw [left.pending]
    exact unmixed.submitted
  labelled other held different waits := unmixed.labelled other held different ((left.waits other).symm.trans waits)

end Unmixed

namespace MaintenanceRun

variable {s : MaintenanceRun Text MaintenanceWork}

/-- Whatever is not a drain leaves the reload that waits, and the other jobs are no reloads. -/
theorem foreign_step (accounted : s.Accounted) (unmixed : Unmixed s.lane) (op : MaintenanceOp Text MaintenanceWork)
    (foreign : DictionaryService.Foreign op) (undrained : op ≠ .drainStep) :
    Unmixed (s.step op).lane ∧ (s.step op).lane.waiting dictionaryReload = s.lane.waiting dictionaryReload := by
  have sound := accounted.sound
  cases op with
  | submit label work =>
    obtain rfl : work = .other := foreign
    simp only [step]
    obtain ⟨refused, _⟩ | ⟨_, left⟩ := sound.submit label .other
    · rw [refused]
      exact ⟨unmixed.refused sound.drop, rfl⟩
    · refine ⟨⟨fun entry member => ?_, fun other held different waits =>
        unmixed.labelled other held different ((left.waits other).symm.trans waits)⟩, left.waits _⟩
      rw [left.pending, List.mem_append, List.mem_singleton] at member
      rcases member with member | rfl
      · exact unmixed.submitted entry member
      · rfl
  | submitLatest label work =>
    obtain ⟨different, rfl⟩ : label ≠ dictionaryReload ∧ work = .other := foreign
    simp only [step]
    obtain ⟨_, left, _⟩ | ⟨_, left⟩ := sound.submitLatest label .other
    · exact ⟨unmixed.refused left, left.waits _⟩
    · exact ⟨unmixed.leaves (fun _ => rfl) left, (left.waits _).trans (Function.update_of_ne different.symm _ _)⟩
  | submitLatestAfter label deadline work =>
    obtain ⟨different, rfl⟩ : label ≠ dictionaryReload ∧ work = .other := foreign
    simp only [step]
    obtain ⟨_, left, _⟩ | ⟨_, left⟩ := sound.submitLatestAfter label deadline .other
    · exact ⟨unmixed.refused left, left.waits _⟩
    · exact ⟨unmixed.leaves (fun _ => rfl) left, (left.waits _).trans (Function.update_of_ne different.symm _ _)⟩
  | promoteDueDelayed now listed =>
    obtain ⟨_, waits, pending, _⟩ := sound.promoteDueDelayed listed
    refine ⟨⟨fun entry member => unmixed.submitted entry (pending ▸ member),
      fun other held different waiting => ?_⟩, waits _⟩
    exact unmixed.labelled other held different ((waits other).symm.trans waiting)
  | startDrain => exact ⟨⟨unmixed.submitted, unmixed.labelled⟩, rfl⟩
  | drainStep => exact absurd rfl undrained
  | finish failed => exact ⟨⟨unmixed.submitted, unmixed.labelled⟩, rfl⟩

/-- While the queue is at a job, other callers leave the delayed reload as it is. -/
theorem foreign_delayed (accounted : s.Accounted) {op : MaintenanceOp Text MaintenanceWork} (allowed : s.Allowed op)
    (foreign : DictionaryService.Foreign op) {job : MaintenanceJob Text MaintenanceWork}
    (working : s.worker = .working job) :
    (s.step op).worker = .working job ∧
        (s.step op).lane.delayed.lookup dictionaryReload = s.lane.delayed.lookup dictionaryReload ∨
      ∃ failed, op = .finish failed := by
  cases op with
  | submit label work => exact .inl ⟨working, by simp only [step, BackgroundMaintenance.submit_delayed]⟩
  | submitLatest label work =>
    refine .inl ⟨working, ?_⟩
    simp only [step]
    rw [BackgroundMaintenance.submitLatest_delayed accounted.sound.timed, Table.lookup_erase_eq,
      if_neg foreign.1.symm]
  | submitLatestAfter label deadline work =>
    exact .inl ⟨working, BackgroundMaintenance.submitLatestAfter_delayed foreign.1.symm deadline work⟩
  | promoteDueDelayed now listed => cases working.symm.trans allowed.1
  | startDrain => cases working.symm.trans allowed.1
  | drainStep => cases working.symm.trans allowed
  | finish failed => exact .inr ⟨failed, rfl⟩

/-- A drain takes the reload that waits, or leaves it. -/
theorem drain_reload (accounted : s.Accounted) (unmixed : Unmixed s.lane) (draining : s.worker = .draining) :
    Unmixed (s.step .drainStep).lane ∧
      ((∃ label work, s.takes = some ⟨.latest, label, work⟩ ∧ label = dictionaryReload ∧
          s.lane.waiting dictionaryReload = some work ∧
          (s.step .drainStep).lane.waiting dictionaryReload = none ∧
          ∃ job, (s.step .drainStep).worker = .working job) ∨
        ((∀ job, s.takes = some job → job.work = .other) ∧
          (s.step .drainStep).lane.waiting dictionaryReload = s.lane.waiting dictionaryReload)) := by
  have spec := accounted.sound.drainStep (accounted.running (by simp [MaintenanceRun.busy, draining]))
  simp only [MaintenanceRun.step, MaintenanceRun.takes]
  generalize s.lane.drainStep = result at spec
  obtain ⟨lane, decision⟩ := result
  dsimp only at spec
  cases spec with
  | submitted label work _ pending waits =>
    obtain rfl : work = .other := unmixed.submitted (label, work) (by simp [pending])
    refine ⟨⟨fun entry member => unmixed.submitted entry (by simp [pending, member]),
      fun other held different found => unmixed.labelled other held different ((waits other).symm.trans found)⟩,
      .inr ⟨?_, waits _⟩⟩
    rintro job ⟨⟩
    rfl
  | latest label work _ pending held waits =>
    refine ⟨⟨fun entry member => unmixed.submitted entry (by rwa [pending] at member),
      fun other job different found => unmixed.labelled other job different ?_⟩, ?_⟩
    · rw [waits other] at found
      by_cases same : other = label
      · simp [same] at found
      · simpa [same] using found
    · by_cases own : label = dictionaryReload
      · subst own
        exact .inl ⟨_, work, rfl, rfl, held, by simp [waits], _, rfl⟩
      · refine .inr ⟨?_, by rw [waits, Function.update_of_ne (Ne.symm own)]⟩
        rintro job ⟨⟩
        exact unmixed.labelled label work own held
  | stop noJob noLabel stopped =>
    subst stopped
    exact ⟨⟨unmixed.submitted, unmixed.labelled⟩, .inr ⟨(by simp), rfl⟩⟩

end MaintenanceRun

namespace ReloadStage

variable {δ : Type}

/-- The reload has nothing left to do but to return. -/
def isDone : ReloadStage δ → Bool
  | .done _ => true
  | _ => false

/-- The work of the reload was executed, or will not be. -/
def isPast : ReloadStage δ → Bool
  | .current | .desired _ => false
  | _ => true

end ReloadStage

namespace DictionaryService

variable {δ : Type} {templates : List δ} {s t : DictionaryService δ} {job : ReloadJob δ}

/-- How often the work was executed for a generation. -/
def attempts (s : DictionaryService δ) (generation : Nat) : Nat :=
  (s.executions.filter fun execution => execution.generation = generation).length

/-- What is known of the reload that the queue is at. -/
structure JobSound (s : DictionaryService δ) (job : ReloadJob δ) : Prop where
  attempt : job.attempt ≤ 2
  generation : job.generation ≤ s.returned
  counted : s.attempts job.generation ≤ job.attempt + if job.stage.isPast then 1 else 0
  newer : job.stage.isDone = false → ∀ generation attempt,
    s.waiting = some (.runDictionaryReload generation attempt) → job.generation < generation
  immediate : job.stage.isDone = false → s.maintenance.lane.delayed.lookup dictionaryReload = none
  found : ∀ found, job.stage = .desired found →
    found % 2 ^ 64 = job.generation % 2 ^ 64 ∧ job.generation ≤ found
  after : ∀ after, job.stage = .loading after → job.generation ≤ after
  retry : job.stage = .retry → job.attempt < 2

/-- The reload jobs stand in the order of their generations, and each was executed as often as its attempt says. -/
structure Ordered (s : DictionaryService δ) : Prop where
  accounted : s.maintenance.Accounted
  unmixed : Unmixed s.maintenance.lane
  worker : ∀ job, s.reload = some job → ∃ taken, s.maintenance.worker = .working taken
  called : ∀ generation, s.call = some generation →
    generation = s.dictionaryReloadGeneration ∧ 0 < s.dictionaryReloadGeneration
  waits : ∀ work, s.waiting = some work → ∃ generation attempt, work = .runDictionaryReload generation attempt ∧
    attempt ≤ 2 ∧ generation ≤ s.returned ∧ s.attempts generation ≤ attempt
  job : ∀ job, s.reload = some job → s.JobSound job
  fresh : ∀ generation, s.returned < generation → s.attempts generation = 0
  thrice : ∀ generation, s.attempts generation ≤ 3
  found : ∀ execution ∈ s.executions,
    execution.found % 2 ^ 64 = execution.generation % 2 ^ 64 ∧ execution.generation ≤ execution.found

/-- The returned calls are at most those made. -/
theorem returned_le (s : DictionaryService δ) : s.returned ≤ s.dictionaryReloadGeneration := by
  unfold returned
  split <;> omega

/-- Nothing waits in a new service. -/
theorem new_ordered (capacity : Nat) (enabled : Bool) (dictionary : List δ) :
    (new capacity enabled dictionary).Ordered where
  accounted := MaintenanceRun.new_accounted capacity
  unmixed := ⟨nofun, fun _ _ _ waits => nomatch waits⟩
  worker := nofun
  called := nofun
  waits := nofun
  job := nofun
  fresh _ _ := rfl
  thrice _ := Nat.zero_le _
  found := nofun

/-- A call only makes the next generation. -/
theorem Ordered.call (ordered : s.Ordered) (free : s.call = none)
    (made : t.dictionaryReloadGeneration = s.dictionaryReloadGeneration + 1)
    (call : t.call = some (s.dictionaryReloadGeneration + 1)) (maintenance : t.maintenance = s.maintenance)
    (reload : t.reload = s.reload) (executions : t.executions = s.executions) : t.Ordered := by
  have returned : t.returned = s.returned := by simp [DictionaryService.returned, free, made, call]
  have attempts : t.attempts = s.attempts := by
    funext generation
    simp only [DictionaryService.attempts, executions]
  have waiting : t.waiting = s.waiting := by simp only [DictionaryService.waiting, maintenance]
  refine ⟨?_, ?_, ?_, ?_, ?_, fun job running => ?_, ?_, ?_, ?_⟩
  · rw [maintenance]
    exact ordered.accounted
  · rw [maintenance]
    exact ordered.unmixed
  · rw [maintenance, reload]
    exact ordered.worker
  · intro generation calling
    rw [call] at calling
    cases calling
    exact ⟨made.symm, by omega⟩
  · rw [waiting, returned, attempts]
    exact ordered.waits
  · rw [reload] at running
    have sound := ordered.job job running
    refine ⟨sound.attempt, ?_, ?_, ?_, ?_, sound.found, sound.after, sound.retry⟩
    · rw [returned]
      exact sound.generation
    · rw [attempts]
      exact sound.counted
    · rw [waiting]
      exact sound.newer
    · rw [maintenance]
      exact sound.immediate
  · rw [returned, attempts]
    exact ordered.fresh
  · rw [attempts]
    exact ordered.thrice
  · rw [executions]
    exact ordered.found

/-- The job of the call waits now, whatever waited before. -/
theorem Ordered.submit_waiting (ordered : s.Ordered) (room : s.HasRoom) (work : MaintenanceWork) :
    let lane := (s.maintenance.step (.submitLatest dictionaryReload work)).lane
    Unmixed lane ∧ lane.waiting dictionaryReload = some work ∧ lane.delayed.lookup dictionaryReload = none := by
  have sound := ordered.accounted.sound
  dsimp only [MaintenanceRun.step]
  obtain ⟨_, _, full⟩ | ⟨_, left⟩ := sound.submitLatest dictionaryReload work
  · exact absurd room (Nat.not_lt.mpr full)
  · refine ⟨ordered.unmixed.leaves (fun different => absurd rfl different) left, ?_, ?_⟩
    · simpa using left.waits dictionaryReload
    · rw [BackgroundMaintenance.submitLatest_delayed sound.timed, Table.lookup_erase_eq, if_pos rfl]

/-- A call that has submitted its job leaves the jobs in order. -/
theorem Ordered.submitReload (ordered : s.Ordered) (allowed : s.Allowed .submitReload) :
    (s.step templates .submitReload).Ordered := by
  obtain ⟨calling, room⟩ := allowed
  obtain ⟨generation, call⟩ := Option.isSome_iff_exists.mp calling
  obtain ⟨made, positive⟩ := ordered.called generation call
  obtain ⟨unmixed, waits, immediate⟩ := ordered.submit_waiting room (.runDictionaryReload generation 0)
  -- The call was the newest, and it has returned now.
  have before : s.returned + 1 = generation := by
    simp only [DictionaryService.returned, calling, if_true]
    omega
  have submitted : s.step templates .submitReload = { s with
      maintenance := s.maintenance.step (.submitLatest dictionaryReload (.runDictionaryReload generation 0))
      call := none } := by simp [step, call]
  rw [submitted]
  have returned : DictionaryService.returned { s with
      maintenance := s.maintenance.step (.submitLatest dictionaryReload (.runDictionaryReload generation 0))
      call := none } = generation := made.symm
  have submits : s.maintenance.Allowed (.submitLatest dictionaryReload (.runDictionaryReload generation 0)) := trivial
  refine ⟨ordered.accounted.step submits, unmixed, fun job running => ordered.worker job running, nofun, ?_,
    fun job running => ?_, fun later beyond => ?_, ordered.thrice, ordered.found⟩
  · intro work waiting
    obtain rfl := Option.some.inj (waits.symm.trans waiting)
    exact ⟨generation, 0, rfl, by omega, returned.ge, (ordered.fresh generation (by omega)).le⟩
  · have sound := ordered.job job running
    have older := sound.generation
    refine ⟨sound.attempt, ?_, sound.counted, fun _ later attempt waiting => ?_, fun _ => immediate, sound.found,
      sound.after, sound.retry⟩
    · rw [returned]
      omega
    · cases waits.symm.trans waiting
      omega
  · rw [returned] at beyond
    exact ordered.fresh later (by omega)

/-- What other callers and the timer do leaves the jobs in order. -/
theorem Ordered.foreign (ordered : s.Ordered) {op : MaintenanceOp Text MaintenanceWork}
    (allowed : s.maintenance.Allowed op) (foreign : Foreign op) (undrained : op ≠ .drainStep)
    (unfinished : ∀ failed, op ≠ .finish failed) : Ordered { s with maintenance := s.maintenance.step op } := by
  obtain ⟨unmixed, waits⟩ := MaintenanceRun.foreign_step ordered.accounted ordered.unmixed op foreign undrained
  refine ⟨ordered.accounted.step allowed, unmixed, fun job running => ?_, ordered.called,
    fun work waiting => ordered.waits work (waits.symm.trans waiting), fun job running => ?_, ordered.fresh,
    ordered.thrice, ordered.found⟩
  all_goals
    obtain ⟨taken, working⟩ := ordered.worker job running
    obtain ⟨still, delayed⟩ | ⟨failed, rfl⟩ :=
      MaintenanceRun.foreign_delayed ordered.accounted allowed foreign working
  · exact ⟨taken, still⟩
  · exact absurd rfl (unfinished failed)
  · have sound := ordered.job job running
    exact ⟨sound.attempt, sound.generation, sound.counted,
      fun pending later attempt waiting => sound.newer pending later attempt (waits.symm.trans waiting),
      fun pending => delayed.trans (sound.immediate pending), sound.found, sound.after, sound.retry⟩
  · exact absurd rfl (unfinished failed)

/-- The lane's own steps leave the jobs in order. -/
theorem Ordered.maintenance (ordered : s.Ordered) {op : MaintenanceOp Text MaintenanceWork}
    (allowed : s.Allowed (.maintenance op)) : (s.step templates (.maintenance op)).Ordered := by
  cases op with
  | drainStep =>
    obtain ⟨draining, _⟩ : s.maintenance.worker = .draining ∧ True := allowed
    have idle : s.reload = none := by
      by_contra busy
      obtain ⟨job, running⟩ := Option.ne_none_iff_exists'.mp busy
      obtain ⟨taken, working⟩ := ordered.worker job running
      cases draining.symm.trans working
    obtain ⟨unmixed, taken⟩ := MaintenanceRun.drain_reload ordered.accounted ordered.unmixed draining
    have drains : s.maintenance.Allowed .drainStep := draining
    have accounted := ordered.accounted.step drains
    obtain ⟨label, work, takes, rfl, held, waits, working⟩ | ⟨others, waits⟩ := taken
    · obtain ⟨generation, attempt, rfl, few, returned, counted⟩ := ordered.waits work held
      have reload : (s.step templates (.maintenance .drainStep)).reload = some ⟨generation, attempt, .current⟩ := by
        simp [step, DictionaryService.taken, takes]
      refine ⟨accounted, unmixed, fun _ _ => working, ordered.called, fun work waiting => ?_, fun job running => ?_,
        ordered.fresh, ordered.thrice, ordered.found⟩
      · cases waits.symm.trans waiting
      · obtain rfl := Option.some.inj (reload.symm.trans running)
        refine ⟨few, returned, counted, fun _ later attempt waiting => ?_, fun _ => ?_, nofun, nofun, nofun⟩
        · cases waits.symm.trans waiting
        · -- What does not wait is not delayed either.
          have nothing := waits
          unfold BackgroundMaintenance.waiting at nothing
          rw [Option.orElse_eq_none] at nothing
          exact Option.map_eq_none_iff.mp nothing.2
    · have reload : (s.step templates (.maintenance .drainStep)).reload = none := by
        simp only [step, DictionaryService.taken]
        split
        · rename_i lane label generation attempt takes
          cases others _ takes
        · rfl
      refine ⟨accounted, unmixed, fun job running => ?_, ordered.called, fun work waiting => ?_, fun job running => ?_,
        ordered.fresh, ordered.thrice, ordered.found⟩
      · cases reload.symm.trans running
      · exact ordered.waits work (waits.symm.trans waiting)
      · cases reload.symm.trans running
  | finish failed =>
    obtain ⟨allowed, _⟩ := allowed
    obtain ⟨unmixed, waits⟩ :=
      MaintenanceRun.foreign_step ordered.accounted ordered.unmixed (.finish failed) trivial nofun
    exact ⟨ordered.accounted.step allowed, unmixed, nofun, ordered.called, fun work waiting =>
      ordered.waits work (waits.symm.trans waiting), nofun, ordered.fresh, ordered.thrice, ordered.found⟩
  | submit | submitLatest | submitLatestAfter | promoteDueDelayed | startDrain =>
    exact ordered.foreign allowed.1 allowed.2 nofun nofun

/-- A reload that goes on leaves the jobs in order, as long as its attempt still says how often it was executed. -/
theorem Ordered.goes (ordered : s.Ordered) (running : s.reload = some job) (stage : ReloadStage δ)
    (pending : job.stage.isDone = false) (maintenance : t.maintenance = s.maintenance)
    (generation : t.dictionaryReloadGeneration = s.dictionaryReloadGeneration) (call : t.call = s.call)
    (executions : t.executions = s.executions) (reload : t.reload = some { job with stage := stage })
    (past : stage.isPast = false → job.stage.isPast = false)
    (found : ∀ found, stage = .desired found → found % 2 ^ 64 = job.generation % 2 ^ 64 ∧ job.generation ≤ found)
    (after : ∀ after, stage = .loading after → job.generation ≤ after)
    (retry : stage = .retry → job.attempt < 2) : t.Ordered := by
  have returned : t.returned = s.returned := by simp only [DictionaryService.returned, call, generation]
  have attempts : t.attempts = s.attempts := by
    funext generation
    simp only [DictionaryService.attempts, executions]
  have waiting : t.waiting = s.waiting := by simp only [DictionaryService.waiting, maintenance]
  refine ⟨?_, ?_, fun _ _ => ?_, ?_, ?_, fun job' running' => ?_, ?_, ?_, ?_⟩
  · rw [maintenance]
    exact ordered.accounted
  · rw [maintenance]
    exact ordered.unmixed
  · rw [maintenance]
    exact ordered.worker job running
  · rw [call, generation]
    exact ordered.called
  · rw [waiting, returned, attempts]
    exact ordered.waits
  · obtain rfl := Option.some.inj (reload.symm.trans running')
    have sound := ordered.job job running
    refine ⟨sound.attempt, ?_, ?_, fun _ => ?_, fun _ => ?_, found, after, retry⟩
    · rw [returned]
      exact sound.generation
    · rw [attempts]
      refine sound.counted.trans (Nat.add_le_add_left ?_ _)
      cases now : stage.isPast with
      | true => split <;> simp
      | false => simp [past now]
    · rw [waiting]
      exact sound.newer pending
    · rw [maintenance]
      exact sound.immediate pending
  · rw [returned, attempts]
    exact ordered.fresh
  · rw [attempts]
    exact ordered.thrice
  · rw [executions]
    exact ordered.found

/-- An execution is one more for its generation, and none more for the others. -/
theorem attempts_append {execution : ReloadExecution} (executions : t.executions = s.executions ++ [execution])
    (generation : Nat) :
    t.attempts generation = s.attempts generation + if execution.generation = generation then 1 else 0 := by
  unfold attempts
  rw [executions, List.filter_append, List.length_append]
  by_cases same : execution.generation = generation <;> simp [same]

/-- A started execution is the first of its attempt. -/
theorem Ordered.readDesired (ordered : s.Ordered) (running : s.reload = some job) {found : Nat}
    (stage : job.stage = .desired found) : (s.step templates .readDesired).Ordered := by
  have sound := ordered.job job running
  have counted := sound.counted
  simp only [stage, ReloadStage.isPast, Bool.false_eq_true, if_false, Nat.add_zero] at counted
  have executed : s.step templates .readDesired =
      { s.goes (if s.desiredDictEnabled then .load else .importing templates) with
        executions := s.executions ++ [⟨job.generation, job.attempt, found, s.dictionaryReloadGeneration⟩] } := by
    simp only [step, running, runDictionaryReload, stage]
  rw [executed]
  have reload : (s.goes (if s.desiredDictEnabled then .load else .importing templates)).reload =
      some { job with stage := if s.desiredDictEnabled then .load else .importing templates } := by
    simp [DictionaryService.goes, running]
  have pending : job.stage.isDone = false := by rw [stage]; rfl
  have more (generation : Nat) := attempts_append (s := s)
    (t := { s.goes (if s.desiredDictEnabled then .load else .importing templates) with
      executions := s.executions ++ [⟨job.generation, job.attempt, found, s.dictionaryReloadGeneration⟩] })
    rfl generation
  dsimp only at more
  refine ⟨ordered.accounted, ordered.unmixed, fun _ _ => ordered.worker job running, ordered.called,
    fun work waiting => ?_, fun job' running' => ?_, fun generation beyond => ?_, fun generation => ?_,
    fun execution member => ?_⟩
  · obtain ⟨generation, attempt, rfl, few, older, executed⟩ := ordered.waits work waiting
    -- What waits while the reload runs is of a newer generation.
    have newer := sound.newer pending generation attempt waiting
    refine ⟨generation, attempt, rfl, few, older, ?_⟩
    rw [more, if_neg (by omega)]
    exact executed
  · obtain rfl := Option.some.inj (reload.symm.trans running')
    refine ⟨sound.attempt, sound.generation, ?_, fun _ => sound.newer pending, fun _ => sound.immediate pending,
      ?_, ?_, ?_⟩
    · rw [more, if_pos rfl]
      have past : ReloadStage.isPast (if s.desiredDictEnabled = true then .load else .importing templates) = true := by
        split <;> rfl
      simp only [past, if_true]
      omega
    all_goals
      dsimp only
      split <;> nofun
  · rw [more, if_neg, Nat.add_zero]
    · exact ordered.fresh generation beyond
    · have older := sound.generation
      have beyond : s.returned < generation := beyond
      omega
  · rw [more]
    have few := sound.attempt
    have thrice := ordered.thrice generation
    split
    · rename_i same
      subst same
      omega
    · exact thrice
  · rcases List.mem_append.mp member with earlier | last
    · exact ordered.found execution earlier
    · obtain rfl := List.mem_singleton.mp last
      exact sound.found found stage

/-- A retry waits unless a newer job does, and never takes its place. -/
theorem Ordered.retry_waiting (ordered : s.Ordered) (running : s.reload = some job) (pending : job.stage.isDone = false)
    (room : s.HasRoom) (deadline : Nat) (work : MaintenanceWork) :
    let lane := (s.maintenance.step (.submitLatestAfter dictionaryReload deadline work)).lane
    Unmixed lane ∧ lane.waiting dictionaryReload = (s.waiting <|> some work) := by
  have sound := ordered.accounted.sound
  have immediate := (ordered.job job running).immediate pending
  dsimp only [MaintenanceRun.step]
  cases ready : s.maintenance.lane.coalesced.lookup dictionaryReload with
  | some newer =>
    have refused : s.maintenance.lane.submitLatestAfter dictionaryReload deadline work =
        (s.maintenance.lane, false) := by
      simp [BackgroundMaintenance.submitLatestAfter, ready]
    rw [refused]
    refine ⟨ordered.unmixed, ?_⟩
    simp [DictionaryService.waiting, BackgroundMaintenance.waiting, ready]
  | none =>
    have nothing : s.waiting = none := by
      simp [DictionaryService.waiting, BackgroundMaintenance.waiting, ready, immediate]
    obtain ⟨_, _, blocked⟩ | ⟨_, left⟩ := sound.submitLatestAfter dictionaryReload deadline work
    · rcases blocked with present | full
      · simp [ready] at present
      · exact absurd room (Nat.not_lt.mpr full)
    · refine ⟨ordered.unmixed.leaves (fun different => absurd rfl different) left, ?_⟩
      rw [left.waits, nothing, Function.update_self]
      rfl

/-- A retry follows its own attempt. -/
theorem Ordered.scheduleRetry (ordered : s.Ordered) {deadline : Nat} (running : s.reload = some job)
    (stage : job.stage = .retry) (room : s.HasRoom) : (s.step templates (.scheduleRetry deadline)).Ordered := by
  have sound := ordered.job job running
  have counted := sound.counted
  simp only [stage, ReloadStage.isPast, if_true] at counted
  have pending : job.stage.isDone = false := by rw [stage]; rfl
  obtain ⟨unmixed, waits⟩ := ordered.retry_waiting running pending room deadline
    (.runDictionaryReload job.generation (job.attempt + 1))
  have scheduled : s.step templates (.scheduleRetry deadline) = { s.goes (.done false) with
      maintenance := s.maintenance.step
        (.submitLatestAfter dictionaryReload deadline (.runDictionaryReload job.generation (job.attempt + 1))) } := by
    simp only [step, running, runDictionaryReload]
  have reload : (s.goes (.done false)).reload = some { job with stage := .done false } := by
    simp [DictionaryService.goes, running]
  rw [scheduled]
  have submits : s.maintenance.Allowed (.submitLatestAfter dictionaryReload deadline
      (.runDictionaryReload job.generation (job.attempt + 1))) := trivial
  refine ⟨ordered.accounted.step submits, unmixed, fun _ _ => ordered.worker job running, ordered.called,
    fun work waiting => ?_, fun job' running' => ?_, ordered.fresh, ordered.thrice, ordered.found⟩
  · have held := waits.symm.trans waiting
    cases older : s.waiting with
    | some work' =>
      obtain rfl : work' = work := by simpa [older] using held
      exact ordered.waits _ older
    | none =>
      obtain rfl : _ = work := by simpa [older] using held
      exact ⟨job.generation, job.attempt + 1, rfl, sound.retry stage, sound.generation, counted⟩
  · obtain rfl := Option.some.inj (reload.symm.trans running')
    exact ⟨sound.attempt, sound.generation, counted, nofun, nofun, nofun, nofun, nofun⟩

/-- Every allowed step leaves the jobs in order. -/
theorem Ordered.step (ordered : s.Ordered) {op : ReloadOp δ} (allowed : s.Allowed op) :
    (s.step templates op).Ordered := by
  cases op with
  | requestDictionaryReload enabled => exact ordered.call allowed rfl rfl rfl rfl rfl
  | enqueueDictionaryReload => exact ordered.call allowed rfl rfl rfl rfl rfl
  | submitReload => exact ordered.submitReload allowed
  | maintenance op => exact ordered.maintenance allowed
  | checkCurrent =>
    obtain ⟨job, running, stage⟩ := allowed
    have sound := ordered.job job running
    have pending : job.stage.isDone = false := by rw [stage]; rfl
    have fresh : job.stage.isPast = false := by rw [stage]; rfl
    simp only [DictionaryService.step, running, runDictionaryReload]
    split
    · rename_i current
      refine ordered.goes running (.desired s.dictionaryReloadGeneration) pending rfl rfl rfl rfl
        (by simp [DictionaryService.goes, running]) (fun _ => fresh) ?_ nofun nofun
      rintro found ⟨⟩
      exact ⟨by simpa [isCurrent] using current, sound.generation.trans s.returned_le⟩
    · exact ordered.goes running (.done false) pending rfl rfl rfl rfl
        (by simp [DictionaryService.goes, running]) nofun nofun nofun nofun
  | readDesired =>
    obtain ⟨found, job, running, stage⟩ := allowed
    exact ordered.readDesired running stage
  | beginLoad =>
    obtain ⟨job, running, stage⟩ := allowed
    have pending : job.stage.isDone = false := by rw [stage]; rfl
    simp only [DictionaryService.step, running, runDictionaryReload]
    refine ordered.goes running (.loading s.returned) pending rfl rfl rfl rfl
      (by simp [DictionaryService.goes, running]) nofun nofun ?_ nofun
    rintro after ⟨⟩
    exact (ordered.job job running).generation
  | endLoad outcome =>
    obtain ⟨after, job, running, stage⟩ := allowed
    have pending : job.stage.isDone = false := by rw [stage]; rfl
    simp only [DictionaryService.step, running, runDictionaryReload, stage]
    refine ordered.goes running (outcome.next templates) pending rfl rfl rfl rfl
      (by simp [DictionaryService.goes, running]) ?_ ?_ ?_ ?_
    all_goals
      unfold LoadResult.next
      split <;> nofun
  | importDictionary =>
    obtain ⟨dicdata, job, running, stage⟩ := allowed
    have pending : job.stage.isDone = false := by rw [stage]; rfl
    simp only [DictionaryService.step, running, runDictionaryReload, stage]
    exact ordered.goes running (.done false) pending rfl rfl rfl rfl
      (by simp [DictionaryService.goes, running]) nofun nofun nofun nofun
  | checkStillCurrent =>
    obtain ⟨job, running, stage⟩ := allowed
    have pending : job.stage.isDone = false := by rw [stage]; rfl
    simp only [DictionaryService.step, running, runDictionaryReload]
    split
    · refine ordered.goes running (if job.attempt < 2 then .retry else .done true) pending rfl rfl rfl rfl
        (by simp [DictionaryService.goes, running]) ?_ ?_ ?_ ?_
      · split <;> nofun
      · split <;> nofun
      · split <;> nofun
      · intro retry
        by_contra many
        simp [many] at retry
    · exact ordered.goes running (.done false) pending rfl rfl rfl rfl
        (by simp [DictionaryService.goes, running]) nofun nofun nofun nofun
  | scheduleRetry deadline =>
    obtain ⟨⟨job, running, stage⟩, room⟩ := allowed
    exact ordered.scheduleRetry running stage room

end DictionaryService

end Nospacekey
