import Nospacekey.Engine.PredictionAnswers

/-! No runtime is left behind: what was loaded is installed, has ended or is shut down. -/

namespace Nospacekey

open Runs Protocol

namespace PredictionLifecycle

variable {s : PredictionLifecycle}

/-- How many tasks belong to the load of a generation. -/
def pending (s : PredictionLifecycle) (generation : Nat) : Nat :=
  s.tasks.countP fun task => task.generation = some generation

/-- A runtime that was loaded is the current one, has ended, was shut down, or is still in a task's hands. -/
def Accounted (s : PredictionLifecycle) (runtime : Nat) : Prop :=
  s.service.runtime = some runtime ∨ runtime ∈ s.exited ∨ runtime ∈ s.shutDown ∨
    ∃ task ∈ s.tasks, task.Holds runtime

/-- Each configuration has one load at most, and the current runtime is the one of the newest configuration. -/
structure Kept (made : PredictionAvailability) (s : PredictionLifecycle) : Prop where
  config : s.service.configGeneration ≤ s.raised
  older : ∀ generation, s.service.configGeneration < generation → s.pending generation = 0
  single : ∀ generation, s.pending generation ≤ 1
  installed : s.service.runtime.isSome = true → s.pending s.service.configGeneration = 0
  latest : ∀ runtime, s.service.runtime = some runtime → s.loaded[runtime]? = some s.service.configGeneration
  loads : ∀ loaded generation, .install loaded generation ∈ s.tasks → s.loaded[loaded]? = some generation
  holds : ∀ task ∈ s.tasks, ∀ runtime, task.Holds runtime → runtime < s.loaded.length
  ready : s.service.runtime.isSome = true → s.service.availability = .ready
  running : made ≠ .ready → s.service.availability = .ready → s.service.runtime.isSome = true
  accounted : ∀ runtime < s.loaded.length, s.Accounted runtime

/-- Nothing is loaded in a new service. -/
theorem new_kept (availability : PredictionAvailability) (injectedGenerator : Bool) :
    Kept availability (new availability injectedGenerator) where
  config := Nat.zero_le _
  older _ _ := rfl
  single _ := Nat.zero_le _
  installed _ := rfl
  latest := nofun
  loads := nofun
  holds := nofun
  ready := nofun
  running different same := absurd same different
  accounted := nofun

section

variable {made : PredictionAvailability} {t : PredictionLifecycle}

/-- A step that leaves the service and its tasks, but for the request generation, leaves everything in its place. -/
theorem Kept.same (kept : Kept made s) (config : t.service.configGeneration = s.service.configGeneration)
    (runtime : t.service.runtime = s.service.runtime) (availability : t.service.availability = s.service.availability)
    (tasks : t.tasks = s.tasks) (loaded : t.loaded = s.loaded) (shutDown : t.shutDown = s.shutDown)
    (exited : ∀ runtime ∈ s.exited, runtime ∈ t.exited) (raised : s.raised ≤ t.raised) : Kept made t := by
  have pending : t.pending = s.pending := by
    funext generation
    rw [PredictionLifecycle.pending, PredictionLifecycle.pending, tasks]
  refine ⟨?_, ?_, ?_, ?_, ?_, ?_, ?_, ?_, ?_, ?_⟩
  · rw [config]
    exact kept.config.trans raised
  · rw [config, pending]
    exact kept.older
  · rw [pending]
    exact kept.single
  · rw [config, pending, runtime]
    exact kept.installed
  · rw [config, runtime, loaded]
    exact kept.latest
  · rw [tasks, loaded]
    exact kept.loads
  · rw [tasks, loaded]
    exact kept.holds
  · rw [runtime, availability]
    exact kept.ready
  · rw [runtime, availability]
    exact kept.running
  · rw [loaded]
    intro number small
    unfold Accounted
    rw [runtime, shutDown, tasks]
    exact (kept.accounted number small).imp_right (Or.imp_left (exited number))

/-- A runtime that has ended is given up. -/
theorem Kept.markRuntimeFailed (kept : Kept made s) {runtime : Nat} (ended : runtime ∈ s.exited) :
    Kept made (s.withService (s.service.markRuntimeFailed runtime)) := by
  unfold PredictionService.markRuntimeFailed
  split
  · rename_i current
    refine ⟨?_, kept.older, kept.single, nofun, nofun, kept.loads, kept.holds, nofun, fun _ => nofun,
      fun number small => ?_⟩
    · refine kept.config.trans ?_
      simp only [withService]
      split <;> omega
    · -- Only the runtime that has ended is no longer the current one.
      rcases kept.accounted number small with installed | rest
      · obtain rfl := Option.some.inj (current.symm.trans installed)
        exact .inr (.inl ended)
      · exact .inr rest
  · exact kept.same rfl rfl rfl rfl rfl rfl (fun _ ended => ended) (by simp [withService])

/-- A new generation of the configuration puts the current runtime into the hands of a task. -/
theorem Kept.configure (kept : Kept made s) {service : PredictionService} {next : Option Nat}
    (config : service.configGeneration = nextUInt64 s.service.configGeneration)
    (request : service.requestGeneration = nextUInt64 s.service.requestGeneration)
    (runtime : service.runtime = none) (availability : service.availability ≠ .ready)
    (newest : ∀ generation, next = some generation → generation = service.configGeneration)
    (small : (s.withService service).raised < 2 ^ 64) :
    Kept made { s.withService service with tasks := s.tasks ++ [.shutdown s.service.runtime next] } := by
  have raised : (s.withService service).raised = s.raised + 1 := by
    simp only [withService, request, if_neg (nextUInt64_ne _)]
  have older := kept.config
  have following : service.configGeneration = s.service.configGeneration + 1 := by
    rw [config, nextUInt64, Nat.mod_eq_of_lt]
    omega
  -- The task counts for the newest generation, which had none.
  have pending (generation : Nat) :
      ({ s.withService service with
        tasks := s.tasks ++ [.shutdown s.service.runtime next] } : PredictionLifecycle).pending generation =
        s.pending generation + if next = some generation then 1 else 0 := by
    rw [PredictionLifecycle.pending, List.countP_append, List.countP_singleton, PredictionTask.generation]
    by_cases same : next = some generation <;> simp [PredictionLifecycle.pending, same]
  refine ⟨?_, fun generation beyond => ?_, fun generation => ?_, ?_, ?_, ?_, ?_, ?_, ?_, fun number less => ?_⟩
  · show service.configGeneration ≤ (s.withService service).raised
    omega
  · have beyond : service.configGeneration < generation := beyond
    rw [pending, kept.older generation (by omega), if_neg]
    intro same
    exact absurd (newest generation same) (by omega)
  · rw [pending]
    have single := kept.single generation
    split
    · rename_i same
      rw [kept.older generation (by rw [newest generation same]; omega)]
    · exact single
  · intro installed
    rw [show ({ s.withService service with tasks := s.tasks ++ [.shutdown s.service.runtime next] } :
      PredictionLifecycle).service.runtime = none from runtime] at installed
    cases installed
  · intro number installed
    cases runtime.symm.trans installed
  · intro loaded generation member
    rcases List.mem_append.mp member with before | new
    · exact kept.loads loaded generation before
    · cases List.mem_singleton.mp new
  · intro task member number held
    rcases List.mem_append.mp member with before | new
    · exact kept.holds task before number held
    · obtain rfl := List.mem_singleton.mp new
      exact (List.getElem?_eq_some_iff.mp (kept.latest number held)).1
  · intro installed
    rw [show ({ s.withService service with tasks := s.tasks ++ [.shutdown s.service.runtime next] } :
      PredictionLifecycle).service.runtime = none from runtime] at installed
    cases installed
  · exact fun _ ready => absurd ready availability
  · rcases kept.accounted number less with installed | ended | shut | ⟨task, member, held⟩
    · exact .inr (.inr (.inr ⟨_, List.mem_append_right _ (List.mem_singleton_self _), installed⟩))
    · exact .inr (.inl ended)
    · exact .inr (.inr (.inl shut))
    · exact .inr (.inr (.inr ⟨task, List.mem_append_left _ member, held⟩))

/-- The tasks of a generation, one of which is taken out. -/
theorem pending_erase {task : PredictionTask} (member : task ∈ s.tasks) (generation : Nat) :
    s.pending generation = ((s.tasks.erase task).countP fun task => task.generation = some generation) +
      if task.generation = some generation then 1 else 0 := by
  rw [pending, (List.perm_cons_erase member).countP_eq, List.countP_cons]
  simp only [decide_eq_true_eq]

/-- A task is the one that is taken out, or is left. -/
theorem mem_erase_or_eq {task other : PredictionTask} (inside : task ∈ s.tasks) (member : other ∈ s.tasks) :
    other = task ∨ other ∈ s.tasks.erase task :=
  List.mem_cons.mp ((List.perm_cons_erase inside).mem_iff.mp member)

/-- A task that does its next step leaves no more tasks of its load. -/
theorem pending_advance_le {task : PredictionTask} (member : task ∈ s.tasks) (succeeds : Bool) (generation : Nat) :
    (s.advance task succeeds).pending generation ≤ s.pending generation := by
  rw [pending_erase member, pending]
  cases task with
  | shutdown old next =>
    cases next with
    | none => simp [advance, PredictionTask.generation]
    | some next => simp [advance, PredictionTask.generation, List.countP_append]
  | load other => cases succeeds <;> simp [advance, PredictionTask.generation, List.countP_append]
  | install loaded other =>
    simp only [advance]
    split
    · exact Nat.le_add_right _ _
    · simp [PredictionTask.generation, List.countP_append]
  | markLoadFailed other => exact Nat.le_add_right _ _

/-- A step of a task that leaves the service keeps the runtimes accounted for when the tasks after it do. -/
theorem Kept.retask (kept : Kept made s) (service : t.service = s.service) (raised : t.raised = s.raised)
    (pending : ∀ generation, t.pending generation ≤ s.pending generation)
    (loaded : ∀ number generation : Nat, s.loaded[number]? = some generation → t.loaded[number]? = some generation)
    (loads : ∀ number generation : Nat, .install number generation ∈ t.tasks → t.loaded[number]? = some generation)
    (holds : ∀ task ∈ t.tasks, ∀ number, task.Holds number → number < t.loaded.length)
    (accounted : ∀ number < t.loaded.length, t.Accounted number) : Kept made t := by
  refine ⟨?_, fun other beyond => ?_, fun other => (pending other).trans (kept.single other), fun installed => ?_,
    fun number installed => ?_, loads, holds, ?_, ?_, accounted⟩
  · rw [service, raised]
    exact kept.config
  · rw [service] at beyond
    exact Nat.eq_zero_of_le_zero ((pending other).trans (kept.older other beyond).le)
  · rw [service] at installed ⊢
    exact Nat.eq_zero_of_le_zero ((pending _).trans (kept.installed installed).le)
  · rw [service] at installed ⊢
    exact loaded _ _ (kept.latest number installed)
  · rw [service]
    exact kept.ready
  · rw [service]
    exact kept.running

/-- A runtime that is shut down is in nobody's hands any more, and its successor can be loaded. -/
theorem Kept.shutdown (kept : Kept made s) {old next : Option Nat} (member : .shutdown old next ∈ s.tasks)
    (succeeds : Bool) : Kept made (s.advance (.shutdown old next) succeeds) := by
  -- What is left of the tasks, or comes after the shutdown.
  have left {task : PredictionTask} (inside : task ∈ (s.advance (.shutdown old next) succeeds).tasks) :
      task ∈ s.tasks ∨ ∃ generation, task = .load generation := by
    rcases List.mem_append.mp inside with before | new
    · exact .inl (List.mem_of_mem_erase before)
    · obtain ⟨generation, _, rfl⟩ := Option.map_eq_some_iff.mp (Option.mem_toList.mp new)
      exact .inr ⟨generation, rfl⟩
  refine kept.retask rfl rfl (pending_advance_le member succeeds) (fun _ _ before => before)
    (fun loaded generation inside => ?_) (fun task inside number held => ?_) fun number small => ?_
  · rcases left inside with before | ⟨_, same⟩
    · exact kept.loads loaded generation before
    · cases same
  · rcases left inside with before | ⟨_, rfl⟩
    · exact kept.holds task before number held
    · exact held.elim
  · rcases kept.accounted number small with installed | ended | shut | ⟨task, inside, held⟩
    · exact .inl installed
    · exact .inr (.inl ended)
    · exact .inr (.inr (.inl (List.mem_append_left _ shut)))
    · rcases mem_erase_or_eq member inside with rfl | before
      · exact .inr (.inr (.inl (List.mem_append_right _ (Option.mem_toList.mpr held))))
      · exact .inr (.inr (.inr ⟨task, List.mem_append_left _ before, held⟩))

/-- A task that held no runtime is replaced by another that holds none. -/
theorem Accounted.replace {task : PredictionTask} {number : Nat} (accounted : s.Accounted number)
    (member : task ∈ s.tasks) (free : ¬ task.Holds number) (service : t.service = s.service)
    (exited : t.exited = s.exited) (shutDown : t.shutDown = s.shutDown) {next : PredictionTask}
    (tasks : t.tasks = s.tasks.erase task ++ [next]) : t.Accounted number := by
  unfold Accounted
  rw [service, exited, shutDown, tasks]
  refine accounted.imp_right (Or.imp_right (Or.imp_right ?_))
  rintro ⟨other, inside, held⟩
  rcases mem_erase_or_eq member inside with rfl | before
  · exact absurd held free
  · exact ⟨other, List.mem_append_left _ before, held⟩

/-- A load that has failed is marked as such. -/
theorem Kept.load_failed (kept : Kept made s) {generation : Nat} (member : .load generation ∈ s.tasks) :
    Kept made (s.advance (.load generation) false) := by
  refine kept.retask rfl rfl (pending_advance_le member false) (fun _ _ before => before)
    (fun loaded other inside => ?_) (fun task inside number held => ?_)
    fun number small => (kept.accounted number small).replace member id rfl rfl rfl rfl
  · rcases List.mem_append.mp inside with before | new
    · exact kept.loads loaded other (List.mem_of_mem_erase before)
    · cases List.mem_singleton.mp new
  · rcases List.mem_append.mp inside with before | new
    · exact kept.holds task (List.mem_of_mem_erase before) number held
    · obtain rfl := List.mem_singleton.mp new
      exact held.elim

/-- A runtime that was loaded is to be installed. -/
theorem Kept.load_succeeded (kept : Kept made s) {generation : Nat} (member : .load generation ∈ s.tasks) :
    Kept made (s.advance (.load generation) true) := by
  have longer (number other : Nat) (before : s.loaded[number]? = some other) :
      (s.loaded ++ [generation])[number]? = some other := by
    rw [List.getElem?_append_left (List.getElem?_eq_some_iff.mp before).1]
    exact before
  refine kept.retask rfl rfl (pending_advance_le member true) longer (fun number other inside => ?_)
    (fun task inside number held => ?_) fun number small => ?_
  · rcases List.mem_append.mp inside with before | new
    · exact longer _ _ (kept.loads number other (List.mem_of_mem_erase before))
    · cases List.mem_singleton.mp new
      exact List.getElem?_concat_length
  · simp only [advance, if_true, List.length_append, List.length_singleton] at inside ⊢
    rcases List.mem_append.mp inside with before | new
    · exact Nat.lt_succ_of_lt (kept.holds task (List.mem_of_mem_erase before) number held)
    · obtain rfl := List.mem_singleton.mp new
      obtain rfl : s.loaded.length = number := held
      exact Nat.lt_succ_self _
  · simp only [advance, if_true, List.length_append, List.length_singleton] at small
    rcases Nat.lt_succ_iff_lt_or_eq.mp small with less | rfl
    · exact (kept.accounted number less).replace member id rfl rfl rfl rfl
    · exact .inr (.inr (.inr ⟨_, List.mem_append_right _ (List.mem_singleton_self _), rfl⟩))

/-- While a load of the newest configuration is under way nothing is installed. -/
theorem Kept.nothing_installed (kept : Kept made s) {task : PredictionTask} (member : task ∈ s.tasks)
    (newest : task.generation = some s.service.configGeneration) : s.service.runtime = none := by
  by_contra installed
  have none_left := kept.installed (Option.isSome_iff_ne_none.mpr installed)
  rw [pending_erase member, if_pos newest] at none_left
  omega

/-- A runtime that was loaded is installed for the newest configuration, and else is to be shut down. -/
theorem Kept.install (kept : Kept made s) {loaded generation : Nat} (member : .install loaded generation ∈ s.tasks)
    (succeeds : Bool) : Kept made (s.advance (.install loaded generation) succeeds) := by
  have length := (List.getElem?_eq_some_iff.mp (kept.loads loaded generation member)).1
  by_cases newest : s.service.configGeneration = generation
  · subst newest
    have nothing := kept.nothing_installed member rfl
    have single := kept.single s.service.configGeneration
    have counted := pending_erase member s.service.configGeneration
    have own : (PredictionTask.install loaded s.service.configGeneration).generation =
        some s.service.configGeneration := rfl
    rw [if_pos own] at counted
    have left : ((s.tasks.erase (.install loaded s.service.configGeneration)).countP fun task =>
        task.generation = some s.service.configGeneration) = 0 := by omega
    have fewer := pending_advance_le member succeeds
    have installs : s.advance (.install loaded s.service.configGeneration) succeeds =
        { s with
          service := { s.service with runtime := some loaded, availability := .ready }
          tasks := s.tasks.erase (.install loaded s.service.configGeneration) } := by
      simp [advance, withService, PredictionService.install]
    rw [installs] at fewer ⊢
    refine ⟨kept.config, fun other beyond => ?_, fun other => (fewer other).trans (kept.single other), fun _ => left,
      ?_, ?_, ?_, fun _ => rfl, fun _ _ => rfl, fun number small => ?_⟩
    · exact Nat.eq_zero_of_le_zero ((fewer other).trans (kept.older other beyond).le)
    · rintro runtime ⟨⟩
      exact kept.loads loaded s.service.configGeneration member
    · exact fun number other inside => kept.loads number other (List.mem_of_mem_erase inside)
    · exact fun task inside number held => kept.holds task (List.mem_of_mem_erase inside) number held
    · rcases kept.accounted number small with installed | ended | shut | ⟨task, inside, held⟩
      · cases nothing.symm.trans installed
      · exact .inr (.inl ended)
      · exact .inr (.inr (.inl shut))
      · rcases mem_erase_or_eq member inside with rfl | before
        · exact .inl (congrArg some held)
        · exact .inr (.inr (.inr ⟨task, before, held⟩))
  · have fewer := pending_advance_le member succeeds
    have retires : s.advance (.install loaded generation) succeeds =
        { s with tasks := s.tasks.erase (.install loaded generation) ++ [.shutdown (some loaded) none] } := by
      simp [advance, withService, PredictionService.install, newest]
    rw [retires] at fewer ⊢
    refine kept.retask rfl rfl fewer (fun _ _ before => before) (fun number other inside => ?_)
      (fun task inside number held => ?_) fun number small => ?_
    · rcases List.mem_append.mp inside with before | new
      · exact kept.loads number other (List.mem_of_mem_erase before)
      · cases List.mem_singleton.mp new
    · rcases List.mem_append.mp inside with before | new
      · exact kept.holds task (List.mem_of_mem_erase before) number held
      · obtain rfl := List.mem_singleton.mp new
        obtain rfl := Option.some.inj held
        exact length
    · refine (kept.accounted number small).imp_right (Or.imp_right (Or.imp_right ?_))
      rintro ⟨task, inside, held⟩
      rcases mem_erase_or_eq member inside with rfl | before
      · exact ⟨_, List.mem_append_right _ (List.mem_singleton_self _), congrArg some held⟩
      · exact ⟨task, List.mem_append_left _ before, held⟩

/-- A load that has failed marks the newest configuration only. -/
theorem Kept.markLoadFailed (kept : Kept made s) {generation : Nat} (member : .markLoadFailed generation ∈ s.tasks)
    (succeeds : Bool) : Kept made (s.advance (.markLoadFailed generation) succeeds) := by
  have fewer := pending_advance_le member succeeds
  have fails : s.advance (.markLoadFailed generation) succeeds =
      { s with
        service := s.service.markLoadFailed generation
        tasks := s.tasks.erase (.markLoadFailed generation) } := by
    simp [advance, withService, markLoadFailed_requestGeneration]
  rw [fails] at fewer ⊢
  have config : (s.service.markLoadFailed generation).configGeneration = s.service.configGeneration := by
    unfold PredictionService.markLoadFailed
    split <;> rfl
  have runtime : (s.service.markLoadFailed generation).runtime = s.service.runtime := by
    unfold PredictionService.markLoadFailed
    split <;> rfl
  refine ⟨?_, fun other beyond => ?_, fun other => ?_, fun installed => ?_, ?_, ?_, ?_, fun installed => ?_,
    fun different ready => ?_, fun number small => ?_⟩
  · exact config.le.trans kept.config
  · have beyond : s.service.configGeneration < other := config ▸ beyond
    exact Nat.eq_zero_of_le_zero ((fewer other).trans (kept.older other beyond).le)
  · exact (fewer other).trans (kept.single other)
  · refine Nat.eq_zero_of_le_zero ((fewer _).trans ?_)
    rw [config]
    exact (kept.installed (runtime ▸ installed)).le
  · intro number installed
    rw [config]
    exact kept.latest number (runtime ▸ installed)
  · exact fun number other inside => kept.loads number other (List.mem_of_mem_erase inside)
  · exact fun task inside number held => kept.holds task (List.mem_of_mem_erase inside) number held
  · have running : s.service.runtime.isSome = true := runtime ▸ installed
    -- With a runtime installed the failed load is an older one.
    have older : s.service.configGeneration ≠ generation := by
      rintro rfl
      rw [kept.nothing_installed member rfl] at running
      cases running
    simpa [PredictionService.markLoadFailed, older] using kept.ready running
  · rw [runtime]
    unfold PredictionService.markLoadFailed at ready
    split at ready
    · cases ready
    · exact kept.running different ready
  · unfold Accounted
    rw [runtime]
    refine (kept.accounted number small).imp_right (Or.imp_right (Or.imp_right ?_))
    rintro ⟨task, inside, held⟩
    rcases mem_erase_or_eq member inside with rfl | before
    · exact held.elim
    · exact ⟨task, before, held⟩

/-- A call that concludes raises nothing. -/
theorem conclude_raised (s : PredictionLifecycle) (index : Nat) (call : PredictionRun)
    (text : Option (PredictionSource × Text)) : (s.conclude index call text).raised = s.raised := by
  unfold conclude
  repeat' split
  all_goals rfl

/-- A step never takes back what was raised. -/
theorem raised_le (s : PredictionLifecycle) (op : PredictionOp) : s.raised ≤ (s.step op).raised := by
  have region (service : PredictionService) : s.raised ≤ (s.withService service).raised := by
    simp only [withService]
    split <;> omega
  cases op with
  | enter index | generate index =>
    simp only [step, callAt]
    split <;> exact le_rfl
  | conclude index =>
    simp only [step, callAt]
    repeat' split
    · exact (conclude_raised ..).ge
    · exact le_rfl
    · exact le_rfl
  | markRuntimeFailed index =>
    simp only [step, callAt]
    repeat' split
    all_goals first
      | exact region _
      | exact le_rfl
  | reload config files =>
    simp only [step, reload]
    split
    · exact le_rfl
    · exact region _
  | advance task succeeds =>
    cases task with
    | load generation => cases succeeds <;> exact le_rfl
    | shutdown old next => exact le_rfl
    | install loaded generation => exact region _
    | markLoadFailed generation => exact region _
  | cancel => exact region _
  | shutdown => exact region _
  | predict | exit => exact le_rfl

/-- Every allowed step keeps the runtimes accounted for, as long as the request generation has not come round. -/
theorem Kept.step (kept : Kept made s) {op : PredictionOp} (allowed : s.Allowed op)
    (small : (s.step op).raised < 2 ^ 64) : Kept made (s.step op) := by
  have raised := s.raised_le op
  cases op with
  | predict seq tokenIDs => exact kept.same rfl rfl rfl rfl rfl rfl (fun _ ended => ended) raised
  | enter index =>
    obtain ⟨⟨call, found, _⟩, _⟩ := allowed
    simp only [PredictionLifecycle.step, callAt, found]
    exact kept.same rfl rfl rfl rfl rfl rfl (fun _ ended => ended) le_rfl
  | generate index injected generated =>
    obtain ⟨call, found, _⟩ := allowed
    simp only [PredictionLifecycle.step, callAt, found]
    exact kept.same rfl rfl rfl rfl rfl rfl (fun _ ended => ended) le_rfl
  | conclude index =>
    obtain ⟨text, call, found, stage⟩ := allowed
    simp only [PredictionLifecycle.step, callAt, found, stage, conclude]
    repeat' split
    all_goals exact kept.same rfl rfl rfl rfl rfl rfl (fun _ ended => ended) le_rfl
  | markRuntimeFailed index =>
    obtain ⟨runtime, call, found, stage⟩ := allowed
    simp only [PredictionLifecycle.step, callAt, found, stage]
    split
    · rename_i ended
      exact (kept.markRuntimeFailed ended).same rfl rfl rfl rfl rfl rfl (fun _ ended => ended) le_rfl
    · exact kept.same rfl rfl rfl rfl rfl rfl (fun _ ended => ended) (by simp [withService, answers, goes])
  | cancel => exact kept.same rfl rfl rfl rfl rfl rfl (fun _ ended => ended) raised
  | reload config files =>
    simp only [PredictionLifecycle.step, PredictionLifecycle.reload] at small ⊢
    split
    · exact kept
    · rename_i changed
      rw [if_neg changed] at small
      refine kept.configure ?_ ?_ ?_ ?_ ?_ small
      · simp [PredictionService.reload, changed]
      · simp [PredictionService.reload, changed]
      · simp [PredictionService.reload, changed]
      · simp only [PredictionService.reload, if_neg changed]
        split
        · simp
        · cases files <;> simp
      · intro generation next
        split at next
        · exact (Option.some.inj next).symm
        · cases next
  | shutdown => exact kept.configure rfl rfl rfl (by simp [PredictionService.shutdown]) (by simp) small
  | advance task succeeds =>
    cases task with
    | shutdown old next => exact kept.shutdown allowed succeeds
    | load generation =>
      cases succeeds with
      | true => exact kept.load_succeeded allowed
      | false => exact kept.load_failed allowed
    | install loaded generation => exact kept.install allowed succeeds
    | markLoadFailed generation => exact kept.markLoadFailed allowed succeeds
  | exit runtime =>
    exact kept.same rfl rfl rfl rfl rfl rfl (fun _ ended => List.mem_append_left _ ended) le_rfl

end

/-- After a shutdown nothing is installed, and what is still loaded is for an older configuration. -/
structure Stopped (s : PredictionLifecycle) : Prop where
  runtime : s.service.runtime = none
  pending : s.pending s.service.configGeneration = 0

/-- A step is a reload. -/
def Reloads : PredictionOp → Prop
  | .reload _ _ => True
  | _ => False

section

variable {made : PredictionAvailability} {t : PredictionLifecycle}

/-- A shutdown stops the service. -/
theorem Kept.stops (kept : Kept made s) (small : (s.step .shutdown).raised < 2 ^ 64) : (s.step .shutdown).Stopped := by
  refine ⟨rfl, ?_⟩
  have raised : (s.step .shutdown).raised = s.raised + 1 := by
    show (if nextUInt64 s.service.requestGeneration = s.service.requestGeneration then _ else _) = _
    exact if_neg (nextUInt64_ne _)
  have older := kept.config
  have following : (s.step .shutdown).service.configGeneration = s.service.configGeneration + 1 := by
    show nextUInt64 s.service.configGeneration = _
    rw [nextUInt64, Nat.mod_eq_of_lt]
    omega
  rw [following]
  have before := kept.older _ (Nat.lt_succ_self s.service.configGeneration)
  simpa [pending, PredictionLifecycle.step, PredictionTask.generation] using before

/-- A service stays stopped when nothing is installed and no load is added. -/
theorem Stopped.same (stopped : s.Stopped) (runtime : t.service.runtime = none)
    (config : t.service.configGeneration = s.service.configGeneration)
    (pending : ∀ generation, t.pending generation ≤ s.pending generation) : t.Stopped := by
  refine ⟨runtime, Nat.eq_zero_of_le_zero ?_⟩
  rw [config]
  exact (pending _).trans stopped.pending.le

/-- Without a reload the service stays stopped. -/
theorem Stopped.step (stopped : s.Stopped) (kept : Kept made s) {op : PredictionOp} (allowed : s.Allowed op)
    (unloaded : ¬ Reloads op) (small : (s.step op).raised < 2 ^ 64) : (s.step op).Stopped := by
  have runtime := stopped.runtime
  cases op with
  | predict | exit => exact stopped.same runtime rfl fun _ => le_rfl
  | cancel => exact stopped.same runtime rfl fun _ => le_rfl
  | enter index | generate index =>
    simp only [PredictionLifecycle.step, callAt]
    split
    · exact stopped.same runtime rfl fun _ => le_rfl
    · exact stopped
  | conclude index =>
    obtain ⟨text, call, found, stage⟩ := allowed
    simp only [PredictionLifecycle.step, callAt, found, stage, conclude]
    repeat' split
    all_goals exact stopped.same runtime rfl fun _ => le_rfl
  | markRuntimeFailed index =>
    obtain ⟨failed, call, found, stage⟩ := allowed
    simp only [PredictionLifecycle.step, callAt, found, stage, PredictionService.markRuntimeFailed]
    have other : ¬ s.service.runtime = some failed := by rw [runtime]; simp
    simp only [if_neg other, ite_self]
    exact stopped.same runtime rfl fun _ => le_rfl
  | reload config files => exact absurd trivial unloaded
  | shutdown => exact kept.stops small
  | advance task succeeds =>
    have fewer := pending_advance_le allowed succeeds
    -- A load of the newest configuration would still be counted.
    have older (generation : Nat) (own : task.generation = some generation) :
        s.service.configGeneration ≠ generation := by
      rintro rfl
      have none_left := stopped.pending
      rw [pending_erase allowed, if_pos own] at none_left
      omega
    cases task with
    | shutdown old next => exact stopped.same runtime rfl fewer
    | load generation => cases succeeds <;> exact stopped.same runtime rfl fewer
    | install loaded generation =>
      have other := older generation rfl
      refine stopped.same ?_ ?_ fewer
      · simpa [PredictionLifecycle.step, advance, withService, PredictionService.install, other] using runtime
      · simp [PredictionLifecycle.step, advance, withService, PredictionService.install, other]
    | markLoadFailed generation =>
      have other := older generation rfl
      refine stopped.same ?_ ?_ fewer
      · simpa [PredictionLifecycle.step, advance, withService, PredictionService.markLoadFailed, other] using runtime
      · simp [PredictionLifecycle.step, advance, withService, PredictionService.markLoadFailed, other]

end

/-- What holds of the service after every run. -/
structure Served (made : PredictionAvailability) (s : PredictionLifecycle) : Prop where
  /-- A text comes from what its call captured, and nothing was raised between the first lock region and the check. -/
  answered : ∀ call ∈ s.calls, ∀ (κ : Type) seq text, call.response κ = some (.prediction seq text) →
    seq = call.seq ∧ ∃ source raised, call.stage = .prediction source text raised ∧ s.Captured call source ∧
      raised = call.began
  accounted : ∀ runtime < s.loaded.length, s.service.runtime = some runtime ∨ runtime ∈ s.exited ∨
    runtime ∈ s.shutDown ∨ ∃ task ∈ s.tasks, task.Holds runtime
  /-- A service that was not made ready is ready when a runtime is installed. -/
  ready : made ≠ .ready → (s.service.availability = .ready ↔ s.service.runtime.isSome = true)
  latest : ∀ runtime, s.service.runtime = some runtime → s.loaded[runtime]? = some s.service.configGeneration
  /-- A load for an older configuration changes nothing in the service. -/
  older : ∀ task ∈ s.tasks, ∀ generation, task.generation = some generation →
    generation ≠ s.service.configGeneration → generation < s.service.configGeneration ∧
      ∀ succeeds, (s.step (.advance task succeeds)).service = s.service

/-- The runtimes that were loaded have ended, were shut down, or are in a task's hands. -/
def Unserved (s : PredictionLifecycle) : Prop :=
  s.service.runtime = none ∧ ∀ runtime < s.loaded.length, runtime ∈ s.exited ∨ runtime ∈ s.shutDown ∨
    ∃ task ∈ s.tasks, task.Holds runtime

/-- A service that is numbered and kept has the properties that are promised of it. -/
theorem Kept.served {made : PredictionAvailability} (kept : Kept made s) (numbered : s.Numbered)
    (small : s.raised < 2 ^ 64) : s.Served made := by
  refine ⟨fun call member _ _ _ answered => numbered.answered small member answered, kept.accounted,
    fun different => ⟨kept.running different, kept.ready⟩, kept.latest,
    fun task member generation own different => ⟨?_, fun succeeds => ?_⟩⟩
  · by_contra newer
    have nothing := kept.older generation (by omega)
    rw [pending_erase member, if_pos own] at nothing
    omega
  · have other : ¬ s.service.configGeneration = generation := Ne.symm different
    cases task with
    | shutdown old next => rfl
    | load _ => cases succeeds <;> rfl
    | install loaded _ =>
      obtain rfl := Option.some.inj own
      simp [PredictionLifecycle.step, advance, withService, PredictionService.install, other]
    | markLoadFailed _ =>
      obtain rfl := Option.some.inj own
      simp [PredictionLifecycle.step, advance, withService, PredictionService.markLoadFailed, other]

/-- A run never takes back what was raised. -/
theorem exec_raised_le (s : PredictionLifecycle) (ops : List PredictionOp) : s.raised ≤ (exec step s ops).raised := by
  induction ops generalizing s with
  | nil => exact le_rfl
  | cons op ops ih => exact (s.raised_le op).trans (ih _)

/-- Every run keeps the runtimes accounted for. -/
theorem exec_kept {made : PredictionAvailability} (kept : Kept made s) {ops : List PredictionOp}
    (allowed : Admissible step Allowed s ops) (small : (exec step s ops).raised < 2 ^ 64) :
    Kept made (exec step s ops) := by
  induction ops generalizing s with
  | nil => exact kept
  | cons op ops ih =>
    have first : (s.step op).raised < 2 ^ 64 := (exec_raised_le _ ops).trans_lt small
    exact ih (kept.step allowed.1 first) allowed.2 small

/-- A run without a reload leaves the service stopped. -/
theorem exec_stopped {made : PredictionAvailability} (stopped : s.Stopped) (kept : Kept made s)
    {ops : List PredictionOp} (allowed : Admissible step Allowed s ops) (unloaded : ∀ op ∈ ops, ¬ Reloads op)
    (small : (exec step s ops).raised < 2 ^ 64) : (exec step s ops).Stopped := by
  induction ops generalizing s with
  | nil => exact stopped
  | cons op ops ih =>
    have first : (s.step op).raised < 2 ^ 64 := (exec_raised_le _ ops).trans_lt small
    exact ih (stopped.step kept allowed.1 (unloaded op (by simp)) first) (kept.step allowed.1 first) allowed.2
      (fun other later => unloaded other (by simp [later])) small

/-- In every run that raises the request generation fewer than 2 ^ 64 times, answers come from what was captured and
were not overtaken, every runtime is accounted for, and after a shutdown without a reload none is served. -/
theorem run_keeps_lifecycle (made : PredictionAvailability) (injectedGenerator : Bool) (ops : List PredictionOp)
    (allowed : Admissible step Allowed (new made injectedGenerator) ops)
    (small : (exec step (new made injectedGenerator) ops).raised < 2 ^ 64) :
    (exec step (new made injectedGenerator) ops).Served made ∧
      ∀ front back, ops = front ++ .shutdown :: back → (∀ op ∈ back, ¬ Reloads op) →
        (exec step (new made injectedGenerator) ops).Unserved := by
  have kept := exec_kept (new_kept made injectedGenerator) allowed small
  have numbered : (exec step (new made injectedGenerator) ops).Numbered :=
    exec_invariant Numbered (fun _ _ numbered allowed => numbered.step allowed) (new_numbered made injectedGenerator)
      allowed
  refine ⟨kept.served numbered small, ?_⟩
  rintro front back rfl unloaded
  -- The service is stopped behind the front and stays so.
  obtain ⟨before, stops, after⟩ := admissible_append.mp allowed
  rw [exec_append, exec_cons] at kept small ⊢
  have stopping := (exec_raised_le _ back).trans_lt small
  have front_kept := exec_kept (new_kept made injectedGenerator) before ((raised_le _ _).trans_lt stopping)
  have stopped := exec_stopped (front_kept.stops stopping) (front_kept.step stops stopping) after unloaded small
  refine ⟨stopped.runtime, fun runtime loaded => ?_⟩
  rcases kept.accounted runtime loaded with installed | rest
  · cases stopped.runtime.symm.trans installed
  · exact rest

/-- A runtime is loaded, answers a call and is shut down, and the next call finds none. -/
def served : List PredictionOp :=
  [.reload ⟨true, ['m'], ['r']⟩ .valid, .advance (.shutdown none (some 1)) true, .advance (.load 1) true,
    .advance (.install 0 1) true, .predict 7 [1], .enter 0, .generate 0 none (some ['会', '議']), .conclude 0, .shutdown,
    .predict 8 [1], .advance (.shutdown (some 0) none) true]

/-- The first call is answered, and the runtime is shut down in the end. -/
theorem run_keeps_lifecycle_served :
    (exec step (new .disabled false) served).Served .disabled ∧ (exec step (new .disabled false) served).Unserved ∧
      (exec step (new .disabled false) served).shutDown = [0] := by
  obtain ⟨holds, stopped⟩ := run_keeps_lifecycle .disabled false served
    ⟨trivial, List.mem_singleton_self _, List.mem_singleton_self _, List.mem_singleton_self _, trivial,
      ⟨⟨_, rfl, rfl⟩, rfl⟩, ⟨_, rfl, rfl⟩, ⟨_, _, rfl, rfl⟩, trivial, trivial, List.mem_singleton_self _, trivial⟩
    (by decide)
  refine ⟨holds, stopped (served.take 8) (served.drop 9) rfl fun op later => ?_, rfl⟩
  rcases List.mem_cons.mp later with rfl | later
  · exact nofun
  · obtain rfl := List.mem_singleton.mp later
    exact nofun

/-- Cancels only raise the request generation. -/
theorem exec_cancel (times generation : Nat) (s : PredictionLifecycle)
    (request : s.service.requestGeneration = generation % 2 ^ 64) :
    exec step s (List.replicate times .cancel) =
      { s with
        service := { s.service with requestGeneration := (generation + times) % 2 ^ 64 }
        raised := s.raised + times } := by
  induction times generalizing generation s with
  | zero =>
    rw [Nat.add_zero, ← request]
    rfl
  | succ times ih =>
    have next : (s.step .cancel).service.requestGeneration = (generation + 1) % 2 ^ 64 := by
      show nextUInt64 s.service.requestGeneration = _
      rw [request, nextUInt64, Nat.mod_add_mod]
    have raised : (s.step .cancel).raised = s.raised + 1 := if_neg (nextUInt64_ne _)
    rw [List.replicate_succ, exec_cons, ih (generation + 1) (s.step .cancel) next, raised]
    simp only [Nat.add_assoc, Nat.add_comm 1 times]
    rfl

/-- Cancels are allowed at any time. -/
theorem admissible_cancel (times : Nat) (s : PredictionLifecycle) :
    Admissible step Allowed s (List.replicate times .cancel) := by
  induction times generalizing s with
  | zero => trivial
  | succ times ih => exact ⟨trivial, ih _⟩

/-- After 2 ^ 64 cancels the request generation has come round, and the text of a call that was cancelled is answered.
A service that was made ready has no runtime. -/
theorem lifecycle_came_round :
    (∃ ops, Admissible step Allowed (new .ready true) ops ∧
      ∃ call ∈ (exec step (new .ready true) ops).calls, ∃ source text raised,
        call.stage = .prediction source text raised ∧ raised = call.began + 2 ^ 64) ∧
    (new .ready false).service.availability = .ready ∧ (new .ready false).service.runtime = none := by
  refine ⟨⟨[.predict 1 [], .enter 0, .generate 0 (some ['会', '議']) none] ++
    (List.replicate (2 ^ 64) .cancel ++ [.conclude 0]), ?_, ?_⟩, rfl, rfl⟩
  · rw [admissible_append, admissible_append]
    refine ⟨⟨trivial, ⟨⟨_, rfl, rfl⟩, rfl⟩, ⟨_, rfl, rfl⟩, trivial⟩, admissible_cancel _ _, ?_, trivial⟩
    rw [exec_cancel (2 ^ 64) 0 _ rfl]
    exact ⟨_, _, rfl, rfl⟩
  · rw [exec_append, exec_append, exec_cancel (2 ^ 64) 0 _ rfl]
    exact ⟨_, List.mem_singleton_self _, _, _, _, rfl, rfl⟩

end PredictionLifecycle

end Nospacekey
