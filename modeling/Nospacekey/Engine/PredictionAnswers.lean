import Nospacekey.Engine.PredictionLifecycle

/-! A prediction is answered only from what its call has captured, and only when nothing was raised meanwhile. -/

namespace Nospacekey

open Protocol

namespace PredictionLifecycle

variable {s : PredictionLifecycle}

/-- The text was generated by what the call has captured. -/
def Captured (s : PredictionLifecycle) (call : PredictionRun) (source : PredictionSource) : Prop :=
  (source = .injectedGenerator ∧ s.injectedGenerator = true) ∨
    ∃ runtime, source = .runtime runtime ∧ call.runtime = some runtime

/-- What is known of a call at its stage. -/
def Staged (s : PredictionLifecycle) (call : PredictionRun) : PredictionStage → Prop
  | .generated (some (source, _)) => s.Captured call source
  | .prediction source _ raised =>
    s.Captured call source ∧ raised ≤ s.raised ∧ call.began ≤ raised ∧ raised % 2 ^ 64 = call.began % 2 ^ 64
  | _ => True

/-- A call has read the request generation as it was when the call began. -/
structure CallSound (s : PredictionLifecycle) (call : PredictionRun) : Prop where
  began : call.began ≤ s.raised
  generation : call.generation = call.began % 2 ^ 64
  staged : s.Staged call call.stage

/-- The request generation counts how often it was raised, in 64 bits. -/
structure Numbered (s : PredictionLifecycle) : Prop where
  request : s.service.requestGeneration = s.raised % 2 ^ 64
  calls : ∀ call ∈ s.calls, s.CallSound call

/-- A lock region raises the request generation by one or leaves it. -/
def Raises (service service' : PredictionService) : Prop :=
  service'.requestGeneration = service.requestGeneration ∨
    service'.requestGeneration = nextUInt64 service.requestGeneration

/-- A new configuration raises the request generation. -/
theorem raises_reload (service : PredictionService) (config : PredictionRuntimeConfig) (files : PredictionFiles) :
    Raises service (service.reload config files) := by
  unfold PredictionService.reload
  split
  · exact .inl rfl
  · exact .inr rfl

/-- Only a runtime that is given up raises the request generation. -/
theorem raises_markRuntimeFailed (service : PredictionService) (runtime : Nat) :
    Raises service (service.markRuntimeFailed runtime) := by
  unfold PredictionService.markRuntimeFailed
  split
  · exact .inr rfl
  · exact .inl rfl

/-- A runtime that is installed raises nothing. -/
theorem install_requestGeneration (service : PredictionService) (loaded generation : Nat) :
    (service.install loaded generation).requestGeneration = service.requestGeneration := by
  unfold PredictionService.install
  split <;> rfl

/-- A load that fails raises nothing. -/
theorem markLoadFailed_requestGeneration (service : PredictionService) (generation : Nat) :
    (service.markLoadFailed generation).requestGeneration = service.requestGeneration := by
  unfold PredictionService.markLoadFailed
  split <;> rfl

/-- A lock region counts what it raises. -/
theorem withService_numbered (request : s.service.requestGeneration = s.raised % 2 ^ 64) (service : PredictionService)
    (raises : Raises s.service service) :
    (s.withService service).service.requestGeneration = (s.withService service).raised % 2 ^ 64 ∧
      s.raised ≤ (s.withService service).raised := by
  simp only [withService]
  rcases raises with same | next
  · rw [if_pos same]
    exact ⟨same.trans request, le_rfl⟩
  · have different := nextUInt64_ne s.service.requestGeneration
    rw [next, if_neg different, request, nextUInt64]
    omega

/-- What is known at a stage stays known while the request generation is raised. -/
theorem Staged.mono {t : PredictionLifecycle} {call : PredictionRun} {stage : PredictionStage}
    (staged : s.Staged call stage) (generator : t.injectedGenerator = s.injectedGenerator)
    (raised : s.raised ≤ t.raised) : t.Staged call stage := by
  cases stage with
  | generated text =>
    cases text with
    | none => trivial
    | some pair => simpa only [Staged, Captured, generator] using staged
  | prediction source text count =>
    obtain ⟨captured, before, rest⟩ := staged
    exact ⟨by simpa only [Captured, generator] using captured, before.trans raised, rest⟩
  | _ => trivial

/-- A call stays sound while the request generation is raised. -/
theorem CallSound.mono {t : PredictionLifecycle} {call : PredictionRun} (sound : s.CallSound call)
    (generator : t.injectedGenerator = s.injectedGenerator) (raised : s.raised ≤ t.raised) : t.CallSound call :=
  ⟨sound.began.trans raised, sound.generation, sound.staged.mono generator raised⟩

/-- The calls stay sound over a lock region of another. -/
theorem Numbered.of_calls {t : PredictionLifecycle} (numbered : s.Numbered)
    (request : t.service.requestGeneration = t.raised % 2 ^ 64) (raised : s.raised ≤ t.raised)
    (generator : t.injectedGenerator = s.injectedGenerator) (calls : t.calls = s.calls) : t.Numbered := by
  refine ⟨request, fun call member => ?_⟩
  rw [calls] at member
  exact (numbered.calls call member).mono generator raised

/-- A call that goes on leaves the others as they were. -/
theorem Numbered.goes {t : PredictionLifecycle} (numbered : s.Numbered) {index : Nat} {call : PredictionRun}
    {stage : PredictionStage} (found : s.calls[index]? = some call) (service : t.service = s.service)
    (raised : t.raised = s.raised) (generator : t.injectedGenerator = s.injectedGenerator)
    (calls : t.calls = s.calls.set index { call with stage := stage })
    (staged : s.Staged call stage) : t.Numbered := by
  have sound := numbered.calls call (List.mem_of_getElem? found)
  refine ⟨by rw [service, raised]; exact numbered.request, fun other member => ?_⟩
  rw [calls] at member
  refine CallSound.mono (s := s) ?_ generator raised.ge
  rcases List.mem_or_eq_of_mem_set member with before | rfl
  · exact numbered.calls other before
  · exact ⟨sound.began, sound.generation, staged⟩

/-- A text comes from what the call has captured. -/
theorem text_captured {call : PredictionRun} {injected generated : Option Text} {source : PredictionSource}
    {text : Text} (produced : s.text call injected generated = some (source, text)) : s.Captured call source := by
  unfold PredictionLifecycle.text at produced
  split at produced
  · rename_i generator
    cases produced
    exact .inl ⟨rfl, generator⟩
  · rename_i runtime captured _
    obtain ⟨_, _, ⟨⟩⟩ := Option.map_eq_some_iff.mp produced
    exact .inr ⟨runtime, rfl, captured⟩
  · cases produced

/-- Every allowed step keeps the generations counted. -/
theorem Numbered.step (numbered : s.Numbered) {op : PredictionOp} (allowed : s.Allowed op) : (s.step op).Numbered := by
  cases op with
  | predict seq tokenIDs =>
    refine ⟨numbered.request, fun call member => ?_⟩
    rcases List.mem_append.mp member with before | new
    · exact (numbered.calls call before).mono rfl le_rfl
    · obtain rfl := List.mem_singleton.mp new
      refine ⟨le_rfl, numbered.request, ?_⟩
      dsimp only
      split <;> trivial
  | enter index =>
    obtain ⟨⟨call, found, _⟩, _⟩ := allowed
    simp only [PredictionLifecycle.step, callAt, found]
    exact numbered.goes found rfl rfl rfl rfl trivial
  | generate index injected generated =>
    obtain ⟨call, found, _⟩ := allowed
    simp only [PredictionLifecycle.step, callAt, found]
    refine numbered.goes found rfl rfl rfl rfl ?_
    cases produced : s.text call injected generated with
    | none => trivial
    | some pair => exact text_captured produced
  | conclude index =>
    obtain ⟨text, call, found, stage⟩ := allowed
    have sound := numbered.calls call (List.mem_of_getElem? found)
    simp only [PredictionLifecycle.step, callAt, found, stage]
    cases text with
    | none =>
      simp only [conclude]
      split
      · split
        · exact numbered.goes found rfl rfl rfl rfl trivial
        · exact numbered.goes found rfl rfl rfl rfl trivial
      · exact numbered.goes found rfl rfl rfl rfl trivial
    | some pair =>
      obtain ⟨source, text⟩ := pair
      have captured : s.Captured call source := by
        have staged := sound.staged
        rwa [stage] at staged
      simp only [conclude]
      split
      · exact numbered.goes found rfl rfl rfl rfl trivial
      · -- The generation is as the call has read it.
        rename_i current
        refine numbered.goes found rfl rfl rfl rfl ⟨captured, le_rfl, sound.began, ?_⟩
        rw [← numbered.request, ← sound.generation]
        exact not_not.mp current
  | markRuntimeFailed index =>
    obtain ⟨runtime, call, found, stage⟩ := allowed
    simp only [PredictionLifecycle.step, callAt, found, stage]
    have raises : Raises s.service
        (if runtime ∈ s.exited then s.service.markRuntimeFailed runtime else s.service) := by
      split
      · exact raises_markRuntimeFailed s.service runtime
      · exact .inl rfl
    obtain ⟨request, raised⟩ := withService_numbered numbered.request _ raises
    have marked := numbered.of_calls request raised rfl rfl
    exact marked.goes found rfl rfl rfl rfl trivial
  | cancel =>
    obtain ⟨request, raised⟩ := withService_numbered numbered.request s.service.cancel (.inr rfl)
    exact numbered.of_calls request raised rfl rfl
  | reload config files =>
    simp only [PredictionLifecycle.step, PredictionLifecycle.reload]
    split
    · exact numbered
    · obtain ⟨request, raised⟩ := withService_numbered numbered.request _ (raises_reload s.service config files)
      exact numbered.of_calls request raised rfl rfl
  | shutdown =>
    obtain ⟨request, raised⟩ := withService_numbered numbered.request s.service.shutdown (.inr rfl)
    exact numbered.of_calls request raised rfl rfl
  | advance task succeeds =>
    simp only [PredictionLifecycle.step, PredictionLifecycle.advance]
    cases task with
    | shutdown old next => exact numbered.of_calls numbered.request le_rfl rfl rfl
    | load generation =>
      dsimp only
      split <;> exact numbered.of_calls numbered.request le_rfl rfl rfl
    | install loaded generation =>
      obtain ⟨request, raised⟩ := withService_numbered numbered.request _
        (.inl (install_requestGeneration s.service loaded generation))
      exact numbered.of_calls request raised rfl rfl
    | markLoadFailed generation =>
      obtain ⟨request, raised⟩ := withService_numbered numbered.request _
        (.inl (markLoadFailed_requestGeneration s.service generation))
      exact numbered.of_calls request raised rfl rfl
  | exit runtime => exact numbered.of_calls numbered.request le_rfl rfl rfl

/-- Nothing is called in a new service. -/
theorem new_numbered (availability : PredictionAvailability) (injectedGenerator : Bool) :
    (new availability injectedGenerator).Numbered where
  request := rfl
  calls _ member := absurd member List.not_mem_nil

/-- The text of an answer was captured, and was checked when nothing had been raised since the call began. -/
theorem Numbered.answered (numbered : s.Numbered) (small : s.raised < 2 ^ 64) {call : PredictionRun}
    (member : call ∈ s.calls) {κ : Type} {seq : Nat} {text : Text}
    (answered : call.response κ = some (.prediction seq text)) :
    seq = call.seq ∧ ∃ source raised, call.stage = .prediction source text raised ∧ s.Captured call source ∧
      raised = call.began := by
  have staged := (numbered.calls call member).staged
  unfold PredictionRun.response at answered
  split at answered
  · cases answered
  · rename_i source text' raised stage
    obtain ⟨rfl, rfl⟩ : call.seq = seq ∧ text' = text := by simpa using answered
    rw [stage] at staged
    obtain ⟨captured, before, began, same⟩ := staged
    refine ⟨rfl, source, raised, stage, captured, ?_⟩
    -- Below 2 ^ 64 equal remainders are equal numbers.
    rwa [Nat.mod_eq_of_lt (by omega), Nat.mod_eq_of_lt (by omega)] at same
  · cases answered

end PredictionLifecycle

end Nospacekey
