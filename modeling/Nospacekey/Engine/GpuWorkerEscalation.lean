import Nospacekey.Engine.GpuWorkerSupervisor

/-! How the supervisor answers timeouts: one retry on its own, then suppression or quarantine. -/

namespace Nospacekey

variable {κ : Type}

/-- Something has given a generation to be started without a request for it: a timeout in the ready state, or
a request of the convert tier in the suppressed state. -/
def Due (generation : Nat) (history : List (SupervisorEvent κ)) : Prop :=
  (∃ caller, .timedOut caller .ready (some generation) ∈ history) ∨
    ∃ caller, .probed caller .liveSuppressed generation ∈ history ∧ caller.isLiveTier = false

/-- Every retry that has started was due. -/
def RespawnsDue (history : List (SupervisorEvent κ)) : Prop :=
  ∀ later generation earlier, history = later ++ .respawned generation :: earlier → Due generation earlier

/-- A timeout was handled since the last valid rank and the last lifecycle operation. -/
def timedOutSince : List (SupervisorEvent κ) → Bool
  | .timedOut .. :: _ => true
  | .validRank :: _ | .opened _ :: _ => false
  | _ :: rest => timedOutSince rest
  | [] => false

/-- What is due stays due. -/
theorem Due.cons {generation : Nat} {history : List (SupervisorEvent κ)} (due : Due generation history)
    (event : SupervisorEvent κ) : Due generation (event :: history) :=
  due.imp (fun ⟨caller, member⟩ => ⟨caller, List.mem_cons_of_mem _ member⟩)
    fun ⟨caller, member, tier⟩ => ⟨caller, List.mem_cons_of_mem _ member, tier⟩

/-- An event that is no retry leaves the retries as due as they were. -/
theorem RespawnsDue.cons {history : List (SupervisorEvent κ)} (due : RespawnsDue history)
    {event : SupervisorEvent κ} (allowed : ∀ generation, event = .respawned generation → Due generation history) :
    RespawnsDue (event :: history) := by
  intro later generation earlier split
  cases later with
  | nil =>
    obtain ⟨rfl, rfl⟩ := List.cons.inj split
    exact allowed generation rfl
  | cons first later => exact due later generation earlier (List.cons.inj split).2

/-- The states that a timeout leads to, until a valid rank or a lifecycle operation. -/
def SupervisorState.followsTimeout : SupervisorState → Bool
  | stopped | ready | disabled => false
  | _ => true

namespace GpuWorkerSupervisor

variable {s : GpuWorkerSupervisor κ}

/-- What the answers to timeouts rest on. -/
structure Escalating (s : GpuWorkerSupervisor κ) : Prop where
  due : ∀ generation, s.autoRetryGeneration = some generation → Due generation s.history
  respawned : RespawnsDue s.history
  probes : ∀ caller, .armStrongCallerProbe caller ∈ s.tasks → caller.isLiveTier = false
  unsettled : timedOutSince s.history = true → s.internalState.followsTimeout = true ∧
    (s.internalState = .starting → s.autoRetryGeneration = some s.generation)

namespace Escalating

/-- An event that neither opens nor starts nor settles anything changes nothing about the timeouts. -/
theorem record (escalating : s.Escalating) {e : SupervisorEvent κ}
    (allowed : ∀ generation, e = .respawned generation → Due generation s.history)
    (same : timedOutSince (e :: s.history) = timedOutSince s.history) :
    { s with history := e :: s.history }.Escalating where
  due generation here := (escalating.due generation here).cons e
  respawned := escalating.respawned.cons allowed
  probes := escalating.probes
  unsettled := same ▸ escalating.unsettled

theorem shortCircuit (escalating : s.Escalating) (request : RerankRequest κ)
    (failure : Option GpuWorkerRerankFailure) : (s.shortCircuit request failure).Escalating :=
  escalating.record (fun _ => nofun) rfl

/-- Only a request of the convert tier arms a probe. -/
theorem rerank (escalating : s.Escalating) (request : RerankRequest κ) : (s.rerank request).Escalating := by
  have waits : { s with tasks := .rerank request :: s.tasks }.Escalating :=
    { escalating with
      probes := fun caller member => escalating.probes caller ((List.mem_cons.mp member).resolve_left nofun) }
  unfold GpuWorkerSupervisor.rerank
  split
  · exact escalating.shortCircuit request none
  split
  · exact escalating.shortCircuit request _
  split
  · exact escalating.shortCircuit request none
  · exact escalating.shortCircuit request none
  · split
    · exact escalating.shortCircuit request none
    · rename_i strong
      exact { escalating.shortCircuit request none with
        probes := fun caller member => by
          rcases List.mem_cons.mp member with same | before
          · cases same
            simpa using strong
          · exact escalating.probes caller before }
  · exact escalating.shortCircuit request _
  · split
    · exact waits
    · exact escalating.shortCircuit request none
  all_goals exact waits

theorem startWarmUp (escalating : s.Escalating) : s.startWarmUp.Escalating := by
  unfold GpuWorkerSupervisor.startWarmUp
  split
  · rename_i stopped
    exact { escalating with
      probes := fun caller member => escalating.probes caller ((List.mem_cons.mp member).resolve_left nofun)
      unsettled := fun since => by
        have follows := (escalating.unsettled since).1
        rw [stopped] at follows
        cases follows }
  · exact escalating

/-- A lifecycle operation settles the timeouts before it. -/
theorem openGeneration (escalating : s.Escalating) (state : SupervisorState) (retryArmed : Bool) :
    (s.openGeneration state retryArmed).Escalating where
  due _ := nofun
  respawned := escalating.respawned.cons fun _ => nofun
  probes := escalating.probes
  unsettled := nofun

theorem explicitRetry (escalating : s.Escalating) : s.explicitRetry.Escalating := by
  unfold GpuWorkerSupervisor.explicitRetry
  split
  · exact escalating.openGeneration .stopped true
  · exact escalating

/-- A reaper arms no probe. -/
theorem scheduleTermination (escalating : s.Escalating) (generation : Nat) :
    (s.scheduleTermination generation).Escalating :=
  { escalating with
    probes := fun caller member => escalating.probes caller ((List.mem_cons.mp member).resolve_left nofun) }

theorem modelOrRuntimeChanged (escalating : s.Escalating) : s.modelOrRuntimeChanged.Escalating := by
  unfold GpuWorkerSupervisor.modelOrRuntimeChanged
  split
  · exact (escalating.openGeneration .stopped true).scheduleTermination _
  · exact escalating.openGeneration .stopped true

theorem disable (escalating : s.Escalating) : s.disable.Escalating := by
  unfold GpuWorkerSupervisor.disable
  split
  · exact (escalating.openGeneration .disabled false).scheduleTermination _
  · exact escalating.openGeneration .disabled false

/-- A probe of the convert tier makes its generation due. -/
theorem armStrongCallerProbe (escalating : s.Escalating) {caller : GpuWorkerCaller}
    (strong : caller.isLiveTier = false) : (s.armStrongCallerProbe caller).Escalating := by
  unfold GpuWorkerSupervisor.armStrongCallerProbe
  split
  · rename_i suppressed
    exact {
      due := fun generation here => .inr ⟨caller, by
        obtain rfl := Option.some.inj here
        rw [suppressed]
        exact List.mem_cons_self, strong⟩
      respawned := escalating.respawned.cons fun _ => nofun
      probes := fun caller member => escalating.probes caller ((List.mem_cons.mp member).resolve_left nofun)
      unsettled := fun _ => ⟨rfl, nofun⟩ }
  · exact escalating

/-- A retry starts what is due, on the way to probation. -/
theorem autoRetry (escalating : s.Escalating) (generation : Nat) : (s.autoRetry generation).Escalating := by
  unfold GpuWorkerSupervisor.autoRetry
  split
  · rename_i armed
    obtain ⟨-, rfl, armed⟩ := armed
    exact {
      due := fun generation here => (escalating.due generation here).cons _
      respawned := escalating.respawned.cons fun generation same => by
        cases same
        exact escalating.due _ armed
      probes := fun caller member => escalating.probes caller ((List.mem_cons.mp member).resolve_left nofun)
      unsettled := fun _ => ⟨rfl, fun _ => armed⟩ }
  · exact escalating

theorem acquire (escalating : s.Escalating) (i : Nat) : (s.acquire i).Escalating := by
  unfold GpuWorkerSupervisor.acquire
  split
  · split
    · exact { escalating with probes := fun caller member => escalating.probes caller (List.mem_of_mem_eraseIdx member) }
    · exact escalating
  · exact escalating

theorem wake (escalating : s.Escalating) (i : Nat) : (s.wake i).Escalating := by
  have removed : { s with tasks := s.tasks.eraseIdx i }.Escalating :=
    { escalating with probes := fun caller member => escalating.probes caller (List.mem_of_mem_eraseIdx member) }
  unfold GpuWorkerSupervisor.wake
  split
  · rename_i caller armed
    exact removed.armStrongCallerProbe (escalating.probes caller (List.mem_of_getElem? armed))
  · exact removed.autoRetry _
  · split
    · exact escalating
    · exact removed.shortCircuit _ none
  · exact escalating

theorem ensureReady (escalating : s.Escalating) (request : RerankRequest κ) : (s.ensureReady request).Escalating := by
  unfold GpuWorkerSupervisor.ensureReady
  split
  · exact { escalating with }
  · exact { escalating with }
  · rename_i stopped
    exact { escalating with
      unsettled := fun since => by
        have follows := (escalating.unsettled since).1
        rw [stopped] at follows
        cases follows }
  · exact { escalating with }

/-- A start that follows a timeout leads to probation. -/
theorem finishStart (escalating : s.Escalating) (request : Option (RerankRequest κ)) (generation : Nat)
    (failure : Option GpuWorkerFailure) : (s.finishStart request generation failure).Escalating := by
  unfold GpuWorkerSupervisor.finishStart
  split
  · rename_i current
    obtain ⟨rfl, starting⟩ := current
    cases failure with
    | some failure => exact { escalating with }
    | none =>
      exact { escalating with
        due := nofun
        unsettled := fun since => by
          have armed := (escalating.unsettled since).2 starting
          simp only [armed, if_true]
          exact ⟨rfl, nofun⟩ }
  · exact { escalating with }

theorem prepareRequest (escalating : s.Escalating) (request : RerankRequest κ) :
    (s.prepareRequest request).Escalating := by
  unfold GpuWorkerSupervisor.prepareRequest
  split <;> exact { escalating with }

theorem handleReply (escalating : s.Escalating) (request : RerankRequest κ) (requestID generation : Nat)
    (source : Option Nat) (reply : GpuWorkerTransportReply κ) (late : Bool) :
    (s.handleReply request requestID generation source reply late).Escalating := by
  unfold GpuWorkerSupervisor.handleReply
  split
  · cases reply with
    | response response =>
      dsimp only
      split <;> exact { escalating with }
    | _ => exact { escalating with }
  · cases reply with
    | response response =>
      unfold handleResponse
      dsimp only
      split
      · split
        · exact { escalating.record (e := .used requestID response source s.generation) (fun _ => nofun) rfl with }
        · exact { escalating with }
      · exact { escalating with }
    | _ => exact { escalating with }

/-- A valid rank settles the timeouts before it. -/
theorem noteRankSuccess (escalating : s.Escalating) (generation : Nat) (rest : List (OperationEnd κ)) :
    (s.noteRankSuccess generation rest).Escalating := by
  unfold GpuWorkerSupervisor.noteRankSuccess
  split
  · exact {
      due := fun generation here => (escalating.due generation here).cons _
      respawned := escalating.respawned.cons fun _ => nofun
      probes := escalating.probes
      unsettled := nofun }
  · exact { escalating with }

/-- A timeout makes a retry due in the ready state only. -/
theorem handleRankTimeout (escalating : s.Escalating) (caller : GpuWorkerCaller) (generation : Nat)
    (rest : List (OperationEnd κ)) : (s.handleRankTimeout caller generation rest).Escalating := by
  unfold GpuWorkerSupervisor.handleRankTimeout
  split
  · rename_i current
    obtain ⟨rfl, requestable⟩ := current
    have due (e : SupervisorEvent κ) (g : Nat) (here : s.autoRetryGeneration = some g) : Due g (e :: s.history) :=
      (escalating.due g here).cons e
    cases state : s.internalState with
    | ready =>
      exact {
        due := fun generation here => .inl ⟨caller, by
          obtain rfl := Option.some.inj here
          exact List.mem_cons_self⟩
        respawned := escalating.respawned.cons fun _ => nofun
        probes := escalating.probes
        unsettled := fun _ => ⟨rfl, nofun⟩ }
    | probation =>
      dsimp only
      split <;>
      · exact {
          due := due _
          respawned := escalating.respawned.cons fun _ => nofun
          probes := escalating.probes
          unsettled := fun _ => ⟨rfl, nofun⟩ }
    | _ => rw [state] at requestable; cases requestable
  · exact { escalating with }

/-- A quarantine gives up the retry. -/
theorem quarantine (escalating : s.Escalating) (reason : GpuWorkerQuarantineReason) (generation : Nat)
    (rest : List (OperationEnd κ)) : (s.quarantine reason generation rest).Escalating := by
  unfold GpuWorkerSupervisor.quarantine
  split
  · split
    · exact { escalating with }
    · exact { escalating with due := nofun, unsettled := fun _ => ⟨rfl, nofun⟩ }
  · exact { escalating with }

theorem finish (escalating : s.Escalating) (rest : List (OperationEnd κ)) : (s.finish rest).Escalating := by
  cases rest with
  | nil => exact { escalating with }
  | cons first rest =>
    cases first with
    | terminate => exact { escalating with }
    | scheduleAutoRetry generation =>
      exact { escalating with
        probes := fun caller member => escalating.probes caller ((List.mem_cons.mp member).resolve_left nofun) }
    | refuse request => exact { escalating.record (e := .answered _) (fun _ => nofun) rfl with }
    | answer decision => exact { escalating.record (e := .answered decision) (fun _ => nofun) rfl with }

/-- Every step of the holder of the operation lock keeps what the answers to timeouts rest on. -/
theorem operate (escalating : s.Escalating) (answer : GpuWorkerTransportAnswer κ) :
    (s.operate answer).Escalating := by
  unfold GpuWorkerSupervisor.operate
  split
  · exact escalating
  · exact escalating.ensureReady _
  · exact { escalating.record (e := .started _) (fun _ => nofun) rfl with }
  · exact escalating.finishStart _ _ _
  · exact escalating.prepareRequest _
  · exact { escalating with }
  · exact escalating.handleReply _ _ _ _ _ _
  · exact escalating.noteRankSuccess _ _
  · exact escalating.handleRankTimeout _ _ _
  · exact escalating.quarantine _ _ _
  · unfold GpuWorkerSupervisor.performStart
    split <;> exact { escalating with }
  · unfold GpuWorkerSupervisor.terminateTransport
    split <;> exact { escalating with }
  · exact escalating.finish _

/-- Every step keeps what the answers to timeouts rest on. -/
theorem step (escalating : s.Escalating) (op : SupervisorOp κ) : (s.step op).Escalating := by
  cases op with
  | rerank request => exact escalating.rerank request
  | startWarmUp => exact escalating.startWarmUp
  | explicitRetry => exact escalating.explicitRetry
  | modelOrRuntimeChanged => exact escalating.modelOrRuntimeChanged
  | disable => exact escalating.disable
  | acquire i => exact escalating.acquire i
  | wake i => exact escalating.wake i
  | operate answer => exact escalating.operate answer
  | childExits => exact { escalating with }

/-- A supervisor that has met no timeout has nothing due. -/
theorem init (allowsLazyStart graceEnabled : Bool) :
    (GpuWorkerSupervisor.init (κ := κ) allowsLazyStart graceEnabled).Escalating where
  due _ := nofun
  respawned later _ _ split := by cases later <;> cases split
  probes _ := nofun
  unsettled := nofun

end Escalating

end GpuWorkerSupervisor

end Nospacekey
