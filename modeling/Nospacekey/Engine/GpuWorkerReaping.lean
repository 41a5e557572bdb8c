import Nospacekey.Engine.GpuWorkerEscalation
import Nospacekey.Engine.GpuWorkerOwnership

/-! Who sees to the end of a child that is no longer asked, and what holds of the worker in every run. -/

namespace Nospacekey

open Runs

variable {κ : Type}

/-- The operation ends the child, or decides what it is for. -/
def Operation.EndsChild : Operation κ → Prop
  | .start _ _ | .finishStart _ _ _ => True
  | operation => .terminate ∈ operation.rest

namespace GpuWorkerSupervisor

variable {s : GpuWorkerSupervisor κ}

/-- The child is the one that requests go to, or that a failed start gives up. -/
def Serves (s : GpuWorkerSupervisor κ) (c : Nat) : Prop :=
  c = s.generation ∧ s.transportGeneration = some c ∧
    (s.internalState.isRequestable = true ∨
      s.internalState = .starting ∧ ∃ reason rest, s.holder = some (.quarantine reason c rest))

/-- A reaper of the generation waits for the operation lock, or has it. -/
def Reaps (s : GpuWorkerSupervisor κ) (generation : Nat) : Prop :=
  .reap generation ∈ s.tasks ∨ s.holder = some (.terminateTransport generation)

/-- Every child serves the current generation, or is being seen to. -/
def Reaped (s : GpuWorkerSupervisor κ) : Prop :=
  ∀ c, s.child = some c → s.Serves c ∨ (∃ operation, s.holder = some operation ∧ operation.EndsChild) ∨
    s.transportGeneration = some c ∧ s.Reaps c

/-- The supervisor is not told to retry while it tries a worker on probation. -/
def SparesProbation (s : GpuWorkerSupervisor κ) (op : SupervisorOp κ) : Prop :=
  op = .explicitRetry → s.internalState ≠ .probation

/-- A child that serves lives. -/
theorem Serves.isLive {c : Nat} (serves : s.Serves c) : s.internalState.isLive = true := by
  obtain ⟨-, -, requestable | ⟨starting, -⟩⟩ := serves
  · cases state : s.internalState <;> rw [state] at requestable <;> cases requestable <;> rfl
  · rw [starting]
    rfl

/-- In a state without a child of its own, none serves. -/
theorem not_serves {c : Nat} (idle : s.internalState.isLive = false ∨ s.internalState = .liveSuppressed) :
    ¬ s.Serves c := fun serves => by
  rcases idle with idle | suppressed
  · rw [serves.isLive] at idle
    cases idle
  · obtain ⟨-, -, requestable | ⟨starting, -⟩⟩ := serves
    · rw [suppressed] at requestable
      cases requestable
    · rw [suppressed] at starting
      cases starting

namespace Reaped

/-- Where no operation passes on, a child stays seen to as long as its reaper waits. -/
theorem mono (reaped : s.Reaped) {n : GpuWorkerSupervisor κ} (child : n.child = s.child)
    (holder : n.holder = s.holder) (transport : n.transportGeneration = s.transportGeneration)
    (tasks : ∀ g, .reap g ∈ s.tasks → .reap g ∈ n.tasks)
    (serves : ∀ c, s.Serves c → n.Serves c ∨ .reap c ∈ n.tasks) : n.Reaped := by
  intro c alive
  rw [child] at alive
  obtain serving | ends | ⟨same, waits⟩ := reaped c alive
  · obtain still | reaper := serves c serving
    · exact .inl still
    · exact .inr (.inr ⟨transport.trans serving.2.1, .inl reaper⟩)
  · exact .inr (.inl (by rwa [holder]))
  · exact .inr (.inr ⟨transport.trans same, waits.imp (tasks c) fun here => holder.trans here⟩)

/-- New tasks take no reaper away. -/
theorem add (reaped : s.Reaped) {n : GpuWorkerSupervisor κ} (child : n.child = s.child)
    (holder : n.holder = s.holder) (transport : n.transportGeneration = s.transportGeneration)
    (generation : n.generation = s.generation) (state : n.internalState = s.internalState)
    (tasks : ∀ g, .reap g ∈ s.tasks → .reap g ∈ n.tasks) : n.Reaped :=
  reaped.mono child holder transport tasks fun c serves => .inl (by
    unfold Serves
    rwa [generation, transport, state, holder])

theorem shortCircuit (reaped : s.Reaped) (request : RerankRequest κ) (failure : Option GpuWorkerRerankFailure) :
    (s.shortCircuit request failure).Reaped :=
  reaped.add rfl rfl rfl rfl rfl fun _ member => member

theorem rerank (reaped : s.Reaped) (request : RerankRequest κ) : (s.rerank request).Reaped := by
  have waits : { s with tasks := .rerank request :: s.tasks }.Reaped :=
    reaped.add rfl rfl rfl rfl rfl fun _ => List.mem_cons_of_mem _
  unfold GpuWorkerSupervisor.rerank
  split
  · exact reaped.shortCircuit request none
  split
  · exact reaped.shortCircuit request _
  split
  · exact reaped.shortCircuit request none
  · exact reaped.shortCircuit request none
  · split
    · exact reaped.shortCircuit request none
    · exact reaped.add rfl rfl rfl rfl rfl fun _ => List.mem_cons_of_mem _
  · exact reaped.shortCircuit request _
  · split
    · exact waits
    · exact reaped.shortCircuit request none
  all_goals exact waits

theorem startWarmUp (reaped : s.Reaped) : s.startWarmUp.Reaped := by
  unfold GpuWorkerSupervisor.startWarmUp
  split
  · rename_i stopped
    exact reaped.mono rfl rfl rfl (fun _ => List.mem_cons_of_mem _) fun c serves =>
      absurd serves (not_serves (.inl (by rw [stopped]; rfl)))
  · exact reaped

/-- A retry leaves no child behind, unless it is one on probation. -/
theorem explicitRetry (reaped : s.Reaped) (spared : s.internalState ≠ .probation) : s.explicitRetry.Reaped := by
  unfold GpuWorkerSupervisor.explicitRetry
  split
  · rename_i retries
    refine reaped.mono rfl rfl rfl (fun _ member => member) fun c serves => absurd serves (not_serves ?_)
    unfold GpuWorkerSupervisor.retries at retries
    cases state : s.internalState with
    | quarantined reason => exact .inl rfl
    | retryPending => exact .inl rfl
    | liveSuppressed => exact .inr rfl
    | probation => exact absurd state spared
    | _ => rw [state] at retries; cases retries
  · exact reaped

/-- A lifecycle operation that schedules the termination leaves the child to the reaper. -/
theorem openGeneration (reaped : s.Reaped) (state : SupervisorState) (retryArmed : Bool) :
    (if s.shouldTerminate then (s.openGeneration state retryArmed).scheduleTermination s.generation
      else s.openGeneration state retryArmed).Reaped := by
  split
  · refine reaped.mono rfl rfl rfl (fun _ => List.mem_cons_of_mem _) fun c serves => .inr ?_
    rw [serves.1]
    exact List.mem_cons_self
  · rename_i unscheduled
    refine reaped.mono rfl rfl rfl (fun _ member => member) fun c serves => ?_
    simp [shouldTerminate, serves.isLive] at unscheduled

theorem armStrongCallerProbe (reaped : s.Reaped) (caller : GpuWorkerCaller) :
    (s.armStrongCallerProbe caller).Reaped := by
  unfold GpuWorkerSupervisor.armStrongCallerProbe
  split
  · rename_i suppressed
    exact reaped.mono rfl rfl rfl (fun _ => List.mem_cons_of_mem _) fun c serves =>
      absurd serves (not_serves (.inr suppressed))
  · exact reaped

theorem autoRetry (reaped : s.Reaped) (generation : Nat) : (s.autoRetry generation).Reaped := by
  unfold GpuWorkerSupervisor.autoRetry
  split
  · rename_i armed
    exact reaped.mono rfl rfl rfl (fun _ => List.mem_cons_of_mem _) fun c serves =>
      absurd serves (not_serves (.inl (by rw [armed.1]; rfl)))
  · exact reaped

/-- A task that goes takes no other with it. -/
theorem mem_eraseIdx {tasks : List (SupervisorTask κ)} {i : Nat} {task other : SupervisorTask κ}
    (present : tasks[i]? = some task) (member : other ∈ tasks) (apart : other ≠ task) : other ∈ tasks.eraseIdx i := by
  obtain ⟨j, there⟩ := List.mem_iff_getElem?.mp member
  refine List.mem_eraseIdx_iff_getElem?.mpr ⟨j, ?_, there⟩
  rintro rfl
  exact apart (Option.some.inj (there.symm.trans present))

theorem wake (reaped : s.Reaped) (i : Nat) : (s.wake i).Reaped := by
  have removed {task : SupervisorTask κ} (present : s.tasks[i]? = some task) (other : ∀ g, .reap g ≠ task) :
      { s with tasks := s.tasks.eraseIdx i }.Reaped :=
    reaped.add rfl rfl rfl rfl rfl fun g member => mem_eraseIdx present member (other g)
  unfold GpuWorkerSupervisor.wake
  split
  · rename_i present
    exact (removed present nofun).armStrongCallerProbe _
  · rename_i present
    exact (removed present nofun).autoRetry _
  · rename_i present
    split
    · exact reaped
    · exact (removed present nofun).shortCircuit _ none
  · exact reaped

/-- A reaper that takes the operation lock still reaps. -/
theorem acquire (reaped : s.Reaped) (i : Nat) : (s.acquire i).Reaped := by
  unfold GpuWorkerSupervisor.acquire
  split
  · rename_i task free present
    split
    · rename_i operation takes
      intro c alive
      obtain ⟨same, transport, requestable | ⟨-, _, _, here⟩⟩ | ⟨_, here, -⟩ | ⟨transport, waits | here⟩ := reaped c alive
      · exact .inl ⟨same, transport, .inl requestable⟩
      · rw [free] at here
        cases here
      · rw [free] at here
        cases here
      · refine .inr (.inr ⟨transport, ?_⟩)
        by_cases chosen : .reap c = task
        · subst chosen
          cases takes
          exact .inr rfl
        · exact .inl (mem_eraseIdx present waits chosen)
      · rw [free] at here
        cases here
    · exact reaped
  · exact reaped

/-- The operation lock passes on with what it has to do for the child. -/
theorem goto (reaped : s.Reaped) {before operation : Operation κ} (here : s.holder = some before)
    (ends : before.EndsChild → operation.EndsChild)
    (gives : ∀ reason rest, before = .quarantine reason s.generation rest → s.internalState ≠ .starting)
    (reaper : ∀ g, before = .terminateTransport g → s.transportGeneration ≠ some g) :
    { s with holder := some operation }.Reaped := by
  intro c alive
  obtain ⟨same, transport, requestable | ⟨starting, reason, rest, there⟩⟩ | ⟨other, there, ending⟩ |
    ⟨transport, waits | there⟩ := reaped c alive
  · exact .inl ⟨same, transport, .inl requestable⟩
  · rw [here, same] at there
    exact absurd starting (gives reason rest (Option.some.inj there))
  · rw [here] at there
    obtain rfl := Option.some.inj there
    exact .inr (.inl ⟨operation, rfl, ends ending⟩)
  · exact .inr (.inr ⟨transport, .inl waits⟩)
  · rw [here] at there
    exact absurd transport (reaper c (Option.some.inj there))

/-- With an operation that ends the child nothing else is needed. -/
theorem of_ends {operation : Operation κ} (here : s.holder = some operation) (ends : operation.EndsChild) :
    s.Reaped := fun _ _ => .inr (.inl ⟨operation, here, ends⟩)

theorem ensureReady (reaped : s.Reaped) {request : RerankRequest κ} (here : s.holder = some (.ensureReady request)) :
    (s.ensureReady request).Reaped := by
  unfold GpuWorkerSupervisor.ensureReady
  split
  · exact reaped.goto here nofun nofun nofun
  · exact reaped.goto here nofun nofun nofun
  · exact of_ends rfl trivial
  · exact reaped.goto here nofun nofun nofun

theorem performStart (reaped : s.Reaped) {generation : Nat} (here : s.holder = some (.performStart generation)) :
    (s.performStart generation).Reaped := by
  unfold GpuWorkerSupervisor.performStart
  split
  · exact of_ends rfl trivial
  · exact reaped.goto here nofun nofun nofun

/-- A finished start leaves a child that serves, or that it gives up. -/
theorem finishStart (owned : s.Owned) {request : Option (RerankRequest κ)} {generation : Nat}
    {failure : Option GpuWorkerFailure} (here : s.holder = some (.finishStart request generation failure)) :
    (s.finishStart request generation failure).Reaped := by
  obtain ⟨transport, -, -, left⟩ := owned.promised _ here
  unfold GpuWorkerSupervisor.finishStart
  split
  · rename_i current
    obtain ⟨rfl, starting⟩ := current
    have own {c : Nat} (alive : s.child = some c) : c = s.generation := by
      rcases left with gone | same
      · exact absurd (gone.symm.trans alive) nofun
      · exact Option.some.inj (alive.symm.trans same)
    cases failure with
    | some failure =>
      intro c alive
      obtain rfl := own alive
      exact .inl ⟨rfl, transport, .inr ⟨starting, _, _, rfl⟩⟩
    | none =>
      intro c alive
      obtain rfl := own alive
      refine .inl ⟨rfl, transport, .inl ?_⟩
      dsimp only
      split <;> rfl
  · exact of_ends rfl List.mem_cons_self

theorem prepareRequest (reaped : s.Reaped) {request : RerankRequest κ}
    (here : s.holder = some (.prepareRequest request)) : (s.prepareRequest request).Reaped := by
  unfold GpuWorkerSupervisor.prepareRequest
  split
  · exact reaped.goto here nofun nofun nofun
  · exact reaped.goto here nofun nofun nofun

theorem request (reaped : s.Reaped) {request : RerankRequest κ} {requestID generation : Nat}
    (here : s.holder = some (.request request requestID generation)) (answer : GpuWorkerTransportAnswer κ) :
    (s.request request requestID generation answer).Reaped :=
  reaped.goto here nofun nofun nofun

theorem handleReply (reaped : s.Reaped) {request : RerankRequest κ} {requestID generation : Nat} {source : Option Nat}
    {reply : GpuWorkerTransportReply κ} {late : Bool}
    (here : s.holder = some (.handleReply request requestID generation source reply late)) :
    (s.handleReply request requestID generation source reply late).Reaped := by
  have goto (operation : Operation κ) : { s with holder := some operation }.Reaped :=
    reaped.goto here nofun nofun nofun
  unfold GpuWorkerSupervisor.handleReply
  split
  · cases reply with
    | response response =>
      dsimp only
      split <;> exact goto _
    | _ => exact goto _
  · cases reply with
    | response response =>
      unfold handleResponse
      dsimp only
      split
      · split
        · exact goto _
        · exact goto _
      · exact goto _
    | _ => exact goto _

/-- A valid rank keeps the worker serving. -/
theorem noteRankSuccess (reaped : s.Reaped) {generation : Nat} {rest : List (OperationEnd κ)}
    (here : s.holder = some (.noteRankSuccess generation rest)) : (s.noteRankSuccess generation rest).Reaped := by
  have ended : { s with holder := some (.finish rest) }.Reaped := reaped.goto here (fun ends => ends) nofun nofun
  unfold GpuWorkerSupervisor.noteRankSuccess
  split
  · intro c alive
    obtain ⟨same, transport, requestable | ⟨-, _, _, quarantines⟩⟩ | ends | waits := ended c alive
    · refine .inl ⟨same, transport, .inl ?_⟩
      dsimp only
      split
      · rfl
      · exact requestable
    · cases quarantines
    · exact .inr (.inl ends)
    · exact .inr (.inr waits)
  · exact ended

/-- A timeout sees to the end of the child. -/
theorem handleRankTimeout (owned : s.Owned) (reaped : s.Reaped) {caller : GpuWorkerCaller} {generation : Nat}
    {rest : List (OperationEnd κ)} (here : s.holder = some (.handleRankTimeout caller generation rest)) :
    (s.handleRankTimeout caller generation rest).Reaped := by
  have plain := owned.idle_of_terminated fun _ _ _ => by rw [here]; simp
  unfold GpuWorkerSupervisor.handleRankTimeout
  split
  · rename_i current
    obtain ⟨rfl, requestable⟩ := current
    have due : s.terminatedGeneration ≠ some s.generation := fun done => by
      rw [plain done] at requestable
      cases requestable
    simp only [terminateUnless, due, decide_false, if_false, Bool.false_eq_true]
    cases state : s.internalState with
    | ready => exact of_ends rfl List.mem_cons_self
    | probation =>
      dsimp only
      split <;> exact of_ends rfl List.mem_cons_self
    | _ => rw [state] at requestable; cases requestable
  · exact reaped.goto here (fun ends => ends) (by simp) (by simp)

/-- A quarantine sees to the end of the child of its generation. -/
theorem quarantine (owned : s.Owned) (reaped : s.Reaped) {reason : GpuWorkerQuarantineReason} {generation : Nat}
    {rest : List (OperationEnd κ)} (here : s.holder = some (.quarantine reason generation rest)) :
    (s.quarantine reason generation rest).Reaped := by
  unfold GpuWorkerSupervisor.quarantine
  split
  · rename_i current
    subst current
    have ends := owned.quarantine_ends here
    obtain ⟨-, state⟩ := owned.promised _ here
    split
    · rename_i quarantined
      rcases state rfl with requestable | starting
      · rw [quarantined] at requestable
        cases requestable
      · rw [quarantined] at starting
        cases starting
    · exact of_ends rfl ends
  · rename_i overtaken
    refine reaped.goto here (fun ends => ends) (fun _ _ same => ?_) nofun
    cases same
    exact absurd rfl overtaken

/-- A reaper ends the child of its generation, and leaves any other. -/
theorem terminateTransport (reaped : s.Reaped) {generation : Nat}
    (here : s.holder = some (.terminateTransport generation)) : (s.terminateTransport generation).Reaped := by
  unfold GpuWorkerSupervisor.terminateTransport
  split
  · exact of_ends rfl List.mem_cons_self
  · rename_i other
    exact reaped.goto here nofun nofun fun g same => by
      cases same
      exact other

/-- What is left to be done is done before the lock is let go. -/
theorem finish (reaped : s.Reaped) {rest : List (OperationEnd κ)} (here : s.holder = some (.finish rest)) :
    (s.finish rest).Reaped := by
  cases rest with
  | nil =>
    intro c alive
    obtain ⟨same, transport, requestable | ⟨-, _, _, quarantines⟩⟩ | ⟨_, there, ends⟩ | ⟨transport, waits | there⟩ :=
      reaped c alive
    · exact .inl ⟨same, transport, .inl requestable⟩
    · exact nomatch here.symm.trans quarantines
    · obtain rfl := Option.some.inj (here.symm.trans there)
      cases ends
    · exact .inr (.inr ⟨transport, .inl waits⟩)
    · exact nomatch here.symm.trans there
  | cons first rest =>
    have onward (other : first ≠ .terminate) : { s with holder := some (.finish rest) }.Reaped :=
      reaped.goto here (fun ends => (List.mem_cons.mp ends).resolve_left fun same => other same.symm) nofun nofun
    cases first with
    | terminate => exact fun _ => nofun
    | scheduleAutoRetry generation =>
      exact (onward nofun).add rfl rfl rfl rfl rfl fun _ => List.mem_cons_of_mem _
    | refuse request => exact onward nofun
    | answer decision => exact onward nofun

/-- Every step of the holder of the operation lock leaves the child seen to. -/
theorem operate (owned : s.Owned) (reaped : s.Reaped) (answer : GpuWorkerTransportAnswer κ) :
    (s.operate answer).Reaped := by
  unfold GpuWorkerSupervisor.operate
  split
  · exact reaped
  · exact reaped.ensureReady ‹_›
  · exact of_ends rfl trivial
  · exact finishStart owned ‹_›
  · exact reaped.prepareRequest ‹_›
  · exact reaped.request ‹_› answer
  · exact reaped.handleReply ‹_›
  · exact reaped.noteRankSuccess ‹_›
  · exact handleRankTimeout owned reaped ‹_›
  · exact quarantine owned reaped ‹_›
  · exact reaped.performStart ‹_›
  · exact reaped.terminateTransport ‹_›
  · exact reaped.finish ‹_›

/-- Every step leaves the child seen to, unless it is a retry that takes a worker off probation. -/
theorem step (owned : s.Owned) (reaped : s.Reaped) {op : SupervisorOp κ} (spares : s.SparesProbation op) :
    (s.step op).Reaped := by
  cases op with
  | rerank request => exact reaped.rerank request
  | startWarmUp => exact reaped.startWarmUp
  | explicitRetry => exact reaped.explicitRetry (spares rfl)
  | modelOrRuntimeChanged => exact reaped.openGeneration .stopped true
  | disable => exact reaped.openGeneration .disabled false
  | acquire i => exact reaped.acquire i
  | wake i => exact reaped.wake i
  | operate answer => exact operate owned reaped answer
  | childExits => exact fun _ => nofun

end Reaped

/-- A request of the convert tier. -/
def convertRequest : RerankRequest Unit := ⟨(), false, true, true, .convert⟩

end GpuWorkerSupervisor

end Nospacekey
