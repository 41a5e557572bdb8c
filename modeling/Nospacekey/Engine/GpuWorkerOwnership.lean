import Nospacekey.Engine.GpuWorkerSupervisor

/-! Each generation starts one child, and only its responses are used while it is the current one. -/

namespace Nospacekey

variable {κ : Type}

/-- The generations that the transport was started for, the latest first. -/
def startedGenerations : List (SupervisorEvent κ) → List Nat
  | .started generation :: rest => generation :: startedGenerations rest
  | _ :: rest => startedGenerations rest
  | [] => []

namespace Operation

/-- What is left to do at the end of the operation. -/
def rest : Operation κ → List (OperationEnd κ)
  | .noteRankSuccess _ rest | .handleRankTimeout _ _ rest | .quarantine _ _ rest | .finish rest => rest
  | _ => []

/-- The transport is about to be started, which ends any child. -/
def isStart : Operation κ → Bool
  | .start _ _ => true
  | _ => false

/-- The operation works in a start of the generation. -/
def attempts (generation : Nat) : Operation κ → Prop
  | .finishStart _ attempted _ | .quarantine _ attempted _ => attempted = generation
  | _ => False

/-- What the place in the operation says of the supervisor's fields: a generation in the operation is
not newer than the current one, and while it is the current one, the state is what the operation found. -/
def Promised (state : SupervisorState) (generation : Nat) (transportGeneration child : Option Nat)
    (started : List Nat) : Operation κ → Prop
  | .start _ g =>
    transportGeneration = some g ∧ g ≤ generation ∧ (g = generation → state = .starting) ∧
      g ∉ started
  | .finishStart _ g _ =>
    transportGeneration = some g ∧ g ≤ generation ∧ (g = generation → state = .starting) ∧
      (child = none ∨ child = some g)
  | .request _ _ g =>
    transportGeneration = some g ∧ g ≤ generation ∧ (g = generation → state.isRequestable = true)
  | .handleReply _ _ g source reply _ =>
    g ≤ generation ∧ (g = generation → state.isRequestable = true) ∧
      ∀ response, reply = .response response → source = some g ∧ g ∈ started
  | .noteRankSuccess g _ | .handleRankTimeout _ g _ =>
    g ≤ generation ∧ (g = generation → state.isRequestable = true)
  | .quarantine _ g _ =>
    g ≤ generation ∧ (g = generation → state.isRequestable = true ∨ state = .starting)
  | .ensureReady _ | .prepareRequest _ | .performStart _ | .terminateTransport _ | .finish _ => True

/-- Where the state is neither starting nor open for requests, no operation rests on it. -/
theorem Promised.idle {state state' : SupervisorState} {generation : Nat}
    {transportGeneration child : Option Nat} {started : List Nat} {operation : Operation κ}
    (starting : state ≠ .starting) (requestable : state.isRequestable = false)
    (promised : operation.Promised state generation transportGeneration child started) :
    operation.Promised state' generation transportGeneration child started := by
  have idle {g : Nat} (same : g = generation → state.isRequestable = true) : g ≠ generation := fun here => by
    rw [same here] at requestable
    cases requestable
  cases operation with
  | start request g =>
    exact ⟨promised.1, promised.2.1, fun here => absurd (promised.2.2.1 here) starting, promised.2.2.2⟩
  | finishStart request g failure =>
    exact ⟨promised.1, promised.2.1, fun here => absurd (promised.2.2.1 here) starting, promised.2.2.2⟩
  | request request requestID g => exact ⟨promised.1, promised.2.1, fun here => absurd here (idle promised.2.2)⟩
  | handleReply request requestID g source reply late =>
    exact ⟨promised.1, fun here => absurd here (idle promised.2.1), promised.2.2⟩
  | noteRankSuccess g rest => exact ⟨promised.1, fun here => absurd here (idle promised.2)⟩
  | handleRankTimeout caller g rest => exact ⟨promised.1, fun here => absurd here (idle promised.2)⟩
  | quarantine reason g rest =>
    exact ⟨promised.1, fun here => absurd here (idle fun here => (promised.2 here).resolve_right starting)⟩
  | _ => trivial

/-- A new generation is not the one of any operation. -/
theorem Promised.newer {state state' : SupervisorState} {generation : Nat}
    {transportGeneration child : Option Nat} {started : List Nat} {operation : Operation κ}
    (promised : operation.Promised state generation transportGeneration child started) :
    operation.Promised state' (generation + 1) transportGeneration child started := by
  have newer {g : Nat} (bound : g ≤ generation) : g ≤ generation + 1 ∧ g ≠ generation + 1 := by omega
  cases operation with
  | start request g =>
    exact ⟨promised.1, (newer promised.2.1).1, fun here => absurd here (newer promised.2.1).2, promised.2.2.2⟩
  | finishStart request g failure =>
    exact ⟨promised.1, (newer promised.2.1).1, fun here => absurd here (newer promised.2.1).2, promised.2.2.2⟩
  | request request requestID g =>
    exact ⟨promised.1, (newer promised.2.1).1, fun here => absurd here (newer promised.2.1).2⟩
  | handleReply request requestID g source reply late =>
    exact ⟨(newer promised.1).1, fun here => absurd here (newer promised.1).2, promised.2.2⟩
  | noteRankSuccess g rest => exact ⟨(newer promised.1).1, fun here => absurd here (newer promised.1).2⟩
  | handleRankTimeout caller g rest => exact ⟨(newer promised.1).1, fun here => absurd here (newer promised.1).2⟩
  | quarantine reason g rest => exact ⟨(newer promised.1).1, fun here => absurd here (newer promised.1).2⟩
  | _ => trivial

end Operation

/-- A decision that rests on the worker rests on a response that was used. -/
def GpuWorkerRerankDecision.Backed (decision : GpuWorkerRerankDecision κ)
    (history : List (SupervisorEvent κ)) : Prop :=
  decision.usedWorker = true → ∃ requestID response source generation,
    .used requestID response source generation ∈ history ∧ response.materialized = .ok decision.conversion

/-- A response that is applied carries the numbers of its request, and gives what its candidates come
to. -/
theorem GpuWorkerResponse.apply_ok {response : GpuWorkerResponse κ} {requestID generation : Nat} {conversion : κ}
    (applied : response.apply requestID generation = .ok conversion) :
    response.requestID = requestID ∧ response.generation = generation ∧ response.materialized = .ok conversion := by
  unfold GpuWorkerResponse.apply at applied
  split at applied
  · rename_i fits
    split at applied
    · cases applied
    · exact ⟨fits.2.1, fits.2.2, applied⟩
  · cases applied

namespace GpuWorkerSupervisor

variable {s : GpuWorkerSupervisor κ}

/-- The termination of the child is on its way. -/
def Terminates (s : GpuWorkerSupervisor κ) : Prop :=
  ∃ operation, s.holder = some operation ∧ .terminate ∈ operation.rest

/-- A start of the generation is being worked in. -/
def Attempts (s : GpuWorkerSupervisor κ) (generation : Nat) : Prop :=
  ∃ operation, s.holder = some operation ∧ operation.attempts generation

/-- A response was used as it should be: it came from the child of the generation that was current
then, and carries the number of the request. -/
def UsesOwn (history : List (SupervisorEvent κ)) : Prop :=
  ∀ requestID response source generation, .used requestID response source generation ∈ history →
    source = some generation ∧ generation ∈ startedGenerations history ∧
      response.requestID = requestID ∧ response.generation = generation

/-- What the ownership of the child rests on. -/
structure Owned (s : GpuWorkerSupervisor κ) : Prop where
  startedLe : ∀ g ∈ startedGenerations s.history, g ≤ s.generation
  nodup : (startedGenerations s.history).Nodup
  fresh : s.internalState = .stopped ∨ s.internalState = .retryPending →
    s.generation ∉ startedGenerations s.history
  starting : s.internalState = .starting → s.generation ∈ startedGenerations s.history →
    s.Attempts s.generation
  promised : ∀ operation, s.holder = some operation → operation.Promised s.internalState s.generation
    s.transportGeneration s.child (startedGenerations s.history)
  child : ∀ c, s.child = some c → c ∈ startedGenerations s.history ∧
    (s.transportGeneration = some c ∨ s.Terminates ∨ ∃ operation, s.holder = some operation ∧ operation.isStart = true)
  terminated : ∀ t, s.terminatedGeneration = some t → t ≤ s.generation ∧ (t = s.generation →
    s.internalState.isRequestable = true → ∃ reason rest, s.holder = some (.quarantine reason t rest) ∧ .terminate ∈ rest)
  terminatedStarting : ∀ t, s.terminatedGeneration = some t → t = s.generation →
    s.internalState ≠ .stopped ∧ s.internalState ≠ .starting ∧ s.internalState ≠ .retryPending
  uses : UsesOwn s.history
  answers : ∀ decision, .answered decision ∈ s.history → decision.Backed s.history
  pending : ∀ operation decision, s.holder = some operation → .answer decision ∈ operation.rest →
    decision.Backed s.history

/-- What backs a decision backs it later on. -/
theorem backed_cons {decision : GpuWorkerRerankDecision κ} {history : List (SupervisorEvent κ)}
    (backed : decision.Backed history) (event : SupervisorEvent κ) : decision.Backed (event :: history) :=
  fun used => by
    obtain ⟨requestID, response, source, generation, member, same⟩ := backed used
    exact ⟨requestID, response, source, generation, List.mem_cons_of_mem _ member, same⟩

/-- An event that is neither a start nor a use changes nothing about the uses. -/
theorem usesOwn_cons {history : List (SupervisorEvent κ)} {event : SupervisorEvent κ} (uses : UsesOwn history)
    (start : startedGenerations (event :: history) = startedGenerations history)
    (use : ∀ requestID response source generation, event ≠ .used requestID response source generation) :
    UsesOwn (event :: history) := fun requestID response source generation member => by
  rw [start]
  exact uses requestID response source generation
    ((List.mem_cons.mp member).resolve_left fun same => use _ _ _ _ same.symm)

namespace Owned

/-- What is recorded besides starts, uses and unbacked answers changes nothing about the child. -/
theorem record (owned : s.Owned) {e : SupervisorEvent κ}
    (start : startedGenerations (e :: s.history) = startedGenerations s.history)
    (use : ∀ requestID response source generation, e ≠ .used requestID response source generation)
    (answer : ∀ decision, e = .answered decision → decision.Backed s.history) :
    { s with history := e :: s.history }.Owned where
  startedLe := start ▸ owned.startedLe
  nodup := start ▸ owned.nodup
  fresh := start ▸ owned.fresh
  starting := start ▸ owned.starting
  promised := start ▸ owned.promised
  child := start ▸ owned.child
  terminated := owned.terminated
  terminatedStarting := owned.terminatedStarting
  uses := usesOwn_cons owned.uses start use
  answers decision member := by
    rcases List.mem_cons.mp member with rfl | before
    · exact backed_cons (answer decision rfl) _
    · exact backed_cons (owned.answers decision before) _
  pending operation decision here member := backed_cons (owned.pending operation decision here member) _

/-- A rerank that is answered for by the state changes nothing about the child. -/
theorem shortCircuit (owned : s.Owned) (request : RerankRequest κ) (failure : Option GpuWorkerRerankFailure) :
    (s.shortCircuit request failure).Owned :=
  owned.record rfl (fun _ _ _ _ => nofun) fun decision same => by
    cases same
    exact nofun

/-- A rerank that arrives changes nothing about the child. -/
theorem rerank (owned : s.Owned) (request : RerankRequest κ) : (s.rerank request).Owned := by
  unfold GpuWorkerSupervisor.rerank
  split
  · exact owned.shortCircuit request none
  split
  · exact owned.shortCircuit request _
  split
  · exact owned.shortCircuit request none
  · exact owned.shortCircuit request none
  · split
    · exact owned.shortCircuit request none
    · exact { owned.shortCircuit request none with }
  · exact owned.shortCircuit request _
  · split
    · exact { owned with }
    · exact owned.shortCircuit request none
  all_goals exact { owned with }

/-- A start that is scheduled out of a state in which nothing was started. -/
theorem schedule (owned : s.Owned)
    (idle : s.internalState = .stopped ∨ s.internalState = .retryPending) :
    { s with internalState := .starting }.Owned :=
  { owned with
    fresh := fun still => by rcases still with same | same <;> cases same
    starting := fun _ started => absurd started (owned.fresh idle)
    promised := fun operation here => Operation.Promised.idle (by rcases idle with h | h <;> rw [h] <;> nofun)
      (by rcases idle with h | h <;> rw [h] <;> rfl) (owned.promised operation here)
    terminated := fun t here => ⟨(owned.terminated t here).1, fun _ => nofun⟩
    terminatedStarting := fun t here same => by
      obtain ⟨stopped, -, retryPending⟩ := owned.terminatedStarting t here same
      exact absurd idle (by simp [stopped, retryPending]) }

theorem startWarmUp (owned : s.Owned) : s.startWarmUp.Owned := by
  unfold GpuWorkerSupervisor.startWarmUp
  split
  · rename_i stopped
    exact { owned.schedule (.inl stopped) with }
  · exact owned

/-- A generation that is opened has started nothing. -/
theorem newer (owned : s.Owned) (state : SupervisorState) {terminatedGeneration : Option Nat}
    (starting : state ≠ .starting) (older : ∀ t, terminatedGeneration = some t → t ≤ s.generation) :
    { s with
      generation := s.generation + 1
      internalState := state
      terminatedGeneration := terminatedGeneration }.Owned :=
  { owned with
    startedLe := fun g member => Nat.le_succ_of_le (owned.startedLe g member)
    fresh := fun _ member => absurd (owned.startedLe _ member) (by simp)
    starting := fun same => absurd same starting
    promised := fun operation here => Operation.Promised.newer (owned.promised operation here)
    terminated := fun t here => ⟨Nat.le_succ_of_le (older t here), fun same => by
      have := older t here
      dsimp only at same
      omega⟩
    terminatedStarting := fun t here same => by
      have := older t here
      dsimp only at same
      omega }

/-- A lifecycle operation that opens a generation leaves the child to its transport. -/
theorem openGeneration (owned : s.Owned) (state : SupervisorState) (starting : state ≠ .starting) (retryArmed : Bool) :
    (s.openGeneration state retryArmed).Owned :=
  { (owned.newer state starting (nofun : ∀ t, none = some t → t ≤ s.generation)).record (e := .opened (s.generation + 1)) rfl (fun _ _ _ _ => nofun)
      (fun _ => nofun) with }

theorem explicitRetry (owned : s.Owned) : s.explicitRetry.Owned := by
  unfold GpuWorkerSupervisor.explicitRetry
  split
  · exact owned.openGeneration .stopped nofun true
  · exact owned

theorem modelOrRuntimeChanged (owned : s.Owned) : s.modelOrRuntimeChanged.Owned := by
  unfold GpuWorkerSupervisor.modelOrRuntimeChanged
  split
  · exact { owned.openGeneration .stopped nofun true with }
  · exact owned.openGeneration .stopped nofun true

theorem disable (owned : s.Owned) : s.disable.Owned := by
  unfold GpuWorkerSupervisor.disable
  split
  · exact { owned.openGeneration .disabled nofun false with }
  · exact owned.openGeneration .disabled nofun false

theorem armStrongCallerProbe (owned : s.Owned) (caller : GpuWorkerCaller) :
    (s.armStrongCallerProbe caller).Owned := by
  unfold GpuWorkerSupervisor.armStrongCallerProbe
  split
  · have opened := owned.newer .retryPending nofun fun t here => (owned.terminated t here).1
    exact { opened.record (e := .probed caller s.internalState (s.generation + 1)) rfl (fun _ _ _ _ => nofun)
      (fun _ => nofun) with }
  · exact owned

theorem autoRetry (owned : s.Owned) (generation : Nat) : (s.autoRetry generation).Owned := by
  unfold GpuWorkerSupervisor.autoRetry
  split
  · rename_i due
    exact { (owned.schedule (.inr due.1)).record (e := .respawned generation) rfl (fun _ _ _ _ => nofun)
      (fun _ => nofun) with }
  · exact owned

/-- A thread that does not take the operation lock changes nothing about the child. -/
theorem wake (owned : s.Owned) (i : Nat) : (s.wake i).Owned := by
  have removed : { s with tasks := s.tasks.eraseIdx i }.Owned := { owned with }
  unfold GpuWorkerSupervisor.wake
  split
  · exact removed.armStrongCallerProbe _
  · exact removed.autoRetry _
  · split
    · exact owned
    · exact removed.shortCircuit _ none
  · exact owned

/-- The operation lock passes on while no termination, no start and no refusal of the child's
termination is under way. -/
theorem goto (owned : s.Owned) {operation : Operation κ}
    (child : ∀ c, s.child = some c → s.transportGeneration = some c ∨ .terminate ∈ operation.rest ∨
      operation.isStart = true)
    (starting : s.internalState = .starting → s.generation ∈ startedGenerations s.history →
      operation.attempts s.generation)
    (terminated : s.terminatedGeneration = some s.generation → s.internalState.isRequestable = false)
    (promised : operation.Promised s.internalState s.generation s.transportGeneration s.child
      (startedGenerations s.history))
    (pending : ∀ decision, .answer decision ∈ operation.rest → decision.Backed s.history) :
    { s with holder := some operation }.Owned :=
  { owned with
    starting := fun same started => ⟨operation, rfl, starting same started⟩
    promised := fun other here => by
      cases here
      exact promised
    child := fun c here => ⟨(owned.child c here).1, by
      rcases child c here with same | ends | start
      · exact .inl same
      · exact .inr (.inl ⟨operation, rfl, ends⟩)
      · exact .inr (.inr ⟨operation, rfl, start⟩)⟩
    terminated := fun t here => ⟨(owned.terminated t here).1, fun same open' => by
      subst same
      rw [terminated here] at open'
      cases open'⟩
    pending := fun other decision here => by
      cases here
      exact pending decision }

/-- Outside a start and a termination on its way, the living child is the transport's. -/
theorem calm (owned : s.Owned) {operation : Operation κ} (here : s.holder = some operation)
    (ends : .terminate ∉ operation.rest) (start : operation.isStart = false) {c : Nat}
    (alive : s.child = some c) : s.transportGeneration = some c := by
  rcases (owned.child c alive).2 with same | ⟨other, there, ending⟩ | ⟨other, there, starting⟩
  · exact same
  · rw [here] at there
    cases there
    exact absurd ending ends
  · rw [here] at there
    cases there
    rw [start] at starting
    cases starting

/-- Outside a quarantine, a current generation that was terminated takes no request. -/
theorem idle_of_terminated (owned : s.Owned)
    (plain : ∀ reason generation rest, s.holder ≠ some (.quarantine reason generation rest))
    (done : s.terminatedGeneration = some s.generation) : s.internalState.isRequestable = false := by
  by_contra requestable
  obtain ⟨reason, rest, here, -⟩ := (owned.terminated _ done).2 rfl (by simpa using requestable)
  exact plain reason _ rest here

/-- Outside of what works in it, a start that is due has not begun. -/
theorem not_started (owned : s.Owned) {operation : Operation κ} (here : s.holder = some operation)
    (idle : ¬ operation.attempts s.generation) (starting : s.internalState = .starting) :
    s.generation ∉ startedGenerations s.history := fun started => by
  obtain ⟨other, there, attempts⟩ := owned.starting starting started
  rw [here] at there
  cases there
  exact idle attempts

/-- A thread that takes the operation lock changes nothing else about the child. -/
theorem acquire (owned : s.Owned) (i : Nat) : (s.acquire i).Owned := by
  unfold GpuWorkerSupervisor.acquire
  split
  · rename_i task free present
    split
    · rename_i operation takes
      have moved : { s with holder := some operation }.Owned := by
        refine owned.goto (fun c alive => ?_) (fun starting started => ?_)
          (owned.idle_of_terminated fun _ _ _ => by rw [free]; nofun) ?_ ?_
        · rcases (owned.child c alive).2 with same | ⟨other, there, -⟩ | ⟨other, there, -⟩
          · exact .inl same
          · rw [free] at there; cases there
          · rw [free] at there; cases there
        · obtain ⟨other, there, -⟩ := owned.starting starting started
          rw [free] at there
          cases there
        · cases task <;> cases takes <;> trivial
        · cases task <;> cases takes <;> exact fun _ => nofun
      exact { moved with }
    · exact owned
  · exact owned

/-- A rerank that has the lock requests, starts, or gives up. -/
theorem ensureReady (owned : s.Owned) {request : RerankRequest κ} (here : s.holder = some (.ensureReady request)) :
    (s.ensureReady request).Owned := by
  have plain := owned.idle_of_terminated fun _ _ _ => by rw [here]; nofun
  have calm {c : Nat} (alive : s.child = some c) : s.transportGeneration = some c :=
    owned.calm here (by simp [Operation.rest]) rfl alive
  unfold GpuWorkerSupervisor.ensureReady
  split
  · rename_i ready
    exact owned.goto (fun c alive => .inl (calm alive)) (by rw [ready]; nofun) plain trivial (fun _ => nofun)
  · rename_i probation
    exact owned.goto (fun c alive => .inl (calm alive)) (by rw [probation]; nofun) plain trivial (fun _ => nofun)
  · rename_i stopped
    have fresh := owned.fresh (.inl stopped)
    exact { owned.schedule (.inl stopped) with
      starting := fun _ started => absurd started fresh
      promised := fun operation there => by
        cases there
        exact ⟨rfl, Nat.le_refl _, fun _ => rfl, fresh⟩
      child := fun c alive => ⟨(owned.child c alive).1, .inr (.inr ⟨_, rfl, rfl⟩)⟩
      terminated := fun t there => ⟨(owned.terminated t there).1, fun _ => nofun⟩
      pending := fun operation decision there => by
        cases there
        exact nofun }
  · exact owned.goto (fun c alive => .inl (calm alive))
      (fun starting started => absurd started (owned.not_started here (fun h => h) starting)) plain trivial
      (fun _ member => by simp [Operation.rest] at member)

/-- A thread that has the lock starts what is still due. -/
theorem performStart (owned : s.Owned) {generation : Nat} (here : s.holder = some (.performStart generation)) :
    (s.performStart generation).Owned := by
  have plain := owned.idle_of_terminated fun _ _ _ => by rw [here]; nofun
  unfold GpuWorkerSupervisor.performStart
  split
  · rename_i due
    obtain ⟨rfl, starting⟩ := due
    have fresh := owned.not_started here (fun h => h) starting
    exact { owned with
      starting := fun _ started => absurd started fresh
      promised := fun operation there => by
        cases there
        exact ⟨rfl, Nat.le_refl _, fun _ => starting, fresh⟩
      child := fun c alive => ⟨(owned.child c alive).1, .inr (.inr ⟨_, rfl, rfl⟩)⟩
      terminated := fun t there => ⟨(owned.terminated t there).1, fun same requestable => by
        subst same
        rw [plain there] at requestable
        cases requestable⟩
      pending := fun operation decision there => by
        cases there
        exact nofun }
  · exact owned.goto (fun c alive => .inl (owned.calm here (by simp [Operation.rest]) rfl alive))
      (fun starting started => absurd started (owned.not_started here (fun h => h) starting)) plain trivial
      (fun _ => nofun)

/-- A start ends the earlier child, and leaves at most its own. -/
theorem start (owned : s.Owned) {request : Option (RerankRequest κ)} {generation : Nat}
    (here : s.holder = some (.start request generation)) (answer : GpuWorkerTransportAnswer κ) :
    (s.start request generation answer).Owned := by
  obtain ⟨transport, bound, state, fresh⟩ := owned.promised _ here
  have plain := owned.idle_of_terminated fun _ _ _ => by rw [here]; nofun
  have alive {c : Nat} (left : (if answer.leavesChild then some generation else none) = some c) :
      c = generation := by
    split at left
    · exact (Option.some.inj left).symm
    · cases left
  exact {
    startedLe := fun g member => by
      rcases List.mem_cons.mp member with rfl | before
      · exact bound
      · exact owned.startedLe g before
    nodup := List.nodup_cons.mpr ⟨fresh, owned.nodup⟩
    fresh := fun idle member => by
      rcases List.mem_cons.mp member with same | before
      · have starting := state same.symm
        rcases idle with h | h <;> exact absurd (starting.symm.trans h) nofun
      · exact owned.fresh idle before
    starting := fun starting member => by
      rcases List.mem_cons.mp member with same | before
      · exact ⟨_, rfl, same.symm⟩
      · exact absurd before (owned.not_started here (fun h => h) starting)
    promised := fun operation there => by
      cases there
      refine ⟨transport, bound, state, ?_⟩
      show (if answer.leavesChild then some generation else none) = none ∨
        (if answer.leavesChild then some generation else none) = some generation
      split
      · exact .inr rfl
      · exact .inl rfl
    child := fun c left => by
      rw [alive left]
      exact ⟨List.mem_cons_self, .inl transport⟩
    terminated := fun t there => ⟨(owned.terminated t there).1, fun same requestable => by
      have requestable : s.internalState.isRequestable = true := requestable
      subst same
      rw [plain there] at requestable
      cases requestable⟩
    terminatedStarting := owned.terminatedStarting
    uses := fun requestID response source g member => by
      have before : .used requestID response source g ∈ s.history := (List.mem_cons.mp member).resolve_left nofun
      obtain ⟨same, started, own⟩ := owned.uses requestID response source g before
      exact ⟨same, List.mem_cons_of_mem _ started, own⟩
    answers := fun decision member => backed_cons (owned.answers decision ((List.mem_cons.mp member).resolve_left nofun)) _
    pending := fun operation decision there => by
      cases there
      exact nofun }

/-- A finished start makes its child the current one, or gives it up. -/
theorem finishStart (owned : s.Owned) {request : Option (RerankRequest κ)} {generation : Nat}
    {failure : Option GpuWorkerFailure} (here : s.holder = some (.finishStart request generation failure)) :
    (s.finishStart request generation failure).Owned := by
  obtain ⟨transport, bound, state, left⟩ := owned.promised _ here
  have plain := owned.idle_of_terminated fun _ _ _ => by rw [here]; nofun
  have refuse (decision : GpuWorkerRerankDecision κ) : .answer decision ∉ afterStart request := by
    cases request <;> simp [afterStart]
  have calm {c : Nat} (alive : s.child = some c) : s.transportGeneration = some c :=
    owned.calm here (by simp [Operation.rest]) rfl alive
  unfold GpuWorkerSupervisor.finishStart
  split
  · rename_i current
    obtain ⟨rfl, starting⟩ := current
    have undone {t : Nat} (there : s.terminatedGeneration = some t) : t ≠ s.generation := fun same =>
      (owned.terminatedStarting t there same).2.1 starting
    cases failure with
    | some failure =>
      exact owned.goto (fun c alive => .inl (calm alive)) (fun _ _ => rfl) plain
        ⟨Nat.le_refl _, fun _ => .inr starting⟩ (fun decision member => absurd member (refuse decision))
    | none =>
      have ready {probation : Prop} [Decidable probation] :
          (if probation then SupervisorState.probation else .ready) ≠ .stopped ∧
            (if probation then SupervisorState.probation else .ready) ≠ .starting ∧
            (if probation then SupervisorState.probation else .ready) ≠ .retryPending := by
        split <;> exact ⟨nofun, nofun, nofun⟩
      exact { owned with
        fresh := fun idle => by
          rcases idle with h | h
          · exact absurd h ready.1
          · exact absurd h ready.2.2
        starting := fun h => absurd h ready.2.1
        promised := fun operation there => by
          cases there
          cases request <;> trivial
        child := fun c alive => ⟨(owned.child c alive).1, .inl (calm alive)⟩
        terminated := fun t there => ⟨(owned.terminated t there).1, fun same => absurd same (undone there)⟩
        terminatedStarting := fun t there same => absurd same (undone there)
        pending := fun operation decision there => by
          cases there
          cases request <;> exact nofun }
  · rename_i overtaken
    unfold abandonStart
    exact { owned with
      starting := fun starting started => by
        obtain ⟨other, there, attempts⟩ := owned.starting starting started
        rw [here] at there
        cases there
        exact absurd ⟨attempts.symm, starting⟩ overtaken
      promised := fun operation there => by
        cases there
        trivial
      child := fun c alive => ⟨(owned.child c alive).1, .inr (.inl ⟨_, rfl, List.mem_cons_self⟩)⟩
      terminated := fun t there => ⟨(owned.terminated t there).1, fun same requestable => by
        subst same
        rw [plain there] at requestable
        cases requestable⟩
      pending := fun operation decision there member => by
        cases there
        exact absurd ((List.mem_cons.mp member).resolve_left nofun) (refuse decision) }

/-- A request goes to the child of the current generation. -/
theorem prepareRequest (owned : s.Owned) {request : RerankRequest κ}
    (here : s.holder = some (.prepareRequest request)) : (s.prepareRequest request).Owned := by
  have plain := owned.idle_of_terminated fun _ _ _ => by rw [here]; nofun
  have calm {c : Nat} (alive : s.child = some c) : s.transportGeneration = some c :=
    owned.calm here (by simp [Operation.rest]) rfl alive
  have fresh (starting : s.internalState = .starting) := owned.not_started here (fun h => h) starting
  unfold GpuWorkerSupervisor.prepareRequest
  split
  · rename_i current
    have asked : { s with holder := some (.request request (s.nextRequestID + 1) s.generation) }.Owned :=
      owned.goto (fun c alive => .inl (calm alive)) (fun starting started => absurd started (fresh starting)) plain
        ⟨current.2, Nat.le_refl _, fun _ => current.1⟩ (fun _ => nofun)
    exact { asked with }
  · refine owned.goto (fun c alive => .inl (calm alive)) (fun starting started => absurd started (fresh starting)) plain
      trivial fun decision member => ?_
    obtain rfl : decision = _ := by simpa [Operation.rest, classicDecision] using member
    exact nofun

/-- A response comes from the child that the request went to. -/
theorem request (owned : s.Owned) {request : RerankRequest κ} {requestID generation : Nat}
    (here : s.holder = some (.request request requestID generation)) (answer : GpuWorkerTransportAnswer κ) :
    (s.request request requestID generation answer).Owned := by
  obtain ⟨transport, bound, state⟩ := owned.promised _ here
  have plain := owned.idle_of_terminated fun _ _ _ => by rw [here]; nofun
  have calm {c : Nat} (alive : s.child = some c) : s.transportGeneration = some c :=
    owned.calm here (by simp [Operation.rest]) rfl alive
  refine owned.goto (fun c alive => .inl (calm alive))
    (fun starting started => absurd started (owned.not_started here (fun h => h) starting)) plain
    ⟨bound, state, fun response replied => ?_⟩ (fun _ => nofun)
  cases alive : s.child with
  | none =>
    rw [alive] at replied
    cases reply : answer.reply <;> rw [reply] at replied <;> cases replied
  | some c =>
    have same : some generation = some c := transport.symm.trans (calm alive)
    exact ⟨same.symm, (Option.some.inj same) ▸ (owned.child c alive).1⟩

/-- A decision that rests on the classic result needs no backing. -/
theorem classic_backed {request : RerankRequest κ} {failure : Option GpuWorkerRerankFailure}
    {decision : GpuWorkerRerankDecision κ} {history : List (SupervisorEvent κ)}
    (member : .answer decision ∈ [classicDecision request failure]) : decision.Backed history := by
  obtain rfl : decision = ⟨request.classic, false, failure⟩ := by simpa [classicDecision] using member
  exact nofun

/-- The reply to a request leads on to an end that rests on the classic result, or on a used response. -/
theorem handleReply (owned : s.Owned) {request : RerankRequest κ} {requestID generation : Nat} {source : Option Nat}
    {reply : GpuWorkerTransportReply κ} {late : Bool}
    (here : s.holder = some (.handleReply request requestID generation source reply late)) :
    (s.handleReply request requestID generation source reply late).Owned := by
  obtain ⟨bound, state, responds⟩ := owned.promised _ here
  have plain := owned.idle_of_terminated fun _ _ _ => by rw [here]; nofun
  have goto {operation : Operation κ} (promised : operation.Promised s.internalState s.generation
      s.transportGeneration s.child (startedGenerations s.history))
      (pending : ∀ decision, .answer decision ∈ operation.rest → decision.Backed s.history) :
      { s with holder := some operation }.Owned :=
    owned.goto (fun c alive => .inl (owned.calm here (by simp [Operation.rest]) rfl alive))
      (fun starting started => absurd started (owned.not_started here (fun h => h) starting)) plain promised pending
  have timedOut : { s with holder := some (.handleRankTimeout request.caller generation
      [classicDecision request (some .timeout)]) }.Owned :=
    goto ⟨bound, state⟩ fun _ => classic_backed
  have failed (reason : GpuWorkerQuarantineReason) : (s.failRequest request generation reason).Owned :=
    goto ⟨bound, fun same => .inl (state same)⟩ fun _ => classic_backed
  unfold GpuWorkerSupervisor.handleReply
  split
  · cases reply with
    | response response =>
      dsimp only
      split
      · exact goto ⟨bound, state⟩ fun _ => classic_backed
      · exact goto trivial fun _ => classic_backed
    | _ => exact timedOut
  cases reply with
  | timeout => exact timedOut
  | exit => exact failed .workerExit
  | crash => exact failed .crash
  | protocolMismatch => exact failed .workerProtocol
  | nativeFailure => exact failed .nativeFailure
  | response response =>
    obtain ⟨own, started⟩ := responds response rfl
    unfold handleResponse
    dsimp only
    split
    · rename_i current
      cases applied : response.apply requestID generation with
      | error failure => exact failed _
      | ok conversion =>
        obtain ⟨number, stamped, materialized⟩ := GpuWorkerResponse.apply_ok applied
        have noted : { s with holder := some (.noteRankSuccess generation []) }.Owned :=
          goto ⟨bound, state⟩ fun _ => nofun
        exact { noted with
          promised := fun operation there => by
            cases there
            exact ⟨bound, state⟩
          child := fun c alive => ⟨(owned.child c alive).1,
            .inl (owned.calm here (by simp [Operation.rest]) rfl alive)⟩
          starting := fun starting started => absurd started (owned.not_started here (fun h => h) starting)
          terminated := fun t there => ⟨(owned.terminated t there).1, fun same requestable => by
            subst same
            rw [plain there] at requestable
            cases requestable⟩
          uses := fun requestID' response' source' g member => by
            rcases List.mem_cons.mp member with same | before
            · cases same
              exact ⟨current ▸ own, current ▸ started, number, current ▸ stamped⟩
            · exact owned.uses requestID' response' source' g before
          answers := fun decision member =>
            backed_cons (owned.answers decision ((List.mem_cons.mp member).resolve_left nofun)) _
          pending := fun operation decision there member => by
            cases there
            obtain rfl : decision = ⟨conversion, true, none⟩ := by simpa [Operation.rest] using member
            exact fun _ => ⟨requestID, response, source, s.generation, List.mem_cons_self, materialized⟩ }
    · exact goto trivial fun _ => classic_backed

/-- An operation that comes to its end keeps what it still has to do. -/
theorem windUp (owned : s.Owned) {operation : Operation κ} (here : s.holder = some operation)
    (plain : ∀ reason generation rest, operation ≠ .quarantine reason generation rest)
    (start : operation.isStart = false) (idle : ¬ operation.attempts s.generation) :
    { s with holder := some (.finish operation.rest) }.Owned := by
  refine owned.goto (fun c alive => ?_)
    (fun starting started => absurd started (owned.not_started here idle starting))
    (owned.idle_of_terminated fun reason generation rest there => plain reason generation rest
      (Option.some.inj (here.symm.trans there))) trivial (fun decision => owned.pending operation decision here)
  by_cases ends : .terminate ∈ operation.rest
  · exact .inr (.inl ends)
  · exact .inl (owned.calm here ends start alive)

/-- A valid rank makes a worker on probation a ready one. -/
theorem noteRankSuccess (owned : s.Owned) {generation : Nat} {rest : List (OperationEnd κ)}
    (here : s.holder = some (.noteRankSuccess generation rest)) : (s.noteRankSuccess generation rest).Owned := by
  obtain ⟨bound, state⟩ := owned.promised _ here
  have plain := owned.idle_of_terminated fun _ _ _ => by rw [here]; nofun
  have ended : { s with holder := some (.finish rest) }.Owned :=
    owned.windUp here (fun _ _ _ => nofun) rfl (fun h => h)
  unfold GpuWorkerSupervisor.noteRankSuccess
  split
  · rename_i current
    have requestable := state current.symm
    have next : (if s.internalState = .probation then SupervisorState.ready else s.internalState).isRequestable = true := by
      split
      · rfl
      · exact requestable
    have undone {t : Nat} (there : s.terminatedGeneration = some t) : t ≠ s.generation := fun same => by
      subst same
      rw [plain there] at requestable
      cases requestable
    exact { ended.record (e := .validRank) rfl (fun _ _ _ _ => nofun) (fun _ => nofun) with
      fresh := fun still => by
        rcases still with h | h <;>
          exact absurd next (by dsimp only at h; rw [h]; nofun)
      starting := fun h => absurd next (by dsimp only at h; rw [h]; nofun)
      promised := fun operation there => by
        cases there
        trivial
      terminated := fun t there => ⟨(owned.terminated t there).1, fun same => absurd same (undone there)⟩
      terminatedStarting := fun t there same => absurd same (undone there) }
  · exact ended

/-- A timeout takes the transport from the child, and sees to its termination. -/
theorem handleRankTimeout (owned : s.Owned) {caller : GpuWorkerCaller} {generation : Nat}
    {rest : List (OperationEnd κ)} (here : s.holder = some (.handleRankTimeout caller generation rest)) :
    (s.handleRankTimeout caller generation rest).Owned := by
  have plain := owned.idle_of_terminated fun _ _ _ => by rw [here]; nofun
  have ended : { s with holder := some (.finish rest) }.Owned :=
    owned.windUp here (fun _ _ _ => nofun) rfl (fun h => h)
  have pending (decision : GpuWorkerRerankDecision κ) (member : .answer decision ∈ rest) :
      decision.Backed s.history := owned.pending _ decision here member
  unfold GpuWorkerSupervisor.handleRankTimeout
  split
  · rename_i current
    obtain ⟨rfl, requestable⟩ := current
    have due : s.terminatedGeneration ≠ some s.generation := fun done => by
      rw [plain done] at requestable
      cases requestable
    simp only [terminateUnless, due, decide_false, if_false, Bool.false_eq_true]
    -- Whatever the worker turns to, the termination of the child is the next thing to be done.
    cases state : s.internalState with
    | ready =>
      have opened := ended.newer .retryPending nofun fun t (there : some s.generation = some t) =>
        Nat.le_of_eq (Option.some.inj there).symm
      exact { opened.record (e := .timedOut caller .ready (some (s.generation + 1))) rfl (fun _ _ _ _ => nofun)
          (fun _ => nofun) with
        starting := nofun
        promised := fun operation there => by
          cases there
          trivial
        child := fun c alive => ⟨(owned.child c alive).1, .inr (.inl ⟨_, rfl, List.mem_cons_self⟩)⟩
        terminated := fun t there =>
          ⟨Nat.le_succ_of_le (Nat.le_of_eq (Option.some.inj there).symm), fun _ => nofun⟩
        pending := fun operation decision there member => by
          cases there
          exact backed_cons (pending decision (by simpa [Operation.rest] using member)) _ }
    | probation =>
      dsimp only
      split
      · exact { ended.record (e := .timedOut caller .probation none) rfl (fun _ _ _ _ => nofun) (fun _ => nofun) with
          fresh := fun still => by rcases still with h | h <;> cases h
          starting := nofun
          promised := fun operation there => by
            cases there
            trivial
          child := fun c alive => ⟨(owned.child c alive).1, .inr (.inl ⟨_, rfl, List.mem_cons_self⟩)⟩
          terminated := fun t there => ⟨Nat.le_of_eq (Option.some.inj there).symm, fun _ => nofun⟩
          terminatedStarting := fun _ _ _ => ⟨nofun, nofun, nofun⟩
          pending := fun operation decision there member => by
            cases there
            exact backed_cons (pending decision (by simpa [Operation.rest] using member)) _ }
      · exact { ended.record (e := .timedOut caller .probation none) rfl (fun _ _ _ _ => nofun) (fun _ => nofun) with
          fresh := fun still => by rcases still with h | h <;> cases h
          starting := nofun
          promised := fun operation there => by
            cases there
            exact ⟨Nat.le_refl _, fun _ => .inl rfl⟩
          child := fun c alive => ⟨(owned.child c alive).1, .inr (.inl ⟨_, rfl, List.mem_cons_self⟩)⟩
          terminated := fun t there => ⟨Nat.le_of_eq (Option.some.inj there).symm, fun same _ => by
            have same : t = s.generation := same
            subst same
            exact ⟨.timeout, _, rfl, List.mem_cons_self⟩⟩
          terminatedStarting := fun _ _ _ => ⟨nofun, nofun, nofun⟩
          pending := fun operation decision there member => by
            cases there
            exact backed_cons (pending decision (by simpa [Operation.rest] using member)) _ }
    | _ => rw [state] at requestable; cases requestable
  · exact ended

/-- A quarantine of the current generation ends its child, or leaves this to the rest of the operation. -/
theorem quarantine_ends (owned : s.Owned) {reason : GpuWorkerQuarantineReason} {rest : List (OperationEnd κ)}
    (here : s.holder = some (.quarantine reason s.generation rest)) :
    .terminate ∈ terminateUnless (s.terminatedGeneration = some s.generation) ++ rest := by
  obtain ⟨-, state⟩ := owned.promised _ here
  by_cases done : s.terminatedGeneration = some s.generation
  · -- The child of a generation that counts as terminated is on its way out with the rest.
    rcases state rfl with requestable | starting
    · obtain ⟨reason', rest', there, ending⟩ := (owned.terminated _ done).2 rfl requestable
      rw [here] at there
      cases there
      exact List.mem_append_right _ ending
    · exact absurd starting (owned.terminatedStarting _ done rfl).2.1
  · simp [terminateUnless, done]

/-- A quarantine takes the transport from the child, and sees to its termination. -/
theorem quarantine (owned : s.Owned) {reason : GpuWorkerQuarantineReason} {generation : Nat}
    {rest : List (OperationEnd κ)} (here : s.holder = some (.quarantine reason generation rest)) :
    (s.quarantine reason generation rest).Owned := by
  obtain ⟨bound, state⟩ := owned.promised _ here
  have pending (decision : GpuWorkerRerankDecision κ) (member : .answer decision ∈ rest) :
      decision.Backed s.history := owned.pending _ decision here member
  unfold GpuWorkerSupervisor.quarantine
  split
  · rename_i current
    subst current
    have ends := owned.quarantine_ends here
    split
    · rename_i quarantined
      rcases state rfl with requestable | starting
      · rw [quarantined] at requestable
        cases requestable
      · rw [quarantined] at starting
        cases starting
    · exact { owned with
        fresh := fun still => by rcases still with h | h <;> cases h
        starting := nofun
        promised := fun operation there => by
          cases there
          trivial
        child := fun c alive => ⟨(owned.child c alive).1, .inr (.inl ⟨_, rfl, ends⟩)⟩
        terminated := fun t there => ⟨Nat.le_of_eq (Option.some.inj there).symm, fun _ => nofun⟩
        terminatedStarting := fun _ _ _ => ⟨nofun, nofun, nofun⟩
        pending := fun operation decision there member => by
          cases there
          rcases List.mem_append.mp member with first | later
          · unfold terminateUnless at first
            split at first <;> simp at first
          · exact pending decision later }
  · rename_i overtaken
    have idle : ¬ generation = s.generation := fun same => overtaken same.symm
    refine owned.goto (fun c alive => ?_) (fun starting started => absurd started
      (owned.not_started here idle starting)) (fun done => ?_) trivial pending
    · by_cases ends : .terminate ∈ rest
      · exact .inr (.inl ends)
      · exact .inl (owned.calm here ends rfl alive)
    · by_contra requestable
      obtain ⟨reason', rest', there, -⟩ := (owned.terminated _ done).2 rfl (by simpa using requestable)
      rw [here] at there
      cases there
      exact overtaken rfl

/-- A reaper takes the transport from the child of its generation, and sees to its termination. -/
theorem terminateTransport (owned : s.Owned) {generation : Nat}
    (here : s.holder = some (.terminateTransport generation)) : (s.terminateTransport generation).Owned := by
  have ended : { s with holder := some (.finish []) }.Owned :=
    owned.windUp here (fun _ _ _ => nofun) rfl (fun h => h)
  unfold GpuWorkerSupervisor.terminateTransport
  split
  · exact { ended with
      starting := fun starting started => absurd started (owned.not_started here (fun h => h) starting)
      promised := fun operation there => by
        cases there
        trivial
      child := fun c alive => ⟨(owned.child c alive).1, .inr (.inl ⟨_, rfl, List.mem_cons_self⟩)⟩
      terminated := fun t there => ⟨(owned.terminated t there).1, fun same requestable => by
        obtain ⟨reason, rest, quarantines, -⟩ := (owned.terminated t there).2 same requestable
        rw [here] at quarantines
        cases quarantines⟩
      pending := fun operation decision there => by
        cases there
        exact fun member => by simp [Operation.rest] at member }
  · exact ended

/-- The operation lock is let go when nothing is left to be done. -/
theorem release (owned : s.Owned) (here : s.holder = some (.finish [])) : { s with holder := none }.Owned :=
  { owned with
    starting := fun starting started => absurd started (owned.not_started here (fun h => h) starting)
    promised := fun _ => nofun
    child := fun c alive => ⟨(owned.child c alive).1, .inl (owned.calm here nofun rfl alive)⟩
    terminated := fun t there => ⟨(owned.terminated t there).1, fun same requestable => by
      obtain ⟨reason, rest, quarantines, -⟩ := (owned.terminated t there).2 same requestable
      rw [here] at quarantines
      cases quarantines⟩
    pending := fun _ _ => nofun }

/-- The holder of the operation lock winds up. -/
theorem finish (owned : s.Owned) {rest : List (OperationEnd κ)} (here : s.holder = some (.finish rest)) :
    (s.finish rest).Owned := by
  cases rest with
  | nil => exact owned.release here
  | cons first rest =>
    have fresh (starting : s.internalState = .starting) := owned.not_started here (fun h => h) starting
    have plain := owned.idle_of_terminated fun _ _ _ => by rw [here]; nofun
    have pending (decision : GpuWorkerRerankDecision κ) (member : .answer decision ∈ rest) :
        decision.Backed s.history := owned.pending _ decision here (List.mem_cons_of_mem _ member)
    have onward (other : first ≠ .terminate) : { s with holder := some (.finish rest) }.Owned := by
      refine owned.goto (fun c alive => ?_) (fun starting started => absurd started (fresh starting)) plain trivial pending
      by_cases ends : .terminate ∈ rest
      · exact .inr (.inl ends)
      · refine .inl (owned.calm here (fun member => ?_) rfl alive)
        exact ends ((List.mem_cons.mp member).resolve_left fun same => other same.symm)
    cases first with
    | terminate =>
      exact { owned with
        starting := fun starting started => absurd started (fresh starting)
        promised := fun operation there => by
          cases there
          trivial
        child := fun _ => nofun
        terminated := fun t there => ⟨(owned.terminated t there).1, fun same requestable => by
          have requestable : s.internalState.isRequestable = true := requestable
          subst same
          rw [plain there] at requestable
          cases requestable⟩
        pending := fun operation decision there => by
          cases there
          exact pending decision }
    | scheduleAutoRetry generation => exact { onward nofun with }
    | refuse request =>
      exact (onward nofun).record rfl (fun _ _ _ _ => nofun) fun decision same => by
        cases same
        exact nofun
    | answer decision =>
      exact (onward nofun).record rfl (fun _ _ _ _ => nofun) fun decision' same => by
        cases same
        exact owned.pending _ _ here List.mem_cons_self

/-- Every step of the holder of the operation lock keeps what the ownership rests on. -/
theorem operate (owned : s.Owned) (answer : GpuWorkerTransportAnswer κ) : (s.operate answer).Owned := by
  unfold GpuWorkerSupervisor.operate
  split
  · exact owned
  · exact owned.ensureReady ‹_›
  · exact owned.start ‹_› answer
  · exact owned.finishStart ‹_›
  · exact owned.prepareRequest ‹_›
  · exact owned.request ‹_› answer
  · exact owned.handleReply ‹_›
  · exact owned.noteRankSuccess ‹_›
  · exact owned.handleRankTimeout ‹_›
  · exact owned.quarantine ‹_›
  · exact owned.performStart ‹_›
  · exact owned.terminateTransport ‹_›
  · exact owned.finish ‹_›

/-- A child that exits leaves the rest as it is. -/
theorem childExits (owned : s.Owned) : { s with child := none }.Owned :=
  { owned with
    promised := fun operation here => by
      have promised := owned.promised operation here
      cases operation with
      | finishStart request g failure => exact ⟨promised.1, promised.2.1, promised.2.2.1, .inl rfl⟩
      | _ => exact promised
    child := fun _ => nofun }

/-- Every step keeps what the ownership of the child rests on. -/
theorem step (owned : s.Owned) (op : SupervisorOp κ) : (s.step op).Owned := by
  cases op with
  | rerank request => exact owned.rerank request
  | startWarmUp => exact owned.startWarmUp
  | explicitRetry => exact owned.explicitRetry
  | modelOrRuntimeChanged => exact owned.modelOrRuntimeChanged
  | disable => exact owned.disable
  | acquire i => exact owned.acquire i
  | wake i => exact owned.wake i
  | operate answer => exact owned.operate answer
  | childExits => exact owned.childExits

/-- A supervisor that has started nothing owns nothing. -/
theorem init (allowsLazyStart graceEnabled : Bool) :
    (GpuWorkerSupervisor.init (κ := κ) allowsLazyStart graceEnabled).Owned where
  startedLe _ := nofun
  nodup := List.nodup_nil
  fresh _ := nofun
  starting := nofun
  promised _ := nofun
  child _ := nofun
  terminated _ := nofun
  terminatedStarting _ := nofun
  uses _ _ _ _ := nofun
  answers _ := nofun
  pending _ _ := nofun

end Owned

end GpuWorkerSupervisor

end Nospacekey
