import Nospacekey.Engine.EngineHost
import Nospacekey.Library.Interference

/-! A session belongs to the connection that started it, and to no other one. -/

namespace Nospacekey

open Protocol Runs Interference

variable {σ ρ χ κ δ ω : Type}

namespace ConversionService

/-- The connection that a session belongs to. -/
def owner (service : ConversionService σ ρ κ) (session : Int) : Option Nat :=
  (service.sessions.lookup session).map SessionRecord.connection

/-- Both tables say which connection a session belongs to, and no number has been given out that is not
below the next one. -/
structure Consistent (service : ConversionService σ ρ κ) : Prop where
  entered : ∀ session connection, session ∈ service.sessionsOf connection ↔ service.owner session = some connection
  filled : ∀ connection, service.connectionSessions.lookup connection ≠ some []
  once : ∀ connection, (service.sessionsOf connection).Nodup
  below : ∀ session connection, service.owner session = some connection → session < service.nextId

/-- Nothing has changed that ownership goes by. -/
structure SameOwners (before after : ConversionService σ ρ κ) : Prop where
  owner : after.owner = before.owner
  connections : after.connectionSessions = before.connectionSessions
  nextId : after.nextId = before.nextId

section Owners

variable {service after : ConversionService σ ρ κ} (code : ConversionCode σ ρ χ κ δ ω)

/-- An owner is what a lookup finds. -/
theorem connectionOwns_eq (service : ConversionService σ ρ κ) (session : Int) (connection : Nat) :
    service.connectionOwns session connection = true ↔ service.owner session = some connection := by
  unfold connectionOwns owner
  cases service.sessions.lookup session <;> simp

theorem SameOwners.refl (service : ConversionService σ ρ κ) : SameOwners service service := ⟨rfl, rfl, rfl⟩

theorem SameOwners.trans {middle : ConversionService σ ρ κ} (first : SameOwners service middle)
    (second : SameOwners middle after) : SameOwners service after :=
  ⟨second.owner.trans first.owner, second.connections.trans first.connections, second.nextId.trans first.nextId⟩

/-- Services with the same sessions, connections and next number have the same owners. -/
theorem SameOwners.of_eq (sessions : after.sessions = service.sessions)
    (connections : after.connectionSessions = service.connectionSessions) (nextId : after.nextId = service.nextId) :
    SameOwners service after :=
  ⟨by unfold ConversionService.owner; rw [sessions], connections, nextId⟩

/-- Consistent tables stay so where ownership does not change. -/
theorem Consistent.of_same (consistent : service.Consistent) (same : SameOwners service after) : after.Consistent where
  entered session connection := by
    rw [same.owner, sessionsOf, same.connections]
    exact consistent.entered session connection
  filled connection := by
    rw [same.connections]
    exact consistent.filled connection
  once connection := by
    rw [sessionsOf, same.connections]
    exact consistent.once connection
  below session connection owned := by
    rw [same.owner] at owned
    rw [same.nextId]
    exact consistent.below session connection owned

/-- Work on a session leaves every session with its connection. -/
theorem work_same {β : Type} (service : ConversionService σ ρ κ) (session : Int) (run : σ → ρ → σ × ρ × β) :
    SameOwners service (service.work session run).1 := by
  unfold work
  cases found : service.sessions.lookup session with
  | none => exact .refl service
  | some record =>
    refine ⟨funext fun other => ?_, rfl, rfl⟩
    by_cases same : other = session
    · subst same
      simp [owner, found]
    · simp [owner, AList.lookup_insert_ne same]

/-- A service without sessions is consistent. -/
theorem new_consistent (shared : σ) : (new shared : ConversionService σ ρ κ).Consistent where
  entered session connection := by simp [new, sessionsOf, owner]
  filled connection := by simp [new]
  once connection := by simp [new, sessionsOf]
  below session connection owned := by simp [new, owner] at owned

/-- What is entered for a connection is entered in its own set. -/
theorem sessionsOf_insert (service : ConversionService σ ρ κ) (connection other : Nat) (ids : List Int)
    (table : Table Int (SessionRecord ρ)) (nextId : Int) :
    ({ service with
        nextId := nextId
        sessions := table
        connectionSessions := service.connectionSessions.insert connection ids } :
      ConversionService σ ρ κ).sessionsOf other =
      if other = connection then ids else service.sessionsOf other := by
  unfold sessionsOf
  by_cases same : other = connection
  · subst same
    simp
  · simp [AList.lookup_insert_ne same, same]

/-- A session that is started is entered in both tables. -/
theorem Consistent.startSession (consistent : service.Consistent) (connection : Nat) :
    (service.startSession code connection).1.Consistent := by
  have unknown : service.owner service.nextId = none := by
    cases owned : service.owner service.nextId with
    | none => rfl
    | some other => exact absurd (consistent.below _ other owned) (lt_irrefl _)
  have owners : ∀ session, (service.startSession code connection).1.owner session =
      if session = service.nextId then some connection else service.owner session := by
    intro session
    unfold ConversionService.startSession owner
    by_cases same : session = service.nextId
    · subst same
      simp
    · simp [AList.lookup_insert_ne same, same]
  have sets : ∀ other, (service.startSession code connection).1.sessionsOf other =
      if other = connection then (service.sessionsOf connection).insert service.nextId else service.sessionsOf other :=
    fun other => sessionsOf_insert service connection other _ _ _
  refine ⟨fun session other => ?_, fun other => ?_, fun other => ?_, fun session other owned => ?_⟩
  · rw [owners, sets]
    by_cases here : other = connection
    · subst here
      rw [if_pos rfl, List.mem_insert_iff, consistent.entered]
      by_cases same : session = service.nextId
      · simp [same]
      · simp [same]
    · rw [if_neg here, consistent.entered]
      by_cases same : session = service.nextId
      · subst same
        rw [unknown, if_pos rfl]
        simp [Ne.symm here]
      · rw [if_neg same]
  · have set : (service.startSession code connection).1.connectionSessions =
        service.connectionSessions.insert connection ((service.sessionsOf connection).insert service.nextId) := rfl
    rw [set]
    by_cases here : other = connection
    · subst here
      rw [AList.lookup_insert]
      intro empty
      have inside : service.nextId ∈ (service.sessionsOf other).insert service.nextId := List.mem_insert_self
      rw [Option.some.inj empty] at inside
      cases inside
    · rw [AList.lookup_insert_ne here]
      exact consistent.filled other
  · rw [sets]
    split
    · exact (consistent.once connection).insert
    · exact consistent.once other
  · rw [owners] at owned
    show session < service.nextId + 1
    split at owned
    · omega
    · have := consistent.below session other owned
      omega

/-- What is left of the table of connections when a session goes. -/
theorem lookup_withoutSession (table : Table Nat (List Int)) (connection other : Nat) (session : Int) :
    (withoutSession table connection session).lookup other =
      if other = connection then
        ((table.lookup connection).map fun ids => ids.filter fun id => id ≠ session).filter fun ids => !ids.isEmpty
      else table.lookup other := by
  unfold withoutSession
  by_cases same : other = connection
  · subst same
    cases found : table.lookup other with
    | none => simp [found]
    | some ids =>
      by_cases none' : (ids.filter fun id => id ≠ session).isEmpty = true
      · simp only [none', if_true, AList.lookup_erase, Option.map_some, Option.filter]
        simp
      · simp only [none', Bool.false_eq_true, if_false, AList.lookup_insert, Option.map_some, Option.filter]
        simp
  · rw [if_neg same]
    cases found : table.lookup connection with
    | none => rfl
    | some ids =>
      simp only
      split
      · exact AList.lookup_erase_ne same
      · exact AList.lookup_insert_ne same

/-- A session that ends leaves the others as they are. -/
theorem endSession_sessions (service : ConversionService σ ρ κ) (session other : Int) :
    (service.endSession code session).sessions.lookup other =
      if other = session then none else service.sessions.lookup other := by
  have removed : ∀ next : ConversionService σ ρ κ,
      (if next.sessions.entries.isEmpty then { next with shared := code.endComposition session next.shared }
        else next).sessions = next.sessions := by
    intro next
    split <;> rfl
  unfold endSession
  rw [removed]
  by_cases same : other = session
  · subst same
    rw [if_pos rfl]
    split
    · assumption
    · exact AList.lookup_erase _ _
  · rw [if_neg same]
    split
    · rfl
    · exact AList.lookup_erase_ne same

/-- A session that ends is taken from the connection that it belongs to. -/
theorem endSession_connections (service : ConversionService σ ρ κ) (session : Int) :
    (service.endSession code session).connectionSessions =
      match service.owner session with
      | none => service.connectionSessions
      | some connection => withoutSession service.connectionSessions connection session := by
  have removed : ∀ next : ConversionService σ ρ κ,
      (if next.sessions.entries.isEmpty then { next with shared := code.endComposition session next.shared }
        else next).connectionSessions = next.connectionSessions := by
    intro next
    split <;> rfl
  unfold endSession owner
  rw [removed]
  cases service.sessions.lookup session <;> rfl

/-- What a session that ends does not touch. -/
theorem endSession_rest (service : ConversionService σ ρ κ) (session : Int) :
    (service.endSession code session).nextId = service.nextId ∧
      (service.endSession code session).autoCommits = service.autoCommits := by
  unfold endSession
  constructor <;> (dsimp only; split <;> split <;> rfl)

/-- Who owns what when a session has ended. -/
theorem endSession_owner (service : ConversionService σ ρ κ) (session other : Int) :
    (service.endSession code session).owner other = if other = session then none else service.owner other := by
  unfold owner
  rw [endSession_sessions]
  split <;> rfl

/-- What is entered for a connection when a session has ended. -/
theorem Consistent.sessionsOf_endSession (consistent : service.Consistent) (session : Int) (connection : Nat) :
    (service.endSession code session).sessionsOf connection =
      (service.sessionsOf connection).filter fun id => id ≠ session := by
  -- Only the set of the session's own connection has the session.
  have outside : service.owner session ≠ some connection →
      (service.sessionsOf connection).filter (fun id => id ≠ session) = service.sessionsOf connection := by
    intro other
    refine List.filter_eq_self.mpr fun id member => ?_
    have owned := (consistent.entered id connection).mp member
    have different : id ≠ session := fun same => other (same ▸ owned)
    simpa using different
  rw [sessionsOf, endSession_connections]
  cases owned : service.owner session with
  | none => exact (outside (by rw [owned]; simp)).symm
  | some home =>
    simp only
    rw [lookup_withoutSession]
    by_cases here : connection = home
    · subst here
      rw [if_pos rfl, sessionsOf]
      cases service.connectionSessions.lookup connection with
      | none => rfl
      | some ids =>
        simp only [Option.map_some, Option.getD_some, Option.filter]
        split
        · rfl
        · rename_i empty
          simpa using empty
    · rw [if_neg here]
      exact (outside (by rw [owned]; simpa using Ne.symm here)).symm

/-- The tables stay consistent when a session ends. -/
theorem Consistent.endSession (consistent : service.Consistent) (session : Int) :
    (service.endSession code session).Consistent where
  entered other connection := by
    rw [consistent.sessionsOf_endSession, endSession_owner, List.mem_filter, consistent.entered]
    by_cases same : other = session
    · simp [same]
    · simp [same]
  filled connection := by
    rw [endSession_connections]
    cases owned : service.owner session with
    | none => exact consistent.filled connection
    | some home =>
      simp only
      rw [lookup_withoutSession]
      split
      · cases found : ((service.connectionSessions.lookup home).map fun ids => ids.filter fun id => id ≠ session).filter
            fun ids => !ids.isEmpty with
        | none => simp
        | some ids =>
          have := (Option.filter_eq_some_iff.mp found).2
          intro empty
          rw [Option.some.inj empty] at this
          cases this
      · exact consistent.filled connection
  once connection := by
    rw [consistent.sessionsOf_endSession]
    exact (consistent.once connection).filter _
  below other connection owned := by
    rw [endSession_owner] at owned
    rw [(endSession_rest code service session).1]
    split at owned
    · cases owned
    · exact consistent.below other connection owned

/-- Sessions that end one after the other leave the other ones as they are. -/
theorem foldl_endSession (ids : List Int) (consistent : service.Consistent) :
    (ids.foldl (endSession code) service).Consistent ∧
      (ids.foldl (endSession code) service).autoCommits = service.autoCommits ∧
      (ids.foldl (endSession code) service).nextId = service.nextId ∧
      (∀ other, (ids.foldl (endSession code) service).sessions.lookup other =
        if other ∈ ids then none else service.sessions.lookup other) := by
  -- Each session that ends is one less in the table, and nothing else is.
  induction ids generalizing service with
  | nil => exact ⟨consistent, rfl, rfl, fun other => by simp⟩
  | cons session ids ih =>
    obtain ⟨kept, commits, next, rest⟩ := ih (consistent.endSession code session)
    obtain ⟨nextId, autoCommits⟩ := endSession_rest code service session
    refine ⟨kept, commits.trans autoCommits, next.trans nextId, fun other => ?_⟩
    rw [List.foldl_cons, rest, endSession_sessions]
    by_cases same : other = session
    · simp [same]
    · simp [same]

/-- Entries of other keys do not matter to a key. -/
theorem connections_foldl_endSession (ids : List Int) (service : ConversionService σ ρ κ) (connection : Nat)
    (owned : ∀ id ∈ ids, service.owner id = some connection ∨ service.owner id = none) {other : Nat}
    (different : other ≠ connection) :
    (ids.foldl (endSession code) service).connectionSessions.lookup other =
      service.connectionSessions.lookup other := by
  induction ids generalizing service with
  | nil => rfl
  | cons session ids ih =>
    rw [List.foldl_cons, ih]
    · rw [endSession_connections]
      rcases owned session List.mem_cons_self with home | gone
      · simp only [home]
        rw [lookup_withoutSession, if_neg different]
      · simp only [gone]
    · intro id member
      rw [endSession_owner]
      split
      · exact .inr rfl
      · exact owned id (List.mem_cons_of_mem _ member)

/-- A connection that is cleaned up leaves nothing behind, and the others lose nothing. -/
structure CleanedUp (before after : ConversionService σ ρ κ) (connection : Nat) : Prop where
  sessions : ∀ session, after.sessions.lookup session =
    (before.sessions.lookup session).filter fun record => record.connection ≠ connection
  connections : ∀ other, after.connectionSessions.lookup other =
    if other = connection then none else before.connectionSessions.lookup other
  states : ∀ stream, after.autoCommits.states.lookup stream =
    if stream.connection = connection then none else before.autoCommits.states.lookup stream
  applied : ∀ stream, after.autoCommits.applied.lookup stream =
    if stream.connection = connection then none else before.autoCommits.applied.lookup stream

/-- A clean-up ends the sessions of a connection and forgets its streams. -/
theorem cleanupConnection_eq (service : ConversionService σ ρ κ) (connection : Nat) :
    let drained := (service.sessionsOf connection).foldl (endSession code) service
    let cleaned := service.cleanupConnection code connection
    cleaned.sessions = drained.sessions ∧ cleaned.nextId = drained.nextId ∧
      (∀ other, cleaned.connectionSessions.lookup other =
        if other = connection then none else drained.connectionSessions.lookup other) ∧
      (∀ stream, cleaned.autoCommits.states.lookup stream =
        if stream.connection = connection then none else drained.autoCommits.states.lookup stream) ∧
      ∀ stream, cleaned.autoCommits.applied.lookup stream =
        if stream.connection = connection then none else drained.autoCommits.applied.lookup stream := by
  have streams : ∀ {β : Type} (table : Table SnapshotAutoCommitStream β) (stream : SnapshotAutoCommitStream),
      (table.retain fun stream => stream.connection ≠ connection).lookup stream =
        if stream.connection = connection then none else table.lookup stream := by
    intro β table stream
    rw [Table.lookup_retain]
    by_cases home : stream.connection = connection <;> simp [home]
  unfold cleanupConnection sessionsOf
  cases found : service.connectionSessions.lookup connection with
  | none =>
    refine ⟨rfl, rfl, fun other => ?_, streams _, streams _⟩
    show service.connectionSessions.lookup other = if other = connection then none else
      service.connectionSessions.lookup other
    split
    · rename_i here
      rw [here, found]
    · rfl
  | some ids =>
    refine ⟨rfl, rfl, fun other => ?_, streams _, streams _⟩
    show ((ids.foldl (endSession code) service).connectionSessions.erase connection).lookup other =
      if other = connection then none else (ids.foldl (endSession code) service).connectionSessions.lookup other
    split
    · rename_i here
      rw [here]
      exact AList.lookup_erase _ _
    · rename_i different
      exact AList.lookup_erase_ne different

/-- Cleaning up a connection takes away what belongs to it. -/
theorem Consistent.cleanupConnection (consistent : service.Consistent) (connection : Nat) :
    (service.cleanupConnection code connection).Consistent ∧
      CleanedUp service (service.cleanupConnection code connection) connection ∧
      (service.cleanupConnection code connection).nextId = service.nextId := by
  obtain ⟨kept, commits, next, sessions⟩ := foldl_endSession code (service.sessionsOf connection) consistent
  have others : ∀ {other}, other ≠ connection →
      ((service.sessionsOf connection).foldl (ConversionService.endSession code) service).connectionSessions.lookup
        other = service.connectionSessions.lookup other :=
    connections_foldl_endSession code _ service connection fun id member =>
      .inl ((consistent.entered id connection).mp member)
  obtain ⟨records, nextId, connections, states, applied⟩ := cleanupConnection_eq code service connection
  generalize (service.sessionsOf connection).foldl (ConversionService.endSession code) service = drained at *
  generalize service.cleanupConnection code connection = cleaned at *
  -- The sessions of the connection are those whose records name it.
  have left : ∀ session, cleaned.sessions.lookup session =
      (service.sessions.lookup session).filter fun record => record.connection ≠ connection := by
    intro session
    rw [records, sessions]
    have entered := consistent.entered session connection
    unfold owner at entered
    cases found : service.sessions.lookup session with
    | none => simp
    | some record =>
      rw [found] at entered
      by_cases home : record.connection = connection
      · rw [if_pos (entered.mpr (congrArg some home))]
        simp [home, Option.filter]
      · rw [if_neg fun member => home (Option.some.inj (entered.mp member))]
        simp [home, Option.filter]
  have owners : ∀ session, cleaned.owner session =
      if service.owner session = some connection then none else service.owner session := by
    intro session
    unfold owner
    rw [left]
    cases service.sessions.lookup session with
    | none => simp
    | some record => by_cases home : record.connection = connection <;> simp [home, Option.filter]
  have tables : ∀ other, cleaned.connectionSessions.lookup other =
      if other = connection then none else service.connectionSessions.lookup other := by
    intro other
    rw [connections]
    split
    · rfl
    · rename_i different
      exact others different
  have sets : ∀ other, cleaned.sessionsOf other = if other = connection then [] else service.sessionsOf other := by
    intro other
    rw [sessionsOf, tables]
    split <;> rfl
  rw [commits] at states applied
  refine ⟨⟨fun session other => ?_, fun other => ?_, fun other => ?_, fun session other owned => ?_⟩,
    ⟨left, tables, states, applied⟩, nextId.trans next⟩
  · rw [sets, owners]
    by_cases here : other = connection
    · subst here
      rw [if_pos rfl]
      split <;> simp_all
    · rw [if_neg here, consistent.entered]
      split
      · rename_i home
        rw [home]
        simpa using Ne.symm here
      · rfl
  · rw [tables]
    split
    · simp
    · exact consistent.filled other
  · rw [sets]
    split
    · exact List.nodup_nil
    · exact consistent.once other
  · rw [owners] at owned
    rw [nextId.trans next]
    split at owned
    · cases owned
    · exact consistent.below session other owned

end Owners

end ConversionService

namespace EngineHost

open ConversionService

variable (swift : SwiftString) (module : KanaKanjiConverterModule χ κ) (limit : Nat) (code : ConversionCode σ ρ χ κ δ ω)

/-- The session that an answer hands out. -/
def issued : Protocol.Response δ → Option Int
  | .session id .. => some id
  | _ => none

section Requests

variable {host : EngineHost σ ρ κ}

/-- An answer for a session hands out none. -/
theorem issued_answer {β : Type} (result : ConversionService σ ρ κ × Option β) {respond : β → Protocol.Response δ}
    (quiet : ∀ value, issued (respond value) = none) : issued (answer result respond).2.1 = none := by
  unfold answer
  cases result.2 with
  | none => rfl
  | some value => exact quiet value

/-- A view of clauses hands out no session. -/
theorem issued_clauseAnswer (result : ConversionService σ ρ κ × Option (Option ClauseView)) :
    issued (δ := δ) (clauseAnswer result).2.1 = none ∧ (clauseAnswer (δ := δ) result).1 = result.1 := by
  unfold clauseAnswer
  split <;> exact ⟨rfl, rfl⟩

/-- What a request under the service lock does to ownership: one starts a session, one ends a session, and all
others leave every session with its connection. -/
theorem dispatch_cases (host : EngineHost σ ρ κ) (connection : Nat) (request : Request) (world : ω) :
    let result := host.dispatch swift module limit code connection request world
    (result.1.service = (host.service.startSession code connection).1 ∧
        issued result.2.1 = some host.service.nextId) ∨
      (∃ session, result.1.service = host.service.endSession code session ∧ issued result.2.1 = none) ∨
      (SameOwners host.service result.1.service ∧ issued result.2.1 = none) := by
  have frame : ∀ shared : σ, SameOwners host.service { host.service with shared := shared } :=
    fun shared => .of_eq rfl rfl rfl
  cases request with
  | startSession => exact .inl ⟨rfl, rfl⟩
  | endSession session => exact .inr (.inl ⟨session, rfl, rfl⟩)
  | insert session text style =>
    exact .inr (.inr ⟨work_same _ _ _, issued_answer _ fun _ => rfl⟩)
  | backspace session => exact .inr (.inr ⟨work_same _ _ _, issued_answer _ fun _ => rfl⟩)
  | convert session leftContext => exact .inr (.inr ⟨work_same _ _ _, issued_answer _ fun _ => rfl⟩)
  | typoConvert session leftContext => exact .inr (.inr ⟨work_same _ _ _, issued_answer _ fun _ => rfl⟩)
  | reconvert session surface leftContext => exact .inr (.inr ⟨work_same _ _ _, issued_answer _ fun _ => rfl⟩)
  | liveConvert session seq leftContext autoCommit =>
    exact .inr (.inr ⟨work_same _ _ _, issued_answer _ fun _ => rfl⟩)
  | commit session index =>
    refine .inr (.inr ⟨?_, issued_answer _ fun _ => rfl⟩)
    exact work_same host.service session fun shared work => code.commit session index shared work world
  | moveClause session offset baseIndex leftContext =>
    obtain ⟨quiet, same⟩ := issued_clauseAnswer (δ := δ) (host.service.work session fun shared work =>
      code.moveClause session offset baseIndex leftContext shared work world)
    refine .inr (.inr ⟨?_, quiet⟩)
    show SameOwners host.service (clauseAnswer (δ := δ) _).1
    rw [same]
    exact work_same _ _ _
  | selectClauseCandidate session index =>
    obtain ⟨quiet, same⟩ := issued_clauseAnswer (δ := δ) (host.service.work session fun shared work =>
      code.selectClauseCandidate session index shared work world)
    refine .inr (.inr ⟨?_, quiet⟩)
    show SameOwners host.service (clauseAnswer (δ := δ) _).1
    rw [same]
    exact work_same _ _ _
  | commitClauses session =>
    refine .inr (.inr ?_)
    unfold dispatch
    dsimp only
    split <;> exact ⟨work_same _ _ _, rfl⟩
  | llmConvert session seq leftContext =>
    refine .inr (.inr ?_)
    unfold dispatch
    dsimp only
    split
    · exact ⟨.refl _, rfl⟩
    · split <;> exact ⟨.refl _, rfl⟩
  | autoCommitReceipt composition revision configurationGeneration connectionGeneration proposal =>
    refine .inr (.inr ⟨.of_eq rfl rfl rfl, ?_⟩)
    unfold dispatch
    dsimp only
    split <;> rfl
  | reloadConfig params =>
    refine .inr (.inr ⟨frame _, ?_⟩)
    unfold dispatch
    dsimp only
    split <;> rfl
  | prepareMaintenance =>
    refine .inr (.inr ?_)
    unfold dispatch beginMaintenanceShutdownIfIdle
    dsimp only
    split <;> exact ⟨.of_eq rfl rfl rfl, rfl⟩
  | liveSnapshot => exact .inr (.inr ⟨.of_eq rfl rfl rfl, rfl⟩)
  | shutdown => exact .inr (.inr ⟨frame _, rfl⟩)
  | _ => exact .inr (.inr ⟨frame _, rfl⟩)

/-- The session that is handed out with an answer, if it is an answer that hands out one. -/
def handedOut (reply : Option (Nat × Reply δ)) : Option Int := reply.bind fun reply => issued reply.2.1

/-- A step starts a session, ends one, cleans up a connection or changes no ownership. -/
inductive Moves (before after : ConversionService σ ρ κ) (reply : Option (Nat × Reply δ)) : Prop
  | started (connection : Nat) (now : after = (before.startSession code connection).1)
    (told : handedOut reply = some before.nextId)
  | ended (session : Int) (now : after = before.endSession code session) (told : handedOut reply = none)
  | cleaned (connection : Nat) (now : after = before.cleanupConnection code connection)
    (told : handedOut reply = none)
  | same (now : SameOwners before after) (told : handedOut reply = none)

/-- A request moves the service as it is dispatched, if it is. -/
theorem handle_moves (host : EngineHost σ ρ κ) (connection : Nat) (request : Request) (world : ω) :
    Moves code host.service (sent connection (host.handle swift module limit code connection request world)).1.service
      (sent connection (host.handle swift module limit code connection request world)).2 := by
  -- The requests that come before the service lock, and those under it.
  have locked : ∀ request : Request,
      let cancelled : EngineHost σ ρ κ := { host with prediction := host.prediction.cancel }
      let result := if request.sessionId.any fun session => !cancelled.service.connectionOwns session connection then
          (cancelled, some (noSession, false))
        else if cancelled.service.maintenanceShutdownPending then
          (cancelled, some (.error "maintenance shutdown in progress".toList, false))
        else
          let dispatched := cancelled.dispatch swift module limit code connection request world
          (dispatched.1, some dispatched.2)
      Moves code host.service (sent connection result).1.service (sent connection result).2 := by
    intro request
    dsimp only
    split
    · exact .same (.refl _) rfl
    · split
      · exact .same (.refl _) rfl
      · rcases dispatch_cases swift module limit code { host with prediction := host.prediction.cancel } connection
          request world with ⟨now, told⟩ | ⟨session, now, told⟩ | ⟨now, told⟩
        · exact .started connection now told
        · exact .ended session now told
        · exact .same now told
  cases request with
  | queryZenzaiStatus => exact .same (.refl _) rfl
  | ping => exact .same (.refl _) rfl
  | retryZenzai => exact .same (.of_eq rfl rfl rfl) rfl
  | pollSnapshotEnhancement =>
    refine .same (.of_eq rfl rfl rfl) ?_
    unfold handle
    dsimp only
    split <;> rfl
  | predict session seq tokenIds =>
    unfold handle
    dsimp only
    split
    · exact .same (.refl _) rfl
    · split <;> exact .same (.refl _) rfl
  | clearLearning =>
    unfold handle
    dsimp only
    split
    · exact .same (.refl _) rfl
    · exact .same (.of_eq rfl rfl rfl) rfl
  | _ => exact locked _

/-- Every step moves the service in one of these ways. -/
theorem step_moves (host : EngineHost σ ρ κ) (event : HostEvent ω) :
    Moves code host.service (host.step swift module limit code event).1.service
      (host.step swift module limit code event).2 := by
  cases event with
  | request connection request world =>
    unfold step
    dsimp only
    split
    · exact .same (.refl _) rfl
    · exact handle_moves swift module limit code host connection request world
  | capture connection =>
    unfold step capture
    dsimp only
    split
    · split <;> exact .same (.refl _) rfl
    · exact .same (.refl _) rfl
  | generate connection =>
    unfold step generate
    dsimp only
    split
    · split <;> exact .same (.refl _) rfl
    · exact .same (.refl _) rfl
  | poll connection =>
    unfold step poll
    dsimp only
    split <;> exact .same (.refl _) rfl
  | finish connection running world =>
    unfold step finish
    dsimp only
    split
    · split
      · split <;> exact .same (.refl _) rfl
      · split <;> exact .same (.refl _) rfl
    · exact .same (.refl _) rfl
  | finishClear connection world =>
    unfold step finishClear
    dsimp only
    split
    · refine .same (.of_eq rfl rfl rfl) ?_
      unfold sent handedOut
      dsimp only
      split <;> rfl
    · exact .same (.refl _) rfl
  | install loaded generation => exact .same (.refl _) rfl
  | markLoadFailed generation => exact .same (.refl _) rfl
  | background world => exact .same (.of_eq rfl rfl rfl) rfl
  | disconnect connection =>
    unfold step
    dsimp only
    split
    · exact .same (.refl _) rfl
    · exact .cleaned connection rfl rfl

variable {swift module limit code}

/-- A step keeps the tables consistent, and takes the number that it hands out. -/
theorem Moves.consistent {before after : ConversionService σ ρ κ} {reply : Option (Nat × Reply δ)}
    (moves : Moves code before after reply) (consistent : before.Consistent) :
    after.Consistent ∧ (handedOut reply = none ∧ after.nextId = before.nextId ∨
      handedOut reply = some before.nextId ∧ after.nextId = before.nextId + 1) := by
  cases moves with
  | started connection now told => exact now ▸ ⟨consistent.startSession code connection, .inr ⟨told, rfl⟩⟩
  | ended session now told =>
    exact now ▸ ⟨consistent.endSession code session, .inl ⟨told, (endSession_rest code before session).1⟩⟩
  | cleaned connection now told =>
    obtain ⟨kept, _, next⟩ := consistent.cleanupConnection code connection
    exact now ▸ ⟨kept, .inl ⟨told, next⟩⟩
  | same now told => exact ⟨consistent.of_same now, .inl ⟨told, now.nextId⟩⟩

end Requests

section Runs

/-- The sessions that a run hands out. -/
def handedOutBy (host : EngineHost σ ρ κ) (events : List (HostEvent ω)) : List Int :=
  (answers (fun host event => step swift module limit code host event) host events).filterMap fun reply =>
    issued reply.2.1

/-- The tables are consistent after every run, and no session has a number that another one had. -/
theorem run_consistent {host : EngineHost σ ρ κ} (consistent : host.service.Consistent)
    (events : List (HostEvent ω)) :
    (exec (apply fun host event => step swift module limit code host event) host events).service.Consistent ∧
      (handedOutBy swift module limit code host events).Pairwise (· < ·) ∧
      ∀ id ∈ handedOutBy swift module limit code host events, host.service.nextId ≤ id := by
  induction events generalizing host with
  | nil => exact ⟨consistent, .nil, by simp [handedOutBy, answers]⟩
  | cons event events ih =>
    obtain ⟨kept, told⟩ := (step_moves swift module limit code host event).consistent consistent
    obtain ⟨after, ordered, above⟩ := ih kept
    refine ⟨after, ?_⟩
    have first : handedOutBy swift module limit code host (event :: events) =
        (handedOut (host.step swift module limit code event).2).toList ++
          handedOutBy swift module limit code (host.step swift module limit code event).1 events := by
      unfold handedOutBy
      rw [answers, List.filterMap_append]
      congr 1
      unfold handedOut
      cases (host.step swift module limit code event).2 with
      | none => rfl
      | some reply => cases quiet : issued reply.2.1 <;> simp [quiet]
    rw [first]
    rcases told with ⟨quiet, next⟩ | ⟨handed, next⟩
    · rw [quiet]
      exact ⟨ordered, fun id member => next ▸ above id member⟩
    · rw [handed]
      refine ⟨List.pairwise_cons.mpr ⟨fun id member => ?_, ordered⟩, fun id member => ?_⟩
      · have := above id member
        omega
      · rcases List.mem_cons.mp member with same | later
        · exact le_of_eq same.symm
        · have := above id later
          omega

end Runs

end EngineHost

end Nospacekey
