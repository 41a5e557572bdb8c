import Nospacekey.Clause.Waits

/-! Chains of requests keep the deadline of their first one, and rebaseline at most once. -/

namespace Nospacekey

open Runs

variable {τ : Type}

/-- The requests that continue one another, from a fresh one at its time on, and how many of them a rebaseline asked. -/
structure Chain where
  start : Nat
  keys : List ClauseRequestKey
  rebaselines : Nat
  deriving DecidableEq, Repr

/-- The chain with another request, if it is the one that this continues. -/
def Chain.extend (source key : ClauseRequestKey) (rebaselines : Nat) (chain : Chain) : Chain :=
  if source ∈ chain.keys then
    { chain with keys := chain.keys ++ [key], rebaselines := chain.rebaselines + rebaselines }
  else chain

/-- The chains after a request was asked. -/
def follow (chains : List Chain) : ClauseConversion.Ask → List Chain
  | .fresh key start => chains ++ [{ start := start, keys := [key], rebaselines := 0 }]
  | .rebaselined source key => chains.map (Chain.extend source key 1)
  | .rebased source key => chains.map (Chain.extend source key 0)

/-- A session with the chains of all requests that its model has returned, and all request ids in order. -/
structure Trace (τ : Type) where
  session : Session τ
  chains : List Chain
  asked : List Nat

namespace Trace

open ClauseConversion Session

variable [EngineToken τ]

/-- The trace after one operation. A rebaseline attempt hands out the id of its snapshot request. -/
def apply (segmentation : Segmentation) (t : Trace τ) (op : ClauseOp τ) : Trace τ where
  session := t.session.apply segmentation op
  chains := (t.session.model.asks op).elim t.chains (follow t.chains)
  asked := t.asked ++ (t.session.model.prepared op).toList.map ClauseRebaseline.snapshotRequestId ++
    (t.session.model.asks op).toList.map fun ask => ask.key.requestId

def Admits (t : Trace τ) (op : ClauseOp τ) : Prop := t.session.Admits op

/-- Every request belongs to one chain, which gives its deadline, and a chain that was rebaselined is not again. -/
structure Chained (t : Trace τ) : Prop where
  sound : t.session.model.Sound
  kept : t.session.Kept
  settled : ∀ chain ∈ t.chains, ∀ key ∈ chain.keys, t.session.Settled key.requestId
  apart : ∀ chain ∈ t.chains, ∀ chain' ∈ t.chains, ∀ key ∈ chain.keys, ∀ key' ∈ chain'.keys,
    key.requestId = key'.requestId → chain = chain' ∧ key = key'
  pending : ∀ entry, t.session.model.Pending entry → ∃ chain ∈ t.chains, entry.request.key ∈ chain.keys ∧
    entry.deadline = chain.start + requestLifetime ∧ (0 < chain.rebaselines → entry.rebaselineUsed = true)
  attempts : ∀ attempt ∈ t.session.attempts, ∃ chain ∈ t.chains, attempt.original.request.key ∈ chain.keys ∧
    (0 < chain.rebaselines → ¬t.session.model.Outstanding attempt.original.request.key.requestId)
  once : ∀ chain ∈ t.chains, chain.rebaselines ≤ 1
  asked : ∀ id ∈ t.asked, t.session.Settled id
  increasing : t.asked.Pairwise (· < ·)

section Steps

variable {t : Trace τ} {op : ClauseOp τ} {chain : Chain} (segmentation : Segmentation)

omit [EngineToken τ] in
/-- Extending keeps the requests a chain has. -/
theorem mem_extend {source key other : ClauseRequestKey} {rebaselines : Nat} {chain : Chain} :
    other ∈ (chain.extend source key rebaselines).keys ↔
      other ∈ chain.keys ∨ source ∈ chain.keys ∧ other = key := by
  unfold Chain.extend
  split
  · rename_i member
    simp [member]
  · rename_i absent
    simp [absent]

omit [EngineToken τ] in
/-- Extending keeps the time a chain started. -/
@[simp] theorem extend_start (source key : ClauseRequestKey) (rebaselines : Nat) (chain : Chain) :
    (chain.extend source key rebaselines).start = chain.start := by
  unfold Chain.extend
  split <;> rfl

omit [EngineToken τ] in
/-- What is waited for is outstanding under its id. -/
theorem outstanding_of_pending {m : ClauseConversion τ} (numbered : m.Numbered) {entry : IssuedCandidates}
    (pending : m.Pending entry) : m.Outstanding entry.request.key.requestId := by
  rcases pending with ⟨id, found⟩ | found
  · rw [numbered.issued id entry found]
    exact .inl ⟨entry, found⟩
  · exact .inr ⟨entry, found, rfl⟩

omit [EngineToken τ] in
/-- Chains stay apart when a request under a new id continues one of them. -/
theorem apart_extend {chains : List Chain} {source key : ClauseRequestKey} {rebaselines : Nat}
    (apart : ∀ chain ∈ chains, ∀ chain' ∈ chains, ∀ key ∈ chain.keys, ∀ key' ∈ chain'.keys,
      key.requestId = key'.requestId → chain = chain' ∧ key = key')
    (new : ∀ chain ∈ chains, ∀ other ∈ chain.keys, other.requestId ≠ key.requestId) :
    ∀ chain ∈ chains.map (Chain.extend source key rebaselines),
      ∀ chain' ∈ chains.map (Chain.extend source key rebaselines), ∀ key ∈ chain.keys, ∀ key' ∈ chain'.keys,
        key.requestId = key'.requestId → chain = chain' ∧ key = key' := by
  intro extended inChains extended' inChains' a member a' member' same
  obtain ⟨chain, inOld, rfl⟩ := List.mem_map.mp inChains
  obtain ⟨chain', inOld', rfl⟩ := List.mem_map.mp inChains'
  rcases mem_extend.mp member with old | ⟨from', rfl⟩
  · rcases mem_extend.mp member' with old' | ⟨_, rfl⟩
    · obtain ⟨rfl, rfl⟩ := apart chain inOld chain' inOld' a old a' old' same
      exact ⟨rfl, rfl⟩
    · exact absurd same (new chain inOld a old)
  · rcases mem_extend.mp member' with old' | ⟨from'', rfl⟩
    · exact absurd same.symm (new chain' inOld' a' old')
    · obtain ⟨rfl, _⟩ := apart chain inOld chain' inOld' source from' source from'' rfl
      exact ⟨rfl, rfl⟩

/-- A request that a rebaseline asks is under the id that its attempt has reserved. -/
theorem asks_rebaselined {m : ClauseConversion τ} {source key : ClauseRequestKey}
    (asked : m.asks op = some (.rebaselined source key)) : ∃ attempt response learning now,
      op = .acceptRebaseline attempt response learning now ∧ source = attempt.original.request.key ∧
        key.requestId = attempt.convertRequestId := by
  cases op with
  | acceptRebaseline attempt response learning now =>
    refine ⟨attempt, response, learning, now, rfl, ?_⟩
    rcases acceptRebaseline_cases m attempt response learning now with same | ⟨request, _, _, _, id, _, _, _, result⟩
    · simp [asks, same] at asked
    · simp only [asks, result, Option.map_some, Option.some.injEq, Ask.rebaselined.injEq] at asked
      exact ⟨asked.1.symm, by rw [← asked.2]; exact id⟩
  | openCandidates => simp [asks] at asked
  | cycleCandidate => simp [asks] at asked
  | openBoundaryConversion => simp [asks] at asked
  | acceptRebasedConversion => simp [asks] at asked
  | _ => cases asked

omit [EngineToken τ] in
/-- A prepared attempt is for a request that is waited for and was not rebaselined, and its snapshot is asked under a new
id below the one it reserves. -/
theorem prepared_original {m : ClauseConversion τ} {attempt : ClauseRebaseline} (found : m.prepared op = some attempt) :
    m.Pending attempt.original ∧ attempt.original.rebaselineUsed = false ∧
      m.lastRequestId < attempt.snapshotRequestId ∧ attempt.snapshotRequestId < attempt.convertRequestId := by
  unfold prepared at found
  split at found
  case h_2 => cases found
  rename_i key snapshotRequestId convertRequestId now
  unfold prepareRebaseline at found
  dsimp only at found
  split at found
  · cases found
  rename_i original pending
  split at found
  · cases found
  rename_i admitted
  simp only [Bool.or_eq_true, decide_eq_true_eq, not_or, Nat.not_le, ne_eq, not_not] at admitted
  split at found
  · cases found
  obtain rfl := Option.some.inj found
  refine ⟨?_, by simpa using admitted.1.1.1.2, admitted.1.2, admitted.2⟩
  split at pending
  · exact .inr pending
  · exact .inl ⟨_, pending⟩

/-- Only a rebaseline attempt is prepared, and preparing asks nothing. -/
theorem prepared_none {m : ClauseConversion τ} {ask : Ask} (asked : m.asks op = some ask) : m.prepared op = none := by
  cases op with
  | prepareRebaseline => cases asked
  | _ => rfl

omit [EngineToken τ] in
/-- A settled id is below every one that is asked next, also below one that a rebaseline has reserved. -/
theorem settled_lt {s : Session τ} {m' : ClauseConversion τ} {ask : Ask} {entry : IssuedCandidates}
    (continues : Continues s.model m' entry ask)
    (reserved : ∀ source key, ask = .rebaselined source key → ∃ attempt ∈ s.attempts,
      key.requestId = attempt.convertRequestId ∧ s.model.Outstanding attempt.original.request.key.requestId)
    {id : Nat} (settled : s.Settled id) : id < ask.key.requestId := by
  obtain ⟨bounded, barred⟩ := settled
  cases ask with
  | fresh key start =>
    obtain ⟨above, _⟩ := continues
    exact lt_of_le_of_lt bounded above
  | rebased source key =>
    obtain ⟨above, _⟩ := continues
    exact lt_of_le_of_lt bounded above
  | rebaselined source key =>
    obtain ⟨last, _⟩ := continues
    obtain ⟨attempt, member, same, waited⟩ := reserved source key rfl
    refine lt_of_le_of_ne (last ▸ bounded) fun equal => ?_
    exact barred attempt member (same.symm.trans equal.symm) waited

/-- Without a request that is asked the chains stay as they are. -/
theorem Chained.withdrawn (chained : t.Chained) (admits : t.Admits op) (silent : t.session.model.asks op = none)
    (withdraws : Withdraws t.session.model (t.session.model.apply segmentation op)) :
    (t.apply segmentation op).Chained := by
  have onward : ∀ {id}, t.session.Settled id → (t.session.apply segmentation op).Settled id := fun settled =>
    (step_settled segmentation chained.kept admits settled).1
  have ended : ∀ {id}, t.session.Settled id → ¬t.session.model.Outstanding id →
      ¬(t.session.apply segmentation op).model.Outstanding id := fun settled =>
    (step_settled segmentation chained.kept admits settled).2
  have chains : (t.apply segmentation op).chains = t.chains := by
    show (t.session.model.asks op).elim t.chains (follow t.chains) = t.chains
    rw [silent]
    rfl
  have asked : (t.apply segmentation op).asked =
      t.asked ++ (t.session.model.prepared op).toList.map ClauseRebaseline.snapshotRequestId := by
    show _ ++ _ ++ ((t.session.model.asks op).toList.map fun ask => ask.key.requestId) = _
    rw [silent]
    exact List.append_nil _
  have snapshots : ∀ id ∈ (t.session.model.prepared op).toList.map ClauseRebaseline.snapshotRequestId,
      t.session.model.lastRequestId < id ∧ (t.session.apply segmentation op).Settled id := by
    intro id member
    obtain ⟨attempt, found, rfl⟩ := List.mem_map.mp member
    rw [Option.mem_toList] at found
    obtain ⟨_, _, above, below⟩ := prepared_original found
    have last := (prepared_spec segmentation found).2.2.1
    refine ⟨above, le_of_lt (lt_of_lt_of_eq below last.symm), fun other inAttempts reserved => ?_⟩
    rcases List.mem_append.mp inAttempts with old | new
    · have bounded := (chained.kept.ordered other old).2
      omega
    · obtain rfl := Option.some.inj (found.symm.trans (Option.mem_toList.mp new))
      omega
  refine
    { sound := apply_sound segmentation chained.sound op
      kept := step_kept segmentation chained.kept admits
      settled := fun chain member key inKeys => onward (chained.settled chain (chains ▸ member) key inKeys)
      apart := by rw [chains]; exact chained.apart
      pending := fun entry waited => by rw [chains]; exact chained.pending entry (withdraws.pending waited)
      attempts := fun attempt member => ?_
      once := by rw [chains]; exact chained.once
      asked := fun id member => ?_
      increasing := ?_ }
  · rw [chains]
    rcases List.mem_append.mp member with old | new
    · obtain ⟨chain, inChains, inKeys, barred⟩ := chained.attempts attempt old
      exact ⟨chain, inChains, inKeys, fun rebaselined => ended (chained.settled chain inChains _ inKeys) (barred rebaselined)⟩
    · -- A request that was rebaselined already is not prepared again.
      obtain ⟨waited, unused, _⟩ := prepared_original (Option.mem_toList.mp new)
      obtain ⟨chain, inChains, inKeys, _, used⟩ := chained.pending _ waited
      refine ⟨chain, inChains, inKeys, fun rebaselined => ?_⟩
      rw [used rebaselined] at unused
      cases unused
  · rw [asked] at member
    rcases List.mem_append.mp member with old | new
    · exact onward (chained.asked id old)
    · exact (snapshots id new).2
  · rw [asked]
    refine List.pairwise_append.mpr ⟨chained.increasing, ?_, fun id old id' new => ?_⟩
    · cases t.session.model.prepared op <;> simp
    · exact lt_of_le_of_lt (chained.asked id old).1 (snapshots id' new).1

omit [EngineToken τ] in
/-- The requests of the chains after one was asked are the old ones and that one. -/
theorem keys_follow {chains : List Chain} {ask : Ask} {chain : Chain} (member : chain ∈ follow chains ask)
    {key : ClauseRequestKey} (inKeys : key ∈ chain.keys) :
    (∃ old ∈ chains, key ∈ old.keys) ∨ key = ask.key := by
  cases ask with
  | fresh asked start =>
    rcases List.mem_append.mp member with old | new
    · exact .inl ⟨chain, old, inKeys⟩
    · rw [List.mem_singleton.mp new] at inKeys
      exact .inr (List.mem_singleton.mp inKeys)
  | rebased source asked =>
    obtain ⟨old, inOld, rfl⟩ := List.mem_map.mp member
    exact (mem_extend.mp inKeys).imp (fun before => ⟨old, inOld, before⟩) fun added => added.2
  | rebaselined source asked =>
    obtain ⟨old, inOld, rfl⟩ := List.mem_map.mp member
    exact (mem_extend.mp inKeys).imp (fun before => ⟨old, inOld, before⟩) fun added => added.2

/-- The id a rebaseline uses was reserved by an attempt for the request that is still waited for. -/
theorem Chained.reserved (chained : t.Chained) (admits : t.Admits op) {source key : ClauseRequestKey}
    {entry : IssuedCandidates} (asked : t.session.model.asks op = some (.rebaselined source key))
    (continues : Continues t.session.model (t.session.model.apply segmentation op) entry (.rebaselined source key)) :
    ∃ attempt ∈ t.session.attempts, key.requestId = attempt.convertRequestId ∧
      t.session.model.Outstanding attempt.original.request.key.requestId ∧
      source = attempt.original.request.key := by
  obtain ⟨attempt, response, learning, now, rfl, same, id⟩ := asks_rebaselined asked
  obtain ⟨_, _, _, ⟨pending, waited, under, _⟩, _⟩ := continues
  refine ⟨attempt, admits, id, ?_, same⟩
  rw [← same, ← under]
  exact outstanding_of_pending chained.kept.numbered waited

/-- A request is asked under an id above all that are settled. -/
theorem Chained.settled_lt (chained : t.Chained) (admits : t.Admits op) {ask : Ask} {entry : IssuedCandidates}
    (asked : t.session.model.asks op = some ask)
    (continues : Continues t.session.model (t.session.model.apply segmentation op) entry ask) {id : Nat}
    (settled : t.session.Settled id) : id < ask.key.requestId := by
  refine Trace.settled_lt continues (fun source key same => ?_) settled
  subst same
  obtain ⟨attempt, member, id, waited, _⟩ := chained.reserved segmentation admits asked continues
  exact ⟨attempt, member, id, waited⟩

/-- A request that is asked starts a chain, or continues the one of the request that it answers. -/
theorem Chained.issued (chained : t.Chained) (admits : t.Admits op) {ask : Ask} {entry : IssuedCandidates}
    (asked : t.session.model.asks op = some ask)
    (issues : Issues t.session.model (t.session.model.apply segmentation op) ask.key entry)
    (continues : Continues t.session.model (t.session.model.apply segmentation op) entry ask) :
    (t.apply segmentation op).Chained := by
  have onward : ∀ {id}, t.session.Settled id → (t.session.apply segmentation op).Settled id := fun settled =>
    (step_settled segmentation chained.kept admits settled).1
  have ended : ∀ {id}, t.session.Settled id → ¬t.session.model.Outstanding id →
      ¬(t.session.apply segmentation op).model.Outstanding id := fun settled =>
    (step_settled segmentation chained.kept admits settled).2
  have kept := step_kept segmentation chained.kept admits
  have chains : (t.apply segmentation op).chains = follow t.chains ask := by
    show (t.session.model.asks op).elim t.chains (follow t.chains) = _
    rw [asked]
    rfl
  have attempts : (t.session.apply segmentation op).attempts = t.session.attempts := by
    show _ ++ (t.session.model.prepared op).toList = _
    rw [prepared_none asked]
    exact List.append_nil _
  have ids : (t.apply segmentation op).asked = t.asked ++ [ask.key.requestId] := by
    show _ ++ (t.session.model.prepared op).toList.map _ ++ (t.session.model.asks op).toList.map _ = _
    rw [asked, prepared_none asked]
    simp
  have fresh : ∀ {id}, t.session.Settled id → id < ask.key.requestId := fun settled =>
    chained.settled_lt segmentation admits asked continues settled
  have new : ∀ chain ∈ t.chains, ∀ other ∈ chain.keys, other.requestId ≠ ask.key.requestId :=
    fun chain member other inKeys => (fresh (chained.settled chain member other inKeys)).ne
  have placed : (t.session.apply segmentation op).Settled ask.key.requestId := by
    refine kept.settled _ ?_
    rw [← issues.under]
    exact outstanding_of_pending kept.numbered issues.placed
  refine
    { sound := apply_sound segmentation chained.sound op
      kept := kept
      settled := ?_, apart := ?_, pending := ?_, attempts := ?_, once := ?_
      asked := fun id member => ?_
      increasing := ?_ }
  · rw [chains]
    intro chain member key inKeys
    rcases keys_follow member inKeys with ⟨old, inOld, before⟩ | rfl
    · exact onward (chained.settled old inOld key before)
    · exact placed
  · rw [chains]
    cases ask with
    | fresh key start =>
      intro chain member chain' member' a inKeys a' inKeys' same
      rcases List.mem_append.mp member with old | last <;> rcases List.mem_append.mp member' with old' | last'
      · exact chained.apart chain old chain' old' a inKeys a' inKeys' same
      · rw [List.mem_singleton.mp last'] at inKeys'
        rw [List.mem_singleton.mp inKeys'] at same
        exact absurd same (new chain old a inKeys)
      · rw [List.mem_singleton.mp last] at inKeys
        rw [List.mem_singleton.mp inKeys] at same
        exact absurd same.symm (new chain' old' a' inKeys')
      · rw [List.mem_singleton.mp last] at inKeys ⊢
        rw [List.mem_singleton.mp last'] at inKeys' ⊢
        rw [List.mem_singleton.mp inKeys, List.mem_singleton.mp inKeys']
        exact ⟨rfl, rfl⟩
    | rebased source key => exact apart_extend chained.apart new
    | rebaselined source key => exact apart_extend chained.apart new
  · rw [chains]
    intro other waited
    cases ask with
    | fresh key start =>
      rcases issues.others other waited with rfl | old
      · refine ⟨_, List.mem_append_right _ (List.mem_singleton_self _), ?_, continues.2, fun positive => ?_⟩
        · rw [issues.under]
          exact List.mem_singleton_self _
        · exact absurd positive (Nat.lt_irrefl 0)
      · obtain ⟨chain, member, inKeys, deadline, used⟩ := chained.pending other old
        exact ⟨chain, List.mem_append_left _ member, inKeys, deadline, used⟩
    | rebased source key =>
      have same : ∀ chain : Chain, (chain.extend source key 0).rebaselines = chain.rebaselines := by
        intro chain
        unfold Chain.extend
        split <;> rfl
      obtain ⟨_, _, ⟨pending, waits, under, sameDeadline, sameUsed⟩, _⟩ := continues
      rcases issues.others other waited with rfl | old
      · -- The chain of the request that is answered goes on until its time.
        obtain ⟨chain, member, inKeys, deadline, used⟩ := chained.pending pending waits
        refine ⟨_, List.mem_map_of_mem member, ?_, ?_, fun rebaselined => ?_⟩
        · rw [issues.under]
          exact mem_extend.mpr (.inr ⟨under ▸ inKeys, rfl⟩)
        · rw [sameDeadline, extend_start, deadline]
        · rw [same] at rebaselined
          rw [sameUsed, used rebaselined]
      · obtain ⟨chain, member, inKeys, deadline, used⟩ := chained.pending other old
        exact ⟨_, List.mem_map_of_mem member, mem_extend.mpr (.inl inKeys), by rw [extend_start, deadline],
          fun rebaselined => used (same chain ▸ rebaselined)⟩
    | rebaselined source key =>
      obtain ⟨_, _, used, ⟨pending, waits, under, sameDeadline⟩, only⟩ := continues
      obtain rfl := only other waited
      obtain ⟨chain, member, inKeys, deadline, _⟩ := chained.pending pending waits
      refine ⟨_, List.mem_map_of_mem member, ?_, ?_, fun _ => used⟩
      · rw [issues.under]
        exact mem_extend.mpr (.inr ⟨under ▸ inKeys, rfl⟩)
      · rw [sameDeadline, extend_start, deadline]
  · rw [chains]
    intro attempt member
    have member : attempt ∈ t.session.attempts := attempts ▸ member
    obtain ⟨chain, inChains, inKeys, barred⟩ := chained.attempts attempt member
    have original := chained.settled chain inChains _ inKeys
    cases ask with
    | fresh key start =>
      exact ⟨chain, List.mem_append_left _ inChains, inKeys, fun rebaselined => ended original (barred rebaselined)⟩
    | rebased source key =>
      refine ⟨_, List.mem_map_of_mem inChains, mem_extend.mpr (.inl inKeys), fun rebaselined => ended original (barred ?_)⟩
      unfold Chain.extend at rebaselined
      split at rebaselined <;> exact rebaselined
    | rebaselined source key =>
      -- Only the request that the rebaseline asked is waited for any more.
      refine ⟨_, List.mem_map_of_mem inChains, mem_extend.mpr (.inl inKeys), fun _ waits => ?_⟩
      obtain ⟨_, _, _, _, only⟩ := continues
      have below := fresh original
      rcases waits with ⟨other, found⟩ | ⟨other, found, same⟩
      · have id := kept.numbered.issued _ other found
        rw [only other (.inl ⟨_, found⟩), issues.under] at id
        omega
      · rw [only other (.inr found), issues.under] at same
        omega
  · rw [chains]
    intro chain member
    cases ask with
    | fresh key start =>
      rcases List.mem_append.mp member with old | last
      · exact chained.once chain old
      · rw [List.mem_singleton.mp last]
        exact Nat.zero_le 1
    | rebased source key =>
      obtain ⟨old, inOld, rfl⟩ := List.mem_map.mp member
      unfold Chain.extend
      split <;> exact chained.once old inOld
    | rebaselined source key =>
      obtain ⟨old, inOld, rfl⟩ := List.mem_map.mp member
      unfold Chain.extend
      split
      · -- The attempt's request is waited for, so its chain was not rebaselined before.
        rename_i inKeys
        obtain ⟨attempt, inAttempts, _, waited, rfl⟩ := chained.reserved segmentation admits asked continues
        obtain ⟨chain, inChains, inKeys', barred⟩ := chained.attempts attempt inAttempts
        obtain ⟨rfl, _⟩ := chained.apart old inOld chain inChains _ inKeys _ inKeys' rfl
        show old.rebaselines + 1 ≤ 1
        by_contra more
        exact barred (by omega) waited
      · exact chained.once old inOld
  · rw [ids] at member
    rcases List.mem_append.mp member with old | last
    · exact onward (chained.asked id old)
    · rw [List.mem_singleton.mp last]
      exact placed
  · rw [ids]
    refine List.pairwise_append.mpr ⟨chained.increasing, List.pairwise_singleton _ _, fun id old id' last => ?_⟩
    rw [List.mem_singleton.mp last]
    exact fresh (chained.asked id old)

/-- Every step keeps the chains. -/
theorem step_chained (chained : t.Chained) (admits : t.Admits op) : (t.apply segmentation op).Chained := by
  rcases apply_waits segmentation chained.kept.numbered op with ⟨silent, withdraws⟩ | ⟨ask, entry, asked, issues, continues⟩
  · exact chained.withdrawn segmentation admits silent withdraws
  · exact chained.issued segmentation admits asked issues continues

omit [EngineToken τ] in
/-- A request of a chain is waited for until the chain's time. -/
theorem Chained.deadline_of_awaits (chained : t.Chained) (member : chain ∈ t.chains)
    {key : ClauseRequestKey} (inKeys : key ∈ chain.keys) {entry : IssuedCandidates}
    (pending : t.session.model.Pending entry) (under : entry.request.key = key) :
    entry.deadline = chain.start + requestLifetime := by
  obtain ⟨other, inOther, inKeys', deadline, _⟩ := chained.pending entry pending
  obtain ⟨rfl, _⟩ := chained.apart other inOther chain member _ inKeys' key inKeys (by rw [under])
  exact deadline

omit [EngineToken τ] in
/-- The deadline that the model gives for a request of a chain is the chain's. -/
theorem Chained.requestDeadline (chained : t.Chained) (member : chain ∈ t.chains)
    {key : ClauseRequestKey} (inKeys : key ∈ chain.keys) :
    t.session.model.requestDeadline key = none ∨
      t.session.model.requestDeadline key = some (chain.start + requestLifetime) := by
  unfold ClauseConversion.requestDeadline
  split
  · rename_i pending found
    obtain ⟨waited, under⟩ := Option.filter_eq_some_iff.mp found
    exact .inr (congrArg some (chained.deadline_of_awaits member inKeys (.inr waited) (by simpa using under)))
  · cases found : (t.session.model.issued.lookup key.requestId).filter fun issued => issued.request.key = key with
    | none => exact .inl rfl
    | some entry =>
      obtain ⟨waited, under⟩ := Option.filter_eq_some_iff.mp found
      exact .inr (congrArg some (chained.deadline_of_awaits member inKeys (.inl ⟨_, waited⟩) (by simpa using under)))

omit [EngineToken τ] in
/-- What is waited for has a deadline. -/
theorem requestDeadline_ne_none {m : ClauseConversion τ} (numbered : m.Numbered) {entry : IssuedCandidates}
    (pending : m.Pending entry) : m.requestDeadline entry.request.key ≠ none := by
  unfold ClauseConversion.requestDeadline
  rcases pending with ⟨id, found⟩ | found
  · split
    · simp
    · rw [numbered.issued id entry found, found]
      simp
  · rw [found]
    simp [Option.filter]

omit [EngineToken τ] in
/-- A deadline is that of something that is waited for. -/
theorem pending_of_requestDeadline {m : ClauseConversion τ} {key : ClauseRequestKey} {deadline : Nat}
    (found : m.requestDeadline key = some deadline) : ∃ entry, m.Awaits key entry ∧ entry.deadline = deadline := by
  unfold ClauseConversion.requestDeadline at found
  split at found
  · rename_i pending waits
    obtain ⟨waited, under⟩ := Option.filter_eq_some_iff.mp waits
    exact ⟨pending, ⟨.inr waited, by simpa using under⟩, Option.some.inj found⟩
  · obtain ⟨entry, waits, same⟩ := Option.map_eq_some_iff.mp found
    obtain ⟨waited, under⟩ := Option.filter_eq_some_iff.mp waits
    exact ⟨entry, ⟨.inl waited, by simpa using under⟩, same⟩

omit [EngineToken τ] in
/-- What is awaited under a key is pending. -/
theorem pending_of_awaits {m : ClauseConversion τ} {key : ClauseRequestKey} {entry : IssuedCandidates}
    (awaits : m.Awaits key entry) : m.Pending entry :=
  awaits.1.imp (fun found => ⟨_, found⟩) fun found => found

/-- The model does not wait for any request of the chain with its window. -/
def Ceased (t : Trace τ) (chain : Chain) : Prop :=
  ∀ key ∈ chain.keys, t.session.model.window.loadingKey = some key → t.session.model.requestDeadline key = none

omit [EngineToken τ] in
/-- Nothing is pending under a key of a ceased chain that the window waits for. -/
theorem Ceased.not_pending (ended : t.Ceased chain) (numbered : t.session.model.Numbered) {key : ClauseRequestKey}
    (inKeys : key ∈ chain.keys) (loading : t.session.model.window.loadingKey = some key) {entry : IssuedCandidates}
    (pending : t.session.model.Pending entry) : entry.request.key ≠ key := by
  rintro rfl
  exact requestDeadline_ne_none numbered pending (ended _ inKeys loading)

/-- The request that an asked one continues is the one that the operation answers. -/
theorem asks_source {m : ClauseConversion τ} {ask : Ask} (asked : m.asks op = some ask) :
    replyKey op = none ∨ ∃ source, replyKey op = some source ∧
      (ask = .rebased source ask.key ∨ ask = .rebaselined source ask.key) := by
  cases op with
  | acceptRebaseline attempt response learning now =>
    obtain ⟨request, _, rfl⟩ := Option.map_eq_some_iff.mp asked
    exact .inr ⟨_, rfl, .inr rfl⟩
  | acceptRebasedConversion key status learning candidateRequestId now =>
    obtain ⟨request, _, rfl⟩ := Option.map_eq_some_iff.mp asked
    exact .inr ⟨_, rfl, .inl rfl⟩
  | openCandidates => exact .inl rfl
  | cycleCandidate => exact .inl rfl
  | openBoundaryConversion => exact .inl rfl
  | _ => cases asked

/-- A chain that has ceased is never continued, and stays so. -/
theorem Chained.step_ceased (chained : t.Chained) (admits : t.Admits op) (member : chain ∈ t.chains)
    (ended : t.Ceased chain) :
    chain ∈ (t.apply segmentation op).chains ∧ (t.apply segmentation op).Ceased chain := by
  have numbered := chained.kept.numbered
  rcases apply_waits segmentation numbered op with ⟨silent, withdraws⟩ | ⟨ask, entry, asked, issues, continues⟩
  · refine ⟨?_, fun key inKeys loading => ?_⟩
    · show chain ∈ (t.session.model.asks op).elim t.chains (follow t.chains)
      rw [silent]
      exact member
    · rcases withdraws.window with same | idle
      · rw [show (t.apply segmentation op).session.model = t.session.model.apply segmentation op from rfl] at loading ⊢
        rw [same] at loading
        by_contra waits
        obtain ⟨deadline, found⟩ := Option.ne_none_iff_exists'.mp waits
        obtain ⟨entry, awaits, _⟩ := pending_of_requestDeadline found
        exact ended.not_pending numbered inKeys loading (withdraws.pending (pending_of_awaits awaits)) awaits.2
      · exact absurd (idle.symm.trans loading) (by simp)
  · refine ⟨?_, fun key inKeys loading => ?_⟩
    · show chain ∈ (t.session.model.asks op).elim t.chains (follow t.chains)
      rw [asked]
      -- A request that continues another answers one that is waited for.
      have apart : ∀ source key rebaselines pending, t.session.model.window.loadingKey = some source →
          t.session.model.Pending pending → pending.request.key = source →
          chain ∈ t.chains.map (Chain.extend source key rebaselines) := by
        intro source key rebaselines pending loading waited under
        refine List.mem_map.mpr ⟨chain, member, if_neg fun inKeys => ?_⟩
        exact ended.not_pending numbered inKeys loading waited under
      cases ask with
      | fresh key start => exact List.mem_append_left _ member
      | rebased source key =>
        obtain ⟨_, loading, ⟨pending, waited, under, _⟩, _⟩ := continues
        exact apart source key 0 pending loading waited under
      | rebaselined source key =>
        obtain ⟨_, loading, _, ⟨pending, waited, under, _⟩, _⟩ := continues
        exact apart source key 1 pending loading waited under
    · -- The window waits for a request under a new id.
      obtain rfl := Option.some.inj (issues.window.symm.trans loading)
      exact absurd rfl (chained.settled_lt segmentation admits asked continues (chained.settled chain member _ inKeys)).ne

/-- A reply to a chain that has ceased asks nothing, and the window waits for nothing else after it. -/
theorem Chained.ceased_reply (chained : t.Chained) (ended : t.Ceased chain) {key : ClauseRequestKey}
    (inKeys : key ∈ chain.keys) (answers : replyKey op = some key) :
    t.session.model.asks op = none ∧
      ((t.session.model.apply segmentation op).window.loadingKey = t.session.model.window.loadingKey ∨
        (t.session.model.apply segmentation op).window.loadingKey = none) := by
  rcases apply_waits segmentation chained.kept.numbered op with ⟨silent, withdraws⟩ | ⟨ask, entry, asked, _, continues⟩
  · exact ⟨silent, withdraws.window⟩
  · exfalso
    have settled : ∃ pending, t.session.model.window.loadingKey = some key ∧ t.session.model.Pending pending ∧
        pending.request.key = key := by
      rcases asks_source asked with none' | ⟨source, same, from' | from'⟩
      · rw [none'] at answers
        cases answers
      · obtain rfl := Option.some.inj (same.symm.trans answers)
        rw [from'] at continues
        obtain ⟨_, loading, ⟨pending, waited, under, _⟩, _⟩ := continues
        exact ⟨pending, loading, waited, under⟩
      · obtain rfl := Option.some.inj (same.symm.trans answers)
        rw [from'] at continues
        obtain ⟨_, loading, _, ⟨pending, waited, under, _⟩, _⟩ := continues
        exact ⟨pending, loading, waited, under⟩
    obtain ⟨pending, loading, waited, under⟩ := settled
    exact ended.not_pending chained.kept.numbered inKeys loading waited under

/-- A reply to a chain that comes at its time or later lapses. -/
theorem Chained.late (chained : t.Chained) (member : chain ∈ t.chains) {key : ClauseRequestKey}
    (inKeys : key ∈ chain.keys) (answers : replyKey op = some key) {now : Nat} (received : replyTime op = some now)
    (late : chain.start + requestLifetime ≤ now) :
    Lapses t.session.model (t.session.model.apply segmentation op) (t.session.model.asks op) := by
  refine late_lapses segmentation chained.sound answers received fun entry awaits => ?_
  rw [chained.deadline_of_awaits member inKeys (pending_of_awaits awaits) awaits.2]
  exact late

/-- A request that is asked belongs to a chain, with the request that it continues, and has the chain's deadline. -/
theorem Chained.asks_deadline (chained : t.Chained) (admits : t.Admits op) {ask : Ask}
    (asked : t.session.model.asks op = some ask) :
    ∃ chain ∈ (t.apply segmentation op).chains, ask.key ∈ chain.keys ∧
      (∀ source, replyKey op = some source → source ∈ chain.keys) ∧
      (t.apply segmentation op).session.model.requestDeadline ask.key = some (chain.start + requestLifetime) := by
  have after := step_chained segmentation chained admits
  rcases apply_waits segmentation chained.kept.numbered op with ⟨silent, _⟩ | ⟨ask', entry, asked', issues, continues⟩
  · rw [silent] at asked
    cases asked
  obtain rfl := Option.some.inj (asked.symm.trans asked')
  obtain ⟨chain, member, inKeys, _⟩ := after.pending entry issues.placed
  rw [issues.under] at inKeys
  refine ⟨chain, member, inKeys, fun source answers => ?_, ?_⟩
  · -- The chain has the new request, so it has the one that this continues.
    have grown : ∀ rebaselines, (t.apply segmentation op).chains = t.chains.map (Chain.extend source ask.key rebaselines) →
        source ∈ chain.keys := by
      intro rebaselines same
      rw [same] at member
      obtain ⟨old, inOld, rfl⟩ := List.mem_map.mp member
      rcases mem_extend.mp inKeys with before | ⟨has, _⟩
      · have below := chained.settled_lt segmentation admits asked continues (chained.settled old inOld _ before)
        exact absurd below (Nat.lt_irrefl _)
      · exact mem_extend.mpr (.inl has)
    have chains : (t.apply segmentation op).chains = follow t.chains ask := by
      show (t.session.model.asks op).elim t.chains (follow t.chains) = _
      rw [asked]
      rfl
    rcases asks_source asked with none' | ⟨source', same, from' | from'⟩
    · rw [none'] at answers
      cases answers
    · obtain rfl := Option.some.inj (same.symm.trans answers)
      exact grown 0 (by rw [chains, from']; rfl)
    · obtain rfl := Option.some.inj (same.symm.trans answers)
      exact grown 1 (by rw [chains, from']; rfl)
  · rcases after.requestDeadline member inKeys with none' | found
    · exact absurd (issues.under ▸ none') (requestDeadline_ne_none after.kept.numbered issues.placed)
    · exact found

omit [EngineToken τ] in
/-- Withdrawing requests one after another leaves nothing under their ids. -/
theorem foldl_endRequest_issued (keys : List ClauseRequestKey) (m : ClauseConversion τ) {id : Nat}
    {entry : IssuedCandidates} (found : (keys.foldl endRequest m).issued.lookup id = some entry) :
    m.issued.lookup id = some entry ∧ ∀ key ∈ keys, key.requestId ≠ id := by
  induction keys generalizing m with
  | nil => exact ⟨found, fun _ member => by cases member⟩
  | cons key rest ih =>
    obtain ⟨before, apart⟩ := ih (m.endRequest key) found
    have erased : (m.endRequest key).issued = m.issued.erase key.requestId := by
      unfold endRequest
      dsimp only
      split <;> rfl
    rw [erased] at before
    obtain ⟨ne, before⟩ := Table.lookup_of_lookup_erase before
    refine ⟨before, fun other member => ?_⟩
    rcases List.mem_cons.mp member with rfl | inRest
    · exact ne.symm
    · exact apart other inRest

omit [EngineToken τ] in
/-- Withdrawing requests makes no boundary request. -/
theorem foldl_endRequest_boundary (keys : List ClauseRequestKey) (m : ClauseConversion τ) {entry : IssuedCandidates}
    (found : (keys.foldl endRequest m).boundaryRequest = some entry) : m.boundaryRequest = some entry := by
  induction keys generalizing m with
  | nil => exact found
  | cons key rest ih => exact (endRequest_quiet m key).boundary entry (ih _ found)

omit [EngineToken τ] in
/-- Only requests whose time has not come are pending after an expiry. -/
theorem expire_pending {m : ClauseConversion τ} (numbered : m.Numbered) {now : Nat} {entry : IssuedCandidates}
    (pending : (m.expire now).Pending entry) : now < entry.deadline := by
  by_contra late
  unfold expire at pending
  dsimp only at pending
  generalize closed : (if m.boundaryRequest.any fun pending => pending.deadline ≤ now then m.closeWindow else m) = mid at pending
  have quiet : Quiet m mid := by
    rw [← closed]
    split
    · exact closeWindow_quiet m
    · exact Quiet.refl m
  rcases pending with ⟨id, found⟩ | found
  · obtain ⟨before, apart⟩ := foldl_endRequest_issued _ mid found
    refine apart entry.request.key ?_ (numbered.issued id entry (quiet.issued id entry before))
    refine List.mem_map.mpr ⟨entry, List.mem_filter.mpr ⟨Table.mem_values.mpr ⟨id, before⟩, ?_⟩, rfl⟩
    exact decide_eq_true (Nat.le_of_not_lt late)
  · -- A boundary request whose time has come was withdrawn with the window.
    have before := foldl_endRequest_boundary _ mid found
    rw [← closed] at before
    split at before
    · cases before
    · rename_i none'
      refine none' ?_
      rw [before]
      exact decide_eq_true (Nat.le_of_not_lt late)

/-- An operation that closes the window, moves to another clause, or lets the chain's time expire. -/
def Ceases (chain : Chain) : ClauseOp τ → Prop
  | .closeWindow => True
  | .moveClause _ => True
  | .expire now => chain.start + requestLifetime ≤ now
  | _ => False

/-- A chain has ceased once the window was closed or moved away, or the chain expired. -/
theorem Chained.ceases (chained : t.Chained) (admits : t.Admits op) (member : chain ∈ t.chains)
    (ceases : Ceases chain op) :
    chain ∈ (t.apply segmentation op).chains ∧ (t.apply segmentation op).Ceased chain := by
  have after := step_chained segmentation chained admits
  cases op with
  | closeWindow => exact ⟨member, fun key _ loading => by cases loading⟩
  | moveClause offset => exact ⟨member, fun key _ loading => by cases loading⟩
  | expire now =>
    refine ⟨member, fun key inKeys _ => ?_⟩
    by_contra waits
    obtain ⟨deadline, found⟩ := Option.ne_none_iff_exists'.mp waits
    obtain ⟨entry, awaits, _⟩ := pending_of_requestDeadline found
    have pending := pending_of_awaits awaits
    have inTime := expire_pending chained.kept.numbered pending
    rw [after.deadline_of_awaits (show chain ∈ (t.apply segmentation _).chains from member) inKeys pending awaits.2] at inTime
    exact absurd inTime (Nat.not_lt.mpr ceases)
  | _ => exact ceases.elim

end Steps

section Runs

variable (segmentation : Segmentation)

/-- A session that has just begun, with nothing asked yet. -/
def begin (m : ClauseConversion τ) : Trace τ := ⟨⟨m, []⟩, [], []⟩

/-- At the beginning there are no chains. -/
theorem begin_chained {m : ClauseConversion τ} (initial : Initial m) : (begin m).Chained where
  sound := initial.sound
  kept := kept_of_idle initial.idle.1 initial.idle.2
  settled := fun _ member => by cases member
  apart := fun _ member => by cases member
  pending := by
    rintro entry (⟨id, found⟩ | found)
    · exact (lookup_empty_ne_some (initial.idle.1 ▸ found)).elim
    · exact absurd (initial.idle.2.symm.trans found) (by simp)
  attempts := fun _ member => by cases member
  once := fun _ member => by cases member
  asked := fun _ member => by cases member
  increasing := .nil

/-- The chains keep their order in every run. -/
theorem run_chained {t : Trace τ} (chained : t.Chained) {ops : List (ClauseOp τ)}
    (admissible : Admissible (apply segmentation) Admits t ops) : (exec (apply segmentation) t ops).Chained :=
  exec_invariant Chained (fun _ _ chained admits => step_chained segmentation chained admits) chained admissible

/-- A chain that has ceased is never continued in a run. -/
theorem run_ceased {t : Trace τ} (chained : t.Chained) {chain : Chain} (member : chain ∈ t.chains)
    (ceased : t.Ceased chain) {ops : List (ClauseOp τ)} (admissible : Admissible (apply segmentation) Admits t ops) :
    chain ∈ (exec (apply segmentation) t ops).chains ∧ (exec (apply segmentation) t ops).Ceased chain := by
  have invariant := exec_invariant (fun t : Trace τ => t.Chained ∧ chain ∈ t.chains ∧ t.Ceased chain)
    (fun t op held admits => ⟨step_chained segmentation held.1 admits,
      held.1.step_ceased segmentation admits held.2.1 held.2.2⟩)
    ⟨chained, member, ceased⟩ admissible
  exact invariant.2

/-- What a chain promises at any time: at most one rebaseline, the deadline of its first request for each of its
requests, and that nothing comes of its replies at that time or later. -/
structure Bounded (t : Trace τ) (chain : Chain) : Prop where
  once : chain.rebaselines ≤ 1
  deadline : ∀ key ∈ chain.keys, t.session.model.requestDeadline key = none ∨
    t.session.model.requestDeadline key = some (chain.start + requestLifetime)
  late : ∀ op, ∀ key ∈ chain.keys, replyKey op = some key → ∀ now, replyTime op = some now →
    chain.start + requestLifetime ≤ now →
    Lapses t.session.model (t.session.model.apply segmentation op) (t.session.model.asks op)

/-- What is left of a chain that has ceased: no request is added, and no reply to it makes the window wait again. -/
structure Finished (t : Trace τ) (chain : Chain) : Prop where
  kept : chain ∈ t.chains
  replies : ∀ op, ∀ key ∈ chain.keys, replyKey op = some key → t.session.model.asks op = none ∧
    ((t.session.model.apply segmentation op).window.loadingKey = t.session.model.window.loadingKey ∨
      (t.session.model.apply segmentation op).window.loadingKey = none)

/-- In every run the requests have increasing ids, each belongs to a chain whose first one gives its deadline, and a
chain that was closed, moved away from or expired is finished for good. -/
theorem run_chains {m : ClauseConversion τ} (initial : Initial m) {ops more : List (ClauseOp τ)}
    (admissible : Admissible (apply segmentation) Admits (begin m) (ops ++ more)) :
    (exec (apply segmentation) (begin m) ops).asked.Pairwise (· < ·) ∧
      (∀ op ask, (exec (apply segmentation) (begin m) ops).Admits op →
        (exec (apply segmentation) (begin m) ops).session.model.asks op = some ask →
        ∃ chain ∈ (exec (apply segmentation) (begin m) (ops ++ [op])).chains, ask.key ∈ chain.keys ∧
          (∀ source, replyKey op = some source → source ∈ chain.keys) ∧
          (exec (apply segmentation) (begin m) (ops ++ [op])).session.model.requestDeadline ask.key =
            some (chain.start + requestLifetime)) ∧
      ∀ chain ∈ (exec (apply segmentation) (begin m) ops).chains,
        (exec (apply segmentation) (begin m) ops).Bounded segmentation chain ∧
          (∀ op, (exec (apply segmentation) (begin m) ops).Admits op → Ceases chain op →
            (exec (apply segmentation) (begin m) (ops ++ [op])).Ceased chain) ∧
          ((exec (apply segmentation) (begin m) ops).Ceased chain →
            (exec (apply segmentation) (begin m) (ops ++ more)).Finished segmentation chain) := by
  obtain ⟨early, late⟩ := admissible_append.mp admissible
  have chained := run_chained segmentation (begin_chained initial) early
  refine ⟨chained.increasing, fun op ask admits asked => ?_, fun chain member => ⟨?_, fun op admits ceases => ?_,
    fun ceased => ?_⟩⟩
  · rw [exec_append]
    exact chained.asks_deadline segmentation admits asked
  · exact
      { once := chained.once chain member
        deadline := fun key inKeys => chained.requestDeadline member inKeys
        late := fun op key inKeys answers now received => chained.late segmentation member inKeys answers received }
  · rw [exec_append]
    exact (chained.ceases segmentation admits member ceases).2
  · have left := run_ceased segmentation chained member ceased late
    rw [exec_append]
    exact
      { kept := left.1
        replies := fun op key inKeys answers =>
          (run_chained segmentation chained late).ceased_reply segmentation left.2 inKeys answers }

/-- A request that was asked and rebaselined once, before its window was closed. -/
def rebaselinedOnce : List (ClauseOp String) :=
  let key : ClauseRequestKey := ⟨⟨1, 1, 1, 1⟩, 0, 1, 1, 1⟩
  [.transformKana 0 2 .katakana, .openCandidates 1 0, .prepareRebaseline key 2 3 0,
    .acceptRebaseline
      { original := ⟨⟨key, ['か', 'な'], 0, 2, [], true⟩, 1200, none, false, 0⟩
        boundary := false, identity := ⟨1, 1, 1, 2⟩, snapshotRequestId := 2, convertRequestId := 3 }
      (.snapshotResult ⟨1, 1, 1, 2⟩ 7 ⟨['か', 'な'], 1, 2, [⟨1, 0, 2, .reading, ['か', 'な'], none⟩], none⟩ ['か', 'な'] none)
      ⟨['e'], 1⟩ 5,
    .closeWindow]

/-- The two requests of a chain keep the time of the first, and the closed window waits for neither again. -/
theorem run_chains_closed : ∃ m : ClauseConversion String, fromReading ⟨1, 1, 1, 1⟩ ['か', 'な'] = some m ∧
    (exec (apply Segmentation.scalars) (begin m) rebaselinedOnce).asked = [1, 2, 3] ∧
    ∃ chain ∈ (exec (apply Segmentation.scalars) (begin m) rebaselinedOnce).chains,
      chain.start = 0 ∧ chain.keys.length = 2 ∧ chain.rebaselines = 1 ∧
      (exec (apply Segmentation.scalars) (begin m) rebaselinedOnce).Bounded Segmentation.scalars chain ∧
      (exec (apply Segmentation.scalars) (begin m)
        (rebaselinedOnce ++ [.acceptRebasedConversion ⟨⟨1, 1, 1, 2⟩, 7, 1, 1, 3⟩ (.ready []) none 4 9])).Finished
        Segmentation.scalars chain := by
  have built : (fromReading ⟨1, 1, 1, 1⟩ ['か', 'な'] : Option (ClauseConversion String)) = some _ := rfl
  refine ⟨_, built, rfl, ⟨0, [⟨⟨1, 1, 1, 1⟩, 0, 1, 1, 1⟩, ⟨⟨1, 1, 1, 2⟩, 7, 1, 1, 3⟩], 1⟩,
    List.mem_singleton.mpr rfl, rfl, rfl, rfl, ?_⟩
  have chains := @run_chains String _ Segmentation.scalars _ (.reading built) rebaselinedOnce
    [.acceptRebasedConversion ⟨⟨1, 1, 1, 2⟩, 7, 1, 1, 3⟩ (.ready []) none 4 9]
    ⟨trivial, trivial, trivial, List.mem_singleton.mpr rfl, trivial, trivial, trivial⟩
  have promised := chains.2.2 _ (List.mem_singleton.mpr rfl)
  exact ⟨promised.1, promised.2.2 fun _ _ loading => by cases loading⟩

end Runs

end Trace

end Nospacekey
