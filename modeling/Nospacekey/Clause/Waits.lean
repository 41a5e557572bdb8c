import Nospacekey.Clause.Acceptance

/-! Which request an operation asks, and what it leaves of those that are waited for. -/

namespace Nospacekey

variable {τ : Type}

namespace ClauseConversion

/-- A request that an operation asks: a fresh one at a time, or one that continues another under a new key. -/
inductive Ask where
  | fresh (key : ClauseRequestKey) (start : Nat)
  | rebaselined (source key : ClauseRequestKey)
  | rebased (source key : ClauseRequestKey)
  deriving DecidableEq, Repr

/-- The key of the request that is asked. -/
def Ask.key : Ask → ClauseRequestKey
  | .fresh key _ => key
  | .rebaselined _ key => key
  | .rebased _ key => key

/-- The request that an operation returns, and the one that it answers with it. -/
def asks [EngineToken τ] (m : ClauseConversion τ) : ClauseOp τ → Option Ask
  | .openCandidates requestId now => (m.openCandidates requestId now).2.map fun request => .fresh request.key now
  | .cycleCandidate requestId direction now =>
    (m.cycleCandidate requestId direction now).2.map fun request => .fresh request.key now
  | .openBoundaryConversion requestId now =>
    (m.openBoundaryConversion requestId now).2.map fun request => .fresh request.key now
  | .acceptRebaseline attempt response learning now =>
    (m.acceptRebaseline attempt response learning now).2.map fun request =>
      .rebaselined attempt.original.request.key request.key
  | .acceptRebasedConversion key status learning candidateRequestId now =>
    (m.acceptRebasedConversion key status learning candidateRequestId now).2.map fun request =>
      .rebased key request.key
  | _ => none

/-- A request is waited for. -/
def Pending (m : ClauseConversion τ) (entry : IssuedCandidates) : Prop :=
  (∃ id, m.issued.lookup id = some entry) ∨ m.boundaryRequest = some entry

/-- Requests may only be withdrawn, and the window may only stop waiting. -/
structure Withdraws (m m' : ClauseConversion τ) : Prop where
  issued : ∀ id entry, m'.issued.lookup id = some entry → m.issued.lookup id = some entry
  boundary : ∀ entry, m'.boundaryRequest = some entry → m.boundaryRequest = some entry
  last : m.lastRequestId ≤ m'.lastRequestId
  window : m'.window.loadingKey = m.window.loadingKey ∨ m'.window.loadingKey = none

section Withdraws

variable {m m' : ClauseConversion τ}

/-- Doing nothing withdraws nothing. -/
theorem Withdraws.refl (m : ClauseConversion τ) : Withdraws m m :=
  ⟨fun _ _ found => found, fun _ found => found, le_rfl, .inl rfl⟩

/-- Withdrawals compose. -/
theorem Withdraws.trans {a b c : ClauseConversion τ} (first : Withdraws a b) (second : Withdraws b c) :
    Withdraws a c where
  issued := fun id entry found => first.issued id entry (second.issued id entry found)
  boundary := fun entry found => first.boundary entry (second.boundary entry found)
  last := le_trans first.last second.last
  window := by
    rcases second.window with kept | idle
    · rw [kept]
      exact first.window
    · exact .inr idle

/-- What is waited for after a withdrawal was waited for before. -/
theorem Withdraws.pending (withdraws : Withdraws m m') {entry : IssuedCandidates} (pending : m'.Pending entry) :
    m.Pending entry := by
  rcases pending with ⟨id, found⟩ | found
  · exact .inl ⟨id, withdraws.issued id entry found⟩
  · exact .inr (withdraws.boundary entry found)

/-- What is quiet withdraws at most. -/
theorem Quiet.withdraws (quiet : Quiet m m') : Withdraws m m' where
  issued := quiet.issued
  boundary := quiet.boundary
  last := quiet.lastRequestId
  window := quiet.window.imp (congrArg CandidateWindow.loadingKey) fun closed => by rw [closed]; rfl

/-- An edit withdraws at most. -/
theorem Edited.withdraws (edited : Edited m m') : Withdraws m m' := by
  cases edited with
  | quiet effect => exact effect.withdraws
  | reshaped effect => exact ⟨effect.issued, effect.boundary, effect.lastRequestId.ge, .inr (by rw [effect.window]; rfl)⟩

/-- A longer display withdraws nothing. -/
theorem Extended.withdraws (extended : Extended m m') : Withdraws m m' where
  issued := fun _ _ found => extended.issued ▸ found
  boundary := fun _ found => extended.boundary ▸ found
  last := extended.lastRequestId.ge
  window := .inl (by rw [extended.window])

/-- Forgetting what was learnt withdraws at most. -/
theorem Forgotten.withdraws (forgotten : Forgotten m m') : Withdraws m m' where
  issued := forgotten.issued
  boundary := forgotten.boundary
  last := forgotten.lastRequestId.ge
  window := by
    rcases forgotten.window with closed | ⟨same, _⟩
    · exact .inr (by rw [closed]; rfl)
    · exact .inl (by rw [same])

/-- A choice withdraws every candidate request. -/
theorem Chosen.withdraws [EngineToken τ] {id : Nat} {candidates : List (ClauseCandidate τ)}
    (chosen : Chosen m m' id candidates) : Withdraws m m' where
  issued := fun _ _ found => (lookup_empty_ne_some (chosen.issued ▸ found)).elim
  boundary := fun _ found => chosen.boundary ▸ found
  last := chosen.lastRequestId.ge
  window := by
    obtain ⟨_, after⟩ := chosen.window
    exact .inr (by rw [after]; rfl)

/-- Showing a kept list withdraws nothing, and ends the wait. -/
theorem Listed.withdraws {cached : CachedCandidates τ} (listed : Listed m m' cached) : Withdraws m m' where
  issued := fun _ _ found => listed.issued ▸ found
  boundary := fun _ found => listed.boundary ▸ found
  last := listed.lastRequestId.ge
  window := by
    obtain ⟨_, _, _, _, _, _, after⟩ := listed.window
    exact .inr (by rw [after]; rfl)

/-- Keeping a reply withdraws its request. -/
theorem Stored.withdraws [EngineToken τ] {entry : IssuedCandidates} {candidates : List (ClauseCandidate τ)}
    (stored : Stored m m' entry candidates) : Withdraws m m' where
  issued := stored.issued
  boundary := fun _ found => stored.boundary ▸ found
  last := stored.lastRequestId.ge
  window := by
    rcases stored.window with same | ⟨_, _, _, _, after⟩
    · exact .inl (by rw [same])
    · exact .inr (by rw [after]; rfl)

/-- A conversion withdraws every request. -/
theorem Converted.withdraws {under : Option EngineLearningIdentity} {wire : List (WireClause τ)}
    (converted : Converted m m' under wire) : Withdraws m m' where
  issued := fun _ _ found => (lookup_empty_ne_some (converted.issued ▸ found)).elim
  boundary := fun _ found => by rw [converted.boundary] at found; cases found
  last := converted.lastRequestId.ge
  window := .inr (by rw [converted.window]; rfl)

end Withdraws

/-- What asking a request leaves: its entry, which the window waits for, and of the others only what there was. -/
structure Issues (m m' : ClauseConversion τ) (key : ClauseRequestKey) (entry : IssuedCandidates) : Prop where
  under : entry.request.key = key
  placed : m'.Pending entry
  others : ∀ other, m'.Pending other → other = entry ∨ m.Pending other
  last : m'.lastRequestId = key.requestId
  window : m'.window.loadingKey = some key

/-- What a request has from the one it continues: it is asked while the window waits for that one, in its place and
until the same time. A fresh one has its own time, and only a rebaseline may use an id that was reserved before. -/
def Continues (m m' : ClauseConversion τ) (entry : IssuedCandidates) : Ask → Prop
  | .fresh key start => m.lastRequestId < key.requestId ∧ entry.deadline = start + requestLifetime
  | .rebased source key =>
    m.lastRequestId < key.requestId ∧ m.window.loadingKey = some source ∧
      (∃ pending, m.Pending pending ∧ pending.request.key = source ∧ entry.deadline = pending.deadline ∧
        entry.rebaselineUsed = pending.rebaselineUsed) ∧
      ∀ other, m'.Pending other → other = entry ∨ other.request.key.requestId ≠ source.requestId
  | .rebaselined source key =>
    m.lastRequestId = key.requestId ∧ m.window.loadingKey = some source ∧ entry.rebaselineUsed = true ∧
      (∃ pending, m.Pending pending ∧ pending.request.key = source ∧ entry.deadline = pending.deadline) ∧
      ∀ other, m'.Pending other → other = entry

/-- A request that was asked for the list or the boundary of a clause is issued. -/
theorem Asked.issues {m m' : ClauseConversion τ} {entry : IssuedCandidates} (asked : Asked m m' entry)
    (placed : m'.Pending entry) (last : m'.lastRequestId = entry.request.key.requestId) :
    Issues m m' entry.request.key entry where
  under := rfl
  placed := placed
  others := fun other pending => by
    rcases pending with ⟨id, found⟩ | found
    · rcases asked.issued id other found with ⟨_, new⟩ | old
      · exact .inl new
      · exact .inr (.inl ⟨id, old⟩)
    · rcases asked.boundary other found with new | old
      · exact .inl new
      · exact .inr (.inr old)
  last := last
  window := by rw [asked.window]; rfl

section Steps

variable [EngineToken τ] {m : ClauseConversion τ}

/-- Choosing withdraws at most. -/
theorem selectCandidate_withdraws (m : ClauseConversion τ) (index : Nat) : Withdraws m (m.selectCandidate index).1 := by
  rcases selectCandidate_cases m index with quiet | ⟨_, _, chosen⟩
  · exact quiet.withdraws
  · exact chosen.withdraws

/-- Cycling withdraws at most. -/
theorem advanceCandidate_withdraws (m : ClauseConversion τ) (direction : Int) :
    Withdraws m (m.advanceCandidate direction).1 := by
  unfold advanceCandidate
  split
  · exact selectCandidate_withdraws m _
  · exact .refl m

/-- A candidate reply withdraws at most. -/
theorem acceptCandidates_withdraws (m : ClauseConversion τ) (key : ClauseRequestKey)
    (status : ClauseCandidatesStatus τ) (now : Nat) : Withdraws m (m.acceptCandidates key status now).1 := by
  rcases acceptCandidates_cases m key status now with same | ⟨ended, _⟩ | stored
  · rw [same]
    exact .refl m
  · rw [ended]
    exact (endRequest_quiet m key).withdraws
  · obtain ⟨entry, candidates, mid, _, _, _, stored, result⟩ := stored
    rcases result with result | ⟨direction, result⟩ <;> rw [result]
    · exact stored.withdraws
    · exact stored.withdraws.trans (advanceCandidate_withdraws mid direction)

omit [EngineToken τ] in
/-- Opening a list asks a fresh request, or withdraws at most. -/
theorem openCandidates_waits (m : ClauseConversion τ) (requestId now : Nat) :
    ((m.openCandidates requestId now).2 = none ∧ Withdraws m (m.openCandidates requestId now).1) ∨
      ∃ entry, (m.openCandidates requestId now).2 = some entry.request ∧ entry.request.key.requestId = requestId ∧
        m.lastRequestId < requestId ∧ entry.deadline = now + requestLifetime ∧
        Issues m (m.openCandidates requestId now).1 entry.request.key entry ∧
        (m.openCandidates requestId now).1.issued = m.issued.insert requestId entry ∧
        (m.openCandidates requestId now).1.boundaryRequest = m.boundaryRequest := by
  rcases openCandidates_cases m requestId now with ⟨silent, quiet | ⟨_, listed⟩⟩ |
    ⟨entry, sent, id, ⟨_, deadline⟩, above, last, boundary, issued, asked⟩
  · exact .inl ⟨silent, quiet.withdraws⟩
  · exact .inl ⟨silent, listed.withdraws⟩
  · have placed : (m.openCandidates requestId now).1.Pending entry :=
      .inl ⟨requestId, by rw [issued, AList.lookup_insert]⟩
    exact .inr ⟨entry, sent, id, above, deadline, asked.issues placed (last.trans id.symm), issued, boundary⟩

/-- Opening a list and moving once asks a fresh request, or withdraws at most. -/
theorem cycleCandidate_waits (m : ClauseConversion τ) (requestId : Nat) (direction : Int) (now : Nat) :
    ((m.cycleCandidate requestId direction now).2 = none ∧ Withdraws m (m.cycleCandidate requestId direction now).1) ∨
      ∃ entry, (m.cycleCandidate requestId direction now).2 = some entry.request ∧
        m.lastRequestId < entry.request.key.requestId ∧ entry.deadline = now + requestLifetime ∧
        Issues m (m.cycleCandidate requestId direction now).1 entry.request.key entry := by
  unfold cycleCandidate
  split
  · exact .inl ⟨rfl, advanceCandidate_withdraws m direction⟩
  rcases openCandidates_waits m requestId now with ⟨silent, withdraws⟩ |
    ⟨entry, sent, id, above, deadline, issues, issued, boundary⟩
  · generalize m.openCandidates requestId now = result at *
    obtain ⟨m', request⟩ := result
    dsimp only at silent withdraws
    subst silent
    dsimp only
    split
    · exact .inl ⟨rfl, withdraws.trans (advanceCandidate_withdraws m' direction)⟩
    · exact .inl ⟨rfl, withdraws⟩
  · generalize m.openCandidates requestId now = result at *
    obtain ⟨m', request⟩ := result
    dsimp only at sent issues issued boundary
    subst sent
    dsimp only
    have found : m'.issued.lookup entry.request.key.requestId = some entry := by
      rw [issued, id, AList.lookup_insert]
    rw [found]
    -- The direction is noted in the entry, under the same id.
    refine .inr ⟨{ entry with advance := direction }, rfl, by show _ < entry.request.key.requestId; omega, deadline, ?_⟩
    refine ⟨rfl, .inl ⟨_, AList.lookup_insert _⟩, fun other pending => ?_, issues.last, issues.window⟩
    rcases pending with ⟨key, look⟩ | look
    · rcases Table.lookup_insert_cases look with ⟨_, new⟩ | ⟨apart, old⟩
      · exact .inl new
      · rw [issued] at old
        rcases Table.lookup_insert_cases old with ⟨same, _⟩ | ⟨_, before⟩
        · exact absurd (same.trans id.symm) apart
        · exact .inr (.inl ⟨key, before⟩)
    · exact .inr (.inr (boundary ▸ look))

/-- Every operation asks at most one request, which continues at most the one that it answers, and withdraws at most
what was waited for. -/
theorem apply_waits (segmentation : Segmentation) (numbered : m.Numbered) (op : ClauseOp τ) :
    (m.asks op = none ∧ Withdraws m (m.apply segmentation op)) ∨
      ∃ ask entry, m.asks op = some ask ∧ Issues m (m.apply segmentation op) ask.key entry ∧
        Continues m (m.apply segmentation op) entry ask := by
  cases op with
  | promoteLiveDisplay identity reading text =>
    refine .inl ⟨rfl, ?_⟩
    simp only [apply]
    cases promoted : m.promoteLiveDisplay identity reading text with
    | none => exact .refl m
    | some m' =>
      rcases promoteLiveDisplay_cases promoted with quiet | extended
      · exact quiet.withdraws
      · exact extended.withdraws
  | beginReadingEdit index => exact .inl ⟨rfl, (beginReadingEdit_edited m index).withdraws⟩
  | replaceEditedReading reading readingRevision =>
    exact .inl ⟨rfl, (replaceEditedReading_edited m reading readingRevision).withdraws⟩
  | deleteDisplayTail => exact .inl ⟨rfl, (deleteDisplayTail_edited m segmentation).withdraws⟩
  | escape => exact .inl ⟨rfl, (escape_edited m).withdraws⟩
  | resizeSelected direction => exact .inl ⟨rfl, (resizeSelected_edited direction).withdraws⟩
  | openBoundaryConversion requestId now =>
    rcases openBoundaryConversion_cases m requestId now with ⟨silent, same⟩ |
      ⟨entry, request, sent, ⟨converting, deadline⟩, id, above, last, boundary, _, asked⟩
    · refine .inl ⟨by simp [asks, silent], ?_⟩
      simp only [apply, same]
      exact .refl m
    · have under := (asked.conversion request converting).1
      refine .inr ⟨.fresh request.key now, entry, by simp [asks, sent], ?_, by rw [under]; omega, deadline⟩
      show Issues m _ request.key entry
      rw [under]
      exact asked.issues (.inr boundary) (last.trans id.symm)
  | acceptBoundaryConversion key status learning now =>
    refine .inl ⟨rfl, ?_⟩
    rcases acceptBoundaryConversion_cases m key status learning now with ⟨_, quiet⟩ |
      ⟨_, _, wire, _, _, _, _, _, _, _, _, _, converted⟩
    · exact quiet.withdraws
    · exact converted.withdraws
  | prepareRebaseline key snapshotRequestId convertRequestId now =>
    exact .inl ⟨rfl, (prepareRebaseline_quiet m key snapshotRequestId convertRequestId now).withdraws⟩
  | acceptRebaseline attempt response learning now =>
    rcases acceptRebaseline_cases m attempt response learning now with same |
      ⟨request, pending, found, ⟨sameRequest, deadline, window⟩, id, _, last, asked, result⟩
    · refine .inl ⟨by simp [asks, same], ?_⟩
      simp only [apply, same]
      exact .refl m
    · obtain ⟨issued, boundary⟩ := rebased_outstanding m attempt request learning
      have only : ∀ other, (m.rebased attempt request learning).Pending other → other = renewed attempt request := by
        rintro other (⟨key, look⟩ | look)
        · exact (issued key other look).2
        · exact boundary other look
      have waited : m.Pending pending := by
        split at found
        · exact .inr found
        · exact .inl ⟨_, found⟩
      refine .inr ⟨.rebaselined attempt.original.request.key request.key, renewed attempt request,
        by simp [asks, result], ?_, ?_⟩
      · simp only [apply, result]
        refine ⟨rfl, ?_, fun other look => .inl (only other look), ?_, ?_⟩
        · unfold rebased
          cases attempt.boundary with
          | true => exact .inr rfl
          | false => exact .inl ⟨_, AList.lookup_insert _⟩
        · unfold rebased
          cases attempt.boundary <;> exact last.trans id.symm
        · unfold rebased
          cases attempt.boundary <;> rfl
      · simp only [apply, result]
        exact ⟨last.trans id.symm, window, rfl, ⟨pending, waited, by rw [sameRequest], deadline.symm⟩, only⟩
  | acceptRebasedConversion key status learning candidateRequestId now =>
    rcases acceptRebasedConversion_cases m key status learning candidateRequestId now with same |
      ⟨pending, conversion, found, _, _, _, ended |
        ⟨entry, ⟨id, deadline, used, window, sent⟩, above, last, boundary, issued, asked⟩⟩
    · refine .inl ⟨by simp [asks, same], ?_⟩
      simp only [apply, same]
      exact .refl m
    · refine .inl ⟨by simp [asks, ended], ?_⟩
      simp only [apply, ended]
      exact (endRequest_quiet m key).withdraws
    · have placed : (m.acceptRebasedConversion key status learning candidateRequestId now).1.Pending entry :=
        .inl ⟨candidateRequestId, by rw [issued, AList.lookup_insert]⟩
      refine .inr ⟨.rebased key entry.request.key, entry, by simp [asks, sent],
        asked.issues placed (last.trans id.symm), by show _ < entry.request.key.requestId; omega, window,
        ⟨pending, .inl ⟨_, found⟩, ?_, deadline, used⟩, ?_⟩
      · exact numbered.loading key pending window found
      · rintro other (⟨place, look⟩ | look) <;> simp only [apply] at look
        · rw [issued] at look
          rcases Table.lookup_insert_cases look with ⟨_, new⟩ | ⟨_, old⟩
          · exact .inl new
          · obtain ⟨apart, before⟩ := Table.lookup_of_lookup_erase old
            exact .inr (by rw [numbered.issued place other before]; exact apart)
        · -- A boundary request is never under the id of a kept one.
          rw [boundary] at look
          refine .inr fun same => ?_
          have absent := numbered.apart other look
          rw [same, found] at absent
          cases absent
  | replaceWholeSurface surface => exact .inl ⟨rfl, (replaceWholeSurface_edited m surface).withdraws⟩
  | transformKana start stop kind => exact .inl ⟨rfl, (transformNotation_edited m start stop kind none).withdraws⟩
  | transformNotation start stop kind original =>
    exact .inl ⟨rfl, (transformNotation_edited m start stop kind original).withdraws⟩
  | invalidateLearning => exact .inl ⟨rfl, (invalidateLearning_forgotten m).withdraws⟩
  | refreshLearningIdentity identity =>
    refine .inl ⟨rfl, ?_⟩
    simp only [apply]
    rcases refreshLearningIdentity_cases m identity with same | ⟨forgotten, _⟩
    · rw [same]
      exact .refl m
    · exact forgotten.withdraws
  | configuredLearningIdentity identity =>
    refine .inl ⟨rfl, ?_⟩
    simp only [apply]
    rcases configuredLearningIdentity_cases m identity with same | forgotten
    · rw [same]
      exact .refl m
    · exact forgotten.withdraws
  | closeWindow => exact .inl ⟨rfl, (closeWindow_quiet m).withdraws⟩
  | moveClause offset => exact .inl ⟨rfl, (moveClause_quiet m offset).withdraws⟩
  | openCandidates requestId now =>
    rcases openCandidates_waits m requestId now with ⟨silent, withdraws⟩ | ⟨entry, sent, id, above, deadline, issues, _⟩
    · exact .inl ⟨by simp [asks, silent], withdraws⟩
    · exact .inr ⟨.fresh entry.request.key now, entry, by simp [asks, sent], issues, by omega, deadline⟩
  | cycleCandidate requestId direction now =>
    rcases cycleCandidate_waits m requestId direction now with ⟨silent, withdraws⟩ | ⟨entry, sent, above, deadline, issues⟩
    · exact .inl ⟨by simp [asks, silent], withdraws⟩
    · exact .inr ⟨.fresh entry.request.key now, entry, by simp [asks, sent], issues, above, deadline⟩
  | acceptCandidates key status now => exact .inl ⟨rfl, acceptCandidates_withdraws m key status now⟩
  | acceptCandidatesWithIdentity key status identity now =>
    refine .inl ⟨rfl, ?_⟩
    simp only [apply]
    rcases acceptCandidatesWithIdentity_cases m key status identity now with same | ⟨ended, _⟩ | ⟨mid, under, _, result⟩
    · rw [same]
      exact .refl m
    · rw [ended]
      exact (endRequest_quiet m key).withdraws
    · rw [result]
      rcases under with rfl | ⟨entry, learning, _, found, _, rfl⟩
      · exact acceptCandidates_withdraws mid key status now
      · exact (underIdentity_forgotten learning found).withdraws.trans (acceptCandidates_withdraws _ key status now)
  | endRequest key => exact .inl ⟨rfl, (endRequest_quiet m key).withdraws⟩
  | expire now => exact .inl ⟨rfl, (expire_quiet m now).withdraws⟩
  | selectCandidate index => exact .inl ⟨rfl, selectCandidate_withdraws m index⟩
  | advanceCandidate direction => exact .inl ⟨rfl, advanceCandidate_withdraws m direction⟩
  | resetNotationCycle => exact .inl ⟨rfl, (resetNotationCycle_quiet m).withdraws⟩

/-- The time at which a reply is received. -/
def replyTime : ClauseOp τ → Option Nat
  | .acceptCandidates _ _ now => some now
  | .acceptCandidatesWithIdentity _ _ _ now => some now
  | .acceptBoundaryConversion _ _ _ now => some now
  | .acceptRebasedConversion _ _ _ _ now => some now
  | .acceptRebaseline _ _ _ now => some now
  | _ => none

/-- A reply that comes too late changes no clause, opens no window and asks nothing. -/
structure Lapses (m m' : ClauseConversion τ) (asked : Option Ask) : Prop where
  clauses : m'.clauses = m.clauses
  window : m'.window = m.window ∨ m'.window = .closed
  silent : asked = none

omit [EngineToken τ] in
/-- What does nothing lapses. -/
theorem lapses_refl (m : ClauseConversion τ) : Lapses m m none := ⟨rfl, .inl rfl, rfl⟩

omit [EngineToken τ] in
/-- What only withdraws a request lapses. -/
theorem endRequest_lapses (m : ClauseConversion τ) (key : ClauseRequestKey) : Lapses m (m.endRequest key) none :=
  ⟨(endRequest_quiet m key).clauses, (endRequest_quiet m key).window, rfl⟩

/-- A candidate reply to a request that has expired lapses. -/
theorem acceptCandidates_late {key : ClauseRequestKey} {now : Nat}
    (expired : ∀ entry, m.Awaits key entry → entry.deadline ≤ now) (status : ClauseCandidatesStatus τ) :
    Lapses m (m.acceptCandidates key status now).1 none := by
  unfold acceptCandidates
  split
  · exact lapses_refl m
  rename_i entry found
  split
  · exact lapses_refl m
  rename_i admitted
  simp only [Bool.or_eq_true, decide_eq_true_eq, not_or, ne_eq, not_not] at admitted
  rw [if_pos (expired entry ⟨.inl found, admitted.1.1.1⟩)]
  exact endRequest_lapses m key

/-- Every reply to a request that has expired lapses. -/
theorem late_lapses (segmentation : Segmentation) (sound : m.Sound) {op : ClauseOp τ} {key : ClauseRequestKey} {now : Nat}
    (answers : replyKey op = some key) (received : replyTime op = some now)
    (expired : ∀ entry, m.Awaits key entry → entry.deadline ≤ now) :
    Lapses m (m.apply segmentation op) (m.asks op) := by
  cases op with
  | acceptCandidates _ status _ =>
    obtain rfl := Option.some.inj answers
    obtain rfl := Option.some.inj received
    exact acceptCandidates_late expired status
  | acceptCandidatesWithIdentity _ status identity _ =>
    obtain rfl := Option.some.inj answers
    obtain rfl := Option.some.inj received
    show Lapses m (m.acceptCandidatesWithIdentity _ status identity _).1 none
    unfold acceptCandidatesWithIdentity
    split
    · split
      · exact lapses_refl m
      rename_i entry found
      split
      · exact endRequest_lapses m _
      split
      · exact lapses_refl m
      rename_i admitted
      simp only [Bool.or_eq_true, decide_eq_true_eq, not_or, ne_eq, not_not] at admitted
      rw [if_pos (by simp [expired entry ⟨.inl found, admitted.1.1.1⟩])]
      exact endRequest_lapses m _
    · exact acceptCandidates_late expired _
  | acceptBoundaryConversion _ status learning _ =>
    obtain rfl := Option.some.inj answers
    obtain rfl := Option.some.inj received
    show Lapses m (m.acceptBoundaryConversion _ status learning _).1 none
    unfold acceptBoundaryConversion
    split
    · exact lapses_refl m
    rename_i pending found
    split
    · exact lapses_refl m
    rename_i request converting
    split
    · exact lapses_refl m
    rename_i admitted
    simp only [Bool.or_eq_true, decide_eq_true_eq, not_or, ne_eq, not_not] at admitted
    have under := ((sound.boundary pending found).conversion request converting).1
    rw [if_pos (expired pending ⟨.inr found, under.symm.trans admitted.1.1.1.1⟩)]
    exact ⟨rfl, .inr rfl, rfl⟩
  | acceptRebasedConversion key status learning candidateRequestId now =>
    obtain rfl := Option.some.inj answers
    obtain rfl := Option.some.inj received
    have result : m.acceptRebasedConversion key status learning candidateRequestId now = (m, none) ∨
        m.acceptRebasedConversion key status learning candidateRequestId now = (m.endRequest key, none) := by
      unfold acceptRebasedConversion
      split
      · exact .inl rfl
      rename_i pending found
      split
      · exact .inl rfl
      rename_i conversion converting
      split
      · exact .inl rfl
      rename_i admitted
      simp only [Bool.or_eq_true, decide_eq_true_eq, not_or, ne_eq, not_not] at admitted
      have under := ((sound.issued _ pending found).conversion conversion converting).1
      have late := expired pending ⟨.inl found, under.symm.trans admitted.1.1.1.1.1⟩
      dsimp only
      split
      · exact .inl rfl
      · exact .inr rfl
      split
      · exact .inr rfl
      · rw [if_pos (by simp [Nat.not_lt.mpr late])]
        exact .inr rfl
    rcases result with same | ended
    · simp only [apply, asks, same]
      exact lapses_refl m
    · simp only [apply, asks, ended]
      exact endRequest_lapses m key
  | acceptRebaseline attempt response learning now =>
    obtain rfl := Option.some.inj answers
    obtain rfl := Option.some.inj received
    have result : m.acceptRebaseline attempt response learning now = (m, none) := by
      unfold acceptRebaseline
      dsimp only
      split
      · rfl
      rename_i pending found
      split
      · rfl
      rename_i admitted
      simp only [Bool.or_eq_true, decide_eq_true_eq, not_or, ne_eq, not_not] at admitted
      obtain ⟨⟨⟨⟨⟨⟨⟨⟨⟨⟨⟨⟨request, _⟩, _⟩, inTime⟩, _⟩, _⟩, _⟩, _⟩, _⟩, _⟩, _⟩, _⟩, _⟩ := admitted
      refine absurd (expired pending ⟨?_, by rw [request]⟩) inTime
      split at found
      · exact .inr found
      · exact .inl found
    simp only [apply, asks, result]
    exact lapses_refl m
  | _ => cases answers

end Steps

end ClauseConversion

end Nospacekey
