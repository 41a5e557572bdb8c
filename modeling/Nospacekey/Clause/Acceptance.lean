import Nospacekey.Clause.Sessions

/-! What an accepted reply says about the model at the moment it is accepted. -/

namespace Nospacekey

open Runs

variable {τ : Type}

namespace ClauseConversion

/-- The key of the request that a reply answers. -/
def replyKey : ClauseOp τ → Option ClauseRequestKey
  | .acceptCandidates key _ _ => some key
  | .acceptCandidatesWithIdentity key _ _ _ => some key
  | .acceptBoundaryConversion key _ _ _ => some key
  | .acceptRebasedConversion key _ _ _ _ => some key
  | .acceptRebaseline attempt _ _ _ => some attempt.original.request.key
  | _ => none

/-- A list is newly kept, or a list is newly shown. -/
def Gains (m m' : ClauseConversion τ) : Prop :=
  (∃ id cached, m'.cache.lookup id = some cached ∧ m.cache.lookup id ≠ some cached) ∨
    (m'.window.isReady = true ∧ m'.window ≠ m.window)

/-- A reply is accepted: its candidates are kept or shown, its clauses replace others, or the next
request of its chain is made. -/
def Accepts [EngineToken τ] (m : ClauseConversion τ) : ClauseOp τ → Prop
  | .acceptCandidates key status now => Gains m (m.acceptCandidates key status now).1
  | .acceptCandidatesWithIdentity key status identity now =>
    Gains m (m.acceptCandidatesWithIdentity key status identity now).1
  | .acceptBoundaryConversion key status learning now =>
    (m.acceptBoundaryConversion key status learning now).2 = true ∨
      (m.acceptBoundaryConversion key status learning now).1.clauses ≠ m.clauses
  | .acceptRebasedConversion key status learning candidateRequestId now =>
    (m.acceptRebasedConversion key status learning candidateRequestId now).2.isSome = true
  | .acceptRebaseline attempt response learning now =>
    (m.acceptRebaseline attempt response learning now).2.isSome = true
  | _ => False

/-- A request under a key is waited for. -/
def Awaits (m : ClauseConversion τ) (key : ClauseRequestKey) (entry : IssuedCandidates) : Prop :=
  (m.issued.lookup key.requestId = some entry ∨ m.boundaryRequest = some entry) ∧ entry.request.key = key

/-- The ranges asked to be converted are those of consecutive clauses from the key's clause on, and
the reading and what precedes those clauses are what the request says. -/
def Covers (m : ClauseConversion τ) (request : ConvertClausesRequest) : Prop :=
  request.reading = m.reading ∧ ∃ index clause, m.clauses[index]? = some clause ∧
    clause.id = request.key.clauseId ∧
    ((m.clauses.drop index).take request.clauses.length).map clauseRange = request.clauses ∧
    m.preceding index = request.precedingSurfaces

/-- A boundary conversion asks about the present clauses. Other replies make no such claim. -/
def AnswersPresent (m : ClauseConversion τ) (entry : IssuedCandidates) : ClauseOp τ → Prop
  | .acceptBoundaryConversion _ _ _ _ =>
    ∃ conversion, entry.conversion = some conversion ∧ m.Covers conversion
  | _ => True

/-- Neither the clauses, the reading, the selection nor the window change. -/
def SameScreen (m m' : ClauseConversion τ) : Prop :=
  m'.clauses = m.clauses ∧ m'.reading = m.reading ∧ m'.selected = m.selected ∧ m'.window = m.window

section Gains

variable {m m' : ClauseConversion τ}

/-- Nothing is gained where lists are only dropped and the window stays or stops showing one. -/
theorem not_gains (cache : ∀ id cached, m'.cache.lookup id = some cached → m.cache.lookup id = some cached)
    (window : m'.window = m.window ∨ m'.window.isReady = false) : ¬ Gains m m' := by
  rintro (⟨id, cached, found, missing⟩ | ⟨ready, changed⟩)
  · exact missing (cache id cached found)
  · rcases window with same | unready
    · exact changed same
    · rw [unready] at ready; cases ready

/-- A quiet step gains nothing. -/
theorem Quiet.not_gains (quiet : Quiet m m') : ¬ Gains m m' :=
  ClauseConversion.not_gains quiet.cache (quiet.window.imp_right fun closed => by rw [closed]; rfl)

/-- What is gained after forgetting was not there before it either. -/
theorem Gains.of_forgotten {mid : ClauseConversion τ} (forgotten : Forgotten m mid)
    (gains : Gains m m') : Gains mid m' := by
  rcases gains with ⟨id, cached, found, _⟩ | ⟨ready, _⟩
  · refine .inl ⟨id, cached, found, fun kept => ?_⟩
    exact lookup_empty_ne_some (forgotten.cache ▸ kept)
  · refine .inr ⟨ready, fun same => ?_⟩
    -- The window does not show a list after tokens were forgotten.
    rw [same] at ready
    rcases forgotten.window with closed | ⟨kept, unready⟩
    · rw [closed] at ready; cases ready
    · rw [kept, unready] at ready; cases ready

variable [EngineToken τ]

/-- A reply that gains something was stored for the awaited request with its key, which it answers. -/
theorem acceptCandidates_gains {key : ClauseRequestKey} {status : ClauseCandidatesStatus τ} {now : Nat}
    (gains : Gains m (m.acceptCandidates key status now).1) :
    ∃ entry, m.issued.lookup key.requestId = some entry ∧ entry.request.key = key ∧
      key.conversionRevision = m.revision ∧
      (m.acceptCandidates key status now).1.issued.lookup key.requestId = none ∧
      ∀ other, (m.acceptCandidates key status now).1.boundaryRequest = some other →
        m.boundaryRequest = some other := by
  rcases acceptCandidates_cases m key status now with same | ⟨ended, _⟩ | stored
  · rw [same] at gains
    exact absurd gains (Quiet.refl m).not_gains
  · rw [ended] at gains
    exact absurd gains (endRequest_quiet m key).not_gains
  obtain ⟨entry, candidates, mid, found, same, _, stored, result⟩ := stored
  refine ⟨entry, found, same, by rw [← same]; exact stored.current, ?_⟩
  have answered : mid.issued.lookup key.requestId = none := by rw [← same]; exact stored.answered
  have boundary : ∀ other, mid.boundaryRequest = some other → m.boundaryRequest = some other :=
    fun other found => stored.boundary ▸ found
  rcases result with result | ⟨direction, result⟩ <;> rw [result]
  · exact ⟨answered, boundary⟩
  unfold advanceCandidate
  split
  · rcases selectCandidate_cases mid _ with quiet | ⟨_, _, chosen⟩
    · refine ⟨?_, fun other found => boundary other (quiet.boundary other found)⟩
      cases look : AList.lookup key.requestId (mid.selectCandidate _).1.issued with
      | none => rfl
      | some other => rw [quiet.issued _ other look] at answered; cases answered
    · exact ⟨by rw [chosen.issued]; rfl, fun other found => boundary other (chosen.boundary ▸ found)⟩
  · exact ⟨answered, boundary⟩

/-- The same holds of a reply that brings its learning identity. -/
theorem acceptCandidatesWithIdentity_gains {key : ClauseRequestKey} {status : ClauseCandidatesStatus τ}
    {identity : Option EngineLearningIdentity} {now : Nat}
    (gains : Gains m (m.acceptCandidatesWithIdentity key status identity now).1) :
    ∃ entry, m.issued.lookup key.requestId = some entry ∧ entry.request.key = key ∧
      key.conversionRevision = m.revision ∧
      (m.acceptCandidatesWithIdentity key status identity now).1.issued.lookup key.requestId = none ∧
      ∀ other, (m.acceptCandidatesWithIdentity key status identity now).1.boundaryRequest = some other →
        m.boundaryRequest = some other := by
  rcases acceptCandidatesWithIdentity_cases m key status identity now with same | ⟨ended, _⟩ | accepted
  · rw [same] at gains
    exact absurd gains (Quiet.refl m).not_gains
  · rw [ended] at gains
    exact absurd gains (endRequest_quiet m key).not_gains
  obtain ⟨mid, rfl | ⟨entry, learning, _, found, _, rfl⟩, _, result⟩ := accepted
  · rw [result] at gains ⊢
    exact acceptCandidates_gains gains
  · have forgotten := underIdentity_forgotten learning found
    rw [result] at gains ⊢
    obtain ⟨other, look, same, current, answered, boundary⟩ :=
      acceptCandidates_gains (gains.of_forgotten forgotten)
    exact ⟨other, forgotten.issued _ other look, same, current.trans forgotten.revision, answered,
      fun _ kept => forgotten.boundary _ (boundary _ kept)⟩

end Gains

section Context

variable [EngineToken τ] {m : ClauseConversion τ}

/-- An accepted boundary conversion answers the pending one, and is about the present clauses. -/
theorem acceptBoundaryConversion_present (sound : m.Sound) {key : ClauseRequestKey}
    {status : ConvertClausesStatus τ} {learning : Option EngineLearningIdentity} {now : Nat}
    (accepts : m.Accepts (.acceptBoundaryConversion key status learning now)) :
    ∃ pending request, m.boundaryRequest = some pending ∧ pending.conversion = some request ∧
      pending.request.key = key ∧ key.conversionRevision = m.revision ∧ m.Covers request := by
  simp only [Accepts] at accepts
  rcases acceptBoundaryConversion_cases m key status learning now with ⟨refused, quiet⟩ | accepted
  · rcases accepts with taken | changed
    · rw [refused] at taken; cases taken
    · exact absurd quiet.clauses changed
  obtain ⟨pending, request, _, index, issued, converting, same, current, _, ranges, identified, inside, _⟩ :=
    accepted
  have timely := sound.boundary pending issued
  obtain ⟨sameKey, reading, preceding⟩ := timely.conversion request converting
  have key' : pending.request.key = key := sameKey.symm.trans same
  obtain ⟨carried, place, clause, atPlace, range, before⟩ := timely.carries (by rw [key', current])
  refine ⟨pending, request, issued, converting, key', current, reading.trans carried, place, clause,
    atPlace, ?_, ?_, before.trans preceding.symm⟩
  · rw [same, ← key']
    exact congrArg ClauseRange.id range
  · -- Both indices are those of the clause with the key's id.
    have first := identified _ (List.getElem?_eq_getElem inside)
    have id : clause.id = key.clauseId := by rw [← key']; exact congrArg ClauseRange.id range
    have equal : place = index := by
      have bound := (List.getElem?_eq_some_iff.mp atPlace).1
      have ids : (m.clauses.map LocalClause.id)[place]? = (m.clauses.map LocalClause.id)[index]? := by
        rw [List.getElem?_map, List.getElem?_map, atPlace, List.getElem?_eq_getElem inside]
        exact congrArg some (id.trans first.symm)
      exact (List.getElem?_inj (by simpa using bound) sound.formed.distinct).mp ids
    rw [equal]
    exact ranges

/-- An accepted reply answers a request that is waited for and describes the model as it is. -/
theorem Accepts.context (sound : m.Sound) {op : ClauseOp τ} {key : ClauseRequestKey}
    (answers : replyKey op = some key) (accepts : m.Accepts op) :
    ∃ entry, m.Awaits key entry ∧ m.Carries entry.request ∧ m.AnswersPresent entry op := by
  have issued : ∀ entry, m.issued.lookup key.requestId = some entry → entry.request.key = key →
      key.conversionRevision = m.revision → m.Awaits key entry ∧ m.Carries entry.request :=
    fun entry found same current =>
      ⟨⟨.inl found, same⟩, (sound.issued _ entry found).carries (by rw [same, current])⟩
  cases op with
  | acceptCandidates _ status now =>
    obtain rfl := (Option.some.inj answers).symm
    obtain ⟨entry, found, same, current, _⟩ := acceptCandidates_gains accepts
    obtain ⟨awaits, carries⟩ := issued entry found same current
    exact ⟨entry, awaits, carries, trivial⟩
  | acceptCandidatesWithIdentity _ status identity now =>
    obtain rfl := (Option.some.inj answers).symm
    obtain ⟨entry, found, same, current, _⟩ := acceptCandidatesWithIdentity_gains accepts
    obtain ⟨awaits, carries⟩ := issued entry found same current
    exact ⟨entry, awaits, carries, trivial⟩
  | acceptBoundaryConversion _ status learning now =>
    obtain rfl := (Option.some.inj answers).symm
    obtain ⟨pending, request, found, converting, same, current, covers⟩ :=
      acceptBoundaryConversion_present sound accepts
    refine ⟨pending, ⟨.inr found, same⟩, ?_, request, converting, covers⟩
    exact (sound.boundary pending found).carries (by rw [same, current])
  | acceptRebasedConversion _ status learning candidateRequestId now =>
    obtain rfl := (Option.some.inj answers).symm
    simp only [Accepts] at accepts
    rcases acceptRebasedConversion_cases m key status learning candidateRequestId now with
      refused | ⟨pending, conversion, found, converting, same, current, _⟩
    · rw [refused] at accepts; cases accepts
    · have sameKey := ((sound.issued _ pending found).conversion conversion converting).1
      obtain ⟨awaits, carries⟩ := issued pending found (sameKey.symm.trans same) current
      exact ⟨pending, awaits, carries, trivial⟩
  | acceptRebaseline attempt response learning now =>
    obtain rfl := (Option.some.inj answers).symm
    simp only [Accepts] at accepts
    rcases acceptRebaseline_cases m attempt response learning now with refused | accepted
    · rw [refused] at accepts; cases accepts
    obtain ⟨_, pending, found, ⟨same, _⟩, _, current, _⟩ := accepted
    split at found
    · refine ⟨pending, ⟨.inr found, by rw [same]⟩, ?_, trivial⟩
      exact (sound.boundary pending found).carries (by rw [same, current])
    · obtain ⟨awaits, carries⟩ := issued pending found (by rw [same]) current
      exact ⟨pending, awaits, carries, trivial⟩
  | _ => cases answers

end Context

section Strangers

variable {m : ClauseConversion τ}

/-- The screen stays the same where the model does. -/
theorem sameScreen_refl (m : ClauseConversion τ) : SameScreen m m := ⟨rfl, rfl, rfl, rfl⟩

/-- Withdrawing a request the window does not wait for is not seen. -/
theorem endRequest_sameScreen {key : ClauseRequestKey} (other : m.window.loadingKey ≠ some key) :
    SameScreen m (m.endRequest key) := by
  unfold endRequest
  rw [if_neg other]
  exact ⟨rfl, rfl, rfl, rfl⟩

variable [EngineToken τ]

/-- A boundary reply that nothing waits for leaves the model alone. -/
theorem acceptBoundaryConversion_stranger (sound : m.Sound) {key : ClauseRequestKey}
    (unknown : ∀ entry, ¬ m.Awaits key entry) (status : ConvertClausesStatus τ)
    (learning : Option EngineLearningIdentity) (now : Nat) :
    m.acceptBoundaryConversion key status learning now = (m, false) := by
  unfold acceptBoundaryConversion
  split
  · rfl
  rename_i pending issued
  split
  · rfl
  rename_i request converting
  refine if_pos ?_
  -- A pending request with this key would be waited for.
  have other : request.key ≠ key := fun same =>
    unknown pending ⟨.inr issued, ((sound.boundary pending issued).conversion request converting).1.symm.trans same⟩
  simp [other]

/-- A candidate reply that nothing waits for leaves the model alone. -/
theorem acceptCandidates_stranger {key : ClauseRequestKey} (unknown : ∀ entry, ¬ m.Awaits key entry)
    (status : ClauseCandidatesStatus τ) (now : Nat) : (m.acceptCandidates key status now).1 = m := by
  rcases acceptCandidates_cases m key status now with same | ⟨_, entry, found, same⟩ | stored
  · exact same
  · exact absurd ⟨.inl found, same⟩ (unknown entry)
  · obtain ⟨entry, _, _, found, same, _⟩ := stored
    exact absurd ⟨.inl found, same⟩ (unknown entry)

/-- A reply whose key nothing waits for is not seen. -/
theorem stranger_sameScreen (segmentation : Segmentation) (sound : m.Sound) (numbered : m.Numbered)
    {op : ClauseOp τ} {key : ClauseRequestKey} (answers : replyKey op = some key)
    (unknown : ∀ entry, ¬ m.Awaits key entry) : SameScreen m (m.apply segmentation op) := by
  cases op with
  | acceptCandidates _ status now =>
    obtain rfl := (Option.some.inj answers).symm
    simp only [apply, acceptCandidates_stranger unknown]
    exact sameScreen_refl m
  | acceptCandidatesWithIdentity _ status identity now =>
    obtain rfl := (Option.some.inj answers).symm
    simp only [apply]
    rcases acceptCandidatesWithIdentity_cases m key status identity now with
      same | ⟨ended, entry, found, _⟩ | accepted
    · rw [same]; exact sameScreen_refl m
    · -- The window waits for a kept request only under that request's own key.
      rw [ended]
      exact endRequest_sameScreen fun waiting =>
        unknown entry ⟨.inl found, numbered.loading key entry waiting found⟩
    · obtain ⟨mid, rfl | ⟨entry, _, _, found, same, _⟩, _, result⟩ := accepted
      · rw [result, acceptCandidates_stranger unknown]
        exact sameScreen_refl _
      · exact absurd ⟨.inl found, same⟩ (unknown entry)
  | acceptBoundaryConversion _ status learning now =>
    obtain rfl := (Option.some.inj answers).symm
    simp only [apply, acceptBoundaryConversion_stranger sound unknown]
    exact sameScreen_refl m
  | acceptRebasedConversion _ status learning candidateRequestId now =>
    obtain rfl := (Option.some.inj answers).symm
    simp only [apply]
    rcases acceptRebasedConversion_cases m key status learning candidateRequestId now with
      refused | ⟨pending, conversion, found, converting, same, _⟩
    · rw [refused]; exact sameScreen_refl m
    · have sameKey := ((sound.issued _ pending found).conversion conversion converting).1
      exact absurd ⟨.inl found, sameKey.symm.trans same⟩ (unknown pending)
  | acceptRebaseline attempt response learning now =>
    obtain rfl := (Option.some.inj answers).symm
    simp only [apply]
    rcases acceptRebaseline_cases m attempt response learning now with refused | accepted
    · rw [refused]; exact sameScreen_refl m
    obtain ⟨_, pending, found, ⟨same, _⟩, _⟩ := accepted
    refine absurd ⟨?_, by rw [same]⟩ (unknown pending)
    split at found
    · exact .inr found
    · exact .inl found
  | _ => cases answers

end Strangers

end ClauseConversion

namespace Session

open ClauseConversion

variable [EngineToken τ] {s : Session τ} {op : ClauseOp τ} {key : ClauseRequestKey}
  (segmentation : Segmentation)

omit [EngineToken τ] in
/-- Whoever waits for a key waits for its id. -/
theorem outstanding_of_awaits {m : ClauseConversion τ} {entry : IssuedCandidates}
    (awaits : m.Awaits key entry) : m.Outstanding key.requestId := by
  obtain ⟨found | found, same⟩ := awaits
  · exact .inl ⟨entry, found⟩
  · exact .inr ⟨entry, found, by rw [same]⟩

/-- An accepted reply answers its request for good. -/
theorem accepts_answered (kept : s.Kept) (admits : s.Admits op) (answers : replyKey op = some key)
    (accepts : s.model.Accepts op) : ¬ (s.apply segmentation op).model.Outstanding key.requestId := by
  -- The boundary request is never under the id of a kept request.
  have ended : ∀ m' : ClauseConversion τ, (∃ entry, s.model.issued.lookup key.requestId = some entry) →
      m'.issued.lookup key.requestId = none →
      (∀ other, m'.boundaryRequest = some other → s.model.boundaryRequest = some other) →
      ¬ m'.Outstanding key.requestId := by
    rintro m' ⟨entry, found⟩ answered boundary (⟨other, look⟩ | ⟨other, look, id⟩)
    · rw [answered] at look; cases look
    · have := kept.numbered.apart other (boundary other look)
      rw [id, found] at this
      cases this
  cases op with
  | acceptCandidates _ status now =>
    obtain rfl := (Option.some.inj answers).symm
    obtain ⟨entry, found, _, _, answered, boundary⟩ := acceptCandidates_gains accepts
    exact ended _ ⟨entry, found⟩ answered boundary
  | acceptCandidatesWithIdentity _ status identity now =>
    obtain rfl := (Option.some.inj answers).symm
    obtain ⟨entry, found, _, _, answered, boundary⟩ := acceptCandidatesWithIdentity_gains accepts
    exact ended _ ⟨entry, found⟩ answered boundary
  | acceptBoundaryConversion _ status learning now =>
    simp only [Accepts] at accepts
    simp only [apply, ClauseConversion.apply]
    rcases acceptBoundaryConversion_cases s.model _ status learning now with ⟨refused, quiet⟩ | accepted
    · rcases accepts with taken | changed
      · rw [refused] at taken; cases taken
      · exact absurd quiet.clauses changed
    obtain ⟨_, _, _, _, _, _, _, _, _, _, _, _, converted⟩ := accepted
    rintro (⟨other, look⟩ | ⟨other, look, _⟩)
    · exact lookup_empty_ne_some (converted.issued ▸ look)
    · rw [converted.boundary] at look; cases look
  | acceptRebasedConversion _ status learning candidateRequestId now =>
    obtain rfl := (Option.some.inj answers).symm
    simp only [Accepts] at accepts
    simp only [apply, ClauseConversion.apply]
    rcases acceptRebasedConversion_cases s.model key status learning candidateRequestId now with
      refused | ⟨pending, _, found, _, _, _, refused | asked⟩
    · rw [refused] at accepts; cases accepts
    · rw [refused] at accepts; cases accepts
    obtain ⟨entry, _, above, _, boundary, issued, _⟩ := asked
    have old := kept.numbered.below _ (.inl ⟨pending, found⟩)
    refine ended _ ⟨pending, found⟩ ?_ fun other look => boundary ▸ look
    rw [issued, AList.lookup_insert_ne (by omega)]
    exact AList.lookup_erase _ _
  | acceptRebaseline attempt response learning now =>
    obtain rfl := (Option.some.inj answers).symm
    simp only [Accepts] at accepts
    simp only [apply, ClauseConversion.apply]
    rcases acceptRebaseline_cases s.model attempt response learning now with refused | accepted
    · rw [refused] at accepts; cases accepts
    obtain ⟨request, _, _, _, id, _, _, _, result⟩ := accepted
    obtain ⟨issued, boundary⟩ := rebased_outstanding s.model attempt request learning
    have later := (kept.ordered attempt admits).1
    rw [result]
    rintro (⟨other, look⟩ | ⟨other, look, same⟩)
    · have := (issued _ other look).1
      omega
    · rw [boundary other look] at same
      have : request.key.requestId = attempt.original.request.key.requestId := same
      omega
  | _ => cases answers

/-- What any operation and any reply may do to the model of a session. -/
structure Guarded (s : Session τ) : Prop where
  progress : ∀ op, (s.apply segmentation op).model.text ≠ s.model.text ∨
    (s.apply segmentation op).model.clauses.map precedingSurface ≠ s.model.clauses.map precedingSurface →
    s.model.revision < (s.apply segmentation op).model.revision
  context : ∀ op key, replyKey op = some key → s.model.Accepts op →
    ∃ entry, s.model.Awaits key entry ∧ s.model.Carries entry.request ∧ s.model.AnswersPresent entry op
  strangers : ∀ op key, replyKey op = some key → (∀ entry, ¬ s.model.Awaits key entry) →
    SameScreen s.model (s.apply segmentation op).model
  answered : ∀ op key, s.Admits op → replyKey op = some key → s.model.Accepts op →
    ¬ (s.apply segmentation op).model.Outstanding key.requestId

/-- A session in order whose model is sound is guarded. -/
theorem guarded_of_kept (sound : s.model.Sound) (kept : s.Kept) : s.Guarded segmentation where
  progress := by
    intro op changed
    rcases apply_progresses segmentation s.model op with grown | ⟨_, _, surfaces⟩
    · exact grown
    · refine absurd changed (not_or.mpr ⟨not_not.mpr ?_, not_not.mpr surfaces⟩)
      -- The text is made of the surfaces, which are part of what did not change.
      have texts := congrArg (List.map PrecedingSurface.surface) surfaces
      simp only [List.map_map] at texts
      unfold ClauseConversion.text
      rw [List.flatMap_def, List.flatMap_def]
      exact congrArg List.flatten texts
  context := fun _ _ answers accepts => Accepts.context sound answers accepts
  strangers := fun _ _ answers unknown =>
    stranger_sameScreen segmentation sound kept.numbered answers unknown
  answered := fun _ _ admits answers accepts => accepts_answered segmentation kept admits answers accepts

/-- In every run replies are accepted only into the context they were requested for, and none for a
request that was answered or ended before. -/
theorem run_guarded {m : ClauseConversion τ} (initial : ClauseConversion.Initial m)
    {first second third : List (ClauseOp τ)}
    (admissible : Admissible (apply segmentation) Admits ⟨m, []⟩ (first ++ second ++ third)) :
    (exec (apply segmentation) ⟨m, []⟩ (first ++ second ++ third)).Guarded segmentation ∧
      ∀ id, (exec (apply segmentation) ⟨m, []⟩ first).model.Outstanding id →
        ¬ (exec (apply segmentation) ⟨m, []⟩ (first ++ second)).model.Outstanding id →
        ∀ op key, replyKey op = some key → key.requestId = id →
          ¬ (exec (apply segmentation) ⟨m, []⟩ (first ++ second ++ third)).model.Accepts op := by
  obtain ⟨early, late⟩ := admissible_append.mp admissible
  obtain ⟨begin, middle⟩ := admissible_append.mp early
  have sound : (exec (apply segmentation) ⟨m, []⟩ (first ++ second ++ third)).model.Sound := by
    rw [exec_model]
    exact run_sound segmentation initial _
  have start : Kept ⟨m, []⟩ := kept_of_idle initial.idle.1 initial.idle.2
  have asked := run_kept segmentation start begin
  refine ⟨guarded_of_kept segmentation sound (run_kept segmentation start admissible), ?_⟩
  rintro id outstanding ended op key answers rfl accepts
  -- Once ended, the id is never waited for again, and only awaited requests are answered.
  have settled := asked.settled _ outstanding
  rw [exec_append] at ended
  have settledThen := run_settled segmentation asked settled middle
  have retired := run_retired segmentation (run_kept segmentation asked middle) settledThen ended
    (by rwa [← exec_append])
  obtain ⟨entry, awaits, _⟩ := Accepts.context sound answers accepts
  rw [exec_append, exec_append] at awaits
  exact retired (outstanding_of_awaits awaits)

/-- A request that was withdrawn with its window is answered by nothing. -/
theorem run_guarded_withdrawn : ∃ m : ClauseConversion String,
    fromReading ⟨1, 1, 1, 1⟩ ['か', 'な'] = some m ∧ ∀ op key, replyKey op = some key → key.requestId = 1 →
      ¬ (exec (apply Segmentation.scalars) ⟨m, []⟩
        ([.transformKana 0 2 .katakana, .openCandidates 1 0] ++ [.closeWindow] ++ [.resetNotationCycle])).model.Accepts
          op := by
  have built : (fromReading ⟨1, 1, 1, 1⟩ ['か', 'な'] : Option (ClauseConversion String)) = some _ := rfl
  refine ⟨_, built, (run_guarded Segmentation.scalars (.reading built) ?_).2 1 ?_ ?_⟩
  · exact ⟨trivial, trivial, trivial, trivial, trivial⟩
  · exact .inl ⟨_, rfl⟩
  · rintro (⟨_, found⟩ | ⟨_, found, _⟩)
    · cases (show (none : Option IssuedCandidates) = some _ from found)
    · cases found

end Session

end Nospacekey
