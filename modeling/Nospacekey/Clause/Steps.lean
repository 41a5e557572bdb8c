import Nospacekey.Clause.Replies
import Nospacekey.Library.Runs

/-! Runs of the clause model: every operation evolves it by the known effects, in any order. -/

namespace Nospacekey

open Runs

variable {τ : Type}

/-- The operations of the clause model, with everything a caller or the engine may pass. -/
inductive ClauseOp (τ : Type) where
  | promoteLiveDisplay (identity : SnapshotIdentity) (reading text : Text)
  | beginReadingEdit (index : Nat)
  | replaceEditedReading (reading : Text) (readingRevision : Nat)
  | deleteDisplayTail
  | escape
  | resizeSelected (direction : Int)
  | openBoundaryConversion (requestId now : Nat)
  | acceptBoundaryConversion (key : ClauseRequestKey) (status : ConvertClausesStatus τ)
      (learning : Option EngineLearningIdentity) (now : Nat)
  | prepareRebaseline (key : ClauseRequestKey) (snapshotRequestId convertRequestId now : Nat)
  | acceptRebaseline (attempt : ClauseRebaseline) (response : Response τ)
      (learning : EngineLearningIdentity) (now : Nat)
  | acceptRebasedConversion (key : ClauseRequestKey) (status : ConvertClausesStatus τ)
      (learning : Option EngineLearningIdentity) (candidateRequestId now : Nat)
  | replaceWholeSurface (surface : Text)
  | transformKana (start stop : Nat) (kind : Notation)
  | transformNotation (start stop : Nat) (kind : Notation) (original : Option Text)
  | invalidateLearning
  | refreshLearningIdentity (identity : EngineLearningIdentity)
  | configuredLearningIdentity (identity : Option EngineLearningIdentity)
  | closeWindow
  | moveClause (offset : Int)
  | openCandidates (requestId now : Nat)
  | cycleCandidate (requestId : Nat) (direction : Int) (now : Nat)
  | acceptCandidates (key : ClauseRequestKey) (status : ClauseCandidatesStatus τ) (now : Nat)
  | acceptCandidatesWithIdentity (key : ClauseRequestKey) (status : ClauseCandidatesStatus τ)
      (identity : Option EngineLearningIdentity) (now : Nat)
  | endRequest (key : ClauseRequestKey)
  | expire (now : Nat)
  | selectCandidate (index : Nat)
  | advanceCandidate (direction : Int)
  | resetNotationCycle

namespace ClauseConversion

/-- The model after one operation. A promotion that is refused leaves the model in place. -/
def apply [EngineToken τ] (segmentation : Segmentation) (m : ClauseConversion τ) :
    ClauseOp τ → ClauseConversion τ
  | .promoteLiveDisplay identity reading text => (m.promoteLiveDisplay identity reading text).getD m
  | .beginReadingEdit index => (m.beginReadingEdit index).1
  | .replaceEditedReading reading readingRevision => (m.replaceEditedReading reading readingRevision).1
  | .deleteDisplayTail => (m.deleteDisplayTail segmentation).1
  | .escape => m.escape.1
  | .resizeSelected direction => (m.resizeSelected direction).1
  | .openBoundaryConversion requestId now => (m.openBoundaryConversion requestId now).1
  | .acceptBoundaryConversion key status learning now =>
    (m.acceptBoundaryConversion key status learning now).1
  | .prepareRebaseline key snapshotRequestId convertRequestId now =>
    (m.prepareRebaseline key snapshotRequestId convertRequestId now).1
  | .acceptRebaseline attempt response learning now => (m.acceptRebaseline attempt response learning now).1
  | .acceptRebasedConversion key status learning candidateRequestId now =>
    (m.acceptRebasedConversion key status learning candidateRequestId now).1
  | .replaceWholeSurface surface => (m.replaceWholeSurface surface).1
  | .transformKana start stop kind => (m.transformKana start stop kind).1
  | .transformNotation start stop kind original => (m.transformNotation start stop kind original).1
  | .invalidateLearning => m.invalidateLearning
  | .refreshLearningIdentity identity => m.refreshLearningIdentity identity
  | .configuredLearningIdentity identity => m.configuredLearningIdentity identity
  | .closeWindow => m.closeWindow
  | .moveClause offset => m.moveClause offset
  | .openCandidates requestId now => (m.openCandidates requestId now).1
  | .cycleCandidate requestId direction now => (m.cycleCandidate requestId direction now).1
  | .acceptCandidates key status now => (m.acceptCandidates key status now).1
  | .acceptCandidatesWithIdentity key status identity now =>
    (m.acceptCandidatesWithIdentity key status identity now).1
  | .endRequest key => m.endRequest key
  | .expire now => m.expire now
  | .selectCandidate index => (m.selectCandidate index).1
  | .advanceCandidate direction => (m.advanceCandidate direction).1
  | .resetNotationCycle => m.resetNotationCycle

/-- What operations can do, given the tokens that replies may deliver under an identity and the ids
that a rebaseline has reserved. -/
inductive Evolves [EngineToken τ] (delivered : Option EngineLearningIdentity → τ → Prop)
    (reserved : Nat → Prop) : ClauseConversion τ → ClauseConversion τ → Prop where
  | edited {m m'} (effect : Edited m m') : Evolves delivered reserved m m'
  | extended {m m'} (effect : Extended m m') : Evolves delivered reserved m m'
  | forgotten {m m'} (effect : Forgotten m m') : Evolves delivered reserved m m'
  | chosen {m m' clauseId candidates} (effect : Chosen m m' clauseId candidates) :
      Evolves delivered reserved m m'
  | listed {m m' cached} (effect : Listed m m' cached) : Evolves delivered reserved m m'
  | asked {m m' entry} (effect : Asked m m' entry)
      (fresh : m.lastRequestId < entry.request.key.requestId ∧
          m'.lastRequestId = entry.request.key.requestId ∨
        reserved entry.request.key.requestId ∧ m'.lastRequestId = m.lastRequestId) :
      Evolves delivered reserved m m'
  | stored {m m' entry candidates} (effect : Stored m m' entry candidates)
      (tokens : ∀ candidate ∈ candidates, delivered m.learningIdentity candidate.token) :
      Evolves delivered reserved m m'
  | converted {m m' under wire} (effect : Converted m m' under wire)
      (tokens : ∀ clause ∈ wire, ∀ token, clause.candidateToken = some token → delivered under token) :
      Evolves delivered reserved m m'
  | trans {a b c} (first : Evolves delivered reserved a b) (second : Evolves delivered reserved b c) :
      Evolves delivered reserved a c

/-- The tokens an operation brings are all deliverable under the identity it brings them under. -/
def Delivers (delivered : Option EngineLearningIdentity → τ → Prop) (m : ClauseConversion τ) :
    ClauseOp τ → Prop
  | .acceptBoundaryConversion _ (.ready wire) learning _ =>
    ∀ clause ∈ wire, ∀ token, clause.candidateToken = some token → delivered learning token
  | .acceptCandidates _ (.ready candidates) _ =>
    ∀ candidate ∈ candidates, delivered m.learningIdentity candidate.token
  | .acceptCandidatesWithIdentity _ (.ready candidates) (some identity) _ =>
    ∀ candidate ∈ candidates, delivered (some identity) candidate.token
  | _ => True

/-- The ids an operation may use although they are not above the last one. -/
def Reserved : ClauseOp τ → Nat → Prop
  | .acceptRebaseline attempt _ _ _, id => id = attempt.convertRequestId
  | _, _ => False

section Operations

variable [EngineToken τ] {delivered : Option EngineLearningIdentity → τ → Prop} {reserved : Nat → Prop}

/-- Doing nothing is an evolution. -/
theorem Evolves.refl (m : ClauseConversion τ) : Evolves delivered reserved m m :=
  .edited (.quiet (Quiet.refl m))

/-- A quiet step is an evolution. -/
theorem Quiet.evolves {m m' : ClauseConversion τ} (effect : Quiet m m') :
    Evolves delivered reserved m m' :=
  .edited (.quiet effect)

/-- Choosing a candidate is an evolution. -/
theorem selectCandidate_evolves (m : ClauseConversion τ) (index : Nat) :
    Evolves delivered reserved m (m.selectCandidate index).1 := by
  rcases selectCandidate_cases m index with quiet | ⟨_, _, chosen⟩
  · exact quiet.evolves
  · exact .chosen chosen

/-- Cycling through the list is an evolution. -/
theorem advanceCandidate_evolves (m : ClauseConversion τ) (direction : Int) :
    Evolves delivered reserved m (m.advanceCandidate direction).1 := by
  unfold advanceCandidate
  split
  · exact selectCandidate_evolves m _
  · exact Evolves.refl m

/-- Opening the list is an evolution. -/
theorem openCandidates_evolves (m : ClauseConversion τ) (requestId now : Nat) :
    Evolves delivered reserved m (m.openCandidates requestId now).1 := by
  rcases openCandidates_cases m requestId now with ⟨_, quiet | ⟨_, listed⟩⟩ | asked
  · exact quiet.evolves
  · exact .listed listed
  · obtain ⟨entry, _, id, _, above, last, _, _, asked⟩ := asked
    exact .asked asked (.inl ⟨by omega, by omega⟩)

/-- Opening the list and moving once is an evolution. -/
theorem cycleCandidate_evolves (m : ClauseConversion τ) (requestId : Nat) (direction : Int) (now : Nat) :
    Evolves delivered reserved m (m.cycleCandidate requestId direction now).1 := by
  unfold cycleCandidate
  split
  · exact advanceCandidate_evolves m direction
  have opened : Evolves delivered reserved m (m.openCandidates requestId now).1 :=
    openCandidates_evolves m requestId now
  rcases openCandidates_cases m requestId now with ⟨silent, _⟩ |
    ⟨entry, sent, id, converting, above, last, boundary, issued, asked⟩
  · split
    · rename_i m' request result
      rw [result] at silent
      cases silent
    · rename_i m' result
      rw [result] at opened
      split
      · exact opened.trans (advanceCandidate_evolves m' direction)
      · exact opened
  · generalize m.openCandidates requestId now = result at *
    obtain ⟨m', request⟩ := result
    dsimp only at sent last boundary issued asked opened
    subst sent
    dsimp only
    have found : m'.issued.lookup entry.request.key.requestId = some entry := by
      rw [issued, id, AList.lookup_insert]
    rw [found]
    have moved : Asked m { m' with
        issued := m'.issued.insert entry.request.key.requestId { entry with advance := direction } }
        { entry with advance := direction } :=
      { asked with
        conversion := fun _ absurdity => by rw [converting.1] at absurdity; cases absurdity
        issued := fun key other look => by
          rcases Table.lookup_insert_cases look with ⟨same, new⟩ | ⟨apart, old⟩
          · exact .inl ⟨same, new⟩
          · rcases asked.issued key other old with ⟨same, _⟩ | before
            · exact absurd same apart
            · exact .inr before
        boundary := fun other look => .inr (boundary ▸ look)
        once := .inl boundary }
    exact .asked moved (.inl ⟨by dsimp only; omega, by dsimp only; omega⟩)

/-- Accepting candidates is an evolution, given that they may be delivered under the present identity. -/
theorem acceptCandidates_evolves (m : ClauseConversion τ) (key : ClauseRequestKey)
    (status : ClauseCandidatesStatus τ) (now : Nat)
    (tokens : ∀ candidates, status = .ready candidates →
      ∀ candidate ∈ candidates, delivered m.learningIdentity candidate.token) :
    Evolves delivered reserved m (m.acceptCandidates key status now).1 := by
  rcases acceptCandidates_cases m key status now with same | ⟨ended, _⟩ | stored
  · rw [same]; exact Evolves.refl m
  · rw [ended]; exact (endRequest_quiet m key).evolves
  · obtain ⟨entry, candidates, mid, _, _, ready, stored, result⟩ := stored
    have first : Evolves delivered reserved m mid := .stored stored (tokens candidates ready)
    rcases result with result | ⟨direction, result⟩ <;> rw [result]
    · exact first
    · exact first.trans (advanceCandidate_evolves mid direction)

/-- Every operation evolves the model. -/
theorem apply_evolves (segmentation : Segmentation) (m : ClauseConversion τ) (op : ClauseOp τ)
    (delivers : Delivers delivered m op) : Evolves delivered (Reserved op) m (m.apply segmentation op) := by
  cases op with
  | promoteLiveDisplay identity reading text =>
    simp only [apply]
    cases promoted : m.promoteLiveDisplay identity reading text with
    | none => exact Evolves.refl m
    | some m' =>
      rcases promoteLiveDisplay_cases promoted with quiet | extended
      · exact quiet.evolves
      · exact .extended extended
  | beginReadingEdit index => exact .edited (beginReadingEdit_edited m index)
  | replaceEditedReading reading readingRevision =>
    exact .edited (replaceEditedReading_edited m reading readingRevision)
  | deleteDisplayTail => exact .edited (deleteDisplayTail_edited m segmentation)
  | escape => exact .edited (escape_edited m)
  | resizeSelected direction => exact .edited (resizeSelected_edited direction)
  | openBoundaryConversion requestId now =>
    simp only [apply]
    rcases openBoundaryConversion_cases m requestId now with ⟨_, same⟩ | asked
    · rw [same]; exact Evolves.refl m
    · obtain ⟨entry, request, _, _, id, above, last, _, _, asked⟩ := asked
      exact .asked asked (.inl ⟨by omega, by omega⟩)
  | acceptBoundaryConversion key status learning now =>
    simp only [apply]
    rcases acceptBoundaryConversion_cases m key status learning now with ⟨_, quiet⟩ | accepted
    · exact quiet.evolves
    · obtain ⟨_, _, wire, _, _, _, _, _, rfl, _, _, _, converted⟩ := accepted
      exact .converted converted delivers
  | prepareRebaseline key snapshotRequestId convertRequestId now =>
    exact (prepareRebaseline_quiet m key snapshotRequestId convertRequestId now).evolves
  | acceptRebaseline attempt response learning now =>
    simp only [apply]
    rcases acceptRebaseline_cases m attempt response learning now with same | accepted
    · rw [same]; exact Evolves.refl m
    · obtain ⟨request, _, _, _, id, _, _, asked, result⟩ := accepted
      rw [result]
      exact (Evolves.asked asked (.inr ⟨id, rfl⟩)).trans (.forgotten (rebased_forgotten m attempt request learning))
  | acceptRebasedConversion key status learning candidateRequestId now =>
    simp only [apply]
    rcases acceptRebasedConversion_cases m key status learning candidateRequestId now with
      same | ⟨_, _, _, _, _, _, ended | asked⟩
    · rw [same]; exact Evolves.refl m
    · rw [ended]; exact (endRequest_quiet m key).evolves
    · obtain ⟨entry, id, above, last, _, _, asked⟩ := asked
      exact .asked asked (.inl ⟨by omega, by omega⟩)
  | replaceWholeSurface surface => exact .edited (replaceWholeSurface_edited m surface)
  | transformKana start stop kind => exact .edited (transformNotation_edited m start stop kind none)
  | transformNotation start stop kind original =>
    exact .edited (transformNotation_edited m start stop kind original)
  | invalidateLearning => exact .forgotten (invalidateLearning_forgotten m)
  | refreshLearningIdentity identity =>
    simp only [apply]
    rcases refreshLearningIdentity_cases m identity with same | ⟨forgotten, _⟩
    · rw [same]; exact Evolves.refl m
    · exact .forgotten forgotten
  | configuredLearningIdentity identity =>
    simp only [apply]
    rcases configuredLearningIdentity_cases m identity with same | forgotten
    · rw [same]; exact Evolves.refl m
    · exact .forgotten forgotten
  | closeWindow => exact (closeWindow_quiet m).evolves
  | moveClause offset => exact (moveClause_quiet m offset).evolves
  | openCandidates requestId now => exact openCandidates_evolves m requestId now
  | cycleCandidate requestId direction now => exact cycleCandidate_evolves m requestId direction now
  | acceptCandidates key status now =>
    refine acceptCandidates_evolves m key status now fun candidates ready => ?_
    subst ready
    exact delivers
  | acceptCandidatesWithIdentity key status identity now =>
    simp only [apply]
    rcases acceptCandidatesWithIdentity_cases m key status identity now with same | ⟨ended, _⟩ | accepted
    · rw [same]; exact Evolves.refl m
    · rw [ended]; exact (endRequest_quiet m key).evolves
    · obtain ⟨mid, origin, learned, result⟩ := accepted
      rw [result]
      have prepared : Evolves delivered (Reserved (.acceptCandidatesWithIdentity key status identity now))
          m mid := by
        rcases origin with rfl | ⟨entry, learning, _, found, _, rfl⟩
        · exact Evolves.refl mid
        · exact .forgotten (underIdentity_forgotten learning found)
      refine prepared.trans (acceptCandidates_evolves mid key status now fun candidates ready => ?_)
      obtain ⟨present, same⟩ := learned candidates ready
      subst ready
      cases identity with
      | none => cases present
      | some identity => rw [same]; exact delivers
  | endRequest key => exact (endRequest_quiet m key).evolves
  | expire now => exact (expire_quiet m now).evolves
  | selectCandidate index => exact selectCandidate_evolves m index
  | advanceCandidate direction => exact advanceCandidate_evolves m direction
  | resetNotationCycle => exact (resetNotationCycle_quiet m).evolves

end Operations

section Partition

variable [EngineToken τ]

/-- Every evolution keeps the model sound. -/
theorem Evolves.sound {delivered : Option EngineLearningIdentity → τ → Prop} {reserved : Nat → Prop}
    {m m' : ClauseConversion τ} (evolves : Evolves delivered reserved m m') (sound : m.Sound) :
    m'.Sound := by
  induction evolves with
  | edited effect => exact effect.sound sound
  | extended effect => exact effect.sound sound
  | forgotten effect => exact effect.sound sound
  | chosen effect => exact effect.sound sound
  | listed effect => exact effect.sound sound
  | asked effect _ => exact effect.sound sound
  | stored effect _ => exact effect.sound sound
  | converted effect _ => exact effect.sound sound
  | trans _ _ first second => exact second (first sound)

omit [EngineToken τ] in
/-- Any token is deliverable when nothing is asked of tokens. -/
theorem delivers_trivially (m : ClauseConversion τ) (op : ClauseOp τ) :
    Delivers (fun _ _ => True) m op := by
  cases op with
  | acceptBoundaryConversion key status learning now => cases status <;> simp [Delivers]
  | acceptCandidates key status now => cases status <;> simp [Delivers]
  | acceptCandidatesWithIdentity key status identity now =>
    cases status <;> cases identity <;> simp [Delivers]
  | _ => trivial

/-- One operation keeps the model sound. -/
theorem apply_sound (segmentation : Segmentation) {m : ClauseConversion τ} (sound : m.Sound)
    (op : ClauseOp τ) : (m.apply segmentation op).Sound :=
  (apply_evolves segmentation m op (delivers_trivially m op)).sound sound

omit [EngineToken τ] in
/-- Nothing is requested, kept or shown in a model that has just been built. -/
theorem sound_of_idle {m : ClauseConversion τ} (formed : m.WellFormed) (issued : m.issued = ∅)
    (boundary : m.boundaryRequest = none) (cache : m.cache = ∅) (window : m.window = .closed) :
    m.Sound where
  formed := formed
  issued := fun _ _ found => (lookup_empty_ne_some (issued ▸ found)).elim
  boundary := fun _ found => by rw [boundary] at found; cases found
  cached := fun _ _ found => (lookup_empty_ne_some (cache ▸ found)).elim
  ready := fun _ _ _ open' => by rw [window] at open'; cases open'

omit [EngineToken τ] in
/-- A model built from a reading is sound. -/
theorem fromReading_sound {identity : SnapshotIdentity} {reading : Text} {m : ClauseConversion τ}
    (built : fromReading identity reading = some m) : m.Sound := by
  -- Its only clause covers and shows the whole reading.
  unfold fromReading at built
  obtain ⟨stop, converted, built⟩ := Option.bind_eq_some_iff.mp built
  obtain ⟨rfl, fits⟩ := u32TryFrom_eq_some converted
  split at built
  · cases built
  rename_i nonempty
  obtain rfl := (Option.some.inj built).symm
  refine sound_of_idle ?_ rfl rfl rfl rfl
  refine wellFormed_of_stops ?_ fits ?_ ?_ ?_ ?_ ?_
  · exact ⟨rfl, Nat.pos_of_ne_zero nonempty, rfl⟩
  · simp
  · simp
  · simp
  · simp [readingOf]
  · simp

/-- No element exceeds the maximum of a list. -/
theorem le_foldl_max {ids : List Nat} {bound id : Nat} (member : id ≤ bound ∨ id ∈ ids) :
    id ≤ ids.foldl max bound := by
  -- The running maximum never decreases.
  induction ids generalizing bound with
  | nil => simpa using member
  | cons head rest ih =>
    rw [List.foldl_cons]
    refine ih ?_
    rcases member with below | member
    · exact .inl (le_trans below (le_max_left _ _))
    · rcases List.mem_cons.mp member with rfl | later
      · exact .inl (le_max_right _ _)
      · exact .inr later

/-- A model built from a snapshot is sound. -/
theorem fromSnapshot_sound {identity : SnapshotIdentity} {baseline : Nat} {data : SnapshotClauseData τ}
    {text : Text} {m : ClauseConversion τ} (built : fromSnapshot identity baseline data text = .ok m) :
    m.Sound := by
  unfold fromSnapshot at built
  cases checked : data.validate text with
  | error _ => rw [checked] at built; cases built
  | ok =>
    rw [checked] at built
    obtain rfl := (Except.ok.inj built).symm
    obtain ⟨_, fits, _, _, _, tiles, distinct, _, valid⟩ :=
      validateClauses_ok_iff.mp (SnapshotClauseData.validate_ok_iff.mp checked)
    refine sound_of_idle ?_ rfl rfl rfl rfl
    refine wellFormed_of_stops ?_ fits ?_ ?_ ?_ ?_ ?_
    · rw [List.map_map]; exact tiles
    · intro clause member
      obtain ⟨wire, inWire, rfl⟩ := List.mem_map.mp member
      exact (valid wire inWire).legal
    · rw [List.map_map]; exact distinct
    · intro next known clause member
      have := u64CheckedAdd_eq_some known
      have bound : clause.id ≤ ((data.clauses.map localClause).map LocalClause.id).foldl max 0 :=
        le_foldl_max (.inr (List.mem_map_of_mem member))
      omega
    · intro clause member isReading
      obtain ⟨wire, inWire, rfl⟩ := List.mem_map.mp member
      exact (convertedClause_spec (valid wire inWire)).2.1 isReading
    · intro some
      exact List.length_pos_iff.mpr some

/-- The two ways a clause model comes into being. -/
inductive Initial : ClauseConversion τ → Prop where
  | snapshot {identity baseline data text m} (built : fromSnapshot identity baseline data text = .ok m) :
      Initial m
  | reading {identity reading m} (built : fromReading identity reading = some m) : Initial m

/-- A model that has just been built is sound. -/
theorem Initial.sound {m : ClauseConversion τ} (initial : Initial m) : m.Sound := by
  cases initial with
  | snapshot built => exact fromSnapshot_sound built
  | reading built => exact fromReading_sound built

/-- A model that has just been built waits for nothing. -/
theorem Initial.idle {m : ClauseConversion τ} (initial : Initial m) :
    m.issued = ∅ ∧ m.boundaryRequest = none := by
  cases initial with
  | @snapshot identity baseline data text m built =>
    unfold fromSnapshot at built
    cases checked : data.validate text with
    | error _ => rw [checked] at built; cases built
    | ok =>
      rw [checked] at built
      obtain rfl := (Except.ok.inj built).symm
      exact ⟨rfl, rfl⟩
  | @reading identity reading m built =>
    unfold fromReading at built
    obtain ⟨stop, _, rest⟩ := Option.bind_eq_some_iff.mp built
    split at rest
    · cases rest
    · obtain rfl := (Option.some.inj rest).symm
      exact ⟨rfl, rfl⟩

/-- Every reachable model is sound. -/
theorem run_sound (segmentation : Segmentation) {m : ClauseConversion τ} (initial : Initial m)
    (ops : List (ClauseOp τ)) : (exec (apply segmentation) m ops).Sound :=
  exec_invariant_all Sound (fun _ op sound => apply_sound segmentation sound op) initial.sound ops

/-- However operations and replies interleave, the clauses partition the reading. -/
theorem run_wellFormed (segmentation : Segmentation) {m : ClauseConversion τ} (initial : Initial m)
    (ops : List (ClauseOp τ)) : (exec (apply segmentation) m ops).WellFormed :=
  (run_sound segmentation initial ops).formed

/-- A reading that is edited clause by clause stays partitioned. -/
theorem run_wellFormed_edited : ∃ m : ClauseConversion String,
    fromReading ⟨1, 1, 1, 1⟩ ['か', 'な'] = some m ∧
      (exec (apply Segmentation.scalars) m
        [.transformKana 0 2 .katakana, .resizeSelected (-1), .beginReadingEdit 1, .deleteDisplayTail]).WellFormed :=
  have built : (fromReading ⟨1, 1, 1, 1⟩ ['か', 'な'] : Option (ClauseConversion String)) = some _ := rfl
  ⟨_, built, run_wellFormed Segmentation.scalars (.reading built) _⟩

end Partition

end ClauseConversion

end Nospacekey
