import Nospacekey.Input.CandidatePane

/-! A candidate list that was touched is frozen, and a commit is bound to the list that was shown last. -/

namespace Nospacekey

open Runs

/-- A module with what it has shown last, the candidate commits it has asked for and the answers it has accepted. -/
structure CandidateSession where
  module : InputModule
  shown : Option (CandidateResultIdentity × List Text)
  asked : List (Nat × CandidateResultIdentity)
  accepted : List Nat

namespace CandidateSession

variable {segmentation : Segmentation}

/-- Nothing is shown before the first call. -/
def initial : CandidateSession := ⟨.initial, none, [], []⟩

/-- One call of the module. -/
def step (segmentation : Segmentation) (s : CandidateSession) (op : ModuleOp) : CandidateSession where
  module := (SnapshotSession.step segmentation ⟨s.module, []⟩ op).module
  shown := (op.output segmentation s.module).shows <|> s.shown
  asked := s.asked ++ (op.output segmentation s.module).asks.toList
  accepted := s.accepted ++ (op.accepts (op.output segmentation s.module)).toList

/-- The candidates on the screen are those shown last, and the pending commit was asked for them. -/
structure Bound (s : CandidateSession) : Prop where
  coherent : s.module.pane.Coherent
  shown : ∀ identity, s.module.pane.identity = some identity → s.shown = some (identity, s.module.pane.values)
  counted : ∀ request ∈ s.asked.map Prod.fst, request ≤ s.module.nextRequest
  distinct : (s.asked.map Prod.fst).Nodup
  answered : ∀ request ∈ s.accepted, request ∈ s.asked.map Prod.fst
  once : s.accepted.Nodup
  pending : ∀ request identity, s.module.pane.pending = some (request, identity) →
    s.module.pane.identity = some identity ∧ (request, identity) ∈ s.asked ∧ request ∉ s.accepted

/-- Nothing is pending before the first call. -/
theorem initial_bound : initial.Bound where
  coherent := ⟨fun _ => rfl, fun filled => absurd rfl filled⟩
  shown _ displayed := by cases displayed
  counted _ member := by cases member
  distinct := List.nodup_nil
  answered _ member := by cases member
  once := List.nodup_nil
  pending _ _ awaited := by cases awaited

/-- A call that neither asks for a commit nor accepts an answer keeps the session bound. -/
theorem Bound.of_quiet {s t : CandidateSession} (bound : s.Bound) (asked : t.asked = s.asked)
    (accepted : t.accepted = s.accepted) (counts : s.module.nextRequest ≤ t.module.nextRequest)
    (coherent : t.module.pane.Coherent)
    (shown : ∀ identity, t.module.pane.identity = some identity → t.shown = some (identity, t.module.pane.values))
    (pending : ∀ awaited, t.module.pane.pending = some awaited →
      t.module.pane.identity = s.module.pane.identity ∧ s.module.pane.pending = some awaited) : t.Bound where
  coherent := coherent
  shown := shown
  counted := by
    rw [asked]
    exact fun request member => Nat.le_trans (bound.counted request member) counts
  distinct := by
    rw [asked]
    exact bound.distinct
  answered := by
    rw [asked, accepted]
    exact bound.answered
  once := by
    rw [accepted]
    exact bound.once
  pending request identity awaited := by
    -- What is pending was pending before, for candidates that are still shown.
    obtain ⟨same, before⟩ := pending _ awaited
    rw [asked, accepted, same]
    exact bound.pending request identity before

/-- Every call keeps the session bound. -/
theorem Bound.step {s : CandidateSession} (bound : s.Bound) (op : ModuleOp) : (s.step segmentation op).Bound := by
  have counts := s.module.step_nextRequest segmentation op
  have coherent := bound.coherent
  -- What a call shows, asks for and accepts is recorded with what it does to the candidates.
  have asked : ∀ result, (op.output segmentation s.module).asks = result →
      (s.step segmentation op).asked = s.asked ++ result.toList := by
    rintro result rfl
    rfl
  have accepted : ∀ result, op.accepts (op.output segmentation s.module) = result →
      (s.step segmentation op).accepted = s.accepted ++ result.toList := by
    rintro result rfl
    rfl
  have shown : ∀ result, (op.output segmentation s.module).shows = result →
      (s.step segmentation op).shown = (result <|> s.shown) := by
    rintro result rfl
    rfl
  cases InputModule.step_paneStep segmentation bound.coherent op with
  | keeps same _ _ unaccepted unshown unasked =>
    have same : (s.step segmentation op).module.pane = s.module.pane := same
    refine bound.of_quiet (by simp [asked _ unasked]) (by simp [accepted _ unaccepted]) counts ?_ ?_ ?_
    · rwa [same]
    · rw [same, shown _ unshown]
      exact bound.shown
    · rw [same]
      exact fun awaited pending => ⟨rfl, pending⟩
  | clears gone _ _ unaccepted unshown unasked =>
    have gone : (s.step segmentation op).module.pane = .empty := gone
    refine bound.of_quiet (by simp [asked _ unasked]) (by simp [accepted _ unaccepted]) counts ?_ ?_ ?_
    · rw [gone]
      exact ⟨fun _ => rfl, fun filled => absurd rfl filled⟩
    · rw [gone]
      intro _ displayed
      cases displayed
    · rw [gone]
      intro _ pending
      cases pending
  | shows identity values selected interacted placed within _ _ _ unaccepted shows unasked =>
    have placed : (s.step segmentation op).module.pane = ⟨values, selected, some identity, interacted, none⟩ := placed
    refine bound.of_quiet (by simp [asked _ unasked]) (by simp [accepted _ unaccepted]) counts ?_ ?_ ?_
    · rw [placed]
      exact ⟨(by simp), fun _ => within⟩
    · rw [placed, shown _ shows]
      rintro _ ⟨⟩
      rfl
    · rw [placed]
      intro _ pending
      cases pending
  | previews selected placed within _ _ unaccepted unshown unasked =>
    have placed : (s.step segmentation op).module.pane =
      { s.module.pane with selected := selected, interacted := true } := placed
    refine bound.of_quiet (by simp [asked _ unasked]) (by simp [accepted _ unaccepted]) counts ?_ ?_ ?_
    · rw [placed]
      exact ⟨coherent.hidden, fun _ => within⟩
    · rw [placed, shown _ unshown]
      exact bound.shown
    · rw [placed]
      exact fun awaited pending => ⟨rfl, pending⟩
  | asks identity position text displayed _ placed _ _ unaccepted unshown background counted =>
    have asks : (op.output segmentation s.module).asks = some (s.module.nextRequest + 1, identity) := by
      simp [ModuleOutput.asks, background]
    have placed : (s.step segmentation op).module.pane =
      { s.module.pane with interacted := true, pending := some (s.module.nextRequest + 1, identity) } := placed
    -- The request is above all those asked for before.
    have fresh : s.module.nextRequest + 1 ∉ s.asked.map Prod.fst := fun member => by
      have := bound.counted _ member
      omega
    refine ⟨?_, ?_, ?_, ?_, ?_, ?_, ?_⟩
    · rw [placed]
      exact ⟨coherent.hidden, coherent.placed⟩
    · rw [placed, shown _ unshown]
      exact bound.shown
    · rw [asked _ asks]
      intro request member
      simp only [Option.toList_some, List.map_append, List.map_cons, List.map_nil, List.mem_append,
        List.mem_singleton] at member
      rcases member with before | rfl
      · exact Nat.le_trans (bound.counted request before) counts
      · exact Nat.le_of_eq counted.symm
    · rw [asked _ asks, List.map_append]
      exact List.Nodup.append bound.distinct (List.nodup_singleton _) (by simpa using fresh)
    · rw [accepted _ unaccepted, asked _ asks]
      intro request member
      have before := bound.answered request (by simpa using member)
      simp [before]
    · rw [accepted _ unaccepted]
      simpa using bound.once
    · rw [placed, asked _ asks, accepted _ unaccepted]
      rintro _ _ ⟨⟩
      refine ⟨displayed, by simp, fun member => fresh ?_⟩
      exact bound.answered _ (by simpa using member)
  | answers request identity awaited displayed placed _ _ answers unshown unasked =>
    have placed : (s.step segmentation op).module.pane = { s.module.pane with pending := none } := placed
    obtain ⟨_, member, unanswered⟩ := bound.pending request identity awaited
    refine ⟨?_, ?_, ?_, ?_, ?_, ?_, ?_⟩
    · rw [placed]
      exact ⟨coherent.hidden, coherent.placed⟩
    · rw [placed, shown _ unshown]
      exact bound.shown
    · simp only [asked _ unasked, Option.toList_none, List.append_nil]
      exact fun request member => Nat.le_trans (bound.counted request member) counts
    · simpa [asked _ unasked] using bound.distinct
    · rw [accepted _ rfl, asked _ unasked]
      intro other accepted
      rcases List.mem_append.mp accepted with before | now
      · simpa using bound.answered other before
      · obtain rfl := answers other (Option.mem_toList.mp now)
        simpa using ⟨identity, member⟩
    · rw [accepted _ rfl]
      refine List.Nodup.append bound.once (Option.toList_nodup _) fun other before now => ?_
      obtain rfl := answers other (Option.mem_toList.mp now)
      exact unanswered before
    · rw [placed]
      intro _ _ pending
      cases pending

/-- Candidates that were touched stay on the screen until a call releases them. -/
theorem touched_step {s : CandidateSession} (bound : s.Bound) {op : ModuleOp}
    (touched : s.module.candidateInteracted = true ∨ op.interacts s.module = true)
    (kept : op.releases s.module = false) : (s.step segmentation op).module.candidateInteracted = true := by
  have flag : ∀ pane, (s.step segmentation op).module.pane = pane →
      pane.interacted = true → (s.step segmentation op).module.candidateInteracted = true := by
    rintro pane rfl holds
    exact holds
  cases InputModule.step_paneStep segmentation bound.coherent op with
  | keeps same _ untouched =>
    rcases touched with before | now
    · exact flag _ same before
    · exact absurd now (by simp [untouched])
  | clears _ released untouched =>
    -- Only a call that releases them can drop candidates that were touched.
    rcases touched with before | now
    · rcases released with release | free
      · exact absurd release (by simp [kept])
      · exact absurd before (by simp [free])
    · exact absurd now (by simp [untouched])
  | shows _ _ _ _ placed _ frozen _ untouched =>
    rcases touched with before | now
    · exact flag _ placed (frozen before).1
    · exact absurd now (by simp [untouched])
  | previews _ placed => exact flag _ placed rfl
  | asks _ _ _ _ _ placed => exact flag _ placed rfl
  | answers _ _ _ _ placed _ untouched =>
    rcases touched with before | now
    · exact flag _ placed before
    · exact absurd now (by simp [untouched])

/-- No offer changes candidates that were touched. -/
theorem touched_offer {s : CandidateSession} (bound : s.Bound) {op : ModuleOp}
    (touched : s.module.candidateInteracted = true) (offered : op.offers = true) :
    (s.step segmentation op).module.candidates = s.module.candidates ∧
      (s.step segmentation op).module.selected = s.module.selected ∧
      (s.step segmentation op).module.candidateResult = s.module.candidateResult := by
  have fields : ∀ pane, (s.step segmentation op).module.pane = pane → pane.values = s.module.candidates →
      pane.selected = s.module.selected → pane.identity = s.module.candidateResult →
      (s.step segmentation op).module.candidates = s.module.candidates ∧
        (s.step segmentation op).module.selected = s.module.selected ∧
        (s.step segmentation op).module.candidateResult = s.module.candidateResult := by
    rintro pane rfl values selected identity
    exact ⟨values, selected, identity⟩
  -- An offer is neither a touch nor a release.
  have passive : op.interacts s.module = false ∧ op.releases s.module = false := by
    unfold ModuleOp.offers at offered
    split at offered
    · exact ⟨rfl, rfl⟩
    · exact ⟨rfl, rfl⟩
    · cases offered
  cases InputModule.step_paneStep segmentation bound.coherent op with
  | keeps same => exact fields _ same rfl rfl rfl
  | clears _ released =>
    rcases released with release | free
    · exact absurd release (by simp [passive.2])
    · exact absurd touched (by simp [free])
  | shows _ _ _ _ _ _ frozen => exact absurd offered (by simp [(frozen touched).2])
  | previews _ _ _ _ now => exact absurd now (by simp [passive.1])
  | asks _ _ _ _ _ _ _ now => exact absurd now (by simp [passive.1])
  | answers _ _ _ _ placed => exact fields _ placed rfl rfl rfl

/-- The answer of a candidate commit returns something only while it is the pending one. -/
theorem accepted_pending {m : InputModule} {request candidate : Nat} {resolvedText : Text}
    {outcome : EngineCommitOutcome}
    (accepted : (m.handleCommit segmentation request (some candidate) resolvedText outcome).2 ≠ .default) :
    ∃ identity, m.pendingCandidateCommit = some (request, identity) ∧ m.candidateResult = some identity := by
  unfold InputModule.handleCommit at accepted
  dsimp only at accepted
  split at accepted
  · rename_i awaited identity pending
    split at accepted
    · exact absurd rfl accepted
    · rename_i answered
      simp only [Bool.or_eq_true, decide_eq_true_eq, not_or, not_not] at answered
      obtain ⟨⟨rfl, _⟩, displayed⟩ := answered
      exact ⟨identity, pending, displayed⟩
  · exact absurd rfl accepted

/-- A key asks for the commit of a candidate that is shown, under the identity that is shown. -/
theorem handle_asks {m : InputModule} (coherent : m.pane.Coherent) {event : InputEvent} {request : Nat}
    {identity : CandidateResultIdentity} {candidate : Option Nat} {text : Option Text}
    (asked : (m.handle segmentation event).2.background = some (.commit request identity candidate text)) :
    ∃ position chosen, candidate = some position ∧ text = some chosen ∧ m.candidates[position]? = some chosen ∧
      m.candidateResult = some identity := by
  have asks : ((ModuleOp.handle event).output segmentation m).asks = some (request, identity) := by
    simp [ModuleOp.output, ModuleOutput.asks, asked]
  cases InputModule.step_paneStep segmentation coherent (.handle event) with
  | asks _ position chosen displayed found _ _ _ _ _ background =>
    obtain ⟨_, rfl, rfl, rfl⟩ := BackgroundIntent.commit.inj (Option.some.inj (background.symm.trans asked))
    exact ⟨position, chosen, rfl, rfl, found, displayed⟩
  | keeps _ _ _ _ _ unasked => cases unasked.symm.trans asks
  | clears _ _ _ _ _ unasked => cases unasked.symm.trans asks
  | shows _ _ _ _ _ _ _ _ _ _ _ unasked => cases unasked.symm.trans asks
  | previews _ _ _ _ _ _ _ unasked => cases unasked.symm.trans asks
  | answers _ _ _ _ _ _ _ _ _ unasked => cases unasked.symm.trans asks

/-- Every run leaves the session bound. -/
theorem run_bound (segmentation : Segmentation) (ops : List ModuleOp) :
    (exec (step segmentation) initial ops).Bound :=
  exec_invariant_all Bound (fun _ op bound => bound.step op) initial_bound ops

/-- In every run, candidates that a user has touched are not changed by what the engine offers until a call
releases them; a commit asks for a candidate of the list that was shown last, under its identity; and the answer
of a candidate commit is accepted at most once, while it is pending and its list is still shown. -/
theorem run_candidates (segmentation : Segmentation) (ops : List ModuleOp) :
    let s := exec (step segmentation) initial ops
    (∀ op later offer, op.interacts s.module = true → offer.offers = true →
      Admissible (step segmentation) (fun t op => op.releases t.module = false) s (op :: later) →
      let t := exec (step segmentation) s (op :: later)
      (t.step segmentation offer).module.candidates = t.module.candidates ∧
        (t.step segmentation offer).module.selected = t.module.selected ∧
        (t.step segmentation offer).module.candidateResult = t.module.candidateResult) ∧
      (∀ event request identity candidate text,
        (s.module.handle segmentation event).2.background = some (.commit request identity candidate text) →
        ∃ position chosen, candidate = some position ∧ text = some chosen ∧
          s.module.candidates[position]? = some chosen ∧ s.shown = some (identity, s.module.candidates)) ∧
      s.accepted.Nodup ∧
      (∀ request candidate resolvedText outcome,
        (s.module.handle segmentation (.engine (.commit request (some candidate) resolvedText outcome))).2 ≠ .default →
        request ∉ s.accepted ∧ ∃ identity, s.module.pendingCandidateCommit = some (request, identity) ∧
          s.module.candidateResult = some identity ∧ s.shown = some (identity, s.module.candidates) ∧
          ∀ other, (request, other) ∈ s.asked ↔ other = identity) := by
  intro s
  have bound : s.Bound := run_bound segmentation ops
  refine ⟨?_, ?_, bound.once, ?_⟩
  · intro op later offer touched offered admissible
    -- The first call touches the candidates, and no later one releases them.
    have frozen := exec_invariant (fun t : CandidateSession => t.Bound ∧ t.module.candidateInteracted = true)
      (fun _ op holds kept => ⟨holds.1.step op, touched_step holds.1 (.inl holds.2) kept⟩)
      ⟨bound.step op, touched_step bound (.inr touched) admissible.1⟩ admissible.2
    exact touched_offer frozen.1 frozen.2 offered
  · intro event request identity candidate text asked
    obtain ⟨position, chosen, named, written, found, displayed⟩ := handle_asks bound.coherent asked
    exact ⟨position, chosen, named, written, found, bound.shown identity displayed⟩
  · intro request candidate resolvedText outcome accepted
    obtain ⟨identity, pending, displayed⟩ := accepted_pending accepted
    obtain ⟨_, member, unanswered⟩ := bound.pending request identity pending
    refine ⟨unanswered, identity, pending, displayed, bound.shown identity displayed, fun other => ⟨fun also => ?_, ?_⟩⟩
    · -- A request is taken once, so it was asked under one identity.
      exact congrArg Prod.snd (List.inj_on_of_nodup_map bound.distinct also member rfl)
    · rintro rfl
      exact member

/-- A commit key whose index is not in the list touches nothing, so the next offer still replaces the list. -/
theorem commitCandidate_beyond :
    let s := exec (step .scalars) initial
      [.handle (.key (.text 'a' .kana .full)), .explicitSnapshot 1 1 none,
        .handle (.engine (.explicitSnapshot ⟨1, 1, 1, 1, 1⟩ [['亜'], ['阿']]))]
    let t := s.step .scalars (.handle (.key (.commitCandidate (some 2))))
    s.module.candidates = [['亜'], ['阿']] ∧ t.module.candidates = [['亜'], ['阿']] ∧
      (t.step .scalars (.handle (.engine (.explicitSnapshot ⟨1, 1, 1, 1, 1⟩ [['吾']])))).module.candidates = [['吾']] := by
  decide

end CandidateSession

end Nospacekey
