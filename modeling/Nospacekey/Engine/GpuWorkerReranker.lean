import Nospacekey.Engine.ClauseProtocol
import Nospacekey.Engine.GpuWorkerSupervisor
import Nospacekey.Engine.GpuWorkerWire
import Nospacekey.Engine.SnapshotEnhancement
import Nospacekey.Library.Index
import Mathlib.Data.Finset.Card
import Mathlib.Algebra.Ring.Nat

/-! What a worker's response makes of a classic result, and which results are published. -/

namespace Nospacekey

open GpuWorkerWireLimits

/-- The candidates of a conversion, with what a worker never touches. -/
structure ConversionResult (ρ : Type) where
  mainResults : List NativeCandidate
  firstClauseResults : List NativeCandidate
  others : ρ
  deriving DecidableEq, Repr

/-- A worker's response as it is decoded. -/
structure GpuWorkerWireResponse where
  version : Nat
  requestID : Nat
  generation : Nat
  mainResults : List GpuWorkerCandidate
  firstClauseResults : List GpuWorkerCandidate
  failure : Option GpuWorkerFailure
  deriving DecidableEq, Repr

namespace GpuWorkerReranker

variable {χ υ ρ : Type} (swift : SwiftString) (module : ComposingTextEditing χ υ)

/-- Two candidates have texts that count as the same. -/
def hasDuplicate (candidates : List GpuWorkerCandidate) : Bool :=
  let texts := candidates.map fun candidate => swift.canonical candidate.text
  texts.length ≠ texts.toFinset.card

/-- The words make up the text, or there is neither. -/
def isStructurallyConsistent (candidate : NativeCandidate) : Bool :=
  if candidate.data.isEmpty then candidate.text.isEmpty
  else swift.same (candidate.data.flatMap NativeDicdataElement.word) candidate.text

/-- The places of each text among the classic candidates. -/
def indicesByText (classic : List NativeCandidate) : Table Text (List Nat) :=
  Index.group (classic.zipIdx.map fun entry => (swift.canonical entry.1.text, entry.2))

/-- A candidate that the classic result has is taken from it. Another one is never learned. -/
def materializeCandidate (classic : List NativeCandidate) (composingText : Option χ)
    (wireCandidate : GpuWorkerCandidate) : Option NativeCandidate :=
  match wireCandidate.makeCandidate with
  | none => none
  | some decoded =>
    if composingText.all fun composing => wireCandidate.composingCount.canApply swift module.toComposingTextModule
        module.prefixToCursorPosition composing then
      match (indicesByText swift classic).lookup (swift.canonical wireCandidate.text) with
      | some [index] => classic[index]?
      | some _ => none
      | none => if isStructurallyConsistent swift decoded then some { decoded with isLearningTarget := false } else none
    else none

def materialize (worker : List GpuWorkerCandidate) (classic : List NativeCandidate) (composingText : Option χ) :
    Option (List NativeCandidate) :=
  if worker.isEmpty then some classic
  else if hasDuplicate swift worker || maxArrayCount < worker.length then none
  else worker.mapM (materializeCandidate swift module classic composingText)

/-- The classic result, for a reason. -/
def reject (classic : ConversionResult ρ) (failure : GpuWorkerRerankFailure) :
    GpuWorkerRerankDecision (ConversionResult ρ) := ⟨classic, false, some failure⟩

/-- What both lists of a response come to. -/
def rerank (response : GpuWorkerWireResponse) (classic : ConversionResult ρ) (composingText : Option χ) :
    GpuWorkerRerankDecision (ConversionResult ρ) :=
  match materialize swift module response.mainResults classic.mainResults composingText,
    materialize swift module response.firstClauseResults classic.firstClauseResults composingText with
  | some main, some first => ⟨{ classic with mainResults := main, firstClauseResults := first }, true, none⟩
  | _, _ =>
    reject classic (if hasDuplicate swift response.mainResults || hasDuplicate swift response.firstClauseResults then
      .duplicateCandidate else .candidateMismatch)

/-- The lists are reranked over the composing text of the snapshot, which has to be a possible one. -/
def rerankSnapshot (response : GpuWorkerWireResponse) (classic : ConversionResult ρ)
    (snapshot : Option GpuWorkerCompositionSnapshot) : GpuWorkerRerankDecision (ConversionResult ρ) :=
  match snapshot with
  | none => rerank swift module response classic none
  | some snapshot =>
    match snapshot.makeComposingText swift module with
    | none => reject classic .protocolMismatch
    | some composing => rerank swift module response classic (some composing)

def apply (response : GpuWorkerWireResponse) (classic : ConversionResult ρ) (requestID generation : Nat)
    (snapshot : Option GpuWorkerCompositionSnapshot) : GpuWorkerRerankDecision (ConversionResult ρ) :=
  if response.version = gpuWorkerRequestCurrentVersion ∧ response.requestID = requestID ∧
      response.generation = generation then
    match response.failure with
    | some failure => reject classic failure.rerankFailure
    | none => rerankSnapshot swift module response classic snapshot
  else reject classic .protocolMismatch

/-- What an accepted candidate of the response stands for: the only classic candidate with its text, or one that is
new, never learned, and spelled by its words. -/
inductive Materialized (swift : SwiftString) (classic : List NativeCandidate) (wireCandidate : GpuWorkerCandidate)
    (candidate : NativeCandidate) : Prop where
  | reused (unique : classic.filter (fun other => swift.same other.text wireCandidate.text) = [candidate])
  | rebuilt (absent : classic.filter (fun other => swift.same other.text wireCandidate.text) = [])
      (spelled : candidate.text = wireCandidate.text) (unlearned : candidate.isLearningTarget = false)
      (consistent : (candidate.data = [] ∧ candidate.text = []) ∨
        swift.same (candidate.data.flatMap NativeDicdataElement.word) candidate.text)

/-- A list of candidates that comes from a list of a response. An empty one leaves the classic candidates. -/
structure Reranked (swift : SwiftString) (module : ComposingTextEditing χ υ) (worker : List GpuWorkerCandidate)
    (classic : List NativeCandidate) (composingText : Option χ) (result : List NativeCandidate) : Prop where
  kept : worker = [] → result = classic
  texts : worker ≠ [] → (result.map fun candidate => swift.canonical candidate.text) =
    worker.map fun candidate => swift.canonical candidate.text
  distinct : worker ≠ [] → (result.map fun candidate => swift.canonical candidate.text).Nodup
  each : worker ≠ [] → List.Forall₂ (fun wireCandidate candidate => Materialized swift classic wireCandidate candidate ∧
    ∀ composing, composingText = some composing → wireCandidate.composingCount.canApply swift
      module.toComposingTextModule module.prefixToCursorPosition composing = true) worker result

variable {swift module}

/-- A decoded candidate keeps its text. -/
theorem makeCandidate_text {wireCandidate : GpuWorkerCandidate} {decoded : NativeCandidate}
    (made : wireCandidate.makeCandidate = some decoded) : decoded.text = wireCandidate.text := by
  rw [GpuWorkerCandidate.makeCandidate, Option.ite_none_right_eq_some] at made
  obtain ⟨_, made⟩ := made
  simp only [Option.bind_eq_bind, Option.bind_eq_some_iff, Option.some.injEq] at made
  obtain ⟨_, _, _, _, _, _, rfl⟩ := made
  rfl

/-- The places of a text lead to the classic candidates with that text. -/
theorem map_getElem?_indices (classic : List NativeCandidate) (text : Text) :
    (Index.valuesOf (classic.zipIdx.map fun entry => (swift.canonical entry.1.text, entry.2))
      (swift.canonical text)).map (classic[·]?) =
      (classic.filter fun other => swift.same other.text text).map some :=
  Index.map_getElem?_valuesOf (fun candidate => swift.canonical candidate.text) classic (swift.canonical text)

/-- An accepted candidate is a classic one or a harmless one, and can be applied. -/
theorem materializeCandidate_spec {classic : List NativeCandidate} {composingText : Option χ}
    {wireCandidate : GpuWorkerCandidate} {candidate : NativeCandidate}
    (accepted : materializeCandidate swift module classic composingText wireCandidate = some candidate) :
    Materialized swift classic wireCandidate candidate ∧
      ∀ composing, composingText = some composing → wireCandidate.composingCount.canApply swift
        module.toComposingTextModule module.prefixToCursorPosition composing = true := by
  have places := @map_getElem?_indices swift classic wireCandidate.text
  rw [materializeCandidate] at accepted
  cases made : wireCandidate.makeCandidate with
  | none => simp [made] at accepted
  | some decoded =>
    simp only [made, Option.ite_none_right_eq_some] at accepted
    obtain ⟨applies, accepted⟩ := accepted
    refine ⟨?_, fun composing same => by simpa [same] using applies⟩
    rw [indicesByText, Index.lookup_group] at accepted
    -- The text has no place, one place or more among the classic candidates.
    cases indices : Index.valuesOf (classic.zipIdx.map fun entry => (swift.canonical entry.1.text, entry.2))
        (swift.canonical wireCandidate.text) with
    | nil =>
      have absent : classic.filter (fun other => swift.same other.text wireCandidate.text) = [] := by
        simpa [indices] using places.symm
      simp only [indices, if_true, Option.ite_none_right_eq_some] at accepted
      obtain ⟨consistent, same⟩ := accepted
      cases same
      refine .rebuilt absent (show decoded.text = _ from makeCandidate_text made) rfl ?_
      rw [isStructurallyConsistent] at consistent
      by_cases empty : decoded.data = []
      · left
        simpa [empty] using consistent
      · right
        simpa [empty] using consistent
    | cons index rest =>
      cases rest with
      | nil =>
        refine .reused ?_
        have found : classic[index]? = some candidate := by simpa [indices] using accepted
        rw [indices] at places
        have one : (classic.filter fun other => swift.same other.text wireCandidate.text).map some = [some candidate] := by
          rw [← places, ← found]
          rfl
        simpa using one
      | cons => simp [indices] at accepted

/-- An accepted candidate has the text of the response. -/
theorem Materialized.text {classic : List NativeCandidate} {wireCandidate : GpuWorkerCandidate}
    {candidate : NativeCandidate} (materialized : Materialized swift classic wireCandidate candidate) :
    swift.canonical candidate.text = swift.canonical wireCandidate.text := by
  cases materialized with
  | reused unique =>
    have member : candidate ∈ classic.filter fun other => swift.same other.text wireCandidate.text := by simp [unique]
    simpa [SwiftString.same] using (List.mem_filter.mp member).2
  | rebuilt _ spelled => rw [spelled]

/-- Without duplicates the texts are distinct. -/
theorem hasDuplicate_eq_false {candidates : List GpuWorkerCandidate} :
    hasDuplicate swift candidates = false ↔
      (candidates.map fun candidate => swift.canonical candidate.text).Nodup := by
  rw [hasDuplicate, decide_eq_false_iff_not, not_not, eq_comm]
  exact Multiset.toFinset_card_eq_card_iff_nodup

/-- A list that is accepted is reranked. -/
theorem materialize_spec {worker : List GpuWorkerCandidate} {classic result : List NativeCandidate}
    {composingText : Option χ} (accepted : materialize swift module worker classic composingText = some result) :
    Reranked swift module worker classic composingText result := by
  rw [materialize] at accepted
  by_cases empty : worker = []
  · rw [if_pos (by simp [empty])] at accepted
    exact ⟨fun _ => (Option.some.inj accepted).symm, fun filled => absurd empty filled,
      fun filled => absurd empty filled, fun filled => absurd empty filled⟩
  · rw [if_neg (by simp [empty]), Option.ite_none_left_eq_some] at accepted
    obtain ⟨valid, accepted⟩ := accepted
    have each := Index.mapM_eq_some_iff.mp accepted
    have texts : (result.map fun candidate => swift.canonical candidate.text) =
        worker.map fun candidate => swift.canonical candidate.text := by
      clear accepted valid empty
      induction each with
      | nil => rfl
      | cons found _ ih => rw [List.map_cons, List.map_cons, ih, (materializeCandidate_spec found).1.text]
    refine ⟨fun none_there => absurd none_there empty, fun _ => texts, fun _ => ?_,
      fun _ => each.imp fun _ _ found => materializeCandidate_spec found⟩
    rw [texts, ← hasDuplicate_eq_false]
    simp only [Bool.or_eq_true, not_or, Bool.not_eq_true] at valid
    exact valid.1

/-- What a decision comes to: the classic result and a failure, or both lists reranked. -/
inductive Decided (swift : SwiftString) (module : ComposingTextEditing χ υ) (response : GpuWorkerWireResponse)
    (classic : ConversionResult ρ) (snapshot : Option GpuWorkerCompositionSnapshot)
    (decision : GpuWorkerRerankDecision (ConversionResult ρ)) : Prop where
  | rejected (kept : decision.conversion = classic) (unused : decision.usedWorker = false)
      (failed : decision.failure ≠ none)
  | accepted (composingText : Option χ) (used : decision.usedWorker = true) (sound : decision.failure = none)
      (composed : snapshot.map (fun snapshot => snapshot.makeComposingText swift module) = composingText.map some)
      (main : Reranked swift module response.mainResults classic.mainResults composingText
        decision.conversion.mainResults)
      (first : Reranked swift module response.firstClauseResults classic.firstClauseResults composingText
        decision.conversion.firstClauseResults)
      (others : decision.conversion.others = classic.others)

/-- Both lists are reranked, or neither is. -/
theorem rerank_decided (response : GpuWorkerWireResponse) (classic : ConversionResult ρ)
    {snapshot : Option GpuWorkerCompositionSnapshot} {composingText : Option χ}
    (composed : snapshot.map (fun snapshot => snapshot.makeComposingText swift module) = composingText.map some) :
    Decided swift module response classic snapshot (rerank swift module response classic composingText) := by
  rw [rerank]
  split
  · rename_i main first
    exact .accepted composingText rfl rfl composed (materialize_spec main) (materialize_spec first) rfl
  · exact .rejected rfl rfl (by simp [reject])

/-- The candidates of a response are reranked, or the snapshot is at fault. -/
theorem rerankSnapshot_decided (response : GpuWorkerWireResponse) (classic : ConversionResult ρ)
    (snapshot : Option GpuWorkerCompositionSnapshot) :
    Decided swift module response classic snapshot (rerankSnapshot swift module response classic snapshot) := by
  cases snapshot with
  | none => exact rerank_decided response classic rfl
  | some snapshot =>
    rw [rerankSnapshot]
    cases made : snapshot.makeComposingText swift module with
    | none => exact .rejected rfl rfl (by simp [reject])
    | some composing => exact rerank_decided response classic (by simp [made])

/-- Every response leads to the classic result and a failure, or to reranked lists. -/
theorem apply_decided (response : GpuWorkerWireResponse) (classic : ConversionResult ρ) (requestID generation : Nat)
    (snapshot : Option GpuWorkerCompositionSnapshot) :
    Decided swift module response classic snapshot
      (apply swift module response classic requestID generation snapshot) := by
  -- The response is checked for its identity and its failure before its candidates are looked at.
  unfold apply
  split
  · split
    · exact .rejected rfl rfl (by simp [reject])
    · exact rerankSnapshot_decided response classic snapshot
  · exact .rejected rfl rfl (by simp [reject])

/-- The response as the supervisor sees it, with what its candidates come to. -/
def supervised (swift : SwiftString) (module : ComposingTextEditing χ υ) (response : GpuWorkerWireResponse)
    (classic : ConversionResult ρ) (snapshot : Option GpuWorkerCompositionSnapshot) :
    GpuWorkerResponse (ConversionResult ρ) where
  version := response.version
  requestID := response.requestID
  generation := response.generation
  failure := response.failure
  materialized :=
    let decision := rerankSnapshot swift module response classic snapshot
    match decision.failure with
    | none => .ok decision.conversion
    | some failure => .error failure

/-- The supervisor takes the same decision over what the candidates come to. -/
theorem apply_supervised (response : GpuWorkerWireResponse) (classic : ConversionResult ρ)
    (requestID generation : Nat) (snapshot : Option GpuWorkerCompositionSnapshot) :
    apply swift module response classic requestID generation snapshot =
      match (supervised swift module response classic snapshot).apply requestID generation with
      | .ok conversion => ⟨conversion, true, none⟩
      | .error failure => ⟨classic, false, some failure⟩ := by
  unfold apply GpuWorkerResponse.apply supervised
  split
  · cases response.failure with
    | some failure => rfl
    | none =>
      -- A decision is the classic result exactly when it has a failure.
      have decided := @rerankSnapshot_decided χ υ ρ swift module response classic snapshot
      generalize rerankSnapshot swift module response classic snapshot = decision at decided ⊢
      obtain ⟨conversion, usedWorker, failure⟩ := decision
      cases decided with
      | rejected kept unused failed =>
        obtain ⟨failure, rfl⟩ := Option.ne_none_iff_exists'.mp failed
        cases kept
        cases unused
        rfl
      | accepted _ used sound =>
        cases used
        cases sound
        rfl
  · rfl

end GpuWorkerReranker

/-- What one work item of an enhancement carries beside its key. -/
structure SnapshotEnhancementContent (ρ : Type) where
  explicit : Bool
  reading : Text
  classic : ConversionResult ρ
  snapshot : GpuWorkerCompositionSnapshot
  leftContext : Option Text
  inferenceLimit : Int

/-- What an evaluation asks for: the supervisor, if there is one, and the clauses of a candidate. -/
structure EnhancementCode (ρ ε : Type) where
  supervisor : Option (ConversionResult ρ → GpuWorkerCompositionSnapshot → Option Text → Nat → Int →
    GpuWorkerCaller → ε → GpuWorkerRerankDecision (ConversionResult ρ))
  makeSnapshotClauseData : Text → Option NativeCandidate → SnapshotEnhancementKey → ε → SnapshotClauseData Text

namespace SnapshotEnhancement

variable {ρ ε : Type} (swift : SwiftString) (code : EnhancementCode ρ ε)

def consumedReading (candidate : NativeCandidate) : Nat :=
  (candidate.data.map fun element => swift.count element.ruby).sum

/-- What a candidate is told apart by: its text and how much of the reading it takes. -/
def identity (candidate : NativeCandidate) : Text × Nat :=
  (swift.canonical candidate.text, consumedReading swift candidate)

/-- The candidates are the classic ones in some order. -/
def isSnapshotEnhancement (enhanced classic : List NativeCandidate) : Bool :=
  if enhanced.isEmpty || enhanced.length ≠ classic.length then false
  else Index.drawAll (Index.tally (classic.map (identity swift))) (enhanced.map (identity swift))

/-- The first candidate for the whole reading, or else for a front of it. -/
def snapshotCandidate (candidates : List NativeCandidate) (reading : Text) : Option NativeCandidate :=
  let normalized := ClauseCoordinates.normalize reading
  let ruby (candidate : NativeCandidate) := ClauseCoordinates.normalize (candidate.data.flatMap (·.ruby))
  let valid := candidates.filter fun candidate =>
    !(ruby candidate).isEmpty && !candidate.text.isEmpty && (ruby candidate).isPrefixOf normalized
  (valid.find? fun candidate => ruby candidate = normalized).or valid.head?

/-- The better conversion of a snapshot, when the worker found the classic candidates in a new order. -/
def evaluateSnapshotEnhancement (work : SnapshotEnhancementWork (SnapshotEnhancementContent ρ)) (world : ε) :
    SnapshotEnhancementPoll :=
  match code.supervisor with
  | none => .unavailable
  | some rerank =>
    let content := work.content
    let decision := rerank content.classic content.snapshot content.leftContext (if content.explicit then 10 else 1)
      content.inferenceLimit (if content.explicit then .explicitSnapshot else .liveSnapshot) world
    if decision.usedWorker && decision.failure.isNone &&
        isSnapshotEnhancement swift decision.conversion.mainResults content.classic.mainResults then
      let enhanced := decision.conversion.mainResults
      let clauseData := code.makeSnapshotClauseData content.reading (snapshotCandidate enhanced content.reading)
        work.key world
      let safeDisplay := clauseData.clauses.flatMap WireClause.surface
      if content.explicit then
        .ready safeDisplay (some (enhanced.map NativeCandidate.text))
          (some (enhanced.map fun candidate =>
            ((swift.graphemes content.reading).drop
              (min (swift.count content.reading) (consumedReading swift candidate))).flatten)) clauseData
      else .ready safeDisplay none none clauseData
    else .unavailable

/-- An enhancement has the candidates of the classic result, each as often. -/
theorem isSnapshotEnhancement_iff {enhanced classic : List NativeCandidate} :
    isSnapshotEnhancement swift enhanced classic = true ↔
      enhanced ≠ [] ∧ (enhanced.map (identity swift)).Perm (classic.map (identity swift)) := by
  -- The lengths are compared first, so that using up the places is all that is left.
  rw [isSnapshotEnhancement]
  by_cases empty : enhanced = []
  · simp [empty]
  · by_cases length : enhanced.length = classic.length
    · rw [if_neg (by simp [empty, length]), Index.drawAll_tally_iff (by simpa using length)]
      simp [empty]
    · rw [if_pos (by simp [length])]
      simp only [Bool.false_eq_true, false_iff, not_and]
      intro _ perm
      exact length (by simpa using perm.length_eq)

/-- What is published has the candidates of the classic result. -/
theorem evaluate_ready {work : SnapshotEnhancementWork (SnapshotEnhancementContent ρ)} {world : ε}
    (ready : (evaluateSnapshotEnhancement swift code work world).isReady = true) :
    ∃ rerank decision, code.supervisor = some rerank ∧
      decision = rerank work.content.classic work.content.snapshot work.content.leftContext
        (if work.content.explicit then 10 else 1) work.content.inferenceLimit
        (if work.content.explicit then .explicitSnapshot else .liveSnapshot) world ∧
      decision.usedWorker = true ∧ decision.failure = none ∧ decision.conversion.mainResults ≠ [] ∧
      (decision.conversion.mainResults.map (identity swift)).Perm
        (work.content.classic.mainResults.map (identity swift)) := by
  rw [evaluateSnapshotEnhancement] at ready
  cases supervisor : code.supervisor with
  | none => simp [supervisor, SnapshotEnhancementPoll.isReady] at ready
  | some rerank =>
    refine ⟨rerank, _, rfl, rfl, ?_⟩
    simp only [supervisor] at ready
    generalize rerank work.content.classic work.content.snapshot work.content.leftContext
      (if work.content.explicit then 10 else 1) work.content.inferenceLimit
      (if work.content.explicit then .explicitSnapshot else .liveSnapshot) world = decision at ready ⊢
    -- Anything else that the evaluation returns is not ready.
    split at ready
    · rename_i accepted
      simp only [Bool.and_eq_true, Option.isNone_iff_eq_none, isSnapshotEnhancement_iff] at accepted
      exact ⟨accepted.1.1, accepted.1.2, accepted.2.1, accepted.2.2⟩
    · cases ready

end SnapshotEnhancement

/-- A worker's response never changes a classic result in part: it is left alone with a failure, or its lists are
those of the response, with candidates that are classic ones or are never learned. What is added up on the way stays
within the limits, and only a reordering of the classic candidates is published. -/
theorem GpuWorkerReranker.response_contained {χ υ ρ ε : Type} (swift : SwiftString)
    (module : ComposingTextEditing χ υ) (response : GpuWorkerWireResponse) (classic : ConversionResult ρ)
    (requestID generation : Nat) (snapshot : Option GpuWorkerCompositionSnapshot) (code : EnhancementCode ρ ε)
    (work : SnapshotEnhancementWork (SnapshotEnhancementContent ρ)) (world : ε) :
    Decided swift module response classic snapshot
        (apply swift module response classic requestID generation snapshot) ∧
      (∀ candidate ∈ response.mainResults ++ response.firstClauseResults,
        ∀ addition ∈ candidate.composingCount.additionsAt 0,
          (0 ≤ addition.1 ∧ addition.1 ≤ maxCount) ∧ (0 ≤ addition.2 ∧ addition.2 ≤ maxCount) ∧
            addingReportingOverflow addition.1 addition.2 = (addition.1 + addition.2, false)) ∧
      ((SnapshotEnhancement.evaluateSnapshotEnhancement swift code work world).isReady = true →
        ∃ rerank decision, code.supervisor = some rerank ∧
          decision = rerank work.content.classic work.content.snapshot work.content.leftContext
            (if work.content.explicit then 10 else 1) work.content.inferenceLimit
            (if work.content.explicit then .explicitSnapshot else .liveSnapshot) world ∧
          decision.usedWorker = true ∧ decision.failure = none ∧ decision.conversion.mainResults ≠ [] ∧
          (decision.conversion.mainResults.map (SnapshotEnhancement.identity swift)).Perm
            (work.content.classic.mainResults.map (SnapshotEnhancement.identity swift))) := by
  refine ⟨apply_decided response classic requestID generation snapshot, fun candidate _ addition member => ?_,
    SnapshotEnhancement.evaluate_ready swift code⟩
  obtain ⟨left, right⟩ := GpuWorkerComposingCount.additions_valid addition member
  exact ⟨left, right, GpuWorkerComposingCount.addingReportingOverflow_exact left right⟩

/-- A response without candidates leaves the classic ones, which are then not those of the response. -/
theorem GpuWorkerReranker.response_empty :
    let unread : ComposingTextEditing Unit Unit :=
      ⟨⟨fun _ => 0, fun _ => [], fun _ _ => ()⟩, (), fun _ _ _ => (), fun _ _ => (), fun _ _ => (), fun _ => 0,
        fun _ => (), fun _ => none⟩
    let classic : ConversionResult Unit :=
      ⟨[⟨['亜'], .finite 0, .surfaceCount 1, 0, [⟨['亜'], ['あ'], 0, 0, 0, .finite 0, 0⟩], [], true, true⟩], [], ()⟩
    let response : GpuWorkerWireResponse := ⟨gpuWorkerRequestCurrentVersion, 1, 1, [], [], none⟩
    let decision := apply .scalars unread response classic 1 1 none
    decision.usedWorker = true ∧ decision.conversion.mainResults ≠ [] ∧
      decision.conversion.mainResults.map NativeCandidate.text ≠
        response.mainResults.map GpuWorkerCandidate.text := by
  refine ⟨rfl, ?_, ?_⟩ <;> simp [apply, rerankSnapshot, rerank, materialize]

end Nospacekey
