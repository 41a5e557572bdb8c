import Nospacekey.Clause.Steps
import Nospacekey.Outbox.Freeze

/-! Every engine token in the model was delivered under the learning identity the model has. -/

namespace Nospacekey

open Runs

variable {τ : Type}

namespace ClauseConversion

section Attribution

variable [EngineToken τ] (issuedUnder : τ → Option EngineLearningIdentity)

/-- A listed token is the empty one of a local entry, or came under the model's identity. -/
def Listable (m : ClauseConversion τ) (token : τ) : Prop :=
  EngineToken.isEmpty token = true ∨ issuedUnder token = m.learningIdentity

/-- All tokens of the clauses, the sentence, the kept lists and the open list came under the model's
present identity. -/
structure Attributed (m : ClauseConversion τ) : Prop where
  clauses : ∀ token ∈ m.clauseTokens, issuedUnder token = m.learningIdentity
  sentence : ∀ token, m.sentenceToken = some token → issuedUnder token = m.learningIdentity
  cached : ∀ id cached, m.cache.lookup id = some cached →
    ∀ candidate ∈ cached.candidates, m.Listable issuedUnder candidate.token
  ready : ∀ clause candidates selected, m.window = .ready clause candidates selected →
    ∀ candidate ∈ candidates, m.Listable issuedUnder candidate.token

variable {issuedUnder} {m m' : ClauseConversion τ}

/-- Under the same identity tokens may go, and the window may stay or stop showing a list. -/
theorem Attributed.mono (attributed : m.Attributed issuedUnder)
    (learning : m'.learningIdentity = m.learningIdentity)
    (clauses : ∀ token ∈ m'.clauseTokens, token ∈ m.clauseTokens)
    (sentence : m'.sentenceToken = none ∨ m'.sentenceToken = m.sentenceToken)
    (cache : ∀ id cached, m'.cache.lookup id = some cached → m.cache.lookup id = some cached)
    (window : m'.window = m.window ∨ m'.window.isReady = false) : m'.Attributed issuedUnder where
  clauses := fun token member => learning ▸ attributed.clauses token (clauses token member)
  sentence := by
    intro token found
    rcases sentence with gone | same
    · rw [gone] at found; cases found
    · exact learning ▸ attributed.sentence token (same ▸ found)
  cached := by
    unfold Listable
    rw [learning]
    exact fun id cached found => attributed.cached id cached (cache id cached found)
  ready := by
    unfold Listable
    rw [learning]
    intro clause candidates selected open'
    rcases window with same | unready
    · exact attributed.ready clause candidates selected (same ▸ open')
    · rw [open'] at unready; cases unready

/-- Quiet steps keep the attribution. -/
theorem Quiet.attributed (quiet : Quiet m m') (attributed : m.Attributed issuedUnder) :
    m'.Attributed issuedUnder := by
  refine attributed.mono quiet.learning ?_ (.inr quiet.sentence) quiet.cache
    (quiet.window.imp_right fun closed => by rw [closed]; rfl)
  unfold clauseTokens
  rw [quiet.clauses]
  exact fun token member => member

/-- Local edits keep the attribution. -/
theorem Reshaped.attributed (reshaped : Reshaped m m') (attributed : m.Attributed issuedUnder) :
    m'.Attributed issuedUnder :=
  attributed.mono reshaped.learning reshaped.tokens reshaped.sentence
    (fun id cached found => (reshaped.cache id cached found).2) (.inr (by rw [reshaped.window]; rfl))

/-- Promotion keeps the attribution. -/
theorem Extended.attributed (extended : Extended m m') (attributed : m.Attributed issuedUnder) :
    m'.Attributed issuedUnder := by
  refine attributed.mono extended.learning (clauseTokens_subset ?_) (.inl extended.sentence)
    (fun _ _ found => extended.cache ▸ found) (.inl extended.window)
  obtain ⟨added, clauses, plain⟩ := extended.clauses
  intro clause member
  rw [clauses] at member
  rcases List.mem_append.mp member with old | new
  · exact .inr ⟨clause, old, rfl⟩
  · obtain rfl := List.mem_singleton.mp new
    exact .inl (by rw [plain]; rfl)

/-- Once the tokens are forgotten there is none left to attribute. -/
theorem Forgotten.attributed (forgotten : Forgotten m m') : m'.Attributed issuedUnder where
  clauses := by
    intro token member
    obtain ⟨clause, inClauses, found⟩ := List.mem_filterMap.mp member
    rw [forgotten.clauses] at inClauses
    obtain ⟨old, _, rfl⟩ := List.mem_map.mp inClauses
    rw [SurfaceSource.token_retire] at found
    cases found
  sentence := fun _ found => by rw [forgotten.sentence] at found; cases found
  cached := fun _ _ found => (lookup_empty_ne_some (forgotten.cache ▸ found)).elim
  ready := by
    intro clause candidates selected open'
    rcases forgotten.window with closed | ⟨kept, unready⟩
    · rw [closed] at open'; cases open'
    · rw [← kept, open'] at unready; cases unready

/-- A choice copies tokens only from the open list. -/
theorem Chosen.attributed {clauseId : Nat} {candidates : List (ClauseCandidate τ)}
    (chosen : Chosen m m' clauseId candidates) (attributed : m.Attributed issuedUnder) :
    m'.Attributed issuedUnder := by
  obtain ⟨before, shown⟩ := chosen.shown
  -- A token chosen from the list is not the empty one, so it came under the identity.
  have listed : ∀ candidate ∈ candidates, EngineToken.isEmpty candidate.token = false →
      issuedUnder candidate.token = m.learningIdentity := by
    intro candidate inList solid
    rcases attributed.ready _ _ _ shown candidate inList with empty | came
    · rw [solid] at empty; cases empty
    · exact came
  refine { clauses := ?_, sentence := ?_, cached := ?_, ready := ?_ }
  · intro token member
    rw [chosen.learning]
    rcases chosen.tokens token member with old | ⟨candidate, inList, solid, rfl⟩
    · exact attributed.clauses token old
    · exact listed candidate inList solid
  · intro token found
    rw [chosen.learning]
    rcases chosen.sentence with gone | same | ⟨candidate, inList, solid, new⟩
    · rw [gone] at found; cases found
    · exact attributed.sentence token (same ▸ found)
    · rw [new] at found
      obtain rfl := Option.some.inj found
      exact listed candidate inList solid
  · unfold Listable
    rw [chosen.learning]
    exact fun id cached found => attributed.cached id cached (chosen.cache id cached found)
  · unfold Listable
    rw [chosen.learning]
    intro clause list selected open'
    obtain ⟨after, open''⟩ := chosen.window
    rw [open'', CandidateWindow.ready.injEq] at open'
    obtain ⟨_, rfl, _⟩ := open'
    exact attributed.ready _ _ _ shown

/-- Showing a kept list keeps the attribution. -/
theorem Listed.attributed {cached : CachedCandidates τ} (listed : Listed m m' cached)
    (attributed : m.Attributed issuedUnder) : m'.Attributed issuedUnder where
  clauses := by
    unfold clauseTokens
    rw [listed.clauses, listed.learning]
    exact attributed.clauses
  sentence := by rw [listed.sentence, listed.learning]; exact attributed.sentence
  cached := by
    unfold Listable
    rw [listed.cache, listed.learning]
    exact attributed.cached
  ready := by
    unfold Listable
    rw [listed.learning]
    intro clause candidates selected open'
    obtain ⟨_, _, _, found, _, _, after⟩ := listed.window
    rw [after, CandidateWindow.ready.injEq] at open'
    obtain ⟨_, rfl, _⟩ := open'
    exact attributed.cached _ _ found

/-- Asking for candidates keeps the attribution. -/
theorem Asked.attributed {entry : IssuedCandidates} (asked : Asked m m' entry)
    (attributed : m.Attributed issuedUnder) : m'.Attributed issuedUnder := by
  refine attributed.mono asked.learning ?_ (.inr asked.sentence) asked.cache
    (.inr (by rw [asked.window]; rfl))
  unfold clauseTokens
  rw [asked.clauses]
  exact fun token member => member

/-- An anchored list has the delivered tokens, the empty one and those of the clauses. -/
theorem anchorCandidates_listable {id : Nat} {candidates : List (ClauseCandidate τ)}
    (clauses : ∀ token ∈ m.clauseTokens, issuedUnder token = m.learningIdentity)
    (delivered : ∀ candidate ∈ candidates, issuedUnder candidate.token = m.learningIdentity) :
    ∀ candidate ∈ m.anchorCandidates id candidates, m.Listable issuedUnder candidate.token := by
  intro candidate member
  rcases mem_anchorCandidates member with inReply | ⟨clause, inClauses, _, _, _, empty | own⟩
  · exact .inr (delivered candidate inReply)
  · exact .inl (by rw [empty]; exact EngineToken.isEmpty_empty)
  · exact .inr (clauses _ (List.mem_filterMap.mpr ⟨clause, inClauses, own⟩))

/-- Storing a reply that came under the present identity keeps the attribution. -/
theorem Stored.attributed {entry : IssuedCandidates} {candidates : List (ClauseCandidate τ)}
    (stored : Stored m m' entry candidates) (attributed : m.Attributed issuedUnder)
    (delivered : ∀ candidate ∈ candidates, issuedUnder candidate.token = m.learningIdentity) :
    m'.Attributed issuedUnder := by
  have anchored : ∀ id, ∀ candidate ∈ m.anchorCandidates id candidates,
      m.Listable issuedUnder candidate.token :=
    fun id => anchorCandidates_listable attributed.clauses delivered
  refine { clauses := ?_, sentence := ?_, cached := ?_, ready := ?_ }
  · unfold clauseTokens
    rw [stored.clauses, stored.learning]
    exact attributed.clauses
  · rw [stored.sentence, stored.learning]
    exact attributed.sentence
  · unfold Listable
    rw [stored.cache, stored.learning]
    intro id cached found
    rcases Table.lookup_insert_cases found with ⟨_, rfl⟩ | ⟨_, old⟩
    · exact anchored _
    · exact attributed.cached id cached old
  · unfold Listable
    rw [stored.learning]
    intro clause list selected open'
    rcases stored.window with same | ⟨_, _, _, _, after⟩
    · exact attributed.ready clause list selected (same ▸ open')
    · rw [after, CandidateWindow.ready.injEq] at open'
      obtain ⟨_, rfl, _⟩ := open'
      exact anchored _

/-- What a boundary conversion shows came under the identity it brings. -/
theorem Converted.attributed {under : Option EngineLearningIdentity}
    {wire : List (WireClause τ)} (converted : Converted m m' under wire)
    (attributed : m.Attributed issuedUnder)
    (delivered : ∀ clause ∈ wire, ∀ token, clause.candidateToken = some token → issuedUnder token = under) :
    m'.Attributed issuedUnder where
  clauses := by
    intro token member
    rw [converted.learning]
    rcases converted.tokens token member with ⟨old, same⟩ | new
    · exact same ▸ attributed.clauses token old
    · obtain ⟨clause, inWire, found⟩ := List.mem_filterMap.mp new
      exact delivered clause inWire token found
  sentence := by
    intro token found
    rw [converted.learning]
    rcases converted.sentence with gone | ⟨kept, same⟩
    · rw [gone] at found; cases found
    · exact same ▸ attributed.sentence token (kept ▸ found)
  cached := fun _ _ found => (lookup_empty_ne_some (converted.cache ▸ found)).elim
  ready := fun _ _ _ open' => by rw [converted.window] at open'; cases open'

/-- A token is delivered under the identity it is tagged with. -/
def Tagged (issuedUnder : τ → Option EngineLearningIdentity)
    (identity : Option EngineLearningIdentity) (token : τ) : Prop := issuedUnder token = identity

/-- Every evolution that brings only tokens tagged with their identity keeps the attribution. -/
theorem Evolves.attributed {reserved : Nat → Prop} (evolves : Evolves (Tagged issuedUnder) reserved m m')
    (attributed : m.Attributed issuedUnder) : m'.Attributed issuedUnder := by
  induction evolves with
  | edited effect =>
    cases effect with
    | quiet effect => exact effect.attributed attributed
    | reshaped effect => exact effect.attributed attributed
  | extended effect => exact effect.attributed attributed
  | forgotten effect => exact effect.attributed
  | chosen effect => exact effect.attributed attributed
  | listed effect => exact effect.attributed attributed
  | asked effect _ => exact effect.attributed attributed
  | stored effect tokens => exact effect.attributed attributed tokens
  | converted effect tokens => exact effect.attributed attributed tokens
  | trans _ _ first second => exact second (first attributed)

/-- An operation whose tokens are tagged with the identity they are delivered under. Candidates that
come without an identity are counted as delivered under the present one. -/
def DeliversTagged (issuedUnder : τ → Option EngineLearningIdentity) :
    ClauseConversion τ → ClauseOp τ → Prop :=
  Delivers (Tagged issuedUnder)

/-- In every run whose replies bring tagged tokens, all tokens stay attributed to the identity. -/
theorem run_attributed (segmentation : Segmentation) (attributed : m.Attributed issuedUnder)
    {ops : List (ClauseOp τ)}
    (admissible : Admissible (apply segmentation) (DeliversTagged issuedUnder) m ops) :
    (exec (apply segmentation) m ops).Attributed issuedUnder :=
  exec_invariant (Attributed issuedUnder)
    (fun m op attributed delivers => (apply_evolves segmentation m op delivers).attributed attributed)
    attributed admissible

/-- A receipt never pairs a token with an identity it was not issued under. -/
theorem Attributed.freeze (attributed : m.Attributed issuedUnder) {nextCommitId : Option CommitId}
    {text : Text} {receipt : CommitReceipt τ} (frozen : freeze nextCommitId m text = some receipt) :
    ∀ token ∈ receipt.tokens, issuedUnder token = some receipt.identity := by
  obtain ⟨known, tokens⟩ := freeze_spec frozen
  intro token member
  rw [tokens] at member
  rcases List.mem_append.mp member with clause | sentence
  · exact (attributed.clauses token clause).trans known
  · exact (attributed.sentence token (Option.mem_toList.mp sentence)).trans known

/-- Tokens and receipts keep to the learning identity that the tokens were delivered under. -/
theorem run_provenance (segmentation : Segmentation) (attributed : m.Attributed issuedUnder)
    {ops : List (ClauseOp τ)}
    (admissible : Admissible (apply segmentation) (DeliversTagged issuedUnder) m ops) :
    (exec (apply segmentation) m ops).Attributed issuedUnder ∧
      ∀ nextCommitId text receipt,
        Nospacekey.freeze nextCommitId (exec (apply segmentation) m ops) text = some receipt →
          ∀ token ∈ receipt.tokens, issuedUnder token = some receipt.identity :=
  have attributed := run_attributed segmentation attributed admissible
  ⟨attributed, fun _ _ _ frozen => attributed.freeze frozen⟩

end Attribution

/-- A chosen candidate's token goes into the receipt under the identity it came with. -/
theorem run_provenance_chosen : ∃ (m : ClauseConversion String) (ops : List (ClauseOp String))
    (receipt : CommitReceipt String), fromReading ⟨1, 1, 1, 1⟩ ['か', 'な'] = some m ∧
      freeze (some ⟨['c'], 1⟩) (exec (apply Segmentation.scalars) m ops) ['仮', '名'] = some receipt ∧
      "t" ∈ receipt.tokens ∧ ∀ token ∈ receipt.tokens, some ⟨['e'], 3⟩ = some receipt.identity := by
  obtain ⟨m, ops, receipt, built, attributed, admissible, frozen, member⟩ :
      ∃ (m : ClauseConversion String) (ops : List (ClauseOp String)) (receipt : CommitReceipt String),
        fromReading ⟨1, 1, 1, 1⟩ ['か', 'な'] = some m ∧ m.Attributed (fun _ => some ⟨['e'], 3⟩) ∧
          Admissible (apply Segmentation.scalars) (DeliversTagged fun _ => some ⟨['e'], 3⟩) m ops ∧
          freeze (some ⟨['c'], 1⟩) (exec (apply Segmentation.scalars) m ops) ['仮', '名'] = some receipt ∧
          "t" ∈ receipt.tokens := by
    refine ⟨_, [.configuredLearningIdentity (some ⟨['e'], 3⟩), .transformKana 0 2 .katakana, .openCandidates 1 0,
      .acceptCandidatesWithIdentity ⟨⟨1, 1, 1, 1⟩, 0, 1, 1, 1⟩ (.ready [⟨['仮', '名'], "t", 0, 2⟩])
        (some ⟨['e'], 3⟩) 0, .selectCandidate 1], _, rfl, ?_, ?_, rfl, by decide⟩
    · exact
        { clauses := fun _ member => by cases member
          sentence := fun _ found => by cases found
          cached := fun _ _ found => by cases found
          ready := fun _ _ _ open' => by cases open' }
    · exact ⟨trivial, trivial, trivial, fun _ _ => rfl, trivial, trivial⟩
  exact ⟨m, ops, receipt, built, frozen, member,
    (run_provenance Segmentation.scalars attributed admissible).2 _ _ _ frozen⟩

end ClauseConversion

end Nospacekey
