import Nospacekey.Clause.Invariant

/-! What the operations can do to the clause model, as a few kinds of effect. -/

namespace Nospacekey

open Tiling

variable {τ : Type}

/-- The engine token of a surface, if it has one. -/
def SurfaceSource.token : SurfaceSource τ → Option τ
  | .candidate token _ => some token
  | _ => none

/-- A retired source has no token. -/
@[simp] theorem SurfaceSource.token_retire (source : SurfaceSource τ) : source.retire.token = none := by
  cases source <;> rfl

/-- Retiring a source never makes it a reading. -/
@[simp] theorem SurfaceSource.retire_eq_reading (source : SurfaceSource τ) :
    source.retire = .reading ↔ source = .reading := by
  cases source <;> simp [retire]

namespace ClauseConversion

/-- The engine tokens that the clauses hold. -/
def clauseTokens (m : ClauseConversion τ) : List τ :=
  m.clauses.filterMap fun clause => clause.source.token

/-- A clause list none of whose clauses has a token the old list lacks adds no token. -/
theorem clauseTokens_subset {m m' : ClauseConversion τ}
    (origin : ∀ clause ∈ m'.clauses, clause.source.token = none ∨
      ∃ old ∈ m.clauses, old.source = clause.source) :
    ∀ token ∈ m'.clauseTokens, token ∈ m.clauseTokens := by
  intro token member
  obtain ⟨clause, inClauses, found⟩ := List.mem_filterMap.mp member
  rcases origin clause inClauses with absent | ⟨old, inOld, same⟩
  · rw [absent] at found; cases found
  · exact List.mem_filterMap.mpr ⟨old, inOld, by rw [same]; exact found⟩

/-- The clauses stay as they are, and requests, lists and the window can only be withdrawn. -/
structure Quiet (m m' : ClauseConversion τ) : Prop where
  reading : m'.reading = m.reading
  clauses : m'.clauses = m.clauses
  revision : m'.revision = m.revision
  nextClauseId : m'.nextClauseId = m.nextClauseId
  learning : m'.learningIdentity = m.learningIdentity
  sentence : m'.sentenceToken = m.sentenceToken
  selected : m.clauses ≠ [] → m.selected < m.clauses.length → m'.selected < m.clauses.length
  lastRequestId : m.lastRequestId ≤ m'.lastRequestId
  issued : ∀ id entry, m'.issued.lookup id = some entry → m.issued.lookup id = some entry
  boundary : ∀ entry, m'.boundaryRequest = some entry → m.boundaryRequest = some entry
  cache : ∀ id cached, m'.cache.lookup id = some cached → m.cache.lookup id = some cached
  window : m'.window = m.window ∨ m'.window = .closed

/-- A local edit: the revision grows, the window closes and no token, request or list is added. -/
structure Reshaped (m m' : ClauseConversion τ) : Prop where
  formed : m.WellFormed → m'.WellFormed
  revision : m.revision < m'.revision
  learning : m'.learningIdentity = m.learningIdentity
  sentence : m'.sentenceToken = none ∨ m'.sentenceToken = m.sentenceToken
  lastRequestId : m'.lastRequestId = m.lastRequestId
  tokens : ∀ token ∈ m'.clauseTokens, token ∈ m.clauseTokens
  issued : ∀ id entry, m'.issued.lookup id = some entry → m.issued.lookup id = some entry
  boundary : ∀ entry, m'.boundaryRequest = some entry → m.boundaryRequest = some entry
  cache : ∀ id cached, m'.cache.lookup id = some cached →
    m'.reading = m.reading ∧ m.cache.lookup id = some cached
  window : m'.window = .closed

/-- A reading clause is appended behind the others, and what was requested or shown stays. -/
structure Extended (m m' : ClauseConversion τ) : Prop where
  formed : m.WellFormed → m'.WellFormed
  revision : m.revision < m'.revision
  learning : m'.learningIdentity = m.learningIdentity
  sentence : m'.sentenceToken = none
  lastRequestId : m'.lastRequestId = m.lastRequestId
  clauses : ∃ clause, m'.clauses = m.clauses ++ [clause] ∧ clause.source = .reading
  legal : ∀ position, LegalBoundary m.reading position → LegalBoundary m'.reading position
  issued : m'.issued = m.issued
  boundary : m'.boundaryRequest = m.boundaryRequest
  cache : m'.cache = m.cache
  window : m'.window = m.window

/-- The outcome of a local operation. -/
inductive Edited (m m' : ClauseConversion τ) : Prop where
  | quiet (effect : Quiet m m')
  | reshaped (effect : Reshaped m m')

/-- Tokens go with the learning identity they came under, and surfaces stay. -/
structure Forgotten (m m' : ClauseConversion τ) : Prop where
  reading : m'.reading = m.reading
  clauses : m'.clauses = m.clauses.map fun clause => { clause with source := clause.source.retire }
  revision : m'.revision = m.revision
  nextClauseId : m'.nextClauseId = m.nextClauseId
  selected : m'.selected = m.selected
  sentence : m'.sentenceToken = none
  lastRequestId : m'.lastRequestId = m.lastRequestId
  issued : ∀ id entry, m'.issued.lookup id = some entry → m.issued.lookup id = some entry
  boundary : ∀ entry, m'.boundaryRequest = some entry → m.boundaryRequest = some entry
  cache : m'.cache = ∅
  window : m'.window = .closed ∨ m'.window = m.window ∧ m.window.isReady = false

/-- Doing nothing is quiet. -/
theorem Quiet.refl (m : ClauseConversion τ) : Quiet m m where
  reading := rfl
  clauses := rfl
  revision := rfl
  nextClauseId := rfl
  learning := rfl
  sentence := rfl
  selected := fun _ inside => inside
  lastRequestId := le_rfl
  issued := fun _ _ found => found
  boundary := fun _ found => found
  cache := fun _ _ found => found
  window := .inl rfl

/-- Quiet steps compose. -/
theorem Quiet.trans {a b c : ClauseConversion τ} (first : Quiet a b) (second : Quiet b c) :
    Quiet a c where
  reading := second.reading.trans first.reading
  clauses := second.clauses.trans first.clauses
  revision := second.revision.trans first.revision
  nextClauseId := second.nextClauseId.trans first.nextClauseId
  learning := second.learning.trans first.learning
  sentence := second.sentence.trans first.sentence
  selected := fun some inside => by
    have := second.selected (by rw [first.clauses]; exact some)
      (by rw [first.clauses]; exact first.selected some inside)
    rwa [first.clauses] at this
  lastRequestId := le_trans first.lastRequestId second.lastRequestId
  issued := fun id entry found => first.issued id entry (second.issued id entry found)
  boundary := fun entry found => first.boundary entry (second.boundary entry found)
  cache := fun id cached found => first.cache id cached (second.cache id cached found)
  window := by
    rcases second.window with kept | closed
    · rw [kept]; exact first.window
    · exact .inr closed

/-- A quiet step keeps the model well formed. -/
theorem Quiet.wellFormed {m m' : ClauseConversion τ} (quiet : Quiet m m') (formed : m.WellFormed) :
    m'.WellFormed :=
  formed.congr quiet.reading quiet.clauses quiet.nextClauseId quiet.selected

/-- A local operation keeps the model well formed. -/
theorem Edited.wellFormed {m m' : ClauseConversion τ} (edited : Edited m m') (formed : m.WellFormed) :
    m'.WellFormed := by
  cases edited with
  | quiet effect => exact effect.wellFormed formed
  | reshaped effect => exact effect.formed formed

/-- Nothing is found in the empty table. -/
theorem lookup_empty_ne_some {ν : Type} {id : Nat} {value : ν}
    (found : (∅ : Table Nat ν).lookup id = some value) : False := by
  simp at found

section Quiet

variable (m : ClauseConversion τ)

/-- Closing the window is quiet. -/
theorem closeWindow_quiet : Quiet m m.closeWindow := by
  refine { Quiet.refl m with issued := ?_, boundary := ?_, window := .inr rfl }
  · intro id entry found
    unfold closeWindow at found
    cases loading : m.window.loadingKey with
    | none => simpa [loading] using found
    | some key =>
      simp only [loading] at found
      exact (Table.lookup_of_lookup_erase found).2
  · intro entry found
    cases found

/-- Withdrawing a request is quiet. -/
theorem endRequest_quiet (key : ClauseRequestKey) : Quiet m (m.endRequest key) := by
  have erased : ∀ id entry, (m.issued.erase key.requestId).lookup id = some entry →
      m.issued.lookup id = some entry := fun id entry found => (Table.lookup_of_lookup_erase found).2
  unfold endRequest
  dsimp only
  split
  · exact { Quiet.refl m with
      issued := erased, boundary := fun _ found => (by cases found), window := .inr rfl }
  · exact { Quiet.refl m with issued := erased }

/-- Expiry is quiet. -/
theorem expire_quiet (now : Nat) : Quiet m (m.expire now) := by
  -- The expired requests are withdrawn one after another.
  have withdrawn : ∀ (keys : List ClauseRequestKey) (m : ClauseConversion τ),
      Quiet m (keys.foldl endRequest m) := by
    intro keys
    induction keys with
    | nil => exact fun m => Quiet.refl m
    | cons key rest ih => exact fun m => (endRequest_quiet m key).trans (ih _)
  unfold expire
  dsimp only
  split
  · exact (closeWindow_quiet m).trans (withdrawn _ _)
  · exact withdrawn _ _

/-- Movement changes nothing but the selection and the window. -/
theorem moveClause_quiet (offset : Int) : Quiet m (m.moveClause offset) := by
  refine { Quiet.refl m with
    selected := ?_, boundary := fun _ found => (by cases found), window := .inr rfl }
  intro some inside
  unfold moveClause
  dsimp only
  split
  · exact inside
  · have := List.length_pos_iff.mpr some
    omega

/-- Leaving the notation rotation is quiet. -/
theorem resetNotationCycle_quiet : Quiet m m.resetNotationCycle := { Quiet.refl m with }

/-- A failed local operation may still have left a pending cancellation. -/
theorem clearCancelStage_quiet : Quiet m { m with cancelStage := .none } := { Quiet.refl m with }

/-- Preparing a rebaseline only reserves request ids. -/
theorem prepareRebaseline_quiet (key : ClauseRequestKey) (snapshotRequestId convertRequestId now : Nat) :
    Quiet m (m.prepareRebaseline key snapshotRequestId convertRequestId now).1 := by
  unfold prepareRebaseline
  dsimp only
  split
  · exact Quiet.refl m
  · split
    · exact Quiet.refl m
    · rename_i admitted
      split
      · exact Quiet.refl m
      · simp only [Bool.or_eq_true, decide_eq_true_eq, not_or, Nat.not_le] at admitted
        exact { Quiet.refl m with lastRequestId := by dsimp only; omega }

end Quiet

end ClauseConversion

end Nospacekey
