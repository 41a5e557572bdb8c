import Nospacekey.Clause.Steps

/-! Replies are accepted only into the context they were requested for, and no request id twice. -/

namespace Nospacekey

open Runs

variable {τ : Type}

namespace ClauseConversion

section Progress

variable [EngineToken τ] {delivered : Option EngineLearningIdentity → τ → Prop} {reserved : Nat → Prop}

/-- Either the revision grows, or neither the reading nor any clause's id, range and surface changes. -/
def Progresses (m m' : ClauseConversion τ) : Prop :=
  m.revision < m'.revision ∨ (m'.revision = m.revision ∧ m'.reading = m.reading ∧
    m'.clauses.map precedingSurface = m.clauses.map precedingSurface)

omit [EngineToken τ] in
/-- Nothing changes without progress. -/
theorem progresses_of_same {m m' : ClauseConversion τ} (revision : m.revision ≤ m'.revision)
    (reading : m'.reading = m.reading)
    (clauses : m'.clauses.map precedingSurface = m.clauses.map precedingSurface) : Progresses m m' := by
  rcases Nat.eq_or_lt_of_le revision with same | later
  · exact .inr ⟨same.symm, reading, clauses⟩
  · exact .inl later

/-- Every evolution is progress or leaves what the user sees alone. -/
theorem Evolves.progresses {m m' : ClauseConversion τ} (evolves : Evolves delivered reserved m m') :
    Progresses m m' := by
  induction evolves with
  | edited effect =>
    cases effect with
    | quiet effect => exact progresses_of_same effect.revision.ge effect.reading (by rw [effect.clauses])
    | reshaped effect => exact .inl effect.revision
  | extended effect => exact .inl effect.revision
  | forgotten effect => exact progresses_of_same effect.revision.ge effect.reading effect.surfaces
  | chosen effect => exact .inl effect.revision
  | listed effect => exact progresses_of_same effect.revision.ge effect.reading (by rw [effect.clauses])
  | asked effect _ => exact progresses_of_same effect.revision effect.reading (by rw [effect.clauses])
  | stored effect _ => exact progresses_of_same effect.revision.ge effect.reading (by rw [effect.clauses])
  | converted effect _ => exact .inl effect.revision
  | trans _ _ first second =>
    rcases first with early | ⟨same, reading, clauses⟩
    · rcases second with late | ⟨same, _, _⟩
      · exact .inl (early.trans late)
      · exact .inl (by omega)
    · rcases second with late | ⟨same', reading', clauses'⟩
      · exact .inl (by omega)
      · exact .inr ⟨same'.trans same, reading'.trans reading, clauses'.trans clauses⟩

/-- Every operation is progress or leaves what the user sees alone. -/
theorem apply_progresses (segmentation : Segmentation) (m : ClauseConversion τ) (op : ClauseOp τ) :
    Progresses m (m.apply segmentation op) :=
  (apply_evolves segmentation m op (delivers_trivially m op)).progresses

end Progress

section Numbering

/-- A request under an id is still waited for. -/
def Outstanding (m : ClauseConversion τ) (id : Nat) : Prop :=
  (∃ entry, m.issued.lookup id = some entry) ∨
    ∃ entry, m.boundaryRequest = some entry ∧ entry.request.key.requestId = id

/-- Requests are kept under their own ids, none above the last one and none twice, and the window
waits for a kept request of its id only under that request's key. -/
structure Numbered (m : ClauseConversion τ) : Prop where
  issued : ∀ id entry, m.issued.lookup id = some entry → entry.request.key.requestId = id
  apart : ∀ entry, m.boundaryRequest = some entry → m.issued.lookup entry.request.key.requestId = none
  below : ∀ id, m.Outstanding id → id ≤ m.lastRequestId
  loading : ∀ key entry, m.window.loadingKey = some key →
    m.issued.lookup key.requestId = some entry → entry.request.key = key

variable {m m' : ClauseConversion τ}

/-- Withdrawing requests withdraws their ids. -/
theorem Outstanding.mono {id : Nat} (outstanding : m'.Outstanding id)
    (issued : ∀ id entry, m'.issued.lookup id = some entry → m.issued.lookup id = some entry)
    (boundary : ∀ entry, m'.boundaryRequest = some entry → m.boundaryRequest = some entry) :
    m.Outstanding id := by
  rcases outstanding with ⟨entry, found⟩ | ⟨entry, found, same⟩
  · exact .inl ⟨entry, issued id entry found⟩
  · exact .inr ⟨entry, boundary entry found, same⟩

/-- Requests may be withdrawn, the last id may grow and the window may stop waiting. -/
theorem Numbered.mono (numbered : m.Numbered)
    (issued : ∀ id entry, m'.issued.lookup id = some entry → m.issued.lookup id = some entry)
    (boundary : ∀ entry, m'.boundaryRequest = some entry → m.boundaryRequest = some entry)
    (last : m.lastRequestId ≤ m'.lastRequestId)
    (window : m'.window = m.window ∨ m'.window.loadingKey = none) : m'.Numbered where
  issued := fun id entry found => numbered.issued id entry (issued id entry found)
  apart := fun entry found => by
    have absent := numbered.apart entry (boundary entry found)
    cases look : m'.issued.lookup entry.request.key.requestId with
    | none => rfl
    | some other =>
      have present := issued _ other look
      rw [absent] at present
      cases present
  below := fun id outstanding => le_trans (numbered.below id (outstanding.mono issued boundary)) last
  loading := by
    intro key entry waiting found
    rcases window with same | idle
    · exact numbered.loading key entry (same ▸ waiting) (issued _ entry found)
    · rw [idle] at waiting; cases waiting

/-- What an evolution without reserved ids does to the ids that are waited for. -/
structure Renumbers (m m' : ClauseConversion τ) : Prop where
  last : m.lastRequestId ≤ m'.lastRequestId
  outstanding : ∀ id, m'.Outstanding id →
    m.Outstanding id ∨ (m.lastRequestId < id ∧ id ≤ m'.lastRequestId)
  numbered : m.Numbered → m'.Numbered

/-- Withdrawing requests renumbers nothing. -/
theorem renumbers_of_withdrawn
    (issued : ∀ id entry, m'.issued.lookup id = some entry → m.issued.lookup id = some entry)
    (boundary : ∀ entry, m'.boundaryRequest = some entry → m.boundaryRequest = some entry)
    (last : m.lastRequestId ≤ m'.lastRequestId)
    (window : m'.window = m.window ∨ m'.window.loadingKey = none) : Renumbers m m' where
  last := last
  outstanding := fun _ outstanding => .inl (outstanding.mono issued boundary)
  numbered := fun numbered => numbered.mono issued boundary last window

/-- A fresh request gets an id above all others. -/
theorem Asked.renumbers {entry : IssuedCandidates} (asked : Asked m m' entry)
    (above : m.lastRequestId < entry.request.key.requestId)
    (last : m'.lastRequestId = entry.request.key.requestId) : Renumbers m m' := by
  have outstanding : ∀ id, m'.Outstanding id →
      m.Outstanding id ∨ (m.lastRequestId < id ∧ id ≤ m'.lastRequestId) := by
    intro id outstanding
    rcases outstanding with ⟨other, found⟩ | ⟨other, found, same⟩
    · rcases asked.issued id other found with ⟨rfl, _⟩ | old
      · exact .inr ⟨above, last.ge⟩
      · exact .inl (.inl ⟨other, old⟩)
    · rcases asked.boundary other found with rfl | old
      · exact .inr (by omega)
      · exact .inl (.inr ⟨other, old, same⟩)
  refine { last := by omega, outstanding := outstanding, numbered := fun numbered => ?_ }
  refine { issued := ?_, apart := ?_, below := ?_, loading := ?_ }
  · intro id other found
    rcases asked.issued id other found with ⟨rfl, rfl⟩ | old
    · rfl
    · exact numbered.issued id other old
  · intro other found
    cases look : m'.issued.lookup other.request.key.requestId with
    | none => rfl
    | some twin =>
      -- The fresh id is above those of all older requests, and only one of the two places is new.
      rcases asked.once with same | same
      · rw [same] at found
        have := numbered.below _ (.inr ⟨other, found, rfl⟩)
        rcases asked.issued _ twin look with ⟨id, _⟩ | old
        · omega
        · rw [numbered.apart other found] at old; cases old
      · rw [same] at look
        rcases asked.boundary other found with rfl | old
        · have := numbered.below _ (.inl ⟨twin, look⟩)
          omega
        · rw [numbered.apart other old] at look; cases look
  · intro id waited
    rcases outstanding id waited with old | new
    · have := numbered.below id old
      omega
    · exact new.2
  · intro key other waiting found
    rw [asked.window] at waiting
    obtain rfl := Option.some.inj waiting
    rcases asked.issued _ other found with ⟨_, rfl⟩ | old
    · rfl
    · -- No older request has the fresh id.
      have := numbered.below _ (.inl ⟨other, old⟩)
      omega

variable [EngineToken τ] {delivered : Option EngineLearningIdentity → τ → Prop} {reserved : Nat → Prop}

/-- Without reserved ids every evolution renumbers. -/
theorem Evolves.renumbers (evolves : Evolves delivered reserved m m') (free : ∀ id, ¬ reserved id) :
    Renumbers m m' := by
  induction evolves with
  | edited effect =>
    cases effect with
    | quiet effect =>
      exact renumbers_of_withdrawn effect.issued effect.boundary effect.lastRequestId
        (effect.window.imp_right fun closed => by rw [closed]; rfl)
    | reshaped effect =>
      exact renumbers_of_withdrawn effect.issued effect.boundary effect.lastRequestId.ge
        (.inr (by rw [effect.window]; rfl))
  | extended effect =>
    exact renumbers_of_withdrawn (fun _ _ found => effect.issued ▸ found)
      (fun _ found => effect.boundary ▸ found) effect.lastRequestId.ge (.inl effect.window)
  | forgotten effect =>
    refine renumbers_of_withdrawn effect.issued effect.boundary effect.lastRequestId.ge ?_
    rcases effect.window with closed | ⟨same, _⟩
    · exact .inr (by rw [closed]; rfl)
    · exact .inl same
  | chosen effect =>
    obtain ⟨_, after⟩ := effect.window
    exact renumbers_of_withdrawn (fun _ _ found => (lookup_empty_ne_some (effect.issued ▸ found)).elim)
      (fun _ found => effect.boundary ▸ found) effect.lastRequestId.ge (.inr (by rw [after]; rfl))
  | listed effect =>
    obtain ⟨_, _, _, _, _, _, after⟩ := effect.window
    exact renumbers_of_withdrawn (fun _ _ found => effect.issued ▸ found)
      (fun _ found => effect.boundary ▸ found) effect.lastRequestId.ge (.inr (by rw [after]; rfl))
  | asked effect fresh =>
    rcases fresh with ⟨above, last⟩ | ⟨held, _⟩
    · exact effect.renumbers above last
    · exact absurd held (free _)
  | stored effect _ =>
    refine renumbers_of_withdrawn effect.issued (fun _ found => effect.boundary ▸ found)
      effect.lastRequestId.ge ?_
    rcases effect.window with same | ⟨_, _, _, _, after⟩
    · exact .inl same
    · exact .inr (by rw [after]; rfl)
  | converted effect _ =>
    exact renumbers_of_withdrawn (fun _ _ found => (lookup_empty_ne_some (effect.issued ▸ found)).elim)
      (fun _ found => by rw [effect.boundary] at found; cases found) effect.lastRequestId.ge
      (.inr (by rw [effect.window]; rfl))
  | trans _ _ first second =>
    refine { last := le_trans first.last second.last, outstanding := fun id waited => ?_
             numbered := fun numbered => second.numbered (first.numbered numbered) }
    have := first.last
    have := second.last
    rcases second.outstanding id waited with middle | new
    · rcases first.outstanding id middle with old | new
      · exact .inl old
      · exact .inr (by omega)
    · exact .inr (by omega)

end Numbering

end ClauseConversion

end Nospacekey
