import Nospacekey.Ipc.Clause
import Nospacekey.Library.Tiling

/-! What the payload checks accept: legal boundaries, tilings of a reading and exact slices. -/

namespace Nospacekey

open Tiling

/-- A checked addition that succeeds is the sum. -/
theorem u64CheckedAdd_eq_some {left right sum : Nat} (added : u64CheckedAdd left right = some sum) :
    sum = left + right := by
  unfold u64CheckedAdd at added
  split at added
  · exact (Option.some.inj added).symm
  · cases added

/-- A successful 32-bit conversion keeps the value. -/
theorem u32TryFrom_eq_some {value count : Nat} (converted : u32TryFrom value = some count) :
    count = value ∧ value < 2 ^ 32 := by
  unfold u32TryFrom at converted
  split at converted
  · exact ⟨(Option.some.inj converted).symm, by assumption⟩
  · cases converted

/-- The scalar of a small value has that value. -/
theorem toNat_ofNat_of_lt {value : Nat} (small : value < 0xd800) : (Char.ofNat value).toNat = value := by
  have valid : value.isValidChar := .inl small
  rw [Char.ofNat, dif_pos valid]
  rfl

/-- A reading is normalized exactly when it has none of the katakana that are folded. -/
theorem normalizeReading_eq_iff {reading : Text} :
    normalizeReading reading = reading ↔
      ∀ scalar ∈ reading, ¬(0x30a1 ≤ scalar.toNat ∧ scalar.toNat ≤ 0x30f6) := by
  -- A folded scalar has a smaller value than before.
  have moved {scalar : Char} (katakana : 0x30a1 ≤ scalar.toNat ∧ scalar.toNat ≤ 0x30f6) :
      Char.ofNat (scalar.toNat - 0x60) ≠ scalar := by
    intro same
    have value := congrArg Char.toNat same
    rw [toNat_ofNat_of_lt (by omega)] at value
    omega
  induction reading with
  | nil => simp [normalizeReading]
  | cons scalar rest ih =>
    rw [normalizeReading, List.map_cons, List.cons.injEq, List.forall_mem_cons]
    refine and_congr ?_ ih
    split
    case isTrue katakana => exact iff_of_false (moved katakana) (not_not.mpr katakana)
    case isFalse plain => exact iff_of_true rfl plain

/-- A position that no combining sound mark follows, or one of the two ends of the reading. -/
def LegalBoundary (reading : Text) (position : Nat) : Prop :=
  position = 0 ∨ position = reading.length ∨
    ∃ scalar, reading[position]? = some scalar ∧ combiningMark scalar = false

/-- A legal boundary lies inside the reading. -/
theorem LegalBoundary.le_length {reading : Text} {position : Nat}
    (legal : LegalBoundary reading position) : position ≤ reading.length := by
  rcases legal with zero | full | ⟨scalar, found, _⟩
  · omega
  · omega
  · have := (List.getElem?_eq_some_iff.mp found).1
    omega

/-- The start of a reading is a boundary. -/
@[simp] theorem legalBoundary_zero (reading : Text) : LegalBoundary reading 0 := .inl rfl

/-- The end of a reading is a boundary. -/
@[simp] theorem legalBoundary_length (reading : Text) : LegalBoundary reading reading.length :=
  .inr (.inl rfl)

/-- Below the end of a shared front, what follows it is irrelevant. -/
theorem LegalBoundary.change_back {front back other : Text} {position : Nat}
    (legal : LegalBoundary (front ++ back) position) (before : position < front.length) :
    LegalBoundary (front ++ other) position := by
  -- The scalar at the position belongs to the front.
  rcases legal with zero | full | ⟨scalar, found, plain⟩
  · exact .inl zero
  · simp at full; omega
  · refine .inr (.inr ⟨scalar, ?_, plain⟩)
    rw [List.getElem?_append_left before] at found ⊢
    exact found

/-- A boundary of a shared front stays one when its far edge is a boundary of the new reading. -/
theorem LegalBoundary.change_back_of_edge {front back other : Text} {position : Nat}
    (legal : LegalBoundary (front ++ back) position) (within : position ≤ front.length)
    (edge : LegalBoundary (front ++ other) front.length) : LegalBoundary (front ++ other) position := by
  rcases Nat.eq_or_lt_of_le within with same | before
  · exact same ▸ edge
  · exact legal.change_back before

/-- Above the start of a shared back, what precedes it only shifts the boundaries. -/
theorem legalBoundary_append_right {front back : Text} {offset : Nat} (positive : 0 < offset) :
    LegalBoundary (front ++ back) (front.length + offset) ↔ LegalBoundary back offset := by
  -- A positive offset is never the start of the whole reading.
  unfold LegalBoundary
  rw [List.getElem?_append_right (by omega), List.length_append,
    show front.length + offset - front.length = offset by omega]
  have := positive.ne'
  constructor
  · rintro (zero | full | inner)
    · omega
    · exact .inr (.inl (by omega))
    · exact .inr (.inr inner)
  · rintro (zero | full | inner)
    · omega
    · exact .inr (.inl (by omega))
    · exact .inr (.inr inner)

/-- The inner boundaries are the offsets of the scalars that are not combining marks. -/
theorem mem_innerBoundaries {index : Nat} {text : Text} {position : Nat} :
    position ∈ innerBoundaries index text ↔
      index ≤ position ∧ ∃ scalar, text[position - index]? = some scalar ∧
        combiningMark scalar = false := by
  -- The offset of the head is the current index.
  induction text generalizing index with
  | nil => simp [innerBoundaries]
  | cons head rest ih =>
    have later : ∀ {scalar : Char}, index < position →
        ((head :: rest)[position - index]? = some scalar ↔
          rest[position - (index + 1)]? = some scalar) := by
      intro scalar after
      rw [show position - index = (position - (index + 1)) + 1 by omega, List.getElem?_cons_succ]
    unfold innerBoundaries
    by_cases combining : combiningMark head = true
    · rw [if_pos combining, ih]
      constructor
      · rintro ⟨after, scalar, found, plain⟩
        exact ⟨by omega, scalar, (later (by omega)).mpr found, plain⟩
      · rintro ⟨after, scalar, found, plain⟩
        rcases Nat.eq_or_lt_of_le after with same | above
        · subst same
          simp only [Nat.sub_self, List.getElem?_cons_zero, Option.some.injEq] at found
          simp [found, plain] at combining
        · exact ⟨above, scalar, (later above).mp found, plain⟩
    · rw [if_neg combining, List.mem_cons, ih]
      constructor
      · rintro (same | ⟨after, scalar, found, plain⟩)
        · subst same
          exact ⟨le_rfl, head, by simp, by simpa using combining⟩
        · exact ⟨by omega, scalar, (later (by omega)).mpr found, plain⟩
      · rintro ⟨after, scalar, found, plain⟩
        rcases Nat.eq_or_lt_of_le after with same | above
        · exact .inl same.symm
        · exact .inr ⟨above, scalar, (later above).mp found, plain⟩

/-- The inner boundaries are listed in increasing order. -/
theorem innerBoundaries_sorted (index : Nat) (text : Text) :
    (innerBoundaries index text).Pairwise (· < ·) := by
  -- Every boundary found later has a larger offset than the head's.
  induction text generalizing index with
  | nil => simp [innerBoundaries]
  | cons head rest ih =>
    unfold innerBoundaries
    split
    · exact ih (index + 1)
    · refine List.pairwise_cons.mpr ⟨?_, ih (index + 1)⟩
      intro position member
      have := (mem_innerBoundaries.1 member).1
      omega

/-- A reading has boundaries exactly when its length fits the wire. -/
theorem legalBoundaries_ok_iff {reading : Text} {boundaries : List Nat} :
    legalBoundaries reading = .ok boundaries ↔
      reading.length < 2 ^ 32 ∧
        boundaries = 0 :: innerBoundaries 1 reading.tail ++
          if reading.length ≠ 0 then [reading.length] else [] := by
  unfold legalBoundaries u32TryFrom
  by_cases fits : reading.length < 2 ^ 32
  · simp only [if_pos fits, Except.ok.injEq]
    exact ⟨fun same => ⟨fits, same.symm⟩, fun same => same.2.symm⟩
  · simp only [if_neg fits]
    exact ⟨(nomatch ·), fun same => absurd same.1 fits⟩

/-- Below the wire limit the boundaries exist. -/
theorem legalBoundaries_of_lt {reading : Text} (fits : reading.length < 2 ^ 32) :
    ∃ boundaries, legalBoundaries reading = .ok boundaries :=
  ⟨_, legalBoundaries_ok_iff.2 ⟨fits, rfl⟩⟩

/-- The boundary list holds exactly the legal boundaries. -/
theorem mem_legalBoundaries {reading : Text} {boundaries : List Nat}
    (built : legalBoundaries reading = .ok boundaries) {position : Nat} :
    position ∈ boundaries ↔ LegalBoundary reading position := by
  obtain ⟨_, rfl⟩ := legalBoundaries_ok_iff.1 built
  -- The first scalar opens the list whatever it is, and the end closes it.
  cases reading with
  | nil => simp [innerBoundaries, LegalBoundary]
  | cons head rest =>
    have inner : position ∈ innerBoundaries 1 rest ↔
        0 < position ∧ ∃ scalar, (head :: rest)[position]? = some scalar ∧
          combiningMark scalar = false := by
      rw [mem_innerBoundaries]
      constructor
      · rintro ⟨after, scalar, found, plain⟩
        refine ⟨after, scalar, ?_, plain⟩
        rw [show position = (position - 1) + 1 by omega, List.getElem?_cons_succ]
        exact found
      · rintro ⟨after, scalar, found, plain⟩
        refine ⟨after, scalar, ?_, plain⟩
        rw [show position = (position - 1) + 1 by omega, List.getElem?_cons_succ] at found
        exact found
    simp only [List.tail_cons, List.length_cons, ne_eq, Nat.succ_ne_zero, not_false_eq_true, if_true,
      List.cons_append, List.mem_cons, List.mem_append, inner, List.not_mem_nil, or_false,
      LegalBoundary]
    constructor
    · rintro (zero | ⟨_, scalar⟩ | full)
      · exact .inl zero
      · exact .inr (.inr scalar)
      · exact .inr (.inl full)
    · rintro (zero | full | scalar)
      · exact .inl zero
      · exact .inr (.inr full)
      · rcases Nat.eq_zero_or_pos position with zero | positive
        · exact .inl zero
        · exact .inr (.inl ⟨positive, scalar⟩)

/-- The boundary list is strictly increasing. -/
theorem legalBoundaries_sorted {reading : Text} {boundaries : List Nat}
    (built : legalBoundaries reading = .ok boundaries) : boundaries.Pairwise (· < ·) := by
  obtain ⟨_, rfl⟩ := legalBoundaries_ok_iff.1 built
  -- Zero precedes the inner boundaries, and each of those precedes the end.
  cases reading with
  | nil => simp [innerBoundaries]
  | cons head rest =>
    simp only [List.tail_cons, List.length_cons, ne_eq, Nat.succ_ne_zero, not_false_eq_true, if_true,
      List.cons_append]
    refine List.pairwise_cons.mpr ⟨?_, List.pairwise_append.mpr
      ⟨innerBoundaries_sorted 1 rest, by simp, ?_⟩⟩
    · intro position member
      rcases List.mem_append.mp member with inner | last
      · have := (mem_innerBoundaries.1 inner).1
        omega
      · simp only [List.mem_singleton] at last
        omega
    · intro position inner last member
      obtain ⟨_, scalar, found, _⟩ := mem_innerBoundaries.1 inner
      have := (List.getElem?_eq_some_iff.mp found).1
      simp only [List.mem_singleton] at member
      omega

/-- The binary search of the checks decides legal boundaries. -/
theorem boundaryFound_iff {reading : Text} {boundaries : List Nat}
    (built : legalBoundaries reading = .ok boundaries) {position : Nat} :
    boundaryFound boundaries position = true ↔ LegalBoundary reading position := by
  rw [boundaryFound, BinarySearch.binarySearch_isSome_iff (legalBoundaries_sorted built),
    mem_legalBoundaries built]

/-- A slice exists exactly for an ordered range inside the reading. -/
theorem readingSlice_eq_some_iff {reading : Text} {start stop : Nat} {slice : Text} :
    readingSlice reading start stop = some slice ↔
      start ≤ stop ∧ stop ≤ reading.length ∧ slice = (reading.drop start).take (stop - start) := by
  unfold readingSlice
  split
  · simp; omega
  · split
    · simp; omega
    · simp only [Option.some.injEq]
      constructor
      · exact fun same => ⟨by omega, by omega, same.symm⟩
      · exact fun same => same.2.2.symm

/-- The interval a wire clause covers. -/
def WireClause.span {τ : Type} (clause : WireClause τ) : Nat × Nat :=
  (clause.readingStart, clause.readingEnd)

section Validation

variable {τ : Type} [EngineToken τ]

/-- What a single clause of an accepted payload satisfies. -/
structure WireClause.Valid (reading : Text) (stop : Nat) (clause : WireClause τ) :
    Prop where
  within : clause.readingEnd ≤ stop
  legal : LegalBoundary reading clause.readingEnd
  reading_token : clause.state = .reading → clause.candidateToken = none
  reading_surface : clause.state = .reading →
    readingSlice reading clause.readingStart clause.readingEnd = some clause.surface
  converted_token : clause.state = .converted →
    ∃ token, clause.candidateToken = some token ∧ EngineToken.isEmpty token = false
  converted_surface : clause.state = .converted → clause.surface ≠ []

/-- The clause loop accepts exactly consecutive valid clauses with new, distinct ids. -/
theorem validateClausesFrom_ok_iff {reading : Text} {boundaries : List Nat}
    (built : legalBoundaries reading = .ok boundaries) {stop cursor last : Nat}
    {ids : List Nat} {surface text : Text} {clauses : List (WireClause τ)} :
    validateClausesFrom reading boundaries stop cursor ids surface clauses = .ok (last, text) ↔
      Tiles cursor (clauses.map WireClause.span) last ∧ (clauses.map WireClause.id).Nodup ∧
        (∀ clause ∈ clauses, clause.id ∉ ids) ∧ text = surface ++ clauses.flatMap WireClause.surface ∧
        ∀ clause ∈ clauses, clause.Valid reading stop := by
  -- Each iteration checks its clause against the cursor and then continues behind it.
  induction clauses generalizing cursor ids surface with
  | nil => simp [validateClausesFrom, Tiles, eq_comm]
  | cons clause rest ih =>
    have found : boundaryFound boundaries clause.readingEnd = true ↔
        LegalBoundary reading clause.readingEnd := boundaryFound_iff built
    -- The two states differ only in what they demand of the clause itself.
    have continued : ∀ surface', (validateClausesFrom reading boundaries stop clause.readingEnd
          (clause.id :: ids) surface' rest = .ok (last, text)) ↔
        Tiles clause.readingEnd (rest.map WireClause.span) last ∧
          (rest.map WireClause.id).Nodup ∧ (∀ other ∈ rest, other.id ∉ clause.id :: ids) ∧
          text = surface' ++ rest.flatMap WireClause.surface ∧
          ∀ other ∈ rest, other.Valid reading stop := fun surface' => ih
    have fresh : (∀ other ∈ rest, other.id ∉ clause.id :: ids) ↔
        clause.id ∉ rest.map WireClause.id ∧ ∀ other ∈ rest, other.id ∉ ids := by
      simp only [List.mem_cons, not_or, List.mem_map, not_exists, not_and, forall_and]
    unfold validateClausesFrom
    simp only [List.map_cons, Tiles, List.nodup_cons, List.forall_mem_cons, List.flatMap_cons]
    by_cases duplicate : clause.id ∈ ids
    · simp [duplicate]
    rw [if_neg duplicate]
    by_cases misplaced : clause.readingStart = cursor ∧ cursor < clause.readingEnd ∧
        clause.readingEnd ≤ stop ∧ LegalBoundary reading clause.readingEnd
    · obtain ⟨start, nonempty, within, legal⟩ := misplaced
      rw [if_neg (by simp [start, Nat.not_le.mpr nonempty, Nat.not_lt.mpr within, found.mpr legal])]
      cases state : clause.state with
      | reading =>
        dsimp only
        split
        · rename_i tokened
          constructor
          · intro impossible; cases impossible
          · rintro ⟨_, _, _, _, valid, _⟩
            simp [valid.reading_token state] at tokened
        · rename_i bare
          split
          · rename_i differs
            constructor
            · intro impossible; cases impossible
            · rintro ⟨_, _, _, _, valid, _⟩
              exact absurd (start ▸ valid.reading_surface state) differs
          · rename_i same
            rw [continued, fresh]
            have valid : clause.Valid reading stop :=
              { within := within, legal := legal
                reading_token := fun _ => by simpa using bare
                reading_surface := fun _ => by rw [start]; simpa using same
                converted_token := fun other => by rw [state] at other; cases other
                converted_surface := fun other => by rw [state] at other; cases other }
            simp only [WireClause.span, start, nonempty, duplicate, valid, true_and,
              not_false_eq_true, List.append_assoc]
            tauto
      | converted =>
        dsimp only
        split
        · rename_i tokenless
          constructor
          · intro impossible; cases impossible
          · rintro ⟨_, _, _, _, valid, _⟩
            obtain ⟨token, present, solid⟩ := valid.converted_token state
            simp [present, solid] at tokenless
        · rename_i tokened
          split
          · rename_i blank
            constructor
            · intro impossible; cases impossible
            · rintro ⟨_, _, _, _, valid, _⟩
              exact absurd (by simpa using blank) (valid.converted_surface state)
          · rename_i spelled
            rw [continued, fresh]
            have valid : clause.Valid reading stop :=
              { within := within, legal := legal
                reading_token := fun other => by rw [state] at other; cases other
                reading_surface := fun other => by rw [state] at other; cases other
                converted_token := fun _ => by
                  cases present : clause.candidateToken with
                  | none => simp [present] at tokened
                  | some token => exact ⟨token, rfl, by simpa [present] using tokened⟩
                converted_surface := fun _ => by simpa using spelled }
            simp only [WireClause.span, start, nonempty, duplicate, valid, true_and,
              not_false_eq_true, List.append_assoc]
            tauto
    · rw [if_pos]
      · constructor
        · intro impossible; cases impossible
        · rintro ⟨⟨start, nonempty, _⟩, _, _, _, valid, _⟩
          simp only [WireClause.span] at start nonempty
          exact absurd ⟨start, start ▸ nonempty, valid.within, valid.legal⟩ misplaced
      · by_contra accepted
        simp only [Bool.or_eq_true, decide_eq_true_eq, Bool.not_eq_true', not_or, ne_eq, not_not,
          Nat.not_le, Nat.not_lt, Bool.not_eq_false, found] at accepted
        exact misplaced ⟨accepted.1.1.1, accepted.1.1.2, accepted.1.2, accepted.2⟩

/-- What an accepted payload says: consecutive legal clauses with distinct ids that spell the text. -/
theorem validateClauses_ok_iff {reading : Text} {clauses : List (WireClause τ)}
    {start stop : Nat} {text : Text} :
    validateClauses reading clauses start stop text = .ok () ↔
      normalizeReading reading = reading ∧ reading.length < 2 ^ 32 ∧ start ≤ stop ∧
        LegalBoundary reading start ∧ LegalBoundary reading stop ∧
        Tiles start (clauses.map WireClause.span) stop ∧ (clauses.map WireClause.id).Nodup ∧
        clauses.flatMap WireClause.surface = text ∧ ∀ clause ∈ clauses, clause.Valid reading stop := by
  unfold validateClauses
  by_cases normal : normalizeReading reading = reading
  · rw [if_neg (by simpa using normal)]
    by_cases fits : reading.length < 2 ^ 32
    · obtain ⟨boundaries, built⟩ := legalBoundaries_of_lt fits
      simp only [built, bind, Except.bind, normal, fits, true_and]
      have startFound : boundaryFound boundaries start = true ↔ LegalBoundary reading start :=
        boundaryFound_iff built
      have stopFound : boundaryFound boundaries stop = true ↔ LegalBoundary reading stop :=
        boundaryFound_iff built
      by_cases ends : start ≤ stop ∧ LegalBoundary reading start ∧ LegalBoundary reading stop
      · obtain ⟨ordered, startLegal, stopLegal⟩ := ends
        rw [if_neg (by simp [Nat.not_lt.mpr ordered, startFound.mpr startLegal,
          stopFound.mpr stopLegal])]
        cases loop : validateClausesFrom reading boundaries stop start [] [] clauses with
        | error reason =>
          -- A payload meeting the right-hand side would have passed the loop.
          simp only [reduceCtorEq, ordered, startLegal, stopLegal, true_and, false_iff]
          rintro ⟨tiles, distinct, _, valid⟩
          have passed : validateClausesFrom reading boundaries stop start [] [] clauses =
              .ok (stop, [] ++ clauses.flatMap WireClause.surface) :=
            (validateClausesFrom_ok_iff built).mpr ⟨tiles, distinct, by simp, rfl, valid⟩
          rw [loop] at passed
          cases passed
        | ok result =>
          obtain ⟨cursor, surface⟩ := result
          obtain ⟨tiles, distinct, _, spelled, valid⟩ := (validateClausesFrom_ok_iff built).mp loop
          simp only [List.nil_append] at spelled
          simp only [ordered, startLegal, stopLegal, true_and]
          by_cases complete : cursor = stop
          · subst complete
            by_cases same : surface = text
            · simp [same, tiles, distinct, ← spelled]
              exact valid
            · simp [same, ← spelled]
          · simp only [ne_eq, complete, not_false_eq_true, if_true, reduceCtorEq, false_iff]
            rintro ⟨other, _⟩
            have passed : validateClausesFrom reading boundaries stop start [] [] clauses =
                .ok (stop, [] ++ clauses.flatMap WireClause.surface) :=
              (validateClausesFrom_ok_iff built).mpr ⟨other, distinct, by simp, rfl, valid⟩
            rw [loop] at passed
            simp only [Except.ok.injEq, Prod.mk.injEq] at passed
            exact complete passed.1
      · rw [if_pos]
        · simp only [reduceCtorEq, false_iff]
          rintro ⟨ordered, startLegal, stopLegal, _⟩
          exact ends ⟨ordered, startLegal, stopLegal⟩
        · by_contra accepted
          simp only [Bool.or_eq_true, decide_eq_true_eq, Bool.not_eq_true', not_or, Nat.not_lt,
            Bool.not_eq_false, startFound, stopFound] at accepted
          exact ends ⟨accepted.1.1, accepted.1.2, accepted.2⟩
    · have refused : legalBoundaries reading = .error .range := by
        simp only [legalBoundaries, u32TryFrom, if_neg fits]
      simp only [refused, bind, Except.bind]
      exact ⟨(nomatch ·), fun valid => absurd valid.2.1 fits⟩
  · simp [normal]

/-- A snapshot that passes its check tiles its whole reading. -/
theorem SnapshotClauseData.validate_ok_iff {data : SnapshotClauseData τ} {text : Text} :
    data.validate text = .ok () ↔
      validateClauses data.reading data.clauses 0 data.reading.length text = .ok () := by
  unfold SnapshotClauseData.validate u32TryFrom
  by_cases fits : data.reading.length < 2 ^ 32
  · simp only [if_pos fits]
  · simp only [if_neg fits]
    exact ⟨(nomatch ·),
      fun valid => absurd (validateClauses_ok_iff.1 valid).2.1 fits⟩

/-- What a single candidate of an accepted reply satisfies. -/
structure ClauseCandidate.Valid (request : ClauseCandidatesRequest) (candidate : ClauseCandidate τ) :
    Prop where
  start : candidate.readingStart = request.readingStart
  nonempty : request.readingStart < candidate.readingEnd
  within : candidate.readingEnd ≤ request.readingEnd
  legal : LegalBoundary request.reading candidate.readingEnd
  surface : candidate.surface ≠ []
  token : EngineToken.isEmpty candidate.token = false

/-- The candidate loop accepts only valid candidates. -/
theorem validateCandidatesFrom_ok {request : ClauseCandidatesRequest}
    {boundaries : List Nat} (built : legalBoundaries request.reading = .ok boundaries)
    {candidates : List (ClauseCandidate τ)}
    (passed : request.validateCandidatesFrom boundaries candidates = .ok ()) :
    ∀ candidate ∈ candidates, candidate.Valid request := by
  -- A failing check ends the loop with an error.
  induction candidates with
  | nil => simp
  | cons candidate rest ih =>
    unfold ClauseCandidatesRequest.validateCandidatesFrom at passed
    split at passed
    · cases passed
    rename_i placed
    split at passed
    · cases passed
    rename_i spelled
    split at passed
    · cases passed
    rename_i tokened
    simp only [Bool.or_eq_true, decide_eq_true_eq, Bool.not_eq_true', not_or, Nat.not_le, Nat.not_lt,
      ne_eq, not_not, Bool.and_eq_true, not_and, List.contains_eq_mem,
      mem_legalBoundaries built, decide_eq_false_iff_not] at placed
    intro other member
    rcases List.mem_cons.mp member with same | member
    · subst same
      exact { start := placed.1.1.1.1, nonempty := placed.1.1.1.2, within := placed.1.1.2
              legal := placed.2, surface := by simpa using spelled, token := by simpa using tokened }
    · exact ih passed other member

/-- An accepted candidate reply is nonempty and consists of valid candidates. -/
theorem validateCandidates_ok {request : ClauseCandidatesRequest}
    {candidates : List (ClauseCandidate τ)}
    (passed : request.validateCandidates candidates = .ok ()) :
    request.validate = .ok () ∧ candidates ≠ [] ∧
      ∀ candidate ∈ candidates, candidate.Valid request := by
  unfold ClauseCandidatesRequest.validateCandidates at passed
  cases valid : request.validate with
  | error reason => simp [valid, bind, Except.bind] at passed
  | ok =>
    simp only [valid, bind, Except.bind] at passed
    split at passed
    · cases passed
    · rename_i nonempty
      cases built : legalBoundaries request.reading with
      | error reason => simp [built] at passed
      | ok boundaries =>
        simp only [built] at passed
        exact ⟨rfl, by simpa using nonempty, validateCandidatesFrom_ok built passed⟩

/-- A conversion reply that passes repeats the requested ranges, and its clauses pass the payload check. -/
theorem validateResult_ok {request : ConvertClausesRequest} {clauses : List (WireClause τ)}
    (passed : request.validateResult clauses = .ok ()) :
    request.validate = .ok () ∧ clauses.map WireClause.range = request.clauses ∧
      ∃ start stop text, validateClauses request.reading clauses start stop text = .ok () := by
  unfold ConvertClausesRequest.validateResult at passed
  cases valid : request.validate with
  | error reason => simp [valid, bind, Except.bind] at passed
  | ok =>
    simp only [valid, bind, Except.bind] at passed
    split at passed
    · cases passed
    · rename_i aligned
      simp only [Bool.or_eq_true, decide_eq_true_eq, Bool.not_eq_true', not_or, ne_eq, not_not,
        Bool.not_eq_false, List.all_eq_true] at aligned
      obtain ⟨length, pairs⟩ := aligned
      refine ⟨rfl, ?_, _, _, _, passed⟩
      -- Equal lengths and equal entries make the two range lists equal.
      refine List.ext_getElem (by simp [length]) fun i inWire inRequest => ?_
      rw [List.length_map] at inWire
      have member : (request.clauses[i], clauses[i]) ∈ request.clauses.zip clauses := by
        rw [List.mem_iff_getElem]
        exact ⟨i, by simp; omega, by simp⟩
      simpa using (pairs _ member).symm

end Validation

end Nospacekey
