import Mathlib.Algebra.Order.Group.Nat
import Mathlib.Algebra.Order.Monoid.Unbundled.MinMax
import Mathlib.Algebra.Order.Monoid.WithTop
import Mathlib.Data.List.Induction
import Mathlib.Data.List.Infix
import Mathlib.Data.List.Nodup
import Nospacekey.Learning.RecentLearning
import Nospacekey.Library.StableSort

/-! The ranking by recent commits is a stable sort by the first fitting entry, over the candidates without repetition. -/

namespace Nospacekey

open Runs

/-- The better of two ranks is that of whatever comes first. -/
theorem rankOf_or {ι : Type} (p q : ι → Bool) (list : List ι) :
    rankOf (list.findIdx? fun entry => p entry || q entry) =
      min (rankOf (list.findIdx? p)) (rankOf (list.findIdx? q)) := by
  have shift (found : Option Nat) : rankOf (found.map (· + 1)) = rankOf found + 1 := by
    cases found with
    | none => rfl
    | some rank => rfl
  have least (rank : WithTop Nat) : rankOf (some 0) ≤ rank := by
    cases rank <;> simp [rankOf]
  -- The first entry that passes one test has the least rank there is.
  induction list with
  | nil => rfl
  | cons first rest ih =>
    simp only [List.findIdx?_cons]
    cases left : p first with
    | true =>
      simp only [Bool.true_or, if_true]
      exact (min_eq_left (least _)).symm
    | false =>
      cases right : q first with
      | true =>
        simp only [Bool.false_or, if_true]
        exact (min_eq_right (least _)).symm
      | false =>
        simp only [Bool.false_or, Bool.false_eq_true, if_false, shift, ih]
        exact (min_add_add_right _ _ 1).symm

/-- Tests that agree on a list find the same place. -/
theorem findIdx?_congr {ι : Type} {p q : ι → Bool} {list : List ι} (same : ∀ entry ∈ list, p entry = q entry) :
    list.findIdx? p = list.findIdx? q := by
  induction list with
  | nil => rfl
  | cons first rest ih =>
    rw [List.findIdx?_cons, List.findIdx?_cons, same first (by simp),
      ih fun entry member => same entry (List.mem_cons_of_mem _ member)]

namespace RecentLearningOverlay

variable {χ : Type} (swift : SwiftString) (module : ComposingTextModule χ)

/-- The candidates whose identity none before them has. -/
def withoutLater : List (Candidate ComposingCount) → List (Candidate ComposingCount)
  | [] => []
  | candidate :: rest =>
    candidate :: (withoutLater rest).filter fun other =>
      identity swift other = none ∨ identity swift other ≠ identity swift candidate

/-- Some front of the candidate reads and looks like the entry. -/
def startsWith (candidate : Candidate ComposingCount) (entry : RecentIdentity) : Bool :=
  candidate.data.inits.any fun front =>
    CorrectionStore.normalizedKey (front.flatMap DicdataElement.ruby) = some entry.ruby &&
      swift.canonical (front.flatMap DicdataElement.word) = entry.surface

/-- The place of the first entry that takes its ruby from the composing text and begins the candidate. -/
def mainRank (learned : List RecentIdentity) (composing : χ) (candidate : Candidate ComposingCount) : WithTop Nat :=
  rankOf (learned.findIdx? fun entry => rangeMatches swift module entry composing && startsWith swift candidate entry)

/-- The place of the candidate's own entry, if that takes its ruby from the composing text. -/
def firstClauseRank (learned : List RecentIdentity) (composing : χ) (candidate : Candidate ComposingCount) :
    WithTop Nat :=
  rankOf (learned.findIdx? fun entry => rangeMatches swift module entry composing && identity swift candidate = some entry)

/-- The entries say how long their rubies are. -/
def Measured (learned : List RecentIdentity) : Prop := ∀ entry ∈ learned, entry.consumedReading = swift.count entry.ruby

variable {swift module}

/-- The scan of a candidate ends with its ruby, its words and its rank. -/
theorem scan_spec {learned : List RecentIdentity} (measured : Measured swift learned) (composing : χ)
    (candidate : Candidate ComposingCount) :
    candidate.data.foldl (scanElement swift (learningIndex swift module learned composing)) ([], [], ⊤) =
      (candidate.data.flatMap DicdataElement.ruby, candidate.data.flatMap DicdataElement.word,
        mainRank swift module learned composing candidate) := by
  obtain ⟨text, data, composingCount, isLearningTarget⟩ := candidate
  simp only [mainRank, startsWith]
  -- The scan goes from the front, so the induction takes the last element off.
  induction data using List.reverseRecOn with
  | nil =>
    have missing : (learned.findIdx? fun entry => rangeMatches swift module entry composing &&
        ([] : List DicdataElement).inits.any fun front =>
          CorrectionStore.normalizedKey (front.flatMap DicdataElement.ruby) = some entry.ruby &&
            swift.canonical (front.flatMap DicdataElement.word) = entry.surface) = none := by
      simp [CorrectionStore.normalizedKey, normalizeKana]
    rw [missing]
    rfl
  | append_singleton data element ih =>
    rw [List.foldl_append, ih, List.foldl_cons, List.foldl_nil, List.inits_append]
    simp only [scanElement, List.flatMap_append, List.flatMap_singleton]
    -- The new front is the whole of what has been scanned.
    cases read : CorrectionStore.normalizedKey (data.flatMap DicdataElement.ruby ++ element.ruby) with
    | none => simp [read]
    | some normalized =>
      have found : (learningIndex swift module learned composing).prefixes.lookup
          ⟨normalized, swift.canonical (data.flatMap DicdataElement.word ++ element.word), swift.count normalized⟩ =
          learned.findIdx? fun entry => rangeMatches swift module entry composing &&
            (decide (some normalized = some entry.ruby) &&
              decide (swift.canonical (data.flatMap DicdataElement.word ++ element.word) = entry.surface)) := by
        refine (Index.lookup_firsts_zipIdx (fun entry => rangeMatches swift module entry composing) prefixIdentity
          learned _).trans (findIdx?_congr fun entry member => ?_)
        congr 1
        rw [← Bool.decide_and, decide_eq_decide, prefixIdentity, measured entry member]
        simp only [PrefixIdentity.mk.injEq, Option.some.injEq]
        -- A ruby says how long it is.
        constructor
        · rintro ⟨ruby, surface, _⟩
          exact ⟨ruby.symm, surface.symm⟩
        · rintro ⟨ruby, surface⟩
          exact ⟨ruby.symm, surface.symm, by rw [ruby]⟩
      dsimp only
      rw [found, ← rankOf_or]
      refine Prod.ext rfl (Prod.ext rfl (congrArg rankOf (findIdx?_congr fun entry _ => ?_)))
      simp [read, Bool.and_or_distrib_left]

/-- A main candidate is decorated with its identity and its rank. -/
theorem decorateMain_spec {learned : List RecentIdentity} (measured : Measured swift learned) (composing : χ)
    (candidate : Candidate ComposingCount) (offset : Nat) :
    decorateMain swift (learningIndex swift module learned composing) candidate offset =
      ⟨candidate, identity swift candidate, mainRank swift module learned composing candidate, offset⟩ := by
  rw [decorateMain, scan_spec measured]
  rfl

/-- A candidate for the first clause is decorated with its identity and its rank. -/
theorem decorateFirstClause_spec (learned : List RecentIdentity) (composing : χ)
    (candidate : Candidate ComposingCount) (offset : Nat) :
    decorateFirstClause swift (learningIndex swift module learned composing) candidate offset =
      ⟨candidate, identity swift candidate, firstClauseRank swift module learned composing candidate, offset⟩ := by
  have joined : candidate.data.foldl (fun ruby element => ruby ++ element.ruby) [] =
      candidate.data.flatMap DicdataElement.ruby := by
    induction candidate.data using List.reverseRecOn with
    | nil => rfl
    | append_singleton data element ih => simp [ih]
  have labelled : identityAs swift (candidate.data.foldl (fun ruby element => ruby ++ element.ruby) []) candidate =
      identity swift candidate := by
    rw [joined]
    rfl
  have place : ((identity swift candidate).bind fun own =>
      (learningIndex swift module learned composing).exacts.lookup own) =
      learned.findIdx? fun entry =>
        rangeMatches swift module entry composing && identity swift candidate = some entry := by
    rcases (identity swift candidate).eq_none_or_eq_some with missing | ⟨own, is_own⟩
    · rw [missing]
      refine (List.findIdx?_eq_none_iff.mpr fun entry _ => ?_).symm
      simp
    · -- Only the own entry is looked up, with its place among those that fit.
      have found := Index.lookup_firsts_zipIdx (fun entry => rangeMatches swift module entry composing) id learned own
      simp only [id, List.map_id'] at found
      rw [is_own, Option.bind_some, learningIndex, fitting, found]
      refine findIdx?_congr fun entry _ => ?_
      simp [eq_comm]
  rw [decorateFirstClause, labelled, place, firstClauseRank]

/-- The candidates that are kept are those whose identity is new. -/
theorem firstOfEach_candidates (seen : Finset RecentIdentity) {decorated : List DecoratedCandidate}
    (labelled : ∀ entry ∈ decorated, entry.identity = identity swift entry.candidate) :
    (firstOfEach seen decorated).map DecoratedCandidate.candidate =
      (withoutLater swift (decorated.map DecoratedCandidate.candidate)).filter fun candidate =>
        ∀ own, identity swift candidate = some own → own ∉ seen := by
  induction decorated generalizing seen with
  | nil => rfl
  | cons first rest ih =>
    have rest_labelled : ∀ entry ∈ rest, entry.identity = identity swift entry.candidate :=
      fun entry member => labelled entry (List.mem_cons_of_mem _ member)
    rw [firstOfEach, labelled first (by simp), List.map_cons, withoutLater]
    cases own : identity swift first.candidate with
    | none =>
      -- A candidate without an identity is kept, and keeps none of the others out.
      simp only [List.map_cons, ih seen rest_labelled]
      rw [List.filter_cons_of_pos (by simp [own]), List.filter_filter]
      congr 1
      refine List.filter_congr fun other _ => ?_
      cases identity swift other <;> simp
    | some identity =>
      by_cases known : identity ∈ seen
      · simp only [known, if_true, ih seen rest_labelled]
        rw [List.filter_cons_of_neg (by simp [own, known]), List.filter_filter]
        refine List.filter_congr fun other _ => ?_
        rcases (RecentLearningOverlay.identity swift other).eq_none_or_eq_some with missing | ⟨other_own, is_own⟩
        · simp [missing]
        · by_cases same : other_own = identity <;> simp [is_own, same, known]
      · simp only [known, if_false, List.map_cons, ih (insert identity seen) rest_labelled]
        rw [List.filter_cons_of_pos (by simp [own, known]), List.filter_filter]
        congr 1
        refine List.filter_congr fun other _ => ?_
        rcases (RecentLearningOverlay.identity swift other).eq_none_or_eq_some with missing | ⟨other_own, is_own⟩
        · simp [missing]
        · by_cases same : other_own = identity <;> simp [is_own, same]

/-- The kept candidates stand in their order. -/
theorem firstOfEach_sublist (seen : Finset RecentIdentity) (decorated : List DecoratedCandidate) :
    (firstOfEach seen decorated).Sublist decorated := by
  induction decorated generalizing seen with
  | nil => exact .slnil
  | cons first rest ih =>
    rw [firstOfEach]
    split
    · exact (ih seen).cons_cons first
    · split
      · exact (ih seen).cons first
      · exact (ih _).cons_cons first

/-- A candidate stands before another by its rank, and then by its offset. -/
theorem not_before_iff (a b : DecoratedCandidate) :
    (!before b a) = true ↔ a.rank < b.rank ∨ (a.rank = b.rank ∧ a.offset ≤ b.offset) := by
  rw [before]
  by_cases same : b.rank = a.rank
  · simp [same]
  · simp [same, Ne.symm same, lt_iff_le_and_ne]

/-- Decorated candidates are sorted as the candidates are by their ranks. -/
theorem rankUnique_spec {rank : Candidate ComposingCount → WithTop Nat}
    {decorate : Candidate ComposingCount → Nat → DecoratedCandidate}
    (decorated : ∀ candidate offset, decorate candidate offset =
      ⟨candidate, identity swift candidate, rank candidate, offset⟩) (candidates : List (Candidate ComposingCount)) :
    rankUnique (candidates.zipIdx.map fun entry => decorate entry.1 entry.2) =
      (withoutLater swift candidates).mergeSort (StableSort.byRank rank) := by
  -- Every decorated candidate carries its own identity and rank, and the offsets rise.
  have labelled : ∀ entry ∈ candidates.zipIdx.map fun entry => decorate entry.1 entry.2,
      entry.identity = identity swift entry.candidate ∧ entry.rank = rank entry.candidate := by
    intro entry member
    obtain ⟨numbered, _, rfl⟩ := List.mem_map.mp member
    rw [decorated]
    exact ⟨rfl, rfl⟩
  have plain : (candidates.zipIdx.map fun entry => decorate entry.1 entry.2).map DecoratedCandidate.candidate =
      candidates := by
    simp only [List.map_map, decorated]
    exact List.zipIdx_map_fst 0 candidates
  have rising : (candidates.zipIdx.map fun entry => decorate entry.1 entry.2).Pairwise fun a b =>
      a.offset < b.offset := by
    have numbers : ((candidates.zipIdx.map fun entry => decorate entry.1 entry.2).map
        DecoratedCandidate.offset).Pairwise (· < ·) := by
      simp only [List.map_map, decorated]
      change (candidates.zipIdx.map Prod.snd).Pairwise (· < ·)
      rw [List.zipIdx_map_snd]
      exact List.pairwise_lt_range'
    exact List.pairwise_map.mp numbers
  have kept := firstOfEach_sublist ∅ (candidates.zipIdx.map fun entry => decorate entry.1 entry.2)
  have first := firstOfEach_candidates ∅ fun entry member => (labelled entry member).1
  rw [plain] at first
  have sorted := StableSort.mergeSort_place (rising.sublist kept) not_before_iff
  have forgotten : ((firstOfEach ∅ (candidates.zipIdx.map fun entry => decorate entry.1 entry.2)).mergeSort
      (StableSort.byRank DecoratedCandidate.rank)).map DecoratedCandidate.candidate =
      ((firstOfEach ∅ (candidates.zipIdx.map fun entry => decorate entry.1 entry.2)).map
        DecoratedCandidate.candidate).mergeSort (StableSort.byRank rank) := by
    refine List.map_mergeSort fun a aMember b bMember => ?_
    simp only [StableSort.byRank, (labelled a (kept.subset aMember)).2, (labelled b (kept.subset bMember)).2]
  rw [rankUnique, sorted, forgotten, first]
  simp

/-- Two candidates do not repeat one another. -/
def Apart (swift : SwiftString) (a b : Candidate ComposingCount) : Prop :=
  identity swift b = none ∨ identity swift b ≠ identity swift a

/-- Not repeating is mutual. -/
theorem Apart.symm {a b : Candidate ComposingCount} (apart : Apart swift a b) : Apart swift b a := by
  rcases apart with missing | differs
  · rcases (identity swift a).eq_none_or_eq_some with none_too | ⟨own, is_own⟩
    · exact .inl none_too
    · exact .inr (by simp [missing, is_own])
  · exact .inr differs.symm

/-- No candidate repeats an earlier one once the later ones are gone. -/
theorem withoutLater_apart (candidates : List (Candidate ComposingCount)) :
    (withoutLater swift candidates).Pairwise (Apart swift) := by
  induction candidates with
  | nil => exact .nil
  | cons first rest ih =>
    rw [withoutLater, List.pairwise_cons]
    refine ⟨fun other member => ?_, ih.sublist List.filter_sublist⟩
    simpa [Apart] using (List.mem_filter.mp member).2

/-- Candidates that do not repeat one another all stay. -/
theorem withoutLater_of_apart {candidates : List (Candidate ComposingCount)}
    (apart : candidates.Pairwise (Apart swift)) : withoutLater swift candidates = candidates := by
  induction candidates with
  | nil => rfl
  | cons first rest ih =>
    obtain ⟨ahead, behind⟩ := List.pairwise_cons.mp apart
    rw [withoutLater, ih behind, List.filter_eq_self.mpr]
    intro other member
    simpa [Apart] using ahead other member

/-- Only candidates of the list stay. -/
theorem withoutLater_sublist (candidates : List (Candidate ComposingCount)) :
    (withoutLater swift candidates).Sublist candidates := by
  induction candidates with
  | nil => exact .slnil
  | cons first rest ih => exact (List.filter_sublist.trans ih).cons_cons first

/-- A candidate stays, or another one of its identity does. -/
theorem withoutLater_complete {candidates : List (Candidate ComposingCount)} {candidate : Candidate ComposingCount}
    (member : candidate ∈ candidates) : ∃ other ∈ withoutLater swift candidates,
      other = candidate ∨ (identity swift candidate ≠ none ∧ identity swift other = identity swift candidate) := by
  induction candidates with
  | nil => cases member
  | cons first rest ih =>
    rcases List.mem_cons.mp member with rfl | later
    · exact ⟨candidate, by simp [withoutLater], .inl rfl⟩
    · obtain ⟨other, stays, stands⟩ := ih later
      -- What stood for the candidate in the rest stays, unless the first candidate stands for both.
      by_cases apart : identity swift other = none ∨ identity swift other ≠ identity swift first
      · exact ⟨other, List.mem_cons_of_mem _ (List.mem_filter.mpr ⟨stays, by simpa using apart⟩), stands⟩
      · obtain ⟨present, same⟩ := not_or.mp apart
        have same := Classical.not_not.mp same
        refine ⟨first, by simp [withoutLater], .inr ?_⟩
        rcases stands with rfl | ⟨has, shared⟩
        · exact ⟨present, same.symm⟩
        · exact ⟨has, same.symm.trans shared⟩

/-- A list that is ranked: a stable sort of the candidates that do not repeat an earlier one. -/
structure Ranked (swift : SwiftString) (rank : Candidate ComposingCount → WithTop Nat)
    (candidates result : List (Candidate ComposingCount)) : Prop where
  stable : result = (withoutLater swift candidates).mergeSort (StableSort.byRank rank)
  ascending : result.Pairwise fun a b => rank a ≤ rank b
  level : ∀ at_rank, result.filter (fun candidate => rank candidate = at_rank) =
    (withoutLater swift candidates).filter fun candidate => rank candidate = at_rank
  complete : ∀ candidate ∈ candidates, ∃ other ∈ result,
    other = candidate ∨ (identity swift candidate ≠ none ∧ identity swift other = identity swift candidate)
  known : ∀ candidate ∈ result, candidate ∈ candidates

/-- A sorted list without repetition is ranked. -/
theorem ranked_mergeSort (rank : Candidate ComposingCount → WithTop Nat)
    (candidates : List (Candidate ComposingCount)) :
    Ranked swift rank candidates ((withoutLater swift candidates).mergeSort (StableSort.byRank rank)) where
  stable := rfl
  ascending := (StableSort.pairwise_mergeSort rank _).imp fun ordered => by simpa [StableSort.byRank] using ordered
  level := StableSort.filter_mergeSort rank _
  complete := fun _ member => by simpa using withoutLater_complete member
  known := fun _ member => (withoutLater_sublist candidates).subset (by simpa using member)

/-- A ranked list is not changed by ranking it again. -/
theorem mergeSort_again (rank : Candidate ComposingCount → WithTop Nat)
    (candidates : List (Candidate ComposingCount)) :
    (withoutLater swift ((withoutLater swift candidates).mergeSort (StableSort.byRank rank))).mergeSort
        (StableSort.byRank rank) =
      (withoutLater swift candidates).mergeSort (StableSort.byRank rank) := by
  have apart : ((withoutLater swift candidates).mergeSort (StableSort.byRank rank)).Pairwise (Apart swift) :=
    ((List.mergeSort_perm _ _).pairwise_iff Apart.symm).mpr (withoutLater_apart candidates)
  rw [withoutLater_of_apart apart, List.mergeSort_of_pairwise (StableSort.pairwise_mergeSort rank _)]

variable (swift)

/-- The identities that were recorded since everything was cleared last. -/
def recorded (ops : List RecentLearningOp) : List RecentIdentity :=
  ops.foldl (fun identities op =>
    match op with
    | .record candidate => identities ++ (identity swift candidate).toList
    | .clear => []) []

/-- A recorded candidate is added by its identity. -/
theorem recorded_record (ops : List RecentLearningOp) (candidate : Candidate ComposingCount) :
    recorded swift (ops ++ [.record candidate]) = recorded swift ops ++ (identity swift candidate).toList := by
  simp [recorded]

/-- Nothing is recorded once everything was cleared. -/
theorem recorded_clear (ops : List RecentLearningOp) : recorded swift (ops ++ [.clear]) = [] := by
  simp [recorded]

variable {swift}

/-- Dropping one value and then repetitions is the same as the other way round. -/
theorem eraseDups_filter_ne (identities : List RecentIdentity) (own : RecentIdentity) :
    (identities.filter (· ≠ own)).eraseDups = identities.eraseDups.filter (· ≠ own) := by
  -- What is left after a first value and its repetitions is shorter.
  induction length : identities.length using Nat.strong_induction_on generalizing identities with
  | _ bound ih =>
    cases identities with
    | nil => rfl
    | cons first rest =>
      have shorter : (rest.filter fun other => !other == first).length < bound := by
        rw [← length]
        exact Nat.lt_succ_of_le (List.length_filter_le _ _)
      have later := ih _ shorter (rest.filter fun other => !other == first) rfl
      rw [List.eraseDups_cons]
      by_cases same : first = own
      · subst same
        rw [List.filter_cons_of_neg (by simp), List.filter_cons_of_neg (by simp), ← later, List.filter_filter]
        congr 1
        refine List.filter_congr fun other _ => ?_
        by_cases repeated : other = first <;> simp [repeated]
      · rw [List.filter_cons_of_pos (by simpa using same), List.filter_cons_of_pos (by simpa using same),
          List.eraseDups_cons, ← later, List.filter_filter, List.filter_filter]
        congr 2
        refine List.filter_congr fun other _ => ?_
        exact Bool.and_comm _ _

/-- Values without repetition are not repeated. -/
theorem nodup_eraseDups (identities : List RecentIdentity) : identities.eraseDups.Nodup := by
  induction length : identities.length using Nat.strong_induction_on generalizing identities with
  | _ bound ih =>
    cases identities with
    | nil => simp
    | cons first rest =>
      rw [List.eraseDups_cons, List.nodup_cons]
      refine ⟨by simp, ih _ ?_ _ rfl⟩
      rw [← length]
      exact Nat.lt_succ_of_le (List.length_filter_le _ _)

/-- A newest value comes in front of as much of a list as if the list had not been cut before. -/
theorem take_cons_filter {identities : List RecentIdentity} (distinct : identities.Nodup) (own : RecentIdentity)
    (capacity : Nat) : (own :: (identities.take capacity).filter (· ≠ own)).take capacity =
      (own :: identities.filter (· ≠ own)).take capacity := by
  cases capacity with
  | zero => rfl
  | succ room =>
    rw [List.take_succ_cons, List.take_succ_cons]
    congr 1
    -- At most one value is dropped from what was kept, which leaves enough of it.
    have split := List.take_append_drop (room + 1) identities
    have kept : (identities.filter (· ≠ own)).take room =
        (((identities.take (room + 1)).filter (· ≠ own)) ++ (identities.drop (room + 1)).filter (· ≠ own)).take room := by
      rw [← List.filter_append, split]
    by_cases long : room + 1 ≤ identities.length
    · have enough : room ≤ ((identities.take (room + 1)).filter (· ≠ own)).length := by
        have part : (identities.take (room + 1)).Nodup := distinct.sublist (List.take_sublist _ _)
        have erased : (identities.take (room + 1)).filter (· ≠ own) = (identities.take (room + 1)).erase own := by
          rw [part.erase_eq_filter]
          refine List.filter_congr fun other _ => ?_
          by_cases same : other = own <;> simp [same]
        rw [erased]
        rw [List.length_erase, List.length_take]
        split <;> omega
      rw [kept, List.take_append_of_le_length enough]
    · rw [List.take_of_length_le (by omega : identities.length ≤ room + 1)]

variable (swift) in
/-- What a run leaves: the entries recorded last, which say how long their rubies are, within the capacity. -/
theorem exec_entries (capacity : Nat) (ops : List RecentLearningOp) :
    let s := exec (step swift) (new capacity) ops
    s.capacity = max 1 capacity ∧ Measured swift s.entries ∧
      s.entries = ((recorded swift ops).reverse.eraseDups).take (max 1 capacity) := by
  induction ops using List.reverseRecOn with
  | nil => exact ⟨rfl, fun _ member => (nomatch member), by simp [new, recorded]⟩
  | append_singleton ops op ih =>
    obtain ⟨bound, measured, entries⟩ := ih
    have grown : exec (step swift) (new capacity) (ops ++ [op]) = (exec (step swift) (new capacity) ops).step swift op := by
      rw [exec_append]
      rfl
    cases op with
    | clear =>
      rw [grown, recorded_clear]
      exact ⟨bound, fun _ member => (nomatch member), by simp [step, clear]⟩
    | record candidate =>
      rw [grown, recorded_record, step, record]
      rcases (identity swift candidate).eq_none_or_eq_some with missing | ⟨own, is_own⟩
      · -- A candidate that cannot be read in kana is not learned.
        simp only [missing, Option.toList_none, List.append_nil]
        exact ⟨bound, measured, entries⟩
      · simp only [is_own, Option.toList_some, List.reverse_append, List.reverse_singleton, List.singleton_append]
        refine ⟨bound, fun entry member => ?_, ?_⟩
        · rcases List.mem_cons.mp (List.mem_of_mem_take member) with rfl | earlier
          · obtain ⟨ruby, _, same⟩ := Option.map_eq_some_iff.mp is_own
            rw [← same]
          · exact measured entry (List.mem_filter.mp earlier).1
        · rw [bound, entries, take_cons_filter (nodup_eraseDups _), ← eraseDups_filter_ne, List.eraseDups_cons]
          congr 4
          funext other
          by_cases same : other = own <;> simp [same]

/-- What can be relied on after a run: which entries are kept, and that ranking sorts by them. -/
structure Learned (swift : SwiftString) (module : ComposingTextModule χ) (capacity : Nat)
    (ops : List RecentLearningOp) (s : RecentLearningOverlay) : Prop where
  entries : s.entries = ((recorded swift ops).reverse.eraseDups).take (max 1 capacity)
  untouched : s.entries = [] → ∀ main first composing, s.rank swift module main first composing = (main, first)
  main : s.entries ≠ [] → ∀ main first composing,
    Ranked swift (mainRank swift module s.entries composing) main (s.rank swift module main first composing).1
  firstClause : s.entries ≠ [] → ∀ main first composing,
    Ranked swift (firstClauseRank swift module s.entries composing) first
      (s.rank swift module main first composing).2
  again : ∀ main first composing,
    s.rank swift module (s.rank swift module main first composing).1 (s.rank swift module main first composing).2
      composing = s.rank swift module main first composing

/-- With entries, both lists are sorted by their ranks. -/
theorem rank_eq {s : RecentLearningOverlay} (measured : Measured swift s.entries) (filled : s.entries ≠ [])
    (main first : List (Candidate ComposingCount)) (composing : χ) :
    s.rank swift module main first composing =
      ((withoutLater swift main).mergeSort (StableSort.byRank (mainRank swift module s.entries composing)),
        (withoutLater swift first).mergeSort (StableSort.byRank (firstClauseRank swift module s.entries composing))) := by
  rw [rank, if_neg (by simpa using filled)]
  exact Prod.ext (rankUnique_spec (decorateMain_spec measured composing) main)
    (rankUnique_spec (decorateFirstClause_spec s.entries composing) first)

/-- After every sequence of calls, the entries are those recorded last, and ranking agrees with its plain description
and loses no candidate. -/
theorem run_learned (swift : SwiftString) (module : ComposingTextModule χ) (capacity : Nat)
    (ops : List RecentLearningOp) :
    Learned swift module capacity ops (exec (step swift) (new capacity) ops) := by
  obtain ⟨_, measured, entries⟩ := exec_entries swift capacity ops
  refine ⟨entries, fun empty main first composing => ?_, fun filled main first composing => ?_,
    fun filled main first composing => ?_, fun main first composing => ?_⟩
  · rw [rank, if_pos (by simpa using empty)]
  · rw [rank_eq measured filled]
    exact ranked_mergeSort _ main
  · rw [rank_eq measured filled]
    exact ranked_mergeSort _ first
  · by_cases empty : (exec (step swift) (new capacity) ops).entries = []
    · simp [rank, empty]
    · rw [rank_eq measured empty, rank_eq measured empty, mergeSort_again, mergeSort_again]

/-- Composing text that is typed as it is shown. -/
def plainComposing : ComposingTextModule Text where
  inputCount := List.length
  convertTarget := id
  prefixComplete composing count := composing.drop (taken count)
where
  taken : ComposingCount → Nat
    | .inputCount count | .surfaceCount count => count.toNat
    | .composite lhs rhs => taken lhs + taken rhs

/-- A candidate for the first clause that has an entry of its own is not ranked by it, when the composing text begins
with something else. -/
theorem rank_unfitting :
    let learned : Candidate ComposingCount := ⟨['亜'], [⟨['亜'], ['ア']⟩], .surfaceCount 1, true⟩
    let other : Candidate ComposingCount := ⟨['胃'], [⟨['胃'], ['イ']⟩], .surfaceCount 1, true⟩
    let s := exec (step .scalars) (new 128) [.record learned]
    let ownRank := fun candidate => rankOf (s.entries.findIdx? fun entry => identity .scalars candidate = some entry)
    ownRank learned < ownRank other ∧ (s.rank .scalars plainComposing [] [other, learned] ['い']).2 = [other, learned] := by
  intro learned other s ownRank
  have measured : Measured .scalars s.entries := (exec_entries .scalars 128 [.record learned]).2.1
  have kept : withoutLater .scalars [other, learned] = [other, learned] := by decide
  refine ⟨by decide, ?_⟩
  rw [rank_eq measured (by decide), kept]
  -- Neither candidate has a rank, so they stay as they are.
  exact List.mergeSort_of_pairwise (by decide)

end RecentLearningOverlay

end Nospacekey
