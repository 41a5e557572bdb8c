import Mathlib.Data.List.Sort
import Mathlib.Order.Lattice

/-! Sorting by a rank with the place as a tie break is the same as sorting stably by the rank. -/

namespace StableSort

variable {α β : Type*} [LinearOrder β]

/-- One entry may stand before another. -/
def byRank (rank : α → β) (a b : α) : Bool := rank a ≤ rank b

/-- Ranks are compared transitively. -/
theorem byRank_trans (rank : α → β) (a b c : α) (first : byRank rank a b) (second : byRank rank b c) :
    byRank rank a c := by
  simp only [byRank, decide_eq_true_eq] at *
  exact first.trans second

/-- Of two entries one may stand before the other. -/
theorem byRank_total (rank : α → β) (a b : α) : byRank rank a b || byRank rank b a := by
  simp only [byRank, Bool.or_eq_true, decide_eq_true_eq]
  exact le_total _ _

/-- A list that is sorted by rank has its ranks in order. -/
theorem pairwise_mergeSort (rank : α → β) (list : List α) :
    (list.mergeSort (byRank rank)).Pairwise fun a b => byRank rank a b :=
  List.pairwise_mergeSort (byRank_trans rank) (byRank_total rank) list

/-- The entries of one rank keep their order when a list is sorted by rank. -/
theorem filter_mergeSort (rank : α → β) (list : List α) (level : β) :
    (list.mergeSort (byRank rank)).filter (fun a => rank a = level) = list.filter fun a => rank a = level := by
  -- Entries of one rank are sorted already, so they come out in a row of the same order.
  have level_sorted : (list.filter fun a => rank a = level).Pairwise fun a b => byRank rank a b := by
    refine List.pairwise_of_forall_mem_list fun a first b second => ?_
    have first := (List.mem_filter.mp first).2
    have second := (List.mem_filter.mp second).2
    simp only [decide_eq_true_eq] at first second
    simp [byRank, first, second]
  have kept := (List.sublist_mergeSort (byRank_trans rank) (byRank_total rank) level_sorted
    List.filter_sublist).filter fun a => rank a = level
  rw [List.filter_filter] at kept
  simp only [Bool.and_self] at kept
  exact (kept.eq_of_length ((List.mergeSort_perm list (byRank rank)).filter _).length_eq.symm).symm

/-- A list whose places rise is sorted by rank and place as it is by rank alone. -/
theorem mergeSort_place {rank : α → β} {place : α → Nat} {list : List α}
    (rising : list.Pairwise fun a b => place a < place b) {le : α → α → Bool}
    (lexicographic : ∀ a b, le a b = true ↔ rank a < rank b ∨ (rank a = rank b ∧ place a ≤ place b)) :
    list.mergeSort le = list.mergeSort (byRank rank) := by
  have trans : ∀ a b c, le a b → le b c → le a c := by
    intro a b c first second
    rw [lexicographic] at *
    rcases first with first | ⟨first, near⟩ <;> rcases second with second | ⟨second, far⟩
    · exact .inl (first.trans second)
    · exact .inl (second ▸ first)
    · exact .inl (first ▸ second)
    · exact .inr ⟨first.trans second, near.trans far⟩
  have total : ∀ a b, le a b || le b a := by
    intro a b
    rw [Bool.or_eq_true, lexicographic, lexicographic]
    rcases lt_trichotomy (rank a) (rank b) with below | same | above
    · exact .inl (.inl below)
    · rcases Nat.le_total (place a) (place b) with before | behind
      · exact .inl (.inr ⟨same, before⟩)
      · exact .inr (.inr ⟨same.symm, behind⟩)
    · exact .inr (.inl above)
  -- What is sorted by rank has the places of one rank in their order.
  have sorted : (list.mergeSort (byRank rank)).Pairwise fun a b => le a b := by
    rw [List.pairwise_iff_forall_sublist]
    intro a b pair
    rw [lexicographic]
    have ranked : byRank rank a b := List.pairwise_iff_forall_sublist.mp (pairwise_mergeSort rank list) pair
    rcases lt_or_eq_of_le (by simpa [byRank] using ranked : rank a ≤ rank b) with below | same
    · exact .inl below
    · right
      refine ⟨same, ?_⟩
      have level := pair.filter fun c => rank c = rank b
      rw [filter_mergeSort] at level
      have level : List.Sublist [a, b] list := by simpa [same] using level.trans List.filter_sublist
      exact Nat.le_of_lt (List.pairwise_iff_forall_sublist.mp rising level)
  refine List.Perm.eq_of_pairwise ?_ (List.pairwise_mergeSort trans total list) sorted
    ((List.mergeSort_perm list le).trans (List.mergeSort_perm list (byRank rank)).symm)
  -- Entries that may stand in either order have the same place, and no two entries share one.
  intro a b first second before behind
  have first : a ∈ list := by simpa using first
  have second : b ∈ list := by simpa using second
  have distinct : (list.map place).Nodup := (List.pairwise_map.mpr rising).imp Nat.ne_of_lt
  refine List.inj_on_of_nodup_map distinct first second ?_
  rw [lexicographic] at before behind
  rcases before with below | ⟨same, near⟩
  · rcases behind with above | ⟨same, _⟩
    · exact absurd below above.not_gt
    · exact absurd below same.not_gt
  · rcases behind with above | ⟨_, far⟩
    · exact absurd above same.not_gt
    · exact Nat.le_antisymm near far

end StableSort
