import Mathlib.Data.List.Basic

/-! Lists whose leading elements are the ones that satisfy a predicate. -/

namespace Partition

variable {α : Type*} {p : α → Bool}

/-- Whatever satisfies the predicate is preceded by nothing that does not. -/
def Leading (p : α → Bool) (list : List α) : Prop := list.Pairwise fun a b => p b = true → p a = true

/-- Nothing behind an element that fails the predicate satisfies it. -/
theorem Leading.fails {head : α} {rest : List α} (leading : Leading p (head :: rest)) (fails : p head = false) :
    ∀ a ∈ rest, p a = false := by
  intro a member
  by_contra holds
  have := (List.pairwise_cons.mp leading).1 a member (by simpa using holds)
  rw [fails] at this
  cases this

/-- The leading elements that satisfy the predicate are all that do. -/
theorem Leading.takeWhile_eq {list : List α} (leading : Leading p list) : list.takeWhile p = list.filter p := by
  induction list with
  | nil => rfl
  | cons head rest ih =>
    cases holds : p head with
    | true => rw [List.takeWhile_cons_of_pos holds, List.filter_cons_of_pos holds, ih leading.of_cons]
    | false =>
      -- The first failure is followed by failures only.
      rw [List.takeWhile_cons_of_neg (by simp [holds]), List.filter_cons_of_neg (by simp [holds])]
      exact (List.filter_eq_nil_iff.mpr fun a member => by simp [leading.fails holds a member]).symm

/-- What is behind the leading elements are all that fail the predicate. -/
theorem Leading.dropWhile_eq {list : List α} (leading : Leading p list) :
    list.dropWhile p = list.filter fun a => !p a := by
  induction list with
  | nil => rfl
  | cons head rest ih =>
    cases holds : p head with
    | true => rw [List.dropWhile_cons_of_pos holds, List.filter_cons_of_neg (by simp [holds]), ih leading.of_cons]
    | false =>
      rw [List.dropWhile_cons_of_neg (by simp [holds]), List.filter_cons_of_pos (by simp [holds])]
      congr 1
      exact (List.filter_eq_self.mpr fun a member => by simp [leading.fails holds a member]).symm

end Partition
