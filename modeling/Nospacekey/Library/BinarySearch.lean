import Mathlib.Order.Defs.LinearOrder
import Mathlib.Data.List.Basic
import Mathlib.Data.List.Sort

/-! Binary search over a sorted list, as slices of the standard library perform it. -/

namespace BinarySearch

variable {α : Type*} [LinearOrder α]

/-- Halve the window until one element is left, moving its base up while the probe is not greater. -/
def narrow (list : List α) (target : α) : Nat → Nat → Nat → Nat
  -- The fuel bounds the number of halvings, and the window's size always suffices.
  | 0, base, _ => base
  | fuel + 1, base, size =>
    if size ≤ 1 then base
    else
      let half := size / 2
      let mid := base + half
      let next := match list[mid]? with
        | some probe => if target < probe then base else mid
        | none => base
      narrow list target fuel next (size - half)

/-- The index of an element equal to the target, or none. -/
def binarySearch (list : List α) (target : α) : Option Nat :=
  if list.isEmpty then none
  else
    let base := narrow list target list.length 0 list.length
    if list[base]? = some target then some base else none

/-- A reported index holds the target. -/
theorem binarySearch_sound {list : List α} {target : α} {index : Nat}
    (found : binarySearch list target = some index) : list[index]? = some target := by
  -- The final comparison checks the element before reporting it.
  unfold binarySearch at found
  split at found
  · cases found
  · simp only [Option.ite_none_right_eq_some, Option.some.injEq] at found
    exact found.2 ▸ found.1

/-- Narrowing keeps the target's position inside the window. -/
theorem narrow_finds {list : List α} (sorted : list.Pairwise (· < ·)) {target : α} {index : Nat}
    (present : list[index]? = some target) :
    ∀ fuel base size, size ≤ fuel + 1 → 0 < size → base ≤ index → index < base + size →
      narrow list target fuel base size = index := by
  -- Each halving keeps the half in which a sorted list can hold the target.
  intro fuel
  induction fuel with
  | zero =>
    intro base size bounded positive low high
    simp only [narrow]
    omega
  | succ fuel ih =>
    intro base size bounded positive low high
    simp only [narrow]
    split
    · omega
    · rename_i large
      have inside : index < list.length := (List.getElem?_eq_some_iff.mp present).1
      have value : list[index] = target := (List.getElem?_eq_some_iff.mp present).2
      have ordered := List.pairwise_iff_getElem.mp sorted
      rcases Nat.lt_or_ge (base + size / 2) list.length with within | beyond
      · rw [List.getElem?_eq_getElem within]
        dsimp only
        split
        · -- The probe is greater, so the target lies strictly below the probe.
          rename_i greater
          have below : index < base + size / 2 := by
            by_contra notBelow
            rcases Nat.eq_or_lt_of_le (Nat.le_of_not_lt notBelow) with same | after
            · subst same
              exact absurd greater (by rw [← value]; exact lt_irrefl _)
            · have := ordered _ _ within inside after
              rw [value] at this
              exact lt_asymm this greater
          exact ih base (size - size / 2) (by omega) (by omega) low (by omega)
        · -- Otherwise the target lies at the probe or above it.
          rename_i notGreater
          have above : base + size / 2 ≤ index := by
            by_contra notAbove
            have := ordered _ _ inside within (by omega)
            rw [value] at this
            exact notGreater this
          exact ih (base + size / 2) (size - size / 2) (by omega) (by omega) above (by omega)
      · rw [List.getElem?_eq_none beyond]
        exact ih base (size - size / 2) (by omega) (by omega) low (by omega)

/-- On a strictly sorted list the search succeeds exactly on its members. -/
theorem binarySearch_isSome_iff {list : List α} (sorted : list.Pairwise (· < ·)) {target : α} :
    (binarySearch list target).isSome ↔ target ∈ list := by
  constructor
  · intro found
    obtain ⟨index, located⟩ := Option.isSome_iff_exists.mp found
    exact List.mem_of_getElem? (binarySearch_sound located)
  · intro member
    obtain ⟨index, present⟩ := List.mem_iff_getElem?.mp member
    have inside : index < list.length := (List.getElem?_eq_some_iff.mp present).1
    have located := narrow_finds sorted present list.length 0 list.length (by omega) (by omega)
      (by omega) (by omega)
    have nonempty : list.isEmpty = false := by
      cases list with
      | nil => simp at inside
      | cons => rfl
    simp [binarySearch, nonempty, located, present]

end BinarySearch
