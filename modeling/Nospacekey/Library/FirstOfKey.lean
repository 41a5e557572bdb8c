import Mathlib.Data.List.Induction
import Mathlib.Data.List.Nodup

/-! The first item of every key. -/

namespace FirstOfKey

variable {α κ : Type*} [DecidableEq κ] (key : α → κ)

/-- The items the key of which is new: neither seen before nor that of an earlier item. -/
def newItems (seen : List κ) : List α → List α
  | [] => []
  | item :: rest =>
    if key item ∈ seen then newItems seen rest else item :: newItems (key item :: seen) rest

variable {key}

/-- It does not matter in which order keys were seen. -/
theorem newItems_congr {seen other : List κ} (same : ∀ k, k ∈ seen ↔ k ∈ other) (list : List α) :
    newItems key seen list = newItems key other list := by
  induction list generalizing seen other with
  | nil => rfl
  | cons item rest ih =>
    have grown : ∀ k, k ∈ key item :: seen ↔ k ∈ key item :: other := by
      intro k
      rw [List.mem_cons, List.mem_cons, same]
    simp only [newItems, same, ih same, ih grown]

/-- A last item is new if its key is not among those before it. -/
theorem newItems_concat (seen : List κ) (list : List α) (last : α) :
    newItems key seen (list ++ [last]) =
      newItems key seen list ++ if key last ∈ seen ∨ key last ∈ list.map key then [] else [last] := by
  induction list generalizing seen with
  | nil => simp [newItems]
  | cons item rest ih =>
    rw [List.cons_append, newItems, newItems, ih, ih]
    -- The key of the first item counts as seen either way.
    by_cases known : key item ∈ seen
    · rw [if_pos known, if_pos known]
      have : key last = key item → key last ∈ seen := fun same => same ▸ known
      congr 2
      simp only [List.map_cons, List.mem_cons]
      grind
    · rw [if_neg known, if_neg known, List.cons_append]
      congr 3
      simp only [List.map_cons, List.mem_cons]
      grind

/-- By places: the new items are those with a key that neither was seen nor stands before them. -/
theorem newItems_eq_filter (seen : List κ) (list : List α) :
    newItems key seen list =
      (list.zipIdx.filter fun entry => key entry.1 ∉ seen ∧ key entry.1 ∉ (list.take entry.2).map key).map Prod.fst := by
  induction list using List.reverseRecOn with
  | nil => rfl
  | append_singleton list last ih =>
    rw [newItems_concat, ih, List.zipIdx_append, List.filter_append, List.map_append]
    congr 1
    · -- What stands before an item is the same in the longer list.
      congr 1
      refine List.filter_congr fun entry inside => ?_
      have place : entry.2 < list.length := by
        have := List.snd_lt_of_mem_zipIdx inside
        omega
      rw [List.take_append_of_le_length (Nat.le_of_lt place)]
    · by_cases known : key last ∈ seen ∨ key last ∈ list.map key
      · simp only [if_pos known, List.zipIdx_singleton, Nat.zero_add, List.filter_cons, List.filter_nil]
        rw [if_neg, List.map_nil]
        simpa [or_iff_not_imp_left] using known
      · simp only [if_neg known, List.zipIdx_singleton, Nat.zero_add, List.filter_cons, List.filter_nil]
        rw [if_pos, List.map_singleton]
        simpa [not_or] using known

theorem newItems_sublist (seen : List κ) (list : List α) : (newItems key seen list).Sublist list := by
  induction list generalizing seen with
  | nil => exact .slnil
  | cons item rest ih =>
    rw [newItems]
    split
    · exact (ih seen).cons item
    · exact (ih _).cons_cons item

/-- Every key is seen after that. -/
theorem mem_keys_newItems (seen : List κ) (list : List α) (k : κ) :
    k ∈ (newItems key seen list).map key ↔ k ∈ list.map key ∧ k ∉ seen := by
  induction list generalizing seen with
  | nil => simp [newItems]
  | cons item rest ih =>
    rw [newItems]
    split <;> rename_i known
    · rw [ih, List.map_cons, List.mem_cons]
      grind
    · rw [List.map_cons, List.mem_cons, ih, List.map_cons, List.mem_cons, List.mem_cons]
      grind

/-- No key is there twice. -/
theorem nodup_keys_newItems (seen : List κ) (list : List α) : ((newItems key seen list).map key).Nodup := by
  induction list generalizing seen with
  | nil => exact .nil
  | cons item rest ih =>
    rw [newItems]
    split
    · exact ih seen
    · refine List.nodup_cons.mpr ⟨?_, ih _⟩
      simp [mem_keys_newItems]

/-- Nothing is new where all keys were seen. -/
theorem newItems_of_seen {seen : List κ} {list : List α} (known : ∀ item ∈ list, key item ∈ seen) :
    newItems key seen list = [] := by
  have none_new : ∀ item, item ∉ newItems key seen list := by
    intro item inside
    have := (mem_keys_newItems seen list (key item)).mp (List.mem_map_of_mem inside)
    exact this.2 (known item ((newItems_sublist seen list).subset inside))
  exact List.eq_nil_iff_forall_not_mem.mpr none_new

end FirstOfKey
