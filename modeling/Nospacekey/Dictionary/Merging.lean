import Nospacekey.Dictionary.Keys
import Nospacekey.Library.FirstOfKey

/-! What an import adds, and what a load drops: of every key the first entry stays. -/

namespace Nospacekey

open FirstOfKey

/-! ## Imports -/

def isValidEntry (e : UserDictEntry) : Bool :=
  match validateEntry e.ruby e.word with
  | .ok () => true
  | .error _ => false

/-- The rows that an import adds: by places, the first valid row of every key that no entry has. -/
def newRows (existing rows : List UserDictEntry) : List UserDictEntry :=
  let valid := rows.filter isValidEntry
  (valid.zipIdx.filter fun entry =>
    entryKey entry.1 ∉ existing.map entryKey ∧ entryKey entry.1 ∉ (valid.take entry.2).map entryKey).map Prod.fst

theorem newRows_eq (existing rows : List UserDictEntry) :
    newRows existing rows = newItems entryKey (existing.map entryKey) (rows.filter isValidEntry) := by
  rw [newItems_eq_filter, newRows]
  exact congrArg _ (List.filter_congr fun _ _ => decide_eq_decide.mpr Iff.rfl)

/-- Every row is added, counted as there already, or counted as invalid. -/
theorem foldl_mergeRow (rows : List UserDictEntry) (state : MergeState) :
    let result := rows.foldl mergeRow state
    let new := newItems entryKey state.seen (rows.filter isValidEntry)
    result.existing = state.existing ++ new ∧ result.added = state.added + new.length ∧
      result.added + result.skippedDup + result.skippedInvalid =
        state.added + state.skippedDup + state.skippedInvalid + rows.length := by
  induction rows generalizing state with
  | nil => simp [newItems]
  | cons row rows ih =>
    have later := ih (mergeRow state row)
    rw [List.foldl_cons, List.length_cons]
    cases valid : validateEntry row.ruby row.word with
    | error wrong =>
      -- An invalid row leaves what was seen as it is.
      have dropped : isValidEntry row = false := by rw [isValidEntry, valid]
      simp only [mergeRow, valid] at later
      simp only [List.filter_cons, dropped, Bool.false_eq_true, if_false, mergeRow, valid, later, true_and]
      omega
    | ok _ =>
      have kept : isValidEntry row = true := by rw [isValidEntry, valid]
      by_cases known : entryKey row ∈ state.seen
      · simp only [mergeRow, valid, known, if_true] at later
        simp only [List.filter_cons, kept, if_true, mergeRow, valid, known, newItems, later, true_and]
        omega
      · simp only [mergeRow, valid, known, if_false] at later
        simp only [List.filter_cons, kept, if_true, mergeRow, valid, known, if_false, newItems, List.append_assoc,
          List.singleton_append, List.length_cons, later, true_and]
        omega

/-- An import adds the new rows behind the entries, and accounts for all others. -/
theorem mergeImported_eq (existing rows : List UserDictEntry) (hadReplacement : Bool) :
    let merged := mergeImported existing rows hadReplacement
    merged.1 = existing ++ newRows existing rows ∧ merged.2.added = (newRows existing rows).length ∧
      merged.2.added + merged.2.skippedDup + merged.2.skippedInvalid = rows.length := by
  obtain ⟨whole, added, counted⟩ := foldl_mergeRow rows ⟨existing, existing.map entryKey, 0, 0, 0, false⟩
  rw [newRows_eq]
  exact ⟨whole, by simpa [mergeImported] using added, by simpa [mergeImported] using counted⟩

/-- Rows that were imported are not new any more. -/
theorem newRows_again (existing rows : List UserDictEntry) : newRows (existing ++ newRows existing rows) rows = [] := by
  rw [newRows_eq, newRows_eq]
  refine newItems_of_seen fun row inside => ?_
  rw [List.map_append, List.mem_append]
  -- The key of a valid row was there, or it was added.
  by_cases known : entryKey row ∈ existing.map entryKey
  · exact .inl known
  · exact .inr ((mem_keys_newItems _ _ _).mpr ⟨List.mem_map_of_mem inside, known⟩)

/-- Another import of the same rows adds nothing. -/
theorem mergeImported_again (existing rows : List UserDictEntry) (first second : Bool) :
    let merged := (mergeImported existing rows first).1
    (mergeImported merged rows second).1 = merged ∧ (mergeImported merged rows second).2.added = 0 := by
  obtain ⟨whole, -⟩ := mergeImported_eq existing rows first
  obtain ⟨again, added, -⟩ := mergeImported_eq (mergeImported existing rows first).1 rows second
  simp only
  rw [again, added, whole, newRows_again]
  simp

/-! ## Loads -/

/-- The entries that a load keeps: by places, the first one of every key. -/
def firstEntries (entries : List UserDictEntry) : List UserDictEntry :=
  (entries.zipIdx.filter fun entry => entryKey entry.1 ∉ (entries.take entry.2).map entryKey).map Prod.fst

theorem firstEntries_eq (entries : List UserDictEntry) : firstEntries entries = newItems entryKey [] entries := by
  rw [newItems_eq_filter, firstEntries]
  simp

theorem dedupEntries_eq (entries : List UserDictEntry) :
    dedupEntries entries = (firstEntries entries, entries.length - (firstEntries entries).length) := by
  -- The loop keeps what is new beside what was seen, and counts all others.
  have run (entries : List UserDictEntry) (seen : List (Text × Text)) (out : List UserDictEntry) (deduped : Nat) :
      (entries.foldl (fun (state : List (Text × Text) × List UserDictEntry × Nat) e =>
        if entryKey e ∈ state.1 then (state.1, state.2.1, state.2.2 + 1)
        else (entryKey e :: state.1, state.2.1 ++ [e], state.2.2)) (seen, out, deduped)).2 =
        (out ++ newItems entryKey seen entries, deduped + (entries.length - (newItems entryKey seen entries).length)) := by
    induction entries generalizing seen out deduped with
    | nil => simp [newItems]
    | cons e entries ih =>
      have short := (@newItems_sublist _ _ _ entryKey seen entries).length_le
      by_cases known : entryKey e ∈ seen
      · simp only [List.foldl_cons, known, if_true, newItems, ih, List.length_cons, Prod.mk.injEq, true_and]
        omega
      · simp only [List.foldl_cons, known, if_false, newItems, ih, List.length_cons, List.append_assoc,
          List.singleton_append, Nat.add_sub_add_right]
  have started : dedupEntries entries = _ := run entries [] [] 0
  rw [started, firstEntries_eq]
  simp

end Nospacekey
